import Scriptlet.Proofs.Eval.Ground
import Scriptlet.Proofs.Phrase.Numbers
import Scriptlet.Proofs.Printer.RoundTrip

/-!
# Shown values as literals

The text that a ground value is shown by is that of a literal, and the literal makes the value again
(`Value.IsGround.isLiteral`). A negative number comes back as the negation of a natural one. The
digits of the least integer are too big for that, and they are among the tokens of every value that
has it inside (`Value.IsGround.tokenizes`).
-/
set_option autoImplicit false

namespace Scriptlet

open Token (Kind)
open Phrase (Derives)

variable {list : List Token} {c : Char} {chars : List Char}

/-! ## The least integer -/

def Value.HasLeast (value : Value) : Prop :=
  .integer Int64.minValue ∈ value.parts

namespace Value

theorem hasLeast_integer {value : Int64} : (integer value).HasLeast ↔ value = Int64.minValue := by
  simp [HasLeast, parts, eq_comm]

theorem not_hasLeast_boolean {value : Bool} : ¬(boolean value).HasLeast := by
  simp [HasLeast, parts]

theorem hasLeast_array {id : ObjectId} {elements : List Value} :
    (array id elements).HasLeast ↔ ∃ element ∈ elements, element.HasLeast := by
  simp [HasLeast, parts, mem_partsAll]

theorem hasLeast_hash {id : ObjectId} {entries : List (Table.Entry Value)} :
    (hash id ⟨entries⟩).HasLeast ↔
      ∃ entry ∈ entries, entry.shown.HasLeast ∨ entry.value.HasLeast := by
  simp [HasLeast, parts, mem_partsEntries]

end Value

/-! ## Literals -/

theorem readsItem_of_atom {text : String} {expr : Expr}
    (atom : ∀ list chars, Spells list (text.toList ++ chars) →
      ∃ tail, Spells tail chars ∧ Derives .atom list expr tail) :
    ReadsItem .element text expr := by
  intro list chars kind spells follows closing
  obtain ⟨tail, spellsTail, derives⟩ := atom list chars spells
  have stops := spellsTail.stops follows closing Tier.equality.floor expr
  have whole := (Phrase.open_atom derives).finish (Tier.rank_le_unary _) stops
  exact ⟨tail, spellsTail, .element whole⟩

theorem readsItem_negative {n : Nat} (small : n < 9223372036854775808) :
    ReadsItem .element (String.ofList ('-' :: Nat.toDigits 10 n))
      (.unary .negate (.integer (Int64.ofNat n))) := by
  intro list chars kind spells follows closing
  have spells : Spells list ('-' :: (Nat.toDigits 10 n ++ chars)) := by simpa using spells
  obtain ⟨sign, rest, rfl, isMinus, spellsRest⟩ := spells.mark rfl
  obtain ⟨tail, spellsTail, derives⟩ := derives_natural spellsRest follows.1 small
  have stops (minimum : Precedence) (expr : Expr) : Phrase.Stops minimum expr tail :=
    spellsTail.stops follows closing minimum expr
  have operand := (Phrase.open_atom derives).finish (Tier.rank_le_unary .unary) (stops _ _)
  have isSign : unaryOperator? sign.kind = some .negate := by
    rw [isMinus]
    rfl
  have signed := Phrase.unfinished_unary (.unary isSign operand) rfl .equality
  exact ⟨tail, spellsTail, .element (signed.finish (stops _ _))⟩

def Value.IsLiteral (value : Value) : Prop :=
  ∃ code : Expr, ReadsItem .element value.inspect code ∧ code.Recreates value

theorem isLiteral_integer {value : Int64} (noLeast : value ≠ Int64.minValue) :
    (Value.integer value).IsLiteral := by
  cases number : value.toInt with
  | ofNat n =>
      have natural : 0 ≤ value.toInt := by
        rw [number]
        exact Int.natCast_nonneg n
      exact ⟨.integer value, (reads_integer natural).item, recreates_integer value⟩
  | negSucc n =>
      have negated : -value = Int64.ofNat (n + 1) := by
        calc
          -value = -Int64.ofInt (Int.negSucc n) := by rw [← number, Int64.ofInt_toInt]
          _ = Int64.ofInt ((n + 1 : Nat) : Int) := by rw [← Int64.ofInt_neg, Int.neg_negSucc]
          _ = Int64.ofNat (n + 1) := Int64.ofInt_eq_ofNat
      have small : n + 1 < 9223372036854775808 := by
        have low := value.le_toInt
        have above : value.toInt ≠ Int64.minValue.toInt := mt Int64.toInt_inj.mp noLeast
        rw [Int64.toInt_minValue] at above
        omega
      refine ⟨.unary .negate (.integer (-value)), ?_, recreates_negative value⟩
      have shown : (Value.integer value).inspect =
          String.ofList ('-' :: Nat.toDigits 10 (n + 1)) := by
        rw [Value.inspect, number]
        rfl
      rw [shown, negated]
      exact readsItem_negative small

theorem isLiteral_boolean (value : Bool) : (Value.boolean value).IsLiteral :=
  ⟨.boolean value, (reads_boolean value).item, recreates_boolean value⟩

theorem exists_forall₂ {α β : Type} {related : α → β → Prop} {xs : List α}
    (each : ∀ x ∈ xs, ∃ y, related x y) : ∃ ys, List.Forall₂ related xs ys := by
  induction xs with
  | nil => exact ⟨[], .nil⟩
  | cons x xs ih =>
      obtain ⟨eachFirst, eachRest⟩ := List.forall_mem_cons.mp each
      obtain ⟨y, first⟩ := eachFirst
      obtain ⟨ys, rest⟩ := ih eachRest
      exact ⟨y :: ys, .cons first rest⟩

theorem isLiteral_array {id : ObjectId} {elements : List Value}
    (literals : ∀ element ∈ elements, element.IsLiteral) : (Value.array id elements).IsLiteral := by
  obtain ⟨items, literal⟩ := exists_forall₂ literals
  refine ⟨.array items, readsItem_of_atom fun list chars spells => ?_, ?_⟩
  · have spells : Spells list ('[' :: ((separated (elements.map Value.inspect)).toList ++
        ']' :: chars)) := by
      simpa [Value.inspect, Value.inspectAll_eq_map] using spells
    exact derives_array (List.forall₂_map_left_iff.mpr (literal.imp fun _ _ both => both.1)) spells
  · exact recreates_array id (literal.imp fun _ _ both => both.2).flip

theorem isLiteral_hash {id : ObjectId} {entries : List (Table.Entry Value)}
    (nodup : (entries.map Table.Entry.key).Nodup)
    (keyed : ∀ entry ∈ entries, entry.shown.key = .ok entry.key)
    (literals : ∀ entry ∈ entries, entry.shown.IsLiteral ∧ entry.value.IsLiteral) :
    (Value.hash id ⟨entries⟩).IsLiteral := by
  have each : ∀ entry ∈ entries, ∃ pair : Expr × Expr,
      ReadsItem .pair (entry.shown.inspect ++ ": " ++ entry.value.inspect) pair ∧
        RecreatesEntry pair entry := by
    intro entry isIn
    obtain ⟨⟨key, readsKey, recreatesKey⟩, value, readsValue, recreatesValue⟩ := literals entry isIn
    exact ⟨(key, value), readsItem_pair readsKey readsValue, recreatesKey, recreatesValue⟩
  obtain ⟨pairs, literal⟩ := exists_forall₂ each
  refine ⟨.hash pairs, readsItem_of_atom fun list chars spells => ?_, ?_⟩
  · have spells : Spells list ('\x7b' :: ((separated (entries.map fun entry =>
        entry.shown.inspect ++ ": " ++ entry.value.inspect)).toList ++ '\x7d' :: chars)) := by
      simpa [Value.inspect, Value.inspectEntries_eq_map] using spells
    exact derives_hash (List.forall₂_map_left_iff.mpr (literal.imp fun _ _ both => both.1)) spells
  · exact recreates_hash id (literal.imp fun _ _ both => both.2).flip keyed nodup

theorem Value.IsGround.isLiteral {value : Value} (ground : value.IsGround) :
    ¬value.HasLeast → value.IsLiteral := by
  refine ground.induct ?_ ?_ ?_ ?_
  · intro value noLeast
    exact isLiteral_integer (mt hasLeast_integer.mpr noLeast)
  · exact fun value _ => isLiteral_boolean value
  · intro id elements ih noLeast
    rw [hasLeast_array] at noLeast
    push Not at noLeast
    exact isLiteral_array fun element isIn => ih element isIn (noLeast element isIn)
  · intro id entries nodup keyed ih noLeast
    rw [hasLeast_hash] at noLeast
    push Not at noLeast
    exact isLiteral_hash nodup keyed fun entry isIn =>
      ⟨(ih entry isIn).1 (noLeast entry isIn).1, (ih entry isIn).2 (noLeast entry isIn).2⟩

/-! ## Tokens of shown values -/

/-- If nothing behind it goes on with its last word, the text is made of calm tokens. One of them
is a big number if this is said of the text. -/
def Tokenizes (big : Prop) (text : List Char) : Prop :=
  ∀ list chars, Spells list (text ++ chars) → Apart chars →
    ∃ front tail, list = front ++ tail ∧ Spells tail chars ∧ (∀ token ∈ front, token.IsCalm) ∧
      (big → ∃ token ∈ front, token.IsBig)

theorem isCalm_sign {token : Token} (isSign : token.kind = signKind c) : token.IsCalm := by
  refine Token.isCalm_of_kind isSign ?_
  unfold signKind
  split <;> decide

section Tokenizes

variable {big other : Prop} {text more : List Char}

theorem Tokenizes.imp (tokenizes : Tokenizes big text) (weaker : other → big) :
    Tokenizes other text := by
  intro list chars spells apart
  obtain ⟨front, tail, here, spellsTail, calm, found⟩ := tokenizes list chars spells apart
  exact ⟨front, tail, here, spellsTail, calm, fun isOther => found (weaker isOther)⟩

theorem tokenizes_nil : Tokenizes False [] :=
  fun list _ spells _ => ⟨[], list, rfl, spells, by simp, False.elim⟩

theorem tokenizes_token (one : ∀ list chars, Spells list (text ++ chars) → Apart chars →
    ∃ token tail, list = token :: tail ∧ token.IsCalm ∧ (big → token.IsBig) ∧
      Spells tail chars) : Tokenizes big text := by
  intro list chars spells apart
  obtain ⟨token, tail, rfl, calm, isBig, spellsTail⟩ := one list chars spells apart
  exact ⟨[token], tail, rfl, spellsTail, by simpa using calm, by simpa using isBig⟩

theorem Tokenizes.space (tokenizes : Tokenizes big text) : Tokenizes big (' ' :: text) :=
  fun list chars spells apart => tokenizes list chars (Spells.space spells) apart

theorem Tokenizes.mark (tokenizes : Tokenizes big text) (mark : isMark c = true) :
    Tokenizes big (c :: text) := by
  intro list chars spells apart
  obtain ⟨token, rest, rfl, isSign, spellsRest⟩ := Spells.mark spells mark
  obtain ⟨front, tail, rfl, spellsTail, calm, found⟩ := tokenizes rest chars spellsRest apart
  refine ⟨token :: front, tail, rfl, spellsTail, ?_, fun isBig => ?_⟩
  · exact List.forall_mem_cons.mpr ⟨isCalm_sign isSign, calm⟩
  · obtain ⟨number, isIn, isNumber⟩ := found isBig
    exact ⟨number, List.mem_cons_of_mem _ isIn, isNumber⟩

/-- A sign ends what stands before it. -/
theorem Tokenizes.append (first : Tokenizes big text) (second : Tokenizes other (c :: more))
    (mark : isMark c = true) : Tokenizes (big ∨ other) (text ++ c :: more) := by
  intro list chars spells apart
  rw [List.append_assoc] at spells
  obtain ⟨front, middle, rfl, spellsMiddle, calm, found⟩ :=
    first list _ spells (follows_mark mark).1
  obtain ⟨back, tail, rfl, spellsTail, calmBack, foundBack⟩ :=
    second middle chars spellsMiddle apart
  refine ⟨front ++ back, tail, (List.append_assoc ..).symm, spellsTail, ?_, ?_⟩
  · exact List.forall_mem_append.mpr ⟨calm, calmBack⟩
  · rintro (isBig | isOther)
    · obtain ⟨number, isIn, isNumber⟩ := found isBig
      exact ⟨number, List.mem_append_left _ isIn, isNumber⟩
    · obtain ⟨number, isIn, isNumber⟩ := foundBack isOther
      exact ⟨number, List.mem_append_right _ isIn, isNumber⟩

theorem tokenizes_items {α : Type} {such : α → Prop} {shown : α → String} {xs : List α}
    (tokenizes : ∀ x ∈ xs, Tokenizes (such x) (shown x).toList) (mark : isMark c = true) :
    Tokenizes (∃ x ∈ xs, such x) ((separated (xs.map shown)).toList ++ [c]) := by
  induction xs with
  | nil => exact (tokenizes_nil.mark mark).imp (by simp)
  | cons x xs ih =>
      obtain ⟨first, others⟩ := List.forall_mem_cons.mp tokenizes
      have rest := ih others
      cases xs with
      | nil => simpa [separated] using first.append (tokenizes_nil.mark mark) mark
      | cons y ys =>
          have whole := first.append (rest.space.mark (c := ',') rfl) rfl
          simpa [separated, String.intercalate_cons_cons] using whole

end Tokenizes

theorem tokenizes_natural (n : Nat) : Tokenizes (9223372036854775808 ≤ n) (Nat.toDigits 10 n) := by
  refine tokenizes_token fun list chars spells apart => ?_
  obtain ⟨token, tail, rfl, isInteger, value, spellsTail⟩ := spells.natural apart
  have calm : token.IsCalm := Token.isCalm_of_kind isInteger (by decide)
  exact ⟨token, tail, rfl, calm, fun large => ⟨isInteger, value ▸ large⟩, spellsTail⟩

theorem tokenizes_boolean (value : Bool) :
    Tokenizes False (Value.boolean value).inspect.toList := by
  refine tokenizes_token fun list chars spells apart => ?_
  have keyword : ∃ kind, Token.keywords.lookup (Value.boolean value).inspect = some kind ∧
      kind ≠ .letWord ∧ kind ≠ .returnWord := by
    cases value
    · exact ⟨.falseWord, rfl, nofun, nofun⟩
    · exact ⟨.trueWord, rfl, nofun, nofun⟩
  obtain ⟨kind, known, calm⟩ := keyword
  obtain ⟨token, tail, rfl, rfl, spellsTail⟩ := spells.keyword kind known apart
  exact ⟨token, tail, rfl, calm, False.elim, spellsTail⟩

theorem tokenizes_integer (value : Int64) :
    Tokenizes (Value.integer value).HasLeast (Value.integer value).inspect.toList := by
  rw [Value.hasLeast_integer, Value.inspect]
  cases number : value.toInt with
  | ofNat n =>
      have tokenizes : Tokenizes (value = Int64.minValue) (Nat.toDigits 10 n) := by
        refine (tokenizes_natural n).imp ?_
        rintro rfl
        cases number
      simpa [Text.decimal] using tokenizes
  | negSucc n =>
      have tokenizes : Tokenizes (value = Int64.minValue) (Nat.toDigits 10 (n + 1)) := by
        refine (tokenizes_natural (n + 1)).imp ?_
        rintro rfl
        cases number
        rfl
      simpa [Text.decimal] using tokenizes.mark (c := '-') rfl

/-- The tokens of a ground value as it is shown. The digits of the least integer are a big number. -/
theorem Value.IsGround.tokenizes {value : Value} (ground : value.IsGround) :
    Tokenizes value.HasLeast value.inspect.toList := by
  refine ground.induct tokenizes_integer ?_ ?_ ?_
  · exact fun value => (tokenizes_boolean value).imp not_hasLeast_boolean
  · intro id elements ih
    have whole := (tokenizes_items (c := ']') ih rfl).mark (c := '[') rfl
    rw [hasLeast_array]
    simpa [inspect, inspectAll_eq_map] using whole
  · intro id entries _ _ ih
    have each : ∀ entry ∈ entries, Tokenizes (entry.shown.HasLeast ∨ entry.value.HasLeast)
        (entry.shown.inspect ++ ": " ++ entry.value.inspect).toList := by
      intro entry isIn
      have pair := (ih entry isIn).1.append ((ih entry isIn).2.space.mark (c := ':') rfl) rfl
      simpa using pair
    have whole := (tokenizes_items (c := '\x7d') each rfl).mark (c := '\x7b') rfl
    rw [hasLeast_hash]
    simpa [inspect, inspectEntries_eq_map] using whole

end Scriptlet
