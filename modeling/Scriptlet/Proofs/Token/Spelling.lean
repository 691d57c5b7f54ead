import Scriptlet.Proofs.Token.Ended
import Scriptlet.Text.Decimal

/-!
# Tokens of a text, positions aside

`Spells list chars` says that the tokens are those of the characters, at whatever place these
stand in a source text. The lemmas take one token off the front: given how the characters begin,
they tell the kind and the literal of the first token and what the other tokens spell.
-/
set_option autoImplicit false

namespace Scriptlet

open Token (Kind)

/-- The tokens are those of the characters, wherever these begin. -/
def Spells (list : List Token) (chars : List Char) : Prop :=
  ∃ offset, list = (Lexer.mk offset chars false).remaining

variable {list : List Token} {c : Char} {chars : List Char}

theorem spells_tokens (source : String) : Spells (tokens source) source.toList :=
  ⟨0, rfl⟩

theorem Spells.nil (spells : Spells list []) :
    ∃ token, list = [token] ∧ token.kind = .endOfInput := by
  obtain ⟨offset, rfl⟩ := spells
  exact ⟨_, rfl, rfl⟩

theorem Spells.blank (spells : Spells list (c :: chars)) (blank : Text.isBlank c = true) :
    Spells list chars := by
  obtain ⟨offset, rfl⟩ := spells
  refine ⟨offset + c.utf8Size, ?_⟩
  have same : (Lexer.mk offset (c :: chars) false).next =
      (Lexer.mk (offset + c.utf8Size) chars false).next := by
    simp [Lexer.next, blank, byteLength, Nat.add_assoc]
  rcases Lexer.next_cases ⟨offset, c :: chars, false⟩ with
    ⟨finished, _⟩ | ⟨_, token, later, step, _⟩
  · cases finished
  · rw [Lexer.remaining_cons _ later token step,
      Lexer.remaining_cons _ later token (same.symm.trans step)]

theorem Spells.space (spells : Spells list (' ' :: chars)) : Spells list chars :=
  spells.blank rfl

theorem Spells.lexeme (spells : Spells list (c :: chars)) (ink : Text.isBlank c = false) :
    ∃ token tail, list = token :: tail ∧ token.kind = (scan c chars).kind ∧
      token.literal = (scan c chars).literal ∧ Spells tail (scan c chars).rest := by
  obtain ⟨offset, rfl⟩ := spells
  have step : (Lexer.mk offset (c :: chars) false).next =
      some (⟨(scan c chars).kind, (scan c chars).literal, offset,
        offset + byteLength (scan c chars).chars⟩,
        ⟨offset + byteLength (scan c chars).chars, (scan c chars).rest, false⟩) := by
    simp [Lexer.next, ink, byteLength]
  exact ⟨_, _, Lexer.remaining_cons _ _ _ step, rfl, rfl, _, rfl⟩

/-! ## Signs -/

theorem isWordPart_of_sign (isSign : signKind c ≠ .illegal) : isWordPart c = false := by
  unfold signKind at isSign
  split at isSign <;> first | contradiction | decide

theorem ne_quote_of_sign (isSign : signKind c ≠ .illegal) : c ≠ '"' := by
  unfold signKind at isSign
  split at isSign <;> first | contradiction | decide

/-- A sign stands for itself, unless it is the first half of a longer one. -/
theorem scan_sign (isSign : signKind c ≠ .illegal)
    (single : c = '=' ∨ c = '!' → chars.head? ≠ some '=') :
    scan c chars = ⟨signKind c, [c], chars⟩ := by
  have noPart := isWordPart_of_sign isSign
  simp only [isWordPart, Bool.or_eq_false_iff] at noPart
  unfold scan
  rw [if_neg (by simp [noPart.1]), if_neg (by simp [noPart.2]), if_neg (ne_quote_of_sign isSign)]
  split
  · exact absurd rfl (single (.inl rfl))
  · exact absurd rfl (single (.inr rfl))
  · rfl

theorem isBlank_of_sign (isSign : signKind c ≠ .illegal) : Text.isBlank c = false := by
  unfold signKind at isSign
  split at isSign <;> first | contradiction | decide

theorem Spells.sign (spells : Spells list (c :: chars)) (isSign : signKind c ≠ .illegal)
    (single : c = '=' ∨ c = '!' → chars.head? ≠ some '=') :
    ∃ token tail, list = token :: tail ∧ token.kind = signKind c ∧ Spells tail chars := by
  obtain ⟨token, tail, here, kind, _, spellsTail⟩ := spells.lexeme (isBlank_of_sign isSign)
  rw [scan_sign isSign single] at kind spellsTail
  exact ⟨token, tail, here, kind, spellsTail⟩

def isMark (c : Char) : Bool :=
  signKind c ≠ .illegal && c ≠ '=' && c ≠ '!'

theorem Spells.mark (spells : Spells list (c :: chars)) (mark : isMark c = true) :
    ∃ token tail, list = token :: tail ∧ token.kind = signKind c ∧ Spells tail chars := by
  simp only [isMark, Bool.and_eq_true, decide_eq_true_eq] at mark
  exact spells.sign mark.1.1 (by simp [mark.1.2, mark.2])

theorem Spells.equal (spells : Spells list ('=' :: '=' :: chars)) :
    ∃ token tail, list = token :: tail ∧ token.kind = .equal ∧ Spells tail chars := by
  obtain ⟨token, tail, here, kind, _, spellsTail⟩ := spells.lexeme rfl
  exact ⟨token, tail, here, kind, spellsTail⟩

theorem Spells.notEqual (spells : Spells list ('!' :: '=' :: chars)) :
    ∃ token tail, list = token :: tail ∧ token.kind = .notEqual ∧ Spells tail chars := by
  obtain ⟨token, tail, here, kind, _, spellsTail⟩ := spells.lexeme rfl
  exact ⟨token, tail, here, kind, spellsTail⟩

/-! ## Words, numbers and strings -/

theorem wordStart_bounds (start : isWordStart c = true) : 65 ≤ c.toNat ∧ c.toNat ≤ 122 := by
  have letter : (decide (c.val ≥ 65 ∧ c.val ≤ 90) ||
      (decide (c.val ≥ 97) && decide (c.val ≤ 122)) || c == '_') = true := start
  simp only [Bool.or_eq_true, Bool.and_eq_true, decide_eq_true_eq, beq_iff_eq, ge_iff_le,
    UInt32.le_iff_toNat_le] at letter
  rcases letter with (⟨low, high⟩ | ⟨low, high⟩) | rfl
  · simp at low high
    omega
  · simp at low high
    omega
  · decide

theorem wordPart_bounds (part : isWordPart c = true) : 48 ≤ c.toNat ∧ c.toNat ≤ 122 := by
  simp only [isWordPart, Bool.or_eq_true] at part
  rcases part with start | digit
  · have bounds := wordStart_bounds start
    omega
  · have bounds := Char.isDigit_iff_toNat.mp digit
    simp at bounds
    omega

theorem isBlank_of_wordPart (part : isWordPart c = true) : Text.isBlank c = false := by
  obtain ⟨low, high⟩ := wordPart_bounds part
  by_contra blank
  simp only [Bool.not_eq_false, Text.isBlank, Text.Ranges.has_iff, Text.blankRanges] at blank
  obtain ⟨range, member, le, ge⟩ := blank
  simp only [List.mem_cons, List.not_mem_nil, or_false] at member
  rcases member with rfl | rfl | rfl | rfl | rfl | rfl | rfl | rfl | rfl | rfl <;>
    simp at le ge <;> omega

theorem isWordStart_of_digit (digit : c.isDigit = true) : isWordStart c = false := by
  by_contra start
  have bounds := wordStart_bounds (by simpa using start)
  have small := Char.isDigit_iff_toNat.mp digit
  simp at small
  omega

def Apart (chars : List Char) : Prop :=
  ∀ c, chars.head? = some c → isWordPart c = false

theorem takeWhile_apart {p : Char → Bool} (inWord : ∀ c, p c = true → isWordPart c = true)
    {run : List Char} (all : ∀ c ∈ run, p c = true) (apart : Apart chars) :
    (run ++ chars).takeWhile p = run ∧ (run ++ chars).dropWhile p = chars := by
  have none : chars.takeWhile p = [] ∧ chars.dropWhile p = chars := by
    cases chars with
    | nil => simp
    | cons c chars =>
        have outside : p c = false := by
          by_contra found
          have part := inWord c (by simpa using found)
          rw [apart c rfl] at part
          cases part
        simp [outside]
  rw [List.takeWhile_append_of_pos all, List.dropWhile_append_of_pos all, none.1, none.2]
  simp

section Runs

variable {run : List Char}

theorem Spells.word (spells : Spells list (c :: (run ++ chars))) (begins : isWordStart c = true)
    (all : ∀ c ∈ run, isWordPart c = true) (apart : Apart chars) :
    ∃ token tail, list = token :: tail ∧ token.kind = .ofWord (String.ofList (c :: run)) ∧
      token.literal = String.ofList (c :: run) ∧ Spells tail chars := by
  obtain ⟨taken, dropped⟩ := takeWhile_apart (fun _ part => part) all apart
  have scanned : scan c (run ++ chars) = ⟨.ofWord (String.ofList (c :: run)), c :: run, chars⟩ := by
    simp only [scan, begins, if_true, taken, dropped]
  have ink : Text.isBlank c = false := isBlank_of_wordPart (by simp [isWordPart, begins])
  obtain ⟨token, tail, here, kind, literal, spellsTail⟩ := spells.lexeme ink
  rw [scanned] at kind literal spellsTail
  refine ⟨token, tail, here, kind, ?_, spellsTail⟩
  rw [literal, Lexeme.literal, if_neg (ofWord_ne_of_not_mem _ (by decide))]

theorem keyword_shape {word : String} {kind : Kind} (known : (word, kind) ∈ Token.keywords) :
    ∃ c run, word.toList = c :: run ∧ isWordStart c = true ∧
      (∀ d ∈ run, isWordPart d = true) ∧ Kind.ofWord (String.ofList (c :: run)) = kind := by
  simp only [Token.keywords, List.mem_cons, Prod.mk.injEq, List.not_mem_nil, or_false] at known
  rcases known with ⟨rfl, rfl⟩ | ⟨rfl, rfl⟩ | ⟨rfl, rfl⟩ | ⟨rfl, rfl⟩ | ⟨rfl, rfl⟩ | ⟨rfl, rfl⟩ |
    ⟨rfl, rfl⟩ <;>
    exact ⟨_, _, rfl, rfl, List.all_eq_true.mp rfl, rfl⟩

theorem Spells.keyword {word : String} (spells : Spells list (word.toList ++ chars)) (kind : Kind)
    (known : Token.keywords.lookup word = some kind) (apart : Apart chars) :
    ∃ token tail, list = token :: tail ∧ token.kind = kind ∧ Spells tail chars := by
  obtain ⟨before, after, split, _⟩ := List.lookup_eq_some_iff.mp known
  have member : (word, kind) ∈ Token.keywords := by simp [split]
  obtain ⟨c, run, shape, begins, all, found⟩ := keyword_shape member
  rw [shape] at spells
  obtain ⟨token, tail, here, kindOf, _, spellsTail⟩ := Spells.word spells begins all apart
  exact ⟨token, tail, here, kindOf.trans found, spellsTail⟩

def reserved : List String :=
  ["fn", "let", "true", "false", "if", "else", "return"]

/-- A name that a text can give: letters, digits and underscores, with no digit in front, and none
of the reserved words. -/
def isPlainName (name : String) : Bool :=
  match name.toList with
  | [] => false
  | c :: run => !c.isDigit && (c :: run).all (fun d => d.isAlphanum || d == '_') &&
      !reserved.contains name

theorem ofWord_plain {name : String} (free : reserved.contains name = false) :
    Kind.ofWord name = .name := by
  simp only [reserved, List.contains_cons, List.contains_nil, Bool.or_false,
    Bool.or_eq_false_iff] at free
  simp [Kind.ofWord, Token.keywords, List.lookup_cons, free]

theorem Spells.plainName {name : String} (spells : Spells list (name.toList ++ chars))
    (plain : isPlainName name = true) (apart : Apart chars) :
    ∃ token tail, list = token :: tail ∧ token.kind = .name ∧ token.literal = name ∧
      Spells tail chars := by
  unfold isPlainName at plain
  split at plain
  · cases plain
  · rename_i c run shape
    simp only [Bool.and_eq_true, Bool.not_eq_true', List.all_cons] at plain
    obtain ⟨⟨noDigit, part, parts⟩, free⟩ := plain
    have begins : isWordStart c = true := by
      simpa [Char.isAlphanum, isWordStart, noDigit] using part
    have all : ∀ d ∈ run, isWordPart d = true := by
      intro d member
      have isPart := List.all_eq_true.mp parts d member
      simp only [Char.isAlphanum, Bool.or_eq_true] at isPart
      simp only [isWordPart, isWordStart, Bool.or_eq_true]
      tauto
    have back : String.ofList (c :: run) = name := by rw [← shape, String.ofList_toList]
    rw [shape] at spells
    obtain ⟨token, tail, here, kind, literal, spellsTail⟩ := Spells.word spells begins all apart
    rw [back] at kind literal
    exact ⟨token, tail, here, kind.trans (ofWord_plain free), literal, spellsTail⟩

theorem Spells.digits (spells : Spells list (c :: (run ++ chars))) (digit : c.isDigit = true)
    (all : ∀ c ∈ run, c.isDigit = true) (apart : Apart chars) :
    ∃ token tail, list = token :: tail ∧ token.kind = .integer ∧
      token.literal = String.ofList (c :: run) ∧ Spells tail chars := by
  obtain ⟨taken, dropped⟩ :=
    takeWhile_apart (fun c isDigit => by simp [isWordPart, isDigit]) all apart
  have scanned : scan c (run ++ chars) = ⟨.integer, c :: run, chars⟩ := by
    simp [scan, isWordStart_of_digit digit, digit, taken, dropped]
  have ink : Text.isBlank c = false := isBlank_of_wordPart (by simp [isWordPart, digit])
  obtain ⟨token, tail, here, kind, literal, spellsTail⟩ := spells.lexeme ink
  rw [scanned] at kind literal spellsTail
  exact ⟨token, tail, here, kind, literal, spellsTail⟩

theorem Spells.natural {n : Nat} (spells : Spells list (Nat.toDigits 10 n ++ chars))
    (apart : Apart chars) :
    ∃ token tail, list = token :: tail ∧ token.kind = .integer ∧
      Text.digitsValue token.literal = n ∧ Spells tail chars := by
  obtain ⟨c, run, digits⟩ := List.exists_cons_of_ne_nil (Nat.toDigits_ne_nil (b := 10) (n := n))
  have isDigit : ∀ d ∈ c :: run, d.isDigit = true := by
    intro d member
    rw [← digits] at member
    exact Nat.isDigit_of_mem_toDigits (by decide) (by decide) member
  rw [digits] at spells
  obtain ⟨token, tail, here, isInteger, literal, spellsTail⟩ :=
    Spells.digits spells (isDigit c (by simp)) (fun d member => isDigit d (by simp [member])) apart
  refine ⟨token, tail, here, isInteger, ?_, spellsTail⟩
  rw [literal, ← digits]
  exact Text.digitsValue_decimal n

theorem scan_string (noQuote : '"' ∉ run) (chars : List Char) :
    scan '"' (run ++ '"' :: chars) = ⟨.string, '"' :: (run ++ ['"']), chars⟩ := by
  have inside : ∀ c ∈ run, decide (c ≠ '"') = true := by
    intro c member
    simp only [decide_eq_true_eq]
    rintro rfl
    exact noQuote member
  have taken : (run ++ '"' :: chars).takeWhile (· ≠ '"') = run := by
    rw [List.takeWhile_append_of_pos inside]
    simp
  have dropped : (run ++ '"' :: chars).dropWhile (· ≠ '"') = '"' :: chars := by
    rw [List.dropWhile_append_of_pos inside]
    simp
  simp only [scan, taken, dropped]
  rfl

theorem Spells.string (spells : Spells list ('"' :: (run ++ '"' :: chars)))
    (noQuote : '"' ∉ run) :
    ∃ token tail, list = token :: tail ∧ token.kind = .string ∧
      token.literal = String.ofList run ∧ Spells tail chars := by
  obtain ⟨token, tail, here, kind, literal, spellsTail⟩ := spells.lexeme rfl
  rw [scan_string noQuote] at kind literal spellsTail
  refine ⟨token, tail, here, kind, ?_, spellsTail⟩
  rw [literal]
  simp [Lexeme.literal]

end Runs

end Scriptlet
