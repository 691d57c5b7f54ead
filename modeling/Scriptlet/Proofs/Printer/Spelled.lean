import Mathlib.Data.List.Forall2
import Scriptlet.Program.Printer
import Scriptlet.Proofs.Phrase.Recognition
import Scriptlet.Proofs.Token.Spelling

/-!
# Phrases out of canonical texts

What the canonical text of an expression spells, whatever stands behind it. Every canonical text
is an operand: operations stand in parentheses, and only a call goes on behind its callee. An
expression is therefore left open (`Expr.Reads`) until the next token closes it.
-/
set_option autoImplicit false

namespace Scriptlet

open Token (Kind)
open Phrase (Derives Open Stops)

variable {list : List Token} {chars : List Char} {kind : Kind}

/-- The first token of the characters is of the kind, and no word before them goes on in them. -/
def Follows (chars : List Char) (kind : Kind) : Prop :=
  Apart chars ∧ ∀ list, Spells list chars → ∃ token tail, list = token :: tail ∧ token.kind = kind

theorem apart_blank : Apart (' ' :: chars) := by
  rintro _ ⟨⟩
  rfl

theorem follows_nil : Follows [] .endOfInput := by
  refine ⟨by simp [Apart], fun list spells => ?_⟩
  obtain ⟨token, rfl, atEnd⟩ := spells.nil
  exact ⟨token, [], rfl, atEnd⟩

theorem follows_mark {c : Char} (mark : isMark c = true) : Follows (c :: chars) (signKind c) := by
  refine ⟨?_, fun list spells => ?_⟩
  · rintro _ ⟨⟩
    simp only [isMark, Bool.and_eq_true, decide_eq_true_eq] at mark
    exact isWordPart_of_sign mark.1.1
  · obtain ⟨token, tail, here, found, _⟩ := spells.mark mark
    exact ⟨token, tail, here, found⟩

theorem Follows.blank (follows : Follows chars kind) : Follows (' ' :: chars) kind := by
  exact ⟨apart_blank, fun list spells => follows.2 list spells.space⟩

structure Closing (kind : Kind) : Prop where
  loose : kind.precedence = .lowest
  noElse : kind ≠ .elseWord

/-! ## Expressions -/

theorem Spells.stops (spells : Spells list chars) (follows : Follows chars kind)
    (closing : Closing kind) (minimum : Precedence) (expr : Expr) : Stops minimum expr list := by
  obtain ⟨token, rest, rfl, found⟩ := follows.2 list spells
  refine ⟨token, rest, rfl, .inl ?_⟩
  rw [found, closing.loose]
  exact Nat.zero_le _

/-- Whatever follows its text, save an `else`, the tokens give the expression as an operand to go on
from. -/
def Expr.Reads (expr : Expr) : Prop :=
  ∀ list chars kind, Spells list (expr.text.toList ++ chars) → Follows chars kind →
    kind ≠ .elseWord → ∃ tail, Spells tail chars ∧ Open .unary list expr tail

/-- An expression is read in any tier whose operators do not follow it. -/
theorem Expr.Reads.tier {expr : Expr} (reads : expr.Reads)
    (spells : Spells list (expr.text.toList ++ chars)) (follows : Follows chars kind)
    (closing : Closing kind) (tier : Tier) :
    ∃ tail, Spells tail chars ∧ Derives (.tier tier) list expr tail := by
  obtain ⟨tail, spellsTail, isOpen⟩ := reads list chars kind spells follows closing.noElse
  have stops := spellsTail.stops follows closing tier.floor expr
  exact ⟨tail, spellsTail, isOpen.finish tier.rank_le_unary stops⟩

theorem reads_of_atom {expr : Expr}
    (atom : ∀ list chars kind, Spells list (expr.text.toList ++ chars) → Follows chars kind →
      kind ≠ .elseWord → ∃ tail, Spells tail chars ∧ Derives .atom list expr tail) :
    expr.Reads := by
  intro list chars kind spells follows noElse
  obtain ⟨tail, spellsTail, derives⟩ := atom list chars kind spells follows noElse
  exact ⟨tail, spellsTail, Phrase.open_atom derives⟩

theorem derives_natural {n : Nat} (spells : Spells list (Nat.toDigits 10 n ++ chars))
    (apart : Apart chars) (small : n < 9223372036854775808) :
    ∃ tail, Spells tail chars ∧ Derives .atom list (.integer (Int64.ofNat n)) tail := by
  obtain ⟨token, tail, rfl, isInteger, rfl, spellsTail⟩ := spells.natural apart
  exact ⟨tail, spellsTail, .integer isInteger small⟩

/-! ## Items -/

def ReadsItem (what : Item) (text : String) (tree : what.Tree) : Prop :=
  ∀ list chars kind, Spells list (text.toList ++ chars) → Follows chars kind → Closing kind →
    ∃ tail, Spells tail chars ∧ Derives (.item what) list tree tail

theorem Expr.Reads.item {expr : Expr} (reads : expr.Reads) :
    ReadsItem .element expr.text expr := by
  intro list chars kind spells follows closing
  obtain ⟨tail, spellsTail, derives⟩ := reads.tier spells follows closing .equality
  exact ⟨tail, spellsTail, .element derives⟩

theorem ReadsItem.expr {text : String} {expr : Expr} (reads : ReadsItem .element text expr)
    (spells : Spells list (text.toList ++ chars)) (follows : Follows chars kind)
    (closing : Closing kind) : ∃ tail, Spells tail chars ∧ Derives .expr list expr tail := by
  obtain ⟨tail, spellsTail, derives⟩ := reads list chars kind spells follows closing
  cases derives with
  | element derivation => exact ⟨tail, spellsTail, derivation⟩

theorem readsItem_pair {keyText valueText : String} {key value : Expr}
    (readsKey : ReadsItem .element keyText key) (readsValue : ReadsItem .element valueText value) :
    ReadsItem .pair (keyText ++ ": " ++ valueText) (key, value) := by
  intro list chars kind spells follows closing
  have spells : Spells list (keyText.toList ++ ':' :: ' ' :: (valueText.toList ++ chars)) := by
    simpa using spells
  obtain ⟨middle, spellsMiddle, keyDerives⟩ :=
    readsKey.expr spells (follows_mark rfl) ⟨rfl, nofun⟩
  obtain ⟨colon, rest, rfl, isColon, spellsRest⟩ := spellsMiddle.mark rfl
  obtain ⟨tail, spellsTail, valueDerives⟩ := readsValue.expr spellsRest.space follows closing
  exact ⟨tail, spellsTail, .pair keyDerives isColon valueDerives⟩

section Items

variable (what : Item) {texts : List String} {c : Char}

theorem readsItem_map {what : Item} {text : what.Tree → String} {trees : List what.Tree}
    (reads : ∀ tree ∈ trees, ReadsItem what (text tree) tree) :
    List.Forall₂ (ReadsItem what) (trees.map text) trees :=
  List.forall₂_map_left_iff.mpr (List.forall₂_same.mpr reads)

theorem derives_itemsRest {text : String} {first : what.Tree} {others : List what.Tree}
    (reads : ReadsItem what text first) (readsOthers : List.Forall₂ (ReadsItem what) texts others)
    (spells : Spells list ((separated (text :: texts)).toList ++ c :: chars))
    (mark : isMark c = true) (closing : Closing (signKind c)) (noComma : signKind c ≠ .comma) :
    ∃ middle tail, Spells tail chars ∧ Derives (.item what) list first middle ∧
      Derives (.itemsRest what (signKind c)) middle others tail := by
  induction readsOthers generalizing text first list with
  | nil =>
      obtain ⟨middle, spellsMiddle, derives⟩ :=
        reads list _ _ (by simpa [separated] using spells) (follows_mark mark) closing
      obtain ⟨token, tail, rfl, closes, spellsTail⟩ := spellsMiddle.mark mark
      refine ⟨_, tail, spellsTail, derives, .itemsEnd closes ?_⟩
      rw [closes]
      exact noComma
  | @cons next tree texts others readsNext _ ih =>
      have spells : Spells list (text.toList ++ ',' :: ' ' ::
          ((separated (next :: texts)).toList ++ c :: chars)) := by
        simpa [separated, String.intercalate_cons_cons] using spells
      obtain ⟨middle, spellsMiddle, derives⟩ := reads list _ _ spells
        (follows_mark rfl) ⟨rfl, nofun⟩
      obtain ⟨comma, rest, rfl, isComma, spellsRest⟩ := spellsMiddle.mark rfl
      obtain ⟨after, tail, spellsTail, derivesNext, derivesOthers⟩ :=
        ih readsNext spellsRest.space
      exact ⟨_, tail, spellsTail, derives, .itemsMore isComma derivesNext derivesOthers⟩

theorem derives_items {trees : List what.Tree} (reads : List.Forall₂ (ReadsItem what) texts trees)
    (spells : Spells list ((separated texts).toList ++ c :: chars))
    (mark : isMark c = true) (closing : Closing (signKind c)) (noComma : signKind c ≠ .comma)
    (noItem : (signKind c).leading? = none) :
    ∃ tail, Spells tail chars ∧ Derives (.items what (signKind c)) list trees tail := by
  cases reads with
  | nil =>
      have spells : Spells list (c :: chars) := by simpa [separated] using spells
      obtain ⟨token, tail, rfl, closes, spellsTail⟩ := spells.mark mark
      exact ⟨tail, spellsTail, .itemsNone closes⟩
  | cons readsFirst readsOthers =>
      obtain ⟨middle, tail, spellsTail, derives, derivesOthers⟩ :=
        derives_itemsRest what readsFirst readsOthers spells mark closing noComma
      obtain ⟨token, rest, rfl, begins⟩ := derives.item_opens
      refine ⟨tail, spellsTail, .itemsSome (fun closes => ?_) derives derivesOthers⟩
      rw [closes, noItem] at begins
      cases begins

theorem derives_array {items : List Expr} (reads : List.Forall₂ (ReadsItem .element) texts items)
    (spells : Spells list ('[' :: ((separated texts).toList ++ ']' :: chars))) :
    ∃ tail, Spells tail chars ∧ Derives .atom list (.array items) tail := by
  obtain ⟨opening, rest, rfl, opens, spellsRest⟩ := spells.mark rfl
  obtain ⟨tail, spellsTail, derives⟩ :=
    derives_items .element reads spellsRest rfl ⟨rfl, nofun⟩ nofun rfl
  exact ⟨tail, spellsTail, .array opens derives⟩

theorem derives_hash {pairs : List (Expr × Expr)}
    (reads : List.Forall₂ (ReadsItem .pair) texts pairs)
    (spells : Spells list ('\x7b' :: ((separated texts).toList ++ '\x7d' :: chars))) :
    ∃ tail, Spells tail chars ∧ Derives .atom list (.hash pairs) tail := by
  obtain ⟨opening, rest, rfl, opens, spellsRest⟩ := spells.mark rfl
  obtain ⟨tail, spellsTail, derives⟩ :=
    derives_items .pair reads spellsRest rfl ⟨rfl, nofun⟩ nofun rfl
  exact ⟨tail, spellsTail, .hash opens derives⟩

end Items

/-! ## Statements -/

def Stmt.isExpr : Stmt → Bool
  | .expr _ => true
  | _ => false

def endsOnly (stmts : List Stmt) : Bool :=
  stmts.dropLast.all fun stmt => !stmt.isExpr

/-- The text of a statement gives the statement. Behind an expression there has to be the end of
the statements. -/
def Stmt.Reads (stmt : Stmt) : Prop :=
  ∀ list chars, Spells list (stmt.text.toList ++ chars) →
    (stmt.isExpr = true → Follows chars .endOfInput ∨ Follows chars .rightBrace) →
      ∃ tail, Spells tail chars ∧ Derives .statement list stmt tail

theorem derives_statements {close : Kind} (isClose : close = .endOfInput ∨ close = .rightBrace)
    (stmts : List Stmt) (reads : ∀ stmt ∈ stmts, stmt.Reads) (ends : endsOnly stmts = true)
    (follows : Follows chars close)
    (spells : Spells list ((String.join (stmts.map Stmt.text)).toList ++ chars)) :
    ∃ tail, Spells tail chars ∧ Derives (.statements close) list stmts tail := by
  induction stmts generalizing list with
  | nil =>
      have spells : Spells list chars := by simpa using spells
      obtain ⟨token, tail, rfl, closes⟩ := follows.2 list spells
      exact ⟨_, spells, .statementsEnd closes⟩
  | cons stmt stmts ih =>
      have spells : Spells list (stmt.text.toList ++
          ((String.join (stmts.map Stmt.text)).toList ++ chars)) := by
        simpa [String.join_cons] using spells
      -- an expression is the last statement, so that the end of the statements follows it
      have last : stmt.isExpr = true → stmts = [] := by
        intro isExpr
        cases stmts with
        | nil => rfl
        | cons next stmts => simp [endsOnly, isExpr] at ends
      have endsRest : endsOnly stmts = true := by
        cases stmts with
        | nil => rfl
        | cons next stmts =>
            simp only [endsOnly, List.dropLast_cons_cons, List.all_cons, Bool.and_eq_true] at ends
            exact ends.2
      obtain ⟨middle, spellsMiddle, derives⟩ := reads stmt (by simp) list _ spells (by
        intro isExpr
        rw [last isExpr]
        rcases isClose with rfl | rfl
        · exact .inl follows
        · exact .inr follows)
      obtain ⟨tail, spellsTail, derivesRest⟩ :=
        ih (fun stmt member => reads stmt (by simp [member])) endsRest spellsMiddle
      obtain ⟨token, rest, rfl, inside, unclosed⟩ := derives.statement_opens
      refine ⟨tail, spellsTail, .statementsMore ?_ derives derivesRest⟩
      rcases isClose with rfl | rfl
      · exact inside
      · exact unclosed

theorem derives_block (stmts : List Stmt) (reads : ∀ stmt ∈ stmts, stmt.Reads)
    (ends : endsOnly stmts = true)
    (spells : Spells list ((braced (stmts.map Stmt.text)).toList ++ chars)) :
    ∃ tail, Spells tail chars ∧ Derives .block list stmts tail := by
  -- the blank before the closing brace is missing in an empty block
  obtain ⟨after, spells, follows, closed⟩ : ∃ after,
      Spells list ('\x7b' :: ' ' :: ((String.join (stmts.map Stmt.text)).toList ++ after)) ∧
        Follows after .rightBrace ∧ ∀ tail, Spells tail after → ∃ closing rest,
          tail = closing :: rest ∧ closing.kind = .rightBrace ∧ Spells rest chars := by
    cases stmts with
    | nil =>
        refine ⟨'\x7d' :: chars, by simpa [braced] using spells, follows_mark rfl, ?_⟩
        intro tail spellsTail
        exact spellsTail.mark rfl
    | cons stmt stmts =>
        refine ⟨' ' :: '\x7d' :: chars, by simpa [braced] using spells,
          (follows_mark rfl).blank, ?_⟩
        intro tail spellsTail
        exact spellsTail.space.mark rfl
  obtain ⟨opening, rest, rfl, opens, spellsRest⟩ := spells.mark rfl
  obtain ⟨tail, spellsTail, derives⟩ := derives_statements (.inr rfl) stmts reads ends follows
    spellsRest.space
  obtain ⟨closing, final, rfl, closes, spellsFinal⟩ := closed tail spellsTail
  exact ⟨final, spellsFinal, .block opens derives closes⟩

theorem stmtReads_expr {value : Expr} (reads : value.Reads) : (Stmt.expr value).Reads := by
  intro list chars spells ending
  obtain ⟨kind, follows, closing, noSemicolon⟩ :
      ∃ kind, Follows chars kind ∧ Closing kind ∧ kind ≠ .semicolon := by
    rcases ending rfl with follows | follows
    · exact ⟨.endOfInput, follows, ⟨rfl, nofun⟩, nofun⟩
    · exact ⟨.rightBrace, follows, ⟨rfl, nofun⟩, nofun⟩
  obtain ⟨tail, spellsTail, derives⟩ := reads.tier spells follows closing .equality
  obtain ⟨token, rest, rfl, found⟩ := follows.2 tail spellsTail
  exact ⟨_, spellsTail, .exprStatement derives (.none (found ▸ noSemicolon))⟩

theorem stmtReads_returning {value : Expr} (reads : value.Reads) :
    (Stmt.returning value).Reads := by
  intro list chars spells _
  have spells : Spells list ("return".toList ++ ' ' :: (value.text.toList ++ ';' :: chars)) := by
    simpa [Stmt.text] using spells
  obtain ⟨word, rest, rfl, isReturn, spellsRest⟩ :=
    spells.keyword .returnWord rfl apart_blank
  obtain ⟨middle, spellsMiddle, derives⟩ := reads.tier spellsRest.space
    (follows_mark rfl) ⟨rfl, nofun⟩ .equality
  obtain ⟨semicolon, tail, rfl, found, spellsTail⟩ := spellsMiddle.mark rfl
  exact ⟨tail, spellsTail, .returning isReturn derives (.semicolon found)⟩

theorem stmtReads_define {name : String} {value : Expr} (plain : isPlainName name = true)
    (reads : value.Reads) : (Stmt.define name value).Reads := by
  intro list chars spells _
  have spells : Spells list ("let".toList ++ ' ' :: (name.toList ++ ' ' :: '=' :: ' ' ::
      (value.text.toList ++ ';' :: chars))) := by
    simpa [Stmt.text] using spells
  obtain ⟨word, rest, rfl, isLet, spellsName⟩ :=
    spells.keyword .letWord rfl apart_blank
  obtain ⟨token, rest, rfl, isName, rfl, spellsSign⟩ :=
    spellsName.space.plainName plain apart_blank
  obtain ⟨sign, rest, rfl, isSign, spellsValue⟩ :=
    spellsSign.space.sign nofun (by simp)
  obtain ⟨middle, spellsMiddle, derives⟩ := reads.tier spellsValue.space
    (follows_mark rfl) ⟨rfl, nofun⟩ .equality
  obtain ⟨semicolon, tail, rfl, found, spellsTail⟩ := spellsMiddle.mark rfl
  exact ⟨tail, spellsTail, .define isLet isName isSign derives (.semicolon found)⟩

end Scriptlet
