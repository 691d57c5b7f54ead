import Scriptlet.Proofs.Phrase.Grammar

/-!
# Numbers that are too big

A number that has no room in a word is part of no phrase. It can only stand where tokens are
skipped, which is behind the value of a definition or of a `return`. Tokens without a `let` or a
`return` among them (`Token.IsCalm`) therefore derive nothing if one of them is such a number
(`Token.IsBig`).
-/
set_option autoImplicit false

namespace Scriptlet

open Token (Kind)

/-- A number from 2^63 on. -/
def Token.IsBig (token : Token) : Prop :=
  token.kind = .integer ∧ 9223372036854775808 ≤ Text.digitsValue token.literal

/-- The token begins no statement that tokens are skipped in. -/
def Token.IsCalm (token : Token) : Prop :=
  token.kind ≠ .letWord ∧ token.kind ≠ .returnWord

theorem Token.isCalm_of_kind {token : Token} {kind : Kind} (isKind : token.kind = kind)
    (calm : kind ≠ .letWord ∧ kind ≠ .returnWord) : token.IsCalm := by
  rw [IsCalm, isKind]
  exact calm

namespace Phrase

def Bounded : Phrase → Prop
  | .items _ close => close ≠ .integer
  | .itemsRest _ close => close ≠ .integer
  | _ => True

def Clears (list rest : List Token) : Prop :=
  (∀ token ∈ list, token.IsCalm) → rest ⊆ list ∧ ∀ token ∈ list, token.IsBig → token ∈ rest

section Clears

variable {list middle rest : List Token} {token : Token} {kind : Kind}

theorem Clears.refl (list : List Token) : Clears list list :=
  fun _ => ⟨List.Subset.refl list, fun _ isIn _ => isIn⟩

theorem Clears.trans (first : Clears list middle) (second : Clears middle rest) :
    Clears list rest := by
  intro calm
  obtain ⟨subset, clear⟩ := first calm
  obtain ⟨subsetRest, clearRest⟩ := second fun token isIn => calm token (subset isIn)
  refine ⟨List.Subset.trans subsetRest subset, fun token isIn isBig => ?_⟩
  exact clearRest token (clear token isIn isBig) isBig

theorem Clears.cons (small : ¬token.IsBig) (clears : Clears list rest) :
    Clears (token :: list) rest := by
  intro calm
  obtain ⟨subset, clear⟩ := clears (List.forall_mem_cons.mp calm).2
  refine ⟨List.subset_cons_of_subset token subset, fun other isIn isBig => ?_⟩
  rcases List.mem_cons.mp isIn with rfl | isIn
  · exact absurd isBig small
  · exact clear other isIn isBig

theorem Clears.skip (clears : Clears list rest) (isKind : token.kind = kind)
    (other : kind ≠ .integer) : Clears (token :: list) rest :=
  clears.cons fun isBig => other (isKind.symm.trans isBig.1)

theorem clears_one (isKind : token.kind = kind) (other : kind ≠ .integer) :
    Clears (token :: rest) rest :=
  (Clears.refl rest).skip isKind other

theorem clears_semicolon (semicolon : Semicolon list rest) : Clears list rest := by
  cases semicolon with
  | found isSemicolon => exact clears_one isSemicolon nofun
  | none => exact .refl _

theorem operator?_ne_integer {tier : Tier} {op : BinaryOp}
    (goesOn : tier.operator? kind = some op) : kind ≠ .integer := by
  rintro rfl
  cases tier <;> cases goesOn

theorem unaryOperator?_ne_integer {op : UnaryOp} (sign : unaryOperator? kind = some op) :
    kind ≠ .integer := by
  rintro rfl
  cases sign

end Clears

/-- The tokens of a phrase are small numbers and other tokens. -/
theorem Derives.clears {phrase : Phrase} {list rest : List Token} {tree : phrase.Tree}
    (derivation : Derives phrase list tree rest) (bounded : phrase.Bounded) :
    Clears list rest := by
  induction derivation with
  | statementsEnd | tierEnd | operandEnd => exact .refl _
  | statementsMore _ _ _ first more => exact (first trivial).trans (more trivial)
  | define isLet => exact fun calm => absurd isLet (calm _ List.mem_cons_self).1
  | returning isReturn => exact fun calm => absurd isReturn (calm _ List.mem_cons_self).2
  | exprStatement _ semicolon value => exact (value trivial).trans (clears_semicolon semicolon)
  | block opens _ closes statements =>
      exact ((statements trivial).trans (clears_one closes nofun)).skip opens nofun
  | tier _ _ _ first more => exact (first trivial).trans (more trivial)
  | tierMore goesOn _ _ operand more =>
      exact ((operand trivial).trans (more trivial)).skip rfl (operator?_ne_integer goesOn)
  | unary sign _ operand => exact (operand trivial).skip rfl (unaryOperator?_ne_integer sign)
  | single _ operand => exact operand trivial
  | operand _ _ atom more => exact (atom trivial).trans (more trivial)
  | index opens _ closes _ index more =>
      exact ((index trivial).trans ((more trivial).skip closes nofun)).skip opens nofun
  | call opens _ _ _ items more => exact ((items nofun).trans (more trivial)).skip opens nofun
  | name isKind | string isKind | trueWord isKind | falseWord isKind | parameter isKind =>
      exact clears_one isKind nofun
  | integer _ small => exact (Clears.refl _).cons fun isBig => Nat.not_lt_of_le isBig.2 small
  | group opens _ closes inner =>
      exact ((inner trivial).trans (clears_one closes nofun)).skip opens nofun
  | array opens _ items => exact (items nofun).skip opens nofun
  | hash opens _ items => exact (items nofun).skip opens nofun
  | conditional isIf _ _ _ condition block =>
      exact ((condition trivial).trans (block trivial)).skip isIf nofun
  | alternative isIf _ _ isElse _ condition block other =>
      have blocks := (block trivial).trans ((other trivial).skip isElse nofun)
      exact ((condition trivial).trans blocks).skip isIf nofun
  | function isFunction opens _ _ parameters body =>
      have rest := ((parameters nofun).trans (body trivial)).skip opens nofun
      exact rest.skip isFunction nofun
  | element _ element => exact element trivial
  | pair _ isColon _ key value =>
      exact (key trivial).trans ((value trivial).skip isColon nofun)
  | itemsNone closes => exact clears_one closes bounded
  | itemsSome _ _ _ item more => exact (item trivial).trans (more bounded)
  | itemsEnd closes _ => exact clears_one closes bounded
  | itemsMore goesOn _ _ item more =>
      exact ((item trivial).trans (more bounded)).skip goesOn nofun

theorem Derives.statements_end {close : Kind} {list rest : List Token} {tree : List Stmt}
    {token : Token} (derivation : Derives (.statements close) list tree (token :: rest)) :
    token.kind = close := by
  induction tree generalizing list with
  | nil =>
      cases derivation with
      | statementsEnd closes => exact closes
  | cons first others ih =>
      cases derivation with
      | statementsMore _ _ more => exact ih more

end Phrase

/-- Calm tokens with a big number among them are no program. -/
theorem Program.not_derived_of_big {list : List Token} (calm : ∀ token ∈ list, token.IsCalm)
    (big : ∃ token ∈ list, token.IsBig) (program : Program) : ¬program.Derived list := by
  rintro ⟨ending, derivation⟩
  obtain ⟨token, isIn, isBig⟩ := big
  obtain rfl : token = ending :=
    List.mem_singleton.mp ((derivation.clears trivial calm).2 token isIn isBig)
  cases derivation.statements_end.symm.trans isBig.1

end Scriptlet
