import Scriptlet.Proofs.Phrase.Grammar

/-!
# Facts about derivations

Most phrases have a token at least (`Derives.length_le`). An expression begins with a token that has
a rule for it (`Derives.opens`), and it stops where neither an operator of its tier nor one of a
tighter tier goes on (`Derives.stops`).
-/
set_option autoImplicit false

namespace Scriptlet

open Token (Kind)

/-- How tightly the place binds where an expression of a tier stands: what binds more tightly
belongs to the expression. -/
def Tier.floor : Tier → Precedence
  | .equality => .lowest
  | .order => .equality
  | .sum => .order
  | .product => .sum
  | .unary => .product

def Precedence.tier? : Precedence → Option Tier
  | .lowest => some .equality
  | .equality => some .order
  | .order => some .sum
  | .sum => some .product
  | .product => some .unary
  | .unary => some .unary
  | .call => none
  | .index => none

/-- The operators of a tier bind as tightly as the place of their right operand. -/
theorem Tier.precedence_of_operator {tier : Tier} {kind : Kind} {op : BinaryOp}
    (found : tier.operator? kind = some op) : kind.precedence = tier.tighter.floor := by
  cases tier <;> cases kind <;> cases found <;> rfl

/-- A token that is no operator of a tier and binds no more tightly than one does not go on with an
expression of the tier. -/
theorem Tier.rank_le_of_operator {tier : Tier} {kind : Kind}
    (noMore : tier.operator? kind = none)
    (low : kind.precedence.rank ≤ tier.tighter.floor.rank) :
    kind.precedence.rank ≤ tier.floor.rank := by
  cases tier <;> cases kind <;>
    first
    | cases noMore; done
    | exact Nat.le_of_ble_eq_true rfl
    | exact absurd low (by decide)

namespace Phrase

/-- The token does not go on with the expression `left` at a place that binds as tightly as
`minimum`. -/
def Halts (minimum : Precedence) (left : Expr) (token : Token) : Prop :=
  token.kind.precedence.rank ≤ minimum.rank ∨
    (token.kind = .leftParen ∧ left.isCallable = false)

def Stops (minimum : Precedence) (left : Expr) (rest : List Token) : Prop :=
  ∃ token tail, rest = token :: tail ∧ Halts minimum left token

theorem Stops.mono {minimum higher : Precedence} {left : Expr} {rest : List Token}
    (stops : Stops minimum left rest) (le : minimum.rank ≤ higher.rank) :
    Stops higher left rest := by
  obtain ⟨token, tail, here, low | paren⟩ := stops
  · exact ⟨token, tail, here, .inl (low.trans le)⟩
  · exact ⟨token, tail, here, .inr paren⟩

/-- What stops any expression stops one that cannot be called. -/
theorem Stops.uncallable {minimum : Precedence} {left whole : Expr} {rest : List Token}
    (stops : Stops minimum left rest) (uncallable : whole.isCallable = false) :
    Stops minimum whole rest := by
  obtain ⟨token, tail, here, low | ⟨paren, _⟩⟩ := stops
  · exact ⟨token, tail, here, .inl low⟩
  · exact ⟨token, tail, here, .inr ⟨paren, uncallable⟩⟩

def least : Phrase → Nat
  | .statements _ => 0
  | .tierRest _ _ => 0
  | .operandRest _ => 0
  | _ => 1

theorem Semicolon.length_le {list rest : List Token} (semicolon : Semicolon list rest) :
    rest.length ≤ list.length := by
  cases semicolon <;> simp

theorem Ending.length_le {list rest : List Token} (ending : Ending list rest) :
    rest.length ≤ list.length := by
  induction ending with
  | junk _ _ _ _ ih => exact ih.trans (Nat.le_succ _)
  | _ => simp

theorem Derives.length_le {phrase : Phrase} {list rest : List Token} {tree : phrase.Tree}
    (derivation : Derives phrase list tree rest) : rest.length + phrase.least ≤ list.length := by
  induction derivation with
  | define _ _ _ _ ending ih =>
      have shorter := ending.length_le
      simp only [least, List.length_cons] at *
      omega
  | returning _ _ ending ih =>
      have shorter := ending.length_le
      simp only [least, List.length_cons] at *
      omega
  | exprStatement _ semicolon ih =>
      have shorter := semicolon.length_le
      simp only [least] at *
      omega
  | _ =>
      simp only [least, List.length_cons] at *
      omega

theorem unaryOperator?_leading {kind : Kind} {op : UnaryOp} (sign : unaryOperator? kind = some op) :
    kind.leading? = some (.unary op) := by
  cases kind <;> cases sign <;> rfl

def Opens : Phrase → List Token → Prop
  | .tier _, list => ∃ token tail, list = token :: tail ∧ token.kind.leading?.isSome
  | .operand, list => ∃ token tail, list = token :: tail ∧ token.kind.leading?.isSome
  | .atom, list => ∃ token tail, list = token :: tail ∧ token.kind.leading?.isSome
  | _, _ => True

theorem Derives.opens {phrase : Phrase} {list rest : List Token} {tree : phrase.Tree}
    (derivation : Derives phrase list tree rest) : phrase.Opens list := by
  induction derivation with
  | tier _ _ _ first _ => exact first
  | unary sign _ _ => exact ⟨_, _, rfl, by rw [unaryOperator?_leading sign]; rfl⟩
  | single _ operand => exact operand
  | operand _ _ atom _ => exact atom
  | name begins => exact ⟨_, _, rfl, by rw [begins]; rfl⟩
  | integer begins _ => exact ⟨_, _, rfl, by rw [begins]; rfl⟩
  | string begins => exact ⟨_, _, rfl, by rw [begins]; rfl⟩
  | trueWord begins => exact ⟨_, _, rfl, by rw [begins]; rfl⟩
  | falseWord begins => exact ⟨_, _, rfl, by rw [begins]; rfl⟩
  | group begins _ _ _ => exact ⟨_, _, rfl, by rw [begins]; rfl⟩
  | array begins _ _ => exact ⟨_, _, rfl, by rw [begins]; rfl⟩
  | hash begins _ _ => exact ⟨_, _, rfl, by rw [begins]; rfl⟩
  | conditional begins _ _ _ _ _ => exact ⟨_, _, rfl, by rw [begins]; rfl⟩
  | alternative begins _ _ _ _ _ _ _ => exact ⟨_, _, rfl, by rw [begins]; rfl⟩
  | function begins _ _ _ _ _ => exact ⟨_, _, rfl, by rw [begins]; rfl⟩
  | _ => trivial

theorem Derives.item_opens {what : Item} {list rest : List Token} {tree : what.Tree}
    (derivation : Derives (.item what) list tree rest) :
    ∃ token tail, list = token :: tail ∧ token.kind.leading?.isSome := by
  cases derivation with
  | parameter isName => exact ⟨_, _, rfl, by rw [isName]; rfl⟩
  | element derivation => exact derivation.opens
  | pair derivation _ _ => exact derivation.opens

theorem Derives.statement_opens {list rest : List Token} {tree : Stmt}
    (derivation : Derives .statement list tree rest) :
    ∃ token tail, list = token :: tail ∧ token.kind ≠ .endOfInput ∧ token.kind ≠ .rightBrace := by
  cases derivation with
  | define isLet _ _ _ _ => exact ⟨_, _, rfl, by simp [isLet], by simp [isLet]⟩
  | returning isReturn _ _ => exact ⟨_, _, rfl, by simp [isReturn], by simp [isReturn]⟩
  | exprStatement derivation _ =>
      obtain ⟨token, tail, rfl, begins⟩ := derivation.opens
      refine ⟨token, tail, rfl, ?_, ?_⟩
      · intro atEnd
        rw [atEnd] at begins
        cases begins
      · intro closing
        rw [closing] at begins
        cases begins

def Closes : (phrase : Phrase) → List Token → phrase.Tree → List Token → Prop
  | .tier level, _, tree, rest => Stops level.floor tree rest
  | .tierRest level left, list, tree, rest =>
    Stops level.tighter.floor left list → Stops level.floor tree rest
  | .operand, _, tree, rest => Stops .product tree rest
  | .operandRest _, _, tree, rest => Stops .product tree rest
  | _, _, _, _ => True

theorem Derives.closes {phrase : Phrase} {list rest : List Token} {tree : phrase.Tree}
    (derivation : Derives phrase list tree rest) : phrase.Closes list tree rest := by
  induction derivation with
  | tier _ _ _ first more => exact more first
  | tierEnd noMore =>
      rintro ⟨_, _, ⟨⟩, low | paren⟩
      · exact ⟨_, _, rfl, .inl (Tier.rank_le_of_operator noMore low)⟩
      · exact ⟨_, _, rfl, .inr paren⟩
  | tierMore _ _ _ operand more => exact fun _ => more (operand.uncallable rfl)
  | unary _ _ operand => exact operand.uncallable rfl
  | single _ operand => exact operand
  | operand _ _ _ more => exact more
  | @operandEnd left token rest noIndex noCall =>
      refine ⟨token, rest, rfl, ?_⟩
      by_cases paren : token.kind = .leftParen
      · exact .inr ⟨paren, noCall paren⟩
      · refine .inl ?_
        cases kind : token.kind <;> first | contradiction | exact Nat.le_of_ble_eq_true rfl
  | index _ _ _ _ _ more => exact more
  | call _ _ _ _ _ more => exact more
  | _ => trivial

/-- An expression goes on as far as it can. -/
theorem Derives.stops {tier : Tier} {list rest : List Token} {tree : Expr}
    (derivation : Derives (.tier tier) list tree rest) : Stops tier.floor tree rest :=
  derivation.closes

end Phrase

theorem Program.derived_of_expr {list : List Token} {ending : Token} {value : Expr}
    (derives : Phrase.Derives .expr list value [ending]) (atEnd : ending.kind = .endOfInput) :
    Program.Derived ⟨[.expr value]⟩ list := by
  obtain ⟨token, others, rfl, begins⟩ := derives.opens
  refine ⟨ending, .statementsMore ?_ (.exprStatement derives (.none ?_)) (.statementsEnd atEnd)⟩
  · intro isEnd
    rw [isEnd] at begins
    cases begins
  · rw [atEnd]
    decide

end Scriptlet
