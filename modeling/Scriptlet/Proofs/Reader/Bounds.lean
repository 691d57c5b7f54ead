import Scriptlet.Proofs.Reader.Progress

/-!
# Larger bounds read the same

The bounds of the reader, on the nesting of expressions and on the rounds of its loops, decide only
whether a reading comes to an end. `Run.Extends` compares two computations: wherever the first one
ends, the second one ends in the same way. A reader with larger bounds extends the reader with
smaller ones, so that any bound which is no smaller than the number of tokens gives the same
reading (`program_eq_readTokens`).
-/
set_option autoImplicit false

namespace Scriptlet

open Token (Kind)

namespace Run

variable {σ ε α β : Type}

/-- Wherever the first computation comes to an end, the second one does the same. -/
def Extends (run more : Run σ ε α) : Prop :=
  ∀ state, (∃ why, run state = .halted why) ∨ more state = run state

theorem Extends.refl (run : Run σ ε α) : run.Extends run :=
  fun _ => .inr rfl

theorem Extends.bind {run more : Run σ ε α} {next moreNext : α → Run σ ε β}
    (extend : run.Extends more) (extendNext : ∀ value, (next value).Extends (moreNext value)) :
    (run >>= next).Extends (more >>= moreNext) := by
  intro state
  simp only [bind_apply]
  rcases extend state with ⟨why, halted⟩ | same
  · rw [halted]
    exact .inl ⟨why, rfl⟩
  · rw [same]
    cases run state with
    | ok value later => exact extendNext value later
    | raised error later => exact .inr rfl
    | halted why => exact .inl ⟨why, rfl⟩

theorem Extends.ite {run more other moreOther : Run σ ε α} {condition : Prop}
    [Decidable condition] (extend : run.Extends more) (extendOther : other.Extends moreOther) :
    Extends (if condition then run else other) (if condition then more else moreOther) := by
  split
  · exact extend
  · exact extendOther

theorem Extends.attempt {run more : Run σ ε α} (extend : run.Extends more) :
    run.attempt.Extends more.attempt := by
  intro state
  simp only [Run.attempt]
  rcases extend state with ⟨why, halted⟩ | same
  · rw [halted]
    exact .inl ⟨why, rfl⟩
  · rw [same]
    exact .inr rfl

theorem extends_halt (why : Halt) (more : Run σ ε α) : (halt why).Extends more :=
  fun _ => .inl ⟨why, rfl⟩

end Run

namespace Reader

open Run (Extends)

variable {α : Type} {rounds more : Nat}

theorem extends_itemsRest {item moreItem : Reader α} (extend : Extends item moreItem)
    (le : rounds ≤ more) : Extends (itemsRest item rounds) (itemsRest moreItem more) := by
  induction rounds generalizing more with
  | zero => exact Run.extends_halt _ _
  | succ rounds ih =>
      obtain ⟨more, rfl⟩ : ∃ spare, more = spare + 1 := ⟨more - 1, by omega⟩
      refine (Extends.refl _).bind fun found => Extends.ite ?_ (Extends.refl _)
      refine (Extends.refl _).bind fun _ => (Extends.refl _).bind fun _ => extend.bind fun _ => ?_
      exact (ih (Nat.le_of_succ_le_succ le)).bind fun _ => Extends.refl _

theorem extends_items {item moreItem : Reader α} (extend : Extends item moreItem)
    (le : rounds ≤ more) (close : Kind) :
    Extends (items close item rounds) (items close moreItem more) := by
  refine (Extends.refl _).bind fun found => Extends.ite (Extends.refl _) ?_
  exact (Extends.refl _).bind fun _ => extend.bind fun _ => (extends_itemsRest extend le).bind
    fun _ => Extends.refl _

theorem extends_blockRest {stmt moreStmt : Reader Stmt} (extend : Extends stmt moreStmt)
    (le : rounds ≤ more) : Extends (blockRest stmt rounds) (blockRest moreStmt more) := by
  induction rounds generalizing more with
  | zero => exact Run.extends_halt _ _
  | succ rounds ih =>
      obtain ⟨more, rfl⟩ : ∃ spare, more = spare + 1 := ⟨more - 1, by omega⟩
      have rest := ih (Nat.le_of_succ_le_succ le)
      refine (Extends.refl _).bind fun token => Extends.ite (Extends.refl _) ?_
      refine Extends.ite (Extends.refl _) (extend.attempt.bind fun result => ?_)
      cases result with
      | ok first => exact (Extends.refl _).bind fun _ => rest.bind fun _ => Extends.refl _
      | error diagnostic => exact (Extends.refl _).bind fun _ => (Extends.refl _).bind fun _ => rest

theorem extends_programRest {stmt moreStmt : Reader Stmt} (extend : Extends stmt moreStmt)
    (le : rounds ≤ more) : Extends (programRest stmt rounds) (programRest moreStmt more) := by
  induction rounds generalizing more with
  | zero => exact Run.extends_halt _ _
  | succ rounds ih =>
      obtain ⟨more, rfl⟩ : ∃ spare, more = spare + 1 := ⟨more - 1, by omega⟩
      have rest := ih (Nat.le_of_succ_le_succ le)
      refine (Extends.refl _).bind fun token => Extends.ite (Extends.refl _) ?_
      refine extend.attempt.bind fun result => ?_
      cases result with
      | ok first => exact (Extends.refl _).bind fun _ => rest.bind fun _ => Extends.refl _
      | error diagnostic =>
          exact (Extends.refl _).bind fun _ => (Extends.refl _).bind fun _ =>
            (Extends.refl _).bind fun _ => rest

section Parts

variable {expr moreExpr : Precedence → Reader Expr}
  (extend : ∀ minimum, Extends (expr minimum) (moreExpr minimum))

include extend

theorem extends_statement : Extends (statement expr) (statement moreExpr) := by
  refine (Extends.refl _).bind fun token => ?_
  split
  · exact (Extends.refl _).bind fun _ => (Extends.refl _).bind fun _ => (Extends.refl _).bind
      fun _ => (Extends.refl _).bind fun _ => (extend _).bind fun _ => Extends.refl _
  · exact (Extends.refl _).bind fun _ => (extend _).bind fun _ => Extends.refl _
  · exact (extend _).bind fun _ => Extends.refl _

theorem extends_block (le : rounds ≤ more) :
    Extends (block expr rounds) (block moreExpr more) :=
  (Extends.refl _).bind fun _ => extends_blockRest (extends_statement extend) le

theorem extends_pair : Extends (pair expr) (pair moreExpr) :=
  (extend _).bind fun _ => (Extends.refl _).bind fun _ => (Extends.refl _).bind fun _ =>
    (extend _).bind fun _ => Extends.refl _

theorem extends_leadingForm (le : rounds ≤ more) (token : Token) (form : Leading) :
    Extends (leadingForm expr rounds token form) (leadingForm moreExpr more token form) := by
  cases form with
  | name => exact Extends.refl _
  | integer => exact Extends.refl _
  | string => exact Extends.refl _
  | boolean value => exact Extends.refl _
  | unary op => exact (Extends.refl _).bind fun _ => (extend _).bind fun _ => Extends.refl _
  | group => exact (Extends.refl _).bind fun _ => (extend _).bind fun _ => Extends.refl _
  | array => exact (extends_items (extend _) le _).bind fun _ => Extends.refl _
  | hash => exact (extends_items (extends_pair extend) le _).bind fun _ => Extends.refl _
  | conditional =>
      refine (Extends.refl _).bind fun _ => (extend _).bind fun _ => (Extends.refl _).bind
        fun _ => (extends_block extend le).bind fun _ => (Extends.refl _).bind fun found => ?_
      refine Extends.ite ?_ (Extends.refl _)
      exact (Extends.refl _).bind fun _ => (Extends.refl _).bind fun _ =>
        (extends_block extend le).bind fun _ => Extends.refl _
  | function =>
      exact (Extends.refl _).bind fun _ => (extends_items (Extends.refl _) le _).bind fun _ =>
        (Extends.refl _).bind fun _ => (extends_block extend le).bind fun _ => Extends.refl _

omit extend in
theorem extends_handler {block moreBlock : Reader Block} (extend : Extends block moreBlock)
    (handler : Handler) : Extends (handler.run block) (handler.run moreBlock) := by
  induction handler with
  | finish result => exact Extends.refl _
  | look next ih => exact (Extends.refl _).bind fun cursor => ih cursor
  | record diagnostic next ih => exact (Extends.refl _).bind fun _ => ih
  | read next ih => exact extend.attempt.bind fun result => ih result

theorem extends_operand (handlers : Handlers) (le : rounds ≤ more) :
    Extends (operand handlers expr rounds) (operand handlers moreExpr more) := by
  refine (Extends.refl _).bind fun token => ?_
  split
  · exact extends_handler (extends_block extend le) _
  · exact extends_leadingForm extend le _ _
  · exact Extends.refl _

theorem extends_extend (le : rounds ≤ more) (left : Expr) (token : Token)
    (rule : TrailingHandler ⊕ Trailing) :
    Extends (Reader.extend expr rounds left token rule)
      (Reader.extend moreExpr more left token rule) := by
  match rule with
  | .inl handler => exact extends_handler (extends_block extend le) (handler left)
  | .inr (.binary op) =>
      exact (Extends.refl _).bind fun _ => (extend _).bind fun _ => Extends.refl _
  | .inr .call => exact (extends_items (extend _) le _).bind fun _ => Extends.refl _
  | .inr .index => exact (Extends.refl _).bind fun _ => (extend _).bind fun _ => Extends.refl _

theorem extends_operators (handlers : Handlers) {inner moreInner : Nat} (leInner : inner ≤ moreInner)
    (minimum : Precedence) (left : Expr) (le : rounds ≤ more) :
    Extends (operators handlers expr inner minimum rounds left)
      (operators handlers moreExpr moreInner minimum more left) := by
  induction rounds generalizing more left with
  | zero => exact Run.extends_halt _ _
  | succ rounds ih =>
      obtain ⟨more, rfl⟩ : ∃ spare, more = spare + 1 := ⟨more - 1, by omega⟩
      refine (Extends.refl _).bind fun next => Extends.ite ?_ (Extends.refl _)
      split
      · exact Extends.refl _
      · exact (Extends.refl _).bind fun _ => (extends_extend extend leInner _ _ _).bind
          fun extended => ih extended (Nat.le_of_succ_le_succ le)

end Parts

theorem extends_expression (handlers : Handlers) {depth deeper : Nat} (le : depth ≤ deeper)
    (minimum : Precedence) :
    Extends (expression handlers depth minimum) (expression handlers deeper minimum) := by
  induction depth generalizing deeper minimum with
  | zero => exact Run.extends_halt _ _
  | succ depth ih =>
      obtain ⟨deeper, rfl⟩ : ∃ spare, deeper = spare + 1 := ⟨deeper - 1, by omega⟩
      have inner := ih (Nat.le_of_succ_le_succ le)
      exact (extends_operand inner handlers le).bind fun first =>
        extends_operators inner handlers le minimum first le

/-- Any bound that is no smaller than the number of tokens gives the same reading. -/
theorem program_eq_readTokens (handlers : Handlers) {list : List Token} (ended : Ended list)
    {bound : Nat} (enough : list.length ≤ bound) :
    program handlers bound (.start list) = readTokens handlers list := by
  have extend : Extends (program handlers list.length) (program handlers bound) :=
    (extends_programRest (extends_statement (extends_expression handlers enough)) enough).bind
      fun _ => Extends.refl _
  obtain ⟨token, ahead, rfl⟩ := List.exists_cons_of_ne_nil ended.ne_nil
  have endedStart : Ended (Cursor.start (token :: ahead)).tokens := ended
  obtain ⟨result, later, run, _⟩ := program_ok handlers endedStart le_rfl
  rcases extend (.start (token :: ahead)) with ⟨why, halted⟩ | same
  · cases run.symm.trans halted
  · exact same

end Reader

end Scriptlet
