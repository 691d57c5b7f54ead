import Scriptlet.Proofs.Reader.Motion

/-!
# Loops of the reader make progress

Each loop of the reader repeats a round until the round says that it is over. A round either ends
the loop or passes a token (`Round`), so that the number of tokens bounds the rounds, and the
nesting of expressions as well. `steady_expression` and `program_ok` draw the conclusion for every
choice of rules: with a bound of one for each token, reading never runs out of rounds, and it ends
at the end of the input.
-/
set_option autoImplicit false

namespace Scriptlet.Reader

open Token (Kind)

variable {α β : Type} {bound rounds : Nat}

/-! ## Rounds -/

/-- A round of a loop ends further on, and if the loop goes on after it, it has passed a token. -/
def Round (bound : Nat) (round : Reader (Option α)) : Prop :=
  ∀ cursor : Cursor, Ended cursor.tokens → cursor.tokens.length ≤ bound →
    (round cursor).Ends cursor.Onward ∧
      ∀ value later, round cursor = .ok (some value) later →
        later.tokens.length < cursor.tokens.length

/-- What follows a round that does not end the loop has one token less to read. -/
theorem Round.bind {round : Reader (Option α)} {next : Option α → Reader β}
    (gains : Round (bound + 1) round) (stopped : Steady (bound + 1) (next none))
    (again : ∀ value, Steady bound (next (some value))) :
    Steady (bound + 1) (round >>= next) := by
  intro cursor ended short
  obtain ⟨ends, shorter⟩ := gains cursor ended short
  rw [Run.bind_apply]
  cases outcome : round cursor with
  | ok value later =>
      rw [outcome] at ends
      have onward : cursor.Onward later := ends
      cases value with
      | none =>
          exact (stopped later (onward.ended ended) (onward.length_le.trans short)).mono
            fun _ => onward.trans
      | some value =>
          have less := shorter value later outcome
          exact (again value later (onward.ended ended) (by omega)).mono fun _ => onward.trans
  | raised error later =>
      rw [outcome] at ends
      exact ends
  | halted why =>
      rw [outcome] at ends
      exact ends

def itemRound (item : Reader α) : Reader (Option α) := do
  if ← peekIs .comma then
    advance
    advance
    let next ← item
    return some next
  else
    return none

theorem itemsRest_succ (item : Reader α) (rounds : Nat) :
    itemsRest item (rounds + 1) =
      itemRound item >>= fun
        | none => pure []
        | some next => do
          let rest ← itemsRest item rounds
          return next :: rest := by
  rw [itemsRest, itemRound, bind_assoc]
  congr 1
  funext found
  cases found <;> simp

def operatorRound (handlers : Handlers) (expr : Precedence → Reader Expr) (bound : Nat)
    (minimum : Precedence) (left : Expr) : Reader (Option Expr) := do
  let next ← peek
  if minimum.rank < next.kind.precedence.rank then
    match trailingRule handlers left next.kind with
    | none => return none
    | some rule =>
      advance
      let extended ← extend expr bound left next rule
      return some extended
  else
    return none

theorem operators_succ (handlers : Handlers) (expr : Precedence → Reader Expr) (bound : Nat)
    (minimum : Precedence) (rounds : Nat) (left : Expr) :
    operators handlers expr bound minimum (rounds + 1) left =
      operatorRound handlers expr bound minimum left >>= fun
        | none => pure left
        | some extended => operators handlers expr bound minimum rounds extended := by
  rw [operators, operatorRound, bind_assoc]
  congr 1
  funext next
  split
  · cases trailingRule handlers left next.kind <;> simp
  · simp

def blockRound (stmt : Reader Stmt) : Reader (Option (Option Stmt)) := do
  let token ← current
  if token.kind = .rightBrace then
    return none
  else if token.kind = .endOfInput then
    Run.raise (.unexpectedToken .rightBrace token)
  else
    match ← Run.attempt stmt with
    | .ok first =>
      advance
      return some (some first)
    | .error diagnostic =>
      record diagnostic
      leaveBlockStatement
      return some none

theorem blockRest_succ (stmt : Reader Stmt) (rounds : Nat) :
    blockRest stmt (rounds + 1) =
      blockRound stmt >>= fun
        | none => pure []
        | some first => do
          let rest ← blockRest stmt rounds
          return first.toList ++ rest := by
  rw [blockRest, blockRound, bind_assoc]
  congr 1
  funext token
  split
  · simp
  · split
    · rfl
    · rw [bind_assoc]
      congr 1
      funext result
      cases result <;> simp

def programRound (stmt : Reader Stmt) : Reader (Option (Option Stmt)) := do
  let token ← current
  if token.kind = .endOfInput then
    return none
  else
    match ← Run.attempt stmt with
    | .ok first =>
      advance
      return some (some first)
    | .error diagnostic =>
      record diagnostic
      leaveStatement
      advance
      return some none

theorem programRest_succ (stmt : Reader Stmt) (rounds : Nat) :
    programRest stmt (rounds + 1) =
      programRound stmt >>= fun
        | none => pure []
        | some first => do
          let rest ← programRest stmt rounds
          return first.toList ++ rest := by
  rw [programRest, programRound, bind_assoc]
  congr 1
  funext token
  split
  · simp
  · rw [bind_assoc]
    congr 1
    funext result
    cases result <;> simp

theorem round_item {item : Reader α} (steady : Steady bound item) :
    Round bound (itemRound item) := by
  intro cursor ended short
  by_cases comma : cursor.step.current.kind = .comma
  · -- a comma stands before the end, so that the first of the two moves passes a token
    have inside := Cursor.inside_of_next ended (by rw [comma]; decide)
    have less := Cursor.length_step_lt ended inside
    have onward := cursor.onward_step
    have onwards := cursor.step.onward_step
    have run : itemRound item cursor =
        (item >>= fun next => pure (some next)) cursor.step.step := by
      simp [-bind_pure_comp, itemRound, Run.bind_apply, peekIs_eq ended, comma, advance_eq ended,
        advance_eq (onward.ended ended)]
    have steadyRest : Steady bound (item >>= fun next => pure (some next)) :=
      steady.bind fun _ => steady_pure _
    have ends := steadyRest cursor.step.step ((onward.trans onwards).ended ended)
      ((onward.trans onwards).length_le.trans short)
    refine ⟨?_, ?_⟩
    · rw [run]
      exact ends.mono fun _ => (onward.trans onwards).trans
    · intro value later result
      rw [run] at result
      rw [result] at ends
      have further : cursor.step.step.Onward later := ends
      have shorter := (onwards.trans further).length_le
      omega
  · have run : itemRound item cursor = .ok none cursor := by
      simp [-bind_pure_comp, itemRound, Run.bind_apply, peekIs_eq ended, comma]
    rw [run]
    exact ⟨Cursor.Onward.refl cursor, by simp⟩

theorem round_operator {handlers : Handlers} {expr : Precedence → Reader Expr} {inner : Nat}
    (steady : ∀ left token rule, Steady bound (extend expr inner left token rule))
    (minimum : Precedence) (left : Expr) :
    Round (bound + 1) (operatorRound handlers expr inner minimum left) := by
  intro cursor ended short
  by_cases binds : minimum.rank < cursor.step.current.kind.precedence.rank
  · cases found : trailingRule handlers left cursor.step.current.kind with
    | none =>
        have run : operatorRound handlers expr inner minimum left cursor = .ok none cursor := by
          simp [-bind_pure_comp, operatorRound, Run.bind_apply, peek_eq ended, binds, found]
        rw [run]
        exact ⟨Cursor.Onward.refl cursor, by simp⟩
    | some rule =>
        -- whatever binds is an operator and not the end of the input
        have inside := Cursor.inside_of_next ended (by
          intro atEnd
          rw [atEnd] at binds
          simp [Kind.precedence, Precedence.rank] at binds)
        have less := Cursor.length_step_lt ended inside
        have onward := cursor.onward_step
        have run : operatorRound handlers expr inner minimum left cursor =
            (extend expr inner left cursor.step.current rule >>= fun extended =>
              pure (some extended)) cursor.step := by
          simp [-bind_pure_comp, operatorRound, Run.bind_apply, peek_eq ended, binds, found,
            advance_eq ended]
        have steadyRest : Steady bound (extend expr inner left cursor.step.current rule >>=
            fun extended => pure (some extended)) :=
          (steady left cursor.step.current rule).bind fun _ => steady_pure _
        have ends := steadyRest cursor.step (onward.ended ended) (by omega)
        refine ⟨?_, ?_⟩
        · rw [run]
          exact ends.mono fun _ => onward.trans
        · intro value later result
          rw [run] at result
          rw [result] at ends
          have further : cursor.step.Onward later := ends
          have shorter := further.length_le
          omega
  · have run : operatorRound handlers expr inner minimum left cursor = .ok none cursor := by
      simp [-bind_pure_comp, operatorRound, Run.bind_apply, peek_eq ended, binds]
    rw [run]
    exact ⟨Cursor.Onward.refl cursor, by simp⟩

theorem round_block {stmt : Reader Stmt} (steady : Steady bound stmt) :
    Round bound (blockRound stmt) := by
  intro cursor ended short
  by_cases closing : cursor.current.kind = .rightBrace
  · have run : blockRound stmt cursor = .ok none cursor := by
      simp [-bind_pure_comp, blockRound, Run.bind_apply, current, closing]
    rw [run]
    exact ⟨Cursor.Onward.refl cursor, by simp⟩
  by_cases atEnd : cursor.current.kind = .endOfInput
  · have run : blockRound stmt cursor =
        .raised (.unexpectedToken .rightBrace cursor.current) cursor := by
      simp [-bind_pure_comp, blockRound, Run.bind_apply, current, atEnd, Run.raise]
    rw [run]
    exact ⟨Cursor.Onward.refl cursor, by simp⟩
  have ends := steady cursor ended short
  cases outcome : stmt cursor with
  | halted why =>
      rw [outcome] at ends
      exact ends.elim
  | ok first middle =>
      rw [outcome] at ends
      have onward : cursor.Onward middle := ends
      have run : blockRound stmt cursor = .ok (some (some first)) middle.step := by
        simp [-bind_pure_comp, blockRound, Run.bind_apply, current, closing, atEnd, Run.attempt,
          outcome, advance_eq (onward.ended ended)]
      rw [run]
      refine ⟨onward.trans middle.onward_step, ?_⟩
      rintro _ _ ⟨⟩
      exact Cursor.length_step_lt_of_onward onward ended atEnd
  | raised diagnostic middle =>
      rw [outcome] at ends
      have onward : cursor.Onward middle := ends
      have noted := onward.trans (middle.onward_noted diagnostic)
      have run : blockRound stmt cursor =
          .ok (some none) (middle.noted diagnostic).leftBlockStatement := by
        simp [-bind_pure_comp, blockRound, Run.bind_apply, current, closing, atEnd, Run.attempt,
          outcome, record_eq, leaveBlockStatement_eq]
      rw [run]
      refine ⟨noted.trans (Cursor.onward_leftBlockStatement _), ?_⟩
      rintro _ _ ⟨⟩
      exact Cursor.length_leftBlockStatement_lt noted ended closing atEnd

/-- A program is over at the end of the input only; errors in it are recorded and not raised. -/
theorem programRound_cases {stmt : Reader Stmt} (steady : Steady bound stmt) {cursor : Cursor}
    (ended : Ended cursor.tokens) (short : cursor.tokens.length ≤ bound) :
    (cursor.current.kind = .endOfInput ∧ programRound stmt cursor = .ok none cursor) ∨
      (cursor.current.kind ≠ .endOfInput ∧
        ∃ first later, programRound stmt cursor = .ok (some first) later ∧
          cursor.Onward later ∧ later.tokens.length < cursor.tokens.length) := by
  by_cases atEnd : cursor.current.kind = .endOfInput
  · refine .inl ⟨atEnd, ?_⟩
    simp [-bind_pure_comp, programRound, Run.bind_apply, current, atEnd]
  refine .inr ⟨atEnd, ?_⟩
  have ends := steady cursor ended short
  cases outcome : stmt cursor with
  | halted why =>
      rw [outcome] at ends
      exact ends.elim
  | ok first middle =>
      rw [outcome] at ends
      have onward : cursor.Onward middle := ends
      refine ⟨some first, middle.step, ?_, onward.trans middle.onward_step,
        Cursor.length_step_lt_of_onward onward ended atEnd⟩
      simp [-bind_pure_comp, programRound, Run.bind_apply, current, atEnd, Run.attempt, outcome,
        advance_eq (onward.ended ended)]
  | raised diagnostic middle =>
      rw [outcome] at ends
      have onward : cursor.Onward middle := ends
      have left := (onward.trans (middle.onward_noted diagnostic)).trans
        (Cursor.onward_leftStatement _)
      refine ⟨none, (middle.noted diagnostic).leftStatement.step, ?_,
        left.trans (Cursor.onward_step _), Cursor.length_step_lt_of_onward left ended atEnd⟩
      simp [-bind_pure_comp, programRound, Run.bind_apply, current, atEnd, Run.attempt, outcome,
        record_eq, leaveStatement_eq, advance_eq (left.ended ended)]

theorem round_program {stmt : Reader Stmt} (steady : Steady bound stmt) :
    Round bound (programRound stmt) := by
  intro cursor ended short
  rcases programRound_cases steady ended short with
    ⟨_, run⟩ | ⟨_, first, later, run, onward, shorter⟩
  · rw [run]
    exact ⟨Cursor.Onward.refl cursor, by simp⟩
  · rw [run]
    refine ⟨onward, ?_⟩
    rintro _ _ ⟨⟩
    exact shorter

/-! ## Loops and what they are made of -/

theorem steady_itemsRest {item : Reader α} (steady : Steady bound item)
    (enough : bound ≤ rounds) : Steady bound (itemsRest item rounds) := by
  induction rounds generalizing bound with
  | zero =>
      obtain rfl : bound = 0 := by omega
      exact steady_zero _
  | succ rounds ih =>
      cases bound with
      | zero => exact steady_zero _
      | succ bound =>
          rw [itemsRest_succ]
          refine (round_item steady).bind (steady_pure _) fun next => ?_
          exact (ih (steady.mono bound.le_succ) (by omega)).bind fun _ => steady_pure _

theorem steady_itemsTail {item : Reader α} (steady : Steady bound item)
    (enough : bound ≤ rounds) (close : Kind) :
    Steady bound (do
      let first ← item
      let rest ← itemsRest item rounds
      expect close
      return first :: rest) :=
  steady.bind fun _ => (steady_itemsRest steady enough).bind fun _ =>
    (steady_expect close).bind fun _ => steady_pure _

theorem steady_items {item : Reader α} (steady : Steady bound item)
    (enough : bound ≤ rounds) (close : Kind) : Steady bound (items close item rounds) := by
  refine (steady_peekIs close).bind fun _ => Steady.ite ?_ ?_
  · exact steady_advance.bind fun _ => steady_pure _
  · exact steady_advance.bind fun _ => steady_itemsTail steady enough close

theorem steadyInside_items {item : Reader α} (steady : Steady bound item)
    (enough : bound ≤ rounds) (close : Kind) : SteadyInside bound (items close item rounds) := by
  refine SteadyInside.afterPeekIs (fun found => ?_) close
  cases found with
  | true => exact (steady_pure _).afterAdvance
  | false => exact (steady_itemsTail steady enough close).afterAdvance

theorem steady_blockRest {stmt : Reader Stmt} (steady : Steady bound stmt)
    (enough : bound ≤ rounds) : Steady bound (blockRest stmt rounds) := by
  induction rounds generalizing bound with
  | zero =>
      obtain rfl : bound = 0 := by omega
      exact steady_zero _
  | succ rounds ih =>
      cases bound with
      | zero => exact steady_zero _
      | succ bound =>
          rw [blockRest_succ]
          refine (round_block steady).bind (steady_pure _) fun first => ?_
          exact (ih (steady.mono bound.le_succ) (by omega)).bind fun _ => steady_pure _

/-- The statements of a program are read to the end of the input, whatever is wrong with them. -/
theorem programRest_ok {stmt : Reader Stmt} (steady : Steady bound stmt) {cursor : Cursor}
    (ended : Ended cursor.tokens) (short : cursor.tokens.length ≤ bound)
    (enough : cursor.tokens.length ≤ rounds) :
    ∃ statements later, programRest stmt rounds cursor = .ok statements later ∧
      cursor.Onward later ∧ later.current.kind = .endOfInput := by
  induction rounds generalizing cursor with
  | zero => simp [Cursor.tokens] at enough
  | succ rounds ih =>
      rw [programRest_succ]
      rcases programRound_cases steady ended short with
        ⟨atEnd, run⟩ | ⟨_, first, middle, run, onward, shorter⟩
      · refine ⟨[], cursor, ?_, Cursor.Onward.refl cursor, atEnd⟩
        simp [Run.bind_apply, run]
      · obtain ⟨statements, later, runRest, further, atEnd⟩ :=
          ih (onward.ended ended) (by omega) (by omega)
        refine ⟨first.toList ++ statements, later, ?_, onward.trans further, atEnd⟩
        simp [-bind_pure_comp, Run.bind_apply, run, runRest]

section Parts

variable {expr : Precedence → Reader Expr} (steady : ∀ minimum, Steady bound (expr minimum))

include steady

theorem steady_statement : Steady bound (statement expr) := by
  refine steady_current.bind fun token => ?_
  split
  · exact (steady_expect _).bind fun _ => steady_current.bind fun _ => (steady_expect _).bind
      fun _ => steady_advance.bind fun _ => (steady _).bind fun _ => steady_endStatement.bind
        fun _ => steady_pure _
  · exact steady_advance.bind fun _ => (steady _).bind fun _ => steady_endStatement.bind
      fun _ => steady_pure _
  · exact (steady _).bind fun _ => (steady_peekIs _).bind fun _ =>
      (steady_advance.bind fun _ => steady_pure _).ite (steady_pure _)

theorem steady_block (enough : bound ≤ rounds) : Steady bound (block expr rounds) :=
  steady_advance.bind fun _ => steady_blockRest (steady_statement steady) enough

theorem steadyInside_block (enough : bound ≤ rounds) : SteadyInside bound (block expr rounds) :=
  (steady_blockRest (steady_statement steady) enough).afterAdvance

theorem steady_pair : Steady bound (pair expr) :=
  (steady _).bind fun _ => (steady_expect _).bind fun _ => steady_advance.bind
    fun _ => (steady _).bind fun _ => steady_pure _

omit steady in
theorem steady_parameter : Steady bound parameter :=
  steady_current.bind fun _ => (steady_pure _).ite (steady_raise _)

/-- The token that begins a form is not the end of the input, so that the parts of the form have
one token less to read. -/
theorem steadyInside_leadingForm (enough : bound ≤ rounds) (token : Token) (form : Leading) :
    SteadyInside bound (leadingForm expr rounds token form) := by
  cases form with
  | name => exact (steady_pure _).inside
  | integer => exact ((steady_ofExcept _).bind fun _ => steady_pure _).inside
  | string => exact (steady_pure _).inside
  | boolean value => exact (steady_pure _).inside
  | unary op => exact ((steady _).bind fun _ => steady_pure _).afterAdvance
  | group =>
      exact ((steady _).bind fun _ => (steady_expect _).bind fun _ => steady_pure _).afterAdvance
  | array =>
      exact (steadyInside_items (steady _) enough _).bind fun _ => steady_pure _
  | hash =>
      exact (steadyInside_items (steady_pair steady) enough _).bind fun _ => steady_pure _
  | conditional =>
      refine Steady.afterAdvance ?_
      refine (steady _).bind fun _ => (steady_expect _).bind fun _ =>
        (steady_block steady enough).bind fun _ => (steady_peekIs _).bind fun _ => ?_
      refine Steady.ite ?_ (steady_pure _)
      exact steady_advance.bind fun _ => (steady_expect _).bind fun _ =>
        (steady_block steady enough).bind fun _ => steady_pure _
  | function =>
      refine Steady.afterExpect ?_ _
      exact (steady_items steady_parameter enough _).bind fun _ => (steady_expect _).bind fun _ =>
        (steady_block steady enough).bind fun _ => steady_pure _

omit steady in
/-- Following a rule of one's own is as steady as reading blocks is. -/
theorem steady_handler {block : Reader Block} (steady : Steady bound block) (handler : Handler) :
    Steady bound (handler.run block) := by
  induction handler with
  | finish result => exact steady_ofExcept result
  | look next ih =>
      exact Steady.bind (fun cursor _ _ => Cursor.Onward.refl cursor) fun cursor => ih cursor
  | record diagnostic next ih =>
      exact Steady.bind (fun cursor _ _ => cursor.onward_noted diagnostic) fun _ => ih
  | read next ih => exact steady.attempt.bind fun result => ih result

theorem steady_extend (enough : bound ≤ rounds) (left : Expr) (token : Token)
    (rule : TrailingHandler ⊕ Trailing) : Steady bound (extend expr rounds left token rule) := by
  match rule with
  | .inl handler => exact steady_handler (steady_block steady enough) (handler left)
  | .inr (.binary op) => exact steady_advance.bind fun _ => (steady _).bind fun _ => steady_pure _
  | .inr .call => exact (steady_items (steady _) enough _).bind fun _ => steady_pure _
  | .inr .index =>
      exact steady_advance.bind fun _ => (steady _).bind fun _ => (steady_expect _).bind
        fun _ => steady_pure _

omit steady in
theorem block_atEnd {cursor : Cursor} (ended : Ended cursor.tokens)
    (atEnd : cursor.current.kind = .endOfInput) :
    block expr (rounds + 1) cursor =
      .raised (.unexpectedToken .rightBrace cursor.current) cursor := by
  simp [block, Run.bind_apply, advance_eq ended, Cursor.step_of_atEnd ended atEnd, blockRest,
    current, atEnd, Run.raise]

/-- The first token of a block is passed or is the end of the input, so that a block can have one
token more than the expressions in it. -/
theorem steady_block_succ (enough : bound ≤ rounds) :
    Steady (bound + 1) (block expr (rounds + 1)) := by
  intro cursor ended short
  by_cases atEnd : cursor.current.kind = .endOfInput
  · rw [block_atEnd ended atEnd]
    exact Cursor.Onward.refl cursor
  · exact steadyInside_block steady (by omega) cursor ended atEnd short

theorem steady_operand (handlers : Handlers) (enough : bound ≤ rounds) :
    Steady (bound + 1) (operand handlers expr (rounds + 1)) := by
  intro cursor ended short
  simp only [operand, Run.bind_apply, current]
  cases handlers.leading? cursor.current.kind with
  | some handler =>
      exact steady_handler (steady_block_succ steady enough) handler cursor ended short
  | none =>
      cases leading : cursor.current.kind.leading? with
      | none => exact steady_raise _ cursor ended short
      | some form =>
          refine steadyInside_leadingForm steady (by omega) _ form cursor ended ?_ short
          intro atEnd
          rw [atEnd] at leading
          cases leading

theorem steady_operators (handlers : Handlers) {inner allowed : Nat} (enough : bound ≤ inner)
    (minimum : Precedence) (left : Expr) (low : allowed ≤ bound + 1) (covered : allowed ≤ rounds) :
    Steady allowed (operators handlers expr inner minimum rounds left) := by
  induction rounds generalizing allowed left with
  | zero =>
      obtain rfl : allowed = 0 := by omega
      exact steady_zero _
  | succ rounds ih =>
      cases allowed with
      | zero => exact steady_zero _
      | succ allowed =>
          rw [operators_succ]
          have steadyExtend (left : Expr) (token : Token) (rule : TrailingHandler ⊕ Trailing) :
              Steady allowed (extend expr inner left token rule) :=
            (steady_extend steady enough left token rule).mono (by omega)
          refine (round_operator steadyExtend minimum left).bind (steady_pure _) fun extended => ?_
          exact ih extended (by omega) (by omega)

end Parts

/-- An expression needs no deeper nesting and no more rounds than there are tokens. -/
theorem steady_expression (handlers : Handlers) (depth : Nat) (minimum : Precedence) :
    Steady depth (expression handlers depth minimum) := by
  induction depth generalizing minimum with
  | zero => exact steady_zero _
  | succ depth ih =>
      refine (steady_operand ih handlers le_rfl).bind fun first => ?_
      exact steady_operators ih handlers depth.le_succ minimum first le_rfl le_rfl

theorem program_ok (handlers : Handlers) {cursor : Cursor} (ended : Ended cursor.tokens)
    (enough : cursor.tokens.length ≤ bound) :
    ∃ result later, program handlers bound cursor = .ok result later ∧
      cursor.Onward later ∧ later.current.kind = .endOfInput := by
  obtain ⟨statements, later, run, onward, atEnd⟩ :=
    programRest_ok (steady_statement (steady_expression handlers bound)) ended enough enough
  refine ⟨⟨statements⟩, later, ?_, onward, atEnd⟩
  simp [-bind_pure_comp, program, Run.bind_apply, run]

end Scriptlet.Reader
