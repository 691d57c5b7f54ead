import Scriptlet.Proofs.Token.Ended
import Scriptlet.Reading

/-!
# Readers move forward

A reader moves its cursor over the tokens in one direction and adds to what is recorded. `Onward`
says so of two cursors. `Steady bound run` says of a reader that, from every cursor with at most
`bound` tokens, it comes to an end, with a value or an error, at a cursor onward from there: it
neither runs out of rounds nor asks for a token after the last one.
-/
set_option autoImplicit false

namespace Scriptlet

open Token (Kind)

def Outcome.Ends {σ ε α : Type} (post : σ → Prop) : Outcome σ ε α → Prop
  | .ok _ state => post state
  | .raised _ state => post state
  | .halted _ => False

theorem Outcome.Ends.mono {σ ε α : Type} {post weaker : σ → Prop} {outcome : Outcome σ ε α}
    (ends : outcome.Ends post) (weaken : ∀ state, post state → weaker state) :
    outcome.Ends weaker := by
  cases outcome with
  | ok _ state => exact weaken state ends
  | raised _ state => exact weaken state ends
  | halted _ => exact ends

/-! ## Places among the tokens -/

namespace Cursor

structure Onward (before later : Cursor) : Prop where
  tokens : later.tokens <:+ before.tokens
  recorded : before.recorded <+: later.recorded

theorem Onward.refl (cursor : Cursor) : cursor.Onward cursor :=
  ⟨List.suffix_refl _, List.prefix_refl _⟩

theorem Onward.trans {first second third : Cursor} (start : first.Onward second)
    (rest : second.Onward third) : first.Onward third :=
  ⟨rest.tokens.trans start.tokens, start.recorded.trans rest.recorded⟩

theorem Onward.length_le {before later : Cursor} (onward : before.Onward later) :
    later.tokens.length ≤ before.tokens.length :=
  onward.tokens.length_le

theorem Onward.ended {before later : Cursor} (onward : before.Onward later)
    (ended : Ended before.tokens) : Ended later.tokens :=
  ended.of_suffix onward.tokens (by simp [Cursor.tokens])

theorem ahead_eq_nil_iff {cursor : Cursor} (ended : Ended cursor.tokens) :
    cursor.ahead = [] ↔ cursor.current.kind = .endOfInput :=
  ended.rest_eq_nil_iff

def step (cursor : Cursor) : Cursor :=
  match cursor.ahead with
  | [] => cursor
  | next :: ahead => { cursor with current := next, ahead := ahead }

@[simp]
theorem step_recorded (cursor : Cursor) : cursor.step.recorded = cursor.recorded := by
  unfold step
  split <;> rfl

theorem onward_step (cursor : Cursor) : cursor.Onward cursor.step := by
  refine ⟨?_, by simp⟩
  unfold step
  split
  · exact List.suffix_refl _
  · rename_i more
    simp [Cursor.tokens, more]

theorem tokens_step_of_inside {cursor : Cursor} (ended : Ended cursor.tokens)
    (inside : cursor.current.kind ≠ .endOfInput) : cursor.step.tokens = cursor.ahead := by
  unfold step
  split
  · rename_i last
    exact absurd ((ahead_eq_nil_iff ended).mp last) inside
  · rename_i more
    exact more.symm

theorem step_of_atEnd {cursor : Cursor} (ended : Ended cursor.tokens)
    (atEnd : cursor.current.kind = .endOfInput) : cursor.step = cursor := by
  unfold step
  rw [(ahead_eq_nil_iff ended).mpr atEnd]

/-- Whatever follows the end of the input is the end of the input. -/
theorem inside_of_next {cursor : Cursor} (ended : Ended cursor.tokens)
    (next : cursor.step.current.kind ≠ .endOfInput) : cursor.current.kind ≠ .endOfInput := by
  intro atEnd
  rw [step_of_atEnd ended atEnd] at next
  exact next atEnd

theorem length_step_lt {cursor : Cursor} (ended : Ended cursor.tokens)
    (inside : cursor.current.kind ≠ .endOfInput) :
    cursor.step.tokens.length < cursor.tokens.length := by
  rw [tokens_step_of_inside ended inside]
  exact Nat.lt_succ_self _

/-- Moving on from a place that was reached from inside the input passes a token, be it now or
on the way. -/
theorem length_step_lt_of_onward {before later : Cursor} (onward : before.Onward later)
    (ended : Ended before.tokens) (inside : before.current.kind ≠ .endOfInput) :
    later.step.tokens.length < before.tokens.length := by
  by_cases atEnd : later.current.kind = .endOfInput
  · have nothing := (ahead_eq_nil_iff (onward.ended ended)).mpr atEnd
    have more : before.ahead ≠ [] := fun none => inside ((ahead_eq_nil_iff ended).mp none)
    rw [step_of_atEnd (onward.ended ended) atEnd]
    simpa [Cursor.tokens, nothing] using List.length_pos_iff.mpr more
  · exact Nat.lt_of_lt_of_le (length_step_lt (onward.ended ended) atEnd) onward.length_le

end Cursor

theorem skipUntilNext_suffix (stops : Kind → Bool) (current : Token) (ahead : List Token) :
    (skipUntilNext stops current ahead).1 :: (skipUntilNext stops current ahead).2 <:+
      current :: ahead := by
  induction ahead generalizing current with
  | nil => exact List.suffix_refl _
  | cons next ahead ih =>
      unfold skipUntilNext
      split
      · exact List.suffix_refl _
      · exact (ih next).trans (List.suffix_cons _ _)

theorem skipUntil_suffix (stops : Kind → Bool) (current : Token) (ahead : List Token) :
    (skipUntil stops current ahead).1 :: (skipUntil stops current ahead).2 <:+
      current :: ahead := by
  induction ahead generalizing current with
  | nil => exact List.suffix_refl _
  | cons next ahead ih =>
      unfold skipUntil
      split
      · exact List.suffix_refl _
      · exact (ih next).trans (List.suffix_cons _ _)

theorem skipInBlock_suffix (depth : Nat) (current : Token) (ahead : List Token) :
    (skipInBlock depth current ahead).1 :: (skipInBlock depth current ahead).2 <:+
      current :: ahead := by
  induction ahead generalizing depth current with
  | nil => exact List.suffix_refl _
  | cons next ahead ih =>
      unfold skipInBlock
      split
      · exact List.suffix_refl _
      · exact List.suffix_cons _ _
      · exact List.suffix_refl _
      · exact (ih _ next).trans (List.suffix_cons _ _)
      · exact (ih _ next).trans (List.suffix_cons _ _)
      · exact (ih _ next).trans (List.suffix_cons _ _)

/-- A bad statement of a block that begins neither with its closing brace nor with the end of the
input is left behind by a token at least. -/
theorem length_skipInBlock_lt (current : Token) (ahead : List Token)
    (unclosed : current.kind ≠ .rightBrace) (inside : current.kind ≠ .endOfInput)
    (more : ahead ≠ []) : (skipInBlock 0 current ahead).2.length < ahead.length := by
  cases ahead with
  | nil => exact absurd rfl more
  | cons next ahead =>
      have shorter (depth : Nat) : (skipInBlock depth next ahead).2.length < ahead.length + 1 := by
        have suffix := (skipInBlock_suffix depth next ahead).length_le
        simp only [List.length_cons] at suffix
        omega
      unfold skipInBlock
      split <;> simp_all

namespace Cursor

def noted (cursor : Cursor) (diagnostic : Diagnostic) : Cursor :=
  { cursor with recorded := cursor.recorded ++ [diagnostic] }

def leftStatement (cursor : Cursor) : Cursor :=
  cursor.moveTo <|
    skipUntil (fun kind => kind = .semicolon || kind = .endOfInput) cursor.current cursor.ahead

def leftBlockStatement (cursor : Cursor) : Cursor :=
  cursor.moveTo (skipInBlock 0 cursor.current cursor.ahead)

theorem onward_noted (cursor : Cursor) (diagnostic : Diagnostic) :
    cursor.Onward (cursor.noted diagnostic) :=
  ⟨List.suffix_refl _, List.prefix_append _ _⟩

theorem onward_leftStatement (cursor : Cursor) : cursor.Onward cursor.leftStatement :=
  ⟨skipUntil_suffix _ _ _, List.prefix_refl _⟩

theorem onward_leftBlockStatement (cursor : Cursor) : cursor.Onward cursor.leftBlockStatement :=
  ⟨skipInBlock_suffix _ _ _, List.prefix_refl _⟩

/-- Leaving a bad statement of a block passes a token, be it now or before the statement was given
up. -/
theorem length_leftBlockStatement_lt {before later : Cursor} (onward : before.Onward later)
    (ended : Ended before.tokens) (unclosed : before.current.kind ≠ .rightBrace)
    (inside : before.current.kind ≠ .endOfInput) :
    later.leftBlockStatement.tokens.length < before.tokens.length := by
  by_cases moved : later.tokens.length < before.tokens.length
  · exact Nat.lt_of_le_of_lt later.onward_leftBlockStatement.length_le moved
  · have same : later.tokens = before.tokens :=
      onward.tokens.eq_of_length (Nat.le_antisymm onward.length_le (by omega))
    obtain ⟨sameCurrent, sameAhead⟩ := List.cons.inj same
    have more : before.ahead ≠ [] := fun none => inside ((ahead_eq_nil_iff ended).mp none)
    have shorter := length_skipInBlock_lt before.current before.ahead unclosed inside more
    unfold leftBlockStatement
    rw [sameCurrent, sameAhead]
    exact Nat.succ_lt_succ shorter

end Cursor

/-! ## Single moves -/

namespace Reader

variable {α β : Type} {bound : Nat}

theorem peek_eq {cursor : Cursor} (ended : Ended cursor.tokens) :
    peek cursor = .ok cursor.step.current cursor := by
  unfold peek Cursor.step
  cases ahead : cursor.ahead with
  | nil => simp [(Cursor.ahead_eq_nil_iff ended).mp ahead]
  | cons next rest => rfl

theorem advance_eq {cursor : Cursor} (ended : Ended cursor.tokens) :
    advance cursor = .ok () cursor.step := by
  unfold advance Cursor.step
  cases ahead : cursor.ahead with
  | nil => simp [(Cursor.ahead_eq_nil_iff ended).mp ahead]
  | cons next rest => rfl

theorem peekIs_eq {cursor : Cursor} (ended : Ended cursor.tokens) (kind : Kind) :
    peekIs kind cursor = .ok (decide (cursor.step.current.kind = kind)) cursor := by
  simp only [peekIs, Run.bind_apply, peek_eq ended, Run.pure_apply]

theorem expect_eq {cursor : Cursor} (ended : Ended cursor.tokens) (kind : Kind) :
    expect kind cursor =
      if cursor.step.current.kind = kind then
        .ok () cursor.step
      else
        .raised (.unexpectedToken kind cursor.step.current) cursor := by
  simp only [expect, Run.bind_apply, peek_eq ended]
  split
  · exact advance_eq ended
  · rfl

theorem record_eq (cursor : Cursor) (diagnostic : Diagnostic) :
    record diagnostic cursor = .ok () (cursor.noted diagnostic) :=
  rfl

theorem leaveStatement_eq (cursor : Cursor) :
    leaveStatement cursor = .ok () cursor.leftStatement :=
  rfl

theorem leaveBlockStatement_eq (cursor : Cursor) :
    leaveBlockStatement cursor = .ok () cursor.leftBlockStatement :=
  rfl

/-! ## Steady readers -/

/-- From a cursor with at most `bound` tokens the reader comes to an end further on. -/
def Steady (bound : Nat) (run : Reader α) : Prop :=
  ∀ cursor : Cursor, Ended cursor.tokens → cursor.tokens.length ≤ bound →
    (run cursor).Ends cursor.Onward

def SteadyInside (bound : Nat) (run : Reader α) : Prop :=
  ∀ cursor : Cursor, Ended cursor.tokens → cursor.current.kind ≠ .endOfInput →
    cursor.tokens.length ≤ bound + 1 → (run cursor).Ends cursor.Onward

theorem Steady.mono {run : Reader α} {smaller : Nat} (steady : Steady bound run)
    (le : smaller ≤ bound) : Steady smaller run :=
  fun cursor ended short => steady cursor ended (short.trans le)

theorem steady_zero (run : Reader α) : Steady 0 run := by
  intro cursor _ short
  simp [Cursor.tokens] at short

theorem Steady.inside {run : Reader α} (steady : Steady (bound + 1) run) :
    SteadyInside bound run :=
  fun cursor ended _ short => steady cursor ended short

theorem steady_pure (value : α) : Steady bound (pure value) :=
  fun cursor _ _ => Cursor.Onward.refl cursor

theorem steady_raise (diagnostic : Diagnostic) : Steady bound (Run.raise diagnostic : Reader α) :=
  fun cursor _ _ => Cursor.Onward.refl cursor

theorem steady_ofExcept (result : Except Diagnostic α) :
    Steady bound (Run.ofExcept result : Reader α) := by
  cases result with
  | ok value => exact steady_pure value
  | error diagnostic => exact steady_raise diagnostic

theorem steady_current : Steady bound current :=
  fun cursor _ _ => Cursor.Onward.refl cursor

theorem steady_peekIs (kind : Kind) : Steady bound (peekIs kind) := by
  intro cursor ended _
  rw [peekIs_eq ended]
  exact Cursor.Onward.refl cursor

theorem steady_advance : Steady bound advance := by
  intro cursor ended _
  rw [advance_eq ended]
  exact cursor.onward_step

theorem steady_expect (kind : Kind) : Steady bound (expect kind) := by
  intro cursor ended _
  rw [expect_eq ended]
  split
  · exact cursor.onward_step
  · exact Cursor.Onward.refl cursor

theorem ends_bind {run : Reader α} {next : α → Reader β} {cursor : Cursor}
    (ends : (run cursor).Ends cursor.Onward)
    (endsNext : ∀ value later, cursor.Onward later → (next value later).Ends later.Onward) :
    ((run >>= next) cursor).Ends cursor.Onward := by
  rw [Run.bind_apply]
  cases outcome : run cursor with
  | ok value later =>
      rw [outcome] at ends
      have onward : cursor.Onward later := ends
      exact (endsNext value later onward).mono fun _ => onward.trans
  | raised error later =>
      rw [outcome] at ends
      exact ends
  | halted why =>
      rw [outcome] at ends
      exact ends

theorem Steady.bind {run : Reader α} {next : α → Reader β} (steady : Steady bound run)
    (steadyNext : ∀ value, Steady bound (next value)) : Steady bound (run >>= next) := by
  intro cursor ended short
  refine ends_bind (steady cursor ended short) fun value later onward => ?_
  exact steadyNext value later (onward.ended ended) (onward.length_le.trans short)

theorem SteadyInside.bind {run : Reader α} {next : α → Reader β} (steady : SteadyInside bound run)
    (steadyNext : ∀ value, Steady (bound + 1) (next value)) :
    SteadyInside bound (run >>= next) := by
  intro cursor ended inside short
  refine ends_bind (steady cursor ended inside short) fun value later onward => ?_
  exact steadyNext value later (onward.ended ended) (onward.length_le.trans short)

theorem Steady.attempt {run : Reader α} (steady : Steady bound run) :
    Steady bound (Run.attempt run) := by
  intro cursor ended short
  have ends := steady cursor ended short
  rw [Run.attempt]
  cases outcome : run cursor with
  | ok value later => rwa [outcome] at ends
  | raised diagnostic later => rwa [outcome] at ends
  | halted why => rwa [outcome] at ends

theorem Steady.ite {run other : Reader α} {condition : Prop} [Decidable condition]
    (steady : Steady bound run) (steadyOther : Steady bound other) :
    Steady bound (if condition then run else other) := by
  split
  · exact steady
  · exact steadyOther

theorem steady_endStatement : Steady bound endStatement := by
  refine Steady.bind (fun cursor _ _ => ?_) fun _ =>
    (steady_peekIs .semicolon).bind fun _ => steady_advance.ite (steady_pure ())
  exact ⟨skipUntilNext_suffix _ _ _, List.prefix_refl _⟩

/-- A step into the input uses up a token, so that what follows has one token less to read. -/
theorem Steady.afterAdvance {run : Reader α} (steady : Steady bound run) :
    SteadyInside bound (advance >>= fun _ => run) := by
  intro cursor ended inside short
  rw [Run.bind_apply, advance_eq ended]
  have onward := cursor.onward_step
  have shorter := Cursor.length_step_lt ended inside
  exact (steady cursor.step (onward.ended ended) (by omega)).mono fun _ => onward.trans

theorem Steady.afterExpect {run : Reader α} (steady : Steady bound run) (kind : Kind) :
    SteadyInside bound (expect kind >>= fun _ => run) := by
  intro cursor ended inside short
  by_cases found : cursor.step.current.kind = kind
  · have expected : expect kind cursor = advance cursor := by
      rw [expect_eq ended, if_pos found, advance_eq ended]
    have same : (expect kind >>= fun _ => run) cursor = (advance >>= fun _ => run) cursor := by
      rw [Run.bind_apply, Run.bind_apply, expected]
    rw [same]
    exact steady.afterAdvance cursor ended inside short
  · rw [Run.bind_apply, expect_eq ended, if_neg found]
    exact Cursor.Onward.refl cursor

theorem SteadyInside.afterPeekIs {next : Bool → Reader α}
    (steadyNext : ∀ found, SteadyInside bound (next found)) (kind : Kind) :
    SteadyInside bound (peekIs kind >>= next) := by
  intro cursor ended inside short
  rw [Run.bind_apply, peekIs_eq ended]
  exact steadyNext _ cursor ended inside short

end Reader

end Scriptlet
