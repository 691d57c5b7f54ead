import Scriptlet.Proofs.Phrase.Recognition

/-!
# Where diagnostics point

Every diagnostic of the reader points at a token that was still to be read. `Local` says of a reader
that its diagnostics point at the token it begins on or at a later one, `Forward` that they point
at a later one. What follows an expression is forward: it never complains about the last token of
the expression.

The rules are those of the language, without replacements.
-/
set_option autoImplicit false

namespace Scriptlet

open Token (Kind)

def Diagnostic.PointsInto (diagnostic : Diagnostic) (list : List Token) : Prop :=
  diagnostic.position ∈ list.map Token.start

theorem Diagnostic.PointsInto.mono {diagnostic : Diagnostic} {list larger : List Token}
    (points : diagnostic.PointsInto list) (subset : list ⊆ larger) :
    diagnostic.PointsInto larger :=
  List.map_subset _ subset points

theorem Diagnostic.notLeading_position (token : Token) :
    (Diagnostic.notLeading token).position = token.start := by
  unfold Diagnostic.notLeading
  split <;> rfl

/-! ## Outcomes -/

/-- The later cursor stands further on, and whatever was recorded on the way points at one of the
tokens. -/
structure Cursor.Notes (spots : List Token) (before later : Cursor) : Prop where
  tokens : later.tokens <:+ before.tokens
  recorded : ∃ new, later.recorded = before.recorded ++ new ∧
    ∀ diagnostic ∈ new, diagnostic.PointsInto spots

namespace Cursor

variable {spots larger : List Token} {before middle later : Cursor}

theorem Notes.onward (notes : before.Notes spots later) : before.Onward later := by
  obtain ⟨new, recorded, _⟩ := notes.recorded
  exact ⟨notes.tokens, recorded ▸ List.prefix_append _ _⟩

theorem Onward.notes (onward : before.Onward later) (same : later.recorded = before.recorded) :
    before.Notes spots later :=
  ⟨onward.tokens, [], by simp [same], by simp⟩

theorem Notes.refl (cursor : Cursor) : cursor.Notes spots cursor :=
  (Onward.refl cursor).notes rfl

theorem Notes.trans (first : before.Notes spots middle) (second : middle.Notes spots later) :
    before.Notes spots later := by
  obtain ⟨new, recorded, points⟩ := first.recorded
  obtain ⟨more, recordedMore, pointsMore⟩ := second.recorded
  refine ⟨second.tokens.trans first.tokens, new ++ more, ?_, ?_⟩
  · rw [recordedMore, recorded, List.append_assoc]
  · intro diagnostic member
    rcases List.mem_append.mp member with old | fresh
    · exact points diagnostic old
    · exact pointsMore diagnostic fresh

theorem Notes.mono (notes : before.Notes spots later) (subset : spots ⊆ larger) :
    before.Notes larger later := by
  obtain ⟨new, recorded, points⟩ := notes.recorded
  exact ⟨notes.tokens, new, recorded, fun diagnostic member =>
    (points diagnostic member).mono subset⟩

theorem notes_noted {diagnostic : Diagnostic} (points : diagnostic.PointsInto spots)
    (cursor : Cursor) : cursor.Notes spots (cursor.noted diagnostic) :=
  ⟨List.suffix_refl _, [diagnostic], rfl, by simpa using points⟩

theorem step_suffix_step (suffix : later.tokens <:+ before.tokens) (ended : Ended before.tokens) :
    later.step.tokens <:+ before.step.tokens := by
  rcases List.suffix_cons_iff.mp suffix with same | further
  · obtain ⟨sameCurrent, sameAhead⟩ := List.cons.inj same
    unfold step
    rw [sameAhead]
    cases before.ahead with
    | nil => simp [Cursor.tokens, sameCurrent, sameAhead]
    | cons next ahead => exact List.suffix_refl _
  · have inside : before.current.kind ≠ .endOfInput := by
      intro atEnd
      rw [(ahead_eq_nil_iff ended).mpr atEnd] at further
      exact absurd (List.suffix_nil.mp further) (by simp [Cursor.tokens])
    rw [tokens_step_of_inside ended inside]
    exact later.onward_step.tokens.trans further

end Cursor

def Outcome.Cites {α : Type} (spots : List Token) (before : Cursor) :
    Outcome Cursor Diagnostic α → Prop
  | .ok _ later => before.Notes spots later
  | .raised diagnostic later => before.Notes spots later ∧ diagnostic.PointsInto spots
  | .halted _ => True

namespace Outcome

variable {α : Type} {spots larger : List Token} {before middle : Cursor}
  {outcome : Outcome Cursor Diagnostic α}

theorem Cites.mono (cites : outcome.Cites spots before) (subset : spots ⊆ larger) :
    outcome.Cites larger before := by
  cases outcome with
  | ok value later => exact Cursor.Notes.mono cites subset
  | raised diagnostic later => exact ⟨cites.1.mono subset, cites.2.mono subset⟩
  | halted why => trivial

theorem Cites.after (cites : outcome.Cites spots middle) (notes : before.Notes spots middle) :
    outcome.Cites spots before := by
  cases outcome with
  | ok value later => exact notes.trans cites
  | raised diagnostic later => exact ⟨notes.trans cites.1, cites.2⟩
  | halted why => trivial

end Outcome

/-! ## One round of each loop -/

def Token.Kind.continuation? (minimum : Precedence) (left : Expr) (kind : Kind) :
    Option Trailing :=
  if minimum.rank < kind.precedence.rank then
    if kind = .leftParen && !left.isCallable then none else kind.trailing?
  else
    none

theorem Token.Kind.continuation?_ne_endOfInput {minimum : Precedence} {left : Expr} {kind : Kind}
    {form : Trailing} (found : kind.continuation? minimum left = some form) :
    kind ≠ .endOfInput := by
  rintro rfl
  simp [Kind.continuation?, Kind.precedence, Precedence.rank] at found

namespace Reader

variable {α β : Type} {rounds inner : Nat} {cursor later : Cursor}
  {expr : Precedence → Reader Expr}

theorem operatorRound_apply (ended : Ended cursor.tokens) (minimum : Precedence) (left : Expr) :
    operatorRound .standard expr inner minimum left cursor =
      match cursor.step.current.kind.continuation? minimum left with
      | none => .ok none cursor
      | some form =>
        (trailingForm expr inner left cursor.step.current form >>= fun extended =>
          pure (some extended)) cursor.step := by
  simp only [operatorRound, Run.bind_apply, peek_eq ended, Kind.continuation?]
  split
  · simp only [trailingRule]
    split
    · rfl
    · cases cursor.step.current.kind.trailing? with
      | none => rfl
      | some form =>
          simp only [Handlers.standard, Option.map_some, Run.bind_apply, advance_eq ended]
          rfl
  · rfl

theorem operand_apply (rounds : Nat) :
    operand .standard expr rounds cursor =
      match cursor.current.kind.leading? with
      | some form => leadingForm expr rounds cursor.current form cursor
      | none => .raised (.notLeading cursor.current) cursor := by
  simp only [operand, Run.bind_apply, current, Handlers.standard]
  cases cursor.current.kind.leading? <;> rfl

theorem integer_apply (rounds : Nat) (token : Token) :
    leadingForm expr rounds token .integer cursor =
      if Text.digitsValue token.literal < integerBound then
        .ok (.integer (Int64.ofNat (Text.digitsValue token.literal))) cursor
      else .raised (.badInteger token.literal token.start) cursor := by
  simp only [leadingForm, integerOf, Run.bind_apply]
  by_cases small : Text.digitsValue token.literal < integerBound
  · simp only [if_pos small]
    rfl
  · simp only [if_neg small]
    rfl

theorem blockRound_ok {stmt : Reader Stmt} {first : Stmt} (ended : Ended later.tokens)
    (closing : cursor.current.kind ≠ .rightBrace) (inside : cursor.current.kind ≠ .endOfInput)
    (ran : stmt cursor = .ok first later) :
    blockRound stmt cursor = .ok (some (some first)) later.step := by
  simp [-bind_pure_comp, blockRound, Run.bind_apply, current, closing, inside, Run.attempt, ran,
    advance_eq ended]

theorem blockRound_raised {stmt : Reader Stmt} {diagnostic : Diagnostic}
    (closing : cursor.current.kind ≠ .rightBrace) (inside : cursor.current.kind ≠ .endOfInput)
    (ran : stmt cursor = .raised diagnostic later) :
    blockRound stmt cursor = .ok (some none) (later.noted diagnostic).leftBlockStatement := by
  simp [-bind_pure_comp, blockRound, Run.bind_apply, current, closing, inside, Run.attempt, ran,
    record_eq, leaveBlockStatement_eq]

theorem blockRound_halted {stmt : Reader Stmt} {why : Halt}
    (closing : cursor.current.kind ≠ .rightBrace) (inside : cursor.current.kind ≠ .endOfInput)
    (ran : stmt cursor = .halted why) : blockRound stmt cursor = .halted why := by
  simp [-bind_pure_comp, blockRound, Run.bind_apply, current, closing, inside, Run.attempt, ran]

theorem blockRound_closing (stmt : Reader Stmt) (closing : cursor.current.kind = .rightBrace) :
    blockRound stmt cursor = .ok none cursor := by
  simp [-bind_pure_comp, blockRound, Run.bind_apply, current, closing]

theorem blockRound_atEnd (stmt : Reader Stmt) (atEnd : cursor.current.kind = .endOfInput) :
    blockRound stmt cursor = .raised (.unexpectedToken .rightBrace cursor.current) cursor := by
  simp [-bind_pure_comp, blockRound, Run.bind_apply, current, atEnd, Run.raise]

theorem programRound_atEnd (stmt : Reader Stmt) (atEnd : cursor.current.kind = .endOfInput) :
    programRound stmt cursor = .ok none cursor := by
  simp [-bind_pure_comp, programRound, Run.bind_apply, current, atEnd]

theorem programRound_ok {stmt : Reader Stmt} {first : Stmt} (ended : Ended later.tokens)
    (inside : cursor.current.kind ≠ .endOfInput) (ran : stmt cursor = .ok first later) :
    programRound stmt cursor = .ok (some (some first)) later.step := by
  simp [-bind_pure_comp, programRound, Run.bind_apply, current, inside, Run.attempt, ran,
    advance_eq ended]

theorem programRound_raised {stmt : Reader Stmt} {diagnostic : Diagnostic}
    (ended : Ended later.tokens) (inside : cursor.current.kind ≠ .endOfInput)
    (ran : stmt cursor = .raised diagnostic later) :
    programRound stmt cursor = .ok (some none) (later.noted diagnostic).leftStatement.step := by
  have endedLeft : Ended (later.noted diagnostic).leftStatement.tokens :=
    (Cursor.onward_leftStatement (later.noted diagnostic)).ended ended
  simp [-bind_pure_comp, programRound, Run.bind_apply, current, inside, Run.attempt, ran,
    record_eq, leaveStatement_eq, advance_eq endedLeft]

theorem programRound_halted {stmt : Reader Stmt} {why : Halt}
    (inside : cursor.current.kind ≠ .endOfInput) (ran : stmt cursor = .halted why) :
    programRound stmt cursor = .halted why := by
  simp [-bind_pure_comp, programRound, Run.bind_apply, current, inside, Run.attempt, ran]

/-! ## Local and forward readers -/

/-- The diagnostics of the reader point at the current token or at a later one. -/
def Local (run : Reader α) : Prop :=
  ∀ cursor : Cursor, Ended cursor.tokens → (run cursor).Cites cursor.tokens cursor

def Forward (run : Reader α) : Prop :=
  ∀ cursor : Cursor, Ended cursor.tokens → (run cursor).Cites cursor.step.tokens cursor

theorem Local.ok {run : Reader α} (here : Local run) (ended : Ended cursor.tokens) {value : α}
    {later : Cursor} (ran : run cursor = .ok value later) : cursor.Notes cursor.tokens later := by
  have cites := here cursor ended
  rwa [ran] at cites

theorem Local.ended {run : Reader α} (here : Local run) (ended : Ended cursor.tokens) {value : α}
    {later : Cursor} (ran : run cursor = .ok value later) : Ended later.tokens :=
  (here.ok ended ran).onward.ended ended

theorem Local.raised {run : Reader α} (here : Local run) (ended : Ended cursor.tokens)
    {diagnostic : Diagnostic} {later : Cursor} (ran : run cursor = .raised diagnostic later) :
    cursor.Notes cursor.tokens later ∧ diagnostic.PointsInto cursor.tokens := by
  have cites := here cursor ended
  rwa [ran] at cites

theorem Forward.here {run : Reader α} (forward : Forward run) : Local run :=
  fun cursor ended => (forward cursor ended).mono cursor.onward_step.tokens.subset

theorem cites_bind {run : Reader α} {next : α → Reader β} {spots : List Token}
    (cites : (run cursor).Cites spots cursor)
    (citesNext : ∀ value later, run cursor = .ok value later → cursor.Notes spots later →
      (next value later).Cites spots later) :
    ((run >>= next) cursor).Cites spots cursor := by
  rw [Run.bind_apply]
  cases outcome : run cursor with
  | ok value later =>
      rw [outcome] at cites
      exact (citesNext value later outcome cites).after cites
  | raised diagnostic later =>
      rw [outcome] at cites
      exact cites
  | halted why => trivial

theorem Local.bind {run : Reader α} {next : α → Reader β} (here : Local run)
    (hereNext : ∀ value, Local (next value)) : Local (run >>= next) := by
  intro cursor ended
  refine cites_bind (here cursor ended) fun value later _ notes => ?_
  exact (hereNext value later (notes.onward.ended ended)).mono notes.tokens.subset

theorem Forward.bind {run : Reader α} {next : α → Reader β} (forward : Forward run)
    (forwardNext : ∀ value, Forward (next value)) : Forward (run >>= next) := by
  intro cursor ended
  refine cites_bind (forward cursor ended) fun value later _ notes => ?_
  exact (forwardNext value later (notes.onward.ended ended)).mono
    (Cursor.step_suffix_step notes.tokens ended).subset

theorem Forward.ite {run other : Reader α} {condition : Prop} [Decidable condition]
    (forward : Forward run) (forwardOther : Forward other) :
    Forward (if condition then run else other) := by
  split
  · exact forward
  · exact forwardOther

theorem forward_pure (value : α) : Forward (pure value) :=
  fun cursor _ => Cursor.Notes.refl cursor

theorem forward_current : Forward current :=
  fun cursor _ => Cursor.Notes.refl cursor

theorem forward_peekIs (kind : Kind) : Forward (peekIs kind) := by
  intro cursor ended
  rw [peekIs_eq ended]
  exact Cursor.Notes.refl cursor

theorem forward_advance : Forward advance := by
  intro cursor ended
  rw [advance_eq ended]
  exact cursor.onward_step.notes (by simp)

theorem forward_expect (kind : Kind) : Forward (expect kind) := by
  intro cursor ended
  rw [expect_eq ended]
  split
  · exact cursor.onward_step.notes (by simp)
  · exact ⟨Cursor.Notes.refl cursor, List.mem_map_of_mem (List.mem_cons_self ..)⟩

theorem forward_skipUntilNext (stops : Kind → Bool) :
    Forward (Run.modify fun cursor =>
      cursor.moveTo (skipUntilNext stops cursor.current cursor.ahead)) :=
  fun _ _ => ⟨skipUntilNext_suffix _ _ _, [], by simp [Cursor.moveTo], by simp⟩

theorem forward_endStatement : Forward endStatement :=
  (forward_skipUntilNext _).bind fun _ =>
    (forward_peekIs .semicolon).bind fun _ => forward_advance.ite (forward_pure ())

theorem Local.afterAdvance {run : Reader α} (here : Local run) :
    Forward (advance >>= fun _ => run) := by
  intro cursor ended
  rw [Run.bind_apply, advance_eq ended]
  exact (here cursor.step (cursor.onward_step.ended ended)).after
    (cursor.onward_step.notes (by simp))

theorem Forward.afterCurrent {next : Token → Reader α} (forward : ∀ token, Forward (next token)) :
    Forward (current >>= next) :=
  fun cursor ended => forward cursor.current cursor ended

theorem local_parameter : Local parameter := by
  intro cursor ended
  simp only [parameter, Run.bind_apply, current]
  split
  · exact Cursor.Notes.refl cursor
  · exact ⟨Cursor.Notes.refl cursor, List.mem_map_of_mem (List.mem_cons_self ..)⟩

/-! ## Loops -/

theorem forward_itemRound {item : Reader α} (here : Local item) : Forward (itemRound item) := by
  refine (forward_peekIs _).bind fun _ => Forward.ite ?_ (forward_pure _)
  exact forward_advance.bind fun _ =>
    (here.bind fun _ => (forward_pure _).here).afterAdvance

theorem forward_itemsRest {item : Reader α} (here : Local item) (rounds : Nat) :
    Forward (itemsRest item rounds) := by
  induction rounds with
  | zero => exact fun _ _ => trivial
  | succ rounds ih =>
      rw [itemsRest_succ]
      refine (forward_itemRound here).bind fun found => ?_
      cases found with
      | none => exact forward_pure _
      | some next => exact ih.bind fun _ => forward_pure _

theorem forward_items {item : Reader α} (here : Local item) (close : Kind) (rounds : Nat) :
    Forward (items close item rounds) := by
  refine (forward_peekIs _).bind fun _ => Forward.ite ?_ ?_
  · exact forward_advance.bind fun _ => forward_pure _
  · exact (here.bind fun _ => ((forward_itemsRest here rounds).bind fun _ =>
      (forward_expect _).bind fun _ => forward_pure _).here).afterAdvance

theorem local_blockRound {stmt : Reader Stmt} (here : Local stmt) : Local (blockRound stmt) := by
  intro cursor ended
  by_cases closing : cursor.current.kind = .rightBrace
  · rw [blockRound_closing stmt closing]
    exact Cursor.Notes.refl cursor
  by_cases atEnd : cursor.current.kind = .endOfInput
  · rw [blockRound_atEnd stmt atEnd]
    exact ⟨Cursor.Notes.refl cursor, List.mem_map_of_mem (List.mem_cons_self ..)⟩
  cases outcome : stmt cursor with
  | ok first later =>
      have notes := here.ok ended outcome
      rw [blockRound_ok (notes.onward.ended ended) closing atEnd outcome]
      exact notes.trans (later.onward_step.notes (by simp))
  | raised diagnostic later =>
      obtain ⟨notes, points⟩ := here.raised ended outcome
      rw [blockRound_raised closing atEnd outcome]
      have noted := notes.trans (Cursor.notes_noted points later)
      exact noted.trans ((Cursor.onward_leftBlockStatement _).notes rfl)
  | halted why =>
      rw [blockRound_halted closing atEnd outcome]
      trivial

theorem local_blockRest {stmt : Reader Stmt} (here : Local stmt) (rounds : Nat) :
    Local (blockRest stmt rounds) := by
  induction rounds with
  | zero => exact fun _ _ => trivial
  | succ rounds ih =>
      rw [blockRest_succ]
      refine (local_blockRound here).bind fun found => ?_
      cases found with
      | none => exact (forward_pure _).here
      | some first => exact ih.bind fun _ => (forward_pure _).here

theorem local_programRound {stmt : Reader Stmt} (here : Local stmt) :
    Local (programRound stmt) := by
  intro cursor ended
  by_cases atEnd : cursor.current.kind = .endOfInput
  · rw [programRound_atEnd stmt atEnd]
    exact Cursor.Notes.refl cursor
  cases outcome : stmt cursor with
  | ok first later =>
      have notes := here.ok ended outcome
      rw [programRound_ok (notes.onward.ended ended) atEnd outcome]
      exact notes.trans (later.onward_step.notes (by simp))
  | raised diagnostic later =>
      obtain ⟨notes, points⟩ := here.raised ended outcome
      rw [programRound_raised (notes.onward.ended ended) atEnd outcome]
      have noted := notes.trans (Cursor.notes_noted points later)
      refine (noted.trans ((Cursor.onward_leftStatement _).notes rfl)).trans ?_
      exact (Cursor.onward_step _).notes (by simp)
  | halted why =>
      rw [programRound_halted atEnd outcome]
      trivial

theorem local_programRest {stmt : Reader Stmt} (here : Local stmt) (rounds : Nat) :
    Local (programRest stmt rounds) := by
  induction rounds with
  | zero => exact fun _ _ => trivial
  | succ rounds ih =>
      rw [programRest_succ]
      refine (local_programRound here).bind fun found => ?_
      cases found with
      | none => exact (forward_pure _).here
      | some first => exact ih.bind fun _ => (forward_pure _).here

/-! ## Phrases -/

section Parts

variable (here : ∀ minimum, Local (expr minimum))

include here

theorem forward_define : Forward (define expr) :=
  (forward_expect _).bind fun _ => Forward.afterCurrent fun _ => (forward_expect _).bind fun _ =>
    Local.afterAdvance <| (here _).bind fun _ =>
      (forward_endStatement.bind fun _ => forward_pure _).here

theorem forward_returning : Forward (returning expr) :=
  Local.afterAdvance <| (here _).bind fun _ =>
    (forward_endStatement.bind fun _ => forward_pure _).here

theorem local_exprStatement : Local (exprStatement expr) := by
  refine (here _).bind fun _ => Forward.here ?_
  exact (forward_peekIs _).bind fun _ =>
    (forward_advance.bind fun _ => forward_pure _).ite (forward_pure _)

theorem local_statement : Local (statement expr) := by
  intro cursor ended
  rw [statement_apply]
  split
  · exact (forward_define here).here cursor ended
  · split
    · exact (forward_returning here).here cursor ended
    · exact local_exprStatement here cursor ended

theorem forward_block (rounds : Nat) : Forward (block expr rounds) :=
  (local_blockRest (local_statement here) rounds).afterAdvance

theorem local_pair : Local (pair expr) :=
  (here _).bind fun _ => Forward.here <| (forward_expect _).bind fun _ =>
    Local.afterAdvance <| (here _).bind fun _ => (forward_pure _).here

theorem forward_conditional (rounds : Nat) (token : Token) :
    Forward (leadingForm expr rounds token .conditional) := by
  refine Local.afterAdvance <| (here _).bind fun _ => Forward.here ?_
  refine (forward_expect _).bind fun _ => (forward_block here rounds).bind fun _ =>
    (forward_peekIs _).bind fun _ => Forward.ite ?_ (forward_pure _)
  exact forward_advance.bind fun _ => (forward_expect _).bind fun _ =>
    (forward_block here rounds).bind fun _ => forward_pure _

theorem forward_function (rounds : Nat) (token : Token) :
    Forward (leadingForm expr rounds token .function) :=
  (forward_expect _).bind fun _ => (forward_items local_parameter _ rounds).bind fun _ =>
    (forward_expect _).bind fun _ => (forward_block here rounds).bind fun _ => forward_pure _

/-- A form complains about its own first token only if that is a number which is too large. -/
theorem forward_leadingForm (rounds : Nat) (token : Token) {form : Leading}
    (other : form ≠ .integer) : Forward (leadingForm expr rounds token form) := by
  cases form with
  | name => exact forward_pure _
  | integer => contradiction
  | string => exact forward_pure _
  | boolean value => exact forward_pure _
  | unary op => exact ((here _).bind fun _ => (forward_pure _).here).afterAdvance
  | group =>
      exact ((here _).bind fun _ =>
        ((forward_expect _).bind fun _ => forward_pure _).here).afterAdvance
  | array => exact (forward_items (here _) _ rounds).bind fun _ => forward_pure _
  | hash => exact (forward_items (local_pair here) _ rounds).bind fun _ => forward_pure _
  | conditional => exact forward_conditional here rounds token
  | function => exact forward_function here rounds token

omit here in
theorem cites_integer (rounds : Nat) :
    (leadingForm expr rounds cursor.current .integer cursor).Cites cursor.tokens cursor := by
  rw [integer_apply]
  split
  · exact Cursor.Notes.refl cursor
  · exact ⟨Cursor.Notes.refl cursor, List.mem_map_of_mem (List.mem_cons_self ..)⟩

theorem local_operand (rounds : Nat) : Local (operand .standard expr rounds) := by
  intro cursor ended
  rw [operand_apply]
  cases cursor.current.kind.leading? with
  | none =>
      refine ⟨Cursor.Notes.refl cursor, ?_⟩
      rw [Diagnostic.PointsInto, Diagnostic.notLeading_position]
      exact List.mem_map_of_mem (List.mem_cons_self ..)
  | some form =>
      by_cases integer : form = .integer
      · rw [integer]
        exact cites_integer rounds
      · exact (forward_leadingForm here rounds cursor.current integer).here cursor ended

theorem forward_trailingForm (rounds : Nat) (left : Expr) (token : Token) (form : Trailing) :
    Forward (trailingForm expr rounds left token form) := by
  cases form with
  | binary op => exact ((here _).bind fun _ => (forward_pure _).here).afterAdvance
  | call => exact (forward_items (here _) _ rounds).bind fun _ => forward_pure _
  | index =>
      exact ((here _).bind fun _ =>
        ((forward_expect _).bind fun _ => forward_pure _).here).afterAdvance

theorem forward_operatorRound (inner : Nat) (minimum : Precedence) (left : Expr) :
    Forward (operatorRound .standard expr inner minimum left) := by
  intro cursor ended
  rw [operatorRound_apply ended]
  cases cursor.step.current.kind.continuation? minimum left with
  | none => exact Cursor.Notes.refl cursor
  | some form =>
      have forward := (forward_trailingForm here inner left cursor.step.current form).bind
        fun extended => forward_pure (some extended)
      exact (forward.here cursor.step (cursor.onward_step.ended ended)).after
        (cursor.onward_step.notes (by simp))

theorem forward_operators (inner : Nat) (minimum : Precedence) (rounds : Nat) (left : Expr) :
    Forward (operators .standard expr inner minimum rounds left) := by
  induction rounds generalizing left with
  | zero => exact fun _ _ => trivial
  | succ rounds ih =>
      rw [operators_succ]
      refine (forward_operatorRound here inner minimum left).bind fun found => ?_
      cases found with
      | none => exact forward_pure _
      | some extended => exact ih extended

end Parts

theorem local_expression (depth : Nat) (minimum : Precedence) :
    Local (expression .standard depth minimum) := by
  induction depth generalizing minimum with
  | zero => exact fun _ _ => trivial
  | succ depth ih =>
      exact (local_operand ih _).bind fun first => (forward_operators ih _ minimum _ first).here

theorem local_program (bound : Nat) : Local (program .standard bound) :=
  (local_programRest (local_statement (local_expression bound)) bound).bind
    fun _ => (forward_pure _).here

end Reader

end Scriptlet
