import Scriptlet.Execution
import Scriptlet.Proofs.Eval.Consecutive
import Scriptlet.Proofs.Reader.Joining

/-!
# Lines of a console and the text of a file

Lines that are entered one after the other in a session do what their text does as a whole. The text
is read as the statements of all lines, and running them as one block keeps in step with running
line by line. What differs are names only: sites, numbers of objects and logs.

A line without statements is the exception. Its own answer is `null`, while a text that ends with
such a line comes to the value of the statement before it.
-/
set_option autoImplicit false

namespace Scriptlet

/-! ## Executions by their statements -/

def Program.begun (code : Program) (store : Store) : Store :=
  store.issue.2.note (.program code.statements.length)

namespace Execution

variable {source : String} {code : Program}

def ending : Outcome Store Unwind Value → Outcome Store Failure Value
  | .ok value later => .ok value later
  | .raised (.returned value) later => .ok value later
  | .raised (.failed error) later =>
    .ok (.error later.issued error) (later.note (.stopped error)).issue.2
  | .halted why => .halted why

def delivered (value : Value) (store : Store) : Outcome Store Failure String :=
  match value with
  | .error _ error => .raised (.evaluation error) store
  | value => .ok value.inspect store

theorem program_of_parse (parsed : parse source = .ok code) (store : Store) :
    program source store = .ok code store := by
  have clean : (read source).diagnostics = [] := by
    rw [parse, Reading.result] at parsed
    split at parsed
    · rename_i complete
      simpa using (Bool.and_eq_true_iff.mp complete).2
    · cases parsed
  rw [parse] at parsed
  simp only [program, clean, parsed, List.foldl_nil, Run.bind_apply, Run.modify, Run.pure_apply]

theorem evaluate_eq_ending (depth : Nat) (session : Session) (parsed : parse source = .ok code)
    (store : Store) :
    evaluate depth session source store =
      ending (Eval.block (Eval.apply depth) session.root [store.issued] 0 .null code.statements
        (code.begun store)) := by
  rw [evaluate, Run.bind_apply, program_of_parse parsed]
  simp only [ofEvaluation, Evaluation.fresh, Evaluation.node, Evaluation.program_eq_block,
    Evaluation.settle, Run.bind_apply, Run.step, Run.modify]
  change _ = ending (Eval.block (Eval.apply depth) session.root [store.issue.1] 0 .null
    code.statements (store.issue.2.note (.program code.statements.length)))
  generalize Eval.block _ _ _ _ _ _ _ = outcome
  cases outcome with
  | ok value later => rfl
  | raised unwind later => cases unwind <;> rfl
  | halted why => rfl

/-- The store in which a text on its own is evaluated, in a session that has just started. -/
def opened (text : String) : Store :=
  (Session.start (Store.empty.note (.executing .eval text.utf8ByteSize))).2

theorem source_eq (depth : Nat) (text : String) :
    Execution.source depth .eval text .empty =
      match evaluate depth (Session.start .empty).1 text (opened text) with
      | .ok value built => delivered value ((Session.start .empty).1.close built)
      | .raised failure built => .raised failure built
      | .halted why => .halted why := by
  have session : (Session.start (Store.empty.note (.executing .eval text.utf8ByteSize))).1 =
      (Session.start .empty).1 := rfl
  simp only [Execution.source, Run.bind_apply, Run.modify, Run.step, session, opened]
  cases evaluate depth (Session.start .empty).1 text
    (Session.start (Store.empty.note (.executing .eval text.utf8ByteSize))).2 with
  | ok value built => cases value <;> rfl
  | raised failure built => rfl
  | halted why => rfl

end Execution

/-! ## Lines one after the other -/

/-- Neither an error nor a `return` stops the statements of the program. -/
def Program.RunsThrough (code : Program) (depth : Nat) (scope : ScopeId) (store : Store) : Prop :=
  ∃ value later, Eval.block (Eval.apply depth) scope [store.issued] 0 .null code.statements
    (code.begun store) = .ok value later

/-- The lines have been evaluated one after the other, each to its last statement. The last of them
has come to the given answer, or it is `null` if there is none. -/
inductive Session.Entered (session : Session) (depth : Nat) (start : Store) :
    List String → Value → Store → Prop
  | none : Entered session depth start [] .null start
  | line {lines : List String} {line : String} {code : Program} {answer value : Value}
      {store later : Store} (entered : Entered session depth start lines answer store)
      (parsed : parse line = .ok code)
      (ran : Execution.evaluate depth session line store = .ok value later)
      (through : code.RunsThrough depth session.root store) :
      Entered session depth start (lines ++ [line]) value later

/-- While lines are entered, the block of their statements keeps in step. -/
theorem Session.Entered.inStep {session : Session} {depth : Nat} {start store : Store}
    {lines : List String} {answer : Value}
    (entered : session.Entered depth start lines answer store)
    (closed : ∀ line ∈ lines, endsWithSemicolon line = true) :
    ∃ programs, List.Forall₂ (fun line program => endsWithSemicolon line = true ∧
        parse line = .ok program) lines programs ∧
      ∀ {matching : Matching} {unit : Nat} {begun : Store},
        matching.InStep session.root unit 0 begun .null start .null →
        ∃ (wider : Matching) (value : Value) (later : Store),
          Eval.block (Eval.apply depth) session.root [unit] 0 .null
            (programs.flatMap Program.statements) begun = .ok value later ∧
          wider.InStep session.root unit (programs.flatMap Program.statements).length later value
            store answer := by
  induction entered with
  | none => exact ⟨[], .nil, fun first => ⟨_, .null, _, rfl, first⟩⟩
  | @line lines line code answer _ store _ _ parsed ran through ih =>
      rw [List.forall_mem_append, List.forall_mem_singleton] at closed
      obtain ⟨programs, pieces, steps⟩ := ih closed.1
      have whole := List.rel_append pieces (.cons ⟨closed.2, parsed⟩ .nil)
      refine ⟨programs ++ [code], whole, fun {matching unit begun} first => ?_⟩
      obtain ⟨wider, value, middle, ranBefore, inStep⟩ := steps first
      obtain ⟨_, _, through⟩ := through
      rw [Execution.evaluate_eq_ending depth session parsed, through] at ran
      cases ran
      -- a line that ends with a semicolon has a statement, so that only its own values count
      have nonempty := statements_ne_nil_of_endsWithSemicolon closed.2 parsed
      have alike := inStep.block depth code.statements (.program code.statements.length)
      rw [Eval.block_last _ _ _ _ nonempty answer .null, ← Program.begun, through] at alike
      obtain ⟨given, later, ranLine, stores, values⟩ := alike.exists_ok
      rw [List.flatMap_append, List.flatMap_singleton, Eval.block_append, Run.bind_apply,
        ranBefore, List.length_append]
      refine ⟨_, given, later, ?_, inStep.next ranLine stores values⟩
      rwa [Nat.zero_add]

theorem Matching.Alike.ending {matching : Matching} {outcome twin : Outcome Store Unwind Value}
    (alike : matching.Alike (Value.Matches matching) outcome twin) :
    (∃ why, Execution.ending outcome = .halted why ∧ Execution.ending twin = .halted why) ∨
      ∃ value built answer final, Execution.ending outcome = .ok value built ∧
        Execution.ending twin = .ok answer final ∧ built.Matches matching final ∧
        value.Matches matching answer := by
  cases alike with
  | ok stores values | returned stores values => exact .inr ⟨_, _, _, _, rfl, rfl, stores, values⟩
  | failed stores error =>
      have number : matching.object _ = _ := stores.issued 0
      refine .inr ⟨_, _, _, _, rfl, rfl, (stores.note _ _).issue, ?_⟩
      exact congrArg (Value.error · error) number.symm
  | halted why => exact .inl ⟨why, rfl, rfl⟩

theorem Execution.delivered_eq_of_matches {matching : Matching} {value twin : Value}
    (matched : value.Matches matching twin) (store : Store) :
    delivered value store = delivered twin store := by
  have shown := matched.inspect_eq
  cases value with
  | array _ _ | hash _ _ | function _ _ | returned _ _ =>
      obtain ⟨_, rfl, _⟩ := matched
      exact congrArg (Outcome.ok · store) shown.symm
  | _ => cases matched; rfl

theorem inStep_opened (text : String) (code : Program) :
    Matching.initial.InStep (Session.start .empty).1.root 0 0
      (code.begun (Execution.opened text)) .null (Session.start .empty).2 .null := by
  have valid : (Execution.opened text).Valid := (Store.Reached.started (.noted (.empty _) _)).valid
  refine ⟨⟨rfl, fun id => ?_, fun later => rfl, rfl⟩, rfl, valid.issue, trivial, Nat.zero_lt_one,
    fun _ _ => False.elim⟩
  cases id with
  | zero => exact .some ⟨.nil, rfl, rfl⟩
  | succ id => exact .none

/-- Lines of which all but the last end with a semicolon, entered one after the other, do what their
text does. The text comes to a value exactly if the last line does. By then it has printed the same
and has bound the same names in the same scopes, up to sites and numbers of objects. It delivers
what the last line has come to, or the line before it if the last one has no statement. -/
theorem text_agrees_with_lines (depth : Nat) (lines : List String) (last : String) (code : Program)
    (before : Value) (store : Store) (closed : ∀ line ∈ lines, endsWithSemicolon line = true)
    (entered : (Session.start .empty).1.Entered depth (Session.start .empty).2 lines before store)
    (parsed : parse last = .ok code) :
    match Execution.evaluate depth (Session.start .empty).1 last store with
    | .halted why => Execution.source depth .eval (String.join lines ++ last) .empty = .halted why
    | .raised _ _ => False
    | .ok answer final =>
      ∃ (matching : Matching) (value : Value) (built : Store),
        Execution.evaluate depth (Session.start .empty).1 (String.join lines ++ last)
          (Execution.opened (String.join lines ++ last)) = .ok value built ∧
        built.Matches matching final ∧
        value.Matches matching (if code.statements.isEmpty then before else answer) ∧
        Execution.source depth .eval (String.join lines ++ last) .empty =
          Execution.delivered (if code.statements.isEmpty then before else answer)
            ((Session.start .empty).1.close built) := by
  obtain ⟨programs, pieces, steps⟩ := entered.inStep closed
  have number : (Execution.opened (String.join lines ++ last)).issued = 0 := rfl
  obtain ⟨wider, value, later, ranBefore, inStep⟩ := steps (inStep_opened
    (String.join lines ++ last) ⟨programs.flatMap Program.statements ++ code.statements⟩)
  have alike := inStep.block depth code.statements (.program code.statements.length)
  rw [Execution.source_eq, Execution.evaluate_eq_ending depth _ (parse_join pieces parsed),
    Eval.block_append, Run.bind_apply, Nat.zero_add, number, ranBefore,
    Execution.evaluate_eq_ending depth _ parsed]
  rw [← Program.begun] at alike
  by_cases empty : code.statements = []
  · rw [empty] at alike ⊢
    obtain ⟨_, _, ran, stores, values⟩ := alike.exists_ok
    cases ran
    exact ⟨_, _, _, rfl, stores, values, Execution.delivered_eq_of_matches values _⟩
  · rw [Eval.block_last _ _ _ _ empty before .null] at alike
    rcases alike.ending with ⟨why, ended, endedTwin⟩ |
      ⟨value, built, answer, final, ended, endedTwin, stores, values⟩
    · simp only [ended, endedTwin]
    · simp only [ended, endedTwin, List.isEmpty_iff, empty, if_false]
      exact ⟨_, _, _, rfl, stores, values, Execution.delivered_eq_of_matches values _⟩

/-- The line `let a = 5;` and then `a`. -/
theorem text_agrees_with_lines_name :
    ∃ built, Execution.source 0 .eval (String.join ["let a = 5;"] ++ "a") .empty =
      .ok "5" built := by
  have listed : tokens "let a = 5;" = [⟨.letWord, "let", 0, 3⟩, ⟨.name, "a", 4, 5⟩,
      ⟨.assign, "=", 6, 7⟩, ⟨.integer, "5", 8, 9⟩, ⟨.semicolon, ";", 9, 10⟩,
      ⟨.endOfInput, "", 10, 10⟩] := by decide
  have listedLast : tokens "a" = [⟨.name, "a", 0, 1⟩, ⟨.endOfInput, "", 1, 1⟩] := by decide
  have parsed : parse "let a = 5;" = .ok ⟨[.define "a" (.integer 5)]⟩ := by
    rw [parse, read, readWith, listed]
    cbv
  have parsedLast : parse "a" = .ok ⟨[.expr (.name "a")]⟩ := by
    rw [parse, read, readWith, listedLast]
    cbv
  have closed : ∀ line ∈ ["let a = 5;"], endsWithSemicolon line = true := by
    simp only [List.forall_mem_singleton, endsWithSemicolon, listed]
    rfl
  have agrees := text_agrees_with_lines 0 _ "a" _ _ _ closed
    (.line .none parsed (Execution.evaluate_eq_ending 0 _ parsed _) ⟨_, _, rfl⟩) parsedLast
  rw [Execution.evaluate_eq_ending 0 _ parsedLast] at agrees
  obtain ⟨_, _, built, _, _, _, sourced⟩ := agrees
  have shown : (Value.integer 5).inspect = "5" := by decide
  exact ⟨_, sourced.trans (congrArg (Outcome.ok · _) shown)⟩

/-- The lines `5;` and then nothing: the answer to the second one is `null`, but the text gives
`5`. -/
theorem blank_line_disagrees :
    ∃ store final built,
      (Session.start .empty).1.Entered 0 (Session.start .empty).2 ["5;"] (.integer 5) store ∧
      endsWithSemicolon "5;" = true ∧ parse "" = .ok ⟨[]⟩ ∧
      Execution.evaluate 0 (Session.start .empty).1 "" store = .ok .null final ∧
      Execution.source 0 .eval (String.join ["5;"] ++ "") .empty = .ok "5" built ∧
      Value.null.inspect ≠ "5" := by
  have listed : tokens "5;" =
      [⟨.integer, "5", 0, 1⟩, ⟨.semicolon, ";", 1, 2⟩, ⟨.endOfInput, "", 2, 2⟩] := by decide
  have listedLast : tokens "" = [⟨.endOfInput, "", 0, 0⟩] := by decide
  have parsed : parse "5;" = .ok ⟨[.expr (.integer 5)]⟩ := by
    rw [parse, read, readWith, listed]
    cbv
  have parsedLast : parse "" = .ok ⟨[]⟩ := by
    rw [parse, read, readWith, listedLast]
    cbv
  have closed : endsWithSemicolon "5;" = true := by
    simp only [endsWithSemicolon, listed]
    rfl
  have text : String.join ["5;"] ++ "" = "5;" := by decide
  have sourced := Execution.source_eq 0 "5;"
  rw [Execution.evaluate_eq_ending 0 _ parsed] at sourced
  rw [text]
  have shown : (Value.integer 5).inspect = "5" := by decide
  exact ⟨_, _, _, .line .none parsed (Execution.evaluate_eq_ending 0 _ parsed _) ⟨_, _, rfl⟩,
    closed, parsedLast, Execution.evaluate_eq_ending 0 _ parsedLast _,
    sourced.trans (congrArg (Outcome.ok · _) shown), by decide⟩

end Scriptlet
