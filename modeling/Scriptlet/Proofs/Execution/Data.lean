import Scriptlet.Proofs.Execution.Lines
import Scriptlet.Proofs.Printer.Inspected
import Scriptlet.Proofs.Reader.Termination

/-!
# Printed data can be run

What a ground value is shown as is a source text, and executing it gives the value again, shown in
the same way. The least integer is the exception: a text with it is rejected, as its digits are read
before its sign is applied.
-/
set_option autoImplicit false

namespace Scriptlet

variable {text : String} {code : Expr} {value again : Value}

theorem ReadsItem.parse_eq (reads : ReadsItem .element text code) :
    parse text = .ok ⟨[.expr code]⟩ := by
  have spells : Spells (tokens text) (text.toList ++ []) := by
    simpa using spells_tokens text
  obtain ⟨tail, spellsTail, derives⟩ := reads.expr spells follows_nil ⟨rfl, nofun⟩
  obtain ⟨ending, rfl, atEnd⟩ := spellsTail.nil
  exact parse_of_derived (Program.derived_of_expr derives atEnd)

/-- The text of a value that contains the least integer is not accepted. -/
theorem parse_inspect_of_hasLeast (ground : value.IsGround) (least : value.HasLeast) :
    ∃ diagnostics, parse value.inspect = .error diagnostics := by
  cases parsed : parse value.inspect with
  | error diagnostics => exact ⟨diagnostics, rfl⟩
  | ok program =>
      have spells : Spells (tokens value.inspect) (value.inspect.toList ++ []) := by
        simpa using spells_tokens value.inspect
      obtain ⟨front, tail, here, spellsTail, calm, big⟩ :=
        ground.tokenizes _ [] spells (by simp [Apart])
      obtain ⟨ending, rfl, atEnd⟩ := spellsTail.nil
      have derived := derived_of_parse parsed
      rw [here] at derived
      refine absurd derived (Program.not_derived_of_big ?_ ?_ program)
      · have calmEnd : ending.IsCalm := Token.isCalm_of_kind atEnd (by decide)
        exact List.forall_mem_append.mpr ⟨calm, List.forall_mem_singleton.mpr calmEnd⟩
      · obtain ⟨number, isIn, isBig⟩ := big least
        exact ⟨number, List.mem_append_left _ isIn, isBig⟩

theorem diagnostics_ne_nil {source : String} {diagnostics : List Diagnostic}
    (rejected : parse source = .error diagnostics) : diagnostics ≠ [] := by
  obtain ⟨program, feed, recorded, run, _⟩ := program_reached .standard source le_rfl
  rw [parse, read, readWith, readTokens, run, Reading.result] at rejected
  split at rejected
  · cases rejected
  · rename_i dirty
    cases rejected
    simpa [Reading.ofOutcome] using dirty

namespace Execution

theorem program_of_rejected {source : String} {diagnostics : List Diagnostic}
    (rejected : parse source = .error diagnostics) (store : Store) :
    ∃ later, program source store = .raised (.rejected diagnostics) later := by
  rw [parse] at rejected
  simp only [program, rejected]
  exact ⟨_, rfl⟩

def announced (text : String) (store : Store) : Store :=
  store.note (.executing .eval text.utf8ByteSize)

theorem source_of_evaluate {depth : Nat} {store later : Store}
    (ran : evaluate depth (Session.start (announced text store)).1 text
      (Session.start (announced text store)).2 = .ok value later) :
    source depth .eval text store =
      delivered value ((Session.start (announced text store)).1.close later) := by
  have session : store.note (.executing .eval text.utf8ByteSize) = announced text store := rfl
  simp only [source, Run.bind_apply, Run.modify, Run.step, session, ran]
  cases value <;> rfl

theorem source_of_rejected {diagnostics : List Diagnostic}
    (rejected : parse text = .error diagnostics) (depth : Nat) (store : Store) :
    ∃ later, source depth .eval text store = .raised (.rejected diagnostics) later := by
  obtain ⟨later, stopped⟩ := program_of_rejected rejected
    (Session.start (announced text store)).2
  refine ⟨later, ?_⟩
  have session : store.note (.executing .eval text.utf8ByteSize) = announced text store := rfl
  simp only [source, evaluate, Run.bind_apply, Run.modify, Run.step, session, stopped]

theorem evaluate_literal (reads : ReadsItem .element text code) (recreates : code.Recreates value)
    (depth : Nat) (session : Session) (store : Store) :
    ∃ again later, evaluate depth session text store = .ok again later ∧
      again.alike value = true := by
  obtain ⟨again, later, ran, alike⟩ := recreates (Eval.apply depth) session.root
    [0, store.issued] (Program.begun ⟨[.expr code]⟩ store)
  refine ⟨again, later, ?_, alike⟩
  rw [evaluate_eq_ending depth session reads.parse_eq]
  simp only [Eval.block, Eval.stmt, Run.bind_apply, ran, Run.pure_apply]
  rfl

theorem delivered_of_alike (ground : value.IsGround) (alike : again.alike value = true)
    (store : Store) : delivered again store = .ok value.inspect store := by
  rw [← ground.shownAlike again alike]
  cases again with
  | error id cause => cases ground <;> cases alike
  | _ => rfl

theorem source_literal (ground : value.IsGround) (reads : ReadsItem .element text code)
    (recreates : code.Recreates value) (depth : Nat) (store : Store) :
    ∃ final, source depth .eval text store = .ok value.inspect final := by
  obtain ⟨again, later, ran, alike⟩ := evaluate_literal reads recreates depth
    (Session.start (announced text store)).1 (Session.start (announced text store)).2
  exact ⟨_, (source_of_evaluate ran).trans (delivered_of_alike ground alike _)⟩

end Execution

/-- Data without the least integer, and no other, can be printed and run: the text is accepted, it
is evaluated to the same data, and it shows itself. With the least integer in it, the text is not
accepted. -/
theorem printed_data_runs (ground : value.IsGround) (depth : Nat) (store : Store) :
    ((∃ program again later final, parse value.inspect = .ok program ∧
        Execution.evaluate depth (Session.start store).1 value.inspect (Session.start store).2 =
          .ok again later ∧ again.alike value = true ∧
        Execution.source depth .eval value.inspect store = .ok value.inspect final) ↔
      ¬value.HasLeast) ∧
    (value.HasLeast → ∃ diagnostics final, parse value.inspect = .error diagnostics ∧
      diagnostics ≠ [] ∧
      Execution.source depth .eval value.inspect store =
        .raised (.rejected diagnostics) final) := by
  refine ⟨⟨?_, fun noLeast => ?_⟩, fun least => ?_⟩
  · rintro ⟨program, _, _, _, parsed, _⟩ least
    obtain ⟨diagnostics, rejected⟩ := parse_inspect_of_hasLeast ground least
    cases parsed.symm.trans rejected
  · obtain ⟨code, reads, recreates⟩ := ground.isLiteral noLeast
    obtain ⟨again, later, ran, alike⟩ :=
      Execution.evaluate_literal reads recreates depth _ (Session.start store).2
    obtain ⟨final, delivered⟩ := Execution.source_literal ground reads recreates depth store
    exact ⟨_, again, later, final, reads.parse_eq, ran, alike, delivered⟩
  · obtain ⟨diagnostics, rejected⟩ := parse_inspect_of_hasLeast ground least
    obtain ⟨final, ran⟩ := Execution.source_of_rejected rejected depth store
    exact ⟨diagnostics, final, rejected, diagnostics_ne_nil rejected, ran⟩

/-- A hash with a negative key comes back, the least integer in an array does not. -/
theorem printed_data_runs_negative :
    let inserts := [⟨.integer (-1), .integer (-1), .array 0 [.boolean true, .integer 2]⟩]
    (Value.hash 1 (Table.ofInserts inserts)).inspect = "\x7b-1: [true, 2]\x7d" ∧
      (∃ final, Execution.source 0 .eval "\x7b-1: [true, 2]\x7d" .empty =
        .ok "\x7b-1: [true, 2]\x7d" final) ∧
      ∃ diagnostics final, Execution.source 0 .eval "[-9223372036854775808]" .empty =
        .raised (.rejected diagnostics) final := by
  intro inserts
  have ground : (Value.hash 1 (Table.ofInserts inserts)).IsGround := by
    refine .hash 1 ?_ ?_ ?_ <;> rw [List.forall_mem_singleton]
    · rfl
    · exact .inl rfl
    · exact .array 0 (List.forall_mem_cons.mpr ⟨.boolean true, by simpa using .integer 2⟩)
  have shown : (Value.hash 1 (Table.ofInserts inserts)).inspect = "\x7b-1: [true, 2]\x7d" := by
    decide
  have noLeast : ¬(Value.hash 1 (Table.ofInserts inserts)).HasLeast := by
    have above : (-1 : Int64) ≠ Int64.minValue ∧ (2 : Int64) ≠ Int64.minValue := by decide
    change ¬(Value.hash 1 ⟨inserts⟩).HasLeast
    simp [inserts, Value.hasLeast_hash, Value.hasLeast_array, Value.hasLeast_integer,
      Value.not_hasLeast_boolean, above]
  have bounded : (Value.array 0 [.integer Int64.minValue]).IsGround :=
    .array 0 (by simpa using .integer _)
  have shownLeast : (Value.array 0 [.integer Int64.minValue]).inspect =
      "[-9223372036854775808]" := by
    decide
  have least : (Value.array 0 [.integer Int64.minValue]).HasLeast := by
    simp [Value.HasLeast, Value.parts, Value.partsAll]
  obtain ⟨_, _, _, final, _, _, _, ran⟩ := (printed_data_runs ground 0 .empty).1.mpr noLeast
  obtain ⟨diagnostics, rejecting, _, _, stopped⟩ := (printed_data_runs bounded 0 .empty).2 least
  rw [shown] at ran
  rw [shownLeast] at stopped
  exact ⟨shown, ⟨final, ran⟩, diagnostics, rejecting, stopped⟩

end Scriptlet
