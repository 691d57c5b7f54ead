import Scriptlet.Proofs.Reader.Abreast

/-!
# Readers in lockstep

Every reader, run side by side on two lists of tokens that begin alike, does the same on both as
long as it looks at the part they share. `First` says so of a reader that begins on the first token
of what it reads, `Rest` of one that goes on behind the current token and therefore has to see the
next one. `first_program` is the conclusion for the whole program.
-/
set_option autoImplicit false

namespace Scriptlet

open Token (Kind)

namespace Course

open Reader

variable {α β : Type} {course : Course} {licence other : Prop} {here there later : Cursor}
  {run runOther : Reader α}

/-- The reader, begun on a token that is shared, mirrors what the other one does. -/
structure First (course : Course) (licence : Prop) (run runOther : Reader α) : Prop where
  here : Local run
  there : Local runOther
  mirrors : ∀ here there, course.Abreast here there →
    course.Mirrors licence here there (run here) (runOther there)

/-- The same for a reader that begins behind a token from which the next one is in reach. -/
structure Rest (course : Course) (licence : Prop) (run runOther : Reader α) : Prop where
  here : Forward run
  there : Forward runOther
  mirrors : ∀ here there, course.Abreast here there → course.Reaches licence here →
    course.Mirrors licence here there (run here) (runOther there)

/-! ## Rules -/

theorem Abreast.cites_beyond (abreast : course.Abreast here there)
    (suffix : later.tokens <:+ here.tokens) (ended : Ended later.tokens)
    (forward : Forward run) (unseen : ¬course.Reaches licence later) :
    (run later).Cites course.rest later := by
  refine (forward later ended).mono (abreast.step_beyond suffix fun seen => ?_).subset
  exact unseen (seen.mono False.elim)

theorem First.mono (first : course.First licence run runOther) (imp : other → licence) :
    course.First other run runOther :=
  ⟨first.here, first.there, fun here there abreast => (first.mirrors here there abreast).mono imp⟩

theorem Rest.mono (rest : course.Rest licence run runOther) (imp : other → licence) :
    course.Rest other run runOther :=
  ⟨rest.here, rest.there, fun here there abreast reaches =>
    (rest.mirrors here there abreast (reaches.mono imp)).mono imp⟩

theorem Rest.first (rest : course.Rest licence run runOther) :
    course.First licence run runOther := by
  refine ⟨rest.here.here, rest.there.here, fun here there abreast => ?_⟩
  by_cases reaches : course.Reaches licence here
  · exact rest.mirrors here there abreast reaches
  · have cites := abreast.cites_beyond (List.suffix_refl _) abreast.ended rest.here reaches
    refine mirrors_beyond rfl cites fun value final ran within => ?_
    exact reaches (within.earlier (rest.here.here.ok abreast.ended ran).tokens)

section Bind

variable {next nextOther : α → Reader β}

theorem First.bind (first : course.First licence run runOther)
    (rest : ∀ value, course.Rest licence (next value) (nextOther value)) :
    course.First licence (run >>= next) (runOther >>= nextOther) := by
  refine ⟨first.here.bind fun value => (rest value).here.here,
    first.there.bind fun value => (rest value).there.here, fun here there abreast => ?_⟩
  refine mirrors_bind abreast first.here (fun value => (rest value).here.here)
    (first.mirrors here there abreast) ?_ first.there (fun value => (rest value).there.here) id ?_
  · intro value later laterOther along reaches
    exact (rest value).mirrors later laterOther along reaches
  · intro value later suffix ended unseen
    exact abreast.cites_beyond suffix ended (rest value).here unseen

theorem Rest.bind (rest : course.Rest licence run runOther)
    (restNext : ∀ value, course.Rest licence (next value) (nextOther value)) :
    course.Rest licence (run >>= next) (runOther >>= nextOther) :=
  ⟨rest.here.bind fun value => (restNext value).here,
    rest.there.bind fun value => (restNext value).there,
    fun here there abreast _ => (rest.first.bind restNext).mirrors here there abreast⟩

end Bind

theorem Rest.ite {orElse orElseOther : Reader α} {condition : Prop} [Decidable condition]
    (rest : course.Rest licence run runOther)
    (restElse : course.Rest licence orElse orElseOther) :
    course.Rest licence (if condition then run else orElse)
      (if condition then runOther else orElseOther) := by
  split
  · exact rest
  · exact restElse

/-- Behind the last token that is shared there is nothing to mirror. -/
theorem Abreast.mirrors_left (abreast : course.Abreast here there) (onward : Local run)
    (unseen : ¬course.Reaches False here) (mirror : Outcome Cursor Diagnostic α) :
    course.Mirrors licence here there (run here.step) mirror := by
  have beyond := abreast.step_beyond (List.suffix_refl _) unseen
  have ended := here.onward_step.ended abreast.ended
  have cites := (onward here.step ended).mono beyond.subset
  refine mirrors_beyond (by simp) cites fun value final ran reaches => ?_
  have short := (onward.ok ended ran).tokens.length_le.trans beyond.length_le
  rcases reaches with nothing | seen | ⟨_, held⟩
  · exact unseen (.inl nothing)
  · omega
  · omega

theorem First.afterAdvance (first : course.First licence run runOther) :
    course.Rest licence (advance >>= fun _ => run) (advance >>= fun _ => runOther) := by
  refine ⟨first.here.afterAdvance, first.there.afterAdvance, fun here there abreast _ => ?_⟩
  rw [Run.bind_apply, Run.bind_apply, advance_eq abreast.ended, advance_eq abreast.endedOther]
  by_cases seen : course.Reaches False here
  · exact (first.mirrors here.step there.step (abreast.step seen)).ofStep
  · exact abreast.mirrors_left first.here seen _

theorem rest_pure (value : α) : course.Rest licence (pure value) (pure value) :=
  ⟨forward_pure value, forward_pure value, fun _ _ abreast _ => mirrors_ok rfl fun _ => abreast⟩

theorem rest_expect (kind : Kind) : course.Rest licence (expect kind) (expect kind) := by
  refine ⟨forward_expect kind, forward_expect kind, fun here there abreast reaches => ?_⟩
  by_cases seen : course.Reaches False here
  · have along := abreast.step seen
    rw [expect_eq abreast.ended, expect_eq abreast.endedOther, ← along.kind]
    split
    · exact mirrors_ok (by simp) fun _ => along
    · exact mirrors_raised abreast (.unexpected kind along.same)
  · have cites := abreast.cites_beyond (List.suffix_refl _) abreast.ended (forward_expect kind) seen
    refine mirrors_beyond rfl cites fun value final ran within => ?_
    rw [expect_eq abreast.ended] at ran
    split at ran
    · cases ran
      have short := (abreast.step_beyond (List.suffix_refl _) seen).length_le
      rcases within with nothing | far | ⟨_, held⟩
      · exact seen (.inl nothing)
      · omega
      · omega
    · cases ran

/-- The next token is passed if it is of the given kind. The token at which the other side goes its
own way must not be of that kind. -/
theorem Rest.whenNext {orElse orElseOther : Reader α} {kind : Kind}
    (first : course.First licence run runOther) (rest : course.Rest licence orElse orElseOther)
    (avoids : licence → ∀ token, course.other.head? = some token → token.kind ≠ kind) :
    course.Rest licence
      (peekIs kind >>= fun found => if found = true then advance >>= fun _ => run else orElse)
      (peekIs kind >>= fun found =>
        if found = true then advance >>= fun _ => runOther else orElseOther) := by
  have restAdvance := first.afterAdvance
  refine ⟨(forward_peekIs kind).bind fun _ => restAdvance.here.ite rest.here,
    (forward_peekIs kind).bind fun _ => restAdvance.there.ite rest.there, ?_⟩
  intro here there abreast reaches
  rw [Run.bind_apply, Run.bind_apply, peekIs_eq abreast.ended, peekIs_eq abreast.endedOther]
  by_cases seen : course.Reaches False here
  · rw [← (abreast.step seen).kind]
    exact (restAdvance.ite rest).mirrors here there abreast reaches
  · by_cases found : here.step.current.kind = kind
    · simp only [found, decide_true, if_true, Run.bind_apply, advance_eq abreast.ended]
      exact abreast.mirrors_left first.here seen _
    · -- the other side stands before the first of its own tokens
      have licensed : licence := ((abreast.reaches_iff).mp reaches).resolve_left seen
      have absent := avoids licensed _ (abreast.step_other seen)
      simp only [found, absent, decide_false]
      exact rest.mirrors here there abreast reaches

theorem Rest.whicheverNext {orElse orElseOther : Reader α} (kind : Kind)
    (first : course.First licence run runOther)
    (firstElse : course.First licence orElse orElseOther) :
    course.Rest licence
      (peekIs kind >>= fun found =>
        if found = true then advance >>= fun _ => run else advance >>= fun _ => orElse)
      (peekIs kind >>= fun found =>
        if found = true then advance >>= fun _ => runOther
        else advance >>= fun _ => orElseOther) := by
  have restAdvance := first.afterAdvance
  have restElse := firstElse.afterAdvance
  refine ⟨(forward_peekIs kind).bind fun _ => restAdvance.here.ite restElse.here,
    (forward_peekIs kind).bind fun _ => restAdvance.there.ite restElse.there, ?_⟩
  intro here there abreast reaches
  by_cases seen : course.Reaches False here
  · rw [Run.bind_apply, Run.bind_apply, peekIs_eq abreast.ended, peekIs_eq abreast.endedOther,
      ← (abreast.step seen).kind]
    exact (restAdvance.ite restElse).mirrors here there abreast reaches
  · rw [Run.bind_apply, peekIs_eq abreast.ended]
    by_cases found : here.step.current.kind = kind
    · simp only [found, decide_true, if_true, Run.bind_apply, advance_eq abreast.ended]
      exact abreast.mirrors_left first.here seen _
    · simp only [found, decide_false, Bool.false_eq_true, if_false, Run.bind_apply,
        advance_eq abreast.ended]
      exact abreast.mirrors_left firstElse.here seen _

/-! ## Skipping -/

/-- What is left behind the shared part is empty on both sides or on neither. -/
theorem rest_cases :
    (course.rest = [] ∧ course.other = []) ∨
      ∃ next list first others, course.rest = next :: list ∧ course.other = first :: others := by
  cases listed : course.rest with
  | nil => exact .inl ⟨rfl, course.ends_iff.mp listed⟩
  | cons next list =>
      cases listedOther : course.other with
      | nil =>
          rw [course.ends_iff.mpr listedOther] at listed
          cases listed
      | cons first others => exact .inr ⟨next, list, first, others, rfl, rfl⟩

/-- Skipping to the place before a token that ends a statement: what follows the shared part on the
other side has to be such a token, if it comes to that. -/
theorem Common.skipUntilNext {stops : Kind → Bool} {token otherToken : Token}
    {list others : List Token} (same : course.Same token otherToken)
    (common : course.Common list others)
    (reach : course.rest = [] ∨
      course.rest.length < (skipUntilNext stops token list).2.length ∨
      ((∀ first, course.other.head? = some first → stops first.kind = true) ∧
        course.rest.length ≤ (skipUntilNext stops token list).2.length)) :
    course.Same (Scriptlet.skipUntilNext stops token list).1
        (Scriptlet.skipUntilNext stops otherToken others).1 ∧
      course.Common (Scriptlet.skipUntilNext stops token list).2
        (Scriptlet.skipUntilNext stops otherToken others).2 := by
  induction common generalizing token otherToken with
  | cons sameNext common ih =>
      unfold Scriptlet.skipUntilNext at reach ⊢
      rw [← course.kind_eq sameNext]
      split
      · exact ⟨same, .cons sameNext common⟩
      · rename_i goesOn
        rw [if_neg goesOn] at reach
        exact ih sameNext reach
  | rest =>
      have common : course.Common course.rest course.other := .rest
      rcases rest_cases with ⟨nothing, nothingOther⟩ | ⟨next, list, first, others, listed, listedOther⟩
      · rw [nothing, nothingOther] at common ⊢
        exact ⟨same, common⟩
      · rw [listed] at reach
        rw [listed, listedOther] at common ⊢
        have short := (skipUntilNext_suffix stops next list).length_le
        unfold Scriptlet.skipUntilNext at reach ⊢
        by_cases stop : stops next.kind = true
        · rw [if_pos stop] at reach ⊢
          simp only [List.length_cons, Nat.lt_irrefl, false_or, reduceCtorEq, le_refl,
            and_true] at reach
          rw [if_pos (reach first (by rw [listedOther]; rfl))]
          exact ⟨same, common⟩
        · rw [if_neg stop] at reach
          simp only [List.length_cons, reduceCtorEq, false_or] at reach short
          omega

/-- What skipping a bad statement of a program does at a token depends on its kind alone. -/
theorem skipUntil_cons (stops : Kind → Bool) (token next : Token) (list : List Token) :
    Scriptlet.skipUntil stops token (next :: list) =
      if stops token.kind then (token, next :: list) else Scriptlet.skipUntil stops next list :=
  rfl

/-- What skipping a bad statement of a block does at a token depends on its kind and on the depth
alone: it stays, it takes one more step, or it goes on. -/
theorem skipInBlock_cons (depth : Nat) (kind : Kind) :
    (∀ token next list, token.kind = kind →
      Scriptlet.skipInBlock depth token (next :: list) = (token, next :: list)) ∨
    (∀ token next list, token.kind = kind →
      Scriptlet.skipInBlock depth token (next :: list) = (next, list)) ∨
    ∃ inner, ∀ token next list, token.kind = kind →
      Scriptlet.skipInBlock depth token (next :: list) =
        Scriptlet.skipInBlock inner next list := by
  by_cases atEnd : kind = .endOfInput
  · exact .inl fun token next list same => by simp [Scriptlet.skipInBlock, same, atEnd]
  by_cases opening : kind = .leftBrace
  · exact .inr (.inr ⟨depth + 1, fun token next list same => by
      simp [Scriptlet.skipInBlock, same, opening]⟩)
  by_cases closing : kind = .rightBrace
  · cases depth with
    | zero => exact .inl fun token next list same => by simp [Scriptlet.skipInBlock, same, closing]
    | succ inner =>
        exact .inr (.inr ⟨inner, fun token next list same => by
          simp [Scriptlet.skipInBlock, same, closing]⟩)
  by_cases semicolon : kind = .semicolon
  · cases depth with
    | zero =>
        exact .inr (.inl fun token next list same => by
          simp [Scriptlet.skipInBlock, same, semicolon])
    | succ inner =>
        exact .inr (.inr ⟨inner + 1, fun token next list same => by
          simp [Scriptlet.skipInBlock, same, semicolon]⟩)
  · exact .inr (.inr ⟨depth, fun token next list same => by
      rw [Scriptlet.skipInBlock.eq_def]
      simp only [same]
      split <;> simp_all⟩)

theorem Common.skipUntil {stops : Kind → Bool} {token otherToken : Token}
    {list others : List Token} (same : course.Same token otherToken)
    (common : course.Common list others)
    (held : course.rest = [] ∨
      course.rest.length ≤ (Scriptlet.skipUntil stops token list).2.length) :
    course.Same (Scriptlet.skipUntil stops token list).1
        (Scriptlet.skipUntil stops otherToken others).1 ∧
      course.Common (Scriptlet.skipUntil stops token list).2
        (Scriptlet.skipUntil stops otherToken others).2 := by
  induction common generalizing token otherToken with
  | cons sameNext common ih =>
      rw [skipUntil_cons] at held
      rw [skipUntil_cons, skipUntil_cons, ← course.kind_eq same]
      split
      · exact ⟨same, .cons sameNext common⟩
      · rename_i goesOn
        rw [if_neg goesOn] at held
        exact ih sameNext held
  | rest =>
      have common : course.Common course.rest course.other := .rest
      rcases rest_cases with ⟨nothing, nothingOther⟩ | ⟨next, list, first, others, listed, listedOther⟩
      · rw [nothing, nothingOther] at common ⊢
        exact ⟨same, common⟩
      · rw [listed] at held
        rw [listed, listedOther] at common ⊢
        have short := (skipUntil_suffix stops next list).length_le
        rw [skipUntil_cons] at held
        rw [skipUntil_cons, skipUntil_cons, ← course.kind_eq same]
        split
        · exact ⟨same, common⟩
        · rename_i goesOn
          rw [if_neg goesOn] at held
          simp only [List.length_cons, reduceCtorEq, false_or] at held short
          omega

theorem Common.skipInBlock {token otherToken : Token} {list others : List Token}
    (same : course.Same token otherToken) (common : course.Common list others) (depth : Nat)
    (held : course.rest = [] ∨
      course.rest.length ≤ (Scriptlet.skipInBlock depth token list).2.length) :
    course.Same (Scriptlet.skipInBlock depth token list).1
        (Scriptlet.skipInBlock depth otherToken others).1 ∧
      course.Common (Scriptlet.skipInBlock depth token list).2
        (Scriptlet.skipInBlock depth otherToken others).2 := by
  have kindOther := (course.kind_eq same).symm
  induction common generalizing token otherToken depth with
  | cons sameNext common ih =>
      rcases skipInBlock_cons depth token.kind with stays | passes | ⟨inner, goesOn⟩
      · rw [stays token _ _ rfl, stays otherToken _ _ kindOther]
        exact ⟨same, .cons sameNext common⟩
      · rw [passes token _ _ rfl, passes otherToken _ _ kindOther]
        exact ⟨sameNext, common⟩
      · rw [goesOn token _ _ rfl] at held
        rw [goesOn token _ _ rfl, goesOn otherToken _ _ kindOther]
        exact ih sameNext inner held (course.kind_eq sameNext).symm
  | rest =>
      have common : course.Common course.rest course.other := .rest
      rcases rest_cases with ⟨nothing, nothingOther⟩ | ⟨next, list, first, others, listed, listedOther⟩
      · rw [nothing, nothingOther] at common ⊢
        exact ⟨same, common⟩
      · rw [listed] at held
        rw [listed, listedOther] at common ⊢
        rcases skipInBlock_cons depth token.kind with stays | passes | ⟨inner, goesOn⟩
        · rw [stays token _ _ rfl, stays otherToken _ _ kindOther]
          exact ⟨same, common⟩
        · rw [passes token _ _ rfl] at held
          simp only [List.length_cons, reduceCtorEq, false_or] at held
          omega
        · have short := (skipInBlock_suffix inner next list).length_le
          rw [goesOn token _ _ rfl] at held
          simp only [List.length_cons, reduceCtorEq, false_or] at held short
          omega

/-! ## Rounds and statements -/

theorem rest_endStatement : course.Rest course.Final endStatement endStatement := by
  refine Rest.bind ?_ fun _ => ?_
  · refine ⟨forward_skipUntilNext _, forward_skipUntilNext _, fun here there abreast _ => ?_⟩
    refine mirrors_ok rfl fun reaches => ?_
    have stays := skipUntilNext_suffix
      (fun kind => kind = .semicolon || kind = .endOfInput || kind = .rightBrace)
    have along := Common.skipUntilNext abreast.same abreast.common <| by
      rcases reaches with nothing | seen | ⟨final, held⟩
      · exact .inl nothing
      · exact .inr (.inl (Nat.lt_of_succ_lt_succ seen))
      · refine .inr (.inr ⟨fun first head => ?_, Nat.le_of_lt_succ held⟩)
        rcases final first head with brace | atEnd
        · simp [brace]
        · simp [atEnd]
    exact ⟨abreast.ended.of_suffix (stays _ _) (List.cons_ne_nil _ _),
      abreast.endedOther.of_suffix (stays _ _) (List.cons_ne_nil _ _), along.1, along.2,
      abreast.recorded⟩
  · have done : course.Rest course.Final (pure ()) (pure ()) := rest_pure ()
    have avoids (final : course.Final) (token : Token) (head : course.other.head? = some token) :
        token.kind ≠ .semicolon := by
      rcases final token head with brace | atEnd
      · rw [brace]
        decide
      · rw [atEnd]
        decide
    simpa only [bind_pure_unit] using Rest.whenNext done.first done avoids

/-- A loop that goes on after a round: where the round leaves the shared part, the loop is beyond
it. -/
theorem First.again {next nextOther : α → Reader β} (round : course.First True run runOther)
    (first : ∀ value, course.First licence (next value) (nextOther value)) :
    course.First licence (run >>= next) (runOther >>= nextOther) := by
  refine ⟨round.here.bind fun value => (first value).here,
    round.there.bind fun value => (first value).there, fun here there abreast => ?_⟩
  refine mirrors_bind abreast round.here (fun value => (first value).here)
    (round.mirrors here there abreast) ?_ round.there (fun value => (first value).there)
    (fun _ => trivial) ?_
  · intro value later laterOther along _
    exact (first value).mirrors later laterOther along
  · intro value later suffix ended left
    exact ((first value).here later ended).mono (abreast.beyond suffix left).subset

end Course

/-- What a round of a loop over statements makes of how a statement came out. After a bad one it
goes to where `leave` tells. -/
def Outcome.round (leave : Cursor → Cursor) :
    Outcome Cursor Diagnostic Stmt → Outcome Cursor Diagnostic (Option (Option Stmt))
  | .ok value later => .ok (some (some value)) later.step
  | .raised diagnostic later => .ok (some none) (leave (later.noted diagnostic))
  | .halted why => .halted why

namespace Reader

variable {stmt : Reader Stmt} {cursor : Cursor}

theorem blockRound_eq (here : Local stmt) (ended : Ended cursor.tokens)
    (closing : cursor.current.kind ≠ .rightBrace) (inside : cursor.current.kind ≠ .endOfInput) :
    blockRound stmt cursor = (stmt cursor).round Cursor.leftBlockStatement := by
  cases outcome : stmt cursor with
  | ok value later =>
      exact blockRound_ok (here.ended ended outcome) closing inside outcome
  | raised diagnostic later => exact blockRound_raised closing inside outcome
  | halted why => exact blockRound_halted closing inside outcome

def definition (expr : Precedence → Reader Expr) : Reader (String × Expr) := do
  expect .name
  let name ← current
  expect .assign
  advance
  let value ← expr .lowest
  return (name.literal, value)

theorem define_eq (expr : Precedence → Reader Expr) :
    define expr = definition expr >>= fun found => endStatement >>= fun _ =>
      pure (.define found.1 found.2) := by
  simp only [define, definition, bind_assoc, pure_bind]

theorem programRound_eq (here : Local stmt) (ended : Ended cursor.tokens)
    (inside : cursor.current.kind ≠ .endOfInput) :
    programRound stmt cursor =
      (stmt cursor).round fun later => later.leftStatement.step := by
  cases outcome : stmt cursor with
  | ok value later =>
      exact programRound_ok (here.ended ended outcome) inside outcome
  | raised diagnostic later =>
      exact programRound_raised ((here.raised ended outcome).1.onward.ended ended) inside outcome
  | halted why => exact programRound_halted inside outcome

end Reader

namespace Course

open Reader

variable {α : Type} {course : Course} {licence : Prop} {here there later : Cursor}
  {stmt stmtOther : Reader Stmt}

theorem Abreast.noted {laterOther : Cursor} {diagnostic diagnosticOther : Diagnostic}
    (abreast : course.Abreast later laterOther) (alike : course.Alike diagnostic diagnosticOther) :
    course.Abreast (later.noted diagnostic) (laterOther.noted diagnosticOther) := by
  obtain ⟨new, alikes, recorded⟩ := abreast.recorded
  refine ⟨abreast.ended, abreast.endedOther, abreast.same, abreast.common,
    new ++ [diagnosticOther], List.rel_append alikes (.cons alike .nil), ?_⟩
  rw [Cursor.noted, recorded, List.append_assoc]

/-- A round mirrors if the statement does, and if whoever leaves a bad statement does. -/
theorem mirrors_round {leave : Cursor → Cursor} (kept : ∀ cursor, (leave cursor).recorded = cursor.recorded)
    (along : ∀ later laterOther, course.Abreast later laterOther →
      course.Reaches True (leave later) → course.Abreast (leave later) (leave laterOther))
    (first : course.First False stmt stmtOther) (abreast : course.Abreast here there) :
    course.Mirrors True here there ((stmt here).round leave) ((stmtOther there).round leave) := by
  have mirrors := first.mirrors here there abreast
  have cites := first.here here abreast.ended
  have citesOther := first.there there abreast.endedOther
  -- a statement that is not clean makes the round unclean
  have unclean (dirty : ∀ value later, stmtOther there = .ok value later →
      later.recorded ≠ there.recorded) (value : Option (Option Stmt)) (final : Cursor)
      (ran : (stmtOther there).round leave = .ok value final) :
      final.recorded ≠ there.recorded := by
    cases outcome : stmtOther there with
    | ok result later =>
        rw [outcome] at ran
        cases ran
        simpa using dirty result later outcome
    | raised diagnostic later =>
        rw [outcome] at ran citesOther
        cases ran
        obtain ⟨new, recorded, _⟩ := citesOther.1.recorded
        simp [kept, Cursor.noted, recorded]
    | halted why =>
        rw [outcome] at ran
        cases ran
  cases outcome : stmt here with
  | ok result later =>
      rw [outcome] at mirrors cites
      have ended := (Cursor.Notes.onward cites).ended abreast.ended
      refine ⟨?_, ?_, ?_⟩
      · rintro _ _ ⟨⟩ reaches clears
        have seen := reaches.ofStep ended
        obtain ⟨laterOther, ran, alongside⟩ := mirrors.ok result later rfl seen (by simpa using clears)
        exact ⟨laterOther.step, by rw [ran]; rfl, alongside.step seen⟩
      · intro _ _ raised
        cases raised
      · intro clean diagnostic found clear
        refine unclean (mirrors.fails clean diagnostic ?_ clear)
        simpa [Outcome.round, Outcome.diagnostics] using found
  | raised diagnostic later =>
      rw [outcome] at mirrors
      refine ⟨?_, ?_, ?_⟩
      · rintro _ _ ⟨⟩ reaches clears
        simp only [kept, Cursor.noted, List.mem_append, List.mem_singleton] at clears
        obtain ⟨complaint, laterOther, ran, alike, alongside⟩ := mirrors.raised diagnostic later rfl
          (clears _ (.inr rfl)) fun other member => clears other (.inl member)
        exact ⟨_, by rw [ran]; rfl, along _ _ (alongside.noted alike) reaches⟩
      · intro _ _ raised
        cases raised
      · intro clean first found clear
        refine unclean (mirrors.fails clean first ?_ clear)
        simpa [Outcome.round, Outcome.diagnostics, kept, Cursor.noted] using found
  | halted why => exact mirrors_halted _

theorem Abreast.leftBlockStatement {laterOther : Cursor}
    (abreast : course.Abreast later laterOther)
    (reaches : course.Reaches True later.leftBlockStatement) :
    course.Abreast later.leftBlockStatement laterOther.leftBlockStatement := by
  have along := Common.skipInBlock abreast.same abreast.common 0 <| by
    rcases reaches with nothing | seen | ⟨_, held⟩
    · exact .inl nothing
    · exact .inr (Nat.le_of_lt (Nat.lt_of_succ_lt_succ seen))
    · exact .inr (Nat.le_of_lt_succ held)
  exact ⟨(later.onward_leftBlockStatement).ended abreast.ended,
    (laterOther.onward_leftBlockStatement).ended abreast.endedOther, along.1, along.2,
    abreast.recorded⟩

theorem Abreast.leftStatement {laterOther : Cursor} (abreast : course.Abreast later laterOther)
    (reaches : course.Reaches True later.leftStatement) :
    course.Abreast later.leftStatement laterOther.leftStatement := by
  have along := Common.skipUntil abreast.same abreast.common <| by
    rcases reaches with nothing | seen | ⟨_, held⟩
    · exact .inl nothing
    · exact .inr (Nat.le_of_lt (Nat.lt_of_succ_lt_succ seen))
    · exact .inr (Nat.le_of_lt_succ held)
  exact ⟨(later.onward_leftStatement).ended abreast.ended,
    (laterOther.onward_leftStatement).ended abreast.endedOther, along.1, along.2,
    abreast.recorded⟩

theorem first_blockRound (first : course.First False stmt stmtOther) :
    course.First True (blockRound stmt) (blockRound stmtOther) := by
  refine ⟨local_blockRound first.here, local_blockRound first.there, fun here there abreast => ?_⟩
  by_cases closing : here.current.kind = .rightBrace
  · rw [blockRound_closing stmt closing,
      blockRound_closing stmtOther (abreast.kind.symm.trans closing)]
    exact mirrors_ok rfl fun _ => abreast
  by_cases atEnd : here.current.kind = .endOfInput
  · rw [blockRound_atEnd stmt atEnd, blockRound_atEnd stmtOther (abreast.kind.symm.trans atEnd)]
    exact mirrors_raised abreast (.unexpected _ abreast.same)
  rw [blockRound_eq first.here abreast.ended closing atEnd, blockRound_eq first.there
    abreast.endedOther (abreast.kind ▸ closing) (abreast.kind ▸ atEnd)]
  exact mirrors_round (fun _ => rfl) (fun _ _ => Abreast.leftBlockStatement) first abreast

theorem first_programRound (first : course.First False stmt stmtOther) :
    course.First True (programRound stmt) (programRound stmtOther) := by
  refine ⟨local_programRound first.here, local_programRound first.there,
    fun here there abreast => ?_⟩
  by_cases atEnd : here.current.kind = .endOfInput
  · rw [programRound_atEnd stmt atEnd,
      programRound_atEnd stmtOther (abreast.kind.symm.trans atEnd)]
    exact mirrors_ok rfl fun _ => abreast
  rw [programRound_eq first.here abreast.ended atEnd,
    programRound_eq first.there abreast.endedOther (abreast.kind ▸ atEnd)]
  refine mirrors_round (fun _ => by simp [Cursor.leftStatement, Cursor.moveTo]) ?_ first abreast
  intro later laterOther along reaches
  have seen := reaches.ofStep (later.onward_leftStatement.ended along.ended)
  exact (along.leftStatement (seen.mono False.elim)).step seen

theorem first_blockRest (first : course.First False stmt stmtOther) (rounds : Nat) :
    course.First licence (blockRest stmt rounds) (blockRest stmtOther rounds) := by
  induction rounds with
  | zero => exact ⟨fun _ _ => trivial, fun _ _ => trivial, fun _ _ _ => mirrors_halted _⟩
  | succ rounds ih =>
      rw [blockRest_succ, blockRest_succ]
      refine (first_blockRound first).again fun found => ?_
      cases found with
      | none => exact (rest_pure _).first
      | some head => exact ih.bind fun _ => rest_pure _

theorem first_programRest (first : course.First False stmt stmtOther) (rounds : Nat) :
    course.First licence (programRest stmt rounds) (programRest stmtOther rounds) := by
  induction rounds with
  | zero => exact ⟨fun _ _ => trivial, fun _ _ => trivial, fun _ _ _ => mirrors_halted _⟩
  | succ rounds ih =>
      rw [programRest_succ, programRest_succ]
      refine (first_programRound first).again fun found => ?_
      cases found with
      | none => exact (rest_pure _).first
      | some head => exact ih.bind fun _ => rest_pure _

/-! ## Lists -/

theorem Inert.avoids (inert : course.Inert) {kind : Kind} (active : kind.isInert = false)
    (token : Token) (head : course.other.head? = some token) : token.kind ≠ kind := by
  rintro rfl
  rw [inert token head] at active
  cases active

section Items

variable {item : Reader α} (first : course.First course.Inert item item)

include first

theorem rest_itemsRest (rounds : Nat) :
    course.Rest course.Inert (itemsRest item rounds) (itemsRest item rounds) := by
  induction rounds with
  | zero => exact ⟨fun _ _ => trivial, fun _ _ => trivial, fun _ _ _ _ => mirrors_halted _⟩
  | succ rounds ih =>
      refine Rest.whenNext ?_ (rest_pure _) fun inert => inert.avoids rfl
      refine Rest.first (First.afterAdvance ?_)
      exact first.bind fun _ => ih.bind fun _ => rest_pure _

theorem rest_items (close : Kind) (rounds : Nat) :
    course.Rest course.Inert (items close item rounds) (items close item rounds) := by
  refine Rest.whicheverNext close (rest_pure _).first ?_
  exact first.bind fun _ => (rest_itemsRest first rounds).bind fun _ =>
    (rest_expect close).bind fun _ => rest_pure _

end Items

theorem first_parameter : course.First licence parameter parameter := by
  refine ⟨local_parameter, local_parameter, fun here there abreast => ?_⟩
  simp only [parameter, Run.bind_apply, current]
  rw [← abreast.kind]
  split
  · rw [← course.literal_eq abreast.same]
    exact mirrors_ok rfl fun _ => abreast
  · exact mirrors_raised abreast (.unexpected _ abreast.same)

/-! ## Statements and expressions -/

section Parts

variable {expr : Precedence → Reader Expr} {rounds : Nat} {token otherToken : Token}
  (first : ∀ minimum, course.First course.Inert (expr minimum) (expr minimum))

include first

theorem rest_definition : course.Rest course.Inert (definition expr) (definition expr) := by
  have value (name : String) : course.Rest course.Inert
      (advance >>= fun _ => expr .lowest >>= fun value => pure (name, value))
      (advance >>= fun _ => expr .lowest >>= fun value => pure (name, value)) :=
    ((first .lowest).bind fun _ => rest_pure _).afterAdvance
  have forward (name : Token) : Forward (expect .assign >>= fun _ => advance >>= fun _ =>
      expr .lowest >>= fun value => pure (name.literal, value)) :=
    (forward_expect _).bind fun _ => (value name.literal).here
  refine (rest_expect _).bind fun _ => ?_
  refine ⟨Forward.afterCurrent forward, Forward.afterCurrent forward, ?_⟩
  intro here there abreast reaches
  simp only [Run.bind_apply, current, ← course.literal_eq abreast.same]
  exact ((rest_expect .assign).bind fun _ => value here.current.literal).mirrors here there
    abreast reaches

theorem rest_define : course.Rest course.Final (define expr) (define expr) := by
  rw [define_eq]
  exact ((rest_definition first).mono Final.inert).bind fun _ =>
    rest_endStatement.bind fun _ => rest_pure _

theorem rest_returning : course.Rest course.Final (returning expr) (returning expr) :=
  First.afterAdvance <| ((first .lowest).mono Final.inert).bind fun _ =>
    rest_endStatement.bind fun _ => rest_pure _

theorem first_exprStatement :
    course.First course.Inert (exprStatement expr) (exprStatement expr) :=
  (first .lowest).bind fun _ => Rest.whenNext (rest_pure _).first (rest_pure _)
    fun inert => inert.avoids rfl

theorem first_statement : course.First course.Final (statement expr) (statement expr) := by
  have onward := local_statement fun minimum => (first minimum).here
  refine ⟨onward, onward, fun here there abreast => ?_⟩
  rw [statement_apply, statement_apply, ← abreast.kind]
  split
  · exact (rest_define first).first.mirrors here there abreast
  split
  · exact (rest_returning first).first.mirrors here there abreast
  · exact ((first_exprStatement first).mono Final.inert).mirrors here there abreast

theorem rest_block : course.Rest licence (block expr rounds) (block expr rounds) :=
  (first_blockRest ((first_statement first).mono False.elim) rounds).afterAdvance

theorem first_pair : course.First course.Inert (pair expr) (pair expr) :=
  (first _).bind fun _ => (rest_expect _).bind fun _ =>
    ((first _).bind fun _ => rest_pure _).afterAdvance

theorem rest_conditional :
    course.Rest course.Inert (leadingForm expr rounds token .conditional)
      (leadingForm expr rounds otherToken .conditional) := by
  refine ((first _).bind fun _ => (rest_expect _).bind fun _ => (rest_block first).bind
    fun _ => ?_).afterAdvance
  refine Rest.whenNext ?_ (rest_pure _) fun inert => inert.avoids rfl
  exact ((rest_expect _).bind fun _ => (rest_block first).bind fun _ => rest_pure _).first

theorem rest_function :
    course.Rest course.Inert (leadingForm expr rounds token .function)
      (leadingForm expr rounds otherToken .function) :=
  (rest_expect _).bind fun _ => (rest_items first_parameter _ rounds).bind fun _ =>
    (rest_expect _).bind fun _ => (rest_block first).bind fun _ => rest_pure _

theorem rest_leadingForm (same : course.Same token otherToken) {form : Leading}
    (other : form ≠ .integer) :
    course.Rest course.Inert (leadingForm expr rounds token form)
      (leadingForm expr rounds otherToken form) := by
  have literal := course.literal_eq same
  cases form with
  | name =>
      simp only [leadingForm, literal]
      exact rest_pure _
  | integer => contradiction
  | string =>
      simp only [leadingForm, literal]
      exact rest_pure _
  | boolean value => exact rest_pure _
  | unary op => exact ((first _).bind fun _ => rest_pure _).afterAdvance
  | group => exact ((first _).bind fun _ => (rest_expect _).bind fun _ => rest_pure _).afterAdvance
  | array => exact (rest_items (first _) _ rounds).bind fun _ => rest_pure _
  | hash => exact (rest_items (first_pair first) _ rounds).bind fun _ => rest_pure _
  | conditional => exact rest_conditional first
  | function => exact rest_function first

omit first in
theorem mirrors_integer (abreast : course.Abreast here there) :
    course.Mirrors licence here there (leadingForm expr rounds here.current .integer here)
      (leadingForm expr rounds there.current .integer there) := by
  have alike := Alike.badInteger abreast.same
  rw [← course.literal_eq abreast.same] at alike
  rw [integer_apply, integer_apply, ← course.literal_eq abreast.same]
  split
  · exact mirrors_ok rfl fun _ => abreast
  · exact mirrors_raised abreast alike

theorem first_operand :
    course.First course.Inert (operand .standard expr rounds) (operand .standard expr rounds) := by
  have onward := local_operand (fun minimum => (first minimum).here) rounds
  refine ⟨onward, onward, fun here there abreast => ?_⟩
  rw [operand_apply, operand_apply, ← abreast.kind]
  cases here.current.kind.leading? with
  | none => exact mirrors_raised abreast (.notLeading abreast.same)
  | some form =>
      by_cases integer : form = .integer
      · rw [integer]
        exact mirrors_integer abreast
      · exact (rest_leadingForm first abreast.same integer).first.mirrors here there abreast

theorem rest_trailingForm (rounds : Nat) (same : course.Same token otherToken) (left : Expr)
    (form : Trailing) :
    course.Rest course.Inert (trailingForm expr rounds left token form)
      (trailingForm expr rounds left otherToken form) := by
  cases form with
  | binary op =>
      simp only [trailingForm, course.kind_eq same]
      exact ((first _).bind fun _ => rest_pure _).afterAdvance
  | call => exact (rest_items (first _) _ rounds).bind fun _ => rest_pure _
  | index => exact ((first _).bind fun _ => (rest_expect _).bind fun _ => rest_pure _).afterAdvance

theorem rest_operatorRound (minimum : Precedence) (left : Expr) :
    course.Rest course.Inert (operatorRound .standard expr rounds minimum left)
      (operatorRound .standard expr rounds minimum left) := by
  have onward (minimum : Precedence) := (first minimum).here
  refine ⟨forward_operatorRound onward _ _ _, forward_operatorRound onward _ _ _,
    fun here there abreast reaches => ?_⟩
  rw [operatorRound_apply abreast.ended, operatorRound_apply abreast.endedOther]
  by_cases seen : course.Reaches False here
  · have along := abreast.step seen
    rw [← along.kind]
    cases here.step.current.kind.continuation? minimum left with
    | none => exact mirrors_ok rfl fun _ => abreast
    | some form =>
        have rest := (rest_trailingForm first rounds along.same left form).bind
          fun extended => rest_pure (some extended)
        exact (rest.first.mirrors here.step there.step along).ofStep
  · have inert : course.Inert := abreast.reaches_iff.mp reaches |>.resolve_left seen
    have stops : there.step.current.kind.continuation? minimum left = none := by
      have quiet := inert _ (abreast.step_other seen)
      simp only [Kind.isInert, Bool.and_eq_true, decide_eq_true_eq] at quiet
      rw [Kind.continuation?, quiet.1.1.1]
      simp
    rw [stops]
    cases here.step.current.kind.continuation? minimum left with
    | none => exact mirrors_ok rfl fun _ => abreast
    | some form =>
        have forward := (forward_trailingForm onward rounds left here.step.current form).bind
          fun extended => forward_pure (some extended)
        exact abreast.mirrors_left forward.here seen _

theorem rest_operators (inner : Nat) (minimum : Precedence) (left : Expr) :
    course.Rest course.Inert (operators .standard expr inner minimum rounds left)
      (operators .standard expr inner minimum rounds left) := by
  induction rounds generalizing left with
  | zero => exact ⟨fun _ _ => trivial, fun _ _ => trivial, fun _ _ _ _ => mirrors_halted _⟩
  | succ rounds ih =>
      rw [operators_succ]
      refine (rest_operatorRound first minimum left).bind fun found => ?_
      cases found with
      | none => exact rest_pure _
      | some extended => exact ih extended

end Parts

theorem first_expression (depth : Nat) (minimum : Precedence) :
    course.First course.Inert (expression .standard depth minimum)
      (expression .standard depth minimum) := by
  induction depth generalizing minimum with
  | zero => exact ⟨fun _ _ => trivial, fun _ _ => trivial, fun _ _ _ => mirrors_halted _⟩
  | succ depth ih =>
      exact (first_operand ih).bind fun first => rest_operators ih _ minimum first

theorem first_program (bound : Nat) :
    course.First licence (program .standard bound) (program .standard bound) := by
  have first : course.First course.Final (statement (expression .standard bound))
      (statement (expression .standard bound)) := first_statement (first_expression bound)
  exact (first_programRest (first.mono False.elim) bound).bind fun _ => rest_pure _

theorem First.follows {run : Reader α} {value : α} (first : course.First True run run)
    (abreast : course.Abreast here there) (whole : course.rest = [])
    (ran : run here = .ok value later) :
    ∃ laterOther, run there = .ok value laterOther ∧ course.Abreast later laterOther := by
  refine (first.mirrors here there abreast).ok value later ran (.inl whole) ?_
  simp [Clear, Diagnostic.PointsInto, whole]

section Whole

variable {depth rounds : Nat} {statements : Block} (abreast : course.Abreast here there)
  (whole : course.rest = [])

include abreast whole

theorem Abreast.programRest
    (ran : programRest (statement (expression .standard depth)) rounds here =
      .ok statements later) :
    ∃ laterOther, Reader.programRest (statement (expression .standard depth)) rounds there =
      .ok statements laterOther ∧ course.Abreast later laterOther := by
  have first : course.First course.Final (statement (expression .standard depth))
      (statement (expression .standard depth)) := first_statement (first_expression depth)
  exact (first_programRest (first.mono False.elim) rounds).follows abreast whole ran

theorem Abreast.blockRest
    (ran : blockRest (statement (expression .standard depth)) rounds here =
      .ok statements later) :
    ∃ laterOther, Reader.blockRest (statement (expression .standard depth)) rounds there =
      .ok statements laterOther ∧ course.Abreast later laterOther := by
  have first : course.First course.Final (statement (expression .standard depth))
      (statement (expression .standard depth)) := first_statement (first_expression depth)
  exact (first_blockRest (first.mono False.elim) rounds).follows abreast whole ran

end Whole

/-! ## Where two lists part -/

def same (rest other : List Token) (before : List Diagnostic) (ends_iff : rest = [] ↔ other = []) :
    Course where
  Same token twin := token = twin
  kind_eq := congrArg Token.kind
  literal_eq := congrArg Token.literal
  rest := rest
  other := other
  ends_iff := ends_iff
  before := before

section Same

variable {rest others : List Token} {before : List Diagnostic} {ends_iff : rest = [] ↔ others = []}

theorem common_same (front : List Token) :
    (same rest others before ends_iff).Common (front ++ rest) (front ++ others) := by
  induction front with
  | nil => exact .rest
  | cons token front ih => exact .cons (rfl : token = token) ih

theorem Common.eq_append {list twins : List Token}
    (common : (same rest others before ends_iff).Common list twins) :
    ∃ front, list = front ++ rest ∧ twins = front ++ others := by
  induction common with
  | rest => exact ⟨[], rfl, rfl⟩
  | @cons token _ _ _ same common ih =>
      obtain ⟨front, rfl, rfl⟩ := ih
      exact ⟨token :: front, rfl, congrArg (· :: _) (show _ = _ from same).symm⟩

theorem abreast_same {token : Token} {front : List Token} (ended : Ended (token :: front ++ rest))
    (endedOther : Ended (token :: front ++ others)) :
    (same rest others before ends_iff).Abreast ⟨token, front ++ rest, []⟩
      ⟨token, front ++ others, before⟩ :=
  ⟨ended, endedOther, (rfl : token = token), common_same front, [], .nil, (List.append_nil _).symm⟩

theorem abreast_start {front : List Token} (nonempty : front ≠ []) (ended : Ended (front ++ rest))
    (endedOther : Ended (front ++ others)) :
    (same rest others [] ends_iff).Abreast (.start (front ++ rest)) (.start (front ++ others)) := by
  obtain ⟨token, front, rfl⟩ := List.exists_cons_of_ne_nil nonempty
  exact abreast_same ended endedOther

theorem alikes_same {diagnostics twins : List Diagnostic}
    (alikes : List.Forall₂ (same rest others before ends_iff).Alike diagnostics twins) :
    twins = diagnostics := by
  induction alikes with
  | nil => rfl
  | cons alike _ ih =>
      rw [ih]
      cases alike with
      | unexpected expected same => rw [show _ = _ from same]
      | notLeading same => rw [show _ = _ from same]
      | badInteger same => rw [show _ = _ from same]

end Same

end Course

end Scriptlet
