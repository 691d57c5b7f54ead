import Scriptlet.Proofs.Reader.Bounds
import Scriptlet.Proofs.Reader.Settling
import Scriptlet.Proofs.Token.Offsets

/-!
# One text after another

A text that ends with a semicolon can be read without regard to what follows it. However bad its
statements are, each of them is left at the semicolon at the latest: an expression never ends on a
semicolon, so that the reader looks at the one behind it before it looks further, and whoever leaves
a bad statement stops there. `read_append` says that the text and another one behind it are read
like each of them on its own.
-/
set_option autoImplicit false

namespace Scriptlet

open Token (Kind)

/-! ## How statements end -/

def Reader.endsStatement (kind : Kind) : Bool :=
  kind = .semicolon || kind = .endOfInput || kind = .rightBrace

def Cursor.beforeEnd (cursor : Cursor) : Cursor :=
  cursor.moveTo (skipUntilNext Reader.endsStatement cursor.current cursor.ahead)

namespace Reader

variable {α : Type}

def passSemicolon : Reader Unit := do
  if ← peekIs .semicolon then advance

theorem passSemicolon_eq {cursor : Cursor} (ended : Ended cursor.tokens) :
    passSemicolon cursor =
      .ok () (if cursor.step.current.kind = .semicolon then cursor.step else cursor) := by
  simp only [passSemicolon, Run.bind_apply, peekIs_eq ended]
  by_cases found : cursor.step.current.kind = .semicolon
  · simp only [found, decide_true, if_true, advance_eq ended]
  · simp [found]

theorem returning_eq (expr : Precedence → Reader Expr) :
    returning expr = (advance >>= fun _ => expr .lowest) >>= fun value =>
      endStatement >>= fun _ => pure (.returning value) := by
  simp only [returning, bind_assoc]

theorem exprStatement_eq (expr : Precedence → Reader Expr) :
    exprStatement expr =
      expr .lowest >>= fun value => passSemicolon >>= fun _ => pure (.expr value) := by
  simp only [exprStatement, passSemicolon, bind_assoc]
  congr 1
  funext value
  congr 1
  funext found
  cases found <;> simp

def Unrecorded (run : Reader α) : Prop :=
  ∀ cursor value later, Ended cursor.tokens → run cursor = .ok value later →
    later.recorded = cursor.recorded

theorem unrecorded_passSemicolon : Unrecorded passSemicolon := by
  intro cursor value later ended ran
  rw [passSemicolon_eq ended] at ran
  cases ran
  split
  · exact cursor.step_recorded
  · rfl

theorem unrecorded_endStatement : Unrecorded endStatement := by
  intro cursor value later ended ran
  have endedSkip : Ended cursor.beforeEnd.tokens :=
    ended.of_suffix (skipUntilNext_suffix _ _ _) (List.cons_ne_nil _ _)
  exact unrecorded_passSemicolon cursor.beforeEnd value later endedSkip ran

theorem skipUntilNext_kind (stops : Kind → Bool) (current : Token) (ahead : List Token) :
    (skipUntilNext stops current ahead).1 = current ∨
      stops (skipUntilNext stops current ahead).1.kind = false := by
  induction ahead generalizing current with
  | nil => exact .inl rfl
  | cons next ahead ih =>
      unfold skipUntilNext
      split
      · exact .inl rfl
      · rename_i goesOn
        rcases ih next with same | passed
        · exact .inr (by rw [same]; simpa using goesOn)
        · exact .inr passed

theorem length_skipUntil_pos {stops : Kind → Bool} {current stop last : Token}
    {ahead front : List Token} (split : current :: ahead = front ++ [stop, last])
    (stopped : stops stop.kind = true) : 0 < (skipUntil stops current ahead).2.length := by
  induction front generalizing current ahead with
  | nil =>
      cases split
      simp [skipUntil, stopped]
  | cons first front ih =>
      have splitAhead := (List.cons.inj split).2
      cases ahead with
      | nil => simp at splitAhead
      | cons next ahead =>
          unfold skipUntil
          split
          · simp
          · exact ih splitAhead

theorem programRound_none {stmt : Reader Stmt} (here : Local stmt) {cursor later : Cursor}
    (ended : Ended cursor.tokens) (ran : programRound stmt cursor = .ok none later) :
    cursor.current.kind = .endOfInput := by
  by_contra inside
  rw [programRound_eq here ended inside] at ran
  cases outcome : stmt cursor <;> rw [outcome] at ran <;> cases ran

/-- The loop over the statements of a program goes on after a round, unless it is at the end. -/
theorem programRest_succ_ok {stmt : Reader Stmt} (here : Local stmt) {rounds : Nat}
    {cursor later : Cursor} {statements : Block} (ended : Ended cursor.tokens)
    (inside : cursor.current.kind ≠ .endOfInput)
    (ran : programRest stmt (rounds + 1) cursor = .ok statements later) :
    ∃ first middle others, programRound stmt cursor = .ok (some first) middle ∧
      cursor.Onward middle ∧ programRest stmt rounds middle = .ok others later ∧
      middle.Onward later ∧ statements = first.toList ++ others := by
  rw [programRest_succ] at ran
  obtain ⟨found, middle, ranRound, ran⟩ := Run.bind_eq_ok ran
  cases found with
  | none => exact absurd (programRound_none here ended ranRound) inside
  | some first =>
      obtain ⟨others, final, ranRest, ran⟩ := Run.bind_eq_ok ran
      cases ran
      have cites := local_programRound here cursor ended
      rw [ranRound] at cites
      have onward := Cursor.Notes.onward cites
      have citesRest := local_programRest here rounds middle (onward.ended ended)
      rw [ranRest] at citesRest
      exact ⟨first, middle, others, ranRound, onward, ranRest, Cursor.Notes.onward citesRest, rfl⟩

end Reader

/-! ## Up to the last semicolon -/

namespace Course

open Reader

variable {course : Course} {here there later : Cursor}

/-- The shared part ends with a semicolon, and the end of the input follows on this side. -/
structure Closed (course : Course) (here : Cursor) : Prop where
  last : ∃ front semicolon ending, here.tokens = front ++ [semicolon, ending] ∧
    semicolon.kind = .semicolon ∧ course.rest = [ending]

theorem Closed.onward (closed : course.Closed here) (suffix : later.tokens <:+ here.tokens)
    (held : course.rest.length < later.tokens.length) : course.Closed later := by
  obtain ⟨front, semicolon, ending, split, isSemicolon, rest⟩ := closed.last
  rw [rest, List.length_singleton] at held
  have short : [semicolon, ending] <:+ later.tokens := by
    rw [split] at suffix
    exact List.suffix_of_suffix_length_le (List.suffix_append _ _) suffix held
  obtain ⟨shorter, splitLater⟩ := short
  exact ⟨shorter, semicolon, ending, splitLater.symm, isSemicolon, rest⟩

/-- Whoever stands on a token that can end an expression stands before the last semicolon. -/
theorem Closed.reaches (closed : course.Closed here) (ended : Ended here.tokens)
    (suffix : later.tokens <:+ here.tokens) (ends : endsExpression later.current.kind) :
    course.Reaches False later := by
  obtain ⟨front, semicolon, ending, split, isSemicolon, rest⟩ := closed.last
  refine .inr (.inl ?_)
  by_contra short
  rw [rest, List.length_singleton, Nat.not_lt] at short
  rw [split] at suffix
  have within : later.tokens <:+ [semicolon, ending] :=
    List.suffix_of_suffix_length_le suffix (List.suffix_append _ _) short
  have atEnd : ending.kind = .endOfInput := by
    rw [split] at ended
    have last := ended.of_suffix (List.suffix_append (front ++ [semicolon]) [ending] |>.trans
      (by simp)) (by simp)
    exact last.rest_eq_nil_iff.mp rfl
  rcases List.suffix_cons_iff.mp within with onSemicolon | beyond
  · rw [(List.cons.inj onSemicolon).1] at ends
    exact ends.1 isSemicolon
  · rcases List.suffix_cons_iff.mp beyond with onEnding | nothing
    · rw [(List.cons.inj onEnding).1] at ends
      exact ends.2 atEnd
    · exact absurd (List.suffix_nil.mp nothing) (by simp [Cursor.tokens])

theorem Closed.inside (closed : course.Closed here) (ended : Ended here.tokens) :
    here.current.kind ≠ .endOfInput := by
  obtain ⟨front, semicolon, ending, split, _⟩ := closed.last
  intro atEnd
  have length := congrArg List.length split
  simp [Cursor.tokens, (Cursor.ahead_eq_nil_iff ended).mpr atEnd] at length

/-- Both sides stand before the last semicolon that they share, or right behind it. -/
inductive Beside (course : Course) (here there : Cursor) : Prop
  | before (closed : course.Closed here) (abreast : course.Abreast here there)
  | behind (tokens : here.tokens = course.rest) (tokensOther : there.tokens = course.other)
      (recorded : ∃ new, List.Forall₂ course.Alike here.recorded new ∧
        there.recorded = course.before ++ new)

theorem Closed.step (closed : course.Closed here) (abreast : course.Abreast here there) :
    course.Beside here.step there.step := by
  have shorter := Cursor.tokens_step_of_inside abreast.ended (closed.inside abreast.ended)
  by_cases seen : course.Reaches False here
  · have along := abreast.step seen
    exact .before (closed.onward here.onward_step.tokens along.held) along
  · have short : here.ahead.length ≤ course.rest.length := by
      simp only [Reaches, false_and, or_false, not_or, Nat.not_lt, Cursor.tokens,
        List.length_cons] at seen
      exact Nat.le_of_succ_le_succ seen.2
    obtain ⟨rest, other⟩ := abreast.common.eq_rest short
    refine .behind (shorter.trans rest) ?_ (by simpa using abreast.recorded)
    have inside : there.current.kind ≠ .endOfInput :=
      abreast.kind ▸ closed.inside abreast.ended
    exact (Cursor.tokens_step_of_inside abreast.endedOther inside).trans other

/-! ## Statements -/

theorem Abreast.passSemicolon (abreast : course.Abreast here there)
    (seen : course.Reaches False here) {value : Unit}
    (ran : passSemicolon here = .ok value later) :
    ∃ laterOther, Reader.passSemicolon there = .ok value laterOther ∧
      course.Abreast later laterOther := by
  have along := abreast.step seen
  rw [passSemicolon_eq abreast.ended] at ran
  rw [passSemicolon_eq abreast.endedOther, ← along.kind]
  cases ran
  split
  · exact ⟨there.step, rfl, along⟩
  · exact ⟨there, rfl, abreast⟩

theorem Closed.endStatement (closed : course.Closed here) (abreast : course.Abreast here there)
    (ends : endsExpression here.current.kind) {value : Unit}
    (ran : endStatement here = .ok value later) :
    ∃ laterOther, Reader.endStatement there = .ok value laterOther ∧
      course.Abreast later laterOther := by
  have suffix := skipUntilNext_suffix endsStatement here.current here.ahead
  have seen : course.Reaches False here.beforeEnd := by
    refine closed.reaches abreast.ended suffix ?_
    rcases skipUntilNext_kind endsStatement here.current here.ahead with same | passed
    · exact (congrArg (fun token => endsExpression token.kind) same).mpr ends
    · simp only [endsStatement, Bool.or_eq_false_iff, decide_eq_false_iff_not] at passed
      exact passed.1
  have common := Common.skipUntilNext abreast.same abreast.common <| by
    rcases seen with nothing | seen | ⟨⟨⟩, _⟩
    · exact .inl nothing
    · exact .inr (.inl (Nat.lt_of_succ_lt_succ seen))
  have along : course.Abreast here.beforeEnd there.beforeEnd :=
    ⟨abreast.ended.of_suffix suffix (List.cons_ne_nil _ _),
      abreast.endedOther.of_suffix (skipUntilNext_suffix _ _ _) (List.cons_ne_nil _ _),
      common.1, common.2, abreast.recorded⟩
  exact along.passSemicolon seen ran

/-- A statement in two parts, the first of which ends on the last token of an expression. -/
theorem Closed.follow {α : Type} {head : Reader α} {ending : Reader Unit} {wrap : α → Stmt}
    (closed : course.Closed here) (abreast : course.Abreast here there)
    (first : course.First course.Inert head head) (settles : Settles head)
    (records : Unrecorded ending)
    (follow : ∀ middle middleOther value later, course.Closed middle →
      course.Abreast middle middleOther → course.Reaches False middle →
      endsExpression middle.current.kind → ending middle = .ok value later →
        ∃ laterOther, ending middleOther = .ok value laterOther ∧ course.Abreast later laterOther)
    {value : Stmt}
    (ran : (head >>= fun found => ending >>= fun _ => pure (wrap found)) here = .ok value later)
    (clears : ∀ diagnostic ∈ later.recorded, course.Clear diagnostic) :
    ∃ laterOther, (head >>= fun found => ending >>= fun _ => pure (wrap found)) there =
        .ok value laterOther ∧ course.Abreast later laterOther := by
  obtain ⟨found, middle, ranHead, ran⟩ := Run.bind_eq_ok ran
  obtain ⟨done, final, ranEnding, ran⟩ := Run.bind_eq_ok ran
  cases ran
  have cites := first.here here abreast.ended
  rw [ranHead] at cites
  have suffix : middle.tokens <:+ here.tokens := Cursor.Notes.tokens cites
  have ends := settles here found middle abreast.ended ranHead
  have seen := closed.reaches abreast.ended suffix ends
  have endedMiddle := (Cursor.Notes.onward cites).ended abreast.ended
  rw [records middle done later endedMiddle ranEnding] at clears
  obtain ⟨middleOther, ranOther, along⟩ := (first.mirrors here there abreast).ok found middle
    ranHead (seen.mono False.elim) clears
  obtain ⟨laterOther, ranEndingOther, alongLater⟩ := follow middle middleOther done later
    (closed.onward suffix along.held) along seen ends ranEnding
  refine ⟨laterOther, ?_, alongLater⟩
  rw [Run.bind_apply, ranOther]
  simp only [Run.bind_apply, ranEndingOther]
  rfl

/-- A statement that is read up to the last semicolon at most is read alike on the other side. -/
theorem Closed.statement {depth : Nat} (closed : course.Closed here)
    (abreast : course.Abreast here there) {value : Stmt}
    (ran : statement (expression .standard depth) here = .ok value later)
    (clears : ∀ diagnostic ∈ later.recorded, course.Clear diagnostic) :
    ∃ laterOther, Reader.statement (expression .standard depth) there = .ok value laterOther ∧
      course.Abreast later laterOther := by
  have first (minimum : Precedence) :
      course.First course.Inert (expression .standard depth minimum)
        (expression .standard depth minimum) := first_expression depth minimum
  have onward := local_expression depth
  have settles := settles_expression depth
  rw [statement_apply] at ran
  rw [statement_apply, ← abreast.kind]
  by_cases isLet : here.current.kind = .letWord
  · rw [if_pos isLet, define_eq] at ran ⊢
    exact closed.follow abreast (rest_definition first).first (settles_definition onward settles)
      unrecorded_endStatement (fun _ _ _ _ closed abreast _ ends => closed.endStatement abreast ends)
      ran clears
  rw [if_neg isLet] at ran ⊢
  by_cases isReturn : here.current.kind = .returnWord
  · rw [if_pos isReturn, returning_eq] at ran ⊢
    exact closed.follow abreast ((first .lowest).afterAdvance).first
      (Settles.after forward_advance.here fun _ => settles .lowest) unrecorded_endStatement
      (fun _ _ _ _ closed abreast _ ends => closed.endStatement abreast ends) ran clears
  · rw [if_neg isReturn, exprStatement_eq] at ran ⊢
    exact closed.follow abreast (first .lowest) (settles .lowest) unrecorded_passSemicolon
      (fun _ _ _ _ _ abreast seen _ => abreast.passSemicolon seen) ran clears

/-- A bad statement is left at the last semicolon at the latest. -/
theorem Closed.leftStatement (closed : course.Closed here) :
    course.Reaches True here.leftStatement := by
  obtain ⟨front, semicolon, ending, split, isSemicolon, rest⟩ := closed.last
  refine .inr (.inr ⟨trivial, ?_⟩)
  rw [rest]
  exact Nat.succ_lt_succ (length_skipUntil_pos split (by simp [isSemicolon]))

/-! ## The statements of a program -/

section Loop

variable {depth : Nat}

/-- A round that ends at the last semicolon at the latest ends alike on the other side, if a bad
statement is left there in the same way. -/
theorem Closed.round {leave : Cursor → Cursor} (closed : course.Closed here)
    (abreast : course.Abreast here there) {found : Option (Option Stmt)}
    (ran : (Reader.statement (expression .standard depth) here).round
      (fun bad => bad.leftStatement.step) = .ok found later)
    (clears : ∀ diagnostic ∈ later.recorded, course.Clear diagnostic)
    (leaves : later.recorded ≠ [] → ∀ bad badOther, bad.tokens <:+ here.tokens →
      course.Closed bad → course.Abreast bad badOther →
        leave badOther = badOther.leftStatement.step) :
    ∃ laterOther, (Reader.statement (expression .standard depth) there).round leave =
        .ok found laterOther ∧ course.Beside later laterOther := by
  have first : course.First course.Final (Reader.statement (expression .standard depth))
    (Reader.statement (expression .standard depth)) := first_statement (first_expression depth)
  have cites := first.here here abreast.ended
  cases outcome : Reader.statement (expression .standard depth) here with
  | ok value middle =>
      rw [outcome] at ran cites
      cases ran
      obtain ⟨middleOther, ranOther, along⟩ :=
        closed.statement abreast outcome (by simpa using clears)
      rw [ranOther]
      exact ⟨_, rfl, (closed.onward (Cursor.Notes.tokens cites) along.held).step along⟩
  | raised diagnostic middle =>
      rw [outcome] at ran cites
      cases ran
      simp only [Cursor.step_recorded, Cursor.leftStatement, Cursor.moveTo, Cursor.noted,
        List.mem_append, List.mem_singleton] at clears
      obtain ⟨complaint, middleOther, ranOther, alike, along⟩ :=
        (first.mirrors here there abreast).raised diagnostic middle outcome
          (clears _ (.inr rfl)) fun other member => clears other (.inl member)
      rw [ranOther]
      -- the complaint leaves the cursor where it is, before the last semicolon or on it
      have closedNoted : course.Closed (middle.noted diagnostic) :=
        closed.onward cites.1.tokens along.held
      have alongNoted := along.noted alike
      have alongLeft := alongNoted.leftStatement closedNoted.leftStatement
      have closedLeft : course.Closed (middle.noted diagnostic).leftStatement :=
        closedNoted.onward (Cursor.onward_leftStatement _).tokens alongLeft.held
      have left := leaves (by simp [Cursor.leftStatement, Cursor.moveTo, Cursor.noted])
        (middle.noted diagnostic) _ cites.1.tokens closedNoted alongNoted
      exact ⟨_, congrArg (Outcome.ok _) left, closedLeft.step alongLeft⟩
  | halted why =>
      rw [outcome] at ran
      cases ran

theorem Closed.programRound (closed : course.Closed here) (abreast : course.Abreast here there)
    {found : Option (Option Stmt)}
    (ran : programRound (Reader.statement (expression .standard depth)) here = .ok found later)
    (clears : ∀ diagnostic ∈ later.recorded, course.Clear diagnostic) :
    ∃ laterOther, Reader.programRound (Reader.statement (expression .standard depth)) there =
        .ok found laterOther ∧ course.Beside later laterOther := by
  have inside := closed.inside abreast.ended
  have onward := local_statement (local_expression depth)
  rw [programRound_eq onward abreast.ended inside] at ran
  rw [programRound_eq onward abreast.endedOther (abreast.kind ▸ inside)]
  exact closed.round abreast ran clears fun _ _ _ _ _ _ => rfl

/-- Up to the last semicolon that both sides share the same statements are read; what follows on
the other side is read as a program of its own. -/
theorem Beside.programRest {rounds : Nat} {statements : Block}
    (ended : Ended here.tokens) (beside : course.Beside here there)
    (endOfInput : ∀ token ∈ course.rest, token.kind = .endOfInput)
    (ran : programRest (statement (expression .standard depth)) rounds here =
      .ok statements later)
    (clears : ∀ diagnostic ∈ later.recorded, course.Clear diagnostic) :
    ∃ used laterOther, course.Beside later laterOther ∧ later.tokens = course.rest ∧ ∀ more,
      Reader.programRest (Reader.statement (expression .standard depth)) (used + more) there =
        (Reader.programRest (Reader.statement (expression .standard depth)) more >>=
          fun others => pure (statements ++ others)) laterOther := by
  induction rounds generalizing here there statements with
  | zero => cases ran
  | succ rounds ih =>
      cases beside with
      | behind tokens tokensOther recorded =>
          have atEnd : here.current.kind = .endOfInput :=
            endOfInput _ (tokens ▸ List.mem_cons_self)
          rw [programRest_succ, Run.bind_apply, programRound_atEnd _ atEnd] at ran
          cases ran
          refine ⟨0, there, .behind tokens tokensOther recorded, tokens, fun more => ?_⟩
          simp
      | before closed abreast =>
          obtain ⟨first, middle, others, ranRound, onward, ranRest, onwardRest, rfl⟩ :=
            programRest_succ_ok (local_statement (local_expression depth)) ended
              (closed.inside ended) ran
          obtain ⟨middleOther, ranOther, besideMiddle⟩ := closed.programRound abreast ranRound
            fun diagnostic member => clears diagnostic (onwardRest.recorded.subset member)
          obtain ⟨used, laterOther, besideLater, tokens, goesOn⟩ :=
            ih (onward.ended ended) besideMiddle ranRest
          refine ⟨used + 1, laterOther, besideLater, tokens, fun more => ?_⟩
          rw [Nat.add_right_comm, programRest_succ, Run.bind_apply, ranOther]
          show (Reader.programRest _ (used + more) >>= fun others =>
            pure (first.toList ++ others)) middleOther = _
          rw [Run.bind_apply, goesOn more, Run.bind_apply, Run.bind_apply]
          cases Reader.programRest (Reader.statement (expression .standard depth)) more
            laterOther <;> simp

end Loop

end Course

/-! ## Two texts -/

def Diagnostic.moved (distance : Nat) : Diagnostic → Diagnostic
  | .unexpected expected got position => .unexpected expected got (position + distance)
  | .noExpression kind position => .noExpression kind (position + distance)
  | .illegal literal position => .illegal literal (position + distance)
  | .badInteger literal position => .badInteger literal (position + distance)

theorem Diagnostic.moved_notLeading (distance : Nat) (token : Token) :
    (Diagnostic.notLeading token).moved distance =
      Diagnostic.notLeading (token.moved distance) := by
  unfold Diagnostic.notLeading
  show Diagnostic.moved distance _ = if token.kind = .illegal then _ else _
  split <;> rfl

namespace Course

def moved (distance : Nat) (before : List Diagnostic) : Course where
  Same token twin := twin = token.moved distance
  kind_eq := by rintro token _ rfl; rfl
  literal_eq := by rintro token _ rfl; rfl
  rest := []
  other := []
  ends_iff := Iff.rfl
  before := before

theorem common_moved (distance : Nat) (before : List Diagnostic) (list : List Token) :
    (moved distance before).Common list (list.map (Token.moved distance)) := by
  induction list with
  | nil => exact .rest
  | cons token list ih => exact .cons (rfl : token.moved distance = _) ih

theorem abreast_moved {list : List Token} (ended : Ended list) {there : Cursor}
    (endedOther : Ended there.tokens) {distance : Nat}
    (tokens : there.tokens = list.map (Token.moved distance)) :
    (moved distance there.recorded).Abreast (.start list) there := by
  obtain ⟨token, ahead, rfl⟩ := List.exists_cons_of_ne_nil ended.ne_nil
  obtain ⟨current, others⟩ := List.cons.inj tokens
  have common := common_moved distance there.recorded ahead
  exact ⟨ended, endedOther, current, others ▸ common, [], .nil, (List.append_nil _).symm⟩

theorem alikes_moved {distance : Nat} {before diagnostics twins : List Diagnostic}
    (alikes : List.Forall₂ (moved distance before).Alike diagnostics twins) :
    twins = diagnostics.map (Diagnostic.moved distance) := by
  induction alikes with
  | nil => rfl
  | cons alike _ ih =>
      rw [ih, List.map_cons]
      cases alike with
      | unexpected expected same => rw [show _ = _ from same]; rfl
      | notLeading same => rw [show _ = _ from same, Diagnostic.moved_notLeading]
      | badInteger same => rw [show _ = _ from same]; rfl

theorem Abreast.recorded_moved {distance : Nat} {before : List Diagnostic} {here there : Cursor}
    (abreast : (moved distance before).Abreast here there) :
    there.recorded = before ++ here.recorded.map (Diagnostic.moved distance) := by
  obtain ⟨new, alikes, recorded⟩ := abreast.recorded
  rw [recorded, alikes_moved alikes]
  rfl

end Course

theorem read_eq {source : String} {bound : Nat} (enough : (tokens source).length ≤ bound) :
    ∃ statements later,
      Reader.programRest (Reader.statement (Reader.expression .standard bound)) bound
        (.start (tokens source)) = .ok statements later ∧
      read source = ⟨⟨statements⟩, later.recorded, true⟩ := by
  have ended := ended_tokens source
  obtain ⟨token, ahead, listed⟩ := List.exists_cons_of_ne_nil ended.ne_nil
  have program := Reader.program_eq_readTokens .standard ended enough
  rw [listed] at ended enough program ⊢
  have endedStart : Ended (Cursor.start (token :: ahead)).tokens := ended
  obtain ⟨statements, later, ran, _⟩ := Reader.programRest_ok
    (Reader.steady_statement (Reader.steady_expression .standard bound)) endedStart enough enough
  refine ⟨statements, later, ran, ?_⟩
  rw [read, readWith, listed, ← program, Reader.program, Run.bind_apply, ran]
  rfl

/-- Up to the semicolon it does not matter whether the end of the input stands behind it or other
tokens do. -/
theorem programRest_append {front others : List Token} {semicolon ending : Token}
    (ended : Ended (front ++ [semicolon, ending])) (endedOther : Ended (front ++ semicolon :: others))
    (more : others ≠ []) (isSemicolon : semicolon.kind = .semicolon)
    (atEnd : ending.kind = .endOfInput) {bound rounds : Nat} {statements : Block} {later : Cursor}
    (ran : Reader.programRest (Reader.statement (Reader.expression .standard bound)) rounds
      (.start (front ++ [semicolon, ending])) = .ok statements later)
    (inside : ∀ diagnostic ∈ later.recorded, diagnostic.position ≠ ending.start) :
    ∃ used laterOther, laterOther.tokens = others ∧ laterOther.recorded = later.recorded ∧
      ∀ extra,
        Reader.programRest (Reader.statement (Reader.expression .standard bound)) (used + extra)
            (.start (front ++ semicolon :: others)) =
          (Reader.programRest (Reader.statement (Reader.expression .standard bound)) extra >>=
            fun rest => pure (statements ++ rest)) laterOther := by
  let course : Course := .same [ending] others [] (by simp [more])
  have abreast : course.Abreast (.start (front ++ [semicolon, ending]))
      (.start (front ++ semicolon :: others)) := by
    rw [List.append_cons] at ended endedOther ⊢
    rw [List.append_cons front semicolon others]
    exact Course.abreast_start (by simp) ended endedOther
  have closed : course.Closed (.start (front ++ [semicolon, ending])) :=
    ⟨front, semicolon, ending, by cases front <;> rfl, isSemicolon, rfl⟩
  have clears : ∀ diagnostic ∈ later.recorded, course.Clear diagnostic := by
    intro diagnostic member points
    exact inside diagnostic member (List.mem_singleton.mp points)
  obtain ⟨used, laterOther, beside, tokens, goesOn⟩ :=
    (Course.Beside.before closed abreast).programRest abreast.ended
      (fun token member => (List.mem_singleton.mp member) ▸ atEnd) ran clears
  cases beside with
  | before _ along => exact absurd (tokens ▸ along.held) (Nat.lt_irrefl _)
  | behind _ tokensOther recorded =>
      obtain ⟨new, alikes, recorded⟩ := recorded
      exact ⟨used, laterOther, tokensOther, recorded.trans (Course.alikes_same alikes), goesOn⟩

/-- What is read behind the last semicolon of the first text is the second text, further on. -/
theorem programRest_moved {list : List Token} (ended : Ended list) {there : Cursor}
    (endedOther : Ended there.tokens) {distance : Nat}
    (tokens : there.tokens = list.map (Token.moved distance)) {bound : Nat} {statements : Block}
    {later : Cursor}
    (ran : Reader.programRest (Reader.statement (Reader.expression .standard bound)) bound
      (.start list) = .ok statements later) :
    ∃ laterOther,
      Reader.programRest (Reader.statement (Reader.expression .standard bound)) bound there =
        .ok statements laterOther ∧
      laterOther.recorded =
        there.recorded ++ later.recorded.map (Diagnostic.moved distance) := by
  obtain ⟨laterOther, ranOther, along⟩ :=
    (Course.abreast_moved ended endedOther tokens).programRest rfl ran
  exact ⟨laterOther, ranOther, along.recorded_moved⟩

/-- A text that ends with a semicolon, with nothing wrong at its end, and another one behind it are
read like each of them on its own. -/
theorem read_append {first : String} {front : List Token} {semicolon ending : Token}
    (ends : tokens first = front ++ [semicolon, ending])
    (isSemicolon : semicolon.kind = .semicolon)
    (inside : ∀ diagnostic ∈ (read first).diagnostics,
      diagnostic.position ≠ first.utf8ByteSize)
    (second : String) :
    read (first ++ second) =
      ⟨⟨(read first).program.statements ++ (read second).program.statements⟩,
        (read first).diagnostics ++
          (read second).diagnostics.map (Diagnostic.moved first.utf8ByteSize), true⟩ := by
  let bound := (tokens first).length + (tokens second).length
  let stmt := Reader.statement (Reader.expression .standard bound)
  let others := (tokens second).map (Token.moved first.utf8ByteSize)
  have both : tokens (first ++ second) = front ++ semicolon :: others :=
    tokens_append ends isSemicolon second
  have ending_eq := tokens_ending (ends.trans (List.append_cons _ _ _))
  have enoughFirst : (tokens first).length ≤ bound := Nat.le_add_right _ _
  have enoughSecond : (tokens second).length ≤ bound := Nat.le_add_left _ _
  have enoughBoth : (tokens (first ++ second)).length ≤ bound := by
    simp only [both, bound, ends, others, List.length_append, List.length_cons, List.length_nil,
      List.length_map]
    omega
  obtain ⟨statements, later, ran, readFirst⟩ := read_eq enoughFirst
  obtain ⟨statementsSecond, laterSecond, ranSecond, readSecond⟩ := read_eq enoughSecond
  obtain ⟨statementsBoth, laterBoth, ranBoth, readBoth⟩ := read_eq enoughBoth
  have endedFirst := ended_tokens first
  have endedBoth := ended_tokens (first ++ second)
  have nonempty : others ≠ [] := by simpa [others] using (ended_tokens second).ne_nil
  rw [readFirst] at inside
  rw [ends] at ran endedFirst
  rw [both] at ranBoth endedBoth
  obtain ⟨used, middle, tokensMiddle, recordedMiddle, goesOn⟩ := programRest_append endedFirst
    endedBoth nonempty isSemicolon (by rw [ending_eq]) ran (by rwa [ending_eq])
  have endedMiddle : Ended middle.tokens := by
    rw [tokensMiddle]
    exact endedBoth.of_suffix ((List.suffix_cons _ _).trans (List.suffix_append _ _)) nonempty
  obtain ⟨final, ranFinal, recordedFinal⟩ := programRest_moved (ended_tokens second) endedMiddle
    tokensMiddle ranSecond
  have whole := goesOn bound
  rw [Run.bind_apply, ranFinal] at whole
  -- the rounds that were spent on the first text do no harm
  have extend : Run.Extends (Reader.programRest stmt bound)
      (Reader.programRest stmt (used + bound)) :=
    Reader.extends_programRest (Run.Extends.refl _) (Nat.le_add_left _ _)
  have same := (extend _).resolve_left (by rintro ⟨why, halted⟩; cases ranBoth.symm.trans halted)
  obtain ⟨rfl, rfl⟩ : statements ++ statementsSecond = statementsBoth ∧ final = laterBoth := by
    simpa using whole.symm.trans (same.trans ranBoth)
  rw [readBoth, readFirst, readSecond, recordedFinal, recordedMiddle]

/-- Both texts may have something wrong with them. -/
theorem read_append_recovered :
    read ("let = 1; " ++ "2; )") =
      ⟨⟨[.expr (.integer 2)]⟩,
        [.unexpected .name .assign 4, .noExpression .rightParen 12], true⟩ := by
  have ends : tokens "let = 1; " =
      [⟨.letWord, "let", 0, 3⟩, ⟨.assign, "=", 4, 5⟩, ⟨.integer, "1", 6, 7⟩] ++
        [⟨.semicolon, ";", 7, 8⟩, ⟨.endOfInput, "", 9, 9⟩] := by decide
  have endsSecond : tokens "2; )" =
      [⟨.integer, "2", 0, 1⟩, ⟨.semicolon, ";", 1, 2⟩, ⟨.rightParen, ")", 3, 4⟩,
        ⟨.endOfInput, "", 4, 4⟩] := by decide
  have first : read "let = 1; " = ⟨⟨[]⟩, [.unexpected .name .assign 4], true⟩ := by
    rw [read, readWith, ends]
    cbv
  have second : read "2; )" = ⟨⟨[.expr (.integer 2)]⟩, [.noExpression .rightParen 3], true⟩ := by
    rw [read, readWith, endsSecond]
    cbv
  rw [read_append ends rfl (by rw [first]; decide) "2; )", first, second]
  rfl

end Scriptlet
