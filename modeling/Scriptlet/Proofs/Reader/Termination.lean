import Scriptlet.Proofs.Reader.Progress

/-!
# Reading always ends

A `Feed` is what a reader holds of its text when tokens are asked for one at a time: the lexer, the
token under consideration and the one after it. Moving on asks the lexer for a token unless the
end of the input is already there. `Feed.Valid` is what holds of a feed at all times; in
particular no token is asked for after the end. A cursor over the list of all tokens shows what
the feed holds (`Feed.cursor`), and moves as the feed does.

`reading_ends_at_end_of_input` puts this together with the progress of all loops.
-/
set_option autoImplicit false

namespace Scriptlet

open Token (Kind)

/-- A lexer with the last two tokens that it gave out, the first of which is under consideration,
and with all tokens that were asked for so far. -/
structure Feed where
  lexer : Lexer
  current : Token
  next : Token
  requested : List Token

namespace Feed

/-- Asks for the first two tokens of a text. If the first one is the end it is also the next. -/
def start (source : String) : Except Lexer.Fault Feed := do
  let (current, lexer) ← (Lexer.ofSource source).nextToken
  if current.kind = .endOfInput then
    return ⟨lexer, current, current, [current]⟩
  else
    let (next, lexer) ← lexer.nextToken
    return ⟨lexer, current, next, [current, next]⟩

def advance (feed : Feed) : Except Lexer.Fault Feed :=
  if feed.next.kind = .endOfInput then
    return { feed with current := feed.next }
  else do
    let (next, lexer) ← feed.lexer.nextToken
    return ⟨lexer, feed.next, next, feed.requested ++ [next]⟩

inductive Reached (source : String) : Feed → Prop
  | start {feed : Feed} (begun : start source = .ok feed) : Reached source feed
  | advance {feed later : Feed} (reached : Reached source feed)
      (moved : feed.advance = .ok later) : Reached source later

def cursor (feed : Feed) (recorded : List Diagnostic) : Cursor :=
  ⟨feed.current,
    if feed.current.kind = .endOfInput then [] else feed.next :: feed.lexer.remaining, recorded⟩

/-- What holds of a feed at all times: the lexer has given out the end exactly if the end is next,
the tokens asked for and those still held are the tokens of the text, and the end is followed by
itself. -/
structure Valid (source : String) (feed : Feed) : Prop where
  finished_iff : feed.lexer.finished = true ↔ feed.next.kind = .endOfInput
  requested : feed.requested ++ feed.lexer.remaining = tokens source
  settled : feed.current.kind = .endOfInput → feed.next = feed.current

theorem nextToken_ok (lexer : Lexer) (going : lexer.finished = false) :
    ∃ token later, lexer.nextToken = .ok (token, later) ∧
      lexer.remaining = token :: later.remaining ∧
      (later.finished = true ↔ token.kind = .endOfInput) := by
  rcases lexer.next_cases with ⟨finished, _⟩ | ⟨_, token, later, step, cases⟩
  · simp [going] at finished
  · refine ⟨token, later, by simp [Lexer.nextToken, step], Lexer.remaining_cons _ _ _ step, ?_⟩
    rcases cases with ⟨atEnd, finished⟩ | ⟨inside, going, _⟩
    · simp [atEnd, finished]
    · simp [inside, going]

theorem start_ok (source : String) :
    ∃ feed, start source = .ok feed ∧ feed.Valid source ∧
      feed.cursor [] = .start (tokens source) := by
  obtain ⟨current, lexer, first, remaining, finished⟩ :=
    nextToken_ok (Lexer.ofSource source) rfl
  rw [← tokens_eq_remaining] at remaining
  by_cases atEnd : current.kind = .endOfInput
  · refine ⟨⟨lexer, current, current, [current]⟩, ?_, ⟨finished, remaining.symm, fun _ => rfl⟩, ?_⟩
    · simp [start, first, atEnd, bind, Except.bind, pure, Except.pure]
    · rw [remaining, Lexer.remaining, lexer.take_of_finished (finished.mpr atEnd)]
      simp [cursor, atEnd, Cursor.start]
  · have going : lexer.finished = false := by simpa [atEnd] using finished
    obtain ⟨next, later, second, rest, finishedLater⟩ := nextToken_ok lexer going
    refine ⟨⟨later, current, next, [current, next]⟩, ?_, ⟨finishedLater, ?_, ?_⟩, ?_⟩
    · simp [start, first, second, atEnd, bind, Except.bind, pure, Except.pure]
    · rw [remaining, rest]
      rfl
    · exact fun same => absurd same atEnd
    · rw [remaining, rest]
      simp [cursor, atEnd, Cursor.start]

theorem Valid.ended {source : String} {feed : Feed} (valid : feed.Valid source)
    (recorded : List Diagnostic) : Ended (feed.cursor recorded).tokens := by
  unfold cursor Cursor.tokens
  by_cases atEnd : feed.current.kind = .endOfInput
  · simpa [atEnd] using Ended.last atEnd
  · rw [if_neg atEnd]
    refine .cons atEnd ?_
    by_cases last : feed.next.kind = .endOfInput
    · rw [Lexer.remaining, Lexer.take_of_finished _ (valid.finished_iff.mpr last)]
      exact .last last
    · refine .cons last (Lexer.ended_remaining _ ?_)
      simpa [last] using valid.finished_iff

/-- Moving on never fails, and is the same for the feed and for the cursor that shows it. -/
theorem Valid.advance {source : String} {feed : Feed} (valid : feed.Valid source) :
    ∃ later, feed.advance = .ok later ∧ later.Valid source ∧
      ∀ recorded, later.cursor recorded = (feed.cursor recorded).step := by
  by_cases last : feed.next.kind = .endOfInput
  · refine ⟨{ feed with current := feed.next }, by simp [Feed.advance, last, pure, Except.pure],
      ⟨valid.finished_iff, valid.requested, fun _ => rfl⟩, fun recorded => ?_⟩
    by_cases atEnd : feed.current.kind = .endOfInput
    · simp [cursor, Cursor.step, atEnd, valid.settled atEnd]
    · simp [cursor, Cursor.step, last, atEnd, Lexer.remaining,
        Lexer.take_of_finished _ (valid.finished_iff.mpr last)]
  · have inside : feed.current.kind ≠ .endOfInput := by
      intro atEnd
      rw [valid.settled atEnd] at last
      exact last atEnd
    have going : feed.lexer.finished = false := by simpa [last] using valid.finished_iff
    obtain ⟨next, lexer, step, remaining, finished⟩ := nextToken_ok feed.lexer going
    refine ⟨⟨lexer, feed.next, next, feed.requested ++ [next]⟩, ?_, ⟨finished, ?_, ?_⟩, ?_⟩
    · simp [Feed.advance, last, step, bind, Except.bind, pure, Except.pure]
    · rw [← valid.requested, remaining]
      simp
    · exact fun atEnd => absurd atEnd last
    · intro recorded
      simp [cursor, Cursor.step, inside, last, remaining]

theorem Reached.valid {source : String} {feed : Feed} (reached : Reached source feed) :
    feed.Valid source := by
  induction reached with
  | start begun =>
      obtain ⟨feed, started, valid, _⟩ := start_ok source
      rw [started] at begun
      cases begun
      exact valid
  | advance reached moved ih =>
      obtain ⟨later, advanced, valid, _⟩ := ih.advance
      rw [advanced] at moved
      cases moved
      exact valid

/-- Every place further on is the place of a feed that can be reached. -/
theorem Reached.onward {source : String} {feed : Feed} (reached : Reached source feed)
    {recorded : List Diagnostic} {later : Cursor} (onward : (feed.cursor recorded).Onward later) :
    ∃ reachedLater, Reached source reachedLater ∧ later = reachedLater.cursor later.recorded := by
  induction size : (feed.cursor recorded).tokens.length using Nat.strong_induction_on
    generalizing feed with
  | _ size ih =>
      rcases List.suffix_cons_iff.mp onward.tokens with same | further
      · obtain ⟨sameCurrent, sameAhead⟩ := List.cons.inj same
        exact ⟨feed, reached, congr (congrArg₂ Cursor.mk sameCurrent sameAhead) rfl⟩
      · -- the place lies behind the current token, which therefore is not the last one
        have ended := reached.valid.ended recorded
        have inside : (feed.cursor recorded).current.kind ≠ .endOfInput := by
          intro atEnd
          rw [(Cursor.ahead_eq_nil_iff ended).mpr atEnd] at further
          exact absurd (List.suffix_nil.mp further) (by simp [Cursor.tokens])
        obtain ⟨next, moved, _, shows⟩ := reached.valid.advance
        have stepped := Cursor.tokens_step_of_inside ended inside
        have onwardNext : (next.cursor recorded).Onward later := by
          rw [shows]
          exact ⟨by rw [stepped]; exact further, by simpa using onward.recorded⟩
        refine ih _ ?_ (reached.advance moved) onwardNext rfl
        rw [shows, ← size]
        exact Cursor.length_step_lt ended inside

/-- One move of a reader that stands where the feed stands: it sees the two tokens of the feed, and
goes where the feed goes. -/
structure Moves (feed later : Feed) : Prop where
  advance : feed.advance = .ok later
  seesCurrent : ∀ recorded,
    Reader.current (feed.cursor recorded) = .ok feed.current (feed.cursor recorded)
  seesNext : ∀ recorded, Reader.peek (feed.cursor recorded) = .ok feed.next (feed.cursor recorded)
  readerAdvance : ∀ recorded,
    Reader.advance (feed.cursor recorded) = .ok () (later.cursor recorded)

theorem Valid.moves {source : String} {feed : Feed} (valid : feed.Valid source) :
    ∃ later, feed.Moves later := by
  obtain ⟨later, moved, _, shows⟩ := valid.advance
  refine ⟨later, moved, fun _ => rfl, fun recorded => ?_, fun recorded => ?_⟩
  · rw [Reader.peek_eq (valid.ended recorded)]
    by_cases atEnd : feed.current.kind = .endOfInput
    · simp [cursor, Cursor.step, atEnd, valid.settled atEnd]
    · simp [cursor, Cursor.step, atEnd]
  · rw [Reader.advance_eq (valid.ended recorded), shows]

/-- Once the end is under consideration every token of the text was asked for, and asked for
once. -/
theorem Valid.requested_eq {source : String} {feed : Feed} (valid : feed.Valid source)
    (atEnd : feed.current.kind = .endOfInput) : feed.requested = tokens source := by
  have finished : feed.lexer.finished = true := by
    rw [valid.finished_iff, valid.settled atEnd]
    exact atEnd
  rw [← valid.requested, Lexer.remaining, Lexer.take_of_finished _ finished, List.append_nil]

end Feed

namespace Reader

def Fed {α : Type} (source : String) (run : Reader α) : Prop :=
  ∀ feed recorded, Feed.Reached source feed →
    (run (feed.cursor recorded)).Ends fun cursor =>
      ∃ later, Feed.Reached source later ∧ cursor = later.cursor cursor.recorded

theorem length_cursor_le {source : String} {feed : Feed} (reached : Feed.Reached source feed)
    (recorded : List Diagnostic) :
    (feed.cursor recorded).tokens.length ≤ (tokens source).length := by
  induction reached with
  | @start feed begun =>
      obtain ⟨first, started, _, shows⟩ := Feed.start_ok source
      obtain rfl : first = feed := Except.ok.inj (started.symm.trans begun)
      have same : (first.cursor recorded).tokens = (first.cursor []).tokens := rfl
      rw [same, shows]
      cases list : tokens source with
      | nil => exact absurd list (ended_tokens source).ne_nil
      | cons token rest => exact le_rfl
  | advance reached moved ih =>
      obtain ⟨later, advanced, _, shows⟩ := reached.valid.advance
      rw [advanced] at moved
      cases moved
      rw [shows]
      exact (Cursor.onward_step _).length_le.trans ih

theorem Steady.fed {α : Type} {source : String} {run : Reader α}
    (steady : Steady (tokens source).length run) : Fed source run := by
  intro feed recorded reached
  have short := length_cursor_le reached recorded
  exact (steady (feed.cursor recorded) (reached.valid.ended recorded) short).mono
    fun _ onward => reached.onward onward

/-! ## The depth of braces -/

def braceStep : Kind → Int
  | .leftBrace => 1
  | .rightBrace => -1
  | _ => 0

def braceBalance : List Token → Int
  | [] => 0
  | token :: rest => braceStep token.kind + braceBalance rest

theorem braceStep_of_other {kind : Kind} (opening : kind ≠ .leftBrace)
    (closing : kind ≠ .rightBrace) : braceStep kind = 0 := by
  cases kind <;> simp_all [braceStep]

theorem balance_nil (depth : Nat) :
    ∀ front : List Token, front <+: [] → 0 ≤ (depth : Int) + braceBalance front := by
  intro front none
  rw [List.prefix_nil.mp none]
  simp [braceBalance]

theorem balance_cons {depth inner : Nat} {token : Token} {passed : List Token}
    (counted : (inner : Int) = depth + braceStep token.kind)
    (balanced : ∀ front, front <+: passed → 0 ≤ (inner : Int) + braceBalance front) :
    ∀ front, front <+: token :: passed → 0 ≤ (depth : Int) + braceBalance front := by
  intro front before
  rcases List.prefix_cons_iff.mp before with rfl | ⟨rest, rfl, restBefore⟩
  · simp [braceBalance]
  · have below := balanced rest restBefore
    simp only [braceBalance]
    omega

/-- The count of open braces that is kept while a bad statement of a block is left never falls
below zero. -/
theorem skipInBlock_balance (depth : Nat) (current : Token) (ahead : List Token) :
    ∃ passed, current :: ahead =
        passed ++ (skipInBlock depth current ahead).1 :: (skipInBlock depth current ahead).2 ∧
      ∀ front, front <+: passed → 0 ≤ (depth : Int) + braceBalance front := by
  induction ahead generalizing depth current with
  | nil => exact ⟨[], rfl, balance_nil depth⟩
  | cons next ahead ih =>
      -- a token that is passed changes the count by what it adds, and the rest goes on from there
      have pass (inner : Nat) (counted : (inner : Int) = depth + braceStep current.kind) :
          ∃ passed, current :: next :: ahead =
              passed ++ (skipInBlock inner next ahead).1 :: (skipInBlock inner next ahead).2 ∧
            ∀ front, front <+: passed → 0 ≤ (depth : Int) + braceBalance front := by
        obtain ⟨passed, split, balanced⟩ := ih inner next
        exact ⟨current :: passed, by rw [split]; rfl, balance_cons counted balanced⟩
      unfold skipInBlock
      split
      · exact ⟨[], rfl, balance_nil _⟩
      · rename_i semicolon
        refine ⟨[current], rfl, balance_cons ?_ (balance_nil 0)⟩
        simp [semicolon, braceStep]
      · exact ⟨[], rfl, balance_nil _⟩
      · rename_i inner closing
        refine pass inner ?_
        rw [closing, braceStep]
        omega
      · rename_i opening
        exact pass _ (by simp [opening, braceStep])
      · rename_i count _ _ _ opening _ closingAtZero closingAbove
        have closing : current.kind ≠ .rightBrace := by
          intro closing
          cases count with
          | zero => exact closingAtZero closing rfl
          | succ inner => exact closingAbove inner closing rfl
        exact pass _ (by rw [braceStep_of_other opening closing, Int.add_zero])

/-! ## Loops and the whole -/

/-- A round of any loop of the reader, whatever the rules, ends the loop or passes a token. The
loops that skip tokens go over the list of tokens one by one. -/
structure LoopsProgress (handlers : Handlers) : Prop where
  program : ∀ bound, Round bound (programRound (statement (expression handlers bound)))
  block : ∀ bound, Round bound (blockRound (statement (expression handlers bound)))
  operators : ∀ bound minimum left,
    Round (bound + 1)
      (operatorRound handlers (expression handlers bound) (bound + 1) minimum left)
  elements : ∀ bound, Round bound (itemRound (expression handlers bound .lowest))
  pairs : ∀ bound, Round bound (itemRound (pair (expression handlers bound)))
  parameters : ∀ bound, Round bound (itemRound parameter)
  endStatement : ∀ stops current next ahead,
    skipUntilNext stops current (next :: ahead) = (current, next :: ahead) ∨
      skipUntilNext stops current (next :: ahead) = skipUntilNext stops next ahead
  leaveStatement : ∀ stops current next ahead,
    skipUntil stops current (next :: ahead) = (current, next :: ahead) ∨
      skipUntil stops current (next :: ahead) = skipUntil stops next ahead
  leaveBlockStatement : ∀ depth current next ahead,
    skipInBlock depth current (next :: ahead) = (current, next :: ahead) ∨
      skipInBlock depth current (next :: ahead) = (next, ahead) ∨
        ∃ inner, skipInBlock depth current (next :: ahead) = skipInBlock inner next ahead

theorem loopsProgress (handlers : Handlers) : LoopsProgress handlers where
  program bound := round_program (steady_statement (steady_expression handlers bound))
  block bound := round_block (steady_statement (steady_expression handlers bound))
  operators bound minimum left :=
    round_operator (steady_extend (steady_expression handlers bound) bound.le_succ) minimum left
  elements bound := round_item (steady_expression handlers bound .lowest)
  pairs bound := round_item (steady_pair (steady_expression handlers bound))
  parameters _ := round_item steady_parameter
  endStatement stops current next ahead := by
    by_cases stop : stops next.kind = true
    · exact .inl (by simp [skipUntilNext, stop])
    · exact .inr (by simp [skipUntilNext, stop])
  leaveStatement stops current next ahead := by
    by_cases stop : stops current.kind = true
    · exact .inl (by simp [skipUntil, stop])
    · exact .inr (by simp [skipUntil, stop])
  leaveBlockStatement depth current next ahead := by
    rw [skipInBlock.eq_def]
    split
    · rename_i impossible
      cases impossible
    · rename_i same
      cases same
      split
      · exact .inl rfl
      · exact .inr (.inl rfl)
      · exact .inl rfl
      · exact .inr (.inr ⟨_, rfl⟩)
      · exact .inr (.inr ⟨_, rfl⟩)
      · exact .inr (.inr ⟨_, rfl⟩)

end Reader

theorem program_reached (handlers : Handlers) (source : String) {bound : Nat}
    (enough : (tokens source).length ≤ bound) :
    ∃ program feed recorded,
      (Reader.program handlers bound).exec (.start (tokens source)) =
          .ok program (feed.cursor recorded) ∧
        Feed.Reached source feed ∧ feed.current.kind = .endOfInput := by
  obtain ⟨first, begun, _, shows⟩ := Feed.start_ok source
  have reached : Feed.Reached source first := .start begun
  have short := Reader.length_cursor_le reached []
  obtain ⟨program, later, run, onward, atEnd⟩ :=
    Reader.program_ok handlers (reached.valid.ended []) (short.trans enough)
  obtain ⟨feed, reachedLater, same⟩ := reached.onward onward
  rw [same] at run atEnd
  rw [shows] at run
  exact ⟨program, feed, _, run, reachedLater, atEnd⟩

/-- Whatever the text and the rules, reading comes to the end of the text. No token is asked for
after the end: wherever the reader may stand, the lexer has given out the end exactly if the end
is the next token, and another move succeeds. Every loop makes progress, the count of open braces
stays at zero or above, and any bound that is no smaller than the number of tokens leads to the
end of the input, when each token has been asked for once. -/
theorem reading_ends_at_end_of_input (handlers : Handlers) (source : String) :
    (∃ first, Feed.start source = .ok first ∧ first.cursor [] = .start (tokens source)) ∧
    (∀ feed, Feed.Reached source feed →
      (feed.lexer.finished = true ↔ feed.next.kind = .endOfInput) ∧ ∃ later, feed.Moves later) ∧
    (∀ minimum, Reader.Fed source (Reader.expression handlers (tokens source).length minimum)) ∧
    Reader.Fed source (Reader.statement (Reader.expression handlers (tokens source).length)) ∧
    Reader.Fed source
      (Reader.block (Reader.expression handlers (tokens source).length) (tokens source).length) ∧
    Reader.LoopsProgress handlers ∧
    (∀ depth current ahead, ∃ passed,
      current :: ahead =
          passed ++ (skipInBlock depth current ahead).1 :: (skipInBlock depth current ahead).2 ∧
        ∀ front, front <+: passed → 0 ≤ (depth : Int) + Reader.braceBalance front) ∧
    (∀ bound, (tokens source).length ≤ bound → ∃ program feed recorded,
      (Reader.program handlers bound).exec (.start (tokens source)) =
          .ok program (feed.cursor recorded) ∧
        Feed.Reached source feed ∧ feed.current.kind = .endOfInput ∧
        feed.requested = tokens source) ∧
    (readWith handlers source).complete = true := by
  have steady := Reader.steady_expression handlers (tokens source).length
  refine ⟨?_, ?_, fun minimum => (steady minimum).fed, (Reader.steady_statement steady).fed,
    (Reader.steady_block steady le_rfl).fed, Reader.loopsProgress handlers,
    Reader.skipInBlock_balance, ?_, ?_⟩
  · obtain ⟨first, begun, _, shows⟩ := Feed.start_ok source
    exact ⟨first, begun, shows⟩
  · intro feed reached
    exact ⟨reached.valid.finished_iff, reached.valid.moves⟩
  · intro bound enough
    obtain ⟨program, feed, recorded, run, reached, atEnd⟩ :=
      program_reached handlers source enough
    exact ⟨program, feed, recorded, run, reached, atEnd, reached.valid.requested_eq atEnd⟩
  · obtain ⟨program, feed, recorded, run, _, _⟩ := program_reached handlers source le_rfl
    rw [readWith, readTokens, run]
    rfl

end Scriptlet
