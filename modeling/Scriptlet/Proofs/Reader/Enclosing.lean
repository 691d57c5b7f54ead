import Scriptlet.Proofs.Reader.Braceless
import Scriptlet.Proofs.Reader.Earliest

/-!
# A text as the body of a function

The loop over the statements of a block ends at a closing brace, where the loop over a program ends
at the end of the input, and it leaves a bad statement in another way: it counts braces, and stops
at the one that closes the block. For a text that ends with a semicolon none of this makes a
difference, if there are no braces in it or nothing is wrong with it. `read_enclosed` says that such
a text, as the body of a function, is read as on its own.
-/
set_option autoImplicit false

namespace Scriptlet

open Token (Kind)

theorem Ended.inside_of_append {front rest : List Token} (ended : Ended (front ++ rest))
    (more : rest ≠ []) : ∀ token ∈ front, token.kind ≠ .endOfInput := by
  induction front with
  | nil => simp
  | cons first front ih =>
      refine List.forall_mem_cons.mpr ⟨fun atEnd => ?_, ih ?_⟩
      · have nothing := ended.rest_eq_nil_iff.mpr atEnd
        exact more (List.append_eq_nil_iff.mp nothing).2
      · exact ended.of_suffix (List.suffix_cons _ _) (List.append_ne_nil_of_right_ne_nil _ more)

/-! ## One statement -/

namespace Reader

variable {depth : Nat} {cursor later : Cursor}

/-- No statement begins with a closing brace, so that a program has something to complain about. -/
theorem programRound_closing {found : Option (Option Stmt)} (ended : Ended cursor.tokens)
    (closing : cursor.current.kind = .rightBrace)
    (ran : programRound (statement (expression .standard depth)) cursor = .ok found later) :
    later.recorded ≠ [] := by
  have inside : cursor.current.kind ≠ .endOfInput := by simp [closing]
  have noRule : cursor.current.kind.leading? = none := by
    rw [closing]
    rfl
  have bad : statement (expression .standard depth) cursor =
      exprStatement (expression .standard depth) cursor := by
    simp [statement_apply, closing]
  cases depth with
  | zero =>
      rw [programRound_halted inside bad] at ran
      cases ran
  | succ depth =>
      have raised : exprStatement (expression .standard (depth + 1)) cursor =
          .raised (.notLeading cursor.current) cursor := by
        simp only [exprStatement, expression, Run.bind_apply, operand_apply, noRule]
      rw [programRound_raised ended inside (bad.trans raised)] at ran
      cases ran
      simp [Cursor.leftStatement, Cursor.moveTo, Cursor.noted]

end Reader

namespace Course

open Reader

variable {ending closing : Token} {tail : List Token} {here there later : Cursor} {depth : Nat}

/-- On the one side the text ends behind the last semicolon, on the other side a block does. -/
abbrev enclosed (ending closing : Token) (tail : List Token) : Course :=
  .same [ending] (closing :: tail) [] (by simp)

/-- Without braces, a bad statement is left in the block as it is in the program. -/
theorem Closed.leftBlockStatement (closed : (enclosed ending closing tail).Closed here)
    (abreast : (enclosed ending closing tail).Abreast here there)
    (unbraced : Unbraced here.tokens) :
    there.leftBlockStatement = there.leftStatement.step := by
  obtain ⟨front, semicolon, last, split, isSemicolon, rest⟩ := closed.last
  obtain rfl : ending = last := List.singleton_inj.mp rest
  obtain ⟨shared, ahead, aheadOther⟩ := abreast.common.eq_append
  have same : here.current = there.current := abreast.same
  have passed : here.current :: shared = front ++ [semicolon] := by
    have whole : here.current :: shared ++ [ending] = front ++ [semicolon] ++ [ending] := by
      rw [List.append_assoc, List.singleton_append, ← split, Cursor.tokens, ahead,
        List.cons_append]
    exact List.append_cancel_right whole
  have splitOther : there.tokens = front ++ semicolon :: (closing :: tail) := by
    rw [Cursor.tokens, aheadOther, ← same, ← List.cons_append, passed, List.append_assoc,
      List.singleton_append]
  have ended := abreast.ended
  rw [split] at ended unbraced
  exact leftBlockStatement_eq splitOther (by simp) isSemicolon
    (unbraced.mono (List.subset_append_left _ _)) (ended.inside_of_append (by simp))

theorem Closed.blockRound (closed : (enclosed ending closing tail).Closed here)
    (abreast : (enclosed ending closing tail).Abreast here there) {found : Option (Option Stmt)}
    (ran : Reader.programRound (Reader.statement (expression .standard depth)) here =
      .ok found later)
    (clears : ∀ diagnostic ∈ later.recorded, (enclosed ending closing tail).Clear diagnostic)
    (plain : Unbraced here.tokens ∨ later.recorded = []) :
    ∃ laterOther, Reader.blockRound (Reader.statement (expression .standard depth)) there =
        .ok found laterOther ∧ (enclosed ending closing tail).Beside later laterOther := by
  have inside := closed.inside abreast.ended
  have onward := local_statement (local_expression depth)
  have unclosed : here.current.kind ≠ .rightBrace := by
    intro closes
    rcases plain with unbraced | clean
    · exact (unbraced here.current (List.mem_cons_self ..)).2 closes
    · exact programRound_closing abreast.ended closes ran clean
  rw [programRound_eq onward abreast.ended inside] at ran
  rw [blockRound_eq onward abreast.endedOther (abreast.kind ▸ unclosed) (abreast.kind ▸ inside)]
  refine closed.round abreast ran clears fun dirty bad badOther suffix closedBad along => ?_
  exact closedBad.leftBlockStatement along ((plain.resolve_right dirty).mono suffix.subset)

/-! ## All statements -/

/-- The block ends where the program does, with the same statements. -/
theorem Beside.blockRest {rounds : Nat} {statements : Block} (ended : Ended here.tokens)
    (beside : (enclosed ending closing tail).Beside here there)
    (atEnd : ending.kind = .endOfInput) (closes : closing.kind = .rightBrace)
    (ran : Reader.programRest (statement (expression .standard depth)) rounds here =
      .ok statements later)
    (clears : ∀ diagnostic ∈ later.recorded, (enclosed ending closing tail).Clear diagnostic)
    (plain : Unbraced here.tokens ∨ later.recorded = []) :
    ∃ laterOther,
      Reader.blockRest (statement (expression .standard depth)) rounds there =
        .ok statements laterOther ∧
      laterOther.tokens = closing :: tail ∧ laterOther.recorded = later.recorded := by
  induction rounds generalizing here there statements with
  | zero => cases ran
  | succ rounds ih =>
      rw [blockRest_succ]
      cases beside with
      | behind tokens tokensOther recorded =>
          have onEnding : here.current = ending := (List.cons.inj tokens).1
          have onClosing : there.current = closing := (List.cons.inj tokensOther).1
          rw [programRest_succ, Run.bind_apply, programRound_atEnd _ (onEnding ▸ atEnd)] at ran
          cases ran
          obtain ⟨new, alikes, recorded⟩ := recorded
          refine ⟨there, ?_, tokensOther, recorded.trans (alikes_same alikes)⟩
          rw [Run.bind_apply, blockRound_closing _ (onClosing ▸ closes)]
          rfl
      | before closed abreast =>
          obtain ⟨first, middle, others, ranRound, onward, ranRest, onwardRest, rfl⟩ :=
            programRest_succ_ok (local_statement (local_expression depth)) ended
              (closed.inside ended) ran
          have plainRound : Unbraced here.tokens ∨ middle.recorded = [] :=
            plain.imp_right fun clean : later.recorded = [] =>
              List.prefix_nil.mp (clean ▸ onwardRest.recorded)
          obtain ⟨middleOther, ranOther, besideMiddle⟩ := closed.blockRound abreast ranRound
            (fun diagnostic member => clears diagnostic (onwardRest.recorded.subset member))
            plainRound
          obtain ⟨laterOther, ranBlock, tokens, same⟩ :=
            ih (onward.ended ended) besideMiddle ranRest
              (plain.imp_left fun unbraced => unbraced.mono onward.tokens.subset)
          refine ⟨laterOther, ?_, tokens, same⟩
          rw [Run.bind_apply, ranOther]
          simp only [Run.bind_apply, ranBlock]
          rfl

end Course

/-! ## The text in braces -/

/-- Whatever stands behind the opening brace is lexed as a text of its own. -/
theorem tokens_enclosed (text : String) :
    tokens ("fn() \x7b" ++ text) =
      ⟨.functionWord, "fn", 0, 2⟩ :: ⟨.leftParen, "(", 2, 3⟩ :: ⟨.rightParen, ")", 3, 4⟩ ::
        ⟨.leftBrace, "\x7b", 5, 6⟩ :: (tokens text).map (Token.moved 6) := by
  refine Lexes.tokens_eq ?_
  rw [String.toList_append]
  have inner : Lexes 6 text.toList ((tokens text).map (Token.moved 6)) := by
    simpa using (lexes_tokens text).moved 6
  have brace : Lexes 4 ([' '] ++ '\x7b' :: text.toList) (_ :: _) :=
    .lexeme (List.forall_mem_singleton.mpr rfl) rfl inner
  have closing : Lexes 3 (')' :: ' ' :: '\x7b' :: text.toList) (_ :: _) :=
    .lexeme (List.forall_mem_nil _) rfl brace
  have opening : Lexes 2 ('(' :: ')' :: ' ' :: '\x7b' :: text.toList) (_ :: _) :=
    .lexeme (List.forall_mem_nil _) rfl closing
  exact .lexeme (List.forall_mem_nil _) rfl opening

namespace Reader

variable {word opening closing brace first : Token} {others : List Token}
  {recorded : List Diagnostic}

theorem function_apply {expr : Precedence → Reader Expr} {rounds : Nat}
    (opens : opening.kind = .leftParen) (closes : closing.kind = .rightParen)
    (isBrace : brace.kind = .leftBrace) :
    leadingForm expr rounds word .function
        ⟨word, opening :: closing :: brace :: first :: others, recorded⟩ =
      (blockRest (statement expr) rounds >>= fun body => pure (.function [] body))
        ⟨first, others, recorded⟩ := by
  simp [-bind_pure_comp, leadingForm, items, block, expect, peekIs, peek, advance, Run.bind_apply,
    Cursor.moveTo, opens, closes, isBrace]

theorem operators_atEnd {expr : Precedence → Reader Expr} {inner rounds : Nat}
    {minimum : Precedence} {left : Expr} {cursor : Cursor} (ended : Ended cursor.tokens)
    (atEnd : cursor.step.current.kind = .endOfInput) :
    operators .standard expr inner minimum (rounds + 1) left cursor = .ok left cursor := by
  rw [operators_succ, Run.bind_apply, operatorRound_apply ended, atEnd]
  simp [Kind.continuation?, Kind.precedence, Precedence.rank]

theorem programRest_function {depth rounds : Nat} {body : Block} {later : Cursor}
    (isFunction : word.kind = .functionWord) (opens : opening.kind = .leftParen)
    (closes : closing.kind = .rightParen) (isBrace : brace.kind = .leftBrace)
    (ran : blockRest (statement (expression .standard depth)) (depth + 1)
      ⟨first, others, recorded⟩ = .ok body later)
    (ended : Ended later.tokens) (atEnd : later.step.current.kind = .endOfInput) :
    programRest (statement (expression .standard (depth + 1))) (rounds + 2)
        ⟨word, opening :: closing :: brace :: first :: others, recorded⟩ =
      .ok [.expr (.function [] body)] later.step := by
  have read : statement (expression .standard (depth + 1))
      ⟨word, opening :: closing :: brace :: first :: others, recorded⟩ =
        .ok (.expr (.function [] body)) later := by
    have form : word.kind.leading? = some .function := by rw [isFunction]; rfl
    have noSemicolon : later.step.current.kind ≠ .semicolon := by simp [atEnd]
    rw [statement_apply, if_neg (by simp [isFunction]), if_neg (by simp [isFunction]),
      exprStatement_eq]
    simp only [expression, Run.bind_apply, operand_apply, form, function_apply opens closes isBrace,
      ran, Run.pure_apply, operators_atEnd ended atEnd, passSemicolon_eq ended, if_neg noSemicolon]
  rw [programRest_succ, Run.bind_apply, programRound_ok ended (by simp [isFunction]) read,
    programRest_succ]
  simp only [Run.bind_apply, programRound_atEnd _ atEnd]
  rfl

end Reader

section Lists

variable {front : List Token} {semicolon ending : Token} {bound rounds : Nat}
  {statements : Block} {later : Cursor}

/-- Without braces, nothing is wrong at the end of the input. -/
theorem position_ne_of_unbraced (ended : Ended (front ++ [semicolon, ending]))
    (increasing : (front ++ [semicolon, ending]).Pairwise fun token later =>
      token.start < later.start)
    (isSemicolon : semicolon.kind = .semicolon)
    (unbraced : Unbraced (front ++ [semicolon, ending]))
    (ran : Reader.programRest (Reader.statement (Reader.expression .standard bound)) rounds
      (.start (front ++ [semicolon, ending])) = .ok statements later)
    {diagnostic : Diagnostic} (found : diagnostic ∈ later.recorded) :
    diagnostic.position ≠ ending.start := by
  have tokens := Cursor.start_tokens ended.ne_nil
  have braceless : (Cursor.start (front ++ [semicolon, ending])).Braceless
      (front ++ [semicolon]) :=
    ⟨tokens ▸ ended, ⟨front, semicolon, ending, tokens, isSemicolon, List.Subset.refl _⟩,
      tokens ▸ unbraced⟩
  have cites : (Reader.programRest (Reader.statement (Reader.expression .standard bound)) rounds
      (.start (front ++ [semicolon, ending]))).Cites (front ++ [semicolon]) _ :=
    Reader.cites_programRest rounds braceless.ended (.inl braceless)
  rw [ran] at cites
  obtain ⟨token, member, start⟩ := List.mem_map.mp (cites.points (Cursor.start_recorded _) found)
  rw [List.append_cons] at increasing
  have before := (List.pairwise_append.mp increasing).2.2 token member ending (by simp)
  omega

/-- Up to the last semicolon, the statements of a program are those of a block. -/
theorem blockRest_of_programRest {tail : List Token} {closing : Token}
    (ended : Ended (front ++ [semicolon, ending]))
    (endedOther : Ended (front ++ semicolon :: closing :: tail))
    (increasing : (front ++ [semicolon, ending]).Pairwise fun token later =>
      token.start < later.start)
    (isSemicolon : semicolon.kind = .semicolon) (atEnd : ending.kind = .endOfInput)
    (closes : closing.kind = .rightBrace)
    (ran : Reader.programRest (Reader.statement (Reader.expression .standard bound)) rounds
      (.start (front ++ [semicolon, ending])) = .ok statements later)
    (plain : Unbraced (front ++ [semicolon, ending]) ∨ later.recorded = []) :
    ∃ laterOther,
      Reader.blockRest (Reader.statement (Reader.expression .standard bound)) rounds
          (.start (front ++ semicolon :: closing :: tail)) = .ok statements laterOther ∧
        laterOther.tokens = closing :: tail ∧ laterOther.recorded = later.recorded := by
  have tokens := Cursor.start_tokens ended.ne_nil
  have abreast : (Course.enclosed ending closing tail).Abreast
      (.start (front ++ [semicolon, ending])) (.start (front ++ semicolon :: closing :: tail)) := by
    rw [List.append_cons] at ended endedOther ⊢
    rw [List.append_cons front semicolon (closing :: tail)]
    exact Course.abreast_start (by simp) ended endedOther
  have closed : (Course.enclosed ending closing tail).Closed
      (.start (front ++ [semicolon, ending])) :=
    ⟨front, semicolon, ending, tokens, isSemicolon, rfl⟩
  have clears : ∀ diagnostic ∈ later.recorded,
      (Course.enclosed ending closing tail).Clear diagnostic := by
    intro diagnostic found points
    have atEnding : diagnostic.position = ending.start := List.mem_singleton.mp points
    rcases plain with unbraced | clean
    · exact position_ne_of_unbraced ended increasing isSemicolon unbraced ran found atEnding
    · simp [clean] at found
  exact (Course.Beside.before closed abreast).blockRest abreast.ended atEnd closes ran clears
    (tokens ▸ plain)

/-- The same block is read from tokens that stand further on. -/
theorem blockRest_moved {list : List Token} (ended : Ended list) {there : Cursor}
    (endedOther : Ended there.tokens) {distance : Nat}
    (tokens : there.tokens = list.map (Token.moved distance))
    (ran : Reader.blockRest (Reader.statement (Reader.expression .standard bound)) rounds
      (.start list) = .ok statements later) :
    ∃ laterOther,
      Reader.blockRest (Reader.statement (Reader.expression .standard bound)) rounds there =
        .ok statements laterOther ∧
      Ended laterOther.tokens ∧ laterOther.step.current.kind = later.step.current.kind ∧
      laterOther.recorded =
        there.recorded ++ later.recorded.map (Diagnostic.moved distance) := by
  obtain ⟨laterOther, ranOther, along⟩ :=
    (Course.abreast_moved ended endedOther tokens).blockRest rfl ran
  exact ⟨laterOther, ranOther, along.endedOther, (along.step (.inl rfl)).kind.symm,
    along.recorded_moved⟩

end Lists

/-- What a function reads behind its opening brace is what a block reads from the text there. -/
theorem read_function {text : String} {count : Nat} {body : Block} {later : Cursor}
    (enough : (tokens ("fn() \x7b" ++ text)).length ≤ count + 2)
    (ran : Reader.blockRest (Reader.statement (Reader.expression .standard (count + 1))) (count + 1)
      (.start (tokens text)) = .ok body later)
    (atEnd : later.step.current.kind = .endOfInput) :
    read ("fn() \x7b" ++ text) =
      ⟨⟨[.expr (.function [] body)]⟩, later.recorded.map (Diagnostic.moved 6), true⟩ := by
  have ended := ended_tokens text
  obtain ⟨first, others, isMoved⟩ := List.exists_cons_of_ne_nil
    (mt List.map_eq_nil_iff.mp ended.ne_nil : (tokens text).map (Token.moved 6) ≠ [])
  have whole := tokens_enclosed text
  rw [isMoved] at whole
  have endedBody : Ended (Cursor.mk first others []).tokens := by
    refine (ended_tokens ("fn() \x7b" ++ text)).of_suffix ?_ (List.cons_ne_nil _ _)
    rw [whole]
    exact List.suffix_append [_, _, _, _] _
  obtain ⟨laterMoved, ranMoved, endedMoved, next, recorded⟩ :=
    blockRest_moved ended endedBody isMoved.symm ran
  -- one round more than there are rounds in the text does no harm
  have extend := Reader.extends_blockRest
    (Run.Extends.refl (Reader.statement (Reader.expression .standard (count + 1))))
    (Nat.le_succ (count + 1)) ⟨first, others, []⟩
  have ranMore := extend.resolve_left (by rintro ⟨why, halted⟩; cases ranMoved.symm.trans halted)
  obtain ⟨statements, final, ranWhole, readWhole⟩ := read_eq enough
  have program : Reader.programRest (Reader.statement (Reader.expression .standard (count + 2)))
      (count + 2) ⟨⟨.functionWord, "fn", 0, 2⟩, ⟨.leftParen, "(", 2, 3⟩ ::
        ⟨.rightParen, ")", 3, 4⟩ :: ⟨.leftBrace, "\x7b", 5, 6⟩ :: first :: others, []⟩ =
      .ok [.expr (.function [] body)] laterMoved.step :=
    Reader.programRest_function rfl rfl rfl rfl (ranMore.trans ranMoved) endedMoved
      (next.trans atEnd)
  rw [whole] at ranWhole
  cases ranWhole.symm.trans program
  rw [readWhole, Cursor.step_recorded, recorded, List.nil_append]

theorem tokens_closed {source : String} {front : List Token} {semicolon ending : Token}
    (ends : tokens source = front ++ [semicolon, ending])
    (isSemicolon : semicolon.kind = .semicolon) :
    ∃ closing final, tokens (source ++ "\x7d") = front ++ semicolon :: [closing, final] ∧
      closing.kind = .rightBrace ∧ final.kind = .endOfInput := by
  have brace : tokens "\x7d" = [⟨.rightBrace, "\x7d", 0, 1⟩, ⟨.endOfInput, "", 1, 1⟩] := by decide
  rw [tokens_append ends isSemicolon, brace]
  exact ⟨_, _, rfl, rfl, rfl⟩

/-- A text that ends with a semicolon is read as the body of a function as it is on its own, if
there are no braces in it or nothing is wrong with it. -/
theorem read_enclosed {source : String} {front : List Token} {semicolon ending : Token}
    (ends : tokens source = front ++ [semicolon, ending])
    (isSemicolon : semicolon.kind = .semicolon)
    (plain : Unbraced (tokens source) ∨ (read source).diagnostics = []) :
    read ("fn() \x7b" ++ source ++ "\x7d") =
      ⟨⟨[.expr (.function [] (read source).program.statements)]⟩,
        (read source).diagnostics.map (Diagnostic.moved 6), true⟩ := by
  obtain ⟨closing, final, listed, closes, atEnd⟩ := tokens_closed ends isSemicolon
  rw [String.append_assoc]
  let count := (tokens ("fn() \x7b" ++ (source ++ "\x7d"))).length
  have enough : (tokens source).length ≤ count + 1 := by
    simp only [count, tokens_enclosed, listed, ends, List.length_map, List.length_append,
      List.length_cons, List.length_nil]
    omega
  obtain ⟨statements, later, ran, readSource⟩ := read_eq enough
  rw [readSource] at plain ⊢
  have ended := ended_tokens source
  have endedBlock := ended_tokens (source ++ "\x7d")
  have increasing := increasing_tokens source
  have ending_eq := tokens_ending (ends.trans (List.append_cons _ _ _))
  rw [ends] at ran plain ended increasing
  rw [listed] at endedBlock
  obtain ⟨laterBlock, ranBlock, tokensBlock, recorded⟩ := blockRest_of_programRest ended endedBlock
    increasing isSemicolon (by rw [ending_eq]) closes ran plain
  rw [← listed] at ranBlock
  have next : laterBlock.step.current = final := by
    rw [Cursor.step, (List.cons.inj tokensBlock).2]
  rw [read_function (Nat.le_add_right count 2) ranBlock (next ▸ atEnd), recorded]

/-- There may be something wrong with the one text, and there are braces in the other. -/
theorem read_enclosed_either :
    read ("fn() \x7b" ++ "let = 1; 2;" ++ "\x7d") =
        ⟨⟨[.expr (.function [] [.expr (.integer 2)])]⟩, [.unexpected .name .assign 10], true⟩ ∧
      read ("fn() \x7b" ++ "if x \x7b 1 \x7d;" ++ "\x7d") =
        ⟨⟨[.expr (.function [] [.expr (.conditional (.name "x") [.expr (.integer 1)] none)])]⟩, [],
          true⟩ := by
  have ends : tokens "let = 1; 2;" =
      [⟨.letWord, "let", 0, 3⟩, ⟨.assign, "=", 4, 5⟩, ⟨.integer, "1", 6, 7⟩,
        ⟨.semicolon, ";", 7, 8⟩, ⟨.integer, "2", 9, 10⟩] ++
        [⟨.semicolon, ";", 10, 11⟩, ⟨.endOfInput, "", 11, 11⟩] := by decide
  have endsBraced : tokens "if x \x7b 1 \x7d;" =
      [⟨.ifWord, "if", 0, 2⟩, ⟨.name, "x", 3, 4⟩, ⟨.leftBrace, "\x7b", 5, 6⟩,
        ⟨.integer, "1", 7, 8⟩, ⟨.rightBrace, "\x7d", 9, 10⟩] ++
        [⟨.semicolon, ";", 10, 11⟩, ⟨.endOfInput, "", 11, 11⟩] := by decide
  have bad : read "let = 1; 2;" =
      ⟨⟨[.expr (.integer 2)]⟩, [.unexpected .name .assign 4], true⟩ := by
    rw [read, readWith, ends]
    cbv
  have braced : read "if x \x7b 1 \x7d;" =
      ⟨⟨[.expr (.conditional (.name "x") [.expr (.integer 1)] none)]⟩, [], true⟩ := by
    rw [read, readWith, endsBraced]
    cbv
  have unbraced : Unbraced (tokens "let = 1; 2;") := by
    rw [ends, Unbraced]
    decide
  rw [read_enclosed ends rfl (.inl unbraced), read_enclosed endsBraced rfl (.inr (by rw [braced])),
    bad, braced]
  exact ⟨rfl, rfl⟩

end Scriptlet
