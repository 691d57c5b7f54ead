import Scriptlet.Proofs.Phrase.Completeness

/-!
# What the reader reads is derived

A reading that gives a value and records nothing follows the grammar: the tokens that it passed
derive the value. A bad statement inside a block leaves its mark in the record, so that a clean
record excludes the recovery from errors.

This module takes expressions as given and goes through everything that is made of them, from the
items of a list to the statements of a program. A loop is followed round by round; its later rounds
tell that the earlier ones were clean.
-/
set_option autoImplicit false

namespace Scriptlet

open Token (Kind)

def Leading.kind : Leading → Kind
  | .name => .name
  | .integer => .integer
  | .string => .string
  | .boolean true => .trueWord
  | .boolean false => .falseWord
  | .unary .negate => .minus
  | .unary .not => .bang
  | .group => .leftParen
  | .array => .leftBracket
  | .hash => .leftBrace
  | .conditional => .ifWord
  | .function => .functionWord

theorem kind_of_leading {kind : Kind} {form : Leading} (begins : kind.leading? = some form) :
    kind = form.kind := by
  cases kind <;> cases begins <;> rfl

/-! ## Places of a reading -/

namespace Cursor

structure Ready (bound : Nat) (cursor : Cursor) : Prop where
  ended : Ended cursor.tokens
  short : cursor.tokens.length ≤ bound

structure Within (bound : Nat) (cursor : Cursor) : Prop where
  ended : Ended cursor.tokens
  inside : cursor.current.kind ≠ .endOfInput
  short : cursor.tokens.length ≤ bound + 1

variable {bound : Nat} {cursor later : Cursor}

theorem Onward.ready (onward : cursor.Onward later) (ready : cursor.Ready bound) :
    later.Ready bound :=
  ⟨onward.ended ready.ended, onward.length_le.trans ready.short⟩

theorem Ready.step (ready : cursor.Ready bound) : cursor.step.Ready bound :=
  cursor.onward_step.ready ready

theorem Ready.within (ready : cursor.Ready bound) (inside : cursor.current.kind ≠ .endOfInput) :
    cursor.Within bound :=
  ⟨ready.ended, inside, ready.short.trans bound.le_succ⟩

theorem Within.step (within : cursor.Within bound) : cursor.step.Ready bound := by
  have shorter := length_step_lt within.ended within.inside
  have short := within.short
  exact ⟨cursor.onward_step.ended within.ended, by omega⟩

theorem Within.ahead_eq (within : cursor.Within bound) : cursor.ahead = cursor.step.tokens :=
  (tokens_step_of_inside within.ended within.inside).symm

theorem Within.tokens_eq (within : cursor.Within bound) :
    cursor.tokens = cursor.current :: cursor.step.tokens := by
  rw [← within.ahead_eq]
  rfl

theorem Onward.clean (onward : cursor.Onward later) (clean : later.recorded = []) :
    cursor.recorded = [] :=
  List.prefix_nil.mp (clean ▸ onward.recorded)

end Cursor

namespace Reader

variable {α β : Type} {bound rounds : Nat} {cursor later : Cursor}

theorem Steady.onward {run : Reader α} (steady : Steady bound run) (ready : cursor.Ready bound)
    {value : α} (ran : run cursor = .ok value later) : cursor.Onward later := by
  have ends := steady cursor ready.ended ready.short
  rw [ran] at ends
  exact ends

theorem Steady.onward_raised {run : Reader α} (steady : Steady bound run)
    (ready : cursor.Ready bound) {diagnostic : Diagnostic}
    (ran : run cursor = .raised diagnostic later) : cursor.Onward later := by
  have ends := steady cursor ready.ended ready.short
  rw [ran] at ends
  exact ends

theorem SteadyInside.onward {run : Reader α} (steady : SteadyInside bound run)
    (within : cursor.Within bound) {value : α} (ran : run cursor = .ok value later) :
    cursor.Onward later := by
  have ends := steady cursor within.ended within.inside within.short
  rw [ran] at ends
  exact ends

theorem current_ok {next : Token → Reader α} {value : α}
    (ran : (current >>= next) cursor = .ok value later) :
    next cursor.current cursor = .ok value later :=
  ran

theorem peek_ok {next : Token → Reader α} {value : α} (ended : Ended cursor.tokens)
    (ran : (peek >>= next) cursor = .ok value later) :
    next cursor.step.current cursor = .ok value later := by
  rw [Run.bind_apply, peek_eq ended] at ran
  exact ran

theorem advance_ok {next : Unit → Reader α} {value : α} (ended : Ended cursor.tokens)
    (ran : (advance >>= next) cursor = .ok value later) :
    next () cursor.step = .ok value later := by
  rw [Run.bind_apply, advance_eq ended] at ran
  exact ran

theorem expect_ok {next : Unit → Reader α} {kind : Kind} {value : α}
    (ended : Ended cursor.tokens) (ran : (expect kind >>= next) cursor = .ok value later) :
    cursor.step.current.kind = kind ∧ next () cursor.step = .ok value later := by
  rw [Run.bind_apply, expect_eq ended] at ran
  split at ran
  · rename_i found
    split at found
    · rename_i here
      cases found
      exact ⟨here, ran⟩
    · cases found
  · cases ran
  · cases ran

theorem peekIs_ok {next : Bool → Reader α} {kind : Kind} {value : α}
    (ended : Ended cursor.tokens) (ran : (peekIs kind >>= next) cursor = .ok value later) :
    next (decide (cursor.step.current.kind = kind)) cursor = .ok value later := by
  rw [Run.bind_apply, peekIs_eq ended] at ran
  exact ran

/-! ## Phrases that were found -/

/-- The tokens from the cursor on derive the value, up to the last token of the phrase, on which
the later cursor stands. -/
structure Found (phrase : Phrase) (cursor : Cursor) (value : phrase.Tree) (later : Cursor) :
    Prop where
  derives : Phrase.Derives phrase cursor.tokens value later.ahead
  inside : later.current.kind ≠ .endOfInput

def Sound (bound : Nat) (phrase : Phrase) (run : Reader phrase.Tree) : Prop :=
  ∀ cursor value later, cursor.Ready bound → run cursor = .ok value later →
    later.recorded = [] → Found phrase cursor value later

theorem Found.next {phrase : Phrase} {value : phrase.Tree} (found : Found phrase cursor value later)
    (ready : later.Ready bound) : Phrase.Derives phrase cursor.tokens value later.step.tokens := by
  rw [← (ready.within found.inside).ahead_eq]
  exact found.derives

/-! ## Items -/

theorem sound_parameter : Sound bound (.item .parameter) parameter := by
  intro cursor value later ready ran clean
  simp only [parameter, Run.bind_apply, current] at ran
  split at ran
  · rename_i isName
    cases ran
    exact ⟨.parameter isName, by rw [isName]; decide⟩
  · cases ran

section Items

variable {what : Item} {run : Reader what.Tree} {close : Kind}

theorem found_itemsRest (steady : Steady bound run) (sound : Sound bound (.item what) run)
    {others : List what.Tree} (ready : cursor.Ready bound)
    (inside : cursor.current.kind ≠ .endOfInput) (enough : cursor.tokens.length ≤ rounds)
    (ran : itemsRest run rounds cursor = .ok others later) (clean : later.recorded = []) :
    later.current.kind ≠ .endOfInput ∧ ∀ closing rest, later.ahead = closing :: rest →
      closing.kind = close → Phrase.Derives (.itemsRest what close) cursor.ahead others rest := by
  induction rounds generalizing cursor others with
  | zero => cases ran
  | succ rounds ih =>
      have within := ready.within inside
      have ran := peekIs_ok ready.ended ran
      by_cases comma : cursor.step.current.kind = .comma
      · have withinComma := ready.step.within (by rw [comma]; decide)
        simp only [comma, decide_true, if_true] at ran
        have ran := advance_ok ready.step.ended (advance_ok ready.ended ran)
        have start := ready.step.step
        obtain ⟨next, middle, ranItem, ran⟩ := Run.bind_eq_ok ran
        obtain ⟨rest, final, ranRest, ran⟩ := Run.bind_eq_ok ran
        cases ran
        have onward := steady.onward start ranItem
        have readyRest := onward.ready start
        have shorter : middle.tokens.length ≤ rounds := by
          have passed := Cursor.length_step_lt ready.ended inside
          have further := (cursor.step.onward_step.trans onward).length_le
          omega
        have onwardRest := (steady_itemsRest (steady.mono readyRest.short) shorter).onward
          ⟨readyRest.ended, le_rfl⟩ ranRest
        have found := sound _ _ _ start ranItem (onwardRest.clean clean)
        obtain ⟨insideRest, derives⟩ := ih readyRest found.inside shorter ranRest
        refine ⟨insideRest, fun closing rest here closes => ?_⟩
        rw [within.ahead_eq, withinComma.tokens_eq]
        exact .itemsMore comma found.derives (derives closing rest here closes)
      · simp only [comma, decide_false] at ran
        cases ran
        refine ⟨inside, fun closing rest here closes => ?_⟩
        rw [within.ahead_eq] at here ⊢
        obtain ⟨rfl, rfl⟩ := List.cons.inj here
        exact .itemsEnd closes comma

theorem found_items (steady : Steady bound run) (sound : Sound bound (.item what) run)
    {list : List what.Tree} (closable : close ≠ .endOfInput) (within : cursor.Within bound)
    (enough : bound ≤ rounds) (ran : items close run rounds cursor = .ok list later)
    (clean : later.recorded = []) :
    later.current.kind ≠ .endOfInput ∧
      Phrase.Derives (.items what close) cursor.ahead list later.ahead := by
  have ran := peekIs_ok within.ended ran
  by_cases closes : cursor.step.current.kind = close
  · simp only [closes, decide_true, if_true] at ran
    have ran := advance_ok within.ended ran
    cases ran
    refine ⟨by rw [closes]; exact closable, ?_⟩
    rw [within.ahead_eq]
    exact .itemsNone closes
  · simp only [closes, decide_false] at ran
    have ran := advance_ok within.ended ran
    have start := within.step
    obtain ⟨first, middle, ranItem, ran⟩ := Run.bind_eq_ok ran
    obtain ⟨others, final, ranRest, ran⟩ := Run.bind_eq_ok ran
    have readyRest := (steady.onward start ranItem).ready start
    have onwardRest := (steady_itemsRest steady enough).onward readyRest ranRest
    have readyLast := onwardRest.ready readyRest
    obtain ⟨here, ran⟩ := expect_ok readyLast.ended ran
    cases ran
    rw [Cursor.step_recorded] at clean
    have found := sound _ _ _ start ranItem (onwardRest.clean clean)
    obtain ⟨insideRest, derives⟩ := found_itemsRest steady sound readyRest found.inside
      (readyRest.short.trans enough) ranRest clean
    refine ⟨by rw [here]; exact closable, ?_⟩
    rw [within.ahead_eq]
    exact .itemsSome closes found.derives
      (derives _ _ (readyLast.within insideRest).ahead_eq here)

end Items

/-! ## Statements -/

theorem exists_ending {list : List Token} (ended : Ended list) :
    ∃ rest, Phrase.Ending list rest ∧ rest ≠ [] := by
  induction ended with
  | last atEnd => exact ⟨_, .endOfInput atEnd, List.cons_ne_nil _ _⟩
  | @cons token list inside ended ih =>
      by_cases semicolon : token.kind = .semicolon
      · exact ⟨list, .semicolon semicolon, ended.ne_nil⟩
      by_cases brace : token.kind = .rightBrace
      · exact ⟨_, .brace brace, List.cons_ne_nil _ _⟩
      obtain ⟨rest, ending, more⟩ := ih
      exact ⟨rest, .junk semicolon brace inside ending, more⟩

theorem found_endStatement {value : Unit} (within : cursor.Within bound)
    (ran : endStatement cursor = .ok value later) :
    Phrase.Ending cursor.ahead later.ahead ∧ later.current.kind ≠ .endOfInput ∧
      later.recorded = cursor.recorded := by
  have endedAhead : Ended cursor.ahead := by
    rw [within.ahead_eq]
    exact within.step.ended
  obtain ⟨rest, ending, more⟩ := exists_ending endedAhead
  obtain ⟨last, ranEnding⟩ := leadsOn_endStatement ending cursor.current cursor.recorded
  cases ran.symm.trans ranEnding
  have onward := (steady_endStatement.inside).onward within ran
  refine ⟨ending, fun atEnd => more ?_, rfl⟩
  exact (Cursor.ahead_eq_nil_iff (onward.ended within.ended)).mpr atEnd

theorem attempt_ok {run : Reader α} {next : Except Diagnostic α → Reader β} {value : β}
    (ran : (Run.attempt run >>= next) cursor = .ok value later) :
    (∃ first middle, run cursor = .ok first middle ∧ next (.ok first) middle = .ok value later) ∨
      ∃ diagnostic middle, run cursor = .raised diagnostic middle ∧
        next (.error diagnostic) middle = .ok value later := by
  rw [Run.bind_apply, Run.attempt] at ran
  cases outcome : run cursor with
  | ok first middle =>
      rw [outcome] at ran
      exact .inl ⟨first, middle, rfl, ran⟩
  | raised diagnostic middle =>
      rw [outcome] at ran
      exact .inr ⟨diagnostic, middle, rfl, ran⟩
  | halted why =>
      rw [outcome] at ran
      cases ran

theorem noted_not_clean {diagnostic : Diagnostic} (onward : (cursor.noted diagnostic).Onward later)
    (clean : later.recorded = []) : False := by
  have empty := onward.clean clean
  simp [Cursor.noted] at empty

theorem found_blockRest {stmt : Reader Stmt} (steady : Steady bound stmt)
    (sound : Sound bound .statement stmt) {body : List Stmt} (ready : cursor.Ready bound)
    (enough : cursor.tokens.length ≤ rounds) (ran : blockRest stmt rounds cursor = .ok body later)
    (clean : later.recorded = []) :
    later.current.kind = .rightBrace ∧
      Phrase.Derives (.statements .rightBrace) cursor.tokens body later.tokens := by
  induction rounds generalizing cursor body with
  | zero => cases ran
  | succ rounds ih =>
      have ran := current_ok ran
      by_cases closing : cursor.current.kind = .rightBrace
      · rw [if_pos closing] at ran
        cases ran
        exact ⟨closing, .statementsEnd closing⟩
      rw [if_neg closing] at ran
      by_cases atEnd : cursor.current.kind = .endOfInput
      · rw [if_pos atEnd] at ran
        cases ran
      rw [if_neg atEnd] at ran
      rcases attempt_ok ran with ⟨first, middle, ranFirst, ran⟩ | ⟨diagnostic, middle, raised, ran⟩
      · have onward := steady.onward ready ranFirst
        have readyMiddle := onward.ready ready
        have ran := advance_ok readyMiddle.ended ran
        obtain ⟨others, final, ranRest, ran⟩ := Run.bind_eq_ok ran
        cases ran
        have shorter : middle.step.tokens.length ≤ rounds := by
          have passed := Cursor.length_step_lt_of_onward onward ready.ended atEnd
          omega
        have onwardRest := (steady_blockRest (steady.mono readyMiddle.step.short) shorter).onward
          ⟨readyMiddle.step.ended, le_rfl⟩ ranRest
        have cleanFirst := onwardRest.clean clean
        rw [Cursor.step_recorded] at cleanFirst
        have found := sound _ _ _ ready ranFirst cleanFirst
        obtain ⟨closes, derives⟩ := ih readyMiddle.step shorter ranRest
        exact ⟨closes, .statementsMore closing (found.next readyMiddle) derives⟩
      · -- a statement that failed is in the record
        have noted := (steady.onward_raised ready raised).trans (middle.onward_noted diagnostic)
        have left := noted.trans (Cursor.onward_leftBlockStatement _)
        have shorter : (middle.noted diagnostic).leftBlockStatement.tokens.length ≤ rounds := by
          have passed := Cursor.length_leftBlockStatement_lt noted ready.ended closing atEnd
          omega
        have onwardRest := (steady_blockRest (steady.mono (left.ready ready).short) shorter).onward
          ⟨(left.ready ready).ended, le_rfl⟩ ran
        exact (noted_not_clean ((Cursor.onward_leftBlockStatement _).trans onwardRest) clean).elim

theorem onward_programRest {stmt : Reader Stmt} (steady : Steady bound stmt) {body : List Stmt}
    (ready : cursor.Ready bound) (enough : cursor.tokens.length ≤ rounds)
    (ran : programRest stmt rounds cursor = .ok body later) : cursor.Onward later := by
  obtain ⟨_, _, same, onward, _⟩ := programRest_ok steady ready.ended ready.short enough
  cases ran.symm.trans same
  exact onward

theorem found_programRest {stmt : Reader Stmt} (steady : Steady bound stmt)
    (sound : Sound bound .statement stmt) {body : List Stmt} (ready : cursor.Ready bound)
    (enough : cursor.tokens.length ≤ rounds)
    (ran : programRest stmt rounds cursor = .ok body later) (clean : later.recorded = []) :
    later.current.kind = .endOfInput ∧
      Phrase.Derives (.statements .endOfInput) cursor.tokens body later.tokens := by
  induction rounds generalizing cursor body with
  | zero => cases ran
  | succ rounds ih =>
      have ran := current_ok ran
      by_cases atEnd : cursor.current.kind = .endOfInput
      · rw [if_pos atEnd] at ran
        cases ran
        exact ⟨atEnd, .statementsEnd atEnd⟩
      rw [if_neg atEnd] at ran
      rcases attempt_ok ran with ⟨first, middle, ranFirst, ran⟩ | ⟨diagnostic, middle, raised, ran⟩
      · have onward := steady.onward ready ranFirst
        have readyMiddle := onward.ready ready
        have ran := advance_ok readyMiddle.ended ran
        obtain ⟨others, final, ranRest, ran⟩ := Run.bind_eq_ok ran
        cases ran
        have shorter : middle.step.tokens.length ≤ rounds := by
          have passed := Cursor.length_step_lt_of_onward onward ready.ended atEnd
          omega
        have onwardRest := onward_programRest steady readyMiddle.step shorter ranRest
        have cleanFirst := onwardRest.clean clean
        rw [Cursor.step_recorded] at cleanFirst
        have found := sound _ _ _ ready ranFirst cleanFirst
        obtain ⟨ends, derives⟩ := ih readyMiddle.step shorter ranRest
        exact ⟨ends, .statementsMore atEnd (found.next readyMiddle) derives⟩
      · have noted := (steady.onward_raised ready raised).trans (middle.onward_noted diagnostic)
        have left := noted.trans (Cursor.onward_leftStatement _)
        have readyLeft := left.ready ready
        have ran : (advance >>= fun _ => programRest stmt rounds)
            (middle.noted diagnostic).leftStatement = .ok body later := ran
        have ran := advance_ok readyLeft.ended ran
        have shorter :
            (middle.noted diagnostic).leftStatement.step.tokens.length ≤ rounds := by
          have passed := Cursor.length_step_lt_of_onward left ready.ended atEnd
          omega
        have onwardRest := onward_programRest steady readyLeft.step shorter ran
        have onwardNoted := (Cursor.onward_leftStatement _).trans
          ((Cursor.onward_step _).trans onwardRest)
        exact (noted_not_clean onwardNoted clean).elim

section Parts

variable {expr : Precedence → Reader Expr} (steady : ∀ minimum, Steady bound (expr minimum))
  (sound : ∀ minimum tier, minimum.tier? = some tier → Sound bound (.tier tier) (expr minimum))

include steady sound

theorem sound_pair : Sound bound (.item .pair) (pair expr) := by
  intro cursor value later ready ran clean
  obtain ⟨key, middle, ranKey, ran⟩ := Run.bind_eq_ok ran
  have readyKey := ((steady _).onward ready ranKey).ready ready
  obtain ⟨colon, ran⟩ := expect_ok readyKey.ended ran
  have withinColon := readyKey.step.within (by rw [colon]; decide)
  have ran := advance_ok readyKey.step.ended ran
  obtain ⟨element, final, ranElement, ran⟩ := Run.bind_eq_ok ran
  cases ran
  have onward := (steady _).onward readyKey.step.step ranElement
  have element := sound .lowest .equality rfl _ _ _ readyKey.step.step ranElement clean
  have cleanKey := onward.clean clean
  rw [Cursor.step_recorded, Cursor.step_recorded] at cleanKey
  have key := sound .lowest .equality rfl _ _ _ ready ranKey cleanKey
  refine ⟨.pair (key.next readyKey) colon ?_, element.inside⟩
  rw [withinColon.ahead_eq]
  exact element.derives

theorem sound_item (what : Item) : Sound bound (.item what) (what.reader expr) := by
  cases what with
  | parameter => exact sound_parameter
  | element =>
      intro cursor value later ready ran clean
      have found := sound .lowest .equality rfl _ _ _ ready ran clean
      exact ⟨.element found.derives, found.inside⟩
  | pair => exact sound_pair steady sound

omit sound in
theorem steady_item (what : Item) : Steady bound (what.reader expr) := by
  cases what with
  | parameter => exact steady_parameter
  | element => exact steady .lowest
  | pair => exact steady_pair steady

/-- The value of a definition or of a `return`, with all that belongs to the statement. -/
theorem found_toEnd {wrap : Expr → Stmt} {result : Stmt} (ready : cursor.Ready bound)
    (ran : (expr .lowest >>= fun value => endStatement >>= fun _ => pure (wrap value)) cursor =
      .ok result later) (clean : later.recorded = []) :
    later.current.kind ≠ .endOfInput ∧ ∃ value middle, result = wrap value ∧
      Phrase.Derives .expr cursor.tokens value middle ∧ Phrase.Ending middle later.ahead := by
  obtain ⟨value, middle, ranValue, ran⟩ := Run.bind_eq_ok ran
  obtain ⟨_, final, ranEnd, ran⟩ := Run.bind_eq_ok ran
  cases ran
  have readyEnd := ((steady _).onward ready ranValue).ready ready
  have onwardEnd := steady_endStatement.onward readyEnd ranEnd
  have found := sound .lowest .equality rfl _ _ _ ready ranValue (onwardEnd.clean clean)
  obtain ⟨ending, inside, _⟩ := found_endStatement (readyEnd.within found.inside) ranEnd
  exact ⟨inside, value, middle.ahead, rfl, found.derives, ending⟩

theorem sound_define (ready : cursor.Ready bound) (isLet : cursor.current.kind = .letWord)
    {result : Stmt} (ran : define expr cursor = .ok result later) (clean : later.recorded = []) :
    Found .statement cursor result later := by
  have within := ready.within (by rw [isLet]; decide)
  obtain ⟨isName, ran⟩ := expect_ok ready.ended ran
  have withinName := ready.step.within (by rw [isName]; decide)
  obtain ⟨isSign, ran⟩ := expect_ok ready.step.ended (current_ok ran)
  have withinSign := ready.step.step.within (by rw [isSign]; decide)
  have ran := advance_ok ready.step.step.ended ran
  obtain ⟨inside, value, middle, rfl, derives, ending⟩ :=
    found_toEnd steady sound ready.step.step.step ran clean
  refine ⟨?_, inside⟩
  rw [within.tokens_eq, withinName.tokens_eq, withinSign.tokens_eq]
  exact .define isLet isName isSign derives ending

theorem sound_returning (ready : cursor.Ready bound)
    (isReturn : cursor.current.kind = .returnWord) {result : Stmt}
    (ran : returning expr cursor = .ok result later) (clean : later.recorded = []) :
    Found .statement cursor result later := by
  have within := ready.within (by rw [isReturn]; decide)
  obtain ⟨inside, value, middle, rfl, derives, ending⟩ :=
    found_toEnd steady sound ready.step (advance_ok ready.ended ran) clean
  refine ⟨?_, inside⟩
  rw [within.tokens_eq]
  exact .returning isReturn derives ending

theorem sound_exprStatement (ready : cursor.Ready bound) {result : Stmt}
    (ran : exprStatement expr cursor = .ok result later) (clean : later.recorded = []) :
    Found .statement cursor result later := by
  obtain ⟨value, middle, ranValue, ran⟩ := Run.bind_eq_ok ran
  have readyEnd := ((steady _).onward ready ranValue).ready ready
  have found (cleanValue : middle.recorded = []) :=
    sound .lowest .equality rfl _ _ _ ready ranValue cleanValue
  have ran := peekIs_ok readyEnd.ended ran
  by_cases semicolon : middle.step.current.kind = .semicolon
  · simp only [semicolon, decide_true, if_true] at ran
    have ran := advance_ok readyEnd.ended ran
    cases ran
    have found := found (by rwa [Cursor.step_recorded] at clean)
    exact ⟨.exprStatement (found.next readyEnd) (.found semicolon), by rw [semicolon]; decide⟩
  · simp only [semicolon, decide_false] at ran
    cases ran
    have found := found clean
    refine ⟨?_, found.inside⟩
    rw [(readyEnd.within found.inside).ahead_eq]
    exact .exprStatement (found.next readyEnd) (.none semicolon)

theorem sound_statement : Sound bound .statement (statement expr) := by
  intro cursor value later ready ran clean
  rw [statement_apply] at ran
  split at ran
  · rename_i isLet
    exact sound_define steady sound ready isLet ran clean
  · split at ran
    · rename_i isReturn
      exact sound_returning steady sound ready isReturn ran clean
    · exact sound_exprStatement steady sound ready ran clean

/-! ## Operands -/

theorem found_block (within : cursor.Within bound) (enough : bound ≤ rounds)
    (opens : cursor.current.kind = .leftBrace) {body : List Stmt}
    (ran : block expr rounds cursor = .ok body later) (clean : later.recorded = []) :
    Found .block cursor body later := by
  obtain ⟨closes, derives⟩ := found_blockRest (steady_statement steady)
    (sound_statement steady sound) within.step (within.step.short.trans enough)
    (advance_ok within.ended ran) clean
  refine ⟨?_, by rw [closes]; decide⟩
  rw [within.tokens_eq]
  exact .block opens derives closes

omit steady in
theorem found_unary {op : UnaryOp} (begins : cursor.current.kind.leading? = some (.unary op))
    (within : cursor.Within bound) {value : Expr}
    (ran : leadingForm expr rounds cursor.current (.unary op) cursor = .ok value later)
    (clean : later.recorded = []) :
    value.isCallable = false ∧ Found (.tier .unary) cursor value later := by
  obtain ⟨operand, middle, ranOperand, ran⟩ := Run.bind_eq_ok (advance_ok within.ended ran)
  cases ran
  have found := sound .unary .unary rfl _ _ _ within.step ranOperand clean
  refine ⟨rfl, ?_, found.inside⟩
  rw [within.tokens_eq]
  refine .unary ?_ found.derives
  rw [kind_of_leading begins]
  cases op <;> rfl

theorem found_group (within : cursor.Within bound)
    (opens : cursor.current.kind = .leftParen) {value : Expr}
    (ran : leadingForm expr rounds cursor.current .group cursor = .ok value later)
    (clean : later.recorded = []) : Found .atom cursor value later := by
  obtain ⟨inner, middle, ranInner, ran⟩ := Run.bind_eq_ok (advance_ok within.ended ran)
  have readyInner := ((steady _).onward within.step ranInner).ready within.step
  obtain ⟨closes, ran⟩ := expect_ok readyInner.ended ran
  cases ran
  rw [Cursor.step_recorded] at clean
  have found := sound .lowest .equality rfl _ _ _ within.step ranInner clean
  refine ⟨?_, by rw [closes]; decide⟩
  rw [within.tokens_eq]
  exact .group opens (found.next readyInner) closes

theorem found_conditional (within : cursor.Within bound) (enough : bound ≤ rounds)
    (isIf : cursor.current.kind = .ifWord) {value : Expr}
    (ran : leadingForm expr rounds cursor.current .conditional cursor = .ok value later)
    (clean : later.recorded = []) : Found .atom cursor value later := by
  obtain ⟨condition, middle, ranCondition, ran⟩ := Run.bind_eq_ok (advance_ok within.ended ran)
  have readyCondition := ((steady _).onward within.step ranCondition).ready within.step
  obtain ⟨opens, ran⟩ := expect_ok readyCondition.ended ran
  have withinBlock := readyCondition.step.within (by rw [opens]; decide)
  obtain ⟨consequence, after, ranBlock, ran⟩ := Run.bind_eq_ok ran
  have onwardBlock := (steadyInside_block steady enough).onward withinBlock ranBlock
  have readyAfter := onwardBlock.ready readyCondition.step
  have ran := peekIs_ok readyAfter.ended ran
  -- what is clean behind the block is clean before it
  have foundBlock (cleanBlock : after.recorded = []) :
      Phrase.Derives .expr cursor.step.tokens condition middle.step.tokens ∧
        Found .block middle.step consequence after := by
    have cleanCondition := onwardBlock.clean cleanBlock
    rw [Cursor.step_recorded] at cleanCondition
    have found := sound .lowest .equality rfl _ _ _ within.step ranCondition cleanCondition
    exact ⟨found.next readyCondition,
      found_block steady sound withinBlock enough opens ranBlock cleanBlock⟩
  by_cases isElse : after.step.current.kind = .elseWord
  · simp only [isElse, decide_true, if_true] at ran
    have withinElse := readyAfter.step.within (by rw [isElse]; decide)
    obtain ⟨opensOther, ran⟩ := expect_ok readyAfter.step.ended (advance_ok readyAfter.ended ran)
    have withinOther := readyAfter.step.step.within (by rw [opensOther]; decide)
    obtain ⟨alternative, final, ranOther, ran⟩ := Run.bind_eq_ok ran
    cases ran
    have onwardOther := (steadyInside_block steady enough).onward withinOther ranOther
    have cleanAfter := onwardOther.clean clean
    rw [Cursor.step_recorded, Cursor.step_recorded] at cleanAfter
    obtain ⟨derives, block⟩ := foundBlock cleanAfter
    have other := found_block steady sound withinOther enough opensOther ranOther clean
    refine ⟨?_, other.inside⟩
    rw [within.tokens_eq]
    refine .alternative isIf derives (block.next readyAfter) isElse ?_
    rw [withinElse.ahead_eq]
    exact other.derives
  · simp only [isElse, decide_false] at ran
    cases ran
    obtain ⟨derives, block⟩ := foundBlock clean
    refine ⟨?_, block.inside⟩
    rw [within.tokens_eq, (readyAfter.within block.inside).ahead_eq]
    exact .conditional isIf derives (block.next readyAfter) isElse

theorem found_function (within : cursor.Within bound) (enough : bound ≤ rounds)
    (isFunction : cursor.current.kind = .functionWord) {value : Expr}
    (ran : leadingForm expr rounds cursor.current .function cursor = .ok value later)
    (clean : later.recorded = []) : Found .atom cursor value later := by
  obtain ⟨opens, ran⟩ := expect_ok within.ended ran
  have withinItems := within.step.within (by rw [opens]; decide)
  obtain ⟨parameters, middle, ranItems, ran⟩ := Run.bind_eq_ok ran
  have readyItems := ((steady_items steady_parameter enough _).onward within.step ranItems).ready
    within.step
  obtain ⟨opensBody, ran⟩ := expect_ok readyItems.ended ran
  have withinBody := readyItems.step.within (by rw [opensBody]; decide)
  obtain ⟨body, final, ranBody, ran⟩ := Run.bind_eq_ok ran
  cases ran
  have onwardBody := (steadyInside_block steady enough).onward withinBody ranBody
  have cleanItems := onwardBody.clean clean
  rw [Cursor.step_recorded] at cleanItems
  obtain ⟨insideItems, items⟩ := found_items steady_parameter sound_parameter (by decide)
    withinItems enough ranItems cleanItems
  have block := found_block steady sound withinBody enough opensBody ranBody clean
  refine ⟨?_, block.inside⟩
  rw [within.tokens_eq]
  rw [(readyItems.within insideItems).ahead_eq] at items
  exact .function isFunction opens items block.derives

theorem found_leadingForm {form : Leading} (begins : cursor.current.kind.leading? = some form)
    (within : cursor.Within bound) (enough : bound ≤ rounds) {value : Expr}
    (ran : leadingForm expr rounds cursor.current form cursor = .ok value later)
    (clean : later.recorded = []) :
    Found .atom cursor value later ∨
      (value.isCallable = false ∧ Found (.tier .unary) cursor value later) := by
  have kind := kind_of_leading begins
  cases form with
  | name =>
      cases ran
      exact .inl ⟨.name kind, within.inside⟩
  | integer =>
      by_cases small : Text.digitsValue cursor.current.literal < integerBound
      · simp only [leadingForm, integerOf, small, if_true] at ran
        cases ran
        exact .inl ⟨.integer kind small, within.inside⟩
      · simp only [leadingForm, integerOf, small, if_false] at ran
        cases ran
  | string =>
      cases ran
      exact .inl ⟨.string kind, within.inside⟩
  | boolean value =>
      cases ran
      cases value with
      | true => exact .inl ⟨.trueWord kind, within.inside⟩
      | false => exact .inl ⟨.falseWord kind, within.inside⟩
  | unary op => exact .inr (found_unary sound begins within ran clean)
  | group => exact .inl (found_group steady sound within kind ran clean)
  | array =>
      obtain ⟨elements, final, ranItems, ran⟩ := Run.bind_eq_ok ran
      cases ran
      obtain ⟨inside, items⟩ := found_items (steady_item steady .element)
        (sound_item steady sound .element) (by decide) within enough ranItems clean
      exact .inl ⟨.array kind items, inside⟩
  | hash =>
      obtain ⟨pairs, final, ranItems, ran⟩ := Run.bind_eq_ok ran
      cases ran
      obtain ⟨inside, items⟩ := found_items (steady_item steady .pair)
        (sound_item steady sound .pair) (by decide) within enough ranItems clean
      exact .inl ⟨.hash kind items, inside⟩
  | conditional => exact .inl (found_conditional steady sound within enough kind ran clean)
  | function => exact .inl (found_function steady sound within enough kind ran clean)

end Parts

end Reader

end Scriptlet
