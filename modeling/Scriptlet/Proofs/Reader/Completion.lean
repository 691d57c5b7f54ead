import Scriptlet.Proofs.Reader.Concatenation
import Scriptlet.Proofs.Reader.Repair

/-!
# Every reader can be finished

For every reader of the language, what it has read before it first complains can be completed. The
patches are small: a name stands for an expression, closing brackets follow. `completes_programRest`
is the conclusion for the statements of a program.
-/
set_option autoImplicit false

namespace Scriptlet.Reader

open Token (Kind)

variable {α : Type}

theorem inert_self (kind : Kind) (inert : kind.Inert) : kind.Inert :=
  inert

/-! ## Lists -/

section Items

variable {item moreItem : Reader α} {patch : List Kind}

theorem closes_itemsRest (item : Reader α) (rounds : Nat) :
    Closes Kind.Inert (itemsRest item (rounds + 1)) [] := by
  refine ⟨[], fun rest ready => ?_⟩
  obtain ⟨token, ahead, rfl⟩ := List.exists_cons_of_ne_nil ready.ended.ne_nil
  exact .absent ((ready.head token rfl).ne rfl) (leadsOn_pure _ _)

variable (begun : Begun Kind.Inert item moreItem patch) (fills : patch.all Kind.isFiller = true)

include begun fills

theorem resumed_itemsRest (rounds : Nat) :
    Resumed Kind.Inert (itemsRest item rounds) (itemsRest moreItem (rounds + 1)) [] := by
  induction rounds with
  | zero => exact resumed_halt _ (closes_itemsRest moreItem 0)
  | succ rounds ih =>
      have rest := fun first => ih.map fun others => first :: others
      have again := (begun.bind rest rfl inert_self).afterAdvance
      exact again.whenNext (by simpa using fills) (resumed_pure []) (by decide)
        fun other inert => Kind.Inert.ne inert rfl

theorem resumed_items {close : Kind} (patched : isPatch [close] = true)
    (ends : endsExpression close) (rounds : Nat) :
    Resumed Kind.Inert (items close item rounds) (items close moreItem (rounds + 1)) [close] where
  lock course := Course.rest_items (begun.lock course) close rounds
  extend := extends_items begun.extend rounds.le_succ close
  stays := (settles_items begun.here ends rounds).ends.stays
  closes := ⟨[], fun _ _ => .found rfl ((leadsOn_advance _ _).bind (leadsOn_pure _ _))⟩
  completes := by
    have first := begun.bind (fun first => (resumed_itemsRest begun fills rounds).bind
      (fun others => (resumed_expect ends.2).map fun _ => first :: others) patched inert_self)
      patched inert_self
    refine completes_peekIs close fun found => ?_
    cases found with
    | true => exact ((resumed_pure []).completesFirst rfl).afterAdvance
    | false => exact first.afterAdvance.completes

end Items

theorem parameter_apply (cursor : Cursor) :
    parameter cursor =
      if cursor.current.kind = .name then .ok cursor.current.literal cursor
      else .raised (.unexpectedToken .name cursor.current) cursor := by
  simp only [parameter, Run.bind_apply, current]
  split <;> rfl

theorem begun_parameter : Begun Kind.Inert parameter parameter [.name] where
  lock _ := Course.first_parameter
  extend := Run.Extends.refl _
  ends := by
    intro cursor value later _ ran
    rw [parameter_apply] at ran
    split at ran
    · rename_i isName
      cases ran
      rw [isName]
      decide
    · cases ran
  starts := ⟨_, fun rest _ => ⟨_, _, rfl, fun _ => ⟨_, rfl⟩⟩⟩
  completes := by
    intro cursor front spot after fails far
    by_cases isName : cursor.current.kind = .name
    · refine (fails.elim ?_).elim
      rw [parameter_apply, if_pos isName]
      exact fails.clean
    · have complaint : (parameter cursor).diagnostics.head? =
          some (.unexpectedToken .name cursor.current) := by
        rw [parameter_apply, if_neg isName, Outcome.diagnostics, fails.clean]
        rfl
      exact fails.elim_current far complaint rfl

/-! ## Statements -/

theorem stays_endStatement : StaysInside endStatement := by
  intro cursor value later ended inside ran
  have endedSkip : Ended cursor.beforeEnd.tokens :=
    ended.of_suffix (skipUntilNext_suffix _ _ _) (List.cons_ne_nil _ _)
  have ran : passSemicolon cursor.beforeEnd = .ok value later := ran
  rw [passSemicolon_eq endedSkip] at ran
  cases ran
  split
  · rename_i found
    rw [found]
    decide
  · rcases skipUntilNext_kind endsStatement cursor.current cursor.ahead with same | passed
    · exact (congrArg Token.kind same).trans_ne inside
    · intro atEnd
      rw [show (skipUntilNext endsStatement cursor.current cursor.ahead).1.kind = _ from atEnd] at passed
      cases passed

theorem resumed_endStatement : Resumed Kind.Final endStatement endStatement [] where
  lock _ := Course.rest_endStatement
  extend := Run.Extends.refl _
  stays := stays_endStatement
  closes := by
    refine ⟨(), fun rest ready => ?_⟩
    obtain ⟨token, ahead, rfl⟩ := List.exists_cons_of_ne_nil ready.ended.ne_nil
    rcases ready.head token rfl with brace | atEnd
    · exact leadsOn_endStatement (.brace brace)
    · exact leadsOn_endStatement (.endOfInput atEnd)
  completes := by
    intro cursor front spot after fails _
    refine (fails.elim ?_).elim
    have endedSkip : Ended cursor.beforeEnd.tokens :=
      fails.ended.of_suffix (skipUntilNext_suffix _ _ _) (List.cons_ne_nil _ _)
    have ran : endStatement cursor = _ := passSemicolon_eq endedSkip
    have kept := unrecorded_endStatement cursor _ _ fails.ended ran
    rw [ran]
    exact kept.trans fails.clean

def assignment (expr : Precedence → Reader Expr) (name : String) : Reader (String × Expr) := do
  expect .assign
  advance
  let value ← expr .lowest
  return (name, value)

section Parts

variable {expr moreExpr : Precedence → Reader Expr}
  (begun : ∀ minimum, Begun Kind.Inert (expr minimum) (moreExpr minimum) [.name])

include begun

theorem resumed_assignment (name : String) :
    Resumed Kind.Inert (assignment expr name) (assignment moreExpr name) [.assign, .name] :=
  (resumed_expect (by decide)).bind
    (fun _ => ((begun .lowest).map fun value => (name, value)).afterAdvance) (by decide) inert_self

theorem resumed_definition :
    Resumed Kind.Inert (definition expr) (definition moreExpr) [.name, .assign, .name] where
  lock course := Course.rest_definition fun minimum => (begun minimum).lock course
  extend := (Run.Extends.refl _).bind fun _ => (Run.Extends.refl _).bind fun name =>
    (resumed_assignment begun name.literal).extend
  stays := by
    refine StaysInside.bind (forward_expect _).here (stays_expect (by decide)) fun _ => ?_
    intro cursor value later ended inside ran
    exact (resumed_assignment begun cursor.current.literal).stays cursor value later ended inside ran
  closes := by
    obtain ⟨result, leads⟩ := (resumed_assignment begun Kind.name.text).closes
    exact ⟨result, fun rest ready => .expectedToken rfl (leads rest ready)⟩
  completes := by
    -- the name of the definition is part of what is complete already
    refine Completes.afterExpect ?_ .name
    intro cursor front spot after fails far
    exact ((resumed_assignment begun cursor.current.literal).completesFirst (by decide)).ofCurrent
      fails far rfl fun _ _ => rfl

theorem resumed_define :
    Resumed Kind.Final (define expr) (define moreExpr) [.name, .assign, .name] := by
  rw [define_eq, define_eq]
  exact (resumed_definition begun).bind
    (fun found => resumed_endStatement.map fun _ => Stmt.define found.1 found.2) rfl
    fun _ => Kind.Final.inert

theorem resumed_returning :
    Resumed Kind.Final (returning expr) (returning moreExpr) [.name] :=
  Begun.afterAdvance <| (begun .lowest).bind
    (fun value => resumed_endStatement.map fun _ => Stmt.returning value) rfl fun _ => Kind.Final.inert

theorem begun_exprStatement :
    Begun Kind.Inert (exprStatement expr) (exprStatement moreExpr) [.name] :=
  (begun .lowest).bind (fun value => (resumed_pure _).whenNext rfl (resumed_pure _) (by decide)
    fun _ inert => Kind.Inert.ne inert rfl) rfl inert_self

theorem begun_statement :
    Begun Kind.Final (statement expr) (statement moreExpr) [.name] where
  lock course := Course.first_statement fun minimum => (begun minimum).lock course
  extend := extends_statement fun minimum => (begun minimum).extend
  ends := by
    intro cursor value later ended ran
    rw [statement_apply] at ran
    split at ran
    · rename_i isLet
      exact (resumed_define begun).stays cursor value later ended (by rw [isLet]; decide) ran
    split at ran
    · rename_i isReturn
      exact (resumed_returning begun).stays cursor value later ended (by rw [isReturn]; decide) ran
    · exact (begun_exprStatement begun).ends cursor value later ended ran
  starts := by
    obtain ⟨value, leads⟩ := (begun_exprStatement begun).starts
    exact ⟨value, fun rest ready =>
      leads_exprStatement rfl (leads rest (ready.mono fun _ => Kind.Final.inert))⟩
  completes := by
    intro cursor front spot after fails far
    by_cases isLet : cursor.current.kind = .letWord
    · exact ((resumed_define begun).completesFirst (by decide)).ofCurrent fails far
        (by rw [statement_apply, if_pos isLet]) fun _ _ => by rw [statement_apply, if_pos isLet]
    by_cases isReturn : cursor.current.kind = .returnWord
    · exact ((resumed_returning begun).completesFirst (by decide)).ofCurrent fails far
        (by rw [statement_apply, if_neg isLet, if_pos isReturn])
        fun _ _ => by rw [statement_apply, if_neg isLet, if_pos isReturn]
    · exact ((begun_exprStatement begun).completes.mono fun _ => Kind.Final.inert).ofCurrent fails far
        (by rw [statement_apply, if_neg isLet, if_neg isReturn])
        fun _ _ => by rw [statement_apply, if_neg isLet, if_neg isReturn]

end Parts

/-! ## Loops over statements -/

section Loops

variable {stmt moreStmt : Reader Stmt} {patch : List Kind} {follows : Kind → Prop}

/-- What a round of a loop over statements complains about is what its statement complains about,
or else it comes behind the statement. -/
theorem Fails.round {round : Reader (Option (Option Stmt))} {next : Option (Option Stmt) → Reader Block}
    {leave : Cursor → Cursor} {cursor : Cursor} {front after : List Token} {spot : Token}
    (fails : Fails (round >>= next) cursor front spot after)
    (isRound : round cursor = (stmt cursor).round leave) (here : Local stmt) (ends : EndsInside stmt)
    (hereNext : ∀ found, Local (next found))
    (onward : ∀ later : Cursor, later.Onward (leave later))
    (kept : ∀ later : Cursor, (leave later).recorded = later.recorded) :
    Fails stmt cursor front spot after ∨ ∃ value middle between, stmt cursor = .ok value middle ∧
      middle.recorded = [] ∧ middle.ahead = between ++ spot :: after ∧
      Fails (next (some (some value))) middle.step between spot after := by
  obtain ⟨diagnostic, found, position⟩ := fails.complains
  have failsStmt (found : (stmt cursor).diagnostics.head? = some diagnostic) :
      Fails stmt cursor front spot after :=
    ⟨fails.ended, fails.increasing, fails.clean, fails.split, diagnostic, found, position⟩
  rw [Run.bind_apply, isRound] at found
  cases outcome : stmt cursor with
  | ok value middle =>
      rw [outcome] at found failsStmt
      have notes := here.ok fails.ended outcome
      have endedMiddle := notes.onward.ended fails.ended
      have inside := ends cursor value middle fails.ended outcome
      have stepped := Cursor.tokens_step_of_inside endedMiddle inside
      have endedStep := middle.onward_step.ended endedMiddle
      have citesNext := hereNext (some (some value)) middle.step endedStep
      by_cases clean : middle.recorded = []
      · have cleanStep : middle.step.recorded = [] := by simpa using clean
        have suffix : middle.step.tokens <:+ cursor.tokens :=
          middle.onward_step.tokens.trans notes.tokens
        have points := citesNext.points cleanStep (List.mem_of_head? found)
        obtain ⟨between, split⟩ := split_of_points (fails.split ▸ fails.increasing)
          (fails.split ▸ suffix) points position
        exact .inr ⟨value, middle, between, rfl, clean, stepped ▸ split, endedStep,
          fails.increasing.sublist suffix.sublist, cleanStep, split, diagnostic, found, position⟩
      · have recorded := citesNext.head?_recorded (by simpa using clean) found
        rw [Cursor.step_recorded] at recorded
        exact .inl (failsStmt recorded)
  | raised error middle =>
      rw [outcome] at found failsStmt
      have endedMiddle : Ended (middle.noted error).tokens :=
        (here.raised fails.ended outcome).1.onward.ended fails.ended
      have citesNext := hereNext (some none) _ ((onward (middle.noted error)).ended endedMiddle)
      have recorded := citesNext.head?_recorded (by simp [kept, Cursor.noted]) found
      rw [kept] at recorded
      exact .inl (failsStmt recorded)
  | halted why =>
      rw [outcome] at found
      cases found

theorem leads_closing (stmt : Reader Stmt) (rounds : Nat) {brace : Token}
    (closing : brace.kind = .rightBrace) (rest : List Token) :
    Leads (blockRest stmt (rounds + 1)) (brace :: rest) [] rest := by
  refine ⟨brace, rest, rfl, fun recorded => ⟨brace, ?_⟩⟩
  simp [blockRest, Run.bind_apply, current, closing]

theorem local_nextRound {loop : Reader Block} (here : Local loop) (found : Option (Option Stmt)) :
    Local (match found with
      | none => pure []
      | some first => do
        let rest ← loop
        return first.toList ++ rest) := by
  cases found with
  | none => exact (forward_pure _).here
  | some first => exact here.bind fun _ => (forward_pure _).here

variable (begun : Begun Kind.Final stmt moreStmt patch)

include begun

/-- The statement that a loop begins with can be finished, or else the loop comes to the next one,
whatever stands behind the place of the complaint. -/
theorem Fails.loop {round : Reader (Option (Option Stmt))} {next : Option (Option Stmt) → Reader Block}
    {leave : Cursor → Cursor} {cursor : Cursor} {front after : List Token} {spot : Token}
    (fails : Fails (round >>= next) cursor front spot after) (far : 0 < front.length)
    (isRound : round cursor = (stmt cursor).round leave)
    (hereNext : ∀ found, Local (next found))
    (onward : ∀ later : Cursor, later.Onward (leave later))
    (kept : ∀ later : Cursor, (leave later).recorded = later.recorded) :
    Completable Kind.Final moreStmt front ∨ ∃ value middle between, between ≠ [] ∧
      Fails (next (some (some value))) middle between spot after ∧
      ∀ others, Ended others → Leads moreStmt (front ++ others) value (between ++ others) := by
  rcases fails.round isRound begun.here begun.ends hereNext onward kept with
    failsStmt | ⟨value, middle, between, ran, clean, split, failsNext⟩
  · exact .inl (begun.completes cursor front spot after failsStmt far)
  have nonempty : front ≠ [] := List.length_pos_iff.mp far
  by_cases near : between = []
  · refine .inl ⟨[], rfl, value, fun rest ready => ?_⟩
    obtain ⟨token, ahead, listed, runs⟩ := follow begun.lock ran fails.clean clean fails.ended
      fails.split nonempty split ready.ended fun _ => ready.head
    rw [near] at runs
    exact ⟨token, ahead, listed, fun recorded => ⟨_, extended begun.extend (runs recorded)⟩⟩
  · refine .inr ⟨value, middle.step, between, near, failsNext, fun others ended => ?_⟩
    obtain ⟨token, ahead, listed, runs⟩ := follow begun.lock ran fails.clean clean fails.ended
      fails.split nonempty split ended fun nothing => absurd nothing near
    exact ⟨token, ahead, listed, fun recorded => ⟨_, extended begun.extend (runs recorded)⟩⟩

theorem completes_blockRest (rounds : Nat) :
    Completes 0 follows (blockRest stmt rounds) (blockRest moreStmt (rounds + 1)) := by
  induction rounds with
  | zero =>
      intro cursor front spot after fails _
      exact (fails.elim rfl).elim
  | succ rounds ih =>
      intro cursor front spot after fails far
      have inside := fails.inside (List.length_pos_iff.mp far)
      obtain ⟨token, front, rfl⟩ := List.exists_cons_of_length_pos far
      obtain rfl : cursor.current = token := (List.cons.inj fails.split).1
      rw [blockRest_succ] at fails
      by_cases closing : cursor.current.kind = .rightBrace
      · refine (fails.elim ?_).elim
        rw [Run.bind_apply, blockRound_closing stmt closing]
        exact fails.clean
      have isRound := blockRound_eq begun.here fails.ended closing inside
      rcases fails.loop begun far isRound (local_nextRound (local_blockRest begun.here rounds))
          Cursor.onward_leftBlockStatement (fun _ => rfl) with
        ⟨patch, fills, value, leads⟩ | ⟨value, middle, between, near, failsNext, leads⟩
      · -- the statement is finished, and a brace closes the block
        refine ⟨patch ++ [.rightBrace], by simp [fills]; rfl, [value], fun rest ready => ?_⟩
        have readyBrace : Ready Kind.Final (Token.filler .rightBrace :: rest) := by
          refine ⟨.cons (by decide) ready.ended, ?_⟩
          rintro _ ⟨⟩
          exact .inl rfl
        rw [filling, List.map_append, List.append_assoc]
        exact leads_blockRest_cons closing inside (leads _ readyBrace)
          (leads_closing moreStmt rounds rfl rest)
      · obtain ⟨patch, fills, others, leadsRest⟩ := ih middle between spot after
          (failsNext.ofMap (local_blockRest begun.here rounds)) (List.length_pos_iff.mpr near)
        refine ⟨patch, fills, value :: others, fun rest ready => ?_⟩
        exact leads_blockRest_cons closing inside (leads _ (ready.ended.filled fills))
          (leadsRest rest ready)

theorem completes_programRest (rounds : Nat) {cursor : Cursor} {front after : List Token}
    {spot : Token} (fails : Fails (programRest stmt rounds) cursor front spot after) :
    ∃ patch, patch.all Kind.isFiller = true ∧ ∃ statements, ∀ ending : Token,
      ending.kind = .endOfInput →
        Leads (programRest moreStmt (rounds + 1)) (front ++ (filling patch ++ [ending]))
          statements [] := by
  have leadsEnd (rounds : Nat) {ending : Token} (atEnd : ending.kind = .endOfInput) :
      Leads (programRest moreStmt (rounds + 1)) [ending] [] [] :=
    ⟨ending, [], rfl, fun _ => ⟨ending, by simp [programRest, Run.bind_apply, current, atEnd]⟩⟩
  induction rounds generalizing cursor front with
  | zero => exact (fails.elim rfl).elim
  | succ rounds ih =>
      by_cases nothing : front = []
      · rw [nothing]
        exact ⟨[], rfl, [], fun ending atEnd => leadsEnd (rounds + 1) atEnd⟩
      have far : 0 < front.length := List.length_pos_iff.mpr nothing
      have inside := fails.inside nothing
      obtain ⟨token, front, rfl⟩ := List.exists_cons_of_length_pos far
      obtain rfl : cursor.current = token := (List.cons.inj fails.split).1
      rw [programRest_succ] at fails
      have isRound := programRound_eq begun.here fails.ended inside
      rcases fails.loop begun far isRound (local_nextRound (local_programRest begun.here rounds))
          (fun later => later.onward_leftStatement.trans (Cursor.onward_step _))
          (fun later => Cursor.step_recorded _) with
        ⟨patch, fills, value, leads⟩ | ⟨value, middle, between, _, failsNext, leads⟩
      · refine ⟨patch, fills, [value], fun ending atEnd => ?_⟩
        have readyEnd : Ready Kind.Final [ending] := by
          refine ⟨.last atEnd, ?_⟩
          rintro _ ⟨⟩
          exact .inr atEnd
        exact leads_programRest_cons inside (leads _ readyEnd) (leadsEnd rounds atEnd)
      · obtain ⟨patch, fills, others, leadsRest⟩ :=
          ih (failsNext.ofMap (local_programRest begun.here rounds))
        refine ⟨patch, fills, value :: others, fun ending atEnd => ?_⟩
        have ended : Ended (filling patch ++ [ending]) := (Ended.last atEnd).filled fills
        exact leads_programRest_cons inside (leads _ ended) (leadsRest ending atEnd)

end Loops

/-! ## Expressions -/

theorem leads_name (expr : Precedence → Reader Expr) (rounds : Nat) (rest : List Token) :
    Leads (operand .standard expr rounds) (.filler .name :: rest) (.name Kind.name.text) rest :=
  ⟨_, rest, rfl, fun _ => ⟨.filler .name, by rw [operand_apply]; rfl⟩⟩

theorem operatorRound_some {expr : Precedence → Reader Expr} {rounds : Nat} {minimum : Precedence}
    {left : Expr} {token next : Token} {ahead : List Token} {form : Trailing}
    (ended : Ended (token :: next :: ahead))
    (goesOn : next.kind.continuation? minimum left = some form) (recorded : List Diagnostic) :
    operatorRound .standard expr rounds minimum left ⟨token, next :: ahead, recorded⟩ =
      (trailingForm expr rounds left next form >>= fun extended => pure (some extended))
        ⟨next, ahead, recorded⟩ := by
  have endedHere : Ended (Cursor.tokens ⟨token, next :: ahead, recorded⟩) := ended
  have same : (Cursor.step ⟨token, next :: ahead, recorded⟩).current.kind.continuation? minimum left =
      some form := goesOn
  rw [operatorRound_apply endedHere, same]
  rfl

theorem leadsOn_operatorRound (expr : Precedence → Reader Expr) (rounds : Nat)
    (minimum : Precedence) (left : Expr) {rest : List Token} (ready : Ready Kind.Inert rest) :
    LeadsOn (operatorRound .standard expr rounds minimum left) rest none rest := by
  obtain ⟨next, ahead, rfl⟩ := List.exists_cons_of_ne_nil ready.ended.ne_nil
  have quiet : next.kind.precedence.rank = 0 := by
    have inert : next.kind.isInert = true := ready.head next rfl
    simp only [Kind.isInert, Bool.and_eq_true, decide_eq_true_eq] at inert
    exact inert.1.1.1
  intro token recorded
  exact ⟨token, by simp [operatorRound, Run.bind_apply, peek, quiet]⟩

theorem closes_operators (expr : Precedence → Reader Expr) (inner : Nat) (minimum : Precedence)
    (rounds : Nat) (left : Expr) :
    Closes Kind.Inert (operators .standard expr inner minimum (rounds + 1) left) [] := by
  refine ⟨left, fun rest ready => ?_⟩
  rw [operators_succ]
  exact (leadsOn_operatorRound expr inner minimum left ready).bind (leadsOn_pure _ _)

section Forms

variable {follows : Kind → Prop} {expr moreExpr : Precedence → Reader Expr} {rounds : Nat}
  (begun : ∀ minimum, Begun Kind.Inert (expr minimum) (moreExpr minimum) [.name])

include begun

theorem resumed_block :
    Resumed follows (block expr rounds) (block moreExpr (rounds + 1)) [.rightBrace] where
  lock course := Course.rest_block fun minimum => (begun minimum).lock course
  extend := extends_block (fun minimum => (begun minimum).extend) rounds.le_succ
  stays := (settles_block rounds).ends.stays
  closes := ⟨[], fun rest _ => (leads_closing _ rounds rfl rest).afterAdvance⟩
  completes := (completes_blockRest (begun_statement begun) rounds).afterAdvance

theorem begun_pair : Begun Kind.Inert (pair expr) (pair moreExpr) [.name, .colon, .name] :=
  (begun .lowest).bind (fun key => (resumed_expect (by decide)).bind
    (fun _ => ((begun .lowest).map fun value => (key, value)).afterAdvance) rfl inert_self) rfl
    inert_self

theorem resumed_braces (rounds : Nat) (wrap : Block → Expr) :
    Resumed Kind.Inert
      (expect .leftBrace >>= fun _ => block expr rounds >>= fun body => pure (wrap body))
      (expect .leftBrace >>= fun _ => block moreExpr (rounds + 1) >>= fun body => pure (wrap body))
      [.leftBrace, .rightBrace] :=
  (resumed_expect (by decide)).bind (fun _ => (resumed_block begun).map wrap) rfl inert_self

theorem resumed_conditional (token : Token) :
    Resumed Kind.Inert (leadingForm expr rounds token .conditional)
      (leadingForm moreExpr (rounds + 1) token .conditional) [.name, .leftBrace, .rightBrace] := by
  refine Begun.afterAdvance ((begun .lowest).bind (fun condition =>
    (resumed_expect (by decide)).bind (fun _ => (resumed_block begun).bind (fun consequence => ?_) rfl
      inert_self) rfl inert_self) rfl inert_self)
  have alternative := resumed_braces begun rounds fun alternative =>
    Expr.conditional condition consequence (some alternative)
  exact alternative.whenNext (by decide) (resumed_pure _) (by decide)
    fun _ inert => Kind.Inert.ne inert rfl

theorem resumed_function (token : Token) :
    Resumed Kind.Inert (leadingForm expr rounds token .function)
      (leadingForm moreExpr (rounds + 1) token .function)
      [.leftParen, .rightParen, .leftBrace, .rightBrace] := by
  have parameters : Resumed Kind.Inert (items .rightParen parameter rounds)
      (items .rightParen parameter (rounds + 1)) [.rightParen] :=
    resumed_items begun_parameter rfl rfl ⟨by decide, by decide⟩ rounds
  exact (resumed_expect (by decide)).bind (fun _ => parameters.bind
    (fun names => resumed_braces begun rounds (Expr.function names)) rfl inert_self) rfl inert_self

/-- All forms go on behind their first token, save the number, which may be too large. -/
theorem resumed_leadingForm (rounds : Nat) (token : Token) {form : Leading} (other : form ≠ .integer) :
    ∃ patch, patch.all Kind.isFiller = true ∧
      Resumed Kind.Inert (leadingForm expr rounds token form)
        (leadingForm moreExpr (rounds + 1) token form) patch := by
  cases form with
  | name => exact ⟨[], rfl, resumed_pure _⟩
  | integer => contradiction
  | string => exact ⟨[], rfl, resumed_pure _⟩
  | boolean value => exact ⟨[], rfl, resumed_pure _⟩
  | unary op => exact ⟨[.name], rfl, ((begun _).map _).afterAdvance⟩
  | group =>
      exact ⟨[.name, .rightParen], rfl, ((begun _).bind (fun inner =>
        (resumed_expect (by decide)).map fun _ => inner) rfl inert_self).afterAdvance⟩
  | array =>
      exact ⟨_, rfl, (resumed_items (begun _) rfl rfl ⟨by decide, by decide⟩ rounds).map _⟩
  | hash =>
      exact ⟨_, rfl,
        (resumed_items (begun_pair begun) rfl rfl ⟨by decide, by decide⟩ rounds).map _⟩
  | conditional => exact ⟨_, rfl, resumed_conditional begun token⟩
  | function => exact ⟨_, rfl, resumed_function begun token⟩

theorem begun_operand :
    Begun Kind.Inert (operand .standard expr rounds) (operand .standard moreExpr (rounds + 1))
      [.name] where
  lock course := Course.first_operand fun minimum => (begun minimum).lock course
  extend := extends_operand (fun minimum => (begun minimum).extend) .standard rounds.le_succ
  ends := by
    intro cursor value later ended ran
    obtain ⟨form, begins, ran⟩ := operand_ok ran
    have inside : cursor.current.kind ≠ .endOfInput := by
      intro atEnd
      rw [atEnd] at begins
      cases begins
    by_cases integer : form = .integer
    · rw [integer, integer_apply] at ran
      split at ran
      · cases ran
        exact inside
      · cases ran
    · obtain ⟨patch, _, resumed⟩ := resumed_leadingForm begun rounds cursor.current integer
      exact resumed.stays cursor value later ended inside ran
  starts := ⟨_, fun rest _ => leads_name moreExpr (rounds + 1) rest⟩
  completes := by
    intro cursor front spot after fails far
    cases begins : cursor.current.kind.leading? with
    | none =>
        have complaint : (operand .standard expr rounds cursor).diagnostics.head? =
            some (.notLeading cursor.current) := by
          simp [operand_apply, begins, Outcome.diagnostics, fails.clean]
        exact fails.elim_current far complaint (Diagnostic.notLeading_position _)
    | some form =>
        by_cases integer : form = .integer
        · rw [integer] at begins
          by_cases small : Text.digitsValue cursor.current.literal < integerBound
          · refine (fails.elim ?_).elim
            simp [operand_apply, begins, integer_apply, small, Outcome.diagnostics, fails.clean]
          · have complaint : (operand .standard expr rounds cursor).diagnostics.head? =
                some (.badInteger cursor.current.literal cursor.current.start) := by
              simp [operand_apply, begins, integer_apply, small, Outcome.diagnostics, fails.clean]
            exact fails.elim_current far complaint rfl
        · obtain ⟨patch, fills, resumed⟩ :=
            resumed_leadingForm begun rounds cursor.current integer
          exact (resumed.completesFirst fills).ofCurrent fails far
            (by rw [operand_apply, begins]) fun _ _ => by rw [operand_apply, begins]

theorem resumed_trailingForm (rounds : Nat) (token : Token) (left : Expr) (form : Trailing) :
    ∃ patch, patch.all Kind.isFiller = true ∧
      Resumed Kind.Inert (trailingForm expr rounds left token form)
        (trailingForm moreExpr (rounds + 1) left token form) patch := by
  cases form with
  | binary op => exact ⟨[.name], rfl, ((begun _).map _).afterAdvance⟩
  | call => exact ⟨_, rfl, (resumed_items (begun _) rfl rfl ⟨by decide, by decide⟩ rounds).map _⟩
  | index =>
      have closing (index : Expr) : Resumed Kind.Inert
          (expect .rightBracket >>= fun _ => pure (Expr.index left index))
          (expect .rightBracket >>= fun _ => pure (Expr.index left index)) [.rightBracket] :=
        (resumed_expect (by decide)).map _
      exact ⟨_, rfl, ((begun .lowest).bind closing rfl inert_self).afterAdvance⟩

theorem resumed_operatorRound (minimum : Precedence) (left : Expr) :
    Resumed Kind.Inert (operatorRound .standard expr rounds minimum left)
      (operatorRound .standard moreExpr (rounds + 1) minimum left) [] where
  lock course := Course.rest_operatorRound (fun minimum => (begun minimum).lock course) minimum left
  extend := by
    refine (Run.Extends.refl _).bind fun next => Run.Extends.ite ?_ (Run.Extends.refl _)
    split
    · exact Run.Extends.refl _
    · exact (Run.Extends.refl _).bind fun _ =>
        (extends_extend (fun minimum => (begun minimum).extend) rounds.le_succ _ _ _).bind fun _ =>
          Run.Extends.refl _
  stays := by
    intro cursor value later ended inside ran
    rw [operatorRound_apply ended] at ran
    split at ran
    · cases ran
      exact inside
    · rename_i form goesOn
      obtain ⟨patch, _, resumed⟩ :=
        resumed_trailingForm begun rounds cursor.step.current left form
      exact (resumed.map some).stays cursor.step value later (cursor.onward_step.ended ended)
        (Kind.continuation?_ne_endOfInput goesOn) ran
  closes := ⟨none, fun rest ready => leadsOn_operatorRound moreExpr (rounds + 1) minimum left ready⟩
  completes := by
    intro cursor front spot after fails far
    obtain ⟨token, front, rfl⟩ := List.exists_cons_of_length_pos (Nat.zero_lt_of_lt far)
    obtain ⟨first, front, rfl⟩ := List.exists_cons_of_length_pos (Nat.lt_of_succ_lt_succ far)
    have stepped := Cursor.tokens_step_of_inside fails.ended (fails.inside (List.cons_ne_nil _ _))
    have splitStep : cursor.step.tokens = first :: front ++ spot :: after :=
      stepped.trans (List.cons.inj fails.split).2
    obtain rfl : cursor.step.current = first := (List.cons.inj splitStep).1
    have applied : operatorRound .standard expr rounds minimum left cursor = _ :=
      operatorRound_apply fails.ended minimum left
    cases goesOn : cursor.step.current.kind.continuation? minimum left with
    | none =>
        refine (fails.elim ?_).elim
        rw [applied, goesOn]
        exact fails.clean
    | some form =>
        obtain ⟨patch, fills, resumed⟩ :=
          resumed_trailingForm begun rounds cursor.step.current left form
        have failsForm : Fails (trailingForm expr rounds left cursor.step.current form >>=
            fun extended => pure (some extended)) cursor.step _ spot after :=
          fails.of_eq (by rw [applied, goesOn]) cursor.onward_step.tokens splitStep
            (by simpa using fails.clean)
        obtain ⟨patch, fills, value, leads⟩ := (resumed.map some).completesFirst fills cursor.step _
          spot after failsForm (by simp)
        refine ⟨patch, fills, value, fun rest ready => ?_⟩
        have ended := (fails.split ▸ fails.ended).swap (ready.ended.filled fills)
        obtain ⟨_, _, listed, runs⟩ := leads rest ready
        cases listed
        refine ⟨token, cursor.step.current :: (front ++ (filling patch ++ rest)), rfl,
          fun recorded => ?_⟩
        obtain ⟨last, ran⟩ := runs recorded
        exact ⟨last, (operatorRound_some ended goesOn recorded).trans ran⟩

theorem resumed_operators (inner : Nat) (minimum : Precedence) (left : Expr) :
    Resumed Kind.Inert (operators .standard expr inner minimum rounds left)
      (operators .standard moreExpr (inner + 1) minimum (rounds + 1) left) [] := by
  induction rounds generalizing left with
  | zero => exact resumed_halt _ (closes_operators moreExpr (inner + 1) minimum 0 left)
  | succ rounds ih =>
      rw [operators_succ, operators_succ]
      refine (resumed_operatorRound begun minimum left).bind (fun found => ?_) rfl inert_self
      cases found with
      | none => exact resumed_pure left
      | some extended => exact ih extended

end Forms

theorem starts_expression (depth : Nat) (minimum : Precedence) :
    Starts Kind.Inert (expression .standard (depth + 1) minimum) [.name] := by
  obtain ⟨value, leads⟩ := closes_operators (expression .standard depth) (depth + 1) minimum depth
    (.name Kind.name.text)
  exact ⟨value, fun rest ready => (leads_name _ _ _).bind (leads rest ready)⟩

theorem begun_expression (depth : Nat) (minimum : Precedence) :
    Begun Kind.Inert (expression .standard depth minimum)
      (expression .standard (depth + 1) minimum) [.name] := by
  induction depth generalizing minimum with
  | zero =>
      refine ⟨fun _ => ⟨fun _ _ => trivial, fun _ _ => trivial, fun _ _ _ => Course.mirrors_halted _⟩,
        Run.extends_halt _ _, ?_, starts_expression 0 minimum, ?_⟩
      · intro cursor value later _ ran
        cases ran
      · intro cursor front spot after fails _
        exact (fails.elim rfl).elim
  | succ depth ih =>
      exact (begun_operand ih).bind
        (fun first => resumed_operators ih (depth + 1) minimum first) rfl inert_self

end Scriptlet.Reader
