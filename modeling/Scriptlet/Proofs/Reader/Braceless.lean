import Scriptlet.Proofs.Reader.Concatenation

/-!
# Texts without braces

In a text without braces that ends with a semicolon, no reader comes to the end of the input: an
expression ends before a semicolon, and a bad statement is left at one. So none of its diagnostics
points at the end (`cites_programRest`). `Contained` says so of a reader that begins on the first
token of what it reads, `ContainedRest` of one that goes on behind a token that can end an
expression.

As there are no braces to be counted, a bad statement of a block is left where one of a program is
(`leftBlockStatement_eq`).
-/
set_option autoImplicit false

namespace Scriptlet

open Token (Kind)

/-! ## Before the semicolon -/

def Unbraced (list : List Token) : Prop :=
  ∀ token ∈ list, token.kind ≠ .leftBrace ∧ token.kind ≠ .rightBrace

theorem Unbraced.mono {list larger : List Token} (unbraced : Unbraced larger)
    (subset : list ⊆ larger) : Unbraced list :=
  fun token member => unbraced token (subset member)

/-- The cursor stands before a semicolon, or on it, and the end of the input is right behind it.
There are no braces on the way, and all that is left up to the semicolon is among the spots. -/
structure Cursor.Braceless (spots : List Token) (cursor : Cursor) : Prop where
  ended : Ended cursor.tokens
  last : ∃ front semicolon ending, cursor.tokens = front ++ [semicolon, ending] ∧
    semicolon.kind = .semicolon ∧ front ++ [semicolon] ⊆ spots
  unbraced : Unbraced cursor.tokens

namespace Cursor

variable {spots : List Token} {cursor later : Cursor}

theorem Braceless.onward (braceless : cursor.Braceless spots)
    (suffix : later.tokens <:+ cursor.tokens) (inside : later.current.kind ≠ .endOfInput) :
    later.Braceless spots := by
  have ended : Ended later.tokens := braceless.ended.of_suffix suffix (by simp [Cursor.tokens])
  refine ⟨ended, ?_, braceless.unbraced.mono suffix.subset⟩
  obtain ⟨front, semicolon, ending, split, isSemicolon, among⟩ := braceless.last
  rw [split] at suffix
  have held : [semicolon, ending].length ≤ later.tokens.length := by
    have more : later.ahead ≠ [] := fun none => inside ((ahead_eq_nil_iff ended).mp none)
    have length := List.length_pos_iff.mpr more
    simp only [Cursor.tokens, List.length_cons, List.length_nil]
    omega
  obtain ⟨shorter, splitLater⟩ :=
    List.suffix_of_suffix_length_le (List.suffix_append _ _) suffix held
  rw [← splitLater, List.suffix_append_inj_of_length_eq rfl] at suffix
  refine ⟨shorter, semicolon, ending, splitLater.symm, isSemicolon, List.Subset.trans ?_ among⟩
  exact List.append_subset.mpr
    ⟨List.Subset.trans suffix.1.subset (List.subset_append_left _ _), List.subset_append_right _ _⟩

theorem Braceless.current_mem (braceless : cursor.Braceless spots) : cursor.current ∈ spots := by
  obtain ⟨front, semicolon, ending, split, _, among⟩ := braceless.last
  refine among ?_
  cases front with
  | nil => exact List.mem_singleton.mpr (List.cons.inj split).1
  | cons first front => exact List.mem_cons.mpr (.inl (List.cons.inj split).1)

theorem Braceless.inside (braceless : cursor.Braceless spots) :
    cursor.current.kind ≠ .endOfInput := by
  obtain ⟨front, semicolon, ending, split, _⟩ := braceless.last
  intro atEnd
  have length := congrArg List.length split
  simp [Cursor.tokens, (ahead_eq_nil_iff braceless.ended).mpr atEnd] at length

/-- The semicolon is behind every token that can end an expression. -/
theorem Braceless.step (braceless : cursor.Braceless spots)
    (ends : Reader.endsExpression cursor.current.kind) : cursor.step.Braceless spots := by
  refine braceless.onward cursor.onward_step.tokens fun atEnd => ?_
  have ended := cursor.onward_step.ended braceless.ended
  have only := (ahead_eq_nil_iff ended).mpr atEnd
  have tokens := tokens_step_of_inside braceless.ended ends.2
  obtain ⟨front, semicolon, ending, split, isSemicolon, _⟩ := braceless.last
  rw [Cursor.tokens, ← tokens, Cursor.tokens, only] at split
  obtain rfl : front = [] := by
    have length := congrArg List.length split
    simpa using length
  exact ends.1 ((List.cons.inj split).1 ▸ isSemicolon)

end Cursor

/-! ## Contained readers -/

structure Outcome.Fenced {α : Type} (spots : List Token) (before : Cursor)
    (outcome : Outcome Cursor Diagnostic α) : Prop where
  cites : outcome.Cites spots before
  ends : ∀ value later, outcome = .ok value later → Reader.endsExpression later.current.kind

namespace Reader

variable {α β : Type} {spots : List Token} {run : Reader α} {next : α → Reader β}
  {cursor : Cursor}

def Contained (spots : List Token) (run : Reader α) : Prop :=
  ∀ cursor : Cursor, cursor.Braceless spots → (run cursor).Fenced spots cursor

def ContainedRest (spots : List Token) (run : Reader α) : Prop :=
  ∀ cursor : Cursor, cursor.Braceless spots → endsExpression cursor.current.kind →
    (run cursor).Fenced spots cursor

theorem fenced_bind (braceless : cursor.Braceless spots) (fenced : (run cursor).Fenced spots cursor)
    (rest : ∀ value, ContainedRest spots (next value)) :
    ((run >>= next) cursor).Fenced spots cursor := by
  have fencedNext (value : α) (later : Cursor) (ran : run cursor = .ok value later)
      (notes : cursor.Notes spots later) : (next value later).Fenced spots later := by
    have ends := fenced.ends value later ran
    exact rest value later (braceless.onward notes.tokens ends.2) ends
  have cites := cites_bind fenced.cites fun value later ran notes =>
    (fencedNext value later ran notes).cites
  refine ⟨cites, fun result final ran => ?_⟩
  obtain ⟨value, later, ranFirst, ranNext⟩ := Run.bind_eq_ok ran
  have notes := fenced.cites
  rw [ranFirst] at notes
  exact (fencedNext value later ranFirst notes).ends result final ranNext

theorem Contained.bind (contained : Contained spots run)
    (rest : ∀ value, ContainedRest spots (next value)) : Contained spots (run >>= next) :=
  fun cursor braceless => fenced_bind braceless (contained cursor braceless) rest

theorem ContainedRest.bind (contained : ContainedRest spots run)
    (rest : ∀ value, ContainedRest spots (next value)) : ContainedRest spots (run >>= next) :=
  fun cursor braceless ends => fenced_bind braceless (contained cursor braceless ends) rest

theorem containedRest_pure (value : α) : ContainedRest spots (pure value) := by
  refine fun cursor _ ends => ⟨Cursor.Notes.refl cursor, ?_⟩
  rintro _ _ ⟨⟩
  exact ends

theorem fenced_raised {diagnostic : Diagnostic} {token : Token} (member : token ∈ spots)
    (points : diagnostic.position = token.start) (cursor : Cursor) :
    (.raised diagnostic cursor : Outcome Cursor Diagnostic α).Fenced spots cursor := by
  refine ⟨⟨Cursor.Notes.refl cursor, ?_⟩, nofun⟩
  rw [Diagnostic.PointsInto, points]
  exact List.mem_map_of_mem member

/-- What was done before without a diagnostic makes no difference. -/
theorem fenced_step {outcome : Outcome Cursor Diagnostic α}
    (fenced : outcome.Fenced spots cursor.step) : outcome.Fenced spots cursor :=
  ⟨fenced.cites.after (cursor.onward_step.notes (by simp)), fenced.ends⟩

theorem Contained.afterAdvance (contained : Contained spots run) :
    ContainedRest spots (advance >>= fun _ => run) := by
  intro cursor braceless ends
  rw [Run.bind_apply, advance_eq braceless.ended]
  exact fenced_step (contained cursor.step (braceless.step ends))

theorem containedRest_expect {kind : Kind} (ends : endsExpression kind) :
    ContainedRest spots (expect kind) := by
  intro cursor braceless endsHere
  rw [expect_eq braceless.ended]
  split
  · rename_i found
    refine ⟨cursor.onward_step.notes (by simp), ?_⟩
    rintro _ _ ⟨⟩
    rw [found]
    exact ends
  · exact fenced_raised (braceless.step endsHere).current_mem rfl cursor

/-- There is no block. -/
theorem containedRest_leftBrace (next : Unit → Reader β) :
    ContainedRest spots (expect .leftBrace >>= next) := by
  intro cursor braceless ends
  have further := braceless.step ends
  obtain ⟨unopened, _⟩ := further.unbraced cursor.step.current (List.mem_cons_self ..)
  rw [Run.bind_apply, expect_eq braceless.ended, if_neg unopened]
  exact fenced_raised further.current_mem rfl cursor

theorem ContainedRest.whenNext {orElse : Reader α} {kind : Kind} (ends : endsExpression kind)
    (contained : ContainedRest spots run) (containedElse : ContainedRest spots orElse) :
    ContainedRest spots (peekIs kind >>= fun found =>
      if found = true then advance >>= fun _ => run else orElse) := by
  intro cursor braceless endsHere
  rw [Run.bind_apply, peekIs_eq braceless.ended]
  by_cases found : cursor.step.current.kind = kind
  · simp only [found, decide_true, if_true, Run.bind_apply, advance_eq braceless.ended]
    exact fenced_step (contained cursor.step (braceless.step endsHere) (found ▸ ends))
  · simp only [found, decide_false]
    exact containedElse cursor braceless endsHere

/-! ## Expressions -/

theorem endsExpression_of_leading {kind : Kind} {form : Leading}
    (begins : kind.leading? = some form) : endsExpression kind := by
  constructor <;> rintro rfl <;> cases begins

theorem endsExpression_of_continuation {minimum : Precedence} {left : Expr} {kind : Kind}
    {form : Trailing} (found : kind.continuation? minimum left = some form) :
    endsExpression kind := by
  constructor <;> rintro rfl <;>
    simp [Kind.continuation?, Kind.precedence, Precedence.rank] at found

theorem contained_parameter : Contained spots parameter := by
  intro cursor braceless
  simp only [parameter, Run.bind_apply, current]
  split
  · rename_i isName
    exact containedRest_pure _ cursor braceless (isName ▸ ⟨by decide, by decide⟩)
  · exact fenced_raised braceless.current_mem rfl cursor

section Items

variable {item : Reader α} (contained : Contained spots item)

include contained

theorem containedRest_itemsRest (rounds : Nat) :
    ContainedRest spots (itemsRest item rounds) := by
  induction rounds with
  | zero => exact fun _ _ _ => ⟨trivial, nofun⟩
  | succ rounds ih =>
      refine ContainedRest.whenNext ⟨by decide, by decide⟩ ?_ (containedRest_pure _)
      exact (contained.bind fun _ => ih.bind fun _ => containedRest_pure _).afterAdvance

theorem containedRest_items {close : Kind} (ends : endsExpression close) (rounds : Nat) :
    ContainedRest spots (items close item rounds) := by
  refine ContainedRest.whenNext ends (containedRest_pure _) ?_
  exact (contained.bind fun _ => (containedRest_itemsRest contained rounds).bind fun _ =>
    (containedRest_expect ends).bind fun _ => containedRest_pure _).afterAdvance

end Items

section Parts

variable {expr : Precedence → Reader Expr} {rounds : Nat}
  (contained : ∀ minimum, Contained spots (expr minimum))

include contained

theorem containedRest_leadingForm (token : Token) {form : Leading} (other : form ≠ .integer)
    (noHash : form ≠ .hash) : ContainedRest spots (leadingForm expr rounds token form) := by
  cases form with
  | name => exact containedRest_pure _
  | integer => contradiction
  | string => exact containedRest_pure _
  | boolean value => exact containedRest_pure _
  | unary op => exact ((contained _).bind fun _ => containedRest_pure _).afterAdvance
  | group =>
      exact ((contained _).bind fun _ => (containedRest_expect ⟨by decide, by decide⟩).bind
        fun _ => containedRest_pure _).afterAdvance
  | array =>
      exact (containedRest_items (contained _) ⟨by decide, by decide⟩ rounds).bind
        fun _ => containedRest_pure _
  | hash => contradiction
  | conditional =>
      exact ((contained _).bind fun _ => containedRest_leftBrace _).afterAdvance
  | function =>
      exact (containedRest_expect ⟨by decide, by decide⟩).bind fun _ =>
        (containedRest_items contained_parameter ⟨by decide, by decide⟩ rounds).bind
          fun _ => containedRest_leftBrace _

theorem contained_operand : Contained spots (operand .standard expr rounds) := by
  intro cursor braceless
  obtain ⟨unopened, _⟩ := braceless.unbraced cursor.current (List.mem_cons_self ..)
  rw [operand_apply]
  cases begins : cursor.current.kind.leading? with
  | none =>
      exact fenced_raised braceless.current_mem (Diagnostic.notLeading_position _) cursor
  | some form =>
      have ends := endsExpression_of_leading begins
      by_cases integer : form = .integer
      · subst integer
        show (leadingForm expr rounds cursor.current .integer cursor).Fenced spots cursor
        rw [integer_apply]
        split
        · exact containedRest_pure _ cursor braceless ends
        · exact fenced_raised braceless.current_mem rfl cursor
      · have noHash : form ≠ .hash := by
          rintro rfl
          exact unopened (kind_of_leading begins)
        exact containedRest_leadingForm contained _ integer noHash cursor braceless ends

theorem containedRest_trailingForm (rounds : Nat) (left : Expr) (token : Token)
    (form : Trailing) : ContainedRest spots (trailingForm expr rounds left token form) := by
  cases form with
  | binary op => exact ((contained _).bind fun _ => containedRest_pure _).afterAdvance
  | call =>
      exact (containedRest_items (contained _) ⟨by decide, by decide⟩ rounds).bind
        fun _ => containedRest_pure _
  | index =>
      exact ((contained _).bind fun _ => (containedRest_expect ⟨by decide, by decide⟩).bind
        fun _ => containedRest_pure _).afterAdvance

theorem containedRest_operatorRound (minimum : Precedence) (left : Expr) :
    ContainedRest spots (operatorRound .standard expr rounds minimum left) := by
  intro cursor braceless ends
  rw [operatorRound_apply braceless.ended]
  cases found : cursor.step.current.kind.continuation? minimum left with
  | none => exact containedRest_pure none cursor braceless ends
  | some form =>
      have extended := (containedRest_trailingForm contained rounds left cursor.step.current
        form).bind fun extended => containedRest_pure (some extended)
      exact fenced_step
        (extended cursor.step (braceless.step ends) (endsExpression_of_continuation found))

theorem containedRest_operators (inner : Nat) (minimum : Precedence) (left : Expr) :
    ContainedRest spots (operators .standard expr inner minimum rounds left) := by
  induction rounds generalizing left with
  | zero => exact fun _ _ _ => ⟨trivial, nofun⟩
  | succ rounds ih =>
      rw [operators_succ]
      refine (containedRest_operatorRound contained minimum left).bind fun found => ?_
      cases found with
      | none => exact containedRest_pure _
      | some extended => exact ih extended

theorem containedRest_definition : ContainedRest spots (definition expr) := by
  have value (name : Token) : ContainedRest spots (expect .assign >>= fun _ =>
      advance >>= fun _ => expr .lowest >>= fun value => pure (name.literal, value)) :=
    (containedRest_expect ⟨by decide, by decide⟩).bind fun _ =>
      ((contained .lowest).bind fun _ => containedRest_pure _).afterAdvance
  refine (containedRest_expect ⟨by decide, by decide⟩).bind fun _ => ?_
  exact fun cursor braceless ends => value cursor.current cursor braceless ends

end Parts

theorem contained_expression (depth : Nat) (minimum : Precedence) :
    Contained spots (expression .standard depth minimum) := by
  induction depth generalizing minimum with
  | zero => exact fun _ _ => ⟨trivial, nofun⟩
  | succ depth ih =>
      exact (contained_operand ih).bind fun first => containedRest_operators ih _ minimum first

/-! ## Statements -/

theorem cites_passSemicolon (ended : Ended cursor.tokens) :
    (passSemicolon cursor).Cites spots cursor := by
  rw [passSemicolon_eq ended]
  split
  · exact cursor.onward_step.notes (by simp)
  · exact Cursor.Notes.refl cursor

theorem cites_endStatement (ended : Ended cursor.tokens) :
    (endStatement cursor).Cites spots cursor := by
  have suffix := skipUntilNext_suffix endsStatement cursor.current cursor.ahead
  have endedSkip : Ended cursor.beforeEnd.tokens := ended.of_suffix suffix (List.cons_ne_nil _ _)
  have notes : cursor.Notes spots cursor.beforeEnd :=
    ⟨suffix, [], by simp [Cursor.beforeEnd, Cursor.moveTo], by simp⟩
  exact (cites_passSemicolon endedSkip).after notes

/-- A statement in two parts, the second of which makes no complaints. -/
theorem cites_follow {head : Reader α} {ending : Reader Unit} {wrap : α → Stmt}
    (braceless : cursor.Braceless spots) (fenced : (head cursor).Fenced spots cursor)
    (quiet : ∀ later : Cursor, Ended later.tokens → (ending later).Cites spots later) :
    ((head >>= fun found => ending >>= fun _ => pure (wrap found)) cursor).Cites spots cursor := by
  refine cites_bind fenced.cites fun value later ran notes => ?_
  refine cites_bind (quiet later (notes.onward.ended braceless.ended)) fun _ final _ _ => ?_
  exact Cursor.Notes.refl final

theorem cites_statement {depth : Nat} (braceless : cursor.Braceless spots) :
    (statement (expression .standard depth) cursor).Cites spots cursor := by
  have contained (minimum : Precedence) :
      Contained spots (expression .standard depth minimum) := contained_expression depth minimum
  rw [statement_apply]
  split
  · rename_i isLet
    rw [define_eq]
    have ends : endsExpression cursor.current.kind := isLet ▸ ⟨by decide, by decide⟩
    exact cites_follow braceless (containedRest_definition contained cursor braceless ends)
      fun _ => cites_endStatement
  split
  · rename_i isReturn
    rw [returning_eq]
    have ends : endsExpression cursor.current.kind := isReturn ▸ ⟨by decide, by decide⟩
    exact cites_follow braceless ((contained .lowest).afterAdvance cursor braceless ends)
      fun _ => cites_endStatement
  · rw [exprStatement_eq]
    exact cites_follow braceless (contained .lowest cursor braceless) fun _ => cites_passSemicolon

theorem cites_round {leave : Cursor → Cursor}
    (notes : ∀ cursor : Cursor, cursor.Notes spots (leave cursor))
    {outcome : Outcome Cursor Diagnostic Stmt} (cites : outcome.Cites spots cursor) :
    (outcome.round leave).Cites spots cursor := by
  cases outcome with
  | ok value later => exact Cursor.Notes.trans cites (later.onward_step.notes (by simp))
  | raised diagnostic later =>
      exact (cites.1.trans (Cursor.notes_noted cites.2 later)).trans (notes _)
  | halted why => trivial

theorem cites_programRound {depth : Nat} (braceless : cursor.Braceless spots) :
    (programRound (statement (expression .standard depth)) cursor).Cites spots cursor := by
  rw [programRound_eq (local_statement (local_expression depth)) braceless.ended braceless.inside]
  refine cites_round (fun later => ?_) (cites_statement braceless)
  exact (later.onward_leftStatement.trans later.leftStatement.onward_step).notes
    (Cursor.step_recorded _)

/-- No diagnostic points beyond the last semicolon. -/
theorem cites_programRest {depth : Nat} (rounds : Nat) (ended : Ended cursor.tokens)
    (place : cursor.Braceless spots ∨ cursor.current.kind = .endOfInput) :
    (programRest (statement (expression .standard depth)) rounds cursor).Cites spots cursor := by
  induction rounds generalizing cursor with
  | zero => trivial
  | succ rounds ih =>
      rw [programRest_succ]
      rcases place with braceless | atEnd
      · refine cites_bind (cites_programRound braceless) fun found later _ notes => ?_
        have place : later.Braceless spots ∨ later.current.kind = .endOfInput :=
          or_iff_not_imp_right.mpr (braceless.onward notes.tokens)
        cases found with
        | none => exact Cursor.Notes.refl later
        | some first =>
            refine cites_bind (ih (notes.onward.ended ended) place) fun others final _ _ => ?_
            exact Cursor.Notes.refl final
      · rw [Run.bind_apply, programRound_atEnd _ atEnd]
        exact Cursor.Notes.refl cursor

end Reader

/-! ## Leaving bad statements -/

theorem skipInBlock_plain {depth : Nat} {current next : Token} {ahead : List Token}
    (noSemicolon : current.kind ≠ .semicolon) (unopened : current.kind ≠ .leftBrace)
    (unclosed : current.kind ≠ .rightBrace) (inside : current.kind ≠ .endOfInput) :
    skipInBlock depth current (next :: ahead) = skipInBlock depth next ahead := by
  rw [skipInBlock.eq_def]
  split <;> simp_all

theorem leftBlockStatement_semicolon {cursor : Cursor} (more : cursor.ahead ≠ [])
    (isSemicolon : cursor.current.kind = .semicolon) :
    cursor.leftBlockStatement = cursor.leftStatement.step := by
  obtain ⟨next, ahead, listed⟩ := List.exists_cons_of_ne_nil more
  simp [Cursor.leftBlockStatement, Cursor.leftStatement, listed, skipInBlock, skipUntil,
    isSemicolon, Cursor.moveTo, Cursor.step]

/-- Without braces, a bad statement of a block ends at the same semicolon as one of a program. -/
theorem leftBlockStatement_eq {cursor : Cursor} {front back : List Token} {semicolon : Token}
    (split : cursor.tokens = front ++ semicolon :: back) (more : back ≠ [])
    (isSemicolon : semicolon.kind = .semicolon) (unbraced : Unbraced front)
    (inside : ∀ token ∈ front, token.kind ≠ .endOfInput) :
    cursor.leftBlockStatement = cursor.leftStatement.step := by
  obtain ⟨current, ahead, recorded⟩ := cursor
  induction front generalizing current ahead with
  | nil =>
      obtain ⟨rfl, rfl⟩ := List.cons.inj split
      exact leftBlockStatement_semicolon more isSemicolon
  | cons first front ih =>
      obtain ⟨rfl, splitAhead⟩ : current = first ∧ ahead = front ++ semicolon :: back :=
        List.cons.inj split
      obtain ⟨⟨unopened, unclosed⟩, unbracedAhead⟩ := List.forall_mem_cons.mp unbraced
      obtain ⟨insideHere, insideAhead⟩ := List.forall_mem_cons.mp inside
      have goesOn : ahead ≠ [] := by simp [splitAhead]
      by_cases here : current.kind = .semicolon
      · exact leftBlockStatement_semicolon goesOn here
      · obtain ⟨next, rest, rfl⟩ := List.exists_cons_of_ne_nil goesOn
        have further := ih unbracedAhead insideAhead next rest splitAhead
        simp only [Cursor.leftBlockStatement, Cursor.leftStatement] at further ⊢
        rw [skipInBlock_plain here unopened unclosed insideHere, Course.skipUntil_cons,
          if_neg (by simp [here, insideHere])]
        exact further

end Scriptlet
