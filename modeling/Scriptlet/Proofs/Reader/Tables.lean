import Scriptlet.Proofs.Reader.Progress

/-!
# Rules for tokens that do not occur

A reader looks up a rule only by the kind of a token it stands on or before, so rules for kinds that
do not occur in a text have no part in its reading. `Agree` compares two readers among the tokens of
a list: started on any of them they do the same, and they do not leave the list. It holds of each
reader with the one table of rules and with the other, if the tables agree about the tokens of the
list. Of the rules for what follows an operand only those count whose kinds bind more tightly than
`lowest`, as nothing is read with a smaller precedence than that.
-/
set_option autoImplicit false

namespace Scriptlet

open Token (Kind)

/-- The tables have the same rules for the tokens of the list. -/
structure Handlers.AgreeOn (list : List Token) (handlers others : Handlers) : Prop where
  leading : ∀ token ∈ list, handlers.leading? token.kind = others.leading? token.kind
  trailing : ∀ token ∈ list, token.kind.precedence ≠ .lowest →
    handlers.trailing? token.kind = others.trailing? token.kind

def Outcome.Stays {α : Type} (list : List Token) : Outcome Cursor Diagnostic α → Prop
  | .ok _ later => later.tokens <:+ list
  | .raised _ later => later.tokens <:+ list
  | .halted _ => True

namespace Reader

def Agree {α : Type} (list : List Token) (run other : Reader α) : Prop :=
  ∀ cursor : Cursor, cursor.tokens <:+ list →
    other cursor = run cursor ∧ (run cursor).Stays list

variable {α β : Type} {list : List Token}

/-! ## Single moves -/

theorem agree_pure (value : α) : Agree list (pure value) (pure value) :=
  fun _ within => ⟨rfl, within⟩

theorem agree_raise (diagnostic : Diagnostic) :
    Agree list (Run.raise diagnostic : Reader α) (Run.raise diagnostic) :=
  fun _ within => ⟨rfl, within⟩

theorem agree_halt (why : Halt) : Agree list (Run.halt why : Reader α) (Run.halt why) :=
  fun _ _ => ⟨rfl, trivial⟩

theorem agree_ofExcept (result : Except Diagnostic α) :
    Agree list (Run.ofExcept result : Reader α) (Run.ofExcept result) := by
  cases result with
  | ok value => exact agree_pure value
  | error diagnostic => exact agree_raise diagnostic

theorem agree_modify {change : Cursor → Cursor}
    (onward : ∀ cursor, (change cursor).tokens <:+ cursor.tokens) :
    Agree list (Run.modify change : Reader Unit) (Run.modify change) :=
  fun cursor within => ⟨rfl, (onward cursor).trans within⟩

theorem agree_advance : Agree list advance advance := by
  intro cursor within
  refine ⟨rfl, ?_⟩
  unfold advance
  split
  · rename_i next ahead more
    exact (List.suffix_cons cursor.current (next :: ahead)).trans (more ▸ within)
  · split
    · exact within
    · trivial

theorem Agree.bind {run other : Reader α} {next nextOther : α → Reader β}
    (agree : Agree list run other) (agreeNext : ∀ value, Agree list (next value) (nextOther value)) :
    Agree list (run >>= next) (other >>= nextOther) := by
  intro cursor within
  obtain ⟨same, stays⟩ := agree cursor within
  rw [Run.bind_apply, Run.bind_apply, same]
  cases outcome : run cursor with
  | ok value later =>
      rw [outcome] at stays
      exact agreeNext value later stays
  | raised diagnostic later =>
      rw [outcome] at stays
      exact ⟨rfl, stays⟩
  | halted why => exact ⟨rfl, trivial⟩

theorem Agree.ite {run other alternative alternativeOther : Reader α} {condition : Prop}
    [Decidable condition] (agree : Agree list run other)
    (agreeOther : Agree list alternative alternativeOther) :
    Agree list (if condition then run else alternative)
      (if condition then other else alternativeOther) := by
  split
  · exact agree
  · exact agreeOther

theorem Agree.attempt {run other : Reader α} (agree : Agree list run other) :
    Agree list (Run.attempt run) (Run.attempt other) := by
  intro cursor within
  obtain ⟨same, stays⟩ := agree cursor within
  rw [Run.attempt, Run.attempt, same]
  refine ⟨rfl, ?_⟩
  cases outcome : run cursor with
  | ok value later => rwa [outcome] at stays
  | raised diagnostic later => rwa [outcome] at stays
  | halted why => trivial

/-- What depends on the current token needs to agree only for the tokens of the list. -/
theorem Agree.afterCurrent {next nextOther : Token → Reader β}
    (agree : ∀ token ∈ list, Agree list (next token) (nextOther token)) :
    Agree list (current >>= next) (current >>= nextOther) :=
  fun cursor within => agree _ (within.subset List.mem_cons_self) cursor within

theorem Agree.afterPeek {next nextOther : Token → Reader β}
    (agree : ∀ token ∈ list, Agree list (next token) (nextOther token)) :
    Agree list (peek >>= next) (peek >>= nextOther) := by
  intro cursor within
  rw [Run.bind_apply, Run.bind_apply]
  unfold peek
  cases more : cursor.ahead with
  | nil =>
      by_cases atEnd : cursor.current.kind = .endOfInput
      · simp only [if_pos atEnd]
        exact agree _ (within.subset List.mem_cons_self) cursor within
      · simp only [if_neg atEnd]
        exact ⟨trivial, trivial⟩
  | cons token ahead =>
      exact agree token (within.subset (by simp [Cursor.tokens, more])) cursor within

theorem agree_peekIs (kind : Kind) : Agree list (peekIs kind) (peekIs kind) :=
  Agree.afterPeek fun _ _ => agree_pure _

theorem agree_expect (kind : Kind) : Agree list (expect kind) (expect kind) :=
  Agree.afterPeek fun _ _ => agree_advance.ite (agree_raise _)

theorem agree_record (diagnostic : Diagnostic) :
    Agree list (record diagnostic) (record diagnostic) :=
  agree_modify fun cursor => (cursor.onward_noted diagnostic).tokens

theorem agree_leaveStatement : Agree list leaveStatement leaveStatement :=
  agree_modify fun cursor => cursor.onward_leftStatement.tokens

theorem agree_leaveBlockStatement : Agree list leaveBlockStatement leaveBlockStatement :=
  agree_modify fun cursor => cursor.onward_leftBlockStatement.tokens

theorem agree_endStatement : Agree list endStatement endStatement := by
  refine (agree_modify fun cursor => ?_).bind fun _ =>
    (agree_peekIs _).bind fun _ => agree_advance.ite (agree_pure ())
  exact skipUntilNext_suffix _ _ _

/-! ## Lists and statements -/

theorem agree_itemsRest {item other : Reader α} (agree : Agree list item other) (rounds : Nat) :
    Agree list (itemsRest item rounds) (itemsRest other rounds) := by
  induction rounds with
  | zero => exact agree_halt _
  | succ rounds ih =>
      refine (agree_peekIs _).bind fun _ => Agree.ite ?_ (agree_pure _)
      exact agree_advance.bind fun _ => agree_advance.bind fun _ => agree.bind fun _ =>
        ih.bind fun _ => agree_pure _

theorem agree_items {item other : Reader α} (agree : Agree list item other) (close : Kind)
    (rounds : Nat) : Agree list (items close item rounds) (items close other rounds) := by
  refine (agree_peekIs _).bind fun _ => Agree.ite (agree_advance.bind fun _ => agree_pure _) ?_
  exact agree_advance.bind fun _ => agree.bind fun _ => (agree_itemsRest agree rounds).bind
    fun _ => (agree_expect close).bind fun _ => agree_pure _

theorem agree_parameter : Agree list parameter parameter :=
  Agree.afterCurrent fun _ _ => (agree_pure _).ite (agree_raise _)

theorem agree_blockRest {stmt other : Reader Stmt} (agree : Agree list stmt other) (rounds : Nat) :
    Agree list (blockRest stmt rounds) (blockRest other rounds) := by
  induction rounds with
  | zero => exact agree_halt _
  | succ rounds ih =>
      refine Agree.afterCurrent fun token _ => Agree.ite (agree_pure _) (Agree.ite (agree_raise _) ?_)
      refine agree.attempt.bind fun result => ?_
      cases result with
      | ok first => exact agree_advance.bind fun _ => ih.bind fun _ => agree_pure _
      | error diagnostic =>
          exact (agree_record diagnostic).bind fun _ => agree_leaveBlockStatement.bind fun _ => ih

theorem agree_programRest {stmt other : Reader Stmt} (agree : Agree list stmt other)
    (rounds : Nat) : Agree list (programRest stmt rounds) (programRest other rounds) := by
  induction rounds with
  | zero => exact agree_halt _
  | succ rounds ih =>
      refine Agree.afterCurrent fun token _ => Agree.ite (agree_pure _) ?_
      refine agree.attempt.bind fun result => ?_
      cases result with
      | ok first => exact agree_advance.bind fun _ => ih.bind fun _ => agree_pure _
      | error diagnostic =>
          exact (agree_record diagnostic).bind fun _ => agree_leaveStatement.bind fun _ =>
            agree_advance.bind fun _ => ih

section Parts

variable {expr other : Precedence → Reader Expr}
  (agree : ∀ minimum, Agree list (expr minimum) (other minimum))

include agree

theorem agree_define : Agree list (define expr) (define other) :=
  (agree_expect _).bind fun _ => Agree.afterCurrent fun _ _ => (agree_expect _).bind fun _ =>
    agree_advance.bind fun _ => (agree _).bind fun _ => agree_endStatement.bind fun _ =>
      agree_pure _

theorem agree_returning : Agree list (returning expr) (returning other) :=
  agree_advance.bind fun _ => (agree _).bind fun _ => agree_endStatement.bind fun _ => agree_pure _

theorem agree_exprStatement : Agree list (exprStatement expr) (exprStatement other) :=
  (agree _).bind fun _ => (agree_peekIs _).bind fun _ =>
    Agree.ite (agree_advance.bind fun _ => agree_pure _) (agree_pure _)

theorem agree_statement : Agree list (statement expr) (statement other) := by
  refine Agree.afterCurrent fun token _ => ?_
  split
  · exact agree_define agree
  · exact agree_returning agree
  · exact agree_exprStatement agree

theorem agree_block (rounds : Nat) : Agree list (block expr rounds) (block other rounds) :=
  agree_advance.bind fun _ => agree_blockRest (agree_statement agree) rounds

theorem agree_pair : Agree list (pair expr) (pair other) :=
  (agree _).bind fun _ => (agree_expect _).bind fun _ => agree_advance.bind fun _ =>
    (agree _).bind fun _ => agree_pure _

/-! ## Expressions -/

theorem agree_leadingForm (rounds : Nat) (token : Token) (form : Leading) :
    Agree list (leadingForm expr rounds token form) (leadingForm other rounds token form) := by
  cases form with
  | name => exact agree_pure _
  | integer => exact (agree_ofExcept _).bind fun _ => agree_pure _
  | string => exact agree_pure _
  | boolean value => exact agree_pure _
  | unary op => exact agree_advance.bind fun _ => (agree _).bind fun _ => agree_pure _
  | group =>
      exact agree_advance.bind fun _ => (agree _).bind fun _ => (agree_expect _).bind fun _ =>
        agree_pure _
  | array => exact (agree_items (agree _) _ rounds).bind fun _ => agree_pure _
  | hash => exact (agree_items (agree_pair agree) _ rounds).bind fun _ => agree_pure _
  | conditional =>
      refine agree_advance.bind fun _ => (agree _).bind fun _ => (agree_expect _).bind fun _ =>
        (agree_block agree rounds).bind fun _ => (agree_peekIs _).bind fun _ => ?_
      refine Agree.ite ?_ (agree_pure _)
      exact agree_advance.bind fun _ => (agree_expect _).bind fun _ =>
        (agree_block agree rounds).bind fun _ => agree_pure _
  | function =>
      exact (agree_expect _).bind fun _ => (agree_items agree_parameter _ rounds).bind fun _ =>
        (agree_expect _).bind fun _ => (agree_block agree rounds).bind fun _ => agree_pure _

theorem agree_trailingForm (rounds : Nat) (left : Expr) (token : Token) (form : Trailing) :
    Agree list (trailingForm expr rounds left token form)
      (trailingForm other rounds left token form) := by
  cases form with
  | binary op => exact agree_advance.bind fun _ => (agree _).bind fun _ => agree_pure _
  | call => exact (agree_items (agree _) _ rounds).bind fun _ => agree_pure _
  | index =>
      exact agree_advance.bind fun _ => (agree _).bind fun _ => (agree_expect _).bind fun _ =>
        agree_pure _

omit agree in
theorem agree_handler {block blockOther : Reader Block} (agree : Agree list block blockOther)
    (handler : Handler) : Agree list (handler.run block) (handler.run blockOther) := by
  induction handler with
  | finish result => exact agree_ofExcept result
  | look next ih => exact Agree.bind (fun _ within => ⟨rfl, within⟩) fun cursor => ih cursor
  | record diagnostic next ih => exact (agree_record diagnostic).bind fun _ => ih
  | read next ih => exact agree.attempt.bind fun result => ih result

theorem agree_extend (rounds : Nat) (left : Expr) (token : Token)
    (rule : TrailingHandler ⊕ Trailing) :
    Agree list (extend expr rounds left token rule) (extend other rounds left token rule) := by
  match rule with
  | .inl handler => exact agree_handler (agree_block agree rounds) (handler left)
  | .inr form => exact agree_trailingForm agree rounds left token form

variable {handlers others : Handlers} (agreeOn : handlers.AgreeOn list others)

include agreeOn

theorem agree_operand (rounds : Nat) :
    Agree list (operand handlers expr rounds) (operand others other rounds) := by
  refine Agree.afterCurrent fun token member => ?_
  rw [← agreeOn.leading token member]
  split
  · exact agree_handler (agree_block agree rounds) _
  · exact agree_leadingForm agree rounds _ _
  · exact agree_raise _

theorem agree_operators (inner : Nat) (minimum : Precedence) (rounds : Nat) (left : Expr) :
    Agree list (operators handlers expr inner minimum rounds left)
      (operators others other inner minimum rounds left) := by
  induction rounds generalizing left with
  | zero => exact agree_halt _
  | succ rounds ih =>
      refine Agree.afterPeek fun next member => ?_
      by_cases binds : minimum.rank < next.kind.precedence.rank
      · have counts : next.kind.precedence ≠ .lowest := by
          intro lowest
          rw [lowest] at binds
          exact absurd binds (Nat.not_lt_zero _)
        rw [if_pos binds, if_pos binds, trailingRule, trailingRule,
          ← agreeOn.trailing next member counts]
        split
        · exact agree_pure _
        · exact agree_advance.bind fun _ => (agree_extend agree inner left next _).bind
            fun extended => ih extended
      · rw [if_neg binds, if_neg binds]
        exact agree_pure _

end Parts

theorem agree_expression {handlers others : Handlers} (agreeOn : handlers.AgreeOn list others)
    (depth : Nat) (minimum : Precedence) :
    Agree list (expression handlers depth minimum) (expression others depth minimum) := by
  induction depth generalizing minimum with
  | zero => exact agree_halt _
  | succ depth ih =>
      exact (agree_operand ih agreeOn _).bind fun first =>
        agree_operators ih agreeOn _ minimum _ first

theorem agree_program {handlers others : Handlers} (agreeOn : handlers.AgreeOn list others)
    (bound : Nat) : Agree list (program handlers bound) (program others bound) :=
  (agree_programRest (agree_statement (agree_expression agreeOn bound)) bound).bind fun _ =>
    agree_pure _

end Reader

/-! ## Texts -/

theorem readWith_complete (handlers : Handlers) (source : String) :
    (readWith handlers source).complete = true := by
  obtain ⟨token, ahead, listed⟩ := List.exists_cons_of_ne_nil (ended_tokens source).ne_nil
  have ended := ended_tokens source
  rw [listed] at ended
  have endedStart : Ended (Cursor.start (token :: ahead)).tokens := ended
  obtain ⟨program, later, ran, _⟩ := Reader.program_ok handlers endedStart le_rfl
  rw [readWith, listed]
  exact congrArg (fun outcome => (Reading.ofOutcome outcome).complete) ran

theorem readWith_eq {handlers others : Handlers} {source : String}
    (agreeOn : handlers.AgreeOn (tokens source) others) :
    readWith others source = readWith handlers source := by
  have within : (Cursor.start (tokens source)).tokens <:+ tokens source := by
    obtain ⟨token, ahead, listed⟩ := List.exists_cons_of_ne_nil (ended_tokens source).ne_nil
    rw [listed]
    exact List.suffix_refl _
  exact congrArg Reading.ofOutcome
    (Reader.agree_program agreeOn (tokens source).length _ within).1

theorem Handlers.agreeOn_setTrailing (list : List Token) (handlers : Handlers) {kind : Kind}
    (lowest : kind.precedence = .lowest) (handler : TrailingHandler) :
    handlers.AgreeOn list (handlers.setTrailing kind handler) where
  leading _ _ := rfl
  trailing token _ counts := by
    have differs : token.kind ≠ kind := by
      rintro rfl
      exact counts lowest
    exact (if_neg differs).symm

/-- With any table of rules a text is read to its end, and all tables that agree about its tokens
give the same reading. A rule for what follows an operand never counts if the kind it is for binds
no more tightly than `lowest`. -/
theorem absent_rules_immaterial (source : String) (handlers : Handlers) :
    (readWith handlers source).complete = true ∧
      (∀ others, handlers.AgreeOn (tokens source) others →
        readWith others source = readWith handlers source) ∧
      ∀ kind handler, kind.precedence = .lowest →
        readWith (handlers.setTrailing kind handler) source = readWith handlers source :=
  ⟨readWith_complete handlers source, fun _ agreeOn => readWith_eq agreeOn,
    fun _ handler lowest => readWith_eq (handlers.agreeOn_setTrailing _ lowest handler)⟩

/-- A text in which a junk character stands for whether a block is closed, read with rules for a
star, which does not occur in it, and for a semicolon, which does. -/
theorem absent_rules_immaterial_junk :
    (let handlers := Handlers.standard.setLeading .illegal
      (.read fun body => .finish (.ok (.boolean body.isOk)))
    let others := handlers.setLeading .star (.block fun body => .function [] body)
    let source := "@ 1 \x7d; @ 2"
    handlers.AgreeOn (tokens source) others ∧
      readWith (others.setTrailing .semicolon (.answer fun left _ => .ok left)) source =
        readWith handlers source ∧
      readWith handlers source = ⟨⟨[.expr (.boolean true), .expr (.boolean false)]⟩, [], true⟩) := by
  intro handlers others source
  have listed : tokens source =
      [⟨.illegal, "@", 0, 1⟩, ⟨.integer, "1", 2, 3⟩, ⟨.rightBrace, "\x7d", 4, 5⟩,
        ⟨.semicolon, ";", 5, 6⟩, ⟨.illegal, "@", 7, 8⟩, ⟨.integer, "2", 9, 10⟩,
        ⟨.endOfInput, "", 10, 10⟩] := by decide
  have absent : ∀ token ∈ tokens source, token.kind ≠ .star := by
    rw [listed]
    decide
  have agreeOn : handlers.AgreeOn (tokens source) others :=
    ⟨fun token member => (if_neg (absent token member)).symm, fun _ _ _ => rfl⟩
  refine ⟨agreeOn, ?_, ?_⟩
  · rw [(absent_rules_immaterial source others).2.2 .semicolon _ rfl,
      (absent_rules_immaterial source handlers).2.1 others agreeOn]
  · rw [readWith, listed]
    cbv

end Scriptlet
