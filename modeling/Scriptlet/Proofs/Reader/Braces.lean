import Mathlib.Data.List.Infix
import Scriptlet.Proofs.Reader.Pointing
import Scriptlet.Proofs.Reader.Termination

/-!
# Blocks and their braces

How deep a place lies among braces is told by the balance of the tokens that are left to read: the
balance at the beginning less the balance now. Readers may come to stand deeper than they began,
when an error stops them inside of braces, or when they pass an opening brace for good. They never
rise above the depth of the brace that encloses them (`Aloft`).

A block is over at the first closing brace that its loop meets. `block_closes_iff` says when that is
the partner of the brace that opened the block: when each statement which the loop takes up is left
as deep as it began.
-/
set_option autoImplicit false

namespace Scriptlet

open Token (Kind)

namespace Reader

/-! ## Balances along the way -/

theorem braceBalance_append (front back : List Token) :
    braceBalance (front ++ back) = braceBalance front + braceBalance back := by
  induction front with
  | nil => simp [braceBalance]
  | cons token front ih => simp only [List.cons_append, braceBalance, ih, Int.add_assoc]

theorem braceBalance_tokens (cursor : Cursor) :
    braceBalance cursor.tokens = braceStep cursor.current.kind + braceBalance cursor.ahead :=
  rfl

/-- The end of the input, which follows itself, is no brace. -/
theorem braceBalance_step {cursor : Cursor} (ended : Ended cursor.tokens) :
    braceBalance cursor.step.tokens = braceBalance cursor.ahead := by
  by_cases atEnd : cursor.current.kind = .endOfInput
  · have noBrace : braceStep Kind.endOfInput = 0 := rfl
    rw [Cursor.step_of_atEnd ended atEnd, braceBalance_tokens, atEnd, noBrace, Int.zero_add]
  · rw [Cursor.tokens_step_of_inside ended atEnd]

/-- No place on the way from the first list to the second one has a balance above the height. -/
structure Aloft (height : Int) (start stop : List Token) : Prop where
  suffix : stop <:+ start
  le : ∀ list, list <:+ start → stop <:+ list → braceBalance list ≤ height

namespace Aloft

variable {height higher : Int} {start middle stop : List Token}

theorem refl (le : braceBalance start ≤ height) : Aloft height start start := by
  refine ⟨List.suffix_refl _, fun list after before => ?_⟩
  rwa [after.eq_of_length (Nat.le_antisymm after.length_le before.length_le)]

theorem stop_le (aloft : Aloft height start stop) : braceBalance stop ≤ height :=
  aloft.le stop aloft.suffix (List.suffix_refl _)

theorem mono (aloft : Aloft height start stop) (le : height ≤ higher) :
    Aloft higher start stop :=
  ⟨aloft.suffix, fun list after before => Int.le_trans (aloft.le list after before) le⟩

theorem trans (first : Aloft height start middle) (second : Aloft height middle stop) :
    Aloft height start stop := by
  refine ⟨second.suffix.trans first.suffix, fun list after before => ?_⟩
  rcases List.suffix_or_suffix_of_suffix after first.suffix with later | earlier
  · exact second.le list later before
  · exact first.le list after earlier

theorem shorten (aloft : Aloft height start stop) (after : middle <:+ start)
    (before : stop <:+ middle) : Aloft height start middle :=
  ⟨after, fun list further nearer => aloft.le list further (before.trans nearer)⟩

theorem cons {token : Token} (le : braceBalance (token :: start) ≤ height)
    (aloft : Aloft height start stop) : Aloft height (token :: start) stop := by
  refine ⟨aloft.suffix.trans (List.suffix_cons _ _), fun list after before => ?_⟩
  rcases List.suffix_cons_iff.mp after with rfl | further
  · exact le
  · exact aloft.le list further before

/-- The tokens that were passed never close more braces than they open. -/
theorem passed (aloft : Aloft (braceBalance start) start stop) :
    ∃ inside, start = inside ++ stop ∧ ∀ front, front <+: inside → 0 ≤ braceBalance front := by
  obtain ⟨inside, split⟩ := aloft.suffix
  refine ⟨inside, split.symm, ?_⟩
  rintro front ⟨back, rfl⟩
  have le := aloft.le (back ++ stop) ⟨front, by rw [← split, List.append_assoc]⟩
    (List.suffix_append _ _)
  rw [← split, List.append_assoc, braceBalance_append front] at le
  omega

end Aloft

theorem aloft_step {height : Int} {cursor : Cursor} (ended : Ended cursor.tokens)
    (le : braceBalance cursor.tokens ≤ height) (leAhead : braceBalance cursor.ahead ≤ height) :
    Aloft height cursor.tokens cursor.step.tokens := by
  rw [← braceBalance_step ended] at leAhead
  rcases List.suffix_cons_iff.mp cursor.onward_step.tokens with same | further
  · rw [same]
    exact .refl le
  · by_cases atEnd : cursor.current.kind = .endOfInput
    · rw [(Cursor.ahead_eq_nil_iff ended).mpr atEnd] at further
      exact absurd (List.suffix_nil.mp further) (by simp [Cursor.tokens])
    · rw [Cursor.tokens_step_of_inside ended atEnd] at leAhead ⊢
      exact .cons le (.refl leAhead)

end Reader

/-! ## Readers stay aloft -/

/-- Nowhere on its way does the computation rise above the height. If it gives a value, this
includes its last token. -/
def Outcome.Lofts {α : Type} (height : Int) (start : Cursor) :
    Outcome Cursor Diagnostic α → Prop
  | .ok _ later => later.tokens <:+ start.tokens ∧ Reader.Aloft height start.tokens later.ahead
  | .raised _ later => Reader.Aloft height start.tokens later.tokens
  | .halted _ => True

def Outcome.Hovers {α : Type} (height : Int) (start : Cursor) :
    Outcome Cursor Diagnostic α → Prop
  | .ok _ later => Reader.Aloft height start.tokens later.tokens
  | .raised _ later => Reader.Aloft height start.tokens later.tokens
  | .halted _ => True

namespace Outcome

variable {α : Type} {height higher : Int} {start middle : Cursor}
  {outcome : Outcome Cursor Diagnostic α}

theorem Lofts.after (lofts : outcome.Lofts height middle)
    (aloft : Reader.Aloft height start.tokens middle.tokens) : outcome.Lofts height start := by
  cases outcome with
  | ok value later => exact ⟨lofts.1.trans aloft.suffix, aloft.trans lofts.2⟩
  | raised diagnostic later => exact aloft.trans lofts
  | halted why => trivial

end Outcome

namespace Reader

variable {α β : Type} {height spare : Int} {cursor later : Cursor}

def OnFirst (run : Reader α) : Prop :=
  ∀ height cursor, Ended cursor.tokens → braceBalance cursor.tokens ≤ height →
    (run cursor).Lofts height cursor

/-- The reader goes on behind the current token, which keeps the height by the spare at least. -/
def OnRest (spare : Int) (run : Reader α) : Prop :=
  ∀ height cursor, Ended cursor.tokens → braceBalance cursor.tokens ≤ height →
    braceBalance cursor.ahead + spare ≤ height → (run cursor).Lofts height cursor

theorem aloft_last (aloft : Aloft height cursor.tokens later.ahead)
    (suffix : later.tokens <:+ cursor.tokens) : Aloft height cursor.tokens later.tokens :=
  aloft.shorten suffix (List.suffix_cons _ _)

theorem lofts_bind {run : Reader α} {next : α → Reader β} (ended : Ended cursor.tokens)
    (lofts : (run cursor).Lofts height cursor) (rest : ∀ value, OnRest 0 (next value)) :
    ((run >>= next) cursor).Lofts height cursor := by
  rw [Run.bind_apply]
  cases outcome : run cursor with
  | ok value later =>
      rw [outcome] at lofts
      obtain ⟨suffix, aloft⟩ := lofts
      have aloftLast := aloft_last aloft suffix
      have endedLater : Ended later.tokens := ended.of_suffix suffix (by simp [Cursor.tokens])
      refine (rest value height later endedLater aloftLast.stop_le ?_).after aloftLast
      simpa using aloft.stop_le
  | raised diagnostic later =>
      rw [outcome] at lofts
      exact lofts
  | halted why => trivial

theorem OnFirst.bind {run : Reader α} {next : α → Reader β} (first : OnFirst run)
    (rest : ∀ value, OnRest 0 (next value)) : OnFirst (run >>= next) :=
  fun height cursor ended le => lofts_bind ended (first height cursor ended le) rest

theorem OnRest.bind {run : Reader α} {next : α → Reader β} (onRest : OnRest spare run)
    (rest : ∀ value, OnRest 0 (next value)) : OnRest spare (run >>= next) :=
  fun height cursor ended le leAhead =>
    lofts_bind ended (onRest height cursor ended le leAhead) rest

/-- What goes on behind a token that closes no brace may begin on it. -/
theorem OnRest.onToken {run : Reader α} (rest : OnRest spare run) (ended : Ended cursor.tokens)
    (le : braceBalance cursor.tokens ≤ height) (keeps : spare ≤ braceStep cursor.current.kind) :
    (run cursor).Lofts height cursor := by
  refine rest height cursor ended le ?_
  rw [braceBalance_tokens] at le
  omega

theorem OnFirst.afterAdvance {run : Reader α} (first : OnFirst run) :
    OnRest 0 (advance >>= fun _ => run) := by
  intro height cursor ended le leAhead
  rw [Int.add_zero] at leAhead
  rw [Run.bind_apply, advance_eq ended]
  have aloft := aloft_step ended le leAhead
  exact (first height cursor.step (cursor.onward_step.ended ended) aloft.stop_le).after aloft

theorem OnRest.whenNext {run other : Reader α} {kind : Kind} (rest : OnRest 0 run)
    (restOther : OnRest spare other) (natural : 0 ≤ spare) (keeps : 0 ≤ spare + braceStep kind) :
    OnRest spare
      (peekIs kind >>= fun found => if found = true then advance >>= fun _ => run else other) := by
  intro height cursor ended le leAhead
  rw [Run.bind_apply, peekIs_eq ended]
  by_cases found : cursor.step.current.kind = kind
  · simp only [found, decide_true, if_true, Run.bind_apply, advance_eq ended]
    have leNext : braceBalance cursor.ahead ≤ height := by omega
    have aloft := aloft_step ended le leNext
    refine (rest height cursor.step (cursor.onward_step.ended ended) aloft.stop_le ?_).after aloft
    have balance := braceBalance_tokens cursor.step
    rw [braceBalance_step ended, found] at balance
    omega
  · simp only [found, decide_false, Bool.false_eq_true, if_false]
    exact restOther height cursor ended le leAhead

theorem onRest_pure (natural : 0 ≤ spare) (value : α) : OnRest spare (pure value) := by
  intro height cursor _ le leAhead
  exact ⟨List.suffix_refl _, .cons le (.refl (by omega))⟩

theorem onRest_expect (kind : Kind) (natural : 0 ≤ spare) (keeps : 0 ≤ spare + braceStep kind) :
    OnRest spare (expect kind) := by
  intro height cursor ended le leAhead
  rw [expect_eq ended]
  split
  · rename_i found
    have leNext : braceBalance cursor.ahead ≤ height := by omega
    have aloft := aloft_step ended le leNext
    refine ⟨cursor.onward_step.tokens, aloft.trans (.cons aloft.stop_le (.refl ?_))⟩
    have balance := braceBalance_tokens cursor.step
    rw [braceBalance_step ended, found] at balance
    omega
  · exact .refl le

/-- Behind an opening brace there is height to spare for the closing one. -/
theorem OnRest.afterOpening {run : Reader α} (rest : OnRest 1 run) :
    OnRest 0 (expect .leftBrace >>= fun _ => run) := by
  intro height cursor ended le leAhead
  rw [Run.bind_apply, expect_eq ended]
  by_cases found : cursor.step.current.kind = .leftBrace
  · simp only [found, if_true]
    have leNext : braceBalance cursor.ahead ≤ height := by omega
    have aloft := aloft_step ended le leNext
    exact (rest.onToken (cursor.onward_step.ended ended) aloft.stop_le
      (by rw [found]; decide)).after aloft
  · simp only [found, if_false]
    exact .refl le

theorem braceStep_nonneg {kind : Kind} (notClosing : kind ≠ .rightBrace) : 0 ≤ braceStep kind := by
  cases kind <;> first | contradiction | decide

theorem skipUntilNext_aloft {stops : Kind → Bool} (stopsClosing : stops .rightBrace = true)
    (current : Token) (ahead : List Token) (le : braceBalance (current :: ahead) ≤ height)
    (leAhead : braceBalance ahead ≤ height) :
    Aloft height (current :: ahead) (skipUntilNext stops current ahead).2 := by
  induction ahead generalizing current with
  | nil => exact .cons le (.refl leAhead)
  | cons next ahead ih =>
      unfold skipUntilNext
      split
      · exact .cons le (.refl leAhead)
      · rename_i goesOn
        refine .cons le (ih next leAhead ?_)
        have notClosing : next.kind ≠ .rightBrace := by
          rintro closing
          exact goesOn (by rw [closing, stopsClosing])
        have keeps := braceStep_nonneg notClosing
        rw [braceBalance] at leAhead
        omega

theorem onRest_endStatement : OnRest 0 endStatement := by
  refine OnRest.bind (fun height cursor ended le leAhead => ?_) fun _ => ?_
  · rw [Int.add_zero] at leAhead
    exact ⟨skipUntilNext_suffix _ _ _, skipUntilNext_aloft (by rfl) _ _ le leAhead⟩
  · have done : OnRest 0 (pure () : Reader Unit) := onRest_pure (Int.le_refl 0) ()
    have keeps : 0 ≤ 0 + braceStep .semicolon := by decide
    simpa only [bind_pure_unit] using OnRest.whenNext done done (Int.le_refl 0) keeps

/-! ## Lists -/

theorem onRest_itemsRest {item : Reader α} (first : OnFirst item) (rounds : Nat) :
    OnRest 0 (itemsRest item rounds) := by
  induction rounds with
  | zero => exact fun _ _ _ _ _ => trivial
  | succ rounds ih =>
      refine OnRest.whenNext (OnFirst.afterAdvance ?_) (onRest_pure (Int.le_refl 0) _)
        (Int.le_refl 0) (by decide)
      exact first.bind fun _ => ih.bind fun _ => onRest_pure (Int.le_refl 0) _

/-- The token that closes the items takes up what there is to spare. -/
theorem onRest_items {item : Reader α} (first : OnFirst item) (rounds : Nat) {close : Kind}
    (natural : 0 ≤ spare) (keeps : 0 ≤ spare + braceStep close) :
    OnRest spare (items close item rounds) := by
  refine OnRest.whenNext (onRest_pure (Int.le_refl 0) _) ?_ natural keeps
  intro height cursor ended le leAhead
  -- before the closing token, all of the items keep below the spare
  have aloft := aloft_step ended le (by omega : braceBalance cursor.ahead ≤ height)
  have endedNext := cursor.onward_step.ended ended
  have leNext : braceBalance cursor.step.tokens ≤ height - spare := by
    rw [braceBalance_step ended]
    omega
  have lofts := (first.bind fun head => (onRest_itemsRest first rounds).bind fun tail =>
    onRest_pure (Int.le_refl 0) (head :: tail)) (height - spare) cursor.step endedNext leNext
  have regroup :
      (advance >>= fun _ => item >>= fun head => itemsRest item rounds >>= fun tail =>
        expect close >>= fun _ => pure (head :: tail)) =
      (advance >>= fun _ => (item >>= fun head => itemsRest item rounds >>= fun tail =>
        pure (head :: tail)) >>= fun list => expect close >>= fun _ => pure list) := by
    simp only [bind_assoc, pure_bind]
  rw [regroup, Run.bind_apply, advance_eq ended]
  simp only
  rw [Run.bind_apply]
  generalize (item >>= fun head => itemsRest item rounds >>= fun tail =>
    pure (head :: tail)) cursor.step = outcome at lofts ⊢
  cases outcome with
  | ok list later =>
      obtain ⟨suffix, aloftLast⟩ := lofts
      have aloftHere := aloft_last aloftLast suffix
      have stop := aloftLast.stop_le
      have endedLater : Ended later.tokens := endedNext.of_suffix suffix (by simp [Cursor.tokens])
      have aloftAll := aloft.trans (aloftHere.mono (by omega : height - spare ≤ height))
      exact (((onRest_expect close natural keeps).bind fun _ => onRest_pure (Int.le_refl 0) list)
        height later endedLater aloftAll.stop_le (by omega)).after aloftAll
  | raised diagnostic later =>
      exact aloft.trans (Aloft.mono lofts (by omega : height - spare ≤ height))
  | halted why => trivial

theorem onFirst_parameter : OnFirst parameter := by
  intro height cursor ended le
  simp only [parameter, Run.bind_apply, current]
  split
  · rename_i isName
    exact (onRest_pure (Int.le_refl 0) _).onToken ended le (by rw [isName]; decide)
  · exact .refl le

/-! ## Blocks -/

theorem aloft_leftBlockStatement (le : braceBalance cursor.tokens ≤ height) :
    Aloft height cursor.tokens cursor.leftBlockStatement.tokens := by
  obtain ⟨passed, split, natural⟩ := skipInBlock_balance 0 cursor.current cursor.ahead
  have whole : cursor.tokens = passed ++ cursor.leftBlockStatement.tokens := split
  refine ⟨cursor.onward_leftBlockStatement.tokens, fun list after before => ?_⟩
  obtain ⟨front, splitFront⟩ := after
  obtain ⟨back, rfl⟩ := before
  have passedEq : front ++ back = passed := by
    rw [whole, ← List.append_assoc] at splitFront
    exact List.append_cancel_right splitFront
  have nonneg := natural front ⟨back, passedEq⟩
  rw [← splitFront, braceBalance_append] at le
  simp only [Int.natCast_zero, Int.zero_add] at nonneg
  omega

theorem hovers_blockRound {stmt : Reader Stmt} (first : OnFirst stmt)
    (ended : Ended cursor.tokens) (le : braceBalance cursor.tokens ≤ height) :
    (blockRound stmt cursor).Hovers height cursor := by
  by_cases closing : cursor.current.kind = .rightBrace
  · rw [blockRound_closing stmt closing]
    exact .refl le
  by_cases atEnd : cursor.current.kind = .endOfInput
  · rw [blockRound_atEnd stmt atEnd]
    exact .refl le
  have lofts := first height cursor ended le
  cases outcome : stmt cursor with
  | ok value later =>
      rw [outcome] at lofts
      obtain ⟨suffix, aloft⟩ := lofts
      have endedLater : Ended later.tokens := ended.of_suffix suffix (by simp [Cursor.tokens])
      rw [blockRound_ok endedLater closing atEnd outcome]
      have aloftLast := aloft_last aloft suffix
      exact aloftLast.trans (aloft_step endedLater aloftLast.stop_le aloft.stop_le)
  | raised diagnostic later =>
      rw [outcome] at lofts
      rw [blockRound_raised closing atEnd outcome]
      exact Aloft.trans lofts (aloft_leftBlockStatement (Aloft.stop_le lofts))
  | halted why =>
      rw [blockRound_halted closing atEnd outcome]
      trivial

theorem hovers_blockRest {stmt : Reader Stmt} (first : OnFirst stmt) (rounds : Nat)
    (ended : Ended cursor.tokens) (le : braceBalance cursor.tokens ≤ height) :
    (blockRest stmt rounds cursor).Hovers height cursor := by
  induction rounds generalizing cursor with
  | zero => trivial
  | succ rounds ih =>
      have hovers := hovers_blockRound first ended le
      rw [blockRest_succ, Run.bind_apply]
      cases outcome : blockRound stmt cursor with
      | ok found later =>
          rw [outcome] at hovers
          have aloft : Aloft height cursor.tokens later.tokens := hovers
          cases found with
          | none => exact aloft
          | some head =>
              have endedLater : Ended later.tokens :=
                ended.of_suffix aloft.suffix (by simp [Cursor.tokens])
              have rest := ih endedLater aloft.stop_le
              simp only [Run.bind_apply]
              cases outcomeRest : blockRest stmt rounds later with
              | ok tail final =>
                  rw [outcomeRest] at rest
                  exact aloft.trans rest
              | raised diagnostic final =>
                  rw [outcomeRest] at rest
                  exact aloft.trans rest
              | halted why => trivial
      | raised diagnostic later =>
          rw [outcome] at hovers
          exact hovers
      | halted why => trivial

theorem blockRound_none {stmt : Reader Stmt} (ran : blockRound stmt cursor = .ok none later) :
    cursor.current.kind = .rightBrace ∧ later = cursor := by
  by_cases closing : cursor.current.kind = .rightBrace
  · rw [blockRound_closing stmt closing] at ran
    cases ran
    exact ⟨closing, rfl⟩
  have ran := current_ok ran
  rw [if_neg closing] at ran
  by_cases atEnd : cursor.current.kind = .endOfInput
  · rw [if_pos atEnd] at ran
    cases ran
  rw [if_neg atEnd] at ran
  rcases attempt_ok ran with ⟨first, middle, _, ran⟩ | ⟨diagnostic, middle, _, ran⟩
  · obtain ⟨_, _, _, ran⟩ := Run.bind_eq_ok ran
    cases ran
  · obtain ⟨_, _, _, ran⟩ := Run.bind_eq_ok ran
    obtain ⟨_, _, _, ran⟩ := Run.bind_eq_ok ran
    cases ran

theorem blockRest_cases {stmt : Reader Stmt} {rounds : Nat} {body : Block}
    (ran : blockRest stmt (rounds + 1) cursor = .ok body later) :
    (cursor.current.kind = .rightBrace ∧ later = cursor) ∨
      ∃ first next rest, blockRound stmt cursor = .ok (some first) next ∧
        blockRest stmt rounds next = .ok rest later := by
  rw [blockRest_succ] at ran
  obtain ⟨found, next, ranRound, ran⟩ := Run.bind_eq_ok ran
  cases found with
  | none =>
      cases ran
      exact .inl (blockRound_none ranRound)
  | some first =>
      obtain ⟨rest, final, ranRest, ran⟩ := Run.bind_eq_ok ran
      cases ran
      exact .inr ⟨first, next, rest, ranRound, ranRest⟩

theorem blockRest_closing {stmt : Reader Stmt} {rounds : Nat} {body : Block}
    (ran : blockRest stmt rounds cursor = .ok body later) : later.current.kind = .rightBrace := by
  induction rounds generalizing cursor body with
  | zero => cases ran
  | succ rounds ih =>
      rcases blockRest_cases ran with ⟨closing, rfl⟩ | ⟨_, _, _, _, ranRest⟩
      · exact closing
      · exact ih ranRest

theorem onRest_block {expr : Precedence → Reader Expr} (first : OnFirst (statement expr))
    (rounds : Nat) : OnRest 1 (block expr rounds) := by
  intro height cursor ended le leAhead
  have leStep : braceBalance cursor.step.tokens ≤ height - 1 := by
    rw [braceBalance_step ended]
    omega
  have aloft := aloft_step ended le (by omega : braceBalance cursor.ahead ≤ height)
  have hovers := hovers_blockRest first rounds (cursor.onward_step.ended ended) leStep
  rw [block, Run.bind_apply, advance_eq ended]
  simp only
  cases outcome : blockRest (statement expr) rounds cursor.step with
  | ok body later =>
      rw [outcome] at hovers
      have hovering : Aloft (height - 1) cursor.step.tokens later.tokens := hovers
      have aloftAll := aloft.trans (hovering.mono (by omega : height - 1 ≤ height))
      refine ⟨aloftAll.suffix, aloftAll.trans (.cons aloftAll.stop_le (.refl ?_))⟩
      have stop := hovering.stop_le
      have closing : braceStep later.current.kind = -1 := by
        rw [blockRest_closing outcome]
        rfl
      rw [braceBalance_tokens, closing] at stop
      omega
  | raised diagnostic later =>
      rw [outcome] at hovers
      exact aloft.trans (Aloft.mono hovers (by omega : height - 1 ≤ height))
  | halted why => trivial

/-! ## Statements and expressions -/

section Parts

variable {expr : Precedence → Reader Expr} (first : ∀ minimum, OnFirst (expr minimum))

include first

theorem onRest_define : OnRest 0 (define expr) := by
  refine (onRest_expect _ (Int.le_refl 0) (by decide)).bind fun _ => ?_
  refine OnRest.bind (fun _ _ _ le leAhead => ?_) fun _ => ?_
  · exact onRest_pure (Int.le_refl 0) _ _ _ ‹_› le leAhead
  · refine (onRest_expect _ (Int.le_refl 0) (by decide)).bind fun _ => ?_
    exact ((first _).bind fun _ => onRest_endStatement.bind fun _ =>
      onRest_pure (Int.le_refl 0) _).afterAdvance

theorem onRest_returning : OnRest 0 (returning expr) :=
  ((first _).bind fun _ => onRest_endStatement.bind fun _ =>
    onRest_pure (Int.le_refl 0) _).afterAdvance

theorem onFirst_exprStatement : OnFirst (exprStatement expr) :=
  (first _).bind fun _ => OnRest.whenNext (onRest_pure (Int.le_refl 0) _)
    (onRest_pure (Int.le_refl 0) _) (Int.le_refl 0) (by decide)

theorem onFirst_statement : OnFirst (statement expr) := by
  intro height cursor ended le
  rw [statement_apply]
  by_cases isLet : cursor.current.kind = .letWord
  · rw [if_pos isLet]
    exact (onRest_define first).onToken ended le (by rw [isLet]; decide)
  rw [if_neg isLet]
  by_cases isReturn : cursor.current.kind = .returnWord
  · rw [if_pos isReturn]
    exact (onRest_returning first).onToken ended le (by rw [isReturn]; decide)
  · rw [if_neg isReturn]
    exact onFirst_exprStatement first height cursor ended le

theorem onFirst_pair : OnFirst (pair expr) :=
  (first _).bind fun _ => (onRest_expect _ (Int.le_refl 0) (by decide)).bind fun _ =>
    ((first _).bind fun _ => onRest_pure (Int.le_refl 0) _).afterAdvance

theorem onRest_conditional (rounds : Nat) (token : Token) :
    OnRest 0 (leadingForm expr rounds token .conditional) := by
  have body := onRest_block (onFirst_statement first) rounds
  refine ((first _).bind fun _ => OnRest.afterOpening (body.bind fun _ => ?_)).afterAdvance
  refine OnRest.whenNext ?_ (onRest_pure (Int.le_refl 0) _) (Int.le_refl 0) (by decide)
  exact OnRest.afterOpening (body.bind fun _ => onRest_pure (Int.le_refl 0) _)

theorem onRest_function (rounds : Nat) (token : Token) :
    OnRest 0 (leadingForm expr rounds token .function) := by
  have body := onRest_block (onFirst_statement first) rounds
  refine (onRest_expect _ (Int.le_refl 0) (by decide)).bind fun _ => ?_
  refine (onRest_items onFirst_parameter rounds (Int.le_refl 0) (by decide)).bind fun _ => ?_
  exact OnRest.afterOpening (body.bind fun _ => onRest_pure (Int.le_refl 0) _)

/-- The opening brace of a hash leaves room for the closing one. -/
theorem onRest_leadingForm (rounds : Nat) (token : Token) (form : Leading) :
    OnRest (braceStep form.kind) (leadingForm expr rounds token form) := by
  cases form with
  | name => exact onRest_pure (Int.le_refl 0) _
  | integer =>
      refine OnRest.bind (fun height cursor ended le leAhead => ?_) fun _ =>
        onRest_pure (Int.le_refl 0) _
      cases integerOf token with
      | ok value => exact onRest_pure (Int.le_refl 0) value height cursor ended le leAhead
      | error diagnostic => exact .refl le
  | string => exact onRest_pure (Int.le_refl 0) _
  | boolean value => cases value <;> exact onRest_pure (Int.le_refl 0) _
  | unary op =>
      cases op <;> exact ((first _).bind fun _ => onRest_pure (Int.le_refl 0) _).afterAdvance
  | group =>
      exact ((first _).bind fun _ => (onRest_expect _ (Int.le_refl 0) (by decide)).bind fun _ =>
        onRest_pure (Int.le_refl 0) _).afterAdvance
  | array =>
      exact (onRest_items (first _) rounds (Int.le_refl 0) (by decide)).bind fun _ =>
        onRest_pure (Int.le_refl 0) _
  | hash =>
      have natural : (0 : Int) ≤ braceStep (Leading.kind .hash) := by decide
      exact (onRest_items (onFirst_pair first) rounds natural (by decide)).bind fun _ =>
        onRest_pure (Int.le_refl 0) _
  | conditional => exact onRest_conditional first rounds token
  | function => exact onRest_function first rounds token

theorem onFirst_operand (rounds : Nat) : OnFirst (operand .standard expr rounds) := by
  intro height cursor ended le
  rw [operand_apply]
  cases begins : cursor.current.kind.leading? with
  | none => exact .refl le
  | some form =>
      refine (onRest_leadingForm first rounds cursor.current form).onToken ended le ?_
      exact Int.le_of_eq (congrArg braceStep (kind_of_leading begins).symm)

theorem onRest_trailingForm (rounds : Nat) (left : Expr) (token : Token) (form : Trailing) :
    OnRest 0 (trailingForm expr rounds left token form) := by
  cases form with
  | binary op => exact ((first _).bind fun _ => onRest_pure (Int.le_refl 0) _).afterAdvance
  | call =>
      exact (onRest_items (first _) rounds (Int.le_refl 0) (by decide)).bind fun _ =>
        onRest_pure (Int.le_refl 0) _
  | index =>
      exact ((first _).bind fun _ => (onRest_expect _ (Int.le_refl 0) (by decide)).bind fun _ =>
        onRest_pure (Int.le_refl 0) _).afterAdvance

theorem onRest_operatorRound (inner : Nat) (minimum : Precedence) (left : Expr) :
    OnRest 0 (operatorRound .standard expr inner minimum left) := by
  intro height cursor ended le leAhead
  rw [operatorRound_apply ended]
  cases goesOn : cursor.step.current.kind.continuation? minimum left with
  | none => exact onRest_pure (Int.le_refl 0) none height cursor ended le leAhead
  | some form =>
      rw [Int.add_zero] at leAhead
      have aloft := aloft_step ended le leAhead
      have notClosing : cursor.step.current.kind ≠ .rightBrace := by
        intro closing
        rw [closing] at goesOn
        simp [Kind.continuation?, Kind.precedence, Precedence.rank] at goesOn
      have rest := (onRest_trailingForm first inner left cursor.step.current form).bind
        fun extended => onRest_pure (Int.le_refl 0) (some extended)
      exact (rest.onToken (cursor.onward_step.ended ended) aloft.stop_le
        (braceStep_nonneg notClosing)).after aloft

theorem onRest_operators (inner : Nat) (minimum : Precedence) (rounds : Nat) (left : Expr) :
    OnRest 0 (operators .standard expr inner minimum rounds left) := by
  induction rounds generalizing left with
  | zero => exact fun _ _ _ _ _ => trivial
  | succ rounds ih =>
      rw [operators_succ]
      refine (onRest_operatorRound first inner minimum left).bind fun found => ?_
      cases found with
      | none => exact onRest_pure (Int.le_refl 0) _
      | some extended => exact ih extended

end Parts

theorem onFirst_expression (depth : Nat) (minimum : Precedence) :
    OnFirst (expression .standard depth minimum) := by
  induction depth generalizing minimum with
  | zero => exact fun _ _ _ _ => trivial
  | succ depth ih =>
      exact (onFirst_operand ih _).bind fun first => onRest_operators ih _ minimum _ first

end Reader

/-! ## Where blocks end -/

def Outcome.Level (place : Cursor) : Outcome Cursor Diagnostic Stmt → Prop
  | .ok _ later => Reader.braceBalance later.ahead = Reader.braceBalance place.tokens
  | .raised _ later => Reader.braceBalance later.tokens = Reader.braceBalance place.tokens
  | .halted _ => True

namespace Reader

variable {cursor later : Cursor} {stmt : Reader Stmt}

/-- The tokens between a brace and its partner: of those before any of them no more braces close
than open, and of all together as many. -/
structure Enclosed (inside : List Token) : Prop where
  deep : ∀ front, front <+: inside → 0 ≤ braceBalance front
  even : braceBalance inside = 0

theorem enclosed_of_inits {inside : List Token}
    (deep : ∀ front ∈ inside.inits, 0 ≤ braceBalance front) (even : braceBalance inside = 0) :
    Enclosed inside :=
  ⟨fun front before => deep front ((List.mem_inits _ _).mpr before), even⟩

/-- The places where the loop over the statements of a block takes up a statement. -/
inductive TakesUp (stmt : Reader Stmt) : Cursor → Cursor → Prop
  | here {place : Cursor} (unclosed : place.current.kind ≠ .rightBrace)
      (inside : place.current.kind ≠ .endOfInput) : TakesUp stmt place place
  | later {place next taken : Cursor} {first : Option Stmt}
      (round : blockRound stmt place = .ok (some first) next) (takes : TakesUp stmt next taken) :
      TakesUp stmt place taken

/-- Unless it comes to the end of the input, leaving a bad statement ends outside of all braces that
were opened on the way, those counted before included. -/
theorem skipInBlock_level (depth : Nat) (current : Token) (ahead : List Token)
    (inside : (skipInBlock depth current ahead).1.kind ≠ .endOfInput)
    (ended : Ended (current :: ahead)) :
    braceBalance ((skipInBlock depth current ahead).1 :: (skipInBlock depth current ahead).2) =
      braceBalance (current :: ahead) + depth := by
  induction ahead generalizing depth current with
  | nil => exact absurd (ended.rest_eq_nil_iff.mp rfl) inside
  | cons next ahead ih =>
      have endedNext : Ended (next :: ahead) :=
        ended.of_suffix (List.suffix_cons _ _) (List.cons_ne_nil _ _)
      have balance : braceBalance (current :: next :: ahead) =
        braceStep current.kind + braceBalance (next :: ahead) := rfl
      unfold skipInBlock at inside ⊢
      split at inside
      · contradiction
      · rename_i semicolon
        rw [semicolon] at balance
        simp [balance, braceStep]
      · simp
      · rename_i inner closing
        rw [ih inner next inside endedNext, balance, closing, braceStep]
        omega
      · rename_i opening
        rw [ih _ next inside endedNext, balance, opening, braceStep]
        omega
      · rename_i count _ _ _ opening _ closingAtZero closingAbove
        have closing : current.kind ≠ .rightBrace := by
          intro closing
          cases count with
          | zero => exact closingAtZero closing rfl
          | succ inner => exact closingAbove inner closing rfl
        rw [ih _ next inside endedNext, balance, braceStep_of_other opening closing, Int.zero_add]

theorem level_of_round {first : Option Stmt} {next : Cursor} (onFirst : OnFirst stmt)
    (ended : Ended cursor.tokens) (round : blockRound stmt cursor = .ok (some first) next)
    (inside : next.current.kind ≠ .endOfInput) :
    braceBalance next.tokens = braceBalance cursor.tokens ↔ (stmt cursor).Level cursor := by
  have lofts := onFirst _ cursor ended (Int.le_refl _)
  by_cases closing : cursor.current.kind = .rightBrace
  · rw [blockRound_closing stmt closing] at round
    cases round
  by_cases atEnd : cursor.current.kind = .endOfInput
  · rw [blockRound_atEnd stmt atEnd] at round
    cases round
  cases outcome : stmt cursor with
  | ok value middle =>
      rw [outcome] at lofts
      have endedMiddle : Ended middle.tokens := ended.of_suffix lofts.1 (by simp [Cursor.tokens])
      rw [blockRound_ok endedMiddle closing atEnd outcome] at round
      cases round
      rw [braceBalance_step endedMiddle]
      exact Iff.rfl
  | raised diagnostic middle =>
      rw [outcome] at lofts
      have suffix : middle.tokens <:+ cursor.tokens := lofts.suffix
      have endedMiddle : Ended middle.tokens := ended.of_suffix suffix (by simp [Cursor.tokens])
      rw [blockRound_raised closing atEnd outcome] at round
      cases round
      have level := skipInBlock_level 0 middle.current middle.ahead inside endedMiddle
      simp only [Int.natCast_zero, Int.add_zero] at level
      have same : braceBalance (middle.noted diagnostic).leftBlockStatement.tokens =
        braceBalance middle.tokens := level
      rw [same]
      exact Iff.rfl
  | halted why =>
      rw [blockRound_halted closing atEnd outcome] at round
      cases round

/-- The loop ends as deep as it began exactly if all of its statements do. -/
theorem level_blockRest {rounds : Nat} {body : Block} (onFirst : OnFirst stmt)
    (ended : Ended cursor.tokens) (ran : blockRest stmt rounds cursor = .ok body later) :
    braceBalance later.tokens = braceBalance cursor.tokens ↔
      ∀ place, TakesUp stmt cursor place → (stmt place).Level place := by
  induction rounds generalizing cursor body with
  | zero => cases ran
  | succ rounds ih =>
      rcases blockRest_cases ran with ⟨closing, rfl⟩ | ⟨first, next, rest, round, ranRest⟩
      · refine iff_of_true rfl fun place takes => ?_
        cases takes with
        | here unclosed inside => exact absurd closing unclosed
        | later round takes =>
            rw [blockRound_closing stmt closing] at round
            cases round
      · have hovers := hovers_blockRound onFirst ended (Int.le_refl _)
        rw [round] at hovers
        have aloft : Aloft (braceBalance cursor.tokens) cursor.tokens next.tokens := hovers
        have endedNext := ended.of_suffix aloft.suffix (by simp [Cursor.tokens])
        have hoversRest := hovers_blockRest onFirst rounds endedNext (Int.le_refl _)
        rw [ranRest] at hoversRest
        have lower : braceBalance later.tokens ≤ braceBalance next.tokens := Aloft.stop_le hoversRest
        have low : braceBalance next.tokens ≤ braceBalance cursor.tokens := aloft.stop_le
        have inside : next.current.kind ≠ .endOfInput := by
          intro atEnd
          cases rounds with
          | zero => cases ranRest
          | succ rounds =>
              rcases blockRest_cases ranRest with ⟨closing, _⟩ | ⟨_, _, _, round, _⟩
              · rw [closing] at atEnd
                cases atEnd
              · rw [blockRound_atEnd stmt atEnd] at round
                cases round
        have here := level_of_round onFirst ended round inside
        have further := ih endedNext ranRest
        constructor
        · intro same place takes
          cases takes with
          | here unclosed inside => exact here.mp (by omega)
          | later other takes =>
              rw [round] at other
              cases other
              exact further.mp (by omega) place takes
        · intro level
          have sameNext : braceBalance next.tokens = braceBalance cursor.tokens := by
            refine here.mpr (level cursor (.here ?_ ?_))
            · intro closing
              rw [blockRound_closing stmt closing] at round
              cases round
            · intro atEnd
              rw [blockRound_atEnd stmt atEnd] at round
              cases round
          have sameLast := further.mpr fun place takes => level place (.later round takes)
          omega

/-- A block of a text ends on a closing brace, never behind the partner of its opening brace. It
ends on that partner exactly if each statement that its loop takes up is left as deep among braces
as it began. -/
theorem block_closes_iff (source : String) (depth rounds : Nat) {cursor later : Cursor}
    {body : Block} (inText : cursor.tokens <:+ tokens source)
    (opens : cursor.current.kind = .leftBrace)
    (ran : block (expression .standard depth) rounds cursor = .ok body later) :
    later.current.kind = .rightBrace ∧ ∃ inside, cursor.ahead = inside ++ later.tokens ∧
      (∀ front, front <+: inside → 0 ≤ braceBalance front) ∧
      (Enclosed inside ↔
        ∀ place, TakesUp (statement (expression .standard depth)) cursor.step place →
          (statement (expression .standard depth) place).Level place) := by
  have ended : Ended cursor.tokens :=
    (ended_tokens source).of_suffix inText (by simp [Cursor.tokens])
  have endedStep := cursor.onward_step.ended ended
  have onFirst := onFirst_statement (onFirst_expression depth)
  have ran := advance_ok ended ran
  have hovers := hovers_blockRest onFirst rounds endedStep (Int.le_refl _)
  rw [ran] at hovers
  have aloft : Aloft (braceBalance cursor.step.tokens) cursor.step.tokens later.tokens := hovers
  obtain ⟨inside, split, natural⟩ := aloft.passed
  have level := level_blockRest onFirst endedStep ran
  have stepped := Cursor.tokens_step_of_inside ended (by rw [opens]; decide)
  refine ⟨blockRest_closing ran, inside, by rw [← stepped, split], natural, ?_⟩
  rw [← level, split, braceBalance_append]
  constructor
  · rintro ⟨_, even⟩
    omega
  · intro same
    exact ⟨natural, by omega⟩

theorem block_closes_iff_recovered :
    ∃ cursor later : Cursor,
      (later.current.kind = .rightBrace ∧ ∃ inside, cursor.ahead = inside ++ later.tokens ∧
        (∀ front, front <+: inside → 0 ≤ braceBalance front) ∧
        (Enclosed inside ↔
          ∀ place, TakesUp (statement (expression .standard 8)) cursor.step place →
            (statement (expression .standard 8) place).Level place)) := by
  have ran : block (expression .standard 8) 9 ⟨⟨.leftBrace, "\x7b", 5, 6⟩,
      [⟨.leftBracket, "[", 7, 8⟩, ⟨.semicolon, ";", 9, 10⟩, ⟨.integer, "1", 11, 12⟩,
        ⟨.rightBrace, "\x7d", 13, 14⟩, ⟨.endOfInput, "", 14, 14⟩], []⟩ =
      .ok [.expr (.integer 1)] ⟨⟨.rightBrace, "\x7d", 13, 14⟩, [⟨.endOfInput, "", 14, 14⟩],
        [.noExpression .semicolon 9]⟩ := by
    cbv
  exact ⟨_, _, block_closes_iff "fn() \x7b [ ; 1 \x7d" 8 9 (by decide) (by rfl) ran⟩

/-- An error inside of a hash ends the block on the brace that closes the hash, although all braces
of the text have their partners. -/
theorem block_ends_early :
    Enclosed (tokens "fn() \x7b \x7b ] \x7d ; 1 \x7d") ∧
      (∃ cursor later : Cursor, cursor.tokens <:+ tokens "fn() \x7b \x7b ] \x7d ; 1 \x7d" ∧
        cursor.current.kind = .leftBrace ∧
        block (expression .standard 10) 11 cursor = .ok [] later ∧
        ∀ inside, cursor.ahead = inside ++ later.tokens → ¬Enclosed inside) ∧
      (read "fn() \x7b \x7b ] \x7d ; 1 \x7d").diagnostics =
        [.noExpression .rightBracket 9, .noExpression .rightBrace 17] := by
  have listed : tokens "fn() \x7b \x7b ] \x7d ; 1 \x7d" =
      [⟨.functionWord, "fn", 0, 2⟩, ⟨.leftParen, "(", 2, 3⟩, ⟨.rightParen, ")", 3, 4⟩,
        ⟨.leftBrace, "\x7b", 5, 6⟩, ⟨.leftBrace, "\x7b", 7, 8⟩, ⟨.rightBracket, "]", 9, 10⟩,
        ⟨.rightBrace, "\x7d", 11, 12⟩, ⟨.semicolon, ";", 13, 14⟩, ⟨.integer, "1", 15, 16⟩,
        ⟨.rightBrace, "\x7d", 17, 18⟩, ⟨.endOfInput, "", 18, 18⟩] := by
    decide
  have ran : block (expression .standard 10) 11 ⟨⟨.leftBrace, "\x7b", 5, 6⟩,
      [⟨.leftBrace, "\x7b", 7, 8⟩, ⟨.rightBracket, "]", 9, 10⟩, ⟨.rightBrace, "\x7d", 11, 12⟩,
        ⟨.semicolon, ";", 13, 14⟩, ⟨.integer, "1", 15, 16⟩, ⟨.rightBrace, "\x7d", 17, 18⟩,
        ⟨.endOfInput, "", 18, 18⟩], []⟩ =
      .ok [] ⟨⟨.rightBrace, "\x7d", 11, 12⟩, [⟨.semicolon, ";", 13, 14⟩, ⟨.integer, "1", 15, 16⟩,
        ⟨.rightBrace, "\x7d", 17, 18⟩, ⟨.endOfInput, "", 18, 18⟩],
        [.noExpression .rightBracket 9]⟩ := by
    cbv
  have diagnostics : (read "fn() \x7b \x7b ] \x7d ; 1 \x7d").diagnostics =
      [.noExpression .rightBracket 9, .noExpression .rightBrace 17] := by
    rw [read, readWith, listed]
    cbv
  rw [listed]
  refine ⟨enclosed_of_inits (by decide) (by decide), ⟨_, _, ?_, ?_, ran, ?_⟩, diagnostics⟩
  · decide
  · rfl
  · intro inside split enclosed
    have balance := congrArg braceBalance split
    rw [braceBalance_append, enclosed.even] at balance
    exact absurd balance (by decide)

end Reader

end Scriptlet
