import Scriptlet.Proofs.Reader.Braces
import Scriptlet.Proofs.Reader.Lockstep

/-!
# Where expressions end

An expression never ends on a semicolon or on the end of the input. A reader that `Settles` ends on a
token of another kind wherever it began, one that `Keeps` does so if it began on such a token;
`settles_expression` is the conclusion.
-/
set_option autoImplicit false

namespace Scriptlet.Reader

open Token (Kind)

/-- A token of this kind can be the last one of an expression. -/
def endsExpression (kind : Kind) : Prop :=
  kind ≠ .semicolon ∧ kind ≠ .endOfInput

variable {α β : Type} {run : Reader α} {next : α → Reader β}

def Settles (run : Reader α) : Prop :=
  ∀ cursor value later, Ended cursor.tokens → run cursor = .ok value later →
    endsExpression later.current.kind

def Keeps (run : Reader α) : Prop :=
  ∀ cursor value later, Ended cursor.tokens → endsExpression cursor.current.kind →
    run cursor = .ok value later → endsExpression later.current.kind

theorem Settles.keeps (settles : Settles run) : Keeps run :=
  fun cursor value later ended _ ran => settles cursor value later ended ran

theorem Settles.bind (here : Local run) (settles : Settles run) (keeps : ∀ value, Keeps (next value)) :
    Settles (run >>= next) := by
  intro cursor value later ended ran
  obtain ⟨first, middle, ranFirst, ranNext⟩ := Run.bind_eq_ok ran
  exact keeps first middle value later (here.ended ended ranFirst)
    (settles cursor first middle ended ranFirst) ranNext

theorem Keeps.bind (here : Local run) (keeps : Keeps run) (keepsNext : ∀ value, Keeps (next value)) :
    Keeps (run >>= next) := by
  intro cursor value later ended kept ran
  obtain ⟨first, middle, ranFirst, ranNext⟩ := Run.bind_eq_ok ran
  exact keepsNext first middle value later (here.ended ended ranFirst)
    (keeps cursor first middle ended kept ranFirst) ranNext

theorem Settles.after (here : Local run) (settles : ∀ value, Settles (next value)) :
    Settles (run >>= next) := by
  intro cursor value later ended ran
  obtain ⟨first, middle, ranFirst, ranNext⟩ := Run.bind_eq_ok ran
  exact settles first middle value later (here.ended ended ranFirst) ranNext

theorem Keeps.ite {other : Reader α} {condition : Prop} [Decidable condition]
    (keeps : Keeps run) (keepsOther : Keeps other) :
    Keeps (if condition then run else other) := by
  split
  · exact keeps
  · exact keepsOther

theorem keeps_pure (value : α) : Keeps (pure value) := by
  intro cursor _ later _ kept ran
  cases ran
  exact kept

theorem keeps_peekIs (kind : Kind) : Keeps (peekIs kind) := by
  intro cursor _ later ended kept ran
  rw [peekIs_eq ended] at ran
  cases ran
  exact kept

theorem settles_expect {kind : Kind} (ends : endsExpression kind) : Settles (expect kind) := by
  intro cursor _ later ended ran
  rw [expect_eq ended] at ran
  split at ran
  · rename_i found
    cases ran
    rw [found]
    exact ends
  · cases ran

theorem settles_items {item : Reader α} (here : Local item) {close : Kind}
    (ends : endsExpression close) (rounds : Nat) : Settles (items close item rounds) := by
  intro cursor value later ended ran
  have ran := peekIs_ok ended ran
  by_cases closes : cursor.step.current.kind = close
  · simp only [closes, decide_true, if_true] at ran
    have ran := advance_ok ended ran
    cases ran
    rw [closes]
    exact ends
  · simp only [closes, decide_false] at ran
    have rest : Settles (item >>= fun first => itemsRest item rounds >>= fun others =>
        expect close >>= fun _ => pure (first :: others)) :=
      Settles.after here fun _ => Settles.after (forward_itemsRest here rounds).here fun _ =>
        (settles_expect ends).bind (forward_expect close).here fun _ => keeps_pure _
    exact rest cursor.step value later (cursor.onward_step.ended ended) (advance_ok ended ran)

theorem settles_block {expr : Precedence → Reader Expr} (rounds : Nat) :
    Settles (block expr rounds) := by
  intro cursor body later ended ran
  rw [blockRest_closing (advance_ok ended ran)]
  exact ⟨by decide, by decide⟩

theorem keeps_ofExcept (result : Except Diagnostic α) :
    Keeps (Run.ofExcept result : Reader α) := by
  intro cursor _ later _ kept ran
  cases result with
  | ok value =>
      cases ran
      exact kept
  | error diagnostic => cases ran

section Parts

variable {expr : Precedence → Reader Expr} (here : ∀ minimum, Local (expr minimum))
  (settles : ∀ minimum, Settles (expr minimum))

include here

theorem settles_group (kind : Kind) (ends : endsExpression kind) (wrap : Expr → Expr) :
    Settles (advance >>= fun _ => expr .lowest >>= fun inner => expect kind >>= fun _ =>
      pure (wrap inner)) :=
  Settles.after forward_advance.here fun _ => Settles.after (here _) fun _ =>
    (settles_expect ends).bind (forward_expect kind).here fun _ => keeps_pure _

include settles in
theorem settles_unary (minimum : Precedence) (wrap : Expr → Expr) :
    Settles (advance >>= fun _ => expr minimum >>= fun operand => pure (wrap operand)) :=
  Settles.after forward_advance.here fun _ =>
    (settles minimum).bind (here minimum) fun _ => keeps_pure _

include settles in
theorem settles_definition : Settles (definition expr) :=
  Settles.after (forward_expect _).here fun _ =>
    Settles.after forward_current.here fun _ =>
      Settles.after (forward_expect _).here fun _ => Settles.after forward_advance.here fun _ =>
        (settles .lowest).bind (here .lowest) fun _ => keeps_pure _

theorem settles_conditional (rounds : Nat) (token : Token) :
    Settles (leadingForm expr rounds token .conditional) := by
  have block := forward_block here rounds
  have settlesBlock : Settles (Reader.block expr rounds) := settles_block rounds
  refine Settles.after forward_advance.here fun _ => Settles.after (here _) fun _ =>
    Settles.after (forward_expect _).here fun _ => settlesBlock.bind block.here fun _ =>
      (keeps_peekIs _).bind (forward_peekIs _).here fun _ => Keeps.ite ?_ (keeps_pure _)
  exact (Settles.after forward_advance.here fun _ => Settles.after (forward_expect _).here
    fun _ => settlesBlock.bind block.here fun _ => keeps_pure _).keeps

include settles

theorem keeps_leadingForm (rounds : Nat) (token : Token) (form : Leading) :
    Keeps (leadingForm expr rounds token form) := by
  cases form with
  | name => exact keeps_pure _
  | integer =>
      intro cursor value later ended kept ran
      obtain ⟨number, middle, found, ran⟩ := Run.bind_eq_ok ran
      cases ran
      exact keeps_ofExcept _ cursor number later ended kept found
  | string => exact keeps_pure _
  | boolean value => exact keeps_pure _
  | unary op => exact (settles_unary here settles _ _).keeps
  | group => exact (settles_group here _ ⟨by decide, by decide⟩ id).keeps
  | array =>
      exact ((settles_items (here _) ⟨by decide, by decide⟩ rounds).bind
        (forward_items (here _) _ rounds).here fun _ => keeps_pure _).keeps
  | hash =>
      exact ((settles_items (local_pair here) ⟨by decide, by decide⟩ rounds).bind
        (forward_items (local_pair here) _ rounds).here fun _ => keeps_pure _).keeps
  | conditional => exact (settles_conditional here rounds token).keeps
  | function =>
      refine (Settles.after (forward_expect _).here fun _ =>
        Settles.after (forward_items local_parameter _ rounds).here fun _ =>
          Settles.after (forward_expect _).here fun _ => ?_).keeps
      exact (settles_block rounds).bind (forward_block here rounds).here fun _ => keeps_pure _

theorem settles_operand (rounds : Nat) : Settles (operand .standard expr rounds) := by
  intro cursor value later ended ran
  obtain ⟨form, begins, ran⟩ := operand_ok ran
  refine keeps_leadingForm here settles rounds _ form cursor value later ended ?_ ran
  rw [kind_of_leading begins]
  cases form with
  | boolean value => cases value <;> exact ⟨by decide, by decide⟩
  | unary op => cases op <;> exact ⟨by decide, by decide⟩
  | _ => exact ⟨by decide, by decide⟩

theorem settles_trailingForm (rounds : Nat) (left : Expr) (token : Token) (form : Trailing) :
    Settles (trailingForm expr rounds left token form) := by
  cases form with
  | binary op => exact settles_unary here settles _ _
  | call =>
      exact (settles_items (here _) ⟨by decide, by decide⟩ rounds).bind
        (forward_items (here _) _ rounds).here fun _ => keeps_pure _
  | index => exact settles_group here _ ⟨by decide, by decide⟩ _

theorem keeps_operators (inner : Nat) (minimum : Precedence) (rounds : Nat) (left : Expr) :
    Keeps (operators .standard expr inner minimum rounds left) := by
  induction rounds generalizing left with
  | zero =>
      intro _ _ _ _ _ ran
      cases ran
  | succ rounds ih =>
      intro cursor value later ended kept ran
      rcases operators_cases ended ran with
        ⟨_, rfl, _⟩ | ⟨form, extended, middle, _, _, _, ranForm, ran⟩
      · exact kept
      · have endedStep := cursor.onward_step.ended ended
        have settled := settles_trailingForm here settles inner left _ form _ _ _ endedStep ranForm
        have endedMiddle := (forward_trailingForm here inner left _ form).here.ended endedStep ranForm
        exact ih extended middle value later endedMiddle settled ran

end Parts

theorem settles_expression (depth : Nat) (minimum : Precedence) :
    Settles (expression .standard depth minimum) := by
  induction depth generalizing minimum with
  | zero =>
      intro _ _ _ _ ran
      cases ran
  | succ depth ih =>
      have here := local_expression depth
      exact (settles_operand here ih _).bind (local_operand here _) fun first =>
        keeps_operators here ih _ minimum _ first

end Scriptlet.Reader
