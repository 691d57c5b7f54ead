import Scriptlet.Proofs.Phrase.Soundness

/-!
# The reader accepts the language of the grammar

The loop over operators builds its expression from the tightest tier to the loosest. `Open` says
of an unfinished expression to which tier it has come: whatever else the tier takes in, the whole
is an expression of the tier. `Unfinished` is the invariant of the loop.

With it, what is read without a diagnostic is derived. As every derivation is read, the programs
that a text is accepted with are those that its tokens derive.
-/
set_option autoImplicit false

namespace Scriptlet

open Token (Kind)

/-! ## Unfinished expressions -/

namespace Tier

/-- The tiers one by one, from the tightest on. -/
theorem ladder {motive : Tier → Prop} (unary : motive .unary)
    (step : ∀ tier, tier ≠ .unary → motive tier.tighter → motive tier) (tier : Tier) :
    motive tier := by
  have product : motive .product := step _ (by decide) unary
  have sum : motive .sum := step _ (by decide) product
  have order : motive .order := step _ (by decide) sum
  have equality : motive .equality := step _ (by decide) order
  cases tier with
  | equality => exact equality
  | order => exact order
  | sum => exact sum
  | product => exact product
  | unary => exact unary

theorem tighter_rank_le {looser tier : Tier} (le : looser.rank ≤ tier.rank)
    (other : looser ≠ tier) : looser.tighter.rank ≤ tier.rank := by
  cases looser <;> cases tier <;> first | contradiction | exact Nat.le_of_ble_eq_true rfl

theorem floor_tighter_rank {tier : Tier} (binary : tier ≠ .unary) :
    tier.tighter.floor.rank = tier.rank := by
  cases tier <;> first | contradiction | rfl

end Tier

namespace Phrase

/-- The expression `left` is what has been read of an expression of the tier: with whatever the
tier adds to it, it is one. -/
def Open : Tier → List Token → Expr → List Token → Prop
  | .unary, list, left, rest => ∀ whole final,
    Derives (.operandRest left) rest whole final → Derives (.tier .unary) list whole final
  | level, list, left, rest => ∀ whole final,
    Derives (.tierRest level left) rest whole final → Derives (.tier level) list whole final

variable {level looser : Tier} {list rest : List Token} {left : Expr}

theorem Open.binary (isOpen : Open level list left rest) (binary : level ≠ .unary) {whole : Expr}
    {final : List Token} (more : Derives (.tierRest level left) rest whole final) :
    Derives (.tier level) list whole final := by
  cases level with
  | unary => contradiction
  | _ => exact isOpen whole final more

theorem open_of_binary (binary : level ≠ .unary)
    (derives : ∀ whole final, Derives (.tierRest level left) rest whole final →
      Derives (.tier level) list whole final) : Open level list left rest := by
  cases level with
  | unary => contradiction
  | _ => exact derives

theorem operator?_of_halts {token : Token} (halts : Halts level.floor left token) :
    level.operator? token.kind = none := by
  cases found : level.operator? token.kind with
  | none => rfl
  | some op =>
      have rank := Tier.rank_of_operator found
      rcases halts with low | ⟨paren, _⟩
      · rw [rank] at low
        cases level <;> exact absurd low (by decide)
      · rw [paren] at found
        cases level <;> cases found

theorem operandEnd_of_halts {token : Token} (halts : Halts .product left token) :
    Derives (.operandRest left) (token :: rest) left (token :: rest) := by
  rcases halts with low | ⟨paren, uncallable⟩
  · refine .operandEnd (fun bracket => ?_) (fun paren => ?_)
    · rw [bracket] at low
      exact absurd low (by decide)
    · rw [paren] at low
      exact absurd low (by decide)
  · exact .operandEnd (by rw [paren]; decide) (fun _ => uncallable)

theorem Open.close (isOpen : Open level list left rest) (stops : Stops level.floor left rest) :
    Derives (.tier level) list left rest := by
  obtain ⟨token, tail, rfl, halts⟩ := stops
  by_cases binary : level = .unary
  · subst binary
    exact isOpen _ _ (operandEnd_of_halts halts)
  · exact isOpen.binary binary (.tierEnd (operator?_of_halts halts))

/-- An expression of a tier that is over is the first operand of the next tier. -/
theorem Open.lower (isOpen : Open level list left rest) (le : looser.rank ≤ level.rank)
    (stops : looser ≠ level → Stops looser.tighter.floor left rest) :
    Open looser list left rest := by
  induction looser using Tier.ladder with
  | unary =>
      cases level <;> first | exact isOpen | exact absurd le (by decide)
  | step looser binary ih =>
      by_cases same : looser = level
      · rw [same]
        exact isOpen
      · have tighter := ih (Tier.tighter_rank_le le same) fun _ => (stops same).mono (by
          cases looser <;> decide)
        exact open_of_binary binary fun _ _ more => .tier binary (tighter.close (stops same)) more

/-- Once nothing goes on with an expression, it is finished in all tiers at once. -/
theorem Open.finish (isOpen : Open level list left rest) (le : looser.rank ≤ level.rank)
    (stops : Stops looser.floor left rest) : Derives (.tier looser) list left rest := by
  have lowered := isOpen.lower le fun _ => stops.mono (by cases looser <;> decide)
  exact lowered.close stops

/-- The loop over operators has come to `left`, on its way to an expression of the looser tier. The
tier that is open at the time has no tighter operator before it. -/
def Unfinished (looser : Tier) (list : List Token) (left : Expr) (rest : List Token) : Prop :=
  ∃ level : Tier, looser.rank ≤ level.rank ∧ Open level list left rest ∧
    (level ≠ .unary → Stops level.tighter.floor left rest)

theorem Open.unfinished (isOpen : Open .unary list left rest) (looser : Tier) :
    Unfinished looser list left rest :=
  ⟨.unary, looser.rank_le_unary, isOpen, fun other => absurd rfl other⟩

theorem open_atom (atom : Derives .atom list left rest) : Open .unary list left rest :=
  fun _ _ more => .single (.operand atom more)

theorem unfinished_unary (derivation : Derives (.tier .unary) list left rest)
    (uncallable : left.isCallable = false) (looser : Tier) : Unfinished looser list left rest := by
  refine Open.unfinished (fun whole final more => ?_) looser
  -- neither an index nor arguments can follow, as the operand of the sign has stopped before them
  obtain ⟨token, tail, rfl, halts⟩ := derivation.stops.uncallable uncallable
  cases more with
  | operandEnd _ _ => exact derivation
  | index opens _ _ _ =>
      rcases halts with low | ⟨paren, _⟩
      · rw [opens] at low
        exact absurd low (by decide)
      · exact absurd (opens.symm.trans paren) (by decide)
  | call _ callable _ _ => exact absurd (callable.symm.trans uncallable) (by decide)

theorem Unfinished.finish (unfinished : Unfinished looser list left rest)
    (stops : Stops looser.floor left rest) : Derives (.tier looser) list left rest := by
  obtain ⟨level, le, isOpen, _⟩ := unfinished
  exact isOpen.finish le stops

section Extensions

variable {token : Token} {tail : List Token}

theorem Unfinished.binary {tier : Tier} {op : BinaryOp} {right : Expr}
    (unfinished : Unfinished looser list left (token :: tail))
    (found : tier.operator? token.kind = some op) (le : looser.rank ≤ tier.rank)
    (operand : Derives (.tier tier.tighter) tail right rest) :
    Unfinished looser list (.binary op left right) rest := by
  obtain ⟨level, _, isOpen, stops⟩ := unfinished
  have binary : tier ≠ .unary := by
    rintro rfl
    cases found
  have tighter : tier.rank ≤ level.rank := by
    by_cases unary : level = .unary
    · rw [unary]
      exact tier.rank_le_unary
    · obtain ⟨_, _, ⟨⟩, low | ⟨paren, _⟩⟩ := stops unary
      · rwa [Tier.rank_of_operator found, Tier.floor_tighter_rank unary] at low
      · rw [paren] at found
        cases tier <;> cases found
  have lowered := isOpen.lower tighter fun _ =>
    ⟨token, tail, rfl, .inl (by rw [Tier.precedence_of_operator found])⟩
  refine ⟨tier, le, open_of_binary binary fun whole final more => ?_, fun _ => ?_⟩
  · exact lowered.binary binary (.tierMore found operand more)
  · exact operand.stops.uncallable rfl

/-- An index or arguments can follow only while an operand is open. -/
theorem Unfinished.operand (unfinished : Unfinished looser list left (token :: tail))
    (goesOn : ¬Halts .product left token) : Open .unary list left (token :: tail) := by
  obtain ⟨level, _, isOpen, stops⟩ := unfinished
  by_cases unary : level = .unary
  · rw [unary] at isOpen
    exact isOpen
  · have high : Stops .product left (token :: tail) :=
      (stops unary).mono (by cases level <;> decide)
    obtain ⟨_, _, ⟨⟩, halts⟩ := high
    exact absurd halts goesOn

theorem Unfinished.index {index : Expr} {closing : Token}
    (unfinished : Unfinished looser list left (token :: tail)) (opens : token.kind = .leftBracket)
    (derivation : Derives .expr tail index (closing :: rest))
    (closes : closing.kind = .rightBracket) :
    Unfinished looser list (.index left index) rest := by
  have isOpen := unfinished.operand (by simp [Halts, opens, Kind.precedence, Precedence.rank])
  refine Open.unfinished (fun whole final more => ?_) looser
  exact isOpen _ _ (.index opens derivation closes more)

theorem Unfinished.call {arguments : List Expr}
    (unfinished : Unfinished looser list left (token :: tail)) (opens : token.kind = .leftParen)
    (callable : left.isCallable = true)
    (items : Derives (.items .element .rightParen) tail arguments rest) :
    Unfinished looser list (.call left arguments) rest := by
  have isOpen :=
    unfinished.operand (by simp [Halts, opens, Kind.precedence, Precedence.rank, callable])
  refine Open.unfinished (fun whole final more => ?_) looser
  exact isOpen _ _ (.call opens callable items more)

end Extensions

end Phrase

/-! ## The loop over operators -/

theorem Precedence.tier_rank_le {minimum : Precedence} {looser tier : Tier}
    (place : minimum.tier? = some looser) (lt : minimum.rank < tier.rank) :
    looser.rank ≤ tier.rank := by
  cases minimum <;> cases place <;> cases tier <;>
    first | exact Nat.le_of_ble_eq_true rfl | exact absurd lt (by decide)

/-- No operator binds as tightly as a sign before an operand, so that a place behind a sign is as
good as one behind a product. -/
theorem Phrase.Halts.at_floor {minimum : Precedence} {tier : Tier} {left : Expr} {token : Token}
    (halts : Phrase.Halts minimum left token) (place : minimum.tier? = some tier) :
    Phrase.Halts tier.floor left token := by
  rcases halts with low | paren
  · refine .inl ?_
    cases minimum <;> cases place <;>
      first | exact low | cases kind : token.kind <;> rw [kind] at low <;> revert low <;> decide
  · exact .inr paren

theorem operator_of_trailing {kind : Kind} {op : BinaryOp}
    (found : kind.trailing? = some (.binary op)) :
    ∃ tier : Tier, tier.operator? kind = some op := by
  cases kind <;> cases found
  case plus => exact ⟨.sum, rfl⟩
  case minus => exact ⟨.sum, rfl⟩
  case star => exact ⟨.product, rfl⟩
  case slash => exact ⟨.product, rfl⟩
  case less => exact ⟨.order, rfl⟩
  case greater => exact ⟨.order, rfl⟩
  case equal => exact ⟨.equality, rfl⟩
  case notEqual => exact ⟨.equality, rfl⟩

theorem kind_of_call {kind : Kind} (found : kind.trailing? = some .call) : kind = .leftParen := by
  cases kind <;> cases found
  rfl

theorem kind_of_index {kind : Kind} (found : kind.trailing? = some .index) :
    kind = .leftBracket := by
  cases kind <;> cases found
  rfl

namespace Reader

variable {bound rounds inner : Nat} {cursor later : Cursor} {expr : Precedence → Reader Expr}
  {minimum : Precedence} {left whole : Expr}

theorem trailingRule_some {kind : Kind} {rule : TrailingHandler ⊕ Trailing}
    (found : trailingRule .standard left kind = some rule) :
    ∃ form, rule = .inr form ∧ kind.trailing? = some form ∧
      (kind = .leftParen → left.isCallable = true) := by
  unfold trailingRule at found
  split at found
  · cases found
  · rename_i permitted
    obtain ⟨form, known, rfl⟩ := Option.map_eq_some_iff.mp found
    refine ⟨form, rfl, known, fun paren => ?_⟩
    simpa [paren] using permitted

theorem trailingRule_none {kind : Kind} (missing : trailingRule .standard left kind = none)
    (binds : minimum.rank < kind.precedence.rank) :
    kind = .leftParen ∧ left.isCallable = false := by
  unfold trailingRule at missing
  split at missing
  · rename_i refused
    simpa using refused
  · have unknown : kind.trailing? = none := Option.map_eq_none_iff.mp missing
    cases kind <;> first | cases unknown; done | exact absurd binds (Nat.not_lt_zero _)

theorem operators_cases (ended : Ended cursor.tokens)
    (ran : operators .standard expr inner minimum (rounds + 1) left cursor = .ok whole later) :
    (whole = left ∧ later = cursor ∧ Phrase.Halts minimum left cursor.step.current) ∨
      ∃ form extended middle, minimum.rank < cursor.step.current.kind.precedence.rank ∧
        cursor.step.current.kind.trailing? = some form ∧
        (cursor.step.current.kind = .leftParen → left.isCallable = true) ∧
        trailingForm expr inner left cursor.step.current form cursor.step = .ok extended middle ∧
        operators .standard expr inner minimum rounds extended middle = .ok whole later := by
  have ran := peek_ok ended ran
  by_cases binds : minimum.rank < cursor.step.current.kind.precedence.rank
  · simp only [binds, if_true] at ran
    cases found : trailingRule .standard left cursor.step.current.kind with
    | none =>
        rw [found] at ran
        cases ran
        exact .inl ⟨rfl, rfl, .inr (trailingRule_none found binds)⟩
    | some rule =>
        rw [found] at ran
        obtain ⟨form, rfl, known, permitted⟩ := trailingRule_some found
        obtain ⟨extended, middle, ranForm, ran⟩ := Run.bind_eq_ok (advance_ok ended ran)
        exact .inr ⟨form, extended, middle, binds, known, permitted, ranForm, ran⟩
  · simp only [binds, if_false] at ran
    cases ran
    exact .inl ⟨rfl, rfl, .inl (Nat.le_of_not_lt binds)⟩

section Loop

variable (steady : ∀ minimum, Steady bound (expr minimum))
  (sound : ∀ minimum tier, minimum.tier? = some tier → Sound bound (.tier tier) (expr minimum))

include steady sound

/-- What is taken in keeps the expression unfinished in the same sense. -/
theorem unfinished_trailingForm {looser : Tier} {list : List Token} {form : Trailing}
    {extended : Expr} (place : minimum.tier? = some looser) (enough : bound ≤ inner)
    (within : cursor.Within bound)
    (unfinished : Phrase.Unfinished looser list left cursor.ahead)
    (binds : minimum.rank < cursor.step.current.kind.precedence.rank)
    (known : cursor.step.current.kind.trailing? = some form)
    (permitted : cursor.step.current.kind = .leftParen → left.isCallable = true)
    (ran : trailingForm expr inner left cursor.step.current form cursor.step = .ok extended later)
    (clean : later.recorded = []) :
    Phrase.Unfinished looser list extended later.ahead ∧ later.current.kind ≠ .endOfInput := by
  have start := within.step
  have withinNext := start.within (by
    intro atEnd
    rw [atEnd] at known
    cases known)
  rw [within.ahead_eq, withinNext.tokens_eq] at unfinished
  cases form with
  | binary op =>
      obtain ⟨tier, found⟩ := operator_of_trailing known
      obtain ⟨right, middle, ranRight, ran⟩ := Run.bind_eq_ok (advance_ok start.ended ran)
      cases ran
      have placeRight : cursor.step.current.kind.precedence.tier? = some tier.tighter := by
        rw [Tier.precedence_of_operator found, Tier.tier?_floor]
      have operand := sound _ _ placeRight _ _ _ start.step ranRight clean
      rw [Tier.rank_of_operator found] at binds
      exact ⟨unfinished.binary found (Precedence.tier_rank_le place binds) operand.derives,
        operand.inside⟩
  | call =>
      have opens := kind_of_call known
      obtain ⟨arguments, middle, ranItems, ran⟩ := Run.bind_eq_ok ran
      cases ran
      obtain ⟨inside, items⟩ := found_items (steady_item steady .element)
        (sound_item steady sound .element) (by decide) withinNext enough ranItems clean
      rw [withinNext.ahead_eq] at items
      exact ⟨unfinished.call opens (permitted opens) items, inside⟩
  | index =>
      obtain ⟨index, middle, ranIndex, ran⟩ := Run.bind_eq_ok (advance_ok start.ended ran)
      have readyIndex := ((steady _).onward start.step ranIndex).ready start.step
      obtain ⟨closes, ran⟩ := expect_ok readyIndex.ended ran
      cases ran
      rw [Cursor.step_recorded] at clean
      have found := sound .lowest .equality rfl _ _ _ start.step ranIndex clean
      exact ⟨unfinished.index (kind_of_index known) (found.next readyIndex) closes,
        by rw [closes]; decide⟩

theorem found_operators {looser : Tier} {list : List Token} (place : minimum.tier? = some looser)
    (enough : bound ≤ inner) (within : cursor.Within bound)
    (enoughRounds : cursor.tokens.length ≤ rounds)
    (unfinished : Phrase.Unfinished looser list left cursor.ahead)
    (ran : operators .standard expr inner minimum rounds left cursor = .ok whole later)
    (clean : later.recorded = []) :
    Phrase.Derives (.tier looser) list whole later.ahead ∧ later.current.kind ≠ .endOfInput := by
  induction rounds generalizing cursor left with
  | zero => cases ran
  | succ rounds ih =>
      rcases operators_cases within.ended ran with
        ⟨rfl, rfl, halts⟩ | ⟨form, extended, middle, binds, known, permitted, ranForm, ran⟩
      · refine ⟨unfinished.finish ⟨_, _, within.ahead_eq, halts.at_floor place⟩, within.inside⟩
      · have onward := (steady_extend steady enough left _ (.inr form)).onward within.step ranForm
        have readyMiddle := onward.ready within.step
        have shorter : middle.tokens.length ≤ rounds := by
          have passed := Cursor.length_step_lt within.ended within.inside
          have further := onward.length_le
          omega
        have onwardRest := (steady_operators steady .standard enough minimum extended
          (readyMiddle.short.trans bound.le_succ) shorter).onward ⟨readyMiddle.ended, le_rfl⟩ ran
        obtain ⟨unfinishedMiddle, inside⟩ := unfinished_trailingForm steady sound place enough
          within unfinished binds known permitted ranForm (onwardRest.clean clean)
        exact ih (readyMiddle.within inside) shorter unfinishedMiddle ran

end Loop

theorem operand_ok {first : Expr}
    (ran : operand .standard expr rounds cursor = .ok first later) :
    ∃ form, cursor.current.kind.leading? = some form ∧
      leadingForm expr rounds cursor.current form cursor = .ok first later := by
  simp only [operand, Run.bind_apply, current, Handlers.standard] at ran
  cases begins : cursor.current.kind.leading? with
  | none =>
      rw [begins] at ran
      cases ran
  | some form =>
      rw [begins] at ran
      exact ⟨form, rfl, ran⟩

theorem sound_expression (depth : Nat) (minimum : Precedence) (tier : Tier)
    (place : minimum.tier? = some tier) :
    Sound depth (.tier tier) (expression .standard depth minimum) := by
  induction depth generalizing minimum tier with
  | zero =>
      intro cursor _ _ ready
      exact absurd ready.short (by simp [Cursor.tokens])
  | succ depth ih =>
      intro cursor value later ready ran clean
      have steady := steady_expression .standard depth
      obtain ⟨first, middle, ranFirst, ran⟩ := Run.bind_eq_ok ran
      obtain ⟨form, begins, ranForm⟩ := operand_ok ranFirst
      have within : cursor.Within depth := by
        refine ⟨ready.ended, fun atEnd => ?_, ready.short⟩
        rw [atEnd] at begins
        cases begins
      have onward := (steady_operand steady .standard le_rfl).onward ready ranFirst
      have readyMiddle := onward.ready ready
      have onwardRest := (steady_operators steady .standard depth.le_succ minimum first le_rfl
        le_rfl).onward readyMiddle ran
      have found := found_leadingForm steady ih begins within depth.le_succ ranForm
        (onwardRest.clean clean)
      obtain ⟨unfinished, inside⟩ :
          Phrase.Unfinished tier cursor.tokens first middle.ahead ∧
            middle.current.kind ≠ .endOfInput := by
        rcases found with atom | ⟨uncallable, signed⟩
        · exact ⟨(Phrase.open_atom atom.derives).unfinished tier, atom.inside⟩
        · exact ⟨Phrase.unfinished_unary signed.derives uncallable tier, signed.inside⟩
      obtain ⟨derives, insideLater⟩ := found_operators steady ih place depth.le_succ
        ⟨readyMiddle.ended, inside, readyMiddle.short⟩ readyMiddle.short unfinished ran clean
      exact ⟨derives, insideLater⟩

end Reader

/-- Whatever is read without a diagnostic is derived. -/
theorem derived_of_readTokens {list : List Token} (ended : Ended list) {program : Program}
    {later : Cursor} (ran : readTokens .standard list = .ok program later)
    (clean : later.recorded = []) : program.Derived list := by
  obtain ⟨token, ahead, rfl⟩ := List.exists_cons_of_ne_nil ended.ne_nil
  have ready : (Cursor.start (token :: ahead)).Ready (token :: ahead).length := ⟨ended, le_rfl⟩
  obtain ⟨statements, final, ranRest, ran⟩ := Run.bind_eq_ok ran
  cases ran
  have steady := Reader.steady_expression .standard (token :: ahead).length
  have sound := Reader.sound_expression (token :: ahead).length
  have steadyStatement := Reader.steady_statement steady
  obtain ⟨atEnd, derives⟩ := Reader.found_programRest steadyStatement
    (Reader.sound_statement steady sound) ready le_rfl ranRest clean
  have onward := Reader.onward_programRest steadyStatement ready le_rfl ranRest
  have last := (Cursor.ahead_eq_nil_iff (onward.ended ended)).mpr atEnd
  have only : later.tokens = [later.current] := by rw [Cursor.tokens, last]
  rw [only] at derives
  exact ⟨later.current, derives⟩

theorem derived_of_parse {source : String} {program : Program}
    (accepted : parse source = .ok program) : program.Derived (tokens source) := by
  cases outcome : readTokens .standard (tokens source) with
  | ok result later =>
      simp only [parse, read, readWith, outcome, Reading.ofOutcome, Reading.result] at accepted
      split at accepted
      · rename_i complete
        cases accepted
        exact derived_of_readTokens (ended_tokens source) outcome (by simpa using complete)
      · cases accepted
  | raised diagnostic later =>
      simp [parse, read, readWith, outcome, Reading.ofOutcome, Reading.result] at accepted
  | halted why =>
      simp [parse, read, readWith, outcome, Reading.ofOutcome, Reading.result] at accepted

/-- A text is accepted with a program exactly if its tokens derive that program. -/
theorem parse_eq_ok_iff (source : String) (program : Program) :
    parse source = .ok program ↔ program.Derived (tokens source) :=
  ⟨derived_of_parse, parse_of_derived⟩

end Scriptlet
