import Mathlib.Data.List.Forall2
import Scriptlet.Proofs.Reader.Pointing

/-!
# Two readings side by side

A `Course` compares two lists of tokens that begin alike: up to a place their tokens have the same
kinds and literals, behind it they may differ. Two cursors are `Abreast` while both stand in the part
that the lists share. A reader looks at the current token and at the next one only, so that as long
as these are shared it does the same on both sides: it gives the same value, or complains about the
token in the same place.

Readers look one token beyond the last token of what they read. On the last token that is shared
this makes no difference if the token behind it, on the other side, cannot continue anything; `Inert`
and `Final` say so, and `Reaches` tells how far a reader may come.
-/
set_option autoImplicit false

namespace Scriptlet

open Token (Kind)

/-- A token of this kind neither continues an expression nor a list, and ends no statement. -/
def Token.Kind.isInert (kind : Kind) : Bool :=
  kind.precedence.rank = 0 && kind ≠ .comma && kind ≠ .semicolon && kind ≠ .elseWord

/-- What a list of tokens and another one that begins alike have in common, what is left of them
behind it, and the diagnostics that were recorded before on the other side. -/
structure Course where
  Same : Token → Token → Prop
  kind_eq : ∀ {token other}, Same token other → token.kind = other.kind
  literal_eq : ∀ {token other}, Same token other → token.literal = other.literal
  rest : List Token
  other : List Token
  ends_iff : rest = [] ↔ other = []
  before : List Diagnostic

namespace Course

variable (course : Course)

inductive Alike : Diagnostic → Diagnostic → Prop
  | unexpected (expected : Kind) {token other : Token} (same : course.Same token other) :
      Alike (.unexpectedToken expected token) (.unexpectedToken expected other)
  | notLeading {token other : Token} (same : course.Same token other) :
      Alike (.notLeading token) (.notLeading other)
  | badInteger {token other : Token} (same : course.Same token other) :
      Alike (.badInteger token.literal token.start) (.badInteger other.literal other.start)

/-- The lists agree up to the places where the course ends. -/
inductive Common : List Token → List Token → Prop
  | rest : Common course.rest course.other
  | cons {token other : Token} {list others : List Token} (same : course.Same token other)
      (common : Common list others) : Common (token :: list) (other :: others)

/-- Both cursors stand on a token that the lists share, and the same was recorded since the course
began. -/
structure Abreast (here there : Cursor) : Prop where
  ended : Ended here.tokens
  endedOther : Ended there.tokens
  same : course.Same here.current there.current
  common : course.Common here.ahead there.ahead
  recorded : ∃ new, List.Forall₂ course.Alike here.recorded new ∧
    there.recorded = course.before ++ new

def Clear (diagnostic : Diagnostic) : Prop :=
  ¬diagnostic.PointsInto course.rest

def Inert : Prop :=
  ∀ token, course.other.head? = some token → token.kind.isInert = true

def Final : Prop :=
  ∀ token, course.other.head? = some token →
    token.kind = .rightBrace ∨ token.kind = .endOfInput

/-- The next token is shared, or else the current one is and there is a licence to stop on it. -/
def Reaches (licence : Prop) (cursor : Cursor) : Prop :=
  course.rest = [] ∨ course.rest.length + 1 < cursor.tokens.length ∨
    (licence ∧ course.rest.length < cursor.tokens.length)

end Course

def Outcome.diagnostics {α : Type} : Outcome Cursor Diagnostic α → List Diagnostic
  | .ok _ later => later.recorded
  | .raised diagnostic later => later.recorded ++ [diagnostic]
  | .halted _ => []

/-- If none was there before, all diagnostics point at one of the tokens. -/
theorem Outcome.Cites.points {α : Type} {spots : List Token} {before : Cursor}
    {outcome : Outcome Cursor Diagnostic α} (cites : outcome.Cites spots before)
    (clean : before.recorded = []) {diagnostic : Diagnostic}
    (found : diagnostic ∈ outcome.diagnostics) : diagnostic.PointsInto spots := by
  have notes {later : Cursor} (notes : before.Notes spots later) :
      ∀ diagnostic ∈ later.recorded, diagnostic.PointsInto spots := by
    obtain ⟨new, recorded, points⟩ := notes.recorded
    rw [clean, List.nil_append] at recorded
    rw [recorded]
    exact points
  cases outcome with
  | ok value later => exact notes cites diagnostic found
  | raised last later =>
      rcases List.mem_append.mp found with recorded | raised
      · exact notes cites.1 diagnostic recorded
      · rw [List.mem_singleton.mp raised]
        exact cites.2
  | halted why => cases found

/-- The first diagnostic is one that was there before, if there was any. -/
theorem Outcome.Cites.head?_recorded {α : Type} {spots : List Token} {before : Cursor}
    {outcome : Outcome Cursor Diagnostic α} (cites : outcome.Cites spots before)
    (dirty : before.recorded ≠ []) {diagnostic : Diagnostic}
    (found : outcome.diagnostics.head? = some diagnostic) :
    before.recorded.head? = some diagnostic := by
  obtain ⟨first, rest, listed⟩ := List.exists_cons_of_ne_nil dirty
  have kept {later : Cursor} (notes : before.Notes spots later) :
      ∃ more, later.recorded = first :: more := by
    obtain ⟨new, recorded, _⟩ := notes.recorded
    exact ⟨rest ++ new, by rw [recorded, listed, List.cons_append]⟩
  rw [listed, List.head?_cons]
  cases outcome with
  | ok _ later =>
      obtain ⟨more, recorded⟩ := kept cites
      rwa [Outcome.diagnostics, recorded] at found
  | raised _ later =>
      obtain ⟨more, recorded⟩ := kept cites.1
      rwa [Outcome.diagnostics, recorded] at found
  | halted why => cases found

namespace Course

variable {course : Course} {here there later : Cursor} {licence other : Prop}

theorem Final.inert (final : course.Final) : course.Inert := by
  intro token head
  rcases final token head with brace | atEnd
  · rw [brace]
    rfl
  · rw [atEnd]
    rfl

/-! ## Moving along -/

theorem Common.length_le {list others : List Token} (common : course.Common list others) :
    course.rest.length ≤ list.length := by
  induction common with
  | rest => exact le_rfl
  | cons same common ih => exact ih.trans (Nat.le_succ _)

theorem Common.suffix {list others : List Token} (common : course.Common list others) :
    course.rest <:+ list := by
  induction common with
  | rest => exact List.suffix_refl _
  | cons same common ih => exact ih.trans (List.suffix_cons _ _)

theorem Common.eq_rest {list others : List Token} (common : course.Common list others)
    (short : list.length ≤ course.rest.length) : list = course.rest ∧ others = course.other := by
  cases common with
  | rest => exact ⟨rfl, rfl⟩
  | cons same common =>
      have longer := common.length_le
      simp only [List.length_cons] at short
      omega

theorem Abreast.held (abreast : course.Abreast here there) :
    course.rest.length < here.tokens.length :=
  Nat.lt_succ_of_le abreast.common.length_le

theorem Abreast.kind (abreast : course.Abreast here there) :
    here.current.kind = there.current.kind :=
  course.kind_eq abreast.same

theorem Abreast.rest_suffix (abreast : course.Abreast here there) : course.rest <:+ here.tokens :=
  abreast.common.suffix.trans (List.suffix_cons _ _)

/-- The licence to stop on the last token that is shared is of no use before. -/
theorem Abreast.reaches_iff (abreast : course.Abreast here there) :
    course.Reaches licence here ↔ course.Reaches False here ∨ licence := by
  have held := abreast.held
  unfold Reaches
  tauto

theorem Reaches.mono (reaches : course.Reaches licence here) (imp : licence → other) :
    course.Reaches other here := by
  unfold Reaches at *
  tauto

/-- Whoever reaches a later place has reached the earlier ones. -/
theorem Reaches.earlier (reaches : course.Reaches licence later)
    (suffix : later.tokens <:+ here.tokens) : course.Reaches licence here := by
  have le := suffix.length_le
  unfold Reaches at *
  rcases reaches with ended | seen | ⟨licensed, held⟩
  · exact .inl ended
  · exact .inr (.inl (by omega))
  · exact .inr (.inr ⟨licensed, by omega⟩)

theorem Abreast.step (abreast : course.Abreast here there) (seen : course.Reaches False here) :
    course.Abreast here.step there.step := by
  have endedStep := here.onward_step.ended abreast.ended
  have endedOther := there.onward_step.ended abreast.endedOther
  suffices course.Same here.step.current there.step.current ∧
      course.Common here.step.ahead there.step.ahead from
    ⟨endedStep, endedOther, this.1, this.2, by simpa using abreast.recorded⟩
  have same := abreast.same
  have common := abreast.common
  unfold Cursor.step
  cases ahead : here.ahead with
  | nil =>
      rw [ahead] at common
      obtain ⟨nothing, others⟩ := common.eq_rest (Nat.zero_le _)
      rw [course.ends_iff.mp nothing.symm] at others
      rw [others]
      rw [others] at common
      exact ⟨same, by rw [ahead, others]; exact common⟩
  | cons next list =>
      rw [ahead] at common
      cases otherAhead : there.ahead with
      | nil =>
          rw [otherAhead] at common
          generalize listed : next :: list = whole at common
          generalize none : ([] : List Token) = others at common
          cases common with
          | rest => exact absurd (course.ends_iff.mpr none.symm) (by rw [← listed]; simp)
          | cons same common => cases none
      | cons otherNext others =>
          rw [otherAhead] at common
          generalize listed : next :: list = whole at common
          generalize listedOther : otherNext :: others = wholeOther at common
          cases common with
          | rest =>
              rcases seen with nothing | seen | ⟨⟨⟩, _⟩
              · rw [nothing] at listed
                cases listed
              · simp only [Cursor.tokens, ahead, listed, List.length_cons] at seen
                omega
          | cons same common =>
              cases listed
              cases listedOther
              exact ⟨same, common⟩

/-- A cursor that does not see the next token of the shared part is followed by what is left
behind it. -/
theorem Abreast.step_beyond (abreast : course.Abreast here there)
    (suffix : later.tokens <:+ here.tokens) (unseen : ¬course.Reaches False later) :
    later.step.tokens <:+ course.rest := by
  have ended : Ended later.tokens := abreast.ended.of_suffix suffix (by simp [Cursor.tokens])
  have further : later.step.tokens <:+ here.tokens := later.onward_step.tokens.trans suffix
  have short : later.step.tokens.length ≤ course.rest.length := by
    simp only [Reaches, false_and, or_false, not_or, Nat.not_lt] at unseen
    by_cases atEnd : later.current.kind = .endOfInput
    · have nothing := (Cursor.ahead_eq_nil_iff ended).mpr atEnd
      rw [Cursor.step_of_atEnd ended atEnd, Cursor.tokens, nothing]
      exact List.length_pos_iff.mpr unseen.1
    · have shorter := Cursor.length_step_lt ended atEnd
      omega
  exact List.suffix_of_suffix_length_le further abreast.rest_suffix short

theorem Abreast.beyond (abreast : course.Abreast here there)
    (suffix : later.tokens <:+ here.tokens) (left : ¬course.Reaches True later) :
    later.tokens <:+ course.rest := by
  refine List.suffix_of_suffix_length_le suffix abreast.rest_suffix ?_
  simp only [Reaches, true_and, not_or, Nat.not_lt] at left
  omega

/-- Where the next token is not shared, the other side comes to the first of its own tokens. -/
theorem Abreast.step_other (abreast : course.Abreast here there)
    (unseen : ¬course.Reaches False here) :
    course.other.head? = some there.step.current := by
  simp only [Reaches, false_and, or_false, not_or, Nat.not_lt] at unseen
  obtain ⟨_, others⟩ := abreast.common.eq_rest (Nat.le_of_succ_le_succ unseen.2)
  have more : course.other ≠ [] := fun nothing => unseen.1 (course.ends_iff.mpr nothing)
  obtain ⟨first, list, listed⟩ := List.exists_cons_of_ne_nil more
  rw [Cursor.step, others, listed]
  rfl

/-- Whoever can move on within the shared part has seen the next token before. -/
theorem Reaches.ofStep (reaches : course.Reaches True here.step) (ended : Ended here.tokens) :
    course.Reaches False here := by
  rcases reaches with nothing | seen | ⟨_, held⟩
  · exact .inl nothing
  · exact .inr (.inl (Nat.lt_of_lt_of_le seen here.onward_step.length_le))
  · by_cases atEnd : here.current.kind = .endOfInput
    · rw [Cursor.step_of_atEnd ended atEnd, Cursor.tokens,
        (Cursor.ahead_eq_nil_iff ended).mpr atEnd] at held
      exact .inl (List.length_eq_zero_iff.mp (Nat.lt_one_iff.mp held))
    · have shorter := Cursor.length_step_lt ended atEnd
      exact .inr (.inl (by omega))

/-! ## Computations side by side -/

/-- What the one side does, the other does as well: if it comes to an end within reach of the shared
part, and if it complains about a token of the shared part. In any case, if its first complaint is
about a token of the shared part, then the other side has something to complain about. -/
structure Mirrors {α : Type} (course : Course) (licence : Prop) (here there : Cursor)
    (outcome mirror : Outcome Cursor Diagnostic α) : Prop where
  ok : ∀ value later, outcome = .ok value later → course.Reaches licence later →
    (∀ diagnostic ∈ later.recorded, course.Clear diagnostic) →
      ∃ laterOther, mirror = .ok value laterOther ∧ course.Abreast later laterOther
  raised : ∀ diagnostic later, outcome = .raised diagnostic later → course.Clear diagnostic →
    (∀ diagnostic ∈ later.recorded, course.Clear diagnostic) →
      ∃ diagnosticOther laterOther, mirror = .raised diagnosticOther laterOther ∧
        course.Alike diagnostic diagnosticOther ∧ course.Abreast later laterOther
  fails : here.recorded = [] → ∀ diagnostic, outcome.diagnostics.head? = some diagnostic →
    course.Clear diagnostic → ∀ value laterOther, mirror = .ok value laterOther →
      laterOther.recorded ≠ there.recorded

section Mirrors

variable {α : Type} {outcome mirror : Outcome Cursor Diagnostic α}

theorem Mirrors.mono (mirrors : course.Mirrors licence here there outcome mirror)
    (imp : other → licence) : course.Mirrors other here there outcome mirror :=
  ⟨fun value later ended reaches => mirrors.ok value later ended (reaches.mono imp),
    mirrors.raised, mirrors.fails⟩

/-- Nothing needs to be shown of what goes on behind the shared part. -/
theorem mirrors_beyond (kept : later.recorded = here.recorded)
    (cites : outcome.Cites course.rest later)
    (left : ∀ value final, outcome = .ok value final → ¬course.Reaches licence final) :
    course.Mirrors licence here there outcome mirror := by
  refine ⟨fun value final ended reaches => absurd reaches (left value final ended), ?_, ?_⟩
  · rintro diagnostic final rfl clear
    exact absurd cites.2 clear
  · intro clean diagnostic first clear
    exact absurd (cites.points (kept.trans clean) (List.mem_of_head? first)) clear

theorem Abreast.clean (abreast : course.Abreast here there) (clean : here.recorded = []) :
    there.recorded = course.before := by
  obtain ⟨new, alike, recorded⟩ := abreast.recorded
  rw [clean] at alike
  cases alike
  rw [recorded, List.append_nil]

theorem mirrors_halted {why : Halt} (mirror : Outcome Cursor Diagnostic α) :
    course.Mirrors licence here there (.halted why) mirror := by
  refine ⟨?_, ?_, ?_⟩
  · intro _ _ ended
    cases ended
  · intro _ _ raised
    cases raised
  · intro _ _ first
    cases first

theorem mirrors_ok {value : α} {laterOther : Cursor} (kept : later.recorded = here.recorded)
    (along : course.Reaches licence later → course.Abreast later laterOther) :
    course.Mirrors licence here there (.ok value later) (.ok value laterOther) := by
  refine ⟨?_, ?_, ?_⟩
  · rintro _ _ ⟨⟩ reaches _
    exact ⟨laterOther, rfl, along reaches⟩
  · intro _ _ raised
    cases raised
  · intro clean diagnostic first
    rw [Outcome.diagnostics, kept, clean] at first
    cases first

/-- It makes no difference whether the computation is begun a step earlier. -/
theorem Mirrors.ofStep (mirrors : course.Mirrors licence here.step there.step outcome mirror) :
    course.Mirrors licence here there outcome mirror :=
  ⟨mirrors.ok, mirrors.raised, by simpa using mirrors.fails⟩

theorem mirrors_raised {diagnostic diagnosticOther : Diagnostic}
    (abreast : course.Abreast here there) (alike : course.Alike diagnostic diagnosticOther) :
    course.Mirrors licence here there (.raised diagnostic here : Outcome Cursor Diagnostic α)
      (.raised diagnosticOther there) := by
  refine ⟨?_, ?_, ?_⟩
  · intro _ _ ended
    cases ended
  · rintro _ _ ⟨⟩ _ _
    exact ⟨diagnosticOther, there, rfl, alike, abreast⟩
  · intro _ _ _ _ _ _ ended
    cases ended

end Mirrors

section Bind

open Reader (Local Forward)

variable {α β : Type} {run runOther : Reader α} {next nextOther : α → Reader β} {reach : Prop}

theorem unclean_bind (ended : Ended there.tokens) (onward : Local runOther)
    (onwardNext : ∀ value, Local (nextOther value))
    (unclean : ∀ value later, runOther there = .ok value later → later.recorded ≠ there.recorded)
    {result : β} (ran : (runOther >>= nextOther) there = .ok result later) :
    later.recorded ≠ there.recorded := by
  obtain ⟨value, middle, ranFirst, ranNext⟩ := Run.bind_eq_ok ran
  have notes := onward.ok ended ranFirst
  have notesNext := (onwardNext value).ok (notes.onward.ended ended) ranNext
  intro same
  refine unclean value middle ranFirst ?_
  have back : middle.recorded <+: there.recorded := same ▸ notesNext.onward.recorded
  exact back.eq_of_length_le notes.onward.recorded.length_le

/-- The other side comes with the first computation to where the second one begins. -/
theorem Mirrors.followed {outcome : Outcome Cursor Diagnostic α} {value : α}
    (mirrors : course.Mirrors reach here there outcome (runOther there))
    (ran : outcome = .ok value later) (reaches : course.Reaches reach later)
    (clears : ∀ diagnostic ∈ later.recorded, course.Clear diagnostic) :
    ∃ laterOther, (runOther >>= nextOther) there = nextOther value laterOther ∧
      course.Abreast later laterOther := by
  obtain ⟨laterOther, ranOther, along⟩ := mirrors.ok value later ran reaches clears
  exact ⟨laterOther, by rw [Run.bind_apply, ranOther], along⟩

variable (abreast : course.Abreast here there) (onward : Local run)
  (onwardNext : ∀ value, Local (next value))
  (mirrors : course.Mirrors reach here there (run here) (runOther there))
  (mirrorsNext : ∀ value later laterOther, course.Abreast later laterOther →
    course.Reaches reach later →
      course.Mirrors licence later laterOther (next value later) (nextOther value laterOther))
include abreast onward onwardNext mirrors mirrorsNext

/-- Whoever comes to an end within reach was within reach between the two computations. -/
theorem ok_bind (imp : licence → reach) {result : β}
    (ran : (run >>= next) here = .ok result later) (within : course.Reaches licence later)
    (clears : ∀ diagnostic ∈ later.recorded, course.Clear diagnostic) :
    ∃ laterOther, (runOther >>= nextOther) there = .ok result laterOther ∧
      course.Abreast later laterOther := by
  obtain ⟨value, middle, ranFirst, ranNext⟩ := Run.bind_eq_ok ran
  have further := (onwardNext value).ok (onward.ended abreast.ended ranFirst) ranNext
  have reaches : course.Reaches reach middle := (within.mono imp).earlier further.tokens
  obtain ⟨middleOther, ranOther, along⟩ := mirrors.followed ranFirst reaches
    fun diagnostic member => clears diagnostic (further.onward.recorded.subset member)
  rw [ranOther]
  exact (mirrorsNext value middle middleOther along reaches).ok result later ranNext within clears

/-- The complaint is one of the first computation, or one of the second that begins within reach. -/
theorem raised_bind
    (beyond : ∀ value later, later.tokens <:+ here.tokens → Ended later.tokens →
      ¬course.Reaches reach later → (next value later).Cites course.rest later)
    {diagnostic : Diagnostic} (ran : (run >>= next) here = .raised diagnostic later)
    (clear : course.Clear diagnostic)
    (clears : ∀ diagnostic ∈ later.recorded, course.Clear diagnostic) :
    ∃ diagnosticOther laterOther,
      (runOther >>= nextOther) there = .raised diagnosticOther laterOther ∧
        course.Alike diagnostic diagnosticOther ∧ course.Abreast later laterOther := by
  rw [Run.bind_apply] at ran
  cases outcome : run here with
  | halted why =>
      rw [outcome] at ran
      cases ran
  | raised first middle =>
      rw [outcome] at ran
      cases ran
      obtain ⟨complaint, laterOther, ranOther, rest⟩ := mirrors.raised _ _ outcome clear clears
      exact ⟨complaint, laterOther, by rw [Run.bind_apply, ranOther], rest⟩
  | ok value middle =>
      rw [outcome] at ran
      replace ran : next value middle = .raised diagnostic later := ran
      have notes := onward.ok abreast.ended outcome
      have ended := notes.onward.ended abreast.ended
      by_cases reaches : course.Reaches reach middle
      · have further := ((onwardNext value).raised ended ran).1
        obtain ⟨middleOther, ranOther, along⟩ := mirrors.followed outcome reaches
          fun diagnostic member => clears diagnostic (further.onward.recorded.subset member)
        rw [ranOther]
        exact (mirrorsNext value middle middleOther along reaches).raised diagnostic later ran
          clear clears
      · have cites := beyond value middle notes.tokens ended reaches
        rw [ran] at cites
        exact absurd cites.2 clear

/-- Where the first computation records nothing, the first complaint is one of the second. -/
theorem fails_bind (onwardOther : Local runOther)
    (onwardNextOther : ∀ value, Local (nextOther value))
    (beyond : ∀ value later, later.tokens <:+ here.tokens → Ended later.tokens →
      ¬course.Reaches reach later → (next value later).Cites course.rest later)
    (clean : here.recorded = []) {diagnostic : Diagnostic}
    (found : ((run >>= next) here).diagnostics.head? = some diagnostic)
    (clear : course.Clear diagnostic) {result : β} {final : Cursor}
    (ran : (runOther >>= nextOther) there = .ok result final) :
    final.recorded ≠ there.recorded := by
  -- it is enough that the complaint is one of the first computation
  have first (found : (run here).diagnostics.head? = some diagnostic) :
      final.recorded ≠ there.recorded :=
    unclean_bind abreast.endedOther onwardOther onwardNextOther
      (mirrors.fails clean diagnostic found clear) ran
  rw [Run.bind_apply] at found
  cases outcome : run here with
  | halted why =>
      rw [outcome] at found
      cases found
  | raised complaint later =>
      rw [outcome] at found first
      exact first found
  | ok value later =>
      rw [outcome] at found first
      replace found : (next value later).diagnostics.head? = some diagnostic := found
      have notes := onward.ok abreast.ended outcome
      have ended := notes.onward.ended abreast.ended
      by_cases nothing : later.recorded = []
      · by_cases reaches : course.Reaches reach later
        · obtain ⟨laterOther, ranOther, along⟩ :=
            mirrors.followed outcome reaches (by simp [nothing])
          rw [ranOther] at ran
          have unclean := (mirrorsNext value later laterOther along reaches).fails nothing
            diagnostic found clear result final ran
          rwa [along.clean nothing, ← abreast.clean clean] at unclean
        · have cites := beyond value later notes.tokens ended reaches
          exact absurd (cites.points nothing (List.mem_of_head? found)) clear
      · exact first ((onwardNext value later ended).head?_recorded nothing found)

/-- One computation after another: where the first one is out of reach, the second one complains
only about what is left behind the shared part. -/
theorem mirrors_bind (onwardOther : Local runOther)
    (onwardNextOther : ∀ value, Local (nextOther value)) (imp : licence → reach)
    (beyond : ∀ value later, later.tokens <:+ here.tokens → Ended later.tokens →
      ¬course.Reaches reach later → (next value later).Cites course.rest later) :
    course.Mirrors licence here there ((run >>= next) here) ((runOther >>= nextOther) there) := by
  refine ⟨fun _ _ => ok_bind abreast onward onwardNext mirrors mirrorsNext imp,
    fun _ _ => raised_bind abreast onward onwardNext mirrors mirrorsNext beyond, ?_⟩
  intro clean diagnostic found clear result final ran
  exact fails_bind abreast onward onwardNext mirrors mirrorsNext onwardOther onwardNextOther beyond
    clean found clear ran

end Bind

end Course

end Scriptlet
