import Scriptlet.Proofs.Eval.Matching
import Scriptlet.Proofs.Eval.Repeatable

/-!
# Programs one after the other

The statements of several programs can be run as one block, or each program as a unit of code of its
own. In the second way every unit takes a number, which shifts the numbers of the objects made after
it, and statements stand at other sites. Both ways keep in step nevertheless: from one program to
the next the matching of the runs is widened, by the sites of the statements to come
(`Matching.enter`) and by the number of the unit (`Matching.skip`). What was made before is not
affected, since its numbers are below and its sites are not met again.
-/
set_option autoImplicit false

namespace Scriptlet

theorem Eval.block_append (call : Caller) (scope : ScopeId) (site : Site) (next : Nat)
    (last : Value) (first second : List Stmt) :
    block call scope site next last (first ++ second) =
      block call scope site next last first >>= fun value =>
        block call scope site (next + first.length) value second := by
  induction first generalizing next last with
  | nil => rfl
  | cons stmt rest ih =>
      simp only [List.cons_append, block, ih, bind_assoc, List.length_cons, Nat.add_assoc,
        Nat.add_comm 1]

theorem Eval.block_last (call : Caller) (scope : ScopeId) (site : Site) (next : Nat)
    {code : Block} (nonempty : code ≠ []) (last other : Value) :
    block call scope site next last code = block call scope site next other code := by
  cases code with
  | nil => contradiction
  | cons first rest => rfl

/-! ## Wider matchings -/

structure Matching.Widens (matching : Matching) (objects : Nat) (other : Matching) : Prop where
  sites : ∀ site twin, matching.sites site twin → other.sites site twin
  object : ∀ id < objects, other.object id = matching.object id

section Widen

set_option linter.unusedSectionVars false

variable {matching other : Matching} {scopes objects : Nat}
  (widens : matching.Widens objects other)

include widens

mutual

theorem Value.Matches.widen {value twin : Value} (matched : value.Matches matching twin)
    (within : value.Within scopes objects) : value.Matches other twin := by
  match value with
  | .integer _ | .boolean _ | .string _ | .null | .builtin _ => exact matched
  | .array id elements =>
      obtain ⟨twins, rfl, all⟩ := matched
      exact ⟨twins, by rw [widens.object id within.1], AllMatch.widen all within.2⟩
  | .hash id ⟨entries⟩ =>
      obtain ⟨twins, rfl, all⟩ := matched
      exact ⟨twins, by rw [widens.object id within.1], EntriesMatch.widen all within.2⟩
  | .function id closure =>
      obtain ⟨site, rfl, same⟩ := matched
      exact ⟨site, by rw [widens.object id within.1], widens.sites _ _ same⟩
  | .error id cause =>
      obtain rfl := matched
      exact congrArg (Value.error · cause) (widens.object id within).symm
  | .returned id inner =>
      obtain ⟨twin, rfl, matched⟩ := matched
      exact ⟨twin, by rw [widens.object id within.1], matched.widen within.2⟩

theorem AllMatch.widen {values twins : List Value} (all : AllMatch matching values twins)
    (within : Value.AllWithin scopes objects values) : AllMatch other values twins := by
  match values with
  | [] => exact all
  | value :: values =>
      obtain ⟨twin, others, rfl, matched, all⟩ := all
      exact ⟨twin, others, rfl, matched.widen within.1, all.widen within.2⟩

theorem EntriesMatch.widen {entries twins : List (Table.Entry Value)}
    (all : EntriesMatch matching entries twins)
    (within : Value.EntriesWithin scopes objects entries) : EntriesMatch other entries twins := by
  match entries with
  | [] => exact all
  | ⟨key, shown, value⟩ :: entries =>
      obtain ⟨shownTwin, twin, others, rfl, matchesShown, matched, all⟩ := all
      exact ⟨shownTwin, twin, others, rfl, matchesShown.widen within.1, matched.widen within.2.1,
        all.widen within.2.2⟩

end

theorem Scope.Matches.widen {scope twin : Scope} {id : Nat} (matched : scope.Matches matching twin)
    (within : scope.Within scopes objects id) : scope.Matches other twin := by
  refine ⟨?_, matched.outer, matched.session⟩
  have all := (List.forall₂_and_left _ _).mpr ⟨within.bindings, matched.bindings⟩
  exact all.imp fun _ _ ⟨within, name, matched⟩ => ⟨name, matched.widen widens within⟩

end Widen

/-- A well-formed store still matches, also if the other one goes on with other numbers. -/
theorem Store.Matches.widen {matching other : Matching} {store twin later : Store}
    (matched : store.Matches matching twin) (valid : store.Valid)
    (widens : matching.Widens store.issued other) (scopes : later.scopes = twin.scopes)
    (issued : ∀ more, other.object (store.issued + more) = later.issued + more)
    (output : later.output = twin.output) : store.Matches other later := by
  refine ⟨by rw [scopes, matched.size], fun id => ?_, issued, output.trans matched.output⟩
  have rel := matched.scopes id
  have within := valid id
  rw [scopes]
  generalize store.scopes[id]? = found, twin.scopes[id]? = foundTwin at rel within ⊢
  cases rel with
  | none => exact .none
  | some rel => exact .some (rel.widen widens (within _ rfl))

/-- A block that runs through leaves a well-formed store, which holds its value. -/
theorem Store.Valid.block {store later : Store} (valid : store.Valid) {depth : Nat} {scope : Nat}
    (inside : scope < store.scopes.size) {site : Site} {next : Nat} {last value : Value}
    (held : store.Holds last) {code : Block}
    (ran : Eval.block (Eval.apply depth) scope site next last code store = .ok value later) :
    store.Grows later ∧ later.Valid ∧ later.Holds value := by
  have follows : (store.parallel store).Follows _ store _ _ :=
    .block (.apply depth) inside site next last held code
  have along := Store.alongside valid (.refl store) (.refl store)
  have tracks := follows store store (.refl store) along
  rw [ran] at tracks
  generalize Eval.block _ _ _ _ _ _ _ = outcome at tracks
  cases tracks with
  | ok grows along renamed => exact ⟨grows, along.valid, renamed.2⟩

namespace Matching

variable {matching : Matching} {unit offset : Nat} {store twin : Store} {value answer : Value}

/-! ## The next program -/

/-- The sites that match are those of the first statements of the unit, and of units taken in before
the other one. -/
def Before (matching : Matching) (unit offset unitTwin : Nat) : Prop :=
  ∀ site twin, matching.sites site twin →
    (∃ path number, number < offset ∧ site = path ++ [number, unit]) ∧
      ∃ path number earlier, earlier < unitTwin ∧ twin = path ++ [number, earlier]

theorem site_inj {path other : Site} {number unit numberOther unitOther : Nat}
    (same : path ++ [number, unit] = other ++ [numberOther, unitOther]) :
    path = other ∧ number = numberOther ∧ unit = unitOther := by
  obtain ⟨paths, ends⟩ := List.append_inj' same rfl
  simpa [paths] using ends

/-- From the given one on, so many statements of the unit stand for the statements of the other
unit, part by part. -/
def Numbered (unit offset count unitTwin : Nat) (site twin : Site) : Prop :=
  ∃ path number, number < count ∧ site = path ++ [offset + number, unit] ∧
    twin = path ++ [number, unitTwin]

theorem biUnique_numbered (unit offset count unitTwin : Nat) :
    Relator.BiUnique (Numbered unit offset count unitTwin) := by
  constructor
  · rintro _ _ _ ⟨path, number, _, rfl, rfl⟩ ⟨other, numberOther, _, rfl, same⟩
    obtain ⟨rfl, rfl, _⟩ := site_inj same
    rfl
  · rintro _ _ _ ⟨path, number, _, rfl, rfl⟩ ⟨other, numberOther, _, same, rfl⟩
    obtain ⟨rfl, numbers, _⟩ := site_inj same
    rw [Nat.add_left_cancel numbers]

def enter (matching : Matching) (unit offset count unitTwin : Nat)
    (before : matching.Before unit offset unitTwin) : Matching where
  sites site twin := matching.sites site twin ∨ Numbered unit offset count unitTwin site twin
  sites_biUnique := by
    have left (site twin : Site) (same : matching.sites site twin) (other : Site) :
        ¬Numbered unit offset count unitTwin site other := by
      rintro ⟨path, number, _, rfl, _⟩
      obtain ⟨⟨pathOther, numberOther, below, same⟩, _⟩ := before _ _ same
      have numbers := (site_inj same).2.1
      omega
    have right (site twin : Site) (same : matching.sites site twin) (other : Site) :
        ¬Numbered unit offset count unitTwin other twin := by
      rintro ⟨path, number, _, _, rfl⟩
      obtain ⟨_, pathOther, numberOther, earlier, below, same⟩ := before _ _ same
      have units := (site_inj same).2.2
      omega
    have unique := biUnique_numbered unit offset count unitTwin
    constructor
    · rintro site other twin (same | numbered) (sameOther | numberedOther)
      · exact matching.sites_biUnique.1 same sameOther
      · exact absurd numberedOther (right _ _ same _)
      · exact absurd numbered (right _ _ sameOther _)
      · exact unique.1 numbered numberedOther
    · rintro site twin other (same | numbered) (sameOther | numberedOther)
      · exact matching.sites_biUnique.2 same sameOther
      · exact absurd numberedOther (left _ _ same _)
      · exact absurd numbered (left _ _ sameOther _)
      · exact unique.2 numbered numberedOther
  descend := by
    rintro part site twin (same | ⟨path, number, few, rfl, rfl⟩)
    · exact .inl (matching.descend part same)
    · exact .inr ⟨part :: path, number, few, rfl, rfl⟩
  object := matching.object
  object_mono := matching.object_mono

def skip (matching : Matching) (start : Nat) : Matching where
  sites := matching.sites
  sites_biUnique := matching.sites_biUnique
  descend := matching.descend
  object id := if id < start then matching.object id else matching.object id + 1
  object_mono := by
    intro a b smaller
    have mono := matching.object_mono smaller
    by_cases old : b < start
    · simpa only [if_pos old, if_pos (smaller.trans old)] using mono
    · simp only [if_neg old]
      split
      · exact mono.trans (Nat.lt_succ_self _)
      · exact Nat.succ_lt_succ mono

/-- How both ways stand before the next program. As a block the statements have come to number
`offset` of their unit and to a value, and the program before has come to an answer. -/
structure InStep (matching : Matching) (scope unit offset : Nat) (store : Store) (value : Value)
    (twin : Store) (answer : Value) : Prop where
  stores : store.Matches matching twin.issue.2
  values : value.Matches matching answer
  valid : store.Valid
  held : store.Holds value
  inside : scope < store.scopes.size
  before : matching.Before unit offset twin.issued

def initial : Matching where
  sites _ _ := False
  sites_biUnique := ⟨fun _ _ _ => False.elim, fun _ _ _ => False.elim⟩
  descend := fun _ _ _ => False.elim
  object := id
  object_mono := strictMono_id

namespace InStep

variable {depth scope : Nat} {code : Block}

def entering (inStep : matching.InStep scope unit offset store value twin answer) (count : Nat) :
    Matching :=
  matching.enter unit offset count twin.issued inStep.before

theorem widens_entering (inStep : matching.InStep scope unit offset store value twin answer)
    (count objects : Nat) : matching.Widens objects (inStep.entering count) :=
  ⟨fun _ _ => .inl, fun _ _ => rfl⟩

/-- The statements of the next program end alike both ways. -/
theorem block (inStep : matching.InStep scope unit offset store value twin answer) (depth : Nat)
    (code : Block) (event : Event) :
    (inStep.entering code.length).Alike (Value.Matches (inStep.entering code.length))
      (Eval.block (Eval.apply depth) scope [unit] offset value code store)
      (Eval.block (Eval.apply depth) scope [twin.issued] 0 answer code
        (twin.issue.2.note event)) := by
  have widens := inStep.widens_entering code.length store.issued
  have same : ∀ number < code.length, (inStep.entering code.length).sites
      [offset + number, unit] [0 + number, twin.issued] :=
    fun number few => .inr ⟨[], number, few, rfl, by rw [Nat.zero_add]; rfl⟩
  have stores : store.Matches (inStep.entering code.length) (twin.issue.2.note event) :=
    inStep.stores.widen inStep.valid widens rfl inStep.stores.issued rfl
  have values := inStep.values.widen widens inStep.held
  exact Agree.block (.apply depth) offset 0 code same scope values _ _ stores

theorem next (inStep : matching.InStep scope unit offset store value twin answer)
    {later laterTwin : Store} {given givenTwin : Value}
    (ran : Eval.block (Eval.apply depth) scope [unit] offset value code store = .ok given later)
    (stores : later.Matches (inStep.entering code.length) laterTwin)
    (values : given.Matches (inStep.entering code.length) givenTwin) :
    ((inStep.entering code.length).skip later.issued).InStep scope unit (offset + code.length) later
      given laterTwin givenTwin := by
  let entered := inStep.entering code.length
  obtain ⟨grows, valid, held⟩ := inStep.valid.block inStep.inside inStep.held ran
  have widens : entered.Widens later.issued (entered.skip later.issued) :=
    ⟨fun _ _ same => same, fun id old => if_pos old⟩
  refine ⟨stores.widen valid widens rfl (fun more => ?_) rfl, values.widen widens held, valid, held,
    inStep.inside.trans_le grows.scopes, ?_⟩
  · have isNew : ¬later.issued + more < later.issued := Nat.not_lt_of_le (Nat.le_add_right _ _)
    show (if later.issued + more < later.issued then _ else entered.object _ + 1) = _
    rw [if_neg isNew, stores.issued more]
    exact Nat.add_right_comm _ _ _
  · have unitBefore : twin.issued < laterTwin.issued := by
      have first : entered.object store.issued = twin.issued + 1 := inStep.stores.issued 0
      have last : entered.object later.issued = laterTwin.issued := stores.issued 0
      rw [← Nat.succ_le_iff, ← last, Nat.succ_eq_add_one, ← first]
      exact entered.object_mono.monotone grows.issued
    rintro site other (same | ⟨path, number, few, rfl, rfl⟩)
    · obtain ⟨⟨path, number, low, here⟩, pathTwin, numberTwin, earlier, old, there⟩ :=
        inStep.before _ _ same
      exact ⟨⟨path, number, Nat.lt_add_right _ low, here⟩,
        pathTwin, numberTwin, earlier, old.trans unitBefore, there⟩
    · exact ⟨⟨path, offset + number, Nat.add_lt_add_left few _, rfl⟩,
        path, number, twin.issued, unitBefore, rfl⟩

end InStep

end Matching

end Scriptlet
