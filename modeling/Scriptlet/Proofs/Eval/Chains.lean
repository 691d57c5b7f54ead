import Scriptlet.Proofs.Eval.Frame
import Scriptlet.Proofs.Eval.Stages

/-!
# Chains of scopes follow the text

The scope that a call makes lies inside the scope that the function captured, and not inside that of
the caller. So how many scopes are around a scope is a matter of the text: a function literal with
`k` function literals around it only ever captures scopes of depth `k + 1`. This is the discipline
`Discipline.lexical`, and the main statement says that it holds at all stages of an evaluation that
begins in a new session.

`Store.Chained` goes from a scope outwards without any bound on the number of steps. That every
scope has such a chain, and that it is the one which is searched for names, says that the search
comes to an end at the top-level scope.
-/
set_option autoImplicit false

namespace Scriptlet

/-! ## Chains -/

namespace Store

/-- The scopes from the given one outwards, each of them made before the one inside it, and the last
one at the top. -/
inductive Chained (store : Store) : ScopeId → List ScopeId → Prop
  | top {id : ScopeId} {scope : Scope} (found : store.scopes[id]? = some scope)
      (isTop : scope.outer = none) : Chained store id [id]
  | inside {id outer : ScopeId} {scope : Scope} {around : List ScopeId}
      (found : store.scopes[id]? = some scope) (leads : scope.outer = some outer)
      (older : outer < id) (chained : Chained store outer around) : Chained store id (id :: around)

variable {before later store : Store} {id : ScopeId} {chain : List ScopeId}

namespace Chained

theorem lt_size (chained : store.Chained id chain) : id < store.scopes.size := by
  cases chained with
  | top found _ => exact (Array.getElem?_eq_some_iff.mp found).1
  | inside found _ _ _ => exact (Array.getElem?_eq_some_iff.mp found).1

theorem mem_self (chained : store.Chained id chain) : id ∈ chain := by
  cases chained <;> exact List.mem_cons_self

theorem chain_eq (chained : store.Chained id chain) : store.chain id = chain := by
  have enough : ∀ length, id < length → store.chainUpTo length id = chain := by
    induction chained with
    | top found isTop =>
        intro length bound
        obtain ⟨length, rfl⟩ := Nat.exists_eq_add_of_lt bound
        simp [chainUpTo, found, isTop]
    | @inside id outer scope around found leads older _ ih =>
        intro length bound
        obtain ⟨more, rfl⟩ := Nat.exists_eq_add_of_lt bound
        simp only [chainUpTo, found, leads, ih (id + more) (older.trans_le (Nat.le_add_right _ _))]
  exact enough (id + 1) (Nat.lt_succ_self id)

theorem falling (chained : store.Chained id chain) :
    (∀ other ∈ chain, other ≤ id) ∧ chain.Pairwise fun inner outer => outer < inner := by
  induction chained with
  | top _ _ => simp
  | @inside id outer scope around _ _ older _ ih =>
      obtain ⟨below, falls⟩ := ih
      have smaller : ∀ other ∈ around, other < id :=
        fun other isIn => (below other isIn).trans_lt older
      refine ⟨List.forall_mem_cons.mpr ⟨le_rfl, fun other isIn => (smaller other isIn).le⟩, ?_⟩
      exact List.pairwise_cons.mpr ⟨smaller, falls⟩

theorem lt_size_of_mem (chained : store.Chained id chain) {other : ScopeId} (isIn : other ∈ chain) :
    other < store.scopes.size :=
  (chained.falling.1 other isIn).trans_lt chained.lt_size

/-- What a scope leads to is all that a chain depends on. -/
theorem of_outer (chained : before.Chained id chain)
    (same : ∀ id < before.scopes.size,
      later.scopes[id]?.map Scope.outer = before.scopes[id]?.map Scope.outer) :
    later.Chained id chain := by
  have leadsSame : ∀ {id : ScopeId} {scope : Scope}, before.scopes[id]? = some scope →
      ∃ same, later.scopes[id]? = some same ∧ same.outer = scope.outer := by
    intro id scope found
    have outer := same id (Array.getElem?_eq_some_iff.mp found).1
    rw [found, Option.map_some] at outer
    exact Option.map_eq_some_iff.mp outer
  induction chained with
  | top found isTop =>
      obtain ⟨same, found, outer⟩ := leadsSame found
      exact .top found (outer.trans isTop)
  | inside found leads older _ ih =>
      obtain ⟨same, found, outer⟩ := leadsSame found
      exact .inside found (outer.trans leads) older ih

theorem of_members (chained : before.Chained id chain)
    (same : ∀ other ∈ chain, later.scopes[other]? = before.scopes[other]?) :
    later.Chained id chain := by
  induction chained with
  | top found isTop => exact .top ((same _ List.mem_cons_self).trans found) isTop
  | inside found leads older _ ih =>
      obtain ⟨sameHere, sameAround⟩ := List.forall_mem_cons.mp same
      exact .inside (sameHere.trans found) leads older (ih sameAround)

theorem mono (chained : before.Chained id chain) (retains : before.Retains later) :
    later.Chained id chain :=
  chained.of_outer retains.outer

theorem enclose (chained : store.Chained id chain) (bindings : List (String × Value)) :
    (store.enclose id bindings).2.Chained store.scopes.size (store.scopes.size :: chain) := by
  have found : (store.enclose id bindings).2.scopes[store.scopes.size]? =
      some ⟨bindings, some id, store.sessionOf id⟩ := by
    simp [Store.enclose]
  exact .inside found rfl chained.lt_size (chained.mono (.enclose store id bindings))

end Chained

end Store

/-! ## The discipline of nesting -/

/-- Code with `nesting` function literals around it runs in scopes with as many scopes around them,
the outermost of which is the given one. -/
def Discipline.lexical (top : ScopeId) (literals : List Literal) : Discipline where
  toPolicy := .onLiterals (· ∈ literals)
  Hosts (nesting : Nat) store scope :=
    ∃ chain, store.Chained scope chain ∧ chain.length = nesting + 1 ∧ chain.getLast? = some top
  Missing _ := True
  hosts_mono := by
    rintro nesting before later scope retains ⟨chain, chained, length, last⟩
    exact ⟨chain, chained.mono retains, length, last⟩
  hosts_enter := by
    rintro nesting store outer parameters arguments ⟨chain, chained, length, last⟩
    refine ⟨_, chained.enclose _, congrArg Nat.succ length, ?_⟩
    rw [List.getLast?_cons, last]
    rfl
  hosts_define := by
    rintro nesting store scope name code value ⟨chain, chained, length, last⟩
    exact ⟨chain, chained.mono (.define store scope name value), length, last⟩
  hosts_expr := fun _ hosts => hosts
  missing := fun _ _ _ _ => trivial

def Program.literals (code : Program) (unit : Nat) : List Literal :=
  blockLiterals 0 [unit] 0 code.statements

namespace Store

/-- The captured scope is there, and it has as many scopes around it as the literal from which the
function comes has function literals around it. -/
def Captured (store : Store) (literals : List Literal) (closure : Closure) : Prop :=
  closure.scope < store.scopes.size ∧
    ∃ nesting, ⟨nesting, closure.site, closure.parameters, closure.body⟩ ∈ literals ∧
      store.depth closure.scope = nesting + 1

def Draws (store : Store) (literals : List Literal) (value : Value) : Prop :=
  ∀ id closure, .function id closure ∈ value.parts → store.Captured literals closure

/-- Chains lead from every scope over older ones to the top, and everything bound comes from the
literals. -/
structure Lexical (store : Store) (top : ScopeId) (literals : List Literal) : Prop where
  older : ∀ (id : ScopeId) (scope : Scope) (outer : ScopeId), store.scopes[id]? = some scope →
    scope.outer = some outer → outer < id
  chained : ∀ id < store.scopes.size, store.Chained id (store.chain id)
  falls : ∀ id < store.scopes.size, (store.chain id).Pairwise fun inner outer => outer < inner
  ends : ∀ id < store.scopes.size, (store.chain id).getLast? = some top
  draws : ∀ id name value, store.binding? id name = some value → store.Draws literals value

end Store

namespace Discipline

variable {top : ScopeId} {literals : List Literal} {store : Store}

theorem captured_of_accepts {closure : Closure}
    (accepts : (lexical top literals).Accepts store closure) : store.Captured literals closure := by
  obtain ⟨nesting, isLiteral, _, chain, chained, length, _⟩ := accepts
  refine ⟨chained.lt_size, nesting, isLiteral, ?_⟩
  rw [Store.depth, chained.chain_eq]
  exact length

theorem draws_of_sound {value : Value} (sound : (lexical top literals).Sound store value) :
    store.Draws literals value :=
  fun _ _ isPart => captured_of_accepts (sound _ isPart)

theorem lexical_of_fits (fits : (lexical top literals).Fits store) :
    store.Lexical top literals := by
  have chains : ∀ id < store.scopes.size, ∃ chain, store.Chained id chain ∧
      chain.getLast? = some top := by
    intro id inside
    obtain ⟨nesting, chain, chained, _, last⟩ := fits.hosted id inside
    exact ⟨chain, chained, last⟩
  refine ⟨fun id scope outer found leads => ?_, fun id inside => ?_, fun id inside => ?_,
    fun id inside => ?_,
    fun id name value found => draws_of_sound (fits.bindings id name value found)⟩
  · have inside := (Array.getElem?_eq_some_iff.mp found).1
    obtain ⟨chain, chained, _⟩ := chains id inside
    cases chained with
    | top known isTop =>
        cases found.symm.trans known
        cases leads.symm.trans isTop
    | inside known leadsSame older _ =>
        cases found.symm.trans known
        cases leads.symm.trans leadsSame
        exact older
  · obtain ⟨chain, chained, _⟩ := chains id inside
    rwa [chained.chain_eq]
  · obtain ⟨chain, chained, _⟩ := chains id inside
    rw [chained.chain_eq]
    exact chained.falling.2
  · obtain ⟨chain, chained, last⟩ := chains id inside
    rwa [chained.chain_eq]

end Discipline

/-! ## All stages of an evaluation -/

def Program.stage (code : Program) (scope : ScopeId) (store : Store) : Stage :=
  ⟨.block scope [store.issued] 0 .null code.statements,
    store.issue.2.note (.program code.statements.length)⟩

def Task.values : Task → List Value
  | .expr _ _ _ => []
  | .stmt _ _ _ => []
  | .exprs _ _ _ _ => []
  | .entries _ _ _ table _ => table.entries.flatMap fun entry => [entry.shown, entry.value]
  | .block _ _ _ last _ => [last]
  | .call callee arguments => callee :: arguments

def Outcome.handed : Outcome Store Unwind (List Value) → List Value
  | .ok values _ => values
  | .raised (.returned value) _ => [value]
  | .raised (.failed _) _ => []
  | .halted _ => []

namespace Discipline

variable {discipline : Discipline} {store later : Store}

theorem Assigns.soundAll {task : Task} (assigns : discipline.Assigns store task) :
    discipline.SoundAll store task.values := by
  cases task with
  | expr _ _ _ | stmt _ _ _ | exprs _ _ _ _ => exact fun value isIn => nomatch isIn
  | entries scope site next table pairs => exact SoundTable.soundAll assigns.1
  | block scope site next last code => exact soundAll_singleton assigns.1
  | call callee arguments => exact List.forall_mem_cons.mpr assigns

theorem Ends.of_state {outcome : Outcome Store Unwind (List Value)}
    (ends : discipline.Ends discipline.SoundAll store outcome)
    (stopped : outcome.state? = some later) :
    store.Retains later ∧ discipline.Fits later ∧ discipline.SoundAll later outcome.handed := by
  cases ends with
  | ok retains fits sound =>
      cases stopped
      exact ⟨retains, fits, sound⟩
  | returned retains fits sound =>
      cases stopped
      exact ⟨retains, fits, soundAll_singleton sound⟩
  | failed retains fits _ =>
      cases stopped
      exact ⟨retains, fits, fun value isIn => nomatch isIn⟩
  | halted why => cases stopped

end Discipline

section

open Discipline

/-- From the beginning of a program in a new session on, at every stage that is reached: scopes lead
outwards over older ones to the scope of the session, in the same way forever, and every function
that is bound, handed on or inside a value comes from a literal of the program, told by its site,
and has captured a scope whose depth is one more than the number of function literals around that
literal. -/
theorem scopes_follow_text (code : Program) (register : Register) (issued : Nat) (output : String)
    (log : Array Event) :
    let session := (Session.start ⟨#[], register, issued, output, log⟩).1
    let store := (Session.start ⟨#[], register, issued, output, log⟩).2
    let literals := code.literals issued
    (literals.Pairwise fun one other => one.site ≠ other.site) ∧
    (∀ depth value later,
      Evaluation.fresh depth session.root (.program code) store = .ok value later →
        store.Retains later ∧ later.Lexical session.root literals ∧ later.Draws literals value) ∧
    ∀ stage, (code.stage session.root store).Reaches stage →
      stage.store.Lexical session.root literals ∧
      (∀ value ∈ stage.task.values, stage.store.Draws literals value) ∧
      (∀ next, stage.Reaches next → stage.store.Retains next.store) ∧
      ∀ depth later, (stage.task.run depth stage.store).state? = some later →
        stage.store.Retains later ∧ later.Lexical session.root literals ∧
          ∀ value ∈ (stage.task.run depth stage.store).handed, later.Draws literals value := by
  intro session store literals
  let discipline := lexical session.root literals
  have hosts : discipline.Hosts (0 : Nat) store session.root := ⟨[0], .top rfl rfl, rfl, rfl⟩
  have fits : discipline.Fits store := fits_start rfl hosts
  have obeys : BlockObeys discipline.toPolicy (0 : Nat) [issued] 0 code.statements :=
    blockObeys_onLiterals 0 [issued] 0 code.statements fun _ isIn => isIn
  refine ⟨(spread_blockLiterals 0 [issued] 0 code.statements).apart, ?_, ?_⟩
  · intro depth value later ran
    obtain ⟨unit, numbered, taken, ran⟩ := Run.bind_eq_ok ran
    cases taken
    have grown : store.Retains store.issue.2 := .of_scopes rfl
    have fitsNumbered : discipline.Fits store.issue.2 := fits.of_scopes rfl
    obtain ⟨retains, fits, result⟩ :=
      fitsNumbered.program (discipline.hosts_mono grown hosts) obeys ran
    refine ⟨grown.trans retains, lexical_of_fits fits, ?_⟩
    rcases result with ⟨id, error, rfl, _⟩ | sound
    · intro object closure isPart
      cases List.mem_singleton.mp isPart
    · exact draws_of_sound sound
  · intro stage reaches
    have begun : store.Retains (code.stage session.root store).store := .of_scopes rfl
    have start : discipline.FitsStage (code.stage session.root store) :=
      ⟨fits.of_scopes rfl, sound_plain _ rfl, (0 : Nat), discipline.hosts_mono begun hosts, obeys⟩
    obtain ⟨_, fits, assigns⟩ := start.reaches reaches
    refine ⟨lexical_of_fits fits, fun value isIn => draws_of_sound (assigns.soundAll value isIn),
      fun next reachesNext => (FitsStage.reaches ⟨fits, assigns⟩ reachesNext).1, ?_⟩
    intro depth later stopped
    have ends := FitsStage.yields ⟨fits, assigns⟩ depth stage.store (.refl _) fits
    obtain ⟨retains, fits, sound⟩ := ends.of_state stopped
    exact ⟨retains, lexical_of_fits fits, fun value isIn => draws_of_sound (sound value isIn)⟩

end

/-- `let f = fn(x) { fn() { x } }; f(1)` gives a function whose literal has one function literal
around it. The scope that it captured was made by the call. -/
theorem scopes_follow_text_nested :
    ∃ later : Store,
      Evaluation.fresh 1 0 (.program ⟨[
          .define "f" (.function ["x"] [.expr (.function [] [.expr (.name "x")])]),
          .expr (.call (.name "f") [.integer 1])]⟩) (Session.start .empty).2 =
        .ok (.function 2 ⟨[], [.expr (.name "x")], 1, [0, 0, 0]⟩) later ∧
      later.Captured [⟨0, [0, 0], ["x"], [.expr (.function [] [.expr (.name "x")])]⟩,
        ⟨1, [0, 0, 0], [], [.expr (.name "x")]⟩] ⟨[], [.expr (.name "x")], 1, [0, 0, 0]⟩ :=
  ⟨_, rfl, ((scopes_follow_text ⟨[
      .define "f" (.function ["x"] [.expr (.function [] [.expr (.name "x")])]),
      .expr (.call (.name "f") [.integer 1])]⟩ .empty 0 "" #[]).2.1 1 _ _ rfl).2.2 2 _
    (Value.mem_parts_self _)⟩

end Scriptlet
