import Scriptlet.Proofs.Eval.Discipline
import Scriptlet.Proofs.Eval.Matching

/-!
# Signals stay apart from data

Seen from outside, an error and a `return` that left the code are values. They are signals to the
one who asked for the evaluation: no scope binds one and none is found inside an array or a hash,
at any depth, unless one was there before. This is the discipline that allows all code and asks
nothing of scopes, since no discipline takes a signal for a sound value.

A program is evaluated like a block, except that it gives up the value of a `return`. That it also
leaves another event in the log makes no difference to what its statements do.
-/
set_option autoImplicit false

namespace Scriptlet

/-! ## Signals and data -/

namespace Value

def isSignal : Value → Bool
  | .error _ _ => true
  | .returned _ _ => true
  | _ => false

def IsData (value : Value) : Prop :=
  value.All fun part => part.isSignal = false

/-- What a `return` gives up; any other value is left as it is. -/
def unwrapped : Value → Value
  | .returned _ value => value
  | value => value

end Value

def Store.IsClean (store : Store) : Prop :=
  ∀ id name value, store.binding? id name = some value → value.IsData

/-- How the evaluation of a node may end: with an error, with data wrapped as a `return` unless the
node is a whole program, or with data. -/
def Node.MayGive (code : Node) : Value → Prop
  | .error _ _ => True
  | .returned _ value => (∀ program, code ≠ .program program) ∧ value.IsData
  | value => value.IsData

/-- The second ending has what the `return` of the first one wraps, and neither printed nor bound
anything else. -/
inductive Evaluation.Unwraps : Outcome Store Empty Value → Outcome Store Empty Value → Prop
  | ok {value given : Value} {later other : Store} (values : given = value.unwrapped)
      (scopes : other.scopes = later.scopes) (output : other.output = later.output) :
      Unwraps (.ok value later) (.ok given other)
  | halted (why : Halt) : Unwraps (.halted why) (.halted why)

/-! ## The discipline of signals -/

def Discipline.lenient : Discipline where
  toPolicy := .onLiterals fun _ => True
  Hosts _ _ _ := True
  Missing _ := True
  hosts_mono := fun _ _ => trivial
  hosts_enter := fun _ _ _ => trivial
  hosts_define := fun _ _ _ _ => trivial
  hosts_expr := fun _ _ => trivial
  missing := fun _ _ _ _ => trivial

namespace Discipline

theorem admits_lenient_iff {store : Store} {value : Value} :
    lenient.Admits store value ↔ value.isSignal = false := by
  cases value with
  | function id closure =>
      refine iff_of_true ⟨(0 : Nat), trivial, ?_, trivial⟩ rfl
      exact blockObeys_onLiterals 1 closure.site 0 closure.body fun _ _ => trivial
  | error _ _ | returned _ _ => exact iff_of_false nofun nofun
  | _ => exact iff_of_true trivial rfl

theorem sound_lenient_iff {store : Store} {value : Value} :
    lenient.Sound store value ↔ value.IsData :=
  forall₂_congr fun _ _ => admits_lenient_iff

theorem fits_lenient_iff {store : Store} : lenient.Fits store ↔ store.IsClean := by
  constructor
  · exact fun fits id name value found => sound_lenient_iff.mp (fits.bindings id name value found)
  · exact fun clean => ⟨fun _ _ => ⟨(0 : Nat), trivial⟩, fun id name value found =>
      sound_lenient_iff.mpr (clean id name value found)⟩

end Discipline

/-! ## Evaluation -/

variable {store later : Store} {depth : Nat} {scope : ScopeId} {site : Site} {value : Value}

theorem Node.mayGive_of_isData (code : Node) (data : value.IsData) : code.MayGive value := by
  cases value with
  | returned _ _ => cases data.self
  | error _ _ => trivial
  | _ => exact data

theorem clean_inner (clean : store.IsClean) {eval : Eval Value} {code : Node}
    (yields : Discipline.lenient.Yields Discipline.lenient.Sound store eval)
    (part : ∀ program, code ≠ .program program)
    (ran : Evaluation.inner eval store = .ok value later) : later.IsClean ∧ code.MayGive value := by
  obtain ⟨_, fits, given⟩ := (Discipline.fits_lenient_iff.mpr clean).inner yields ran
  refine ⟨Discipline.fits_lenient_iff.mp fits, ?_⟩
  rcases given with ⟨_, _, rfl, _⟩ | ⟨_, inner, rfl, sound⟩ | sound
  · trivial
  · exact ⟨part, Discipline.sound_lenient_iff.mp sound⟩
  · exact code.mayGive_of_isData (Discipline.sound_lenient_iff.mp sound)

theorem clean_node (clean : store.IsClean) {code : Node}
    (ran : Evaluation.node depth scope site code store = .ok value later) :
    later.IsClean ∧ code.MayGive value := by
  have hosts : Discipline.lenient.Hosts (0 : Nat) store scope := trivial
  match code with
  | .program code =>
      obtain ⟨_, fits, given⟩ := (Discipline.fits_lenient_iff.mpr clean).program hosts
        (blockObeys_onLiterals 0 site 0 code.statements fun _ _ => trivial) ran
      refine ⟨Discipline.fits_lenient_iff.mp fits, ?_⟩
      rcases given with ⟨_, _, rfl, _⟩ | sound
      · trivial
      · exact Node.mayGive_of_isData _ (Discipline.sound_lenient_iff.mp sound)
  | .block code =>
      refine clean_inner clean (.block (.apply depth) hosts site 0 .null ?_ code ?_) nofun ran
      · exact Discipline.sound_plain store rfl
      · exact blockObeys_onLiterals 0 site 0 code fun _ _ => trivial
  | .stmt code =>
      have obeys : code.Obeys Discipline.lenient.toPolicy (0 : Nat) site :=
        code.obeys_onLiterals 0 site fun _ _ => trivial
      have yields := Discipline.Yields.stmt (.apply depth) hosts site code obeys
      exact clean_inner clean (yields.weaken fun _ _ => And.left) nofun ran
  | .expr code =>
      refine clean_inner clean (.expr (.apply depth) hosts site code ?_) nofun ran
      exact code.obeys_onLiterals 0 site fun _ _ => trivial

theorem Value.IsData.unwrapped_eq (data : value.IsData) : value.unwrapped = value := by
  cases value with
  | returned _ _ => cases data.self
  | _ => rfl

/-- The statements of a program do the same as in a block, whatever the log. -/
theorem program_unwraps (clean : store.IsClean) (depth : Nat) (scope : ScopeId) (site : Site)
    (code : Block) :
    Evaluation.Unwraps (Evaluation.node depth scope site (.block code) store)
      (Evaluation.node depth scope site (.program ⟨code⟩) store) := by
  have hosts : Discipline.lenient.Hosts (0 : Nat) store scope := trivial
  have yields : Discipline.lenient.Yields _ _ _ := .block (.apply depth) hosts site 0 .null
    (Discipline.sound_plain store rfl) code
    (blockObeys_onLiterals 0 site 0 code fun _ _ => trivial)
  have ended := yields store (.refl store) (Discipline.fits_lenient_iff.mpr clean)
  have agree : Matching.same.Agree _ _ _ := .inner (.apply depth) (rfl : site = site) scope code
  have alike := agree store (store.note (.program code.length))
    (Store.matches_same_iff.mpr ⟨rfl, rfl, rfl⟩)
  simp only [Evaluation.node, Evaluation.inner, Evaluation.program_eq_block, Evaluation.settle,
    Run.bind_apply, Run.modify]
  generalize Eval.block (Eval.apply depth) scope site 0 .null code store = outcome,
    Eval.block (Eval.apply depth) scope site 0 .null code (store.note (.program code.length)) =
      outcomeTwin at alike ended ⊢
  cases alike with
  | halted why => exact .halted why
  | ok stores values =>
      obtain ⟨scopes, issued, output⟩ := Store.matches_same_iff.mp stores
      cases Value.matches_same_iff.mp values
      cases ended with
      | ok _ _ sound =>
          have data := Discipline.sound_lenient_iff.mp sound
          exact .ok data.unwrapped_eq.symm scopes output
  | returned stores values =>
      obtain ⟨scopes, issued, output⟩ := Store.matches_same_iff.mp stores
      exact .ok (Value.matches_same_iff.mp values) scopes output
  | failed stores error =>
      obtain ⟨scopes, issued, output⟩ := Store.matches_same_iff.mp stores
      exact .ok (congrArg (Value.error · error) issued) scopes output

/-- Evaluation makes no signal part of anything it binds or gives: from a store without signals it
ends in such a store, with an error, a wrapped `return` of data, or data. A program ends like the
block of its statements, with the `return` undone, and so gives no wrapped `return`. -/
theorem signals_stay_apart (store : Store) (clean : store.IsClean) (depth : Nat) (scope : ScopeId)
    (site : Site) :
    (∀ code value later, Evaluation.node depth scope site code store = .ok value later →
        later.IsClean ∧ code.MayGive value) ∧
      ∀ code : Block,
        Evaluation.Unwraps (Evaluation.node depth scope site (.block code) store)
          (Evaluation.node depth scope site (.program ⟨code⟩) store) ∧
        ∀ id value later,
          Evaluation.node depth scope site (.program ⟨code⟩) store ≠
            .ok (.returned id value) later := by
  refine ⟨fun code value later ran => clean_node clean ran, fun code => ?_⟩
  refine ⟨program_unwraps clean depth scope site code, fun id value later ran => ?_⟩
  exact (clean_node clean ran).2.1 ⟨code⟩ rfl

/-- `if (true) { return [1]; }` as a block and as a program. -/
theorem signals_stay_apart_branch :
    ∃ later other,
      Evaluation.node 0 0 [] (.block [
        .expr (.conditional (.boolean true) [.returning (.array [.integer 1])] none)])
        (Session.start .empty).2 = .ok (.returned 1 (.array 0 [.integer 1])) later ∧
      Evaluation.node 0 0 [] (.program ⟨[
        .expr (.conditional (.boolean true) [.returning (.array [.integer 1])] none)]⟩)
        (Session.start .empty).2 = .ok (.array 0 [.integer 1]) other ∧
      later.IsClean ∧ other.scopes = later.scopes := by
  have clean : (Session.start .empty).2.IsClean := by
    intro id name value found
    cases id with
    | zero => cases found
    | succ id => cases found
  let code : Block := [.expr (.conditional (.boolean true) [.returning (.array [.integer 1])] none)]
  obtain ⟨keeps, strips⟩ := signals_stay_apart _ clean 0 0 []
  refine ⟨_, _, rfl, rfl, (keeps (.block code) _ _ rfl).1, ?_⟩
  cases (strips code).1 with
  | ok _ scopes _ => exact scopes

end Scriptlet
