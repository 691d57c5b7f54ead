import Mathlib.Data.List.Forall2
import Mathlib.Logic.Relator
import Scriptlet.Eval.Program
import Scriptlet.Proofs.Eval.Renaming

/-!
# Runs that match

A function carries the site of its code, objects carry numbers, and the store keeps a log. What
code does depends on none of them, except that the equality of objects compares their numbers. So
two stores that are alike up to sites, numbers of objects and logs (`Store.Matches`) stay so when
the same code runs in both, even if it stands at different sites (`Matching.Agree`).

Which sites and numbers stand for each other is given by a `Matching`. That of everything with
itself (`Matching.same`) leaves the log as the only difference.
-/
set_option autoImplicit false

namespace Scriptlet

/-- What in one run stands for what in another: nodes of code for nodes, and with them their
parts, and objects for objects made in the same order. -/
structure Matching where
  sites : Site → Site → Prop
  sites_biUnique : Relator.BiUnique sites
  descend : ∀ (part : Nat) {site twin : Site}, sites site twin → sites (part :: site) (part :: twin)
  object : ObjectId → ObjectId
  object_mono : StrictMono object

namespace Matching

def same : Matching where
  sites := Eq
  sites_biUnique :=
    ⟨fun _ _ _ left right => left.trans right.symm, fun _ _ _ left right => left.symm.trans right⟩
  descend := fun _ _ _ equal => congrArg _ equal
  object := id
  object_mono := strictMono_id

@[simp]
theorem sites_same (site twin : Site) : same.sites site twin ↔ site = twin :=
  Iff.rfl

@[simp]
theorem object_same (id : ObjectId) : same.object id = id :=
  rfl

theorem below (matching : Matching) {site twin : Site} (same : matching.sites site twin)
    (code : List Stmt) :
    ∀ number < code.length, matching.sites ((0 + number) :: site) ((0 + number) :: twin) :=
  fun _ _ => matching.descend _ same

def names (matching : Matching) : Renaming :=
  ⟨id, matching.object, strictMono_id, matching.object_mono⟩

end Matching

/-! ## Values -/

section

variable (matching : Matching)

mutual

def Value.Matches : Value → Value → Prop
  | .integer value, twin => twin = .integer value
  | .boolean value, twin => twin = .boolean value
  | .string text, twin => twin = .string text
  | .null, twin => twin = .null
  | .array id elements, twin =>
    ∃ twins, twin = .array (matching.object id) twins ∧ AllMatch elements twins
  | .hash id ⟨entries⟩, twin =>
    ∃ twins, twin = .hash (matching.object id) ⟨twins⟩ ∧ EntriesMatch entries twins
  | .function id closure, twin =>
    ∃ site, twin = .function (matching.object id) { closure with site := site } ∧
      matching.sites closure.site site
  | .builtin which, twin => twin = .builtin which
  | .error id cause, twin => twin = .error (matching.object id) cause
  | .returned id value, twin =>
    ∃ inner, twin = .returned (matching.object id) inner ∧ value.Matches inner

def AllMatch : List Value → List Value → Prop
  | [], twins => twins = []
  | value :: values, twins =>
    ∃ twin others, twins = twin :: others ∧ value.Matches twin ∧ AllMatch values others

def EntriesMatch : List (Table.Entry Value) → List (Table.Entry Value) → Prop
  | [], twins => twins = []
  | ⟨key, shown, value⟩ :: entries, twins =>
    ∃ shownTwin twin others, twins = ⟨key, shownTwin, twin⟩ :: others ∧
      shown.Matches shownTwin ∧ value.Matches twin ∧ EntriesMatch entries others

end

def Table.Entry.Matches (entry twin : Table.Entry Value) : Prop :=
  twin.key = entry.key ∧ entry.shown.Matches matching twin.shown ∧
    entry.value.Matches matching twin.value

def Table.Matches (table twin : Table Value) : Prop :=
  List.Forall₂ (Table.Entry.Matches matching) table.entries twin.entries

end

variable {matching : Matching}

theorem allMatch_iff {values twins : List Value} :
    AllMatch matching values twins ↔ List.Forall₂ (Value.Matches matching) values twins := by
  induction values generalizing twins with
  | nil => simp [AllMatch, List.forall₂_nil_left_iff]
  | cons value values ih => simp [AllMatch, List.forall₂_cons_left_iff, ih]; grind

theorem entriesMatch_iff {entries twins : List (Table.Entry Value)} :
    EntriesMatch matching entries twins ↔
      List.Forall₂ (Table.Entry.Matches matching) entries twins := by
  induction entries generalizing twins with
  | nil => simp [EntriesMatch, List.forall₂_nil_left_iff]
  | cons entry entries ih =>
      obtain ⟨key, shown, value⟩ := entry
      simp only [EntriesMatch, List.forall₂_cons_left_iff, ih, Table.Entry.Matches]
      constructor
      · rintro ⟨shownTwin, twin, others, rfl, matchesShown, matched, rest⟩
        exact ⟨_, others, ⟨rfl, matchesShown, matched⟩, rest, rfl⟩
      · rintro ⟨⟨_, shownTwin, twin⟩, others, ⟨rfl, matchesShown, matched⟩, rest, rfl⟩
        exact ⟨shownTwin, twin, others, rfl, matchesShown, matched, rest⟩

namespace Value

def outline : Value → Value
  | .array id _ => .array id []
  | .hash id _ => .hash id .empty
  | .function id _ => .function id ⟨[], [], 0, []⟩
  | .returned id _ => .returned id .null
  | value => value

theorem outline_of_isPlain {value : Value} (plain : value.isPlain = true) :
    value.outline = value := by
  cases value <;> first | rfl | cases plain

theorem kind_outline (value : Value) : value.outline.kind = value.kind := by
  cases value <;> rfl

theorem isPlain_outline (value : Value) : value.outline.isPlain = value.isPlain := by
  cases value <;> rfl

theorem isTruthy_outline (value : Value) : value.outline.isTruthy = value.isTruthy := by
  cases value <;> rfl

theorem key_outline (value : Value) : value.outline.key = value.key := by
  cases value <;> rfl

theorem identical_outline (left right : Value) :
    left.outline.identical right.outline = left.identical right := by
  cases left <;> cases right <;> rfl

end Value

namespace Value.Matches

variable {value twin : Value}

theorem array_iff {id : ObjectId} {elements : List Value} :
    (Value.array id elements).Matches matching twin ↔
      ∃ twins, twin = .array (matching.object id) twins ∧
        List.Forall₂ (Value.Matches matching) elements twins := by
  simp only [Value.Matches, allMatch_iff]

theorem hash_iff {id : ObjectId} {table : Table Value} :
    (Value.hash id table).Matches matching twin ↔
      ∃ twins : Table Value, twin = .hash (matching.object id) twins ∧
        table.Matches matching twins := by
  obtain ⟨entries⟩ := table
  simp only [Value.Matches, entriesMatch_iff, Table.Matches]
  exact ⟨fun ⟨twins, same, all⟩ => ⟨⟨twins⟩, same, all⟩,
    fun ⟨⟨twins⟩, same, all⟩ => ⟨twins, same, all⟩⟩

theorem null : Value.null.Matches matching .null :=
  rfl

theorem plain (plain : value.isPlain = true) : value.Matches matching value := by
  cases value <;> first | rfl | cases plain

theorem outline_eq (matched : value.Matches matching twin) :
    twin.outline = value.outline.rename matching.names := by
  cases value with
  | array id elements => obtain ⟨_, rfl, _⟩ := matched; rfl
  | hash id table => obtain ⟨_, rfl, _⟩ := matched; rfl
  | function id closure => obtain ⟨_, rfl, _⟩ := matched; rfl
  | returned id inner => obtain ⟨_, rfl, _⟩ := matched; rfl
  | _ => cases matched; rfl

theorem isTruthy_eq (matched : value.Matches matching twin) : twin.isTruthy = value.isTruthy := by
  rw [← isTruthy_outline, matched.outline_eq, isTruthy_rename, isTruthy_outline]

theorem key_eq (matched : value.Matches matching twin) : twin.key = value.key := by
  rw [← key_outline, matched.outline_eq, key_rename, key_outline]

end Value.Matches

mutual

theorem Value.Matches.inspect_eq {value twin : Value} (matched : value.Matches matching twin) :
    twin.inspect = value.inspect := by
  match value with
  | .integer _ | .boolean _ | .string _ | .null | .builtin _ | .error _ _ => cases matched; rfl
  | .array id elements =>
      obtain ⟨twins, rfl, all⟩ := matched
      rw [Value.inspect, Value.inspect, inspectAll_eq_of_allMatch all]
  | .hash id ⟨entries⟩ =>
      obtain ⟨twins, rfl, all⟩ := matched
      rw [Value.inspect, Value.inspect, inspectEntries_eq_of_entriesMatch all]
  | .function id closure => obtain ⟨_, rfl, _⟩ := matched; rfl
  | .returned id inner =>
      obtain ⟨twin, rfl, matched⟩ := matched
      rw [Value.inspect, Value.inspect, matched.inspect_eq]

theorem inspectAll_eq_of_allMatch {values twins : List Value}
    (all : AllMatch matching values twins) : Value.inspectAll twins = Value.inspectAll values := by
  match values with
  | [] => cases all; rfl
  | value :: values =>
      obtain ⟨twin, others, rfl, matched, all⟩ := all
      rw [Value.inspectAll, Value.inspectAll, matched.inspect_eq, inspectAll_eq_of_allMatch all]

theorem inspectEntries_eq_of_entriesMatch {entries twins : List (Table.Entry Value)}
    (all : EntriesMatch matching entries twins) :
    Value.inspectEntries twins = Value.inspectEntries entries := by
  match entries with
  | [] => cases all; rfl
  | ⟨key, shown, value⟩ :: entries =>
      obtain ⟨shownTwin, twin, others, rfl, matchesShown, matched, all⟩ := all
      rw [Value.inspectEntries, Value.inspectEntries, matchesShown.inspect_eq, matched.inspect_eq,
        inspectEntries_eq_of_entriesMatch all]

end

mutual

/-- Where everything stands for itself, only equal values match. -/
theorem Value.matches_same_iff {value twin : Value} :
    value.Matches .same twin ↔ twin = value := by
  match value with
  | .integer _ | .boolean _ | .string _ | .null | .builtin _ | .error _ _ => rfl
  | .array id elements => simp [Value.Matches, allMatch_same_iff]
  | .hash id ⟨entries⟩ => simp [Value.Matches, entriesMatch_same_iff]
  | .function id closure => simp [Value.Matches]
  | .returned id inner => simp [Value.Matches, inner.matches_same_iff]

theorem allMatch_same_iff {values twins : List Value} :
    AllMatch .same values twins ↔ twins = values := by
  match values with
  | [] => rfl
  | value :: values => simp [AllMatch, value.matches_same_iff, allMatch_same_iff]

theorem entriesMatch_same_iff {entries twins : List (Table.Entry Value)} :
    EntriesMatch .same entries twins ↔ twins = entries := by
  match entries with
  | [] => rfl
  | ⟨key, shown, value⟩ :: entries =>
      simp [EntriesMatch, shown.matches_same_iff, value.matches_same_iff, entriesMatch_same_iff]

end

/-! ## Operations -/

/-- Operators look at the outlines of their operands only. -/
theorem UnaryOp.apply_outline (op : UnaryOp) (operand : Value) :
    op.apply operand.outline = op.apply operand := by
  cases op with
  | not => simp only [UnaryOp.apply, Value.isTruthy_outline]
  | negate => cases operand <;> rfl

theorem BinaryOp.apply_outline (op : BinaryOp) (left right : Value) :
    op.apply left.outline right.outline = op.apply left right := by
  by_cases plain : left.isPlain = true ∧ right.isPlain = true
  · rw [Value.outline_of_isPlain plain.1, Value.outline_of_isPlain plain.2]
  · have object : left.isPlain = false ∨ right.isPlain = false := by
      simpa [Classical.or_iff_not_imp_left] using plain
    have same : op.onSameKind left.outline right.outline = op.onSameKind left right := by
      cases op <;> simp [BinaryOp.onSameKind, Value.identical_outline, Value.kind_outline]
    rw [apply_of_not_isPlain op object, apply_of_not_isPlain op (by simpa [Value.isPlain_outline]),
      same, Value.kind_outline, Value.kind_outline]

section

variable {value twin left right leftTwin rightTwin : Value}

theorem UnaryOp.apply_eq_of_matches (op : UnaryOp) (matched : value.Matches matching twin) :
    op.apply twin = op.apply value := by
  rw [← apply_outline, matched.outline_eq, apply_rename,
    map_rename_of_isPlain fun _ => apply_isPlain, apply_outline]

theorem BinaryOp.apply_eq_of_matches (op : BinaryOp) (matchesLeft : left.Matches matching leftTwin)
    (matchesRight : right.Matches matching rightTwin) :
    op.apply leftTwin rightTwin = op.apply left right := by
  rw [← apply_outline, matchesLeft.outline_eq, matchesRight.outline_eq, apply_rename,
    map_rename_of_isPlain fun _ => apply_isPlain, apply_outline]

theorem Builtin.measure_eq_of_matches (matched : value.Matches matching twin) :
    measure twin = measure value := by
  cases value with
  | array id elements =>
      obtain ⟨twins, rfl, all⟩ := Value.Matches.array_iff.mp matched
      simp only [measure, all.length_eq]
  | hash id table => obtain ⟨_, rfl, _⟩ := matched; rfl
  | function id closure => obtain ⟨_, rfl, _⟩ := matched; rfl
  | returned id inner => obtain ⟨_, rfl, _⟩ := matched; rfl
  | _ => cases matched; rfl

theorem matches_getD {found foundTwin : Option Value}
    (matched : Option.Rel (Value.Matches matching) found foundTwin) :
    (found.getD .null).Matches matching (foundTwin.getD .null) := by
  cases matched with
  | some matched => exact matched
  | none => rfl

theorem rel_getElem? {α : Type} {related : α → α → Prop} {items twins : List α}
    (all : List.Forall₂ related items twins) (position : Nat) :
    Option.Rel related items[position]? twins[position]? := by
  induction all generalizing position with
  | nil => exact .none
  | cons first _ ih =>
      cases position with
      | zero => exact .some first
      | succ position => exact ih position

theorem matches_elementAt {elements twins : List Value}
    (all : List.Forall₂ (Value.Matches matching) elements twins) (position : Int64) :
    (elementAt elements position).Matches matching (elementAt twins position) := by
  unfold elementAt
  split
  · rfl
  · exact matches_getD (rel_getElem? all _)

end

namespace Table.Matches

variable {table twin : Table Value}

theorem get? (matched : table.Matches matching twin) (key : Key) :
    Option.Rel (Value.Matches matching) (table.get? key) (twin.get? key) := by
  obtain ⟨entries⟩ := table
  obtain ⟨twins⟩ := twin
  have all : List.Forall₂ (Table.Entry.Matches matching) entries twins := matched
  unfold Table.get?
  clear matched
  induction all with
  | nil => exact .none
  | @cons entry entryTwin _ _ first _ ih =>
      simp only [List.find?_cons, first.1]
      cases decide (entry.key = key) with
      | true => exact .some first.2.2
      | false => exact ih

theorem insert (matched : table.Matches matching twin) (key : Key)
    {shown shownTwin value valueTwin : Value} (matchesShown : shown.Matches matching shownTwin)
    (matchesValue : value.Matches matching valueTwin) :
    (table.insert key shown value).Matches matching (twin.insert key shownTwin valueTwin) := by
  obtain ⟨entries⟩ := table
  obtain ⟨twins⟩ := twin
  unfold Table.insert
  have added : Table.Entry.Matches matching ⟨key, shown, value⟩ ⟨key, shownTwin, valueTwin⟩ :=
    ⟨rfl, matchesShown, matchesValue⟩
  have all : List.Forall₂ (Table.Entry.Matches matching) entries twins := matched
  clear matched
  show List.Forall₂ _ (put _ entries) (put _ twins)
  induction all with
  | nil => exact .cons added .nil
  | @cons entry entryTwin _ _ first rest ih =>
      simp only [put, first.1]
      split
      · exact .cons added rest
      · exact .cons first ih

end Table.Matches

inductive Value.MatchedResult (matching : Matching) :
    Except EvalError Value → Except EvalError Value → Prop
  | ok {value twin : Value} (matched : value.Matches matching twin) :
      MatchedResult matching (.ok value) (.ok twin)
  | error (error : EvalError) : MatchedResult matching (.error error) (.error error)

theorem Value.Matches.at {left leftTwin index indexTwin : Value}
    (matched : left.Matches matching leftTwin) (matchesIndex : index.Matches matching indexTwin) :
    MatchedResult matching (left.at index) (leftTwin.at indexTwin) := by
  cases left with
  | array id elements =>
      obtain ⟨twins, rfl, all⟩ := Value.Matches.array_iff.mp matched
      cases index with
      | integer position =>
          cases matchesIndex
          exact .ok (matches_elementAt all position)
      | array _ _ | hash _ _ | function _ _ | returned _ _ =>
          obtain ⟨_, rfl, _⟩ := matchesIndex
          exact .error _
      | _ =>
          cases matchesIndex
          exact .error _
  | hash id table =>
      obtain ⟨twins, rfl, all⟩ := Value.Matches.hash_iff.mp matched
      rw [at_hash, at_hash, matchesIndex.key_eq]
      cases index.key with
      | error error => exact .error error
      | ok key => exact .ok (matches_getD (all.get? key))
  | function _ _ | returned _ _ =>
      obtain ⟨_, rfl, _⟩ := matched
      exact .error _
  | _ =>
      cases matched
      exact .error _

def BindingMatches (matching : Matching) (binding twin : String × Value) : Prop :=
  twin.1 = binding.1 ∧ binding.2.Matches matching twin.2

theorem Eval.bindArguments_matches (parameters : List String) {arguments twins : List Value}
    (all : List.Forall₂ (Value.Matches matching) arguments twins) :
    List.Forall₂ (BindingMatches matching)
      (bindArguments parameters arguments) (bindArguments parameters twins) := by
  induction parameters generalizing arguments twins with
  | nil => simp [bindArguments]
  | cons name parameters ih =>
      cases all with
      | nil => exact .cons ⟨rfl, rfl⟩ (ih .nil)
      | cons first rest => exact .cons ⟨rfl, first⟩ (ih rest)

/-! ## Stores -/

structure Scope.Matches (matching : Matching) (scope twin : Scope) : Prop where
  bindings : List.Forall₂ (BindingMatches matching) scope.bindings twin.bindings
  outer : twin.outer = scope.outer
  session : twin.session = scope.session

/-- The stores have scopes of the same numbers that match, will give out the next numbers of objects
in step, and have printed the same text. -/
structure Store.Matches (matching : Matching) (store twin : Store) : Prop where
  size : twin.scopes.size = store.scopes.size
  scopes : ∀ id : ScopeId, Option.Rel (Scope.Matches matching) store.scopes[id]? twin.scopes[id]?
  issued : ∀ later, matching.object (store.issued + later) = twin.issued + later
  output : twin.output = store.output

theorem rel_lookup {bindings twins : List (String × Value)}
    (all : List.Forall₂ (BindingMatches matching) bindings twins) (name : String) :
    Option.Rel (Value.Matches matching) (bindings.lookup name) (twins.lookup name) := by
  induction all with
  | nil => exact .none
  | @cons binding twin _ _ first _ ih =>
      obtain ⟨known, value⟩ := binding
      obtain ⟨_, valueTwin⟩ := twin
      obtain ⟨rfl, matched⟩ := first
      simp only [List.lookup_cons]
      split
      · exact .some matched
      · exact ih

namespace Store.Matches

variable {store twin : Store} (matched : store.Matches matching twin)

include matched

theorem binding? (id : ScopeId) (name : String) :
    Option.Rel (Value.Matches matching) (store.binding? id name) (twin.binding? id name) := by
  have scopes := matched.scopes id
  unfold Store.binding?
  generalize store.scopes[id]? = found, twin.scopes[id]? = foundTwin at scopes
  cases scopes with
  | none => exact .none
  | some scopes => exact rel_lookup scopes.bindings name

theorem chainUpTo (length : Nat) (id : ScopeId) :
    twin.chainUpTo length id = store.chainUpTo length id := by
  induction length generalizing id with
  | zero => rfl
  | succ length ih =>
      have scopes := matched.scopes id
      unfold Store.chainUpTo
      generalize store.scopes[id]? = found, twin.scopes[id]? = foundTwin at scopes
      cases scopes with
      | none => rfl
      | some scopes => simp only [scopes.outer, ih]

theorem lookup (scope : ScopeId) (name : String) :
    Option.Rel (Value.Matches matching) (store.lookup scope name) (twin.lookup scope name) := by
  have chains : twin.chain scope = store.chain scope := matched.chainUpTo _ scope
  unfold Store.lookup
  rw [chains]
  induction store.chain scope with
  | nil => exact .none
  | cons id chain ih =>
      have bindings := matched.binding? id name
      simp only [List.findSome?_cons]
      generalize store.binding? id name = found, twin.binding? id name = foundTwin at bindings
      cases bindings with
      | none => exact ih
      | some matched => exact .some matched

theorem sessionOf (id : ScopeId) : twin.sessionOf id = store.sessionOf id := by
  have scopes := matched.scopes id
  unfold Store.sessionOf
  generalize store.scopes[id]? = found, twin.scopes[id]? = foundTwin at scopes
  cases scopes with
  | none => rfl
  | some scopes => exact scopes.session

theorem note (event eventTwin : Event) :
    (store.note event).Matches matching (twin.note eventTwin) :=
  ⟨matched.size, matched.scopes, matched.issued, matched.output⟩

theorem print (text : String) : (store.print text).Matches matching (twin.print text) :=
  ⟨matched.size, matched.scopes, matched.issued, congrArg (· ++ text) matched.output⟩

theorem issue : store.issue.2.Matches matching twin.issue.2 := by
  refine ⟨matched.size, matched.scopes, fun later => ?_, matched.output⟩
  have next := matched.issued (1 + later)
  simp only [Store.issue, Nat.add_assoc]
  exact next

theorem define (scope : ScopeId) (name : String) {value valueTwin : Value}
    (values : value.Matches matching valueTwin) :
    (store.define scope name value).Matches matching (twin.define scope name valueTwin) := by
  refine ⟨?_, fun id => ?_, matched.issued, matched.output⟩
  · simpa only [Store.define, Array.size_modify] using matched.size
  · have scopes := matched.scopes id
    simp only [Store.define, Array.getElem?_modify]
    split
    · generalize store.scopes[id]? = found, twin.scopes[id]? = foundTwin at scopes
      cases scopes with
      | none => exact .none
      | some scopes =>
          exact .some ⟨.cons ⟨rfl, values⟩ scopes.bindings, scopes.outer, scopes.session⟩
    · exact scopes

theorem enclose (outer : ScopeId) {bindings twins : List (String × Value)}
    (all : List.Forall₂ (BindingMatches matching) bindings twins) :
    (store.enclose outer bindings).2.Matches matching (twin.enclose outer twins).2 := by
  refine ⟨?_, fun id => ?_, matched.issued, matched.output⟩
  · simpa only [Store.enclose, Store.scopes_add, Array.size_push] using congrArg Nat.succ matched.size
  · simp only [Store.enclose, Store.scopes_add, Array.getElem?_push, matched.size]
    split
    · exact .some ⟨all, rfl, matched.sessionOf outer⟩
    · exact matched.scopes id

end Store.Matches

theorem Scope.matches_same_iff {scope twin : Scope} : scope.Matches .same twin ↔ twin = scope := by
  obtain ⟨bindings, outer, session⟩ := scope
  obtain ⟨twins, outerTwin, sessionTwin⟩ := twin
  have binding : BindingMatches .same = flip Eq := by
    funext binding twin
    simp only [BindingMatches, Value.matches_same_iff, flip, Prod.ext_iff]
  have all : List.Forall₂ (BindingMatches .same) bindings twins ↔ twins = bindings := by
    rw [binding]
    constructor
    · intro all
      have equal := all.flip
      rwa [List.forall₂_eq_eq_eq] at equal
    · rintro rfl
      exact List.forall₂_same.mpr fun _ _ => rfl
  rw [Scope.mk.injEq]
  exact ⟨fun matched => ⟨all.mp matched.bindings, matched.outer, matched.session⟩,
    fun ⟨bindings, outer, session⟩ => ⟨all.mpr bindings, outer, session⟩⟩

/-- Where everything stands for itself, stores that match differ in their logs only. -/
theorem Store.matches_same_iff {store twin : Store} :
    store.Matches .same twin ↔
      twin.scopes = store.scopes ∧ twin.issued = store.issued ∧ twin.output = store.output := by
  constructor
  · intro matched
    refine ⟨Array.ext_getElem? fun id => ?_, (matched.issued 0).symm, matched.output⟩
    have scopes := matched.scopes id
    generalize store.scopes[id]? = found, twin.scopes[id]? = foundTwin at scopes
    cases scopes with
    | none => rfl
    | some matched => rw [Scope.matches_same_iff.mp matched]
  · rintro ⟨scopes, issued, output⟩
    refine ⟨by rw [scopes], fun id => ?_, fun later => by rw [issued, Matching.object_same], output⟩
    rw [scopes]
    cases store.scopes[id]? with
    | none => exact .none
    | some scope => exact .some (Scope.matches_same_iff.mpr rfl)

/-! ## Runs -/

namespace Matching

variable {α β : Type}

inductive Alike (matching : Matching) (related : α → α → Prop) :
    Outcome Store Unwind α → Outcome Store Unwind α → Prop
  | ok {store twin : Store} {value valueTwin : α} (stores : store.Matches matching twin)
      (values : related value valueTwin) :
      Alike matching related (.ok value store) (.ok valueTwin twin)
  | returned {store twin : Store} {value valueTwin : Value} (stores : store.Matches matching twin)
      (values : value.Matches matching valueTwin) :
      Alike matching related (.raised (.returned value) store) (.raised (.returned valueTwin) twin)
  | failed {store twin : Store} (stores : store.Matches matching twin) (error : EvalError) :
      Alike matching related (.raised (.failed error) store) (.raised (.failed error) twin)
  | halted (why : Halt) : Alike matching related (.halted why) (.halted why)

def Agree (matching : Matching) (related : α → α → Prop) (run runTwin : Eval α) : Prop :=
  ∀ store twin, store.Matches matching twin → matching.Alike related (run store) (runTwin twin)

/-- If the second run comes to a value, so does the first. -/
theorem Alike.exists_ok {related : α → α → Prop} {outcome : Outcome Store Unwind α}
    {valueTwin : α} {twin : Store} (alike : matching.Alike related outcome (.ok valueTwin twin)) :
    ∃ value store, outcome = .ok value store ∧ store.Matches matching twin ∧
      related value valueTwin := by
  cases alike with
  | ok stores values => exact ⟨_, _, rfl, stores, values⟩

namespace Agree

variable {related : α → α → Prop} {relatedNext : β → β → Prop}

theorem bind {run runTwin : Eval α} {next nextTwin : α → Eval β}
    (agree : matching.Agree related run runTwin)
    (agreeNext : ∀ value valueTwin, related value valueTwin →
      matching.Agree relatedNext (next value) (nextTwin valueTwin)) :
    matching.Agree relatedNext (run >>= next) (runTwin >>= nextTwin) := by
  intro store twin stores
  have first := agree store twin stores
  rw [Run.bind_apply, Run.bind_apply]
  generalize run store = outcome, runTwin twin = outcomeTwin at first
  cases first with
  | ok stores values => exact agreeNext _ _ values _ _ stores
  | returned stores values => exact .returned stores values
  | failed stores error => exact .failed stores error
  | halted why => exact .halted why

theorem pure {value valueTwin : α} (values : related value valueTwin) :
    matching.Agree related (pure value) (pure valueTwin) :=
  fun _ _ stores => .ok stores values

theorem failure (error : EvalError) :
    matching.Agree related (Run.raise (.failed error)) (Run.raise (.failed error)) :=
  fun _ _ stores => .failed stores error

theorem returning {value valueTwin : Value} (values : value.Matches matching valueTwin) :
    matching.Agree related (Run.raise (.returned value)) (Run.raise (.returned valueTwin)) :=
  fun _ _ stores => .returned stores values

theorem ofResult {result resultTwin : Except EvalError Value}
    (results : Value.MatchedResult matching result resultTwin) :
    matching.Agree (Value.Matches matching) (Eval.ofResult result) (Eval.ofResult resultTwin) := by
  cases results with
  | ok values => exact pure values
  | error error => exact failure error

theorem ofPlain {result : Except EvalError Value}
    (plain : ∀ value, result = .ok value → value.isPlain = true) :
    matching.Agree (Value.Matches matching) (Eval.ofResult result) (Eval.ofResult result) := by
  cases result with
  | ok value => exact pure (.plain (plain value rfl))
  | error error => exact failure error

theorem allocate {object objectTwin : ObjectId → Value}
    (objects : ∀ id, (object id).Matches matching (objectTwin (matching.object id))) :
    matching.Agree (Value.Matches matching) (Eval.allocate object) (Eval.allocate objectTwin) := by
  intro store twin stores
  refine .ok stores.issue ?_
  show (object store.issued).Matches matching (objectTwin twin.issued)
  have next : matching.object store.issued = twin.issued := stores.issued 0
  exact next ▸ objects store.issued

theorem array {elements twins : List Value}
    (all : List.Forall₂ (Value.Matches matching) elements twins) :
    matching.Agree (Value.Matches matching) (Eval.allocate fun id => .array id elements)
      (Eval.allocate fun id => .array id twins) :=
  allocate fun _ => Value.Matches.array_iff.mpr ⟨twins, rfl, all⟩

theorem modify {change changeTwin : Store → Store}
    (changes : ∀ store twin, store.Matches matching twin →
      (change store).Matches matching (changeTwin twin)) :
    matching.Agree (fun _ _ => True) (Run.modify change) (Run.modify changeTwin) :=
  fun store twin stores => .ok (changes store twin stores) trivial

theorem resolve (scope : ScopeId) (name : String) :
    matching.Agree (Value.Matches matching) (Eval.resolve scope name)
      (Eval.resolve scope name) := by
  intro store twin stores
  have lookups := stores.lookup scope name
  simp only [Eval.resolve, Run.bind_apply, Run.view]
  generalize store.lookup scope name = found, twin.lookup scope name = foundTwin at lookups
  cases lookups with
  | some values => exact .ok stores values
  | none =>
      cases Builtin.ofName? name with
      | some builtin => exact .ok stores rfl
      | none => exact .failed stores _

theorem catchReturn {eval evalTwin : Eval Value}
    (agree : matching.Agree (Value.Matches matching) eval evalTwin) :
    matching.Agree (Value.Matches matching) (Eval.catchReturn eval)
      (Eval.catchReturn evalTwin) := by
  intro store twin stores
  have ended := agree store twin stores
  unfold Eval.catchReturn
  generalize eval store = outcome, evalTwin twin = outcomeTwin at ended
  cases ended with
  | ok stores values => exact .ok stores values
  | returned stores values => exact .ok stores values
  | failed stores error => exact .failed stores error
  | halted why => exact .halted why

/-! ### Builtins -/

theorem refuse (builtin : Builtin) (refusal : Builtin.Refusal) :
    matching.Agree related (builtin.refuse refusal) (builtin.refuse refusal) :=
  failure _

theorem onlyArgument (builtin : Builtin) {arguments twins : List Value}
    (all : List.Forall₂ (Value.Matches matching) arguments twins) :
    matching.Agree (Value.Matches matching) (builtin.onlyArgument arguments)
      (builtin.onlyArgument twins) := by
  match arguments, twins, all with
  | [], [], .nil => exact refuse builtin _
  | [_], [_], .cons values .nil => exact pure values
  | _ :: _ :: _, _ :: _ :: _, .cons _ (.cons _ rest) =>
      simp only [Builtin.onlyArgument, List.length_cons, rest.length_eq]
      exact refuse builtin _

theorem elementsOf (builtin : Builtin) {value valueTwin : Value}
    (values : value.Matches matching valueTwin) :
    matching.Agree (List.Forall₂ (Value.Matches matching)) (builtin.elementsOf value)
      (builtin.elementsOf valueTwin) := by
  cases value with
  | array id elements =>
      obtain ⟨twins, rfl, all⟩ := Value.Matches.array_iff.mp values
      exact pure all
  | hash _ _ | function _ _ | returned _ _ =>
      obtain ⟨_, rfl, _⟩ := values
      exact refuse builtin _
  | _ =>
      cases values
      exact refuse builtin _

theorem onElements (builtin : Builtin) {arguments twins : List Value}
    (all : List.Forall₂ (Value.Matches matching) arguments twins)
    {next nextTwin : List Value → Eval Value}
    (agreeNext : ∀ elements others, List.Forall₂ (Value.Matches matching) elements others →
      matching.Agree (Value.Matches matching) (next elements) (nextTwin others)) :
    matching.Agree (Value.Matches matching)
      (builtin.onlyArgument arguments >>= fun argument => builtin.elementsOf argument >>= next)
      (builtin.onlyArgument twins >>= fun argument => builtin.elementsOf argument >>= nextTwin) :=
  (onlyArgument builtin all).bind fun _ _ values => (elementsOf builtin values).bind agreeNext

theorem run (builtin : Builtin) {arguments twins : List Value}
    (all : List.Forall₂ (Value.Matches matching) arguments twins) :
    matching.Agree (Value.Matches matching) (builtin.run arguments) (builtin.run twins) := by
  cases builtin with
  | len =>
      refine (onlyArgument _ all).bind fun value valueTwin values => ?_
      rw [Builtin.measure_eq_of_matches values]
      cases Builtin.measure value with
      | ok size => exact pure rfl
      | error refusal => exact refuse _ refusal
  | first =>
      refine onElements .first all fun elements others all => pure (matches_getD ?_)
      simpa only [List.head?_eq_getElem?] using rel_getElem? all 0
  | last =>
      refine onElements .last all fun elements others all => pure (matches_getD ?_)
      simpa only [List.getLast?_eq_getElem?, all.length_eq] using rel_getElem? all _
  | rest =>
      refine onElements .rest all fun elements others all => ?_
      cases all with
      | nil => exact pure rfl
      | cons _ rest => exact array rest
  | push =>
      match arguments, twins, all with
      | [], [], .nil => exact refuse _ _
      | [_], [_], .cons _ .nil => exact refuse _ _
      | [_, _], [_, _], .cons values (.cons added .nil) =>
          refine (elementsOf _ values).bind fun elements others all => ?_
          exact array (List.rel_append all (.cons added .nil))
      | _ :: _ :: _ :: _, _ :: _ :: _ :: _, .cons _ (.cons _ (.cons _ rest)) =>
          simp only [Builtin.run, List.length_cons, rest.length_eq]
          exact refuse _ _
  | puts =>
      have shown : twins.map (fun value => value.inspect ++ "\n") =
          arguments.map fun value => value.inspect ++ "\n" := by
        induction all with
        | nil => rfl
        | cons values _ ih => rw [List.map_cons, List.map_cons, ih, values.inspect_eq]
      simp only [Builtin.run, shown]
      refine (modify fun _ _ stores => stores.print _).bind fun _ _ _ => ?_
      exact pure rfl

/-! ### Code -/

section Code

set_option linter.unusedSectionVars false

variable {call : Eval.Caller} (calls : ∀ {callee calleeTwin : Value} {arguments twins : List Value},
  callee.Matches matching calleeTwin → List.Forall₂ (Value.Matches matching) arguments twins →
  matching.Agree (Value.Matches matching) (call callee arguments) (call calleeTwin twins))

include calls

mutual

theorem expr {site twin : Site} (same : matching.sites site twin) (scope : ScopeId) (code : Expr) :
    matching.Agree (Value.Matches matching) (Eval.expr call scope site code)
      (Eval.expr call scope twin code) := by
  match code with
  | .name name => exact resolve scope name
  | .integer value => exact pure rfl
  | .string text => exact pure rfl
  | .boolean value => exact pure rfl
  | .array items => exact (exprs same scope 0 items).bind fun _ _ all => array all
  | .hash pairs =>
      have none : Table.Matches matching .empty .empty := .nil
      refine (entries same scope 0 none pairs).bind fun table tableTwin tables => ?_
      exact allocate fun id => Value.Matches.hash_iff.mpr ⟨tableTwin, rfl, tables⟩
  | .unary op operand =>
      refine (expr (matching.descend 0 same) scope operand).bind fun value valueTwin values => ?_
      rw [UnaryOp.apply_eq_of_matches op values]
      exact ofPlain fun _ => UnaryOp.apply_isPlain
  | .binary op left right =>
      refine (expr (matching.descend 0 same) scope left).bind fun value valueTwin values => ?_
      refine (expr (matching.descend 1 same) scope right).bind fun other otherTwin others => ?_
      rw [BinaryOp.apply_eq_of_matches op values others]
      exact ofPlain fun _ => BinaryOp.apply_isPlain
  | .conditional condition consequence none =>
      refine (expr (matching.descend 0 same) scope condition).bind fun value valueTwin values => ?_
      rw [values.isTruthy_eq]
      split
      · exact block 0 0 consequence (matching.below (matching.descend 1 same) _) scope .null
      · exact pure rfl
  | .conditional condition consequence (some alternative) =>
      refine (expr (matching.descend 0 same) scope condition).bind fun value valueTwin values => ?_
      rw [values.isTruthy_eq]
      split
      · exact block 0 0 consequence (matching.below (matching.descend 1 same) _) scope .null
      · exact block 0 0 alternative (matching.below (matching.descend 2 same) _) scope .null
  | .function parameters body => exact allocate fun id => ⟨twin, rfl, same⟩
  | .call callee arguments =>
      refine (expr (matching.descend 0 same) scope callee).bind fun value valueTwin values => ?_
      exact (exprs same scope 1 arguments).bind fun _ _ all => calls values all
  | .index left index =>
      refine (expr (matching.descend 0 same) scope left).bind fun value valueTwin values => ?_
      refine (expr (matching.descend 1 same) scope index).bind fun other otherTwin others => ?_
      exact ofResult (values.at others)

theorem stmt {site twin : Site} (same : matching.sites site twin) (scope : ScopeId) (code : Stmt) :
    matching.Agree (Value.Matches matching) (Eval.stmt call scope site code)
      (Eval.stmt call scope twin code) := by
  match code with
  | .define name code =>
      refine (expr same scope code).bind fun value valueTwin values => ?_
      refine (modify fun _ _ stores => stores.define scope name values).bind fun _ _ _ => ?_
      exact pure values
  | .returning code => exact (expr same scope code).bind fun _ _ values => returning values
  | .expr code => exact expr same scope code

theorem exprs {site twin : Site} (same : matching.sites site twin) (scope : ScopeId) (next : Nat)
    (items : List Expr) :
    matching.Agree (List.Forall₂ (Value.Matches matching)) (Eval.exprs call scope site next items)
      (Eval.exprs call scope twin next items) := by
  match items with
  | [] => exact pure .nil
  | item :: items =>
      refine (expr (matching.descend next same) scope item).bind fun value valueTwin values => ?_
      refine (exprs same scope (next + 1) items).bind fun others othersTwin all => ?_
      exact pure (.cons values all)

theorem entries {site twin : Site} (same : matching.sites site twin) (scope : ScopeId) (next : Nat)
    {table tableTwin : Table Value} (tables : table.Matches matching tableTwin)
    (pairs : List (Expr × Expr)) :
    matching.Agree (Table.Matches matching) (Eval.entries call scope site next table pairs)
      (Eval.entries call scope twin next tableTwin pairs) := by
  match pairs with
  | [] => exact pure tables
  | (key, value) :: pairs =>
      refine (expr (matching.descend next same) scope key).bind fun shown shownTwin keys => ?_
      rw [keys.key_eq]
      cases shown.key with
      | error error => exact failure error
      | ok key =>
          refine (expr (matching.descend (next + 1) same) scope value).bind fun _ _ values => ?_
          exact entries same scope (next + 2) (tables.insert key keys values) pairs

/-- The statements may be numbered in different ways, as at the top of a unit of code. -/
theorem block {site twin : Site} (next nextTwin : Nat) (code : List Stmt)
    (same : ∀ number < code.length,
      matching.sites ((next + number) :: site) ((nextTwin + number) :: twin))
    (scope : ScopeId) {last lastTwin : Value} (lasts : last.Matches matching lastTwin) :
    matching.Agree (Value.Matches matching) (Eval.block call scope site next last code)
      (Eval.block call scope twin nextTwin lastTwin code) := by
  match code with
  | [] => exact pure lasts
  | first :: rest =>
      have sameFirst := same 0 (Nat.zero_lt_succ _)
      refine (stmt sameFirst scope first).bind fun value valueTwin values => ?_
      refine block (next + 1) (nextTwin + 1) rest (fun number below => ?_) scope values
      simpa only [Nat.add_assoc, Nat.add_comm 1] using same (number + 1) (Nat.succ_lt_succ below)

end

theorem inner {site twin : Site} (same : matching.sites site twin) (scope : ScopeId)
    (code : List Stmt) :
    matching.Agree (Value.Matches matching) (Eval.block call scope site 0 .null code)
      (Eval.block call scope twin 0 .null code) :=
  block calls 0 0 code (matching.below same code) scope .null

/-- Both bodies run in scopes of the same number. -/
theorem applyClosure {closure : Closure} {arguments twins : List Value} {site : Site}
    (same : matching.sites closure.site site)
    (all : List.Forall₂ (Value.Matches matching) arguments twins) :
    matching.Agree (Value.Matches matching) (Eval.applyClosure call closure arguments)
      (Eval.applyClosure call { closure with site := site } twins) := by
  intro store twin stores
  have enclosed := stores.enclose closure.scope
    (List.forall₂_reverse_iff.mpr (Eval.bindArguments_matches closure.parameters all))
  have body := (inner calls same store.scopes.size closure.body).catchReturn
  have number : (twin.enclose closure.scope
      (Eval.bindArguments closure.parameters twins).reverse).1 = store.scopes.size := stores.size
  simp only [Eval.applyClosure, Run.bind_apply, Run.step, Run.view, Run.modify]
  rw [number]
  exact body _ _ (enclosed.note _ _)

end Code

theorem builtin (builtin : Builtin) {arguments twins : List Value}
    (all : List.Forall₂ (Value.Matches matching) arguments twins) (depth : Nat) :
    matching.Agree (Value.Matches matching) (Eval.apply depth (.builtin builtin) arguments)
      (Eval.apply depth (.builtin builtin) twins) := by
  unfold Eval.apply
  exact (modify fun _ _ stores => stores.note _ _).bind fun _ _ _ => run builtin all

theorem apply (depth : Nat) {callee calleeTwin : Value} {arguments twins : List Value}
    (callees : callee.Matches matching calleeTwin)
    (all : List.Forall₂ (Value.Matches matching) arguments twins) :
    matching.Agree (Value.Matches matching) (Eval.apply depth callee arguments)
      (Eval.apply depth calleeTwin twins) := by
  -- the body of a function runs with the smaller bound and with other values
  induction depth generalizing callee calleeTwin arguments twins with
  | zero =>
      cases callee with
      | builtin which => cases callees; exact builtin which all 0
      | function id closure =>
          obtain ⟨site, rfl, same⟩ := callees
          exact fun _ _ _ => .halted .exhausted
      | array _ _ | hash _ _ | returned _ _ => obtain ⟨_, rfl, _⟩ := callees; exact failure _
      | _ => cases callees; exact failure _
  | succ depth ih =>
      cases callee with
      | builtin which => cases callees; exact builtin which all (depth + 1)
      | function id closure =>
          obtain ⟨site, rfl, same⟩ := callees
          exact applyClosure ih same all
      | array _ _ | hash _ _ | returned _ _ => obtain ⟨_, rfl, _⟩ := callees; exact failure _
      | _ => cases callees; exact failure _

end Agree

end Matching

end Scriptlet
