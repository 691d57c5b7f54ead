import Scriptlet.Eval
import Scriptlet.Proofs.Eval.Equality
import Scriptlet.Proofs.Table.Insertion

/-!
# Ground values

A value is ground if it is made of integers, booleans, arrays and hashes alone, with integers and
booleans for keys. Such values can be made again by code that has no names and no calls in it
(`Expr.Recreates`): the objects that the code makes have numbers of their own, and all else is as
it was.
-/
set_option autoImplicit false

namespace Scriptlet

/-! ## What is ground -/

/-- Integers, booleans, and arrays and hashes of such values. A hash is made by insertions, each
under the key that an integer or a boolean stands for. -/
inductive Value.IsGround : Value → Prop
  | integer (value : Int64) : IsGround (.integer value)
  | boolean (value : Bool) : IsGround (.boolean value)
  | array (id : ObjectId) {elements : List Value}
      (ground : ∀ element ∈ elements, IsGround element) : IsGround (.array id elements)
  | hash (id : ObjectId) {inserts : List (Table.Entry Value)}
      (keyed : ∀ entry ∈ inserts, entry.shown.key = .ok entry.key)
      (plain : ∀ entry ∈ inserts, entry.shown.kind = .integer ∨ entry.shown.kind = .boolean)
      (ground : ∀ entry ∈ inserts, IsGround entry.value) :
      IsGround (.hash id (Table.ofInserts inserts))

theorem Table.mem_ofInserts {entry : Table.Entry Value} {inserts : List (Table.Entry Value)}
    (isIn : entry ∈ (Table.ofInserts inserts).entries) : entry ∈ inserts := by
  induction inserts using List.reverseRecOn with
  | nil => cases isIn
  | append_singleton inserts last ih =>
      rw [Table.ofInserts_concat, Table.entries_insert] at isIn
      rcases Table.mem_put isIn with rfl | isIn
      · simp
      · simp [ih isIn]

/-- Induction on ground values. The entries of a hash have different keys, each the key that it is
shown by. -/
@[elab_as_elim]
theorem Value.IsGround.induct {motive : Value → Prop}
    (integer : ∀ value, motive (.integer value)) (boolean : ∀ value, motive (.boolean value))
    (array : ∀ id elements, (∀ element ∈ elements, motive element) → motive (.array id elements))
    (hash : ∀ id entries, (entries.map Table.Entry.key).Nodup →
      (∀ entry ∈ entries, entry.shown.key = .ok entry.key) →
      (∀ entry ∈ entries, motive entry.shown ∧ motive entry.value) → motive (.hash id ⟨entries⟩))
    {value : Value} (ground : value.IsGround) : motive value := by
  induction ground with
  | integer value => exact integer value
  | boolean value => exact boolean value
  | array id _ ih => exact array id _ ih
  | @hash id inserts keyed plain _ ih =>
      refine hash id _ (Table.nodup_keys_ofInserts inserts) ?_ ?_
      · exact fun entry isIn => keyed entry (Table.mem_ofInserts isIn)
      · intro entry isIn
        have inserted := Table.mem_ofInserts isIn
        refine ⟨?_, ih entry inserted⟩
        have isPlain := plain entry inserted
        cases shown : entry.shown with
        | integer number => exact integer number
        | boolean truth => exact boolean truth
        | _ => simp [shown, Value.kind] at isPlain

/-! ## Alike values that are ground -/

namespace Value

theorem inspectAll_eq_map (values : List Value) : inspectAll values = values.map inspect := by
  induction values with
  | nil => rfl
  | cons value values ih => rw [inspectAll, ih, List.map_cons]

theorem inspectEntries_eq_map (entries : List (Table.Entry Value)) :
    inspectEntries entries =
      entries.map fun entry => entry.shown.inspect ++ ": " ++ entry.value.inspect := by
  induction entries with
  | nil => rfl
  | cons entry entries ih => rw [inspectEntries, ih, List.map_cons]

theorem key_of_alike {value other : Value} (alike : value.alike other = true) {key : Key}
    (isKey : other.key = .ok key) : value.key = .ok key := by
  cases other <;> cases isKey <;> cases value <;> simp_all [Value.alike, Value.key]

def ShownAlike (value : Value) : Prop :=
  ∀ other : Value, other.alike value = true → other.inspect = value.inspect

section ShownAlike

variable {values others : List Value} {entries twins : List (Table.Entry Value)}

theorem inspectAll_eq_of_allAlike (alike : allAlike others values = true)
    (shown : ∀ value ∈ values, value.ShownAlike) : inspectAll others = inspectAll values := by
  induction allAlike_iff.mp alike with
  | nil => rfl
  | cons alikeFirst alikeRest ih =>
      obtain ⟨shownFirst, shownRest⟩ := List.forall_mem_cons.mp shown
      have rest := ih (allAlike_iff.mpr alikeRest) shownRest
      rw [inspectAll, inspectAll, shownFirst _ alikeFirst, rest]

theorem inspectEntries_eq_of_entriesAlike (alike : entriesAlike twins entries = true)
    (shown : ∀ entry ∈ entries, entry.shown.ShownAlike ∧ entry.value.ShownAlike) :
    inspectEntries twins = inspectEntries entries := by
  induction entriesAlike_iff.mp alike with
  | nil => rfl
  | cons alikeFirst alikeRest ih =>
      obtain ⟨_, alikeKey, alikeValue⟩ := alikeFirst
      obtain ⟨⟨shownKey, shownValue⟩, shownRest⟩ := List.forall_mem_cons.mp shown
      have rest := ih (entriesAlike_iff.mpr alikeRest) shownRest
      rw [inspectEntries, inspectEntries, shownKey _ alikeKey, shownValue _ alikeValue, rest]

end ShownAlike

theorem IsGround.shownAlike {value : Value} (ground : value.IsGround) : value.ShownAlike := by
  refine ground.induct ?integer ?boolean ?array ?hash
  case integer | boolean =>
    intro value other alike
    cases other <;> simp_all [Value.alike, inspect]
  case array =>
    intro id elements ih other alike
    cases other with
    | array otherId others =>
        rw [Value.alike] at alike
        rw [inspect, inspect, inspectAll_eq_of_allAlike alike ih]
    | _ => cases alike
  case hash =>
    intro id entries _ _ ih other alike
    cases other with
    | hash otherId table =>
        rw [Value.alike] at alike
        rw [inspect, inspect, inspectEntries_eq_of_entriesAlike alike ih]
    | _ => cases alike

end Value

/-! ## Making values again -/

def Expr.Recreates (code : Expr) (value : Value) : Prop :=
  ∀ (call : Eval.Caller) (scope : ScopeId) (site : Site) (store : Store),
    ∃ again later, Eval.expr call scope site code store = .ok again later ∧
      again.alike value = true

def RecreatesEntry (pair : Expr × Expr) (entry : Table.Entry Value) : Prop :=
  pair.1.Recreates entry.shown ∧ pair.2.Recreates entry.value

theorem recreates_boolean (value : Bool) : (Expr.boolean value).Recreates (.boolean value) :=
  fun _ _ _ store => ⟨.boolean value, store, rfl, Value.alike_refl _⟩

theorem recreates_integer (value : Int64) : (Expr.integer value).Recreates (.integer value) :=
  fun _ _ _ store => ⟨.integer value, store, rfl, Value.alike_refl _⟩

/-- A number comes back from its negation, also where negation wraps around. -/
theorem recreates_negative (value : Int64) :
    (Expr.unary .negate (.integer (-value))).Recreates (.integer value) := by
  refine fun call scope site store => ⟨.integer value, store, ?_, Value.alike_refl _⟩
  show Outcome.ok (Value.integer (- -value)) store = _
  rw [Int64.neg_neg]

section Recreates

variable {call : Eval.Caller} {scope : ScopeId} {site : Site}

theorem exprs_recreate {items : List Expr} {values : List Value}
    (recreate : List.Forall₂ Expr.Recreates items values) (next : Nat) (store : Store) :
    ∃ again later, Eval.exprs call scope site next items store = .ok again later ∧
      Value.allAlike again values = true := by
  induction recreate generalizing next store with
  | nil => exact ⟨[], store, rfl, rfl⟩
  | cons first _ ih =>
      obtain ⟨value, middle, ran, alike⟩ := first call scope (next :: site) store
      obtain ⟨values, later, ranRest, alikeRest⟩ := ih (next + 1) middle
      refine ⟨value :: values, later, ?_, ?_⟩
      · simp only [Eval.exprs, Run.bind_apply, ran, ranRest, Run.pure_apply]
      · rw [Value.allAlike, alike, alikeRest, Bool.and_self]

theorem recreates_array {items : List Expr} {elements : List Value} (id : ObjectId)
    (recreate : List.Forall₂ Expr.Recreates items elements) :
    (Expr.array items).Recreates (.array id elements) := by
  intro call scope site store
  obtain ⟨again, later, ran, alike⟩ := exprs_recreate recreate 0 store
  refine ⟨.array later.issued again, later.issue.2, ?_, alike⟩
  rw [Eval.expr, Run.bind_apply, ran]
  rfl

theorem entries_recreate {pairs : List (Expr × Expr)} {entries : List (Table.Entry Value)}
    (recreate : List.Forall₂ RecreatesEntry pairs entries)
    (keyed : ∀ entry ∈ entries, entry.shown.key = .ok entry.key) (next : Nat) (store : Store)
    (table : Table Value) (nodup : (table.keys ++ entries.map Table.Entry.key).Nodup) :
    ∃ again later, Eval.entries call scope site next table pairs store =
        .ok ⟨table.entries ++ again⟩ later ∧ Value.entriesAlike again entries = true := by
  induction recreate generalizing next store table with
  | nil => exact ⟨[], store, by simp [Eval.entries], rfl⟩
  | @cons pair entry pairs entries first _ ih =>
      obtain ⟨keyedFirst, keyedRest⟩ := List.forall_mem_cons.mp keyed
      obtain ⟨shown, middle, ranKey, alikeKey⟩ := first.1 call scope (next :: site) store
      obtain ⟨value, later, ranValue, alikeValue⟩ :=
        first.2 call scope ((next + 1) :: site) middle
      have isKey := Value.key_of_alike alikeKey keyedFirst
      have new : entry.key ∉ table.keys := by
        intro isIn
        exact (List.nodup_append.mp nodup).2.2 _ isIn _ (by simp) rfl
      have inserted := Table.insert_new new shown value
      obtain ⟨again, final, ranRest, alikeRest⟩ := ih keyedRest (next + 2) later
        (table.insert entry.key shown value) (by
          rw [inserted]
          simpa [Table.keys] using nodup)
      refine ⟨⟨entry.key, shown, value⟩ :: again, final, ?_, ?_⟩
      · simp only [Eval.entries, Run.bind_apply, ranKey, isKey, Eval.ofResult, Run.pure_apply,
          ranValue, ranRest]
        rw [inserted, List.append_assoc, List.singleton_append]
      · simp [Value.entriesAlike, alikeKey, alikeValue, alikeRest]

theorem recreates_hash {pairs : List (Expr × Expr)} {entries : List (Table.Entry Value)}
    (id : ObjectId) (recreate : List.Forall₂ RecreatesEntry pairs entries)
    (keyed : ∀ entry ∈ entries, entry.shown.key = .ok entry.key)
    (nodup : (entries.map Table.Entry.key).Nodup) :
    (Expr.hash pairs).Recreates (.hash id ⟨entries⟩) := by
  intro call scope site store
  obtain ⟨again, later, ran, alike⟩ := entries_recreate recreate keyed 0 store .empty
    (by simpa [Table.keys, Table.empty] using nodup)
  refine ⟨.hash later.issued ⟨again⟩, later.issue.2, ?_, alike⟩
  rw [Eval.expr, Run.bind_apply, ran]
  rfl

end Recreates

end Scriptlet
