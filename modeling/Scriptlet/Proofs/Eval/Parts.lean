import Scriptlet.Proofs.Eval.Renaming

/-!
# The parts of a value

Arrays and hashes hold other values, so that a value has parts at any depth. What is said of all
parts of a value (`Value.All`) holds of what is taken out of it, and of what is put together from
values of which it holds. A function has no parts but itself: the scope that it captured belongs to
the store.
-/
set_option autoImplicit false

namespace Scriptlet

namespace Value

mutual

/-- The value and everything inside it. The keys of a hash are inside it as they are shown. -/
def parts : Value → List Value
  | .integer value => [.integer value]
  | .boolean value => [.boolean value]
  | .string text => [.string text]
  | .null => [.null]
  | .array id elements => .array id elements :: partsAll elements
  | .hash id ⟨entries⟩ => .hash id ⟨entries⟩ :: partsEntries entries
  | .function id closure => [.function id closure]
  | .builtin which => [.builtin which]
  | .error id cause => [.error id cause]
  | .returned id value => .returned id value :: value.parts

def partsAll : List Value → List Value
  | [] => []
  | value :: values => value.parts ++ partsAll values

def partsEntries : List (Table.Entry Value) → List Value
  | [] => []
  | ⟨_, shown, value⟩ :: entries => shown.parts ++ (value.parts ++ partsEntries entries)

end

def All (such : Value → Prop) (value : Value) : Prop :=
  ∀ part ∈ value.parts, such part

end Value

def Table.All (such : Value → Prop) (table : Table Value) : Prop :=
  ∀ entry ∈ table.entries, entry.shown.All such ∧ entry.value.All such

namespace Value

variable {such other : Value → Prop} {value : Value}

theorem mem_partsAll {part : Value} {values : List Value} :
    part ∈ partsAll values ↔ ∃ value ∈ values, part ∈ value.parts := by
  induction values with
  | nil => simp [partsAll]
  | cons value values ih => simp [partsAll, ih]

theorem mem_partsEntries {part : Value} {entries : List (Table.Entry Value)} :
    part ∈ partsEntries entries ↔
      ∃ entry ∈ entries, part ∈ entry.shown.parts ∨ part ∈ entry.value.parts := by
  induction entries with
  | nil => simp [partsEntries]
  | cons entry entries ih => simp [partsEntries, ih, or_assoc]

theorem mem_parts_self (value : Value) : value ∈ value.parts := by
  cases value <;> simp [parts]

theorem All.self (all : value.All such) : such value :=
  all value value.mem_parts_self

theorem All.mono (all : value.All such) (weaker : ∀ part, such part → other part) :
    value.All other :=
  fun part isIn => weaker part (all part isIn)

theorem all_of_isPlain (plain : value.isPlain = true) (holds : such value) : value.All such := by
  intro part isIn
  cases value <;> cases plain <;> simp only [parts, List.mem_singleton] at isIn <;>
    exact isIn ▸ holds

theorem all_function {id : ObjectId} {closure : Closure} (holds : such (.function id closure)) :
    (Value.function id closure).All such := by
  intro part isIn
  rw [List.mem_singleton.mp isIn]
  exact holds

theorem all_array {id : ObjectId} {elements : List Value} :
    (Value.array id elements).All such ↔
      such (.array id elements) ∧ ∀ element ∈ elements, element.All such := by
  simp only [All, parts, List.forall_mem_cons, mem_partsAll]
  grind

theorem all_hash {id : ObjectId} {table : Table Value} :
    (Value.hash id table).All such ↔ such (.hash id table) ∧ table.All such := by
  obtain ⟨entries⟩ := table
  simp only [All, Table.All, parts, List.forall_mem_cons, mem_partsEntries]
  grind

end Value

variable {such : Value → Prop} {table : Table Value}

/-! ## Tables -/

theorem Table.mem_put {entry added : Table.Entry Value} {entries : List (Table.Entry Value)}
    (isIn : entry ∈ Table.put added entries) : entry = added ∨ entry ∈ entries := by
  induction entries with
  | nil => simpa [Table.put] using isIn
  | cons first rest ih =>
      simp only [Table.put] at isIn
      split at isIn
      · simp only [List.mem_cons] at isIn ⊢
        exact isIn.imp_right .inr
      · simp only [List.mem_cons] at isIn ⊢
        rcases isIn with same | isIn
        · exact .inr (.inl same)
        · exact (ih isIn).imp_right .inr

theorem Table.all_empty : (Table.empty : Table Value).All such := by
  intro entry isIn
  cases isIn

theorem Table.All.insert (all : table.All such) (key : Key) {shown value : Value}
    (allShown : shown.All such) (allValue : value.All such) :
    (table.insert key shown value).All such := by
  intro entry isIn
  rcases Table.mem_put isIn with rfl | isIn
  · exact ⟨allShown, allValue⟩
  · exact all entry isIn

theorem Table.All.get? (all : table.All such) {key : Key} {value : Value}
    (found : table.get? key = some value) : value.All such := by
  obtain ⟨entry, known, rfl⟩ := Option.map_eq_some_iff.mp found
  exact (all entry (List.mem_of_find?_eq_some known)).2

/-! ## What is taken out of a value -/

namespace Value

theorem all_getD (null : such .null) {found : Option Value}
    (all : ∀ value, found = some value → value.All such) : (found.getD .null).All such := by
  cases found with
  | none => exact all_of_isPlain rfl null
  | some value => exact all value rfl

theorem all_elementAt (null : such .null) {elements : List Value}
    (all : ∀ element ∈ elements, element.All such) (position : Int64) :
    (elementAt elements position).All such := by
  unfold elementAt
  split
  · exact all_of_isPlain rfl null
  · exact all_getD null fun value found => all value (List.mem_of_getElem? found)

theorem All.at (null : such .null) {left index value : Value} (all : left.All such)
    (found : left.at index = .ok value) : value.All such := by
  cases left with
  | array id elements =>
      cases index with
      | integer position =>
          cases found
          exact all_elementAt null (all_array.mp all).2 position
      | _ => cases found
  | hash id table =>
      rw [at_hash] at found
      cases known : index.key with
      | error error =>
          rw [known] at found
          cases found
      | ok key =>
          rw [known] at found
          cases found
          exact all_getD null fun value => (all_hash.mp all).2.get?
  | _ => cases found

end Value

theorem Eval.all_bindArguments (null : such .null) (parameters : List String)
    {arguments : List Value} (all : ∀ argument ∈ arguments, argument.All such) :
    ∀ binding ∈ bindArguments parameters arguments, binding.2.All such := by
  fun_induction bindArguments parameters arguments with
  | case1 => simp
  | case2 name parameters ih =>
      exact List.forall_mem_cons.mpr ⟨Value.all_of_isPlain rfl null, ih all⟩
  | case3 name parameters value arguments ih =>
      simp only [List.forall_mem_cons] at all ⊢
      exact ⟨all.1, ih all.2⟩

end Scriptlet
