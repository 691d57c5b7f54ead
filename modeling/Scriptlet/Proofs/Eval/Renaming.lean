import Mathlib.Order.Monotone.Basic
import Scriptlet.Eval.Builtin

/-!
# Renaming scopes and objects

The numbers of scopes and objects are names: nothing in the language looks at them, except that the
equality of objects compares them. A `Renaming` gives out other numbers in the same order. All
operations on values commute with it, and what is shown of a value does not depend on its numbers.
-/
set_option autoImplicit false

namespace Scriptlet

structure Renaming where
  scope : ScopeId → ScopeId
  object : ObjectId → ObjectId
  scope_mono : StrictMono scope
  object_mono : StrictMono object

def Closure.rename (names : Renaming) (closure : Closure) : Closure :=
  { closure with scope := names.scope closure.scope }

namespace Value

section

variable (names : Renaming) (scopes objects : Nat)

mutual

def rename : Value → Value
  | .integer value => .integer value
  | .boolean value => .boolean value
  | .string text => .string text
  | .null => .null
  | .array id elements => .array (names.object id) (renameAll elements)
  | .hash id ⟨entries⟩ => .hash (names.object id) ⟨renameEntries entries⟩
  | .function id closure => .function (names.object id) (closure.rename names)
  | .builtin which => .builtin which
  | .error id cause => .error (names.object id) cause
  | .returned id value => .returned (names.object id) value.rename

def renameAll : List Value → List Value
  | [] => []
  | value :: values => value.rename :: renameAll values

def renameEntries : List (Table.Entry Value) → List (Table.Entry Value)
  | [] => []
  | ⟨key, shown, value⟩ :: entries => ⟨key, shown.rename, value.rename⟩ :: renameEntries entries

end

mutual

def Within : Value → Prop
  | .integer _ => True
  | .boolean _ => True
  | .string _ => True
  | .null => True
  | .array id elements => id < objects ∧ AllWithin elements
  | .hash id ⟨entries⟩ => id < objects ∧ EntriesWithin entries
  | .function id closure => id < objects ∧ closure.scope < scopes
  | .builtin _ => True
  | .error id _ => id < objects
  | .returned id value => id < objects ∧ value.Within

def AllWithin : List Value → Prop
  | [] => True
  | value :: values => value.Within ∧ AllWithin values

def EntriesWithin : List (Table.Entry Value) → Prop
  | [] => True
  | ⟨_, shown, value⟩ :: entries => shown.Within ∧ value.Within ∧ EntriesWithin entries

end

end

def isPlain : Value → Bool
  | .integer _ | .boolean _ | .string _ | .null | .builtin _ => true
  | _ => false

end Value

def Table.rename (names : Renaming) (table : Table Value) : Table Value :=
  ⟨Value.renameEntries names table.entries⟩

def Table.Within (scopes objects : Nat) (table : Table Value) : Prop :=
  Value.EntriesWithin scopes objects table.entries

namespace Value

variable {names : Renaming} {scopes objects moreScopes moreObjects : Nat}

/-! ## Lists -/

theorem renameAll_eq_map (values : List Value) :
    renameAll names values = values.map (rename names) := by
  induction values with
  | nil => rfl
  | cons value values ih => rw [renameAll, ih, List.map_cons]

theorem allWithin_iff {values : List Value} :
    AllWithin scopes objects values ↔ ∀ value ∈ values, value.Within scopes objects := by
  induction values with
  | nil => simp [AllWithin]
  | cons value values ih => simp [AllWithin, ih]

mutual

theorem Within.mono {value : Value} (within : value.Within scopes objects)
    (moreScopes_le : scopes ≤ moreScopes) (moreObjects_le : objects ≤ moreObjects) :
    value.Within moreScopes moreObjects := by
  match value with
  | .integer _ | .boolean _ | .string _ | .null | .builtin _ => trivial
  | .array id elements =>
      exact ⟨within.1.trans_le moreObjects_le, AllWithin.mono within.2 moreScopes_le moreObjects_le⟩
  | .hash id ⟨entries⟩ =>
      exact ⟨within.1.trans_le moreObjects_le,
        EntriesWithin.mono within.2 moreScopes_le moreObjects_le⟩
  | .function id closure =>
      exact ⟨within.1.trans_le moreObjects_le, within.2.trans_le moreScopes_le⟩
  | .error id cause => exact within.trans_le moreObjects_le
  | .returned id value =>
      exact ⟨within.1.trans_le moreObjects_le, Within.mono within.2 moreScopes_le moreObjects_le⟩

theorem AllWithin.mono {values : List Value} (within : AllWithin scopes objects values)
    (moreScopes_le : scopes ≤ moreScopes) (moreObjects_le : objects ≤ moreObjects) :
    AllWithin moreScopes moreObjects values := by
  match values with
  | [] => trivial
  | value :: values =>
      exact ⟨Within.mono within.1 moreScopes_le moreObjects_le,
        AllWithin.mono within.2 moreScopes_le moreObjects_le⟩

theorem EntriesWithin.mono {entries : List (Table.Entry Value)}
    (within : EntriesWithin scopes objects entries) (moreScopes_le : scopes ≤ moreScopes)
    (moreObjects_le : objects ≤ moreObjects) : EntriesWithin moreScopes moreObjects entries := by
  match entries with
  | [] => trivial
  | ⟨_, shown, value⟩ :: entries =>
      exact ⟨Within.mono within.1 moreScopes_le moreObjects_le,
        Within.mono within.2.1 moreScopes_le moreObjects_le,
        EntriesWithin.mono within.2.2 moreScopes_le moreObjects_le⟩

end

/-! ## Numbers that stay -/

section Fixed

set_option linter.unusedSectionVars false

variable (fixedScopes : ∀ id, id < scopes → names.scope id = id)
  (fixedObjects : ∀ id, id < objects → names.object id = id)

include fixedScopes fixedObjects

mutual

theorem rename_of_within {value : Value} (within : value.Within scopes objects) :
    value.rename names = value := by
  match value with
  | .integer _ | .boolean _ | .string _ | .null | .builtin _ => rfl
  | .array id elements => rw [rename, fixedObjects id within.1, renameAll_of_within within.2]
  | .hash id ⟨entries⟩ => rw [rename, fixedObjects id within.1, renameEntries_of_within within.2]
  | .function id closure =>
      rw [rename, fixedObjects id within.1, Closure.rename, fixedScopes _ within.2]
  | .error id cause => rw [rename, fixedObjects id within]
  | .returned id value => rw [rename, fixedObjects id within.1, rename_of_within within.2]

theorem renameAll_of_within {values : List Value} (within : AllWithin scopes objects values) :
    renameAll names values = values := by
  match values with
  | [] => rfl
  | value :: values => rw [renameAll, rename_of_within within.1, renameAll_of_within within.2]

theorem renameEntries_of_within {entries : List (Table.Entry Value)}
    (within : EntriesWithin scopes objects entries) : renameEntries names entries = entries := by
  match entries with
  | [] => rfl
  | ⟨key, shown, value⟩ :: entries =>
      rw [renameEntries, rename_of_within within.1, rename_of_within within.2.1,
        renameEntries_of_within within.2.2]

end

end Fixed

/-! ## What is shown of a value -/

mutual

@[simp]
theorem inspect_rename (value : Value) : (value.rename names).inspect = value.inspect := by
  match value with
  | .integer _ | .boolean _ | .string _ | .null | .builtin _ | .function _ _ | .error _ _ => rfl
  | .array id elements => rw [rename, inspect, inspect, inspectAll_rename elements]
  | .hash id ⟨entries⟩ => rw [rename, inspect, inspect, inspectEntries_rename entries]
  | .returned id value => rw [rename, inspect, inspect, inspect_rename value]

theorem inspectAll_rename (values : List Value) :
    inspectAll (renameAll names values) = inspectAll values := by
  match values with
  | [] => rfl
  | value :: values =>
      rw [renameAll, inspectAll, inspectAll, inspect_rename value, inspectAll_rename values]

theorem inspectEntries_rename (entries : List (Table.Entry Value)) :
    inspectEntries (renameEntries names entries) = inspectEntries entries := by
  match entries with
  | [] => rfl
  | ⟨key, shown, value⟩ :: entries =>
      rw [renameEntries, inspectEntries, inspectEntries, inspect_rename shown, inspect_rename value,
        inspectEntries_rename entries]

end

@[simp]
theorem kind_rename (value : Value) : (value.rename names).kind = value.kind := by
  cases value <;> rfl

@[simp]
theorem isTruthy_rename (value : Value) : (value.rename names).isTruthy = value.isTruthy := by
  cases value <;> rfl

@[simp]
theorem key_rename (value : Value) : (value.rename names).key = value.key := by
  cases value <;> rfl

@[simp]
theorem isPlain_rename (value : Value) : (value.rename names).isPlain = value.isPlain := by
  cases value <;> rfl

theorem rename_of_isPlain {value : Value} (plain : value.isPlain = true) :
    value.rename names = value := by
  cases value <;> cases plain <;> rfl

theorem within_of_isPlain {value : Value} (plain : value.isPlain = true) :
    value.Within scopes objects := by
  cases value <;> cases plain <;> trivial

/-- Objects are equal by their numbers, and different ones get different numbers. -/
@[simp]
theorem identical_rename (left right : Value) :
    (left.rename names).identical (right.rename names) = left.identical right := by
  have object (a b : ObjectId) : (names.object a == names.object b) = (a == b) := by
    rw [Bool.eq_iff_iff, beq_iff_eq, beq_iff_eq, names.object_mono.injective.eq_iff]
  cases left <;> cases right <;> simp [rename, identical, object]

end Value

/-! ## Operations -/

variable {names : Renaming} {scopes objects : Nat}

section Operators

open Value (rename rename_of_isPlain)

theorem BinaryOp.apply_isPlain {op : BinaryOp} {left right value : Value}
    (applied : op.apply left right = .ok value) : value.isPlain = true := by
  unfold BinaryOp.apply at applied
  split at applied
  · unfold BinaryOp.onIntegers at applied
    repeat' split at applied
    all_goals cases applied <;> rfl
  · cases applied
    rfl
  · unfold BinaryOp.onSameKind at applied
    repeat' split at applied
    all_goals cases applied <;> rfl

theorem UnaryOp.apply_isPlain {op : UnaryOp} {operand value : Value}
    (applied : op.apply operand = .ok value) : value.isPlain = true := by
  unfold UnaryOp.apply at applied
  split at applied <;> cases applied <;> rfl

theorem map_rename_of_isPlain {result : Except EvalError Value}
    (plain : ∀ value, result = .ok value → value.isPlain = true) :
    result.map (rename names) = result := by
  cases result with
  | error error => rfl
  | ok value => exact congrArg Except.ok (rename_of_isPlain (plain value rfl))

/-- On objects there are only the equality of the language and its opposite. -/
theorem BinaryOp.apply_of_not_isPlain (op : BinaryOp) {left right : Value}
    (object : left.isPlain = false ∨ right.isPlain = false) :
    op.apply left right =
      if left.kind = right.kind then op.onSameKind left right
      else .error (.mismatch left.kind op right.kind) := by
  unfold BinaryOp.apply
  split
  · rcases object with object | object <;> cases object
  · rcases object with object | object <;> cases object
  · rfl

theorem BinaryOp.onSameKind_rename (op : BinaryOp) (left right : Value) :
    op.onSameKind (left.rename names) (right.rename names) = op.onSameKind left right := by
  cases op <;> simp [BinaryOp.onSameKind]

theorem BinaryOp.apply_rename (op : BinaryOp) (left right : Value) :
    op.apply (left.rename names) (right.rename names) =
      (op.apply left right).map (rename names) := by
  rw [map_rename_of_isPlain fun _ => apply_isPlain]
  by_cases plain : left.isPlain = true ∧ right.isPlain = true
  · rw [rename_of_isPlain plain.1, rename_of_isPlain plain.2]
  · have object : left.isPlain = false ∨ right.isPlain = false := by
      simpa [Classical.or_iff_not_imp_left] using plain
    rw [apply_of_not_isPlain op object, apply_of_not_isPlain op (by simpa using object),
      onSameKind_rename, Value.kind_rename, Value.kind_rename]

theorem UnaryOp.apply_rename (op : UnaryOp) (operand : Value) :
    op.apply (operand.rename names) = (op.apply operand).map (rename names) := by
  rw [map_rename_of_isPlain fun _ => apply_isPlain]
  cases op with
  | not => simp [UnaryOp.apply]
  | negate => cases operand <;> rfl

end Operators

namespace Table

theorem get?_rename (table : Table Value) (key : Key) :
    (table.rename names).get? key = (table.get? key).map (Value.rename names) := by
  obtain ⟨entries⟩ := table
  induction entries with
  | nil => rfl
  | cons entry entries ih =>
      unfold rename get? at ih ⊢
      rw [Value.renameEntries, List.find?_cons, List.find?_cons]
      cases decide (entry.key = key) with
      | true => rfl
      | false => exact ih

theorem insert_rename (table : Table Value) (key : Key) (shown value : Value) :
    (table.insert key shown value).rename names =
      (table.rename names).insert key (shown.rename names) (value.rename names) := by
  obtain ⟨entries⟩ := table
  unfold rename insert
  congr 1
  induction entries with
  | nil => rfl
  | cons entry entries ih =>
      simp only [Value.renameEntries, put]
      split
      · rfl
      · rw [Value.renameEntries, ih]

theorem Within.get? {table : Table Value} (within : table.Within scopes objects) {key : Key}
    {value : Value} (found : table.get? key = some value) : value.Within scopes objects := by
  obtain ⟨entries⟩ := table
  induction entries with
  | nil => cases found
  | cons entry entries ih =>
      unfold Table.get? at ih found
      rw [List.find?_cons] at found
      cases same : decide (entry.key = key) with
      | true =>
          rw [same] at found
          cases found
          exact within.2.1
      | false =>
          rw [same] at found
          exact ih within.2.2 found

theorem Within.insert {table : Table Value} (within : table.Within scopes objects) (key : Key)
    {shown value : Value} (withinShown : shown.Within scopes objects)
    (withinValue : value.Within scopes objects) :
    (table.insert key shown value).Within scopes objects := by
  obtain ⟨entries⟩ := table
  unfold Table.insert
  induction entries with
  | nil => exact ⟨withinShown, withinValue, trivial⟩
  | cons entry entries ih =>
      simp only [put]
      split
      · exact ⟨withinShown, withinValue, within.2.2⟩
      · exact ⟨within.1, within.2.1, ih within.2.2⟩

end Table

namespace Value

theorem getD_rename (found : Option Value) :
    (found.map (rename names)).getD .null = (found.getD .null).rename names := by
  cases found <;> rfl

theorem within_getD {found : Option Value}
    (within : ∀ value, found = some value → value.Within scopes objects) :
    (found.getD .null).Within scopes objects := by
  cases found with
  | none => trivial
  | some value => exact within value rfl

theorem elementAt_rename (elements : List Value) (position : Int64) :
    elementAt (elements.map (rename names)) position =
      (elementAt elements position).rename names := by
  unfold elementAt
  split
  · rfl
  · rw [List.getElem?_map, getD_rename]

theorem within_elementAt {elements : List Value}
    (within : ∀ element ∈ elements, element.Within scopes objects) (position : Int64) :
    (elementAt elements position).Within scopes objects := by
  unfold elementAt
  split
  · trivial
  · exact within_getD fun value found => within value (List.mem_of_getElem? found)

theorem at_hash (id : ObjectId) (table : Table Value) (index : Value) :
    (Value.hash id table).at index = index.key.map fun key => (table.get? key).getD .null := by
  cases index <;> rfl

theorem rename_array (id : ObjectId) (elements : List Value) :
    rename names (.array id elements) = .array (names.object id) (elements.map (rename names)) := by
  rw [rename, renameAll_eq_map]

theorem rename_hash (id : ObjectId) (table : Table Value) :
    rename names (.hash id table) = .hash (names.object id) (table.rename names) :=
  rfl

theorem at_rename (left index : Value) :
    (left.rename names).at (index.rename names) = (left.at index).map (rename names) := by
  cases left with
  | array id elements =>
      cases index with
      | integer position =>
          rw [rename_array]
          exact congrArg Except.ok (elementAt_rename elements position)
      | _ => rfl
  | hash id table =>
      rw [rename_hash, at_hash, at_hash, key_rename]
      cases index.key with
      | error error => rfl
      | ok key => simp only [Except.map, Table.get?_rename, getD_rename]
  | _ => rfl

theorem within_at {left index value : Value} (within : left.Within scopes objects)
    (found : left.at index = .ok value) : value.Within scopes objects := by
  cases left with
  | array id elements =>
      cases index with
      | integer position =>
          cases found
          exact within_elementAt (allWithin_iff.mp within.2) position
      | _ => cases found
  | hash id table =>
      rw [at_hash] at found
      cases known : index.key with
      | error error =>
          rw [known] at found
          cases found
      | ok key =>
          rw [known] at found
          cases found
          exact within_getD fun value => Table.Within.get? within.2
  | _ => cases found

end Value

theorem Builtin.measure_rename (value : Value) :
    measure (value.rename names) = measure value := by
  cases value with
  | array id elements => simp [Value.rename_array, measure]
  | _ => rfl

theorem Eval.bindArguments_rename (parameters : List String) (arguments : List Value) :
    bindArguments parameters (arguments.map (Value.rename names)) =
      (bindArguments parameters arguments).map (Prod.map id (Value.rename names)) := by
  fun_induction bindArguments parameters arguments with
  | case1 => rfl
  | case2 name parameters ih => exact congrArg _ ih
  | case3 name parameters value arguments ih => exact congrArg _ ih

theorem Eval.within_bindArguments (parameters : List String) {arguments : List Value}
    (within : ∀ argument ∈ arguments, argument.Within scopes objects) :
    ∀ binding ∈ bindArguments parameters arguments, binding.2.Within scopes objects := by
  fun_induction bindArguments parameters arguments with
  | case1 => simp
  | case2 name parameters ih => simpa [Value.Within] using ih within
  | case3 name parameters value arguments ih =>
      simp only [List.forall_mem_cons] at within ⊢
      exact ⟨within.1, ih within.2⟩

end Scriptlet
