import Mathlib.Data.List.Forall2
import Scriptlet.Proofs.Eval.Parts

/-!
# The equality of the language

Scalars and builtins are compared by what they are, all other objects by their numbers. The numbers
mean something as long as no two objects have the same one, which is to say that there is an
assignment of objects to numbers that all values in question keep to (`Value.IsIn`).

Under such an assignment `==` is sound: what it takes for equal is alike all the way down and is
shown in the same way. As far as values of one kind go, it is an equivalence in any case.
-/
set_option autoImplicit false

namespace Scriptlet

namespace Value

/-! ## Alike -/

theorem allAlike_iff {values others : List Value} :
    allAlike values others = true ↔
      List.Forall₂ (fun value other => value.alike other = true) values others := by
  induction values generalizing others with
  | nil => cases others <;> simp [allAlike]
  | cons value values ih => cases others <;> simp [allAlike, ih]

def EntryAlike (entry other : Table.Entry Value) : Prop :=
  entry.key = other.key ∧ entry.shown.alike other.shown = true ∧
    entry.value.alike other.value = true

theorem entriesAlike_iff {entries others : List (Table.Entry Value)} :
    entriesAlike entries others = true ↔ List.Forall₂ EntryAlike entries others := by
  induction entries generalizing others with
  | nil => cases others <;> simp [entriesAlike]
  | cons entry entries ih => cases others <;> simp [entriesAlike, ih, EntryAlike, and_assoc]

mutual

theorem alike_refl (value : Value) : value.alike value = true := by
  match value with
  | .integer _ | .boolean _ | .string _ | .null | .builtin _ | .error _ _ => simp [alike]
  | .array id elements =>
      rw [alike]
      exact allAlike_refl elements
  | .hash id ⟨entries⟩ =>
      rw [alike]
      exact entriesAlike_refl entries
  | .function id closure => simp [alike]
  | .returned id value =>
      rw [alike]
      exact alike_refl value

theorem allAlike_refl (values : List Value) : allAlike values values = true := by
  match values with
  | [] => rfl
  | value :: values => rw [allAlike, alike_refl value, allAlike_refl values]; rfl

theorem entriesAlike_refl (entries : List (Table.Entry Value)) :
    entriesAlike entries entries = true := by
  match entries with
  | [] => rfl
  | ⟨key, shown, value⟩ :: entries =>
      rw [entriesAlike, alike_refl shown, alike_refl value, entriesAlike_refl entries]
      simp

end

/-! ## Identities -/

def identity? : Value → Option ObjectId
  | .array id _ => some id
  | .hash id _ => some id
  | .function id _ => some id
  | .error id _ => some id
  | .returned id _ => some id
  | _ => none

/-- Every part of the value that has a number is the object of that number. -/
def IsIn (objects : ObjectId → Value) (value : Value) : Prop :=
  value.All fun part => ∀ id, part.identity? = some id → objects id = part

variable {objects : ObjectId → Value} {a b c : Value}

theorem identical_refl (a : Value) : a.identical a = true := by
  cases a <;> simp [identical]

theorem identical_symm (a b : Value) : b.identical a = a.identical b := by
  cases a <;> cases b <;> first | rfl | exact Bool.beq_comm ..

theorem identical_trans (first : a.identical b = true) (second : b.identical c = true) :
    a.identical c = true := by
  cases a <;> cases b <;> first | cases first; done | skip
  all_goals cases c <;> first | cases second; done | simp_all [identical]

theorem kind_of_identical (same : a.identical b = true) : a.kind = b.kind := by
  cases a <;> cases b <;> first | rfl | cases same

theorem IsIn.object (isIn : a.IsIn objects) {id : ObjectId} (isId : a.identity? = some id) :
    objects id = a :=
  All.self isIn id isId

/-- A value is told by what `==` compares: its number, if it has one, or else itself. -/
theorem eq_of_identical (isIn : a.IsIn objects) (isInOther : b.IsIn objects)
    (same : a.identical b = true) : a = b := by
  cases a <;> cases b <;> first | cases same; done | skip
  case integer.integer | boolean.boolean | string.string | builtin.builtin =>
    rw [eq_of_beq same]
  case null.null => rfl
  all_goals
    obtain rfl := eq_of_beq same
    exact (isIn.object rfl).symm.trans (isInOther.object rfl)

end Value

/-! ## Operators -/

def Value.Equals (a b : Value) : Prop :=
  BinaryOp.equal.apply a b = .ok (.boolean true)

theorem BinaryOp.equal_apply (a b : Value) :
    BinaryOp.equal.apply a b =
      if a.kind = b.kind then .ok (.boolean (a.identical b))
      else .error (.mismatch a.kind .equal b.kind) := by
  cases a <;> cases b <;> rfl

theorem BinaryOp.notEqual_apply (a b : Value) :
    BinaryOp.notEqual.apply a b =
      if a.kind = b.kind then .ok (.boolean !a.identical b)
      else .error (.mismatch a.kind .notEqual b.kind) := by
  cases a <;> cases b <;> rfl

theorem Value.equals_iff {a b : Value} : a.Equals b ↔ a.identical b = true := by
  rw [Equals, BinaryOp.equal_apply]
  constructor
  · intro equals
    split at equals
    · simpa using equals
    · cases equals
  · intro same
    rw [if_pos (kind_of_identical same), same]

/-- The operators `==` and `!=` refuse values of different kinds and no others, and decide one
question. Among values of one kind `==` is an equivalence. Values that it takes for equal are alike
and are shown in the same way, if their parts keep to one assignment of objects to numbers. -/
theorem equality_sound (objects : ObjectId → Value) (a b c : Value) (isIn : a.IsIn objects)
    (isInOther : b.IsIn objects) :
    (a.kind ≠ b.kind →
      BinaryOp.equal.apply a b = .error (.mismatch a.kind .equal b.kind) ∧
      BinaryOp.notEqual.apply a b = .error (.mismatch a.kind .notEqual b.kind)) ∧
    (a.kind = b.kind → ∃ same, BinaryOp.equal.apply a b = .ok (.boolean same) ∧
      BinaryOp.notEqual.apply a b = .ok (.boolean !same)) ∧
    a.Equals a ∧
    (a.kind = b.kind → BinaryOp.equal.apply b a = BinaryOp.equal.apply a b) ∧
    (a.Equals b → b.Equals c → a.Equals c) ∧
    (a.Equals b → a.alike b = true ∧ a.inspect = b.inspect) := by
  simp only [Value.equals_iff, BinaryOp.equal_apply, BinaryOp.notEqual_apply]
  refine ⟨fun apart => ?_, fun same => ?_, a.identical_refl, fun same => ?_,
    Value.identical_trans, fun identical => ?_⟩
  · rw [if_neg apart, if_neg apart]
    exact ⟨rfl, rfl⟩
  · rw [if_pos same, if_pos same]
    exact ⟨_, rfl, rfl⟩
  · rw [if_pos same, if_pos same.symm, Value.identical_symm]
  · obtain rfl := Value.eq_of_identical isIn isInOther identical
    exact ⟨a.alike_refl, rfl⟩

/-- `[[1]]` is equal to itself, and the same as the array inside it only in kind. -/
theorem equality_sound_nested :
    let inner : Value := .array 0 [.integer 1]
    let outer : Value := .array 1 [inner]
    (∃ objects, outer.IsIn objects ∧ inner.IsIn objects) ∧ outer.Equals outer ∧
      outer.alike outer = true ∧ BinaryOp.equal.apply inner outer = .ok (.boolean false) ∧
      BinaryOp.notEqual.apply outer inner = .ok (.boolean true) := by
  intro inner outer
  let objects : ObjectId → Value := fun id => if id = 0 then inner else outer
  have isInner : inner.IsIn objects := by
    simp [Value.IsIn, Value.All, Value.parts, Value.partsAll, Value.identity?, objects, inner]
  have isOuter : outer.IsIn objects := by
    simp [Value.IsIn, Value.All, Value.parts, Value.partsAll, Value.identity?, objects, inner,
      outer]
  obtain ⟨-, -, same, -, -, alike⟩ := equality_sound objects outer outer inner isOuter isOuter
  obtain ⟨-, decides, -, back, -, -⟩ := equality_sound objects outer inner inner isOuter isInner
  obtain ⟨equal, isEqual, notEqual⟩ := decides rfl
  cases isEqual
  exact ⟨⟨objects, isOuter, isInner⟩, same, (alike same).1, back rfl, notEqual⟩

end Scriptlet
