import Scriptlet.Eval.Program
import Scriptlet.Proofs.Eval.Renaming
import Scriptlet.Proofs.Table.Insertion

/-!
# Looking values up in a hash

A hash finds a value by the equality of the language. `PairsYield` says what the keys and values of
a hash literal are evaluated to, one pair after the other. Under a value that can be a key, the hash
holds the value of the last of these pairs whose key is equal to it (`Answers`, `LastUnder`).
-/
set_option autoImplicit false

namespace Scriptlet

def Value.IsScalar (value : Value) : Prop :=
  value.kind = .integer ∨ value.kind = .boolean ∨ value.kind = .string

/-- The key is of the kind of the other value, and `==` says that they are equal. -/
def Value.Answers (shown other : Value) : Prop :=
  shown.kind = other.kind ∧ BinaryOp.equal.apply shown other = .ok (.boolean true)

/-- The value belongs to the last of the pairs whose key is equal to the other value. -/
def LastUnder (other : Value) (pairs : List (Value × Value)) (value : Value) : Prop :=
  ∃ front shown back, pairs = front ++ (shown, value) :: back ∧ shown.Answers other ∧
    ∀ pair ∈ back, ¬pair.1.Answers other

/-- What the pairs of a hash are evaluated to, one after the other, the key of a pair first. -/
inductive Eval.PairsYield (call : Eval.Caller) (scope : ScopeId) (site : Site) :
    Nat → List (Expr × Expr) → Store → List (Value × Value) → Store → Prop
  | nil {next : Nat} {store : Store} : PairsYield call scope site next [] store [] store
  | cons {next : Nat} {key value : Expr} {pairs : List (Expr × Expr)}
      {store middle later final : Store} {shown result : Value} {others : List (Value × Value)}
      (ranKey : Eval.expr call scope (next :: site) key store = .ok shown middle)
      (ranValue : Eval.expr call scope ((next + 1) :: site) value middle = .ok result later)
      (rest : PairsYield call scope site (next + 2) pairs later others final) :
      PairsYield call scope site next ((key, value) :: pairs) store ((shown, result) :: others)
        final

/-! ## Keys and equality -/

section Keys

variable {shown other value : Value} {key : Key}

theorem Value.isScalar_of_key (isKey : value.key = .ok key) : value.IsScalar := by
  cases value <;> simp_all [Value.IsScalar, Value.kind, Value.key]

theorem Value.exists_key (scalar : value.IsScalar) : ∃ key, value.key = .ok key := by
  cases value <;> simp_all [Value.IsScalar, Value.kind, Value.key]

theorem Value.key_of_not_isScalar (other : ¬value.IsScalar) :
    value.key = .error (.badKey value.kind) := by
  cases value <;> simp_all [Value.IsScalar, Value.kind, Value.key]

/-- Two values have the same key exactly if they are of one kind and `==` says that they are
equal. -/
theorem Value.answers_iff (isKey : other.key = .ok key) :
    shown.Answers other ↔ shown.key = .ok key := by
  cases other with
  | integer number =>
      cases isKey
      cases shown <;> simp [Answers, kind, Value.key, BinaryOp.apply, BinaryOp.onIntegers]
  | boolean truth =>
      cases isKey
      cases shown <;>
        simp [Answers, kind, Value.key, BinaryOp.apply, BinaryOp.onSameKind, identical]
  | string text =>
      cases isKey
      cases shown <;>
        simp [Answers, kind, Value.key, BinaryOp.apply, BinaryOp.onSameKind, identical]
  | _ => cases isKey

end Keys

/-! ## From pairs to entries -/

def Value.entry? (pair : Value × Value) : Option (Table.Entry Value) :=
  pair.1.key.toOption.map fun key => ⟨key, pair.1, pair.2⟩

section Entries

variable {other shown value : Value} {key : Key} {pairs front back : List (Value × Value)}

theorem Value.entry?_of_key (isKey : shown.key = .ok key) :
    Value.entry? (shown, value) = some ⟨key, shown, value⟩ := by
  simp [Value.entry?, isKey, Except.toOption]

theorem Value.key_of_entry? {pair : Value × Value} {entry : Table.Entry Value}
    (makes : Value.entry? pair = some entry) : pair.1.key = .ok entry.key := by
  unfold Value.entry? at makes
  cases found : pair.1.key with
  | ok key =>
      rw [found] at makes
      cases makes
      rfl
  | error error =>
      rw [found] at makes
      cases makes

theorem find?_entries_of_none (isKey : other.key = .ok key)
    (none : ∀ pair ∈ pairs, ¬pair.1.Answers other) :
    (pairs.filterMap Value.entry?).reverse.find? (fun entry => entry.key = key) = .none := by
  refine List.find?_eq_none.mpr fun entry member => ?_
  obtain ⟨pair, isIn, makes⟩ := List.mem_filterMap.mp (List.mem_reverse.mp member)
  simp only [decide_eq_true_eq]
  rintro rfl
  exact none pair isIn ((Value.answers_iff isKey).mpr (Value.key_of_entry? makes))

theorem latest?_of_lastUnder (isKey : other.key = .ok key) (last : LastUnder other pairs value) :
    (Table.latest? (pairs.filterMap Value.entry?) key).map Table.Entry.value = some value := by
  obtain ⟨front, shown, back, rfl, answers, none⟩ := last
  have makes : Value.entry? (shown, value) = some ⟨key, shown, value⟩ :=
    Value.entry?_of_key ((Value.answers_iff isKey).mp answers)
  rw [Table.latest?, List.filterMap_append, List.filterMap_cons_some makes, List.reverse_append,
    List.reverse_cons, List.append_assoc, List.find?_append, find?_entries_of_none isKey none]
  simp

end Entries

namespace Eval

variable {call : Caller} {scope : ScopeId} {site : Site}

theorem ofResult_eq_ok {α : Type} {result : Except EvalError α} {value : α} {store later : Store}
    (ran : ofResult result store = .ok value later) : result = .ok value ∧ later = store := by
  cases result with
  | ok found =>
      cases ran
      exact ⟨rfl, rfl⟩
  | error error => cases ran

theorem PairsYield.unique {next : Nat} {pairs : List (Expr × Expr)} {store final last : Store}
    {evaluated others : List (Value × Value)}
    (yields : PairsYield call scope site next pairs store evaluated final)
    (also : PairsYield call scope site next pairs store others last) : evaluated = others := by
  induction yields generalizing others with
  | nil =>
      cases also
      rfl
  | cons ranKey ranValue _ ih =>
      obtain _ | ⟨ranKeyAlso, ranValueAlso, also⟩ := also
      cases ranKey.symm.trans ranKeyAlso
      cases ranValue.symm.trans ranValueAlso
      rw [ih also]

/-- A table is made of what the pairs are evaluated to. All keys can be keys, or else the evaluation
fails. -/
theorem entries_ok {next : Nat} {table result : Table Value} {pairs : List (Expr × Expr)}
    {store final : Store}
    (ran : entries call scope site next table pairs store = .ok result final) :
    ∃ evaluated, PairsYield call scope site next pairs store evaluated final ∧
      (∀ pair ∈ evaluated, pair.1.IsScalar) ∧
      result = (evaluated.filterMap Value.entry?).foldl
        (fun table entry => table.insert entry.key entry.shown entry.value) table := by
  induction pairs generalizing next table store with
  | nil =>
      rw [entries] at ran
      cases ran
      exact ⟨[], .nil, nofun, rfl⟩
  | cons pair pairs ih =>
      obtain ⟨keyExpr, valueExpr⟩ := pair
      rw [entries] at ran
      obtain ⟨shown, middle, ranKey, ranPair⟩ := Run.bind_eq_ok ran
      obtain ⟨key, same, checked, ranRest⟩ := Run.bind_eq_ok ranPair
      obtain ⟨isKey, rfl⟩ := ofResult_eq_ok checked
      obtain ⟨value, later, ranValue, ranOthers⟩ := Run.bind_eq_ok ranRest
      obtain ⟨others, rest, scalars, made⟩ := ih ranOthers
      refine ⟨(shown, value) :: others, .cons ranKey ranValue rest, ?_, ?_⟩
      · exact List.forall_mem_cons.mpr ⟨Value.isScalar_of_key isKey, scalars⟩
      · rw [List.filterMap_cons_some (Value.entry?_of_key isKey), List.foldl_cons]
        exact made

end Eval

/-- A hash literal gives a hash. Looked up in it, a value that can be a key finds the value of the
last pair whose key is equal to it under `==`, and `null` where there is no such pair. Any other
value is no key. -/
theorem lookup_agrees_with_equality {call : Eval.Caller} {scope : ScopeId} {site : Site}
    {pairs : List (Expr × Expr)} {store final : Store} {hash : Value}
    (ran : Eval.expr call scope site (.hash pairs) store = .ok hash final) :
    ∃ evaluated last, Eval.PairsYield call scope site 0 pairs store evaluated last ∧
      hash.kind = .hash ∧
      (∀ pair ∈ evaluated, pair.1.IsScalar) ∧
      (∀ other, other.IsScalar →
        (∀ value, LastUnder other evaluated value → hash.at other = .ok value) ∧
        ((∀ pair ∈ evaluated, ¬pair.1.Answers other) → hash.at other = .ok .null)) ∧
      ∀ other, ¬other.IsScalar → hash.at other = .error (.badKey other.kind) := by
  rw [Eval.expr] at ran
  obtain ⟨table, last, made, allocated⟩ := Run.bind_eq_ok ran
  obtain ⟨evaluated, yields, scalars, rfl⟩ := Eval.entries_ok made
  cases allocated
  refine ⟨evaluated, last, yields, rfl, scalars, fun other scalar => ?_, fun other unfit => ?_⟩
  · obtain ⟨key, isKey⟩ := Value.exists_key scalar
    have found := (Table.reflects_ofInserts (evaluated.filterMap Value.entry?)).get? key
    rw [Table.ofInserts] at found
    rw [Value.at_hash, isKey, Except.map, found]
    refine ⟨fun value under => ?_, fun none => ?_⟩
    · rw [latest?_of_lastUnder isKey under, Option.getD_some]
    · rw [Table.latest?, find?_entries_of_none isKey none, Option.map_none, Option.getD_none]
  · rw [Value.at_hash, Value.key_of_not_isScalar unfit, Except.map]

/-- `{1: 2, true: 3, 1: 5}`: the last pair is found under `1`, and none under `"1"`. -/
theorem lookup_agrees_with_equality_repeated :
    ∃ hash final,
      Eval.expr (Eval.apply 0) 0 [] (.hash [(.integer 1, .integer 2), (.boolean true, .integer 3),
        (.integer 1, .integer 5)]) .empty = .ok hash final ∧
      hash.at (.integer 1) = .ok (.integer 5) ∧ hash.at (.string "1") = .ok .null ∧
      hash.at .null = .error (.badKey .null) := by
  have ran : Eval.expr (Eval.apply 0) 0 [] (.hash [(.integer 1, .integer 2),
    (.boolean true, .integer 3), (.integer 1, .integer 5)]) .empty = .ok _ _ := rfl
  obtain ⟨evaluated, last, yields, -, -, scalar, unfit⟩ := lookup_agrees_with_equality ran
  obtain rfl := yields.unique (.cons rfl rfl (.cons rfl rfl (.cons rfl rfl .nil)))
  have isKey : (Value.string "1").key = .ok (.string "1") := rfl
  refine ⟨_, _, ran, (scalar _ (.inl rfl)).1 _ ?_, (scalar _ (.inr (.inr rfl))).2 ?_, unfit _ ?_⟩
  · exact ⟨[(.integer 1, .integer 2), (.boolean true, .integer 3)], _, [], rfl, ⟨rfl, rfl⟩, nofun⟩
  · simp [Value.answers_iff isKey, Value.key]
  · simp [Value.IsScalar, Value.kind]

end Scriptlet
