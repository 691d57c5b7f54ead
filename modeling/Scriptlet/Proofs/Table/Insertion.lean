import Mathlib.Data.Finset.Card
import Mathlib.Data.List.Nodup
import Mathlib.Logic.Function.Basic
import Scriptlet.Table

/-!
# Tables are maps in insertion order

A table that entries were inserted into, one after the other, holds the distinct keys in the order
in which they first came, each with what was last inserted under it. `Reflects` says so of a table
in terms of the list of inserted entries alone.

Such a table can be kept as its pairs and an index, a position for each key, which is extended
whenever a key is new (`Indexed`). The two parts stay in step, and the index takes the keys to the
positions of the pairs one to one (`IsIndex`).
-/
set_option autoImplicit false

namespace Scriptlet.Table

variable {α : Type}

/-! ## What a table has to hold -/

def ofInserts (inserts : List (Entry α)) : Table α :=
  inserts.foldl (fun table entry => table.insert entry.key entry.shown entry.value) .empty

def latest? (inserts : List (Entry α)) (key : Key) : Option (Entry α) :=
  inserts.reverse.find? fun entry => entry.key = key

/-- The index takes the keys to the positions below the size one to one, and knows no other key. -/
structure IsIndex (keys : List Key) (size : Nat) (index : Key → Option Nat) : Prop where
  known : ∀ key, (∃ position, index key = some position) ↔ key ∈ keys
  bounded : ∀ key position, index key = some position → position < size
  injective : ∀ key other position, index key = some position → index other = some position →
    key = other
  surjective : ∀ position < size, ∃ key, index key = some position

structure Reflects (inserts : List (Entry α)) (table : Table α) : Prop where
  get? : ∀ key, table.get? key = (latest? inserts key).map Entry.value
  size : table.size = (inserts.map Entry.key).toFinset.card
  entries : table.entries.map some = (inserts.map Entry.key).eraseDups.map (latest? inserts)
  index : IsIndex (inserts.map Entry.key) table.size table.position?

/-! ## One insertion -/

theorem put_cons (entry first : Entry α) (rest : List (Entry α)) :
    put entry (first :: rest) =
      if first.key = entry.key then entry :: rest else first :: put entry rest :=
  rfl

theorem find?_put (entry : Entry α) (entries : List (Entry α)) (key : Key) :
    (put entry entries).find? (fun other => other.key = key) =
      if entry.key = key then some entry else entries.find? fun other => other.key = key := by
  induction entries with
  | nil => by_cases same : entry.key = key <;> simp [put, same]
  | cons first rest ih =>
      rw [put_cons]
      split
      · grind
      · grind

/-- A key that is there already stays where it is, and a new one comes last. -/
theorem keys_put (entry : Entry α) (entries : List (Entry α)) :
    (put entry entries).map Entry.key =
      if entry.key ∈ entries.map Entry.key then entries.map Entry.key
      else entries.map Entry.key ++ [entry.key] := by
  induction entries with
  | nil => rfl
  | cons first rest ih =>
      rw [put_cons]
      split
      · grind
      · grind

/-- The entry goes to the position of its key, or to the end if the key is new. -/
theorem put_eq (entry : Entry α) (entries : List (Entry α)) :
    put entry entries =
      match entries.findIdx? (fun other => other.key = entry.key) with
      | some position => entries.set position entry
      | none => entries ++ [entry] := by
  induction entries with
  | nil => rfl
  | cons first rest ih =>
      rw [put_cons, List.findIdx?_cons]
      split
      · grind
      · rw [ih]
        grind

theorem find?_of_mem {entry : Entry α} {entries : List (Entry α)}
    (nodup : (entries.map Entry.key).Nodup) (member : entry ∈ entries) :
    entries.find? (fun other => other.key = entry.key) = some entry := by
  induction entries with
  | nil => cases member
  | cons first rest ih =>
      obtain ⟨other, nodupRest⟩ := List.nodup_cons.mp nodup
      rcases List.mem_cons.mp member with rfl | later
      · simp
      · have apart : first.key ≠ entry.key := by
          intro same
          rw [same] at other
          exact other (List.mem_map_of_mem later)
        rw [List.find?_cons_of_neg (by simpa using apart), ih nodupRest later]

theorem entries_insert (table : Table α) (entry : Entry α) :
    (table.insert entry.key entry.shown entry.value).entries = put entry table.entries :=
  rfl

theorem keys_insert (table : Table α) (entry : Entry α) :
    (table.insert entry.key entry.shown entry.value).keys =
      if entry.key ∈ table.keys then table.keys else table.keys ++ [entry.key] :=
  keys_put entry table.entries

theorem insert_new {table : Table α} {key : Key} (new : key ∉ table.keys) (shown value : α) :
    table.insert key shown value = ⟨table.entries ++ [⟨key, shown, value⟩]⟩ := by
  have none : table.entries.findIdx? (fun other => other.key = key) = none := by
    rw [List.findIdx?_eq_none_iff]
    intro entry isIn
    simp only [decide_eq_false_iff_not]
    rintro rfl
    exact new (List.mem_map_of_mem isIn)
  rw [insert, put_eq, none]

/-! ## The index -/

theorem position?_eq (table : Table α) (key : Key) :
    table.position? key = table.keys.findIdx? fun other => other = key := by
  rw [keys, List.findIdx?_map]
  rfl

theorem size_eq (table : Table α) : table.size = table.keys.length := by
  rw [keys, List.length_map, size]

theorem exists_position?_iff (table : Table α) (key : Key) :
    (∃ position, table.position? key = some position) ↔ key ∈ table.keys := by
  rw [← Option.isSome_iff_exists, position?_eq, List.findIdx?_isSome]
  simp

theorem isIndex_position? {table : Table α} {keys : List Key} (nodup : table.keys.Nodup)
    (same : ∀ key, key ∈ table.keys ↔ key ∈ keys) : IsIndex keys table.size table.position? := by
  have found (key : Key) (position : Nat) (known : table.position? key = some position) :
      ∃ inside : position < table.keys.length, table.keys[position] = key := by
    rw [position?_eq, List.findIdx?_eq_some_iff_getElem] at known
    obtain ⟨inside, here, _⟩ := known
    exact ⟨inside, by simpa using here⟩
  refine ⟨fun key => (exists_position?_iff table key).trans (same key), ?_, ?_, ?_⟩
  · intro key position here
    obtain ⟨inside, _⟩ := found key position here
    rwa [size_eq]
  · intro key other position here there
    obtain ⟨inside, isKey⟩ := found key position here
    obtain ⟨_, isOther⟩ := found other position there
    exact isKey.symm.trans isOther
  · intro position inside
    rw [size_eq] at inside
    obtain ⟨first, here⟩ :=
      (exists_position?_iff table table.keys[position]).mpr (List.getElem_mem inside)
    obtain ⟨firstInside, isKey⟩ := found _ first here
    obtain rfl : first = position := (List.Nodup.getElem_inj_iff nodup).mp isKey
    exact ⟨_, here⟩

theorem position?_insert_known {table : Table α} {entry : Entry α} {position : Nat}
    (known : table.position? entry.key = some position) :
    (table.insert entry.key entry.shown entry.value).position? = table.position? := by
  have member : entry.key ∈ table.keys := (exists_position?_iff table entry.key).mp ⟨_, known⟩
  funext key
  rw [position?_eq, position?_eq, keys_insert, if_pos member]

theorem position?_insert_new {table : Table α} {entry : Entry α}
    (new : table.position? entry.key = none) :
    (table.insert entry.key entry.shown entry.value).position? =
      Function.update table.position? entry.key (some table.size) := by
  have absent : entry.key ∉ table.keys := by
    rw [← exists_position?_iff, new]
    simp
  funext key
  rw [position?_eq, keys_insert, if_neg absent, List.findIdx?_append, ← position?_eq, size_eq]
  by_cases same : key = entry.key
  · subst same
    simp [new]
  · simp [same, Ne.symm same]

/-! ## All insertions -/

theorem ofInserts_concat (inserts : List (Entry α)) (entry : Entry α) :
    ofInserts (inserts ++ [entry]) =
      (ofInserts inserts).insert entry.key entry.shown entry.value := by
  simp [ofInserts]

theorem latest?_concat (inserts : List (Entry α)) (entry : Entry α) (key : Key) :
    latest? (inserts ++ [entry]) key =
      if entry.key = key then some entry else latest? inserts key := by
  by_cases same : entry.key = key <;> simp [latest?, same]

theorem eraseDups_concat (keys : List Key) (key : Key) :
    (keys ++ [key]).eraseDups =
      if key ∈ keys then keys.eraseDups else keys.eraseDups ++ [key] := by
  rw [List.eraseDups_append]
  by_cases known : key ∈ keys <;> simp [List.removeAll, known, List.eraseDups_cons]

theorem find?_ofInserts (inserts : List (Entry α)) (key : Key) :
    (ofInserts inserts).entries.find? (fun entry => entry.key = key) = latest? inserts key := by
  induction inserts using List.reverseRecOn with
  | nil => rfl
  | append_singleton inserts entry ih =>
      rw [ofInserts_concat, entries_insert, find?_put, latest?_concat, ih]

theorem keys_ofInserts (inserts : List (Entry α)) :
    (ofInserts inserts).keys = (inserts.map Entry.key).eraseDups := by
  induction inserts using List.reverseRecOn with
  | nil => rfl
  | append_singleton inserts entry ih =>
      rw [ofInserts_concat, keys_insert, ih, List.map_append, List.map_singleton, eraseDups_concat]
      simp only [List.mem_eraseDups]

theorem nodup_keys_ofInserts (inserts : List (Entry α)) : (ofInserts inserts).keys.Nodup := by
  induction inserts using List.reverseRecOn with
  | nil => exact List.nodup_nil
  | append_singleton inserts entry ih =>
      rw [ofInserts_concat, keys_insert]
      split
      · exact ih
      · rename_i new
        exact List.nodup_append_comm.mp (List.nodup_cons.mpr ⟨new, ih⟩)

theorem reflects_ofInserts (inserts : List (Entry α)) : (ofInserts inserts).Reflects inserts := by
  have nodup := nodup_keys_ofInserts inserts
  have keys := keys_ofInserts inserts
  have same (key : Key) : key ∈ (ofInserts inserts).keys ↔ key ∈ inserts.map Entry.key := by
    rw [keys, List.mem_eraseDups]
  refine ⟨fun key => ?_, ?_, ?_, isIndex_position? nodup same⟩
  · rw [Table.get?, find?_ofInserts]
  · rw [size_eq, ← List.toFinset_card_of_nodup nodup]
    congr 1
    ext key
    rw [List.mem_toFinset, List.mem_toFinset, same]
  · rw [← keys, Table.keys, List.map_map]
    refine List.map_congr_left fun entry member => ?_
    rw [Function.comp_apply, ← find?_ofInserts]
    exact (find?_of_mem nodup member).symm

/-! ## Pairs and index -/

/-- A table kept as its pairs and, for each key, the position of its pair. -/
structure Indexed (α : Type) where
  pairs : List (α × α)
  index : Key → Option Nat

namespace Indexed

def empty : Indexed α :=
  ⟨[], fun _ => none⟩

/-- Replaces the pair at the position of the key. The pair of a new key goes to the end, and the
index is extended by its position. -/
def insert (indexed : Indexed α) (key : Key) (shown value : α) : Indexed α :=
  match indexed.index key with
  | some position => { indexed with pairs := indexed.pairs.set position (shown, value) }
  | none =>
    ⟨indexed.pairs ++ [(shown, value)],
      Function.update indexed.index key (some indexed.pairs.length)⟩

def get? (indexed : Indexed α) (key : Key) : Option α :=
  (indexed.index key).bind fun position => indexed.pairs[position]?.map Prod.snd

def ofInserts (inserts : List (Entry α)) : Indexed α :=
  inserts.foldl (fun indexed entry => indexed.insert entry.key entry.shown entry.value) .empty

structure InStep (table : Table α) (indexed : Indexed α) : Prop where
  pairs : indexed.pairs = table.entries.map fun entry => (entry.shown, entry.value)
  index : indexed.index = table.position?

variable {table : Table α} {indexed : Indexed α}

theorem InStep.get?_eq (inStep : indexed.InStep table) (key : Key) :
    indexed.get? key = table.get? key := by
  rw [get?, inStep.index, inStep.pairs, Table.get?, List.find?_eq_bind_findIdx?_getElem?,
    Option.map_bind]
  simp [position?, Function.comp_def]

theorem InStep.insert (inStep : indexed.InStep table) (entry : Entry α) :
    (indexed.insert entry.key entry.shown entry.value).InStep
      (table.insert entry.key entry.shown entry.value) := by
  have stored := put_eq entry table.entries
  unfold Indexed.insert
  rw [inStep.index]
  cases found : table.position? entry.key with
  | some position =>
      rw [position?] at found
      rw [found] at stored
      refine ⟨?_, ?_⟩
      · rw [entries_insert, stored, inStep.pairs, List.map_set]
      · rw [position?_insert_known found]
  | none =>
      rw [position?] at found
      rw [found] at stored
      refine ⟨?_, ?_⟩
      · rw [entries_insert, stored, inStep.pairs, List.map_append, List.map_singleton]
      · rw [position?_insert_new found, inStep.pairs, List.length_map, size]

theorem inStep_ofInserts (inserts : List (Entry α)) :
    (ofInserts inserts).InStep (Table.ofInserts inserts) := by
  induction inserts using List.reverseRecOn with
  | nil => exact ⟨rfl, rfl⟩
  | append_singleton inserts entry ih =>
      have last : ofInserts (inserts ++ [entry]) =
          (ofInserts inserts).insert entry.key entry.shown entry.value := by
        simp [ofInserts]
      rw [last, ofInserts_concat]
      exact ih.insert entry

end Indexed

/-- Inserting entries makes a map in insertion order of them. Kept as pairs and an index, it has the
same pairs, finds the same values, and all positions in its index are those of pairs. -/
theorem inserts_make_ordered_map (inserts : List (Entry α)) :
    (ofInserts inserts).Reflects inserts ∧
      (Indexed.ofInserts inserts).InStep (ofInserts inserts) ∧
      IsIndex (inserts.map Entry.key) (Indexed.ofInserts inserts).pairs.length
        (Indexed.ofInserts inserts).index ∧
      ∀ key, (Indexed.ofInserts inserts).get? key = (latest? inserts key).map Entry.value := by
  have reflects := reflects_ofInserts inserts
  have inStep := Indexed.inStep_ofInserts inserts
  refine ⟨reflects, inStep, ?_, fun key => ?_⟩
  · rw [inStep.pairs, List.length_map, inStep.index]
    exact reflects.index
  · rw [inStep.get?_eq, reflects.get?]

example :
    ((ofInserts [⟨.string "b", 0, 1⟩, ⟨.string "a", 1, 2⟩, ⟨.string "b", 2, 3⟩]).entries.map
      fun entry => (entry.shown, entry.value)) = [(2, 3), (1, 2)] := by
  decide

end Scriptlet.Table
