import Scriptlet.Proofs.Eval.Chains

/-!
# Where scopes are and where they are entered

A scope lies at the top or inside an older one, and it belongs to a session (`Store.Nested`). While
code runs scopes are added, and nothing else is done about any of this: old scopes stay where they
are, and new ones are entered in the register of their session. What is missing from a register
later on is what did not pass when it was looked through (`Store.Keeps`).
-/
set_option autoImplicit false

namespace Scriptlet

namespace Register

variable {register : Register}

def Passes (register : Register) (newer scope : ScopeId) : Prop :=
  ∀ inUse, register.inUse? newer = some inUse → inUse scope = true

theorem mem_kept {session newer : ScopeId} {entry : Entry} :
    entry ∈ register.kept session newer ↔
      entry ∈ register.entries ∧
        (entry.session = session → register.Passes newer entry.scope) := by
  unfold kept Passes
  cases register.inUse? newer with
  | none => simp
  | some inUse => simp [List.mem_filter, ← imp_iff_not_or]

theorem mem_scopes {session scope : ScopeId} :
    scope ∈ register.scopes session ↔ ⟨session, scope⟩ ∈ register.entries := by
  simp only [scopes, List.mem_map, List.mem_filter, decide_eq_true_eq]
  constructor
  · rintro ⟨entry, ⟨isIn, rfl⟩, rfl⟩
    exact isIn
  · exact fun isIn => ⟨_, ⟨isIn, rfl⟩, rfl⟩

theorem mem_drop {session : ScopeId} {entry : Entry} :
    entry ∈ (register.drop session).entries ↔
      entry ∈ register.entries ∧ entry.session ≠ session := by
  simp [drop, List.mem_filter]

end Register

def Scope.place (scope : Scope) : Option ScopeId × ScopeId :=
  (scope.outer, scope.session)

namespace Store

def place? (store : Store) (id : ScopeId) : Option (Option ScopeId × ScopeId) :=
  store.scopes[id]?.map Scope.place

structure Nested (store : Store) : Prop where
  top : ∀ id session, store.place? id = some (none, session) → session = id
  inner : ∀ id outer session, store.place? id = some (some outer, session) →
    outer < id ∧ session = store.sessionOf outer

def Enters (before later : Store) (entry : Register.Entry) : Prop :=
  entry ∈ before.register.entries ∨
    (before.scopes.size ≤ entry.scope ∧ entry.scope < later.scopes.size) ∧
      later.sessionOf entry.scope = entry.session

/-- No scope has gone or been moved, and new ones were entered. No entry is missing that passed
whenever another scope was entered. -/
structure Keeps (before later : Store) : Prop where
  size : before.scopes.size ≤ later.scopes.size
  place : ∀ id < before.scopes.size, later.place? id = before.place? id
  inUse? : later.register.inUse? = before.register.inUse?
  entered : ∀ entry ∈ later.register.entries, before.Enters later entry
  kept : ∀ entry, before.Enters later entry →
    (∀ newer, before.scopes.size ≤ newer → newer < later.scopes.size → newer ≠ entry.scope →
      before.register.Passes newer entry.scope) →
    entry ∈ later.register.entries

variable {before middle later store : Store} {id : ScopeId}

theorem place?_eq_none (new : store.scopes.size ≤ id) : store.place? id = none := by
  rw [place?, Array.getElem?_eq_none new]
  rfl

theorem place?_of_getElem? {scope : Scope} (found : store.scopes[id]? = some scope) :
    store.place? id = some (scope.outer, scope.session) := by
  rw [place?, found]
  rfl

theorem lt_size_of_place? {place : Option ScopeId × ScopeId}
    (placed : store.place? id = some place) : id < store.scopes.size := by
  by_contra new
  rw [place?_eq_none (Nat.le_of_not_lt new)] at placed
  cases placed

theorem sessionOf_eq (store : Store) (id : ScopeId) :
    store.sessionOf id = ((store.place? id).map Prod.snd).getD id := by
  unfold sessionOf place?
  cases store.scopes[id]? <;> rfl

theorem sessionOf_eq_of_place? {outer : Option ScopeId} {session : ScopeId}
    (placed : store.place? id = some (outer, session)) : store.sessionOf id = session := by
  rw [sessionOf_eq, placed]
  rfl

theorem place?_of_scopes (same : later.scopes = before.scopes) (id : ScopeId) :
    later.place? id = before.place? id := by
  rw [place?, place?, same]

theorem place?_define (store : Store) (scope : ScopeId) (name : String) (value : Value)
    (id : ScopeId) : (store.define scope name value).place? id = store.place? id := by
  simp only [define, place?, Array.getElem?_modify]
  split
  · cases store.scopes[id]? <;> rfl
  · rfl

theorem place?_add (store : Store) (scope : Scope) (id : ScopeId) :
    (store.add scope).2.place? id =
      if id = store.scopes.size then some scope.place else store.place? id := by
  simp only [scopes_add, place?, Array.getElem?_push]
  split <;> rfl

theorem new_eq {scope : Scope} {place : Option ScopeId × ScopeId} (new : store.scopes.size ≤ id)
    (placed : (store.add scope).2.place? id = some place) :
    id = store.scopes.size ∧ place = scope.place := by
  rw [place?_add] at placed
  split at placed
  · rename_i isNew
    exact ⟨isNew, (Option.some.inj placed).symm⟩
  · rw [place?_eq_none new] at placed
    cases placed

theorem sessionOf_add (store : Store) (scope : Scope) :
    (store.add scope).2.sessionOf store.scopes.size = scope.session := by
  rw [sessionOf_eq, place?_add, if_pos rfl]
  rfl

namespace Keeps

theorem sessionOf (keeps : before.Keeps later) (old : id < before.scopes.size) :
    later.sessionOf id = before.sessionOf id := by
  rw [sessionOf_eq, sessionOf_eq, keeps.place id old]

theorem of_place? (size : later.scopes.size = before.scopes.size)
    (same : ∀ id, later.place? id = before.place? id)
    (register : later.register = before.register) : before.Keeps later := by
  refine ⟨size.ge, fun id _ => same id, by rw [register], fun entry entered => ?_,
    fun entry entered _ => ?_⟩
  · exact .inl (register ▸ entered)
  · rcases entered with entered | ⟨⟨new, made⟩, _⟩
    · rwa [register]
    · exact absurd (size ▸ made) (Nat.not_lt_of_le new)

theorem of_scopes (same : later.scopes = before.scopes)
    (register : later.register = before.register) : before.Keeps later :=
  .of_place? (by rw [same]) (place?_of_scopes same) register

theorem refl (store : Store) : store.Keeps store :=
  .of_scopes rfl rfl

theorem trans (first : before.Keeps middle) (second : middle.Keeps later) : before.Keeps later := by
  refine ⟨first.size.trans second.size, fun id old => ?_, second.inUse?.trans first.inUse?, ?_, ?_⟩
  · rw [second.place id (old.trans_le first.size), first.place id old]
  · intro entry entered
    rcases second.entered entry entered with entered | ⟨⟨new, made⟩, belongs⟩
    · rcases first.entered entry entered with entered | ⟨⟨new, made⟩, belongs⟩
      · exact .inl entered
      · exact .inr ⟨⟨new, made.trans_le second.size⟩, (second.sessionOf made).trans belongs⟩
    · exact .inr ⟨⟨first.size.trans new, made⟩, belongs⟩
  · -- an entry that passes to the end passes up to the middle, and from there on
    intro entry entered passes
    have passesFirst (newer : ScopeId) (new : before.scopes.size ≤ newer)
        (made : newer < middle.scopes.size) (other : newer ≠ entry.scope) :=
      passes newer new (made.trans_le second.size) other
    refine second.kept entry ?_ fun newer new made other => ?_
    · rcases entered with entered | ⟨⟨new, made⟩, belongs⟩
      · exact .inl (first.kept entry (.inl entered) passesFirst)
      · by_cases old : entry.scope < middle.scopes.size
        · have belongs := (second.sessionOf old).symm.trans belongs
          exact .inl (first.kept entry (.inr ⟨⟨new, old⟩, belongs⟩) passesFirst)
        · exact .inr ⟨⟨Nat.le_of_not_lt old, made⟩, belongs⟩
    · rw [Register.Passes, first.inUse?]
      exact passes newer (first.size.trans new) made other

theorem define (store : Store) (scope : ScopeId) (name : String) (value : Value) :
    store.Keeps (store.define scope name value) :=
  .of_place? (by simp [Store.define]) (place?_define store scope name value) rfl

/-- A scope that is added is entered, and whoever does not pass then is struck out. -/
theorem add (store : Store) (scope : Scope) : store.Keeps (store.add scope).2 := by
  have made : store.scopes.size < (store.add scope).2.scopes.size := by simp
  refine ⟨made.le, fun id old => ?_, rfl, fun entry entered => ?_, fun entry entered passes => ?_⟩
  · rw [place?_add, if_neg (Nat.ne_of_lt old)]
  · rcases List.mem_cons.mp entered with rfl | kept
    · exact .inr ⟨⟨le_rfl, made⟩, store.sessionOf_add scope⟩
    · exact .inl (Register.mem_kept.mp kept).1
  · obtain ⟨session, id⟩ := entry
    refine List.mem_cons.mpr (or_iff_not_imp_left.mpr fun other => ?_)
    rcases entered with entered | ⟨⟨new, old⟩, belongs⟩
    · refine Register.mem_kept.mpr ⟨entered, fun same => passes _ le_rfl made ?_⟩
      rintro rfl
      exact other (congrArg (Register.Entry.mk · _) same)
    · obtain rfl : id = store.scopes.size :=
        Nat.le_antisymm (Nat.le_of_lt_succ (by simpa using old)) new
      rw [sessionOf_add] at belongs
      exact absurd (congrArg (Register.Entry.mk · _) belongs.symm) other

end Keeps

/-- Old scopes stay in good order, so that only new ones have to be looked at. -/
theorem Nested.grow (nested : before.Nested) (keeps : before.Keeps later)
    (top : ∀ id session, before.scopes.size ≤ id →
      later.place? id = some (none, session) → session = id)
    (inner : ∀ id outer session, before.scopes.size ≤ id →
      later.place? id = some (some outer, session) →
        outer < id ∧ session = later.sessionOf outer) : later.Nested := by
  refine ⟨fun id session placed => ?_, fun id outer session placed => ?_⟩
  · by_cases old : id < before.scopes.size
    · exact nested.top id session ((keeps.place id old).symm.trans placed)
    · exact top id session (Nat.le_of_not_lt old) placed
  · by_cases old : id < before.scopes.size
    · obtain ⟨older, same⟩ := nested.inner id outer session ((keeps.place id old).symm.trans placed)
      exact ⟨older, same.trans (keeps.sessionOf (older.trans old)).symm⟩
    · exact inner id outer session (Nat.le_of_not_lt old) placed

theorem Nested.of_place? (nested : before.Nested)
    (same : ∀ id, later.place? id = before.place? id) : later.Nested := by
  refine ⟨fun id session placed => nested.top id session (same id ▸ placed), ?_⟩
  intro id outer session placed
  rw [sessionOf_eq, same outer, ← sessionOf_eq]
  exact nested.inner id outer session (same id ▸ placed)

theorem Nested.add (nested : store.Nested) {scope : Scope}
    (top : scope.outer = none → scope.session = store.scopes.size)
    (inner : ∀ outer, scope.outer = some outer →
      outer < store.scopes.size ∧ scope.session = store.sessionOf outer) :
    (store.add scope).2.Nested := by
  have keeps := Keeps.add store scope
  refine nested.grow keeps (fun id session new placed => ?_) fun id outer session new placed => ?_
  · obtain ⟨isNew, same⟩ := new_eq new placed
    obtain ⟨leads, rfl⟩ := Prod.mk.inj same
    exact (top leads.symm).trans isNew.symm
  · obtain ⟨isNew, same⟩ := new_eq new placed
    obtain ⟨leads, rfl⟩ := Prod.mk.inj same
    obtain ⟨inside, belongs⟩ := inner outer leads.symm
    exact ⟨inside.trans_eq isNew.symm, belongs.trans (keeps.sessionOf inside).symm⟩

/-- The chain of a scope ends at the session it belongs to. -/
theorem Nested.chained (nested : store.Nested) (inside : id < store.scopes.size) :
    ∃ chain, store.Chained id chain ∧ chain.getLast? = some (store.sessionOf id) := by
  induction id using Nat.strong_induction_on with
  | _ id ih =>
      have found := Array.getElem?_eq_getElem inside
      generalize store.scopes[id] = scope at found
      have placed := place?_of_getElem? found
      rw [sessionOf_eq_of_place? placed]
      cases leads : scope.outer with
      | none =>
          rw [nested.top id scope.session (leads ▸ placed)]
          exact ⟨[id], .top found leads, rfl⟩
      | some outer =>
          obtain ⟨older, same⟩ := nested.inner id outer scope.session (leads ▸ placed)
          obtain ⟨chain, chained, last⟩ := ih outer older (Nat.lt_trans older inside)
          refine ⟨id :: chain, .inside found leads older chained, ?_⟩
          rw [List.getLast?_cons, last, same]
          rfl

/-- All scopes of a chain belong to one session. -/
theorem Nested.sessionOf_eq_of_mem (nested : store.Nested) {chain : List ScopeId}
    (chained : store.Chained id chain) :
    ∀ other ∈ chain, store.sessionOf other = store.sessionOf id := by
  induction chained with
  | top _ _ => simp
  | @inside id outer scope around found leads older chained ih =>
      have placed := place?_of_getElem? found
      rw [leads] at placed
      have same : store.sessionOf outer = store.sessionOf id := by
        rw [sessionOf_eq_of_place? placed, (nested.inner id outer _ placed).2]
      exact List.forall_mem_cons.mpr ⟨rfl, fun other isIn => (ih other isIn).trans same⟩

end Store

end Scriptlet
