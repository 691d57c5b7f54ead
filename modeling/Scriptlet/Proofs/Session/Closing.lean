import Mathlib.Logic.Relation
import Scriptlet.Proofs.Eval.Confinement
import Scriptlet.Proofs.Eval.Scoping

/-!
# What a session leaves behind

Scopes are in use as long as something refers to them, and they may be in use longer than their
session lasts: a function keeps the scope that it captured, whichever session it is carried to. When
a session ends it empties the scopes that its register has kept.

A `Host` is a run of any number of sessions, with the scopes that are in use as a further part of
its state. The steps of a host are those of its sessions, to give up scopes that nothing refers to,
and to strike such scopes out of the registers, in any order. While code runs both may happen as
well. All that is known of the test by which scopes are struck out is that nothing passes for out of
use and is in use later on (`Host.Grows`). The main statement is that a session that ends empties
exactly its own scopes, if only those that are in use count.
-/
set_option autoImplicit false

namespace Scriptlet

/-! ## Hosts -/

/-- A store with the scopes that are in use, those among them that are held from outside, and the
sessions that have not ended. -/
structure Host where
  store : Store
  live : ScopeId → Prop
  held : List ScopeId
  sessions : List Session

namespace Host

def empty (inUse? : ScopeId → Option (ScopeId → Bool)) : Host :=
  ⟨⟨#[], ⟨[], inUse?⟩, 0, "", #[]⟩, fun _ => False, [], []⟩

def grown (host : Host) (later : Store) (live : ScopeId → Prop) : Host :=
  { host with store := later, live := live }

def started (host : Host) (live : ScopeId → Prop) : Host :=
  { host.grown (Session.start host.store).2 live with
    sessions := (Session.start host.store).1 :: host.sessions }

def defined (host : Host) (scope : ScopeId) (name : String) (value : Value) : Host :=
  { host with store := host.store.define scope name value }

def closed (host : Host) (session : Session) : Host :=
  { host with
    store := session.close host.store
    sessions := host.sessions.filter (· ≠ session) }

inductive Referenced (host : Host) (id : ScopeId) : Prop
  | held (isHeld : id ∈ host.held)
  | root {session : Session} (isOpen : session ∈ host.sessions) (isRoot : session.root = id)
  | scope {other : ScopeId} (isLive : host.live other) (refers : host.store.Refers other id)

/-- There may be more scopes than before, and some may have gone out of use meanwhile, but none that
is still referred to. What is in use at the end has been in use ever since it was made, and so has
passed each time a register was looked through. -/
structure Grows (before later : Host) : Prop where
  fewer : ∀ id, later.live id →
    before.live id ∨ (before.store.scopes.size ≤ id ∧ id < later.store.scopes.size)
  used : ∀ id, later.Referenced id → later.live id
  passes : ∀ newer, before.store.scopes.size ≤ newer → newer < later.store.scopes.size →
    ∀ id, later.live id → newer ≠ id → before.store.register.Passes newer id

inductive Step : Host → Host → Prop
  | started {host : Host} {live : ScopeId → Prop} (grows : host.Grows (host.started live)) :
      Step host (host.started live)
  | enclosed {host : Host} {outer : ScopeId} {live : ScopeId → Prop} (isLive : host.live outer)
      (grows : host.Grows (host.grown (host.store.enclose outer []).2 live)) :
      Step host (host.grown (host.store.enclose outer []).2 live)
  | evaluated {host : Host} {scope : ScopeId} {depth : Nat} {code : Node} {value : Value}
      {later : Store} {live : ScopeId → Prop} (isLive : host.live scope)
      (ran : Evaluation.fresh depth scope code host.store = .ok value later)
      (grows : host.Grows (host.grown later live)) : Step host (host.grown later live)
  /-- A value is bound from outside, wherever it comes from. -/
  | defined {host : Host} {scope : ScopeId} (name : String) {value : Value}
      (isLive : host.live scope) (captured : ∀ id, value.Captures id → host.live id) :
      Step host (host.defined scope name value)
  /-- Scopes are taken hold of, or let go. -/
  | took {host : Host} {held : List ScopeId} (isLive : ∀ id ∈ held, host.live id) :
      Step host { host with held := held }
  | freed {host : Host} {live : ScopeId → Prop}
      (grows : host.Grows (host.grown host.store live)) : Step host (host.grown host.store live)
  /-- Scopes are struck out of the registers, but none that is in use. -/
  | pruned {host : Host} {entries : List Register.Entry}
      (fewer : entries.Sublist host.store.register.entries)
      (kept : ∀ entry ∈ host.store.register.entries, host.live entry.scope → entry ∈ entries) :
      Step host { host with
        store := { host.store with register := { host.store.register with entries := entries } } }
  | ended {host : Host} {session : Session} (isOpen : session ∈ host.sessions) :
      Step host (host.closed session)

def Reached (host : Host) : Prop :=
  ∃ inUse?, Relation.ReflTransGen Step (empty inUse?) host

def Inside (host : Host) (id : ScopeId) : Prop :=
  host.live id ∨ host.store.scopes.size ≤ id

/-- What is in use refers only to what is in use. The registers are right about the sessions of the
scopes entered there, and complete for all that are in use and belong to an open session. -/
structure Sound (host : Host) : Prop where
  fenced : host.store.Fenced host.Inside
  made : ∀ id, host.live id → id < host.store.scopes.size
  held : ∀ id ∈ host.held, host.live id
  roots : ∀ session ∈ host.sessions, host.live session.root
  right : ∀ entry ∈ host.store.register.entries,
    entry.scope < host.store.scopes.size ∧ host.store.sessionOf entry.scope = entry.session
  complete : ∀ session ∈ host.sessions, ∀ id, host.live id →
    host.store.sessionOf id = session.root → ⟨session.root, id⟩ ∈ host.store.register.entries

end Host

/-! ## Stores -/

namespace Store

variable {store : Store} {inside : ScopeId → Prop}

theorem map_emptied {α : Type} {see : Scope → α} (store : Store) (ids : List ScopeId) (id : ScopeId)
    (blind : ∀ scope : Scope, see scope.emptied = see scope) :
    (store.emptied ids).scopes[id]?.map see = store.scopes[id]?.map see := by
  rw [getElem?_emptied, Option.map_map]
  congr 1
  funext scope
  simp only [Function.comp_apply]
  split
  · exact blind scope
  · rfl

theorem place?_emptied (store : Store) (ids : List ScopeId) (id : ScopeId) :
    (store.emptied ids).place? id = store.place? id :=
  map_emptied store ids id fun _ => rfl

theorem binding?_emptied (store : Store) (ids : List ScopeId) (id : ScopeId) (name : String) :
    (store.emptied ids).binding? id name = if id ∈ ids then none else store.binding? id name := by
  rw [binding?, binding?, getElem?_emptied]
  cases store.scopes[id]? with
  | none => simp
  | some scope => by_cases listed : id ∈ ids <;> simp [listed]

theorem Fenced.emptied (fenced : store.Fenced inside) (ids : List ScopeId) :
    (store.emptied ids).Fenced inside := by
  refine ⟨fenced.nested.of_place? (place?_emptied store ids), ?_, fun id target isIn refers => ?_⟩
  · rw [size_emptied]
    exact fenced.fresh
  · rw [size_emptied]
    refine fenced.closed id target isIn ?_
    cases refers with
    | outer placed => exact .outer (place?_emptied store ids id ▸ placed)
    | bound found captures =>
        rw [binding?_emptied] at found
        split at found
        · cases found
        · exact .bound found captures

end Store

theorem Store.Refers.lt_size {store : Store} {id target : ScopeId}
    (refers : store.Refers id target) : id < store.scopes.size := by
  cases refers with
  | outer placed => exact Store.lt_size_of_place? placed
  | bound found _ =>
      by_contra new
      rw [Store.binding?, Array.getElem?_eq_none (Nat.le_of_not_lt new)] at found
      cases found

theorem Store.Nested.sessionOf_le {store : Store} (nested : store.Nested) {id : ScopeId}
    (made : id < store.scopes.size) : store.sessionOf id ≤ id := by
  obtain ⟨chain, chained, last⟩ := nested.chained made
  exact chained.falling.1 _ (List.mem_of_getLast? last)

/-! ## What the steps preserve -/

namespace Host

variable {host later : Host}

namespace Sound

theorem referenced (sound : host.Sound) {id : ScopeId} (referenced : host.Referenced id) :
    host.live id := by
  cases referenced with
  | held isHeld => exact sound.held id isHeld
  | root isOpen isRoot => exact isRoot ▸ sound.roots _ isOpen
  | scope isLive refers =>
      obtain ⟨inside, made⟩ := sound.fenced.closed _ id (.inl isLive) refers
      exact inside.resolve_right (Nat.not_le_of_lt made)

/-- Where scopes are only added or given up, all of it is carried over to those in use. -/
theorem grows (sound : host.Sound) (grows : host.Grows later)
    (keeps : host.store.Keeps later.store) (fenced : later.store.Fenced host.Inside)
    (sessions : ∀ session ∈ later.sessions,
      session ∈ host.sessions ∨ host.store.scopes.size ≤ session.root) : later.Sound := by
  have size := keeps.size
  have inside (id : ScopeId) (isLive : later.live id) : host.Inside id :=
    (grows.fewer id isLive).imp (fun isLive => isLive) And.left
  refine ⟨⟨fenced.nested, fun _ => .inr, fun id target isIn refers => ?_⟩, fun id isLive => ?_,
    fun id isHeld => grows.used id (.held isHeld),
    fun session isOpen => grows.used _ (.root isOpen rfl), fun entry isIn => ?_,
    fun session isOpen id isLive belongs => keeps.kept _ ?_ fun newer new made other =>
      grows.passes newer new made id isLive other⟩
  · have isLive := isIn.resolve_right (Nat.not_le_of_lt refers.lt_size)
    have made := (fenced.closed id target (inside id isLive) refers).2
    exact ⟨.inl (grows.used target (.scope isLive refers)), made⟩
  · rcases grows.fewer id isLive with isLive | ⟨_, made⟩
    · exact (sound.made id isLive).trans_le size
    · exact made
  · rcases keeps.entered entry isIn with entered | ⟨⟨_, made⟩, belongs⟩
    · obtain ⟨made, belongs⟩ := sound.right entry entered
      exact ⟨made.trans_le size, (keeps.sessionOf made).trans belongs⟩
    · exact ⟨made, belongs⟩
  · rcases grows.fewer id isLive with isLive | isNew
    · have made := sound.made id isLive
      have belongs := (keeps.sessionOf made).symm.trans belongs
      rcases sessions session isOpen with isOpen | isNew
      · exact .inl (sound.complete session isOpen id isLive belongs)
      · -- what was made before the session can not belong to it
        have earlier := sound.fenced.nested.sessionOf_le made
        exact absurd (belongs.symm.trans_le earlier) (Nat.not_le_of_lt (made.trans_le isNew))
    · exact .inr ⟨isNew, belongs⟩

/-- All that is new may stay in use for the time being. -/
theorem grows_all (sound : host.Sound) (fenced : later.store.Fenced host.Inside)
    (held : later.held = host.held)
    (sessions : ∀ session ∈ later.sessions, session ∈ host.sessions ∨
      host.store.scopes.size ≤ session.root ∧ session.root < later.store.scopes.size)
    (live : later.live = fun id =>
      host.live id ∨ host.store.scopes.size ≤ id ∧ id < later.store.scopes.size)
    (passes : ∀ newer id, host.store.register.Passes newer id) : host.Grows later := by
  have used (id : ScopeId) : later.live id ↔
      host.live id ∨ host.store.scopes.size ≤ id ∧ id < later.store.scopes.size := by
    rw [live]
  refine ⟨fun id => (used id).mp, fun id referenced => (used id).mpr ?_,
    fun newer _ _ id _ _ => passes newer id⟩
  cases referenced with
  | held isHeld => exact .inl (sound.held id (held ▸ isHeld))
  | root isOpen isRoot => exact isRoot ▸ (sessions _ isOpen).imp_left (sound.roots _)
  | scope isLive refers =>
      obtain ⟨isIn, made⟩ :=
        fenced.closed _ id (((used _).mp isLive).imp_right And.left) refers
      exact isIn.imp_right fun isNew => ⟨isNew, made⟩

/-- Where scopes stay as many as they are and where they are, only references can change, and
entries of scopes that are not in use or whose session has ended can go. -/
theorem placed (sound : host.Sound) {store : Store} {sessions : List Session}
    (size : store.scopes.size = host.store.scopes.size)
    (place : ∀ id, store.place? id = host.store.place? id) (fenced : store.Fenced host.Inside)
    (fewer : ∀ session ∈ sessions, session ∈ host.sessions)
    (entered : ∀ entry ∈ store.register.entries, entry ∈ host.store.register.entries)
    (kept : ∀ session ∈ sessions, ∀ id, host.live id →
      ⟨session.root, id⟩ ∈ host.store.register.entries →
        ⟨session.root, id⟩ ∈ store.register.entries) :
    Sound { host with store := store, sessions := sessions } := by
  have sessionOf (id : ScopeId) : store.sessionOf id = host.store.sessionOf id := by
    rw [Store.sessionOf_eq, place, ← Store.sessionOf_eq]
  refine ⟨?_, fun id isLive => ?_, sound.held, fun session isOpen => ?_, fun entry isIn => ?_, ?_⟩
  · have same : Inside { host with store := store, sessions := sessions } = host.Inside := by
      funext id
      simp only [Inside, size]
    exact same ▸ fenced
  · rw [size]
    exact sound.made id isLive
  · exact sound.roots session (fewer session isOpen)
  · rw [size, sessionOf]
    exact sound.right entry (entered entry isIn)
  · intro session isOpen id isLive belongs
    refine kept session isOpen id isLive ?_
    exact sound.complete session (fewer session isOpen) id isLive
      ((sessionOf id).symm.trans belongs)

theorem closed (sound : host.Sound) (session : Session) : (host.closed session).Sound := by
  let ids := host.store.register.scopes session.root
  refine sound.placed (host.store.size_emptied ids) (host.store.place?_emptied ids)
    ((sound.fenced.emptied ids).of_scopes rfl) (fun other isOpen => List.mem_of_mem_filter isOpen)
    (fun entry isIn => (Register.mem_drop.mp isIn).1) fun other isOpen id _ entered => ?_
  refine Register.mem_drop.mpr ⟨entered, fun sameRoot => ?_⟩
  have differs : other ≠ session := by simpa using (List.mem_filter.mp isOpen).2
  exact differs (congrArg Session.mk sameRoot)

end Sound

theorem sound_empty (inUse? : ScopeId → Option (ScopeId → Bool)) : (empty inUse?).Sound := by
  refine ⟨⟨⟨?_, ?_⟩, fun id _ => .inr (Nat.zero_le id), ?_⟩, nofun, nofun, nofun, nofun, nofun⟩
  · intro id session placed
    cases placed
  · intro id outer session placed
    cases placed
  · intro id target _ refers
    exact absurd refers.lt_size (Nat.not_lt_zero id)

/-- Every step keeps a host in good order. -/
theorem Step.sound (step : host.Step later) (sound : host.Sound) : later.Sound := by
  have same : ∀ session ∈ host.sessions,
      session ∈ host.sessions ∨ host.store.scopes.size ≤ session.root := fun _ => .inl
  cases step with
  | started grows =>
      refine sound.grows grows (.add host.store _) sound.fenced.start ?_
      exact List.forall_mem_cons.mpr ⟨.inr le_rfl, same⟩
  | @enclosed outer _ isLive grows =>
      refine sound.grows grows (.add host.store _) ?_ same
      exact sound.fenced.enclose (.inl isLive) (sound.made outer isLive) nofun
  | @evaluated scope _ _ _ _ _ isLive ran grows =>
      obtain ⟨keeps, fenced, _⟩ :=
        Evaluation.confined_fresh sound.fenced (.inl isLive) (sound.made scope isLive) ran
      exact sound.grows grows keeps fenced same
  | @defined scope name value isLive captured =>
      refine sound.placed (by simp [Store.define])
        (Store.place?_define host.store scope name value) (sound.fenced.define scope name ?_)
        (fun _ isOpen => isOpen) (fun _ isIn => isIn) fun _ _ _ _ entered => entered
      exact Value.confined_iff.mpr fun id captures =>
        ⟨.inl (captured id captures), sound.made id (captured id captures)⟩
  | took isLive =>
      exact ⟨sound.fenced, sound.made, isLive, sound.roots, sound.right, sound.complete⟩
  | freed grows => exact sound.grows grows (.refl host.store) sound.fenced same
  | pruned fewer kept =>
      refine sound.placed rfl (fun _ => rfl) (sound.fenced.of_scopes rfl) (fun _ isOpen => isOpen)
        (fun _ isIn => fewer.subset isIn) ?_
      exact fun session _ id isLive entered => kept _ entered isLive
  | ended isOpen => exact sound.closed _

theorem Reached.sound (reached : host.Reached) : host.Sound := by
  obtain ⟨inUse?, reached⟩ := reached
  induction reached with
  | refl => exact sound_empty inUse?
  | tail _ step ih => exact step.sound ih

end Host

/-! ## Functions whose scopes were emptied -/

structure Store.Barren (store : Store) (id : ScopeId) (chain : List ScopeId) : Prop where
  chained : store.Chained id chain
  empty : ∀ other ∈ chain, ∀ name, store.binding? other name = none

/-- However far a call of the function gets, the scope that it captured leads to no name. The scope
of the call leads to those names that are bound there, and these are parameters or names that
the body defines. -/
def Closure.StandsAlone (closure : Closure) (call : Stage) : Prop :=
  ∀ stage, call.Reaches stage → ∀ name,
    let own := call.store.scopes.size
    stage.store.lookup closure.scope name = none ∧
    stage.store.lookup own name = stage.store.binding? own name ∧
    (stage.store.binding? own name ≠ none →
      name ∈ closure.parameters ∨ name ∈ stmtsDefine closure.body)

namespace Store.Barren

variable {before later store : Store} {id : ScopeId} {chain : List ScopeId}

theorem findSome? (barren : store.Barren id chain) (name : String) :
    (chain.findSome? fun other => store.binding? other name) = none :=
  List.findSome?_eq_none_iff.mpr fun other isIn => barren.empty other isIn name

theorem lookup (barren : store.Barren id chain) (name : String) : store.lookup id name = none := by
  rw [Store.lookup, barren.chained.chain_eq, barren.findSome?]

theorem lookup_inside (barren : store.Barren id chain) {own : ScopeId} {scope : Scope}
    (found : store.scopes[own]? = some scope) (leads : scope.outer = some id) (older : id < own)
    (name : String) : store.lookup own name = store.binding? own name := by
  have chained := Chained.inside found leads older barren.chained
  rw [Store.lookup, chained.chain_eq, List.findSome?_cons, barren.findSome?]
  cases store.binding? own name <;> rfl

theorem of_members (barren : before.Barren id chain)
    (same : ∀ other ∈ chain, later.scopes[other]? = before.scopes[other]?) :
    later.Barren id chain := by
  refine ⟨barren.chained.of_members same, fun other isIn name => ?_⟩
  rw [binding?, same other isIn, ← binding?]
  exact barren.empty other isIn name

/-- Inside a barren scope a function is left with what its call and its body bind. -/
theorem standsAlone {closure : Closure} (barren : store.Barren closure.scope chain)
    (object : ObjectId) (arguments : List Value) :
    closure.StandsAlone ⟨.call (.function object closure) arguments, store⟩ := by
  intro stage reaches name own
  rcases reaches.cases_head with rfl | ⟨begun, leads, reaches⟩
  · -- the scope of the call is yet to be made
    have new : store.scopes[own]? = none := Array.getElem?_eq_none le_rfl
    have unbound : store.binding? own name = none := by rw [binding?, new]
    refine ⟨barren.lookup name, ?_, fun isBound => absurd unbound isBound⟩
    rw [unbound, Store.lookup, Store.chain, chainUpTo, new]
    rfl
  · cases leads with
    | @body _ _ _ _ fresh enclosed =>
        let bindings := (Eval.bindArguments closure.parameters arguments).reverse
        let event := Event.function closure.parameters.length arguments.length (fresh.depth own)
        have scopes : (fresh.note event).scopes =
            (store.enclose closure.scope bindings).2.scopes := by
          rw [← enclosed]
          rfl
        have made : own < (fresh.note event).scopes.size := by simp [scopes, Store.enclose, own]
        have frame : (fresh.note event).Frame own (stmtsDefine closure.body) stage.store :=
          ((Stage.Framed.start rfl made).reaches reaches).frame
        have left : stage.store.Barren closure.scope chain := by
          refine barren.of_members fun other isIn => ?_
          have old : other < own := barren.chained.lt_size_of_mem isIn
          rw [frame.others other (old.trans made) old.ne, scopes]
          exact (store.untouched_enclose closure.scope bindings).scopes other old
        obtain ⟨scope, found, leads⟩ : ∃ scope, stage.store.scopes[own]? = some scope ∧
            scope.outer = some closure.scope := by
          refine Option.map_eq_some_iff.mp (frame.outer.trans ?_)
          simp [scopes, Store.enclose, own]
        have older : closure.scope < own := barren.chained.lt_size
        refine ⟨left.lookup name, left.lookup_inside found leads older name, fun isBound => ?_⟩
        by_cases same : stage.store.binding? own name = (fresh.note event).binding? own name
        · rw [same, binding?_of_scopes scopes, binding?_enclose, if_pos rfl] at isBound
          exact .inl (Eval.mem_of_lookup_bindArguments isBound)
        · exact .inr (frame.changed name same)

end Store.Barren

/-! ## The end of a session -/

namespace Host

def EndsAt (host : Host) (session : Session) (id : ScopeId) : Prop :=
  (host.store.chain id).getLast? = some session.root

/-- Work that is taken up after the session has ended, outside of its scopes, which have been left
alone since. -/
structure Elsewhere (host : Host) (session : Session) (start : Stage) : Prop where
  outside : ∃ place, start.task.scope? = some place ∧ place < start.store.scopes.size ∧
    ¬host.EndsAt session place
  untouched : ∀ id, host.EndsAt session id →
    start.store.scopes[id]? = (session.close host.store).scopes[id]?

variable {host : Host} {session : Session} {id : ScopeId}

namespace Sound

theorem endsAt_iff (sound : host.Sound) (made : id < host.store.scopes.size) :
    host.EndsAt session id ↔ host.store.sessionOf id = session.root := by
  obtain ⟨chain, chained, last⟩ := sound.fenced.nested.chained made
  rw [EndsAt, chained.chain_eq, last, Option.some_inj]

theorem mem_register_iff (sound : host.Sound) (isOpen : session ∈ host.sessions)
    (isLive : host.live id) :
    id ∈ host.store.register.scopes session.root ↔ host.EndsAt session id := by
  rw [sound.endsAt_iff (sound.made id isLive), Register.mem_scopes]
  exact ⟨fun entered => (sound.right _ entered).2, sound.complete session isOpen id isLive⟩

theorem getElem?_close_of_not_endsAt (sound : host.Sound) (elsewhere : ¬host.EndsAt session id) :
    (session.close host.store).scopes[id]? = host.store.scopes[id]? := by
  have absent : id ∉ host.store.register.scopes session.root := by
    intro entered
    obtain ⟨made, belongs⟩ := sound.right _ (Register.mem_scopes.mp entered)
    exact elsewhere ((sound.endsAt_iff made).mpr belongs)
  simp [Session.close, Store.getElem?_emptied, absent]

/-- By its register a session finds all scopes that belong to it, but for those that are no longer
in use. -/
theorem getElem?_close (sound : host.Sound) (isOpen : session ∈ host.sessions)
    (used : host.EndsAt session id → host.live id) :
    (session.close host.store).scopes[id]? = host.store.scopes[id]?.map fun scope =>
      if scope.session = session.root then scope.emptied else scope := by
  simp only [Session.close, Store.getElem?_emptied]
  cases found : host.store.scopes[id]? with
  | none => rfl
  | some scope =>
      have made := (Array.getElem?_eq_some_iff.mp found).1
      have belongs : host.EndsAt session id ↔ scope.session = session.root := by
        rw [sound.endsAt_iff made, Store.sessionOf, found]
      have entered : id ∈ host.store.register.scopes session.root ↔
          scope.session = session.root := by
        rw [← belongs]
        refine ⟨fun entered => ?_, fun ends => (sound.mem_register_iff isOpen (used ends)).mpr ends⟩
        exact (sound.endsAt_iff made).mpr (sound.right _ (Register.mem_scopes.mp entered)).2
      simp only [Option.map_some, entered]

/-- The scopes around one that is in use are in use as well, and belong to the same session. -/
theorem endsAt_of_mem_chain (sound : host.Sound) (isLive : host.live id)
    (ends : host.EndsAt session id) :
    ∀ other ∈ host.store.chain id, host.live other ∧ host.EndsAt session other := by
  intro other isIn
  have made := sound.made id isLive
  have inside := sound.fenced.chainUpTo (id + 1) (.inl isLive) other isIn
  obtain ⟨chain, chained, _⟩ := sound.fenced.nested.chained made
  rw [chained.chain_eq] at isIn
  have madeOther := chained.lt_size_of_mem isIn
  refine ⟨inside.resolve_right (Nat.not_le_of_lt madeOther), ?_⟩
  rw [sound.endsAt_iff madeOther, sound.fenced.nested.sessionOf_eq_of_mem chained other isIn]
  exact (sound.endsAt_iff made).mp ends

theorem chained_close (sound : host.Sound) (session : Session)
    (made : id < host.store.scopes.size) :
    (session.close host.store).Chained id (host.store.chain id) := by
  obtain ⟨chain, chained, _⟩ := sound.fenced.nested.chained made
  rw [chained.chain_eq]
  exact chained.of_outer fun other _ => Store.map_emptied _ _ other fun _ => rfl

theorem barren_close (sound : host.Sound) (isOpen : session ∈ host.sessions)
    (isLive : host.live id) (ends : host.EndsAt session id) :
    (session.close host.store).Barren id (host.store.chain id) := by
  refine ⟨sound.chained_close session (sound.made id isLive), fun other isIn name => ?_⟩
  obtain ⟨isLive, ends⟩ := sound.endsAt_of_mem_chain isLive ends other isIn
  have entered := (sound.mem_register_iff isOpen isLive).mpr ends
  exact (host.store.binding?_emptied _ other name).trans (if_pos entered)

/-- Work outside of the scopes of the session does not bring bindings back to them. -/
theorem barren_elsewhere (sound : host.Sound) (isOpen : session ∈ host.sessions)
    (isLive : host.live id) (ends : host.EndsAt session id) {start stage : Stage}
    (elsewhere : host.Elsewhere session start) (reaches : start.Reaches stage) :
    stage.store.Barren id (host.store.chain id) := by
  have around : ∀ other ∈ host.store.chain id, host.EndsAt session other :=
    fun other isIn => (sound.endsAt_of_mem_chain isLive ends other isIn).2
  have begun : start.store.Barren id (host.store.chain id) :=
    (sound.barren_close isOpen isLive ends).of_members fun other isIn =>
      elsewhere.untouched other (around other isIn)
  obtain ⟨place, placed, made, outside⟩ := elsewhere.outside
  have frame := ((Stage.Framed.start placed made).reaches reaches).frame
  refine begun.of_members fun other isIn => ?_
  refine frame.others other (begun.chained.lt_size_of_mem isIn) ?_
  rintro rfl
  exact outside (around other isIn)

end Sound

end Host

/-- Whatever has happened, a session that ends empties exactly its own scopes, but for those that are
not in use, which nothing refers to. All scopes stay where they are, and where the chain of a scope
ends elsewhere, the scope stays as it is. A function that has captured a scope of the session
resolves, wherever it is called from then on, only its parameters, the names that its body defines,
and builtins. -/
theorem closing_empties_own_scopes {host : Host} (reached : host.Reached) {session : Session}
    (isOpen : session ∈ host.sessions) :
    let later := session.close host.store
    (∀ id, host.Referenced id → host.live id) ∧
    (∀ id, (host.EndsAt session id → host.live id) →
      later.scopes[id]? = host.store.scopes[id]?.map fun scope =>
        if scope.session = session.root then scope.emptied else scope) ∧
    (∀ id : ScopeId, later.scopes[id]?.map Scope.outer = host.store.scopes[id]?.map Scope.outer) ∧
    (∀ id, ¬host.EndsAt session id → later.scopes[id]? = host.store.scopes[id]?) ∧
    ∀ id, host.live id → host.EndsAt session id →
      later.scopes[id]?.map Scope.bindings = some [] ∧
      ∀ start, host.Elsewhere session start →
        ∀ object closure arguments now, closure.scope = id →
          start.Reaches ⟨.call (.function object closure) arguments, now⟩ →
          closure.StandsAlone ⟨.call (.function object closure) arguments, now⟩ := by
  intro later
  have sound := reached.sound
  refine ⟨fun id => sound.referenced, fun id => sound.getElem?_close isOpen,
    fun id => Store.map_emptied _ _ id fun _ => rfl, fun id => sound.getElem?_close_of_not_endsAt,
    fun id isLive ends => ⟨?_, ?_⟩⟩
  · have entered := (sound.mem_register_iff isOpen isLive).mpr ends
    simp [later, Session.close, Store.getElem?_emptied, entered,
      Array.getElem?_eq_getElem (sound.made id isLive)]
  · rintro start elsewhere object closure arguments now rfl reaches
    exact (sound.barren_elsewhere isOpen isLive ends elsewhere reaches).standsAlone object arguments

/-- `fn(a) { fn(x) { a } }(5)` gives a function that is carried to another session. When its own
session ends, nothing is left of `a`. -/
theorem closing_empties_own_scopes_carried :
    let closure : Closure := ⟨["x"], [.expr (.name "a")], 2, [0, 0, 0, 0]⟩
    ∃ host : Host, host.Reached ∧ ⟨0⟩ ∈ host.sessions ∧
      host.store.lookup 2 "a" = some (.integer 5) ∧
      (Session.close ⟨0⟩ host.store).scopes[2]?.map Scope.bindings = some [] ∧
      (Session.close ⟨0⟩ host.store).scopes[1]? = host.store.scopes[1]? ∧
      closure.StandsAlone
        ⟨.call (.function 2 closure) [.integer 1], Session.close ⟨0⟩ host.store⟩ := by
  intro closure
  let inUse? : ScopeId → Option (ScopeId → Bool) := fun _ => none
  have passes (newer id : ScopeId) (inUse : ScopeId → Bool) (asked : inUse? newer = some inUse) :
      inUse id = true := by
    cases asked
  let first := (Host.empty inUse?).started fun id => False ∨ 0 ≤ id ∧ id < 1
  let both := first.started fun id => first.live id ∨ 1 ≤ id ∧ id < 2
  let later : Store :=
    ⟨#[⟨[], none, 0⟩, ⟨[], none, 1⟩, ⟨[("a", .integer 5)], some 0, 0⟩],
      ⟨[⟨0, 2⟩, ⟨1, 1⟩, ⟨0, 0⟩], inUse?⟩, 3, "", #[.program 1, .function 1 1 2]⟩
  let ran := both.grown later fun id => both.live id ∨ 2 ≤ id ∧ id < 3
  let host := ran.defined 1 "f" (.function 2 closure)
  have begun : Host.Step (Host.empty inUse?) first := by
    have sound := Host.sound_empty inUse?
    refine .started (sound.grows_all sound.fenced.start rfl ?_ rfl passes)
    exact List.forall_mem_singleton.mpr (.inr (by decide))
  have begunBoth : Host.Step first both := by
    have sound := begun.sound (Host.sound_empty inUse?)
    refine .started (sound.grows_all sound.fenced.start rfl ?_ rfl passes)
    exact List.forall_mem_cons.mpr ⟨.inr (by decide), fun _ => .inl⟩
  have evaluated : Host.Step both ran := by
    have sound := begunBoth.sound (begun.sound (Host.sound_empty inUse?))
    have came : Evaluation.fresh 1 0 (.program ⟨[.expr (.call
        (.function ["a"] [.expr (.function ["x"] [.expr (.name "a")])]) [.integer 5])]⟩)
        ⟨#[⟨[], none, 0⟩, ⟨[], none, 1⟩], ⟨[⟨1, 1⟩, ⟨0, 0⟩], inUse?⟩, 0, "", #[]⟩ =
          .ok (.function 2 closure) later := by
      cbv
    have isLive : both.live 0 := .inl (.inr (by decide))
    refine .evaluated isLive came (sound.grows_all ?_ rfl (fun _ => .inl) rfl passes)
    exact (Evaluation.confined_fresh sound.fenced (.inl isLive) (by decide) came).2.1
  have isLive : host.live 2 := .inr (by decide)
  have carried : Host.Step ran host := by
    refine .defined "f" (.inl (.inr (by decide))) ?_
    rintro id ⟨_, captured, isPart, rfl⟩
    cases List.mem_singleton.mp isPart
    exact isLive
  have reached : host.Reached :=
    ⟨inUse?, (((Relation.ReflTransGen.single begun).tail begunBoth).tail evaluated).tail carried⟩
  have isOpen : ⟨0⟩ ∈ host.sessions := by decide
  have endsElsewhere : ¬host.EndsAt ⟨0⟩ 1 := by
    unfold Host.EndsAt
    decide
  obtain ⟨_, _, _, kept, emptied⟩ := closing_empties_own_scopes reached isOpen
  obtain ⟨empty, alone⟩ := emptied 2 isLive rfl
  -- the other session evaluates `f(1)`
  let start : Stage :=
    ⟨.expr 1 [] (.call (.name "f") [.integer 1]), Session.close ⟨0⟩ host.store⟩
  have elsewhere : host.Elsewhere ⟨0⟩ start :=
    ⟨⟨1, rfl, by decide, endsElsewhere⟩, fun _ _ => rfl⟩
  refine ⟨host, reached, isOpen, rfl, empty, kept 1 endsElsewhere, ?_⟩
  refine alone start elsewhere 2 closure [.integer 1] _ rfl ?_
  exact .single (@Stage.Leads.call _ _ _ _ _ _ _ 0 _ _ rfl rfl)

end Scriptlet
