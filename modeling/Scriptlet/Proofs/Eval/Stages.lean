import Mathlib.Logic.Relation
import Scriptlet.Proofs.Eval.Discipline
import Scriptlet.Proofs.Eval.Frame

/-!
# The stages of an evaluation

An evaluation comes by many stores before it ends, and some evaluations do not end at all. A stage
is a piece of work together with the store in which it is taken up; `Stage.Leads` goes from a piece
of work to those that it consists of, in the order in which they are taken up: each of them needs
that the ones before it have come to a value, and begins with the store that they left. A call leads
to the body of the function.

Every store that an evaluation comes by is one in which some piece of work begins or ends. So what
holds of all stages and of their ends holds throughout the evaluation, however deep the calls are
and whether or not it ends.
-/
set_option autoImplicit false

namespace Scriptlet

inductive Task where
  | expr (scope : ScopeId) (site : Site) (code : Expr)
  | stmt (scope : ScopeId) (site : Site) (code : Stmt)
  | exprs (scope : ScopeId) (site : Site) (next : Nat) (items : List Expr)
  | entries (scope : ScopeId) (site : Site) (next : Nat) (table : Table Value)
    (pairs : List (Expr × Expr))
  | block (scope : ScopeId) (site : Site) (next : Nat) (last : Value) (code : List Stmt)
  | call (callee : Value) (arguments : List Value)

def Task.run (depth : Nat) : Task → Eval (List Value)
  | .expr scope site code => do
    let value ← Eval.expr (Eval.apply depth) scope site code
    return [value]
  | .stmt scope site code => do
    let value ← Eval.stmt (Eval.apply depth) scope site code
    return [value]
  | .exprs scope site next items => Eval.exprs (Eval.apply depth) scope site next items
  | .entries scope site next table pairs => do
    let table ← Eval.entries (Eval.apply depth) scope site next table pairs
    return table.entries.flatMap fun entry => [entry.shown, entry.value]
  | .block scope site next last code => do
    let value ← Eval.block (Eval.apply depth) scope site next last code
    return [value]
  | .call callee arguments => do
    let value ← Eval.apply depth callee arguments
    return [value]

structure Stage where
  task : Task
  store : Store

namespace Stage

inductive Leads : Stage → Stage → Prop
  | items {scope : ScopeId} {site : Site} {items : List Expr} {store : Store} :
      Leads ⟨.expr scope site (.array items), store⟩ ⟨.exprs scope site 0 items, store⟩
  | pairs {scope : ScopeId} {site : Site} {pairs : List (Expr × Expr)} {store : Store} :
      Leads ⟨.expr scope site (.hash pairs), store⟩ ⟨.entries scope site 0 .empty pairs, store⟩
  | operand {scope : ScopeId} {site : Site} {op : UnaryOp} {operand : Expr} {store : Store} :
      Leads ⟨.expr scope site (.unary op operand), store⟩ ⟨.expr scope (0 :: site) operand, store⟩
  | left {scope : ScopeId} {site : Site} {op : BinaryOp} {left right : Expr} {store : Store} :
      Leads ⟨.expr scope site (.binary op left right), store⟩ ⟨.expr scope (0 :: site) left, store⟩
  | right {scope : ScopeId} {site : Site} {op : BinaryOp} {left right : Expr}
      {store later : Store} {depth : Nat} {value : Value}
      (ran : Eval.expr (Eval.apply depth) scope (0 :: site) left store = .ok value later) :
      Leads ⟨.expr scope site (.binary op left right), store⟩
        ⟨.expr scope (1 :: site) right, later⟩
  | condition {scope : ScopeId} {site : Site} {condition : Expr} {consequence : Block}
      {alternative : Option Block} {store : Store} :
      Leads ⟨.expr scope site (.conditional condition consequence alternative), store⟩
        ⟨.expr scope (0 :: site) condition, store⟩
  | consequence {scope : ScopeId} {site : Site} {condition : Expr} {consequence : Block}
      {alternative : Option Block} {store later : Store} {depth : Nat} {value : Value}
      (ran : Eval.expr (Eval.apply depth) scope (0 :: site) condition store = .ok value later)
      (truthy : value.isTruthy = true) :
      Leads ⟨.expr scope site (.conditional condition consequence alternative), store⟩
        ⟨.block scope (1 :: site) 0 .null consequence, later⟩
  | alternative {scope : ScopeId} {site : Site} {condition : Expr}
      {consequence alternative : Block} {store later : Store} {depth : Nat} {value : Value}
      (ran : Eval.expr (Eval.apply depth) scope (0 :: site) condition store = .ok value later)
      (falsy : value.isTruthy = false) :
      Leads ⟨.expr scope site (.conditional condition consequence (some alternative)), store⟩
        ⟨.block scope (2 :: site) 0 .null alternative, later⟩
  | callee {scope : ScopeId} {site : Site} {callee : Expr} {arguments : List Expr}
      {store : Store} :
      Leads ⟨.expr scope site (.call callee arguments), store⟩
        ⟨.expr scope (0 :: site) callee, store⟩
  | arguments {scope : ScopeId} {site : Site} {callee : Expr} {arguments : List Expr}
      {store later : Store} {depth : Nat} {value : Value}
      (ran : Eval.expr (Eval.apply depth) scope (0 :: site) callee store = .ok value later) :
      Leads ⟨.expr scope site (.call callee arguments), store⟩
        ⟨.exprs scope site 1 arguments, later⟩
  | call {scope : ScopeId} {site : Site} {callee : Expr} {arguments : List Expr}
      {store middle later : Store} {depth : Nat} {value : Value} {values : List Value}
      (ran : Eval.expr (Eval.apply depth) scope (0 :: site) callee store = .ok value middle)
      (ranAll : Eval.exprs (Eval.apply depth) scope site 1 arguments middle = .ok values later) :
      Leads ⟨.expr scope site (.call callee arguments), store⟩ ⟨.call value values, later⟩
  | indexed {scope : ScopeId} {site : Site} {left index : Expr} {store : Store} :
      Leads ⟨.expr scope site (.index left index), store⟩ ⟨.expr scope (0 :: site) left, store⟩
  | index {scope : ScopeId} {site : Site} {left index : Expr} {store later : Store} {depth : Nat}
      {value : Value}
      (ran : Eval.expr (Eval.apply depth) scope (0 :: site) left store = .ok value later) :
      Leads ⟨.expr scope site (.index left index), store⟩ ⟨.expr scope (1 :: site) index, later⟩
  | value {scope : ScopeId} {site : Site} {code : Stmt} {store : Store} :
      Leads ⟨.stmt scope site code, store⟩ ⟨.expr scope site code.value, store⟩
  | item {scope : ScopeId} {site : Site} {next : Nat} {item : Expr} {items : List Expr}
      {store : Store} :
      Leads ⟨.exprs scope site next (item :: items), store⟩ ⟨.expr scope (next :: site) item, store⟩
  | otherItems {scope : ScopeId} {site : Site} {next : Nat} {item : Expr} {items : List Expr}
      {store later : Store} {depth : Nat} {value : Value}
      (ran : Eval.expr (Eval.apply depth) scope (next :: site) item store = .ok value later) :
      Leads ⟨.exprs scope site next (item :: items), store⟩
        ⟨.exprs scope site (next + 1) items, later⟩
  | key {scope : ScopeId} {site : Site} {next : Nat} {table : Table Value} {key value : Expr}
      {pairs : List (Expr × Expr)} {store : Store} :
      Leads ⟨.entries scope site next table ((key, value) :: pairs), store⟩
        ⟨.expr scope (next :: site) key, store⟩
  | stored {scope : ScopeId} {site : Site} {next : Nat} {table : Table Value} {key value : Expr}
      {pairs : List (Expr × Expr)} {store later : Store} {depth : Nat} {shown : Value} {known : Key}
      (ran : Eval.expr (Eval.apply depth) scope (next :: site) key store = .ok shown later)
      (isKey : shown.key = .ok known) :
      Leads ⟨.entries scope site next table ((key, value) :: pairs), store⟩
        ⟨.expr scope ((next + 1) :: site) value, later⟩
  | otherPairs {scope : ScopeId} {site : Site} {next : Nat} {table : Table Value}
      {key value : Expr} {pairs : List (Expr × Expr)} {store middle later : Store} {depth : Nat}
      {shown found : Value} {known : Key}
      (ran : Eval.expr (Eval.apply depth) scope (next :: site) key store = .ok shown middle)
      (isKey : shown.key = .ok known)
      (ranValue : Eval.expr (Eval.apply depth) scope ((next + 1) :: site) value middle =
        .ok found later) :
      Leads ⟨.entries scope site next table ((key, value) :: pairs), store⟩
        ⟨.entries scope site (next + 2) (table.insert known shown found) pairs, later⟩
  | first {scope : ScopeId} {site : Site} {next : Nat} {last : Value} {first : Stmt}
      {rest : List Stmt} {store : Store} :
      Leads ⟨.block scope site next last (first :: rest), store⟩
        ⟨.stmt scope (next :: site) first, store⟩
  | rest {scope : ScopeId} {site : Site} {next : Nat} {last : Value} {first : Stmt}
      {rest : List Stmt} {store later : Store} {depth : Nat} {value : Value}
      (ran : Eval.stmt (Eval.apply depth) scope (next :: site) first store = .ok value later) :
      Leads ⟨.block scope site next last (first :: rest), store⟩
        ⟨.block scope site (next + 1) value rest, later⟩
  | body {id : ObjectId} {closure : Closure} {arguments : List Value} {store fresh : Store}
      (enclosed : fresh = (store.enclose closure.scope
        (Eval.bindArguments closure.parameters arguments).reverse).2) :
      Leads ⟨.call (.function id closure) arguments, store⟩
        ⟨.block store.scopes.size closure.site 0 .null closure.body,
          fresh.note (.function closure.parameters.length arguments.length
            (fresh.depth store.scopes.size))⟩

def Reaches : Stage → Stage → Prop :=
  Relation.ReflTransGen Leads

end Stage

/-! ## Disciplines on the way -/

namespace Discipline

variable (discipline : Discipline)

def Assigns (store : Store) : Task → Prop
  | .expr scope site code =>
    ∃ context, discipline.Hosts context store scope ∧ code.Obeys discipline.toPolicy context site
  | .stmt scope site code =>
    ∃ context, discipline.Hosts context store scope ∧ code.Obeys discipline.toPolicy context site
  | .exprs scope site next items =>
    ∃ context, discipline.Hosts context store scope ∧
      ExprsObey discipline.toPolicy context site next items
  | .entries scope site next table pairs =>
    discipline.SoundTable store table ∧ ∃ context, discipline.Hosts context store scope ∧
      PairsObey discipline.toPolicy context site next pairs
  | .block scope site next last code =>
    discipline.Sound store last ∧ ∃ context, discipline.Hosts context store scope ∧
      BlockObeys discipline.toPolicy context site next code
  | .call callee arguments =>
    discipline.Sound store callee ∧ discipline.SoundAll store arguments

def FitsStage (stage : Stage) : Prop :=
  discipline.Fits stage.store ∧ discipline.Assigns stage.store stage.task

variable {discipline} {stage later : Stage}

theorem soundAll_singleton {store : Store} {value : Value} (sound : discipline.Sound store value) :
    discipline.SoundAll store [value] :=
  List.forall_mem_singleton.mpr sound

theorem SoundTable.soundAll {store : Store} {table : Table Value}
    (sound : discipline.SoundTable store table) :
    discipline.SoundAll store (table.entries.flatMap fun entry => [entry.shown, entry.value]) := by
  intro value isIn
  obtain ⟨entry, known, isIn⟩ := List.mem_flatMap.mp isIn
  simp only [List.mem_cons, List.not_mem_nil, or_false] at isIn
  rcases isIn with rfl | rfl
  · exact (sound entry known).1
  · exact (sound entry known).2

theorem Yields.single {before : Store} {run : Eval Value} {good : Store → Value → Prop}
    (yields : discipline.Yields good before run)
    (sound : ∀ later value, good later value → discipline.Sound later value) :
    discipline.Yields discipline.SoundAll before (run >>= fun value => Pure.pure [value]) := by
  refine yields.bind fun later value _ isGood => .pure fun last retains => ?_
  exact (soundAll_singleton (sound later value isGood)).mono retains

/-- Work in good order ends in good order. -/
theorem FitsStage.yields (fits : discipline.FitsStage stage) (depth : Nat) :
    discipline.Yields discipline.SoundAll stage.store (stage.task.run depth) := by
  obtain ⟨task, store⟩ := stage
  obtain ⟨_, assigns⟩ := fits
  cases task with
  | expr scope site code =>
      obtain ⟨context, hosts, obeys⟩ := assigns
      exact (Yields.expr (.apply depth) hosts site code obeys).single fun _ _ sound => sound
  | stmt scope site code =>
      obtain ⟨context, hosts, obeys⟩ := assigns
      exact (Yields.stmt (.apply depth) hosts site code obeys).single fun _ _ sound => sound.1
  | exprs scope site next items =>
      obtain ⟨context, hosts, obey⟩ := assigns
      exact Yields.exprs (.apply depth) hosts site next items obey
  | entries scope site next table pairs =>
      obtain ⟨sound, context, hosts, obey⟩ := assigns
      refine (Yields.entries (.apply depth) hosts site next table sound pairs obey).bind ?_
      exact fun later table _ sound => .pure fun last retains => sound.soundAll.mono retains
  | block scope site next last code =>
      obtain ⟨sound, context, hosts, obeys⟩ := assigns
      exact (Yields.block (.apply depth) hosts site next last sound code obeys).single
        fun _ _ sound => sound
  | call callee arguments =>
      exact (Yields.apply depth assigns.1 assigns.2).single fun _ _ sound => sound

theorem Fits.expr {store later : Store} (fits : discipline.Fits store)
    {context : discipline.Context} {scope : ScopeId}
    (hosts : discipline.Hosts context store scope) {site : Site} {code : Expr}
    (obeys : code.Obeys discipline.toPolicy context site) {depth : Nat} {value : Value}
    (ran : Eval.expr (Eval.apply depth) scope site code store = .ok value later) :
    store.Retains later ∧ discipline.Fits later ∧ discipline.Sound later value ∧
      discipline.Hosts context later scope := by
  have yields : discipline.Yields _ store _ := .expr (.apply depth) hosts site code obeys
  obtain ⟨retains, fits, sound⟩ := yields.of_ok fits ran
  exact ⟨retains, fits, sound, discipline.hosts_mono retains hosts⟩

/-- Good order goes over from a stage to those it leads to. -/
theorem FitsStage.leads (fits : discipline.FitsStage stage) (leads : stage.Leads later) :
    stage.store.Retains later.store ∧ discipline.FitsStage later := by
  obtain ⟨fits, assigns⟩ := fits
  cases leads with
  | items => exact ⟨.refl _, fits, assigns⟩
  | pairs => exact ⟨.refl _, fits, Table.all_empty, assigns⟩
  | operand => exact ⟨.refl _, fits, assigns⟩
  | left | callee | indexed | item =>
      obtain ⟨context, hosts, obeys, _⟩ := assigns
      exact ⟨.refl _, fits, context, hosts, obeys⟩
  | right ran | arguments ran | index ran | otherItems ran =>
      obtain ⟨context, hosts, obeys, obeysNext⟩ := assigns
      obtain ⟨retains, fits, _, hosts⟩ := fits.expr hosts obeys ran
      exact ⟨retains, fits, context, hosts, obeysNext⟩
  | condition =>
      obtain ⟨context, hosts, obeys⟩ := assigns
      exact ⟨.refl _, fits, context, hosts, obeys.conditional.1⟩
  | consequence ran =>
      obtain ⟨context, hosts, obeys⟩ := assigns
      obtain ⟨obeys, obeysBlock, _⟩ := obeys.conditional
      obtain ⟨retains, fits, _, hosts⟩ := fits.expr hosts obeys ran
      exact ⟨retains, fits, sound_plain _ rfl, context, hosts, obeysBlock⟩
  | alternative ran =>
      obtain ⟨context, hosts, obeys⟩ := assigns
      obtain ⟨obeys, _, obeysOther⟩ := obeys.conditional
      obtain ⟨retains, fits, _, hosts⟩ := fits.expr hosts obeys ran
      exact ⟨retains, fits, sound_plain _ rfl, context, hosts, obeysOther _ rfl⟩
  | @call scope site _ arguments _ _ _ depth _ _ ran ranAll =>
      obtain ⟨context, hosts, obeys, obeyAll⟩ := assigns
      obtain ⟨retains, fits, sound, hosts⟩ := fits.expr hosts obeys ran
      have yields : discipline.Yields _ _ _ := .exprs (.apply depth) hosts site 1 arguments obeyAll
      obtain ⟨retainsMore, fits, soundAll⟩ := yields.of_ok fits ranAll
      exact ⟨retains.trans retainsMore, fits, sound.mono retainsMore, soundAll⟩
  | @value _ _ code _ =>
      obtain ⟨context, hosts, obeys⟩ := assigns
      cases code <;> exact ⟨.refl _, fits, context, hosts, obeys⟩
  | key | first =>
      obtain ⟨_, context, hosts, obeys, _⟩ := assigns
      exact ⟨.refl _, fits, context, hosts, obeys⟩
  | stored ran =>
      obtain ⟨_, context, hosts, obeys, obeysValue, _⟩ := assigns
      obtain ⟨retains, fits, _, hosts⟩ := fits.expr hosts obeys ran
      exact ⟨retains, fits, context, hosts, obeysValue⟩
  | otherPairs ran isKey ranValue =>
      obtain ⟨soundTable, context, hosts, obeys, obeysValue, obeyRest⟩ := assigns
      obtain ⟨retains, fits, soundKey, hosts⟩ := fits.expr hosts obeys ran
      obtain ⟨retainsMore, fits, soundValue, hosts⟩ := fits.expr hosts obeysValue ranValue
      refine ⟨retains.trans retainsMore, fits, ?_, context, hosts, obeyRest⟩
      exact Table.All.insert (soundTable.mono (retains.trans retainsMore)) _
        (soundKey.mono retainsMore) soundValue
  | @rest _ site next _ first _ _ _ depth _ ran =>
      obtain ⟨_, context, hosts, obeys, obeysRest⟩ := assigns
      have yields : discipline.Yields _ _ _ :=
        .stmt (.apply depth) hosts (next :: site) first obeys
      obtain ⟨retains, fits, sound, hosts⟩ := yields.of_ok fits ran
      exact ⟨retains, fits, sound, _, hosts, obeysRest⟩
  | @body _ closure arguments store fresh enclosed =>
      obtain ⟨sound, soundAll⟩ := assigns
      obtain ⟨context, _, obeys, hosts⟩ := sound.self
      have inside := fits.enclose hosts closure.parameters soundAll
      have enters := discipline.hosts_enter closure.parameters arguments hosts
      have grown := Store.Retains.enclose store closure.scope
        (Eval.bindArguments closure.parameters arguments).reverse
      rw [← enclosed] at inside enters grown
      have noted : fresh.Retains (fresh.note (.function closure.parameters.length arguments.length
          (fresh.depth store.scopes.size))) := .of_scopes rfl
      exact ⟨grown.trans noted, inside.of_scopes rfl, sound_plain _ rfl, _,
        discipline.hosts_mono noted enters, obeys⟩

/-- Good order goes over to every stage that is reached. -/
theorem FitsStage.reaches (fits : discipline.FitsStage stage) (reaches : stage.Reaches later) :
    stage.store.Retains later.store ∧ discipline.FitsStage later := by
  induction reaches with
  | refl => exact ⟨.refl _, fits⟩
  | tail _ leads ih =>
      obtain ⟨retains, fits⟩ := ih
      obtain ⟨retainsMore, fits⟩ := fits.leads leads
      exact ⟨retains.trans retainsMore, fits⟩

end Discipline

/-! ## Frames on the way -/

/-- The scope in which the work is done. A call has one made for it. -/
def Task.scope? : Task → Option ScopeId
  | .expr scope _ _ => some scope
  | .stmt scope _ _ => some scope
  | .exprs scope _ _ _ => some scope
  | .entries scope _ _ _ _ => some scope
  | .block scope _ _ _ _ => some scope
  | .call _ _ => none

def Task.defines : Task → List String
  | .expr _ _ code => code.defines
  | .stmt _ _ code => code.defines
  | .exprs _ _ _ items => exprsDefine items
  | .entries _ _ _ _ pairs => pairsDefine pairs
  | .block _ _ _ _ code => stmtsDefine code
  | .call _ _ => []

namespace Stage

/-- Since `before` only the given names of the scope were written to. The work that comes next is
done in the same scope and defines none but these names, or it is done in a scope that is new. -/
structure Framed (before : Store) (scope : ScopeId) (names : List String) (stage : Stage) :
    Prop where
  made : scope < before.scopes.size
  frame : before.Frame scope names stage.store
  works : ∀ place, stage.task.scope? = some place → place < stage.store.scopes.size ∧
    (place < before.scopes.size → place = scope ∧ stage.task.defines ⊆ names)

namespace Framed

variable {before after : Store} {scope place : ScopeId} {names : List String} {stage later : Stage}

theorem start (placed : stage.task.scope? = some scope) (made : scope < stage.store.scopes.size) :
    stage.Framed stage.store scope stage.task.defines := by
  refine ⟨made, (Store.Untouched.refl stage.store).frame made, fun place isPlace => ?_⟩
  cases placed.symm.trans isPlace
  exact ⟨made, fun _ => ⟨rfl, List.Subset.refl _⟩⟩

theorem ran {α : Type} {run : Eval α} {value : α} (framed : stage.Framed before scope names)
    (placed : stage.task.scope? = some place) (runs : Eval.Framed place stage.task.defines run)
    (ends : run stage.store = .ok value after) :
    Framed before scope names ⟨stage.task, after⟩ := by
  obtain ⟨inside, own⟩ := framed.works place placed
  have next := runs stage.store after inside (by rw [ends]; rfl)
  refine ⟨framed.made, ?_, fun other isPlace => ?_⟩
  · by_cases old : place < before.scopes.size
    · obtain ⟨rfl, within⟩ := own old
      exact framed.frame.trans (next.mono within)
    · exact framed.frame.apart framed.made (Nat.le_of_not_lt old) next
  · cases placed.symm.trans isPlace
    exact ⟨inside.trans_le next.size, own⟩

theorem ranExpr (framed : stage.Framed before scope names)
    (placed : stage.task.scope? = some place) {depth : Nat} {site : Site} {code : Expr}
    {value : Value} (within : code.defines ⊆ stage.task.defines)
    (ran : Eval.expr (Eval.apply depth) place site code stage.store = .ok value after) :
    Framed before scope names ⟨stage.task, after⟩ :=
  framed.ran placed (Eval.framed_expr (Eval.quiet_apply depth) site code within) ran

theorem next (framed : stage.Framed before scope names) {task : Task}
    (same : task.scope? = stage.task.scope?) (fewer : task.defines ⊆ stage.task.defines) :
    Framed before scope names ⟨task, stage.store⟩ := by
  refine ⟨framed.made, framed.frame, fun place placed => ?_⟩
  obtain ⟨inside, own⟩ := framed.works place (same ▸ placed)
  exact ⟨inside, fun old => ⟨(own old).1, List.Subset.trans fewer (own old).2⟩⟩

/-- A step leads to work in the same scope, or to a call, whose body has a new scope. -/
theorem leads (framed : stage.Framed before scope names) (leads : stage.Leads later) :
    later.Framed before scope names := by
  cases leads with
  | items | pairs | operand => exact framed.next rfl (List.Subset.refl _)
  | left | callee | indexed | item | key | first =>
      exact framed.next rfl (List.subset_append_left _ _)
  | right ran | arguments ran | index ran | otherItems ran =>
      have begun := framed.ranExpr rfl (List.subset_append_left _ _) ran
      exact begun.next rfl (List.subset_append_right _ _)
  | @condition _ _ _ _ alternative =>
      refine framed.next rfl ?_
      cases alternative <;> exact List.subset_append_left _ _
  | @consequence _ _ _ _ alternative _ _ _ _ ran =>
      have begun := framed.ranExpr rfl
        (by cases alternative <;> exact List.subset_append_left _ _) ran
      refine begun.next rfl ?_
      cases alternative <;> simp [Task.defines, Expr.defines]
  | alternative ran =>
      have begun := framed.ranExpr rfl (List.subset_append_left _ _) ran
      exact begun.next rfl (by simp [Task.defines, Expr.defines])
  | @call _ site _ arguments _ _ _ depth _ _ ran ranAll =>
      have begun := framed.ranExpr rfl (List.subset_append_left _ _) ran
      have called := begun.ran rfl (Eval.framed_exprs (Eval.quiet_apply depth) site 1 arguments
        (List.subset_append_right _ _)) ranAll
      exact ⟨framed.made, called.frame, nofun⟩
  | @value _ _ code =>
      refine framed.next rfl ?_
      cases code with
      | define name value => exact List.subset_cons_self name _
      | returning value | expr value => exact List.Subset.refl _
  | stored ran =>
      have begun := framed.ranExpr rfl (List.subset_append_left _ _) ran
      exact begun.next rfl (by simp [Task.defines, pairsDefine])
  | otherPairs ran _ ranValue =>
      have begun := framed.ranExpr rfl (List.subset_append_left _ _) ran
      have stored := begun.ranExpr rfl (by simp [Task.defines, pairsDefine]) ranValue
      exact stored.next rfl (by simp [Task.defines, pairsDefine])
  | @rest _ site next _ first _ _ _ depth _ ran =>
      have begun := framed.ran rfl (Eval.framed_stmt (Eval.quiet_apply depth) (next :: site) first
        (List.subset_append_left _ _)) ran
      exact begun.next rfl (List.subset_append_right _ _)
  | @body _ closure arguments store fresh enclosed =>
      have size := framed.frame.size
      have added : store.Untouched fresh := enclosed ▸ store.untouched_enclose closure.scope _
      have noted := fresh.untouched_note (.function closure.parameters.length arguments.length
        (fresh.depth store.scopes.size))
      refine ⟨framed.made, framed.frame.trans ?_, fun place placed => ?_⟩
      · exact (added.trans noted).frame (framed.made.trans_le size)
      · cases placed
        refine ⟨?_, fun old => absurd size (Nat.not_le_of_lt old)⟩
        simp [enclosed, Store.enclose, Store.note]

theorem reaches (framed : stage.Framed before scope names) (reaches : stage.Reaches later) :
    later.Framed before scope names := by
  induction reaches with
  | refl => exact framed
  | tail _ leads ih => exact ih.leads leads

end Framed

end Stage

end Scriptlet
