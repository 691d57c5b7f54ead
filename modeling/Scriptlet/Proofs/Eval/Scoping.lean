import Scriptlet.Proofs.Eval.Chains

/-!
# Well-scoped programs never miss a name

A program is well scoped if every name in it is that of a builtin, of a parameter of a function
literal around it, or of a definition that stands before it in the same list of statements or in a
list around it. What a branch of a conditional defines counts for the rest of the branch only, and a
definition does not count in its own value.

While a well-scoped program runs, code finds all names that may be used in it along the chain of its
scope (`Discipline.scoping`): definitions before it have been carried out in one of these scopes,
and parameters are bound whether there are arguments for them or not. A function keeps what its
literal may use, since the scope it captured never loses a name.
-/
set_option autoImplicit false

namespace Scriptlet

/-! ## Well-scoped code -/

def Stmt.binds : Stmt → List String
  | .define name _ => [name]
  | .returning _ => []
  | .expr _ => []

mutual

/-- All names in the expression are builtins or known: among the given names, or introduced on the
way to where they are used. -/
def Expr.wellScoped (names : List String) : Expr → Bool
  | .name name => names.contains name || (Builtin.ofName? name).isSome
  | .integer _ => true
  | .string _ => true
  | .boolean _ => true
  | .array items => exprsScoped names items
  | .hash pairs => pairsScoped names pairs
  | .unary _ operand => operand.wellScoped names
  | .binary _ left right => left.wellScoped names && right.wellScoped names
  | .conditional condition consequence none =>
    condition.wellScoped names && blockScoped names consequence
  | .conditional condition consequence (some alternative) =>
    condition.wellScoped names && (blockScoped names consequence && blockScoped names alternative)
  | .function parameters body => blockScoped (parameters ++ names) body
  | .call callee arguments => callee.wellScoped names && exprsScoped names arguments
  | .index left index => left.wellScoped names && index.wellScoped names

def Stmt.wellScoped (names : List String) : Stmt → Bool
  | .define _ value => value.wellScoped names
  | .returning value => value.wellScoped names
  | .expr value => value.wellScoped names

def exprsScoped (names : List String) : List Expr → Bool
  | [] => true
  | item :: items => item.wellScoped names && exprsScoped names items

def pairsScoped (names : List String) : List (Expr × Expr) → Bool
  | [] => true
  | (key, value) :: pairs =>
    key.wellScoped names && (value.wellScoped names && pairsScoped names pairs)

def blockScoped (names : List String) : List Stmt → Bool
  | [] => true
  | first :: rest => first.wellScoped names && blockScoped (first.binds ++ names) rest

end

def Program.wellScoped (code : Program) : Bool :=
  blockScoped [] code.statements

def Policy.scoping : Policy where
  Context := List String
  enter names parameters := parameters ++ names
  after names code := code.binds ++ names
  AllowsName names name := name ∈ names ∨ (Builtin.ofName? name).isSome
  AllowsLiteral _ _ _ _ := True

mutual

theorem Expr.obeys_scoping {names : List String} (code : Expr) (site : Site)
    (known : code.wellScoped names = true) : code.Obeys .scoping names site := by
  match code with
  | .name name => simpa [Expr.wellScoped, Expr.Obeys, Policy.scoping] using known
  | .integer _ | .string _ | .boolean _ => trivial
  | .array items => exact exprsObey_scoping site 0 known
  | .hash pairs => exact pairsObey_scoping site 0 known
  | .unary _ operand => exact operand.obeys_scoping (0 :: site) known
  | .binary _ left right =>
      obtain ⟨knownLeft, knownRight⟩ := (Bool.and_eq_true _ _).mp known
      exact ⟨left.obeys_scoping _ knownLeft, right.obeys_scoping _ knownRight⟩
  | .conditional condition consequence none =>
      obtain ⟨knownCondition, knownBlock⟩ := (Bool.and_eq_true _ _).mp known
      exact ⟨condition.obeys_scoping _ knownCondition, blockObeys_scoping _ 0 knownBlock⟩
  | .conditional condition consequence (some alternative) =>
      obtain ⟨knownCondition, knownBlocks⟩ := (Bool.and_eq_true _ _).mp known
      obtain ⟨knownBlock, knownOther⟩ := (Bool.and_eq_true _ _).mp knownBlocks
      exact ⟨condition.obeys_scoping _ knownCondition, blockObeys_scoping _ 0 knownBlock,
        blockObeys_scoping _ 0 knownOther⟩
  | .function parameters body => exact ⟨trivial, blockObeys_scoping site 0 known⟩
  | .call callee arguments =>
      obtain ⟨knownCallee, knownArguments⟩ := (Bool.and_eq_true _ _).mp known
      exact ⟨callee.obeys_scoping _ knownCallee, exprsObey_scoping site 1 knownArguments⟩
  | .index left index =>
      obtain ⟨knownLeft, knownIndex⟩ := (Bool.and_eq_true _ _).mp known
      exact ⟨left.obeys_scoping _ knownLeft, index.obeys_scoping _ knownIndex⟩

theorem Stmt.obeys_scoping {names : List String} (code : Stmt) (site : Site)
    (known : code.wellScoped names = true) : code.Obeys .scoping names site := by
  match code with
  | .define _ value => exact value.obeys_scoping site known
  | .returning value => exact value.obeys_scoping site known
  | .expr value => exact value.obeys_scoping site known

theorem exprsObey_scoping {names : List String} (site : Site) (next : Nat) {items : List Expr}
    (known : exprsScoped names items = true) : ExprsObey .scoping names site next items := by
  match items with
  | [] => trivial
  | item :: items =>
      obtain ⟨knownItem, knownItems⟩ := (Bool.and_eq_true _ _).mp known
      exact ⟨item.obeys_scoping _ knownItem, exprsObey_scoping site (next + 1) knownItems⟩

theorem pairsObey_scoping {names : List String} (site : Site) (next : Nat)
    {pairs : List (Expr × Expr)} (known : pairsScoped names pairs = true) :
    PairsObey .scoping names site next pairs := by
  match pairs with
  | [] => trivial
  | (key, value) :: pairs =>
      obtain ⟨knownKey, knownRest⟩ := (Bool.and_eq_true _ _).mp known
      obtain ⟨knownValue, knownPairs⟩ := (Bool.and_eq_true _ _).mp knownRest
      exact ⟨key.obeys_scoping _ knownKey, value.obeys_scoping _ knownValue,
        pairsObey_scoping site (next + 2) knownPairs⟩

theorem blockObeys_scoping {names : List String} (site : Site) (next : Nat) {code : List Stmt}
    (known : blockScoped names code = true) : BlockObeys .scoping names site next code := by
  match code with
  | [] => trivial
  | first :: rest =>
      obtain ⟨knownFirst, knownRest⟩ := (Bool.and_eq_true _ _).mp known
      exact ⟨first.obeys_scoping _ knownFirst, blockObeys_scoping site (next + 1) knownRest⟩

end

/-! ## Names along a chain -/

theorem Eval.map_fst_bindArguments (parameters : List String) (arguments : List Value) :
    (bindArguments parameters arguments).map Prod.fst = parameters := by
  fun_induction bindArguments parameters arguments with
  | case1 => rfl
  | case2 name parameters ih => rw [List.map_cons, ih]
  | case3 name parameters value arguments ih => rw [List.map_cons, ih]

theorem Eval.mem_of_lookup_bindArguments {parameters : List String} {arguments : List Value}
    {name : String} (isBound : (bindArguments parameters arguments).reverse.lookup name ≠ none) :
    name ∈ parameters := by
  obtain ⟨value, found⟩ := Option.ne_none_iff_exists'.mp isBound
  obtain ⟨front, back, split, _⟩ := List.lookup_eq_some_iff.mp found
  have isIn : (name, value) ∈ bindArguments parameters arguments :=
    List.mem_reverse.mp (by simp [split])
  rw [← map_fst_bindArguments parameters arguments]
  exact List.mem_map_of_mem isIn

theorem lookup_isSome_of_mem {bindings : List (String × Value)} {name : String}
    (isIn : name ∈ bindings.map Prod.fst) : (bindings.lookup name).isSome := by
  induction bindings with
  | nil => cases isIn
  | cons binding bindings ih =>
      obtain ⟨other, value⟩ := binding
      rw [List.lookup_cons]
      split
      · rfl
      · rename_i different
        refine ih ((List.mem_cons.mp isIn).resolve_left ?_)
        rintro rfl
        simp at different

namespace Store

def Knows (store : Store) (chain : List ScopeId) (names : List String) : Prop :=
  ∀ name ∈ names, ∃ id ∈ chain, (store.binding? id name).isSome

variable {before later store : Store} {chain : List ScopeId} {names : List String}

theorem Knows.mono (knows : before.Knows chain names) (retains : before.Retains later) :
    later.Knows chain names := by
  intro name isIn
  obtain ⟨id, inChain, isBound⟩ := knows name isIn
  exact ⟨id, inChain, retains.bound id name isBound⟩

theorem Knows.enter (knows : store.Knows chain names) (outer : ScopeId) (parameters : List String)
    (arguments : List Value) :
    (store.enclose outer (Eval.bindArguments parameters arguments).reverse).2.Knows
      (store.scopes.size :: chain) (parameters ++ names) := by
  let bindings := (Eval.bindArguments parameters arguments).reverse
  refine List.forall_mem_append.mpr ⟨fun name isParameter => ?_, fun name isIn => ?_⟩
  · refine ⟨store.scopes.size, List.mem_cons_self, ?_⟩
    rw [binding?_enclose, if_pos rfl]
    refine lookup_isSome_of_mem ?_
    rw [List.map_reverse, List.mem_reverse, Eval.map_fst_bindArguments]
    exact isParameter
  · obtain ⟨id, inChain, isBound⟩ := knows name isIn
    have kept := (Retains.enclose store outer bindings).bound id name isBound
    exact ⟨id, List.mem_cons_of_mem _ inChain, kept⟩

theorem Knows.lookup_ne_none (knows : store.Knows chain names) {scope : ScopeId}
    (chained : store.Chained scope chain) {name : String} (isIn : name ∈ names) :
    store.lookup scope name ≠ none := by
  intro missed
  rw [lookup, chained.chain_eq, List.findSome?_eq_none_iff] at missed
  obtain ⟨id, inChain, isBound⟩ := knows name isIn
  rw [missed id inChain] at isBound
  cases isBound

end Store

def Discipline.scoping : Discipline where
  toPolicy := .scoping
  Hosts (names : List String) store scope :=
    ∃ chain, store.Chained scope chain ∧ store.Knows chain names
  Missing _ := False
  hosts_mono := by
    rintro names before later scope retains ⟨chain, chained, knows⟩
    exact ⟨chain, chained.mono retains, knows.mono retains⟩
  hosts_enter := by
    rintro names store outer parameters arguments ⟨chain, chained, knows⟩
    exact ⟨_, chained.enclose _, knows.enter outer parameters arguments⟩
  hosts_define := by
    rintro names store scope name code value ⟨chain, chained, knows⟩
    have retains := Store.Retains.define store scope name value
    refine ⟨chain, chained.mono retains, List.forall_mem_cons.mpr ⟨?_, knows.mono retains⟩⟩
    refine ⟨scope, chained.mem_self, ?_⟩
    rw [Store.binding?_define_eq, if_pos ⟨rfl, chained.lt_size, rfl⟩]
    rfl
  hosts_expr := fun _ hosts => hosts
  missing := by
    rintro names store scope name allowed ⟨chain, chained, knows⟩ unbound unknown
    rcases allowed with isIn | isBuiltin
    · exact knows.lookup_ne_none chained isIn unbound
    · rw [unknown] at isBuiltin
      cases isBuiltin

/-- However its functions are passed on and called, a well-scoped program in a new session does not
end with an error about a name. -/
theorem wellScoped_never_unbound (depth : Nat) (code : Program)
    (known : code.wellScoped = true) (register : Register) (issued : Nat) (output : String)
    (log : Array Event) (value : Value) (later : Store)
    (ran : Evaluation.fresh depth (Session.start ⟨#[], register, issued, output, log⟩).1.root
      (.program code) (Session.start ⟨#[], register, issued, output, log⟩).2 = .ok value later)
    (id : ObjectId) (name : String) : value ≠ .error id (.unbound name) := by
  rintro rfl
  let store := (Session.start ⟨#[], register, issued, output, log⟩).2
  have hosts : Discipline.scoping.Hosts ([] : List String) store 0 :=
    ⟨[0], .top rfl rfl, by simp [Store.Knows]⟩
  have fits : Discipline.scoping.Fits store := Discipline.fits_start rfl hosts
  obtain ⟨unit, numbered, taken, ran⟩ := Run.bind_eq_ok ran
  cases taken
  have grown : store.Retains store.issue.2 := .of_scopes rfl
  have fitsNumbered : Discipline.scoping.Fits store.issue.2 := fits.of_scopes rfl
  obtain ⟨_, _, result⟩ := fitsNumbered.program (Discipline.scoping.hosts_mono grown hosts)
    (blockObeys_scoping [issued] 0 known) ran
  rcases result with ⟨_, error, same, missing⟩ | sound
  · cases same
    exact missing name rfl
  · exact sound.self

/-- `let f = fn(x, y) { if (true) { let z = y; fn() { x + z } } }; f(1)()` finds `z`, which is
`null` for want of an argument. -/
theorem wellScoped_never_unbound_missing :
    ∃ later id,
      Evaluation.fresh 1 0 (.program ⟨[
          .define "f" (.function ["x", "y"] [.expr (.conditional (.boolean true)
            [.define "z" (.name "y"),
              .expr (.function [] [.expr (.binary .add (.name "x") (.name "z"))])] none)]),
          .expr (.call (.call (.name "f") [.integer 1]) [])]⟩) (Session.start .empty).2 =
        .ok (.error id (.mismatch .integer .add .null)) later ∧
      ∀ name, Value.error id (.mismatch .integer .add .null) ≠ .error id (.unbound name) :=
  ⟨_, _, rfl, wellScoped_never_unbound 1 ⟨[
      .define "f" (.function ["x", "y"] [.expr (.conditional (.boolean true)
        [.define "z" (.name "y"),
          .expr (.function [] [.expr (.binary .add (.name "x") (.name "z"))])] none)]),
      .expr (.call (.call (.name "f") [.integer 1]) [])]⟩ (by decide) .empty 0 "" #[] _ _ rfl _⟩

end Scriptlet
