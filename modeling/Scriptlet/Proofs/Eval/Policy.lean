import Mathlib.Data.List.Infix
import Scriptlet.Value

/-!
# Policies for code

A policy says which names and which function literals may stand where. Where code stands is its
context: it changes on the way into the body of a function, and from one statement of a list to the
next. A branch of a conditional begins with the context of the conditional, and what its statements
add to the context is forgotten behind it.

A policy looks at the text alone. What it is worth while the code runs is a matter of its
discipline.
-/
set_option autoImplicit false

namespace Scriptlet

structure Policy where
  Context : Type
  /-- The context of the body of a function with the given parameters. -/
  enter : Context → List String → Context
  /-- The context of what follows a statement in the same list. -/
  after : Context → Stmt → Context
  /-- The name may be used here. -/
  AllowsName : Context → String → Prop
  /-- The function literal may stand here. -/
  AllowsLiteral : Context → Site → List String → Block → Prop

section Obeys

variable (policy : Policy)

mutual

/-- All names and function literals of the expression, which stands at the site, are allowed. -/
def Expr.Obeys (context : policy.Context) (site : Site) : Expr → Prop
  | .name name => policy.AllowsName context name
  | .integer _ => True
  | .string _ => True
  | .boolean _ => True
  | .array items => ExprsObey context site 0 items
  | .hash pairs => PairsObey context site 0 pairs
  | .unary _ operand => operand.Obeys context (0 :: site)
  | .binary _ left right => left.Obeys context (0 :: site) ∧ right.Obeys context (1 :: site)
  | .conditional condition consequence none =>
    condition.Obeys context (0 :: site) ∧ BlockObeys context (1 :: site) 0 consequence
  | .conditional condition consequence (some alternative) =>
    condition.Obeys context (0 :: site) ∧ BlockObeys context (1 :: site) 0 consequence ∧
      BlockObeys context (2 :: site) 0 alternative
  | .function parameters body =>
    policy.AllowsLiteral context site parameters body ∧
      BlockObeys (policy.enter context parameters) site 0 body
  | .call callee arguments => callee.Obeys context (0 :: site) ∧ ExprsObey context site 1 arguments
  | .index left index => left.Obeys context (0 :: site) ∧ index.Obeys context (1 :: site)

def Stmt.Obeys (context : policy.Context) (site : Site) : Stmt → Prop
  | .define _ value => value.Obeys context site
  | .returning value => value.Obeys context site
  | .expr value => value.Obeys context site

def ExprsObey (context : policy.Context) (site : Site) (next : Nat) : List Expr → Prop
  | [] => True
  | item :: items => item.Obeys context (next :: site) ∧ ExprsObey context site (next + 1) items

def PairsObey (context : policy.Context) (site : Site) (next : Nat) :
    List (Expr × Expr) → Prop
  | [] => True
  | (key, value) :: pairs =>
    key.Obeys context (next :: site) ∧ value.Obeys context ((next + 1) :: site) ∧
      PairsObey context site (next + 2) pairs

def BlockObeys (context : policy.Context) (site : Site) (next : Nat) : List Stmt → Prop
  | [] => True
  | first :: rest =>
    first.Obeys context (next :: site) ∧
      BlockObeys (policy.after context first) site (next + 1) rest

end

variable {policy}

theorem Expr.Obeys.conditional {context : policy.Context} {site : Site} {condition : Expr}
    {consequence : Block} {alternative : Option Block}
    (obeys : (Expr.conditional condition consequence alternative).Obeys policy context site) :
    condition.Obeys policy context (0 :: site) ∧
      BlockObeys policy context (1 :: site) 0 consequence ∧
      ∀ other, alternative = some other → BlockObeys policy context (2 :: site) 0 other := by
  cases alternative with
  | none => exact ⟨obeys.1, obeys.2, nofun⟩
  | some alternative =>
      refine ⟨obeys.1, obeys.2.1, ?_⟩
      rintro _ ⟨⟩
      exact obeys.2.2

end Obeys

/-! ## The function literals of code -/

structure Literal where
  nesting : Nat
  site : Site
  parameters : List String
  body : Block

mutual

def Expr.literals (nesting : Nat) (site : Site) : Expr → List Literal
  | .name _ => []
  | .integer _ => []
  | .string _ => []
  | .boolean _ => []
  | .array items => exprsLiterals nesting site 0 items
  | .hash pairs => pairsLiterals nesting site 0 pairs
  | .unary _ operand => operand.literals nesting (0 :: site)
  | .binary _ left right => left.literals nesting (0 :: site) ++ right.literals nesting (1 :: site)
  | .conditional condition consequence none =>
    condition.literals nesting (0 :: site) ++ blockLiterals nesting (1 :: site) 0 consequence
  | .conditional condition consequence (some alternative) =>
    condition.literals nesting (0 :: site) ++
      (blockLiterals nesting (1 :: site) 0 consequence ++
        blockLiterals nesting (2 :: site) 0 alternative)
  | .function parameters body =>
    ⟨nesting, site, parameters, body⟩ :: blockLiterals (nesting + 1) site 0 body
  | .call callee arguments =>
    callee.literals nesting (0 :: site) ++ exprsLiterals nesting site 1 arguments
  | .index left index => left.literals nesting (0 :: site) ++ index.literals nesting (1 :: site)

def Stmt.literals (nesting : Nat) (site : Site) : Stmt → List Literal
  | .define _ value => value.literals nesting site
  | .returning value => value.literals nesting site
  | .expr value => value.literals nesting site

def exprsLiterals (nesting : Nat) (site : Site) (next : Nat) : List Expr → List Literal
  | [] => []
  | item :: items =>
    item.literals nesting (next :: site) ++ exprsLiterals nesting site (next + 1) items

def pairsLiterals (nesting : Nat) (site : Site) (next : Nat) : List (Expr × Expr) → List Literal
  | [] => []
  | (key, value) :: pairs =>
    key.literals nesting (next :: site) ++
      (value.literals nesting ((next + 1) :: site) ++ pairsLiterals nesting site (next + 2) pairs)

def blockLiterals (nesting : Nat) (site : Site) (next : Nat) : List Stmt → List Literal
  | [] => []
  | first :: rest =>
    first.literals nesting (next :: site) ++ blockLiterals nesting site (next + 1) rest

end

/-! ### No two function literals stand at the same site -/

namespace Literal

structure Spread (site : Site) (literals : List Literal) : Prop where
  below : ∀ literal ∈ literals, site <:+ literal.site
  apart : literals.Pairwise fun one other => one.site ≠ other.site

/-- The literals stand below those parts of a node that are numbered from `low` on, each at a site
of its own. -/
structure SpreadFrom (low : Nat) (site : Site) (literals : List Literal) : Prop where
  below : ∀ literal ∈ literals, ∃ part, low ≤ part ∧ (part :: site) <:+ literal.site
  apart : literals.Pairwise fun one other => one.site ≠ other.site

variable {site : Site} {low : Nat} {first rest : List Literal}

theorem spreadFrom_nil : SpreadFrom low site [] :=
  ⟨by simp, .nil⟩

theorem SpreadFrom.append (spreadFirst : Spread (low :: site) first)
    (spreadRest : SpreadFrom (low + 1) site rest) : SpreadFrom low site (first ++ rest) := by
  refine ⟨List.forall_mem_append.mpr ⟨fun literal isIn => ?_, fun literal isIn => ?_⟩, ?_⟩
  · exact ⟨low, le_rfl, spreadFirst.below literal isIn⟩
  · obtain ⟨part, above, below⟩ := spreadRest.below literal isIn
    exact ⟨part, (Nat.le_succ low).trans above, below⟩
  · refine List.pairwise_append.mpr ⟨spreadFirst.apart, spreadRest.apart, ?_⟩
    intro one isFirst other isRest same
    obtain ⟨part, above, below⟩ := spreadRest.below other isRest
    have belowFirst := spreadFirst.below one isFirst
    rw [same] at belowFirst
    -- two ends of the same length of one site are equal
    have equal := (List.suffix_of_suffix_length_le belowFirst below le_rfl).eq_of_length rfl
    injection equal with isPart
    omega

theorem Spread.single (spread : Spread (low :: site) first) : SpreadFrom low site first := by
  have only := SpreadFrom.append spread spreadFrom_nil
  rwa [List.append_nil] at only

theorem SpreadFrom.spread (spread : SpreadFrom low site first) : Spread site first := by
  refine ⟨fun literal isIn => ?_, spread.apart⟩
  obtain ⟨part, _, below⟩ := spread.below literal isIn
  exact (List.suffix_cons part site).trans below

theorem SpreadFrom.function (nesting : Nat) (parameters : List String) (body : Block)
    (spread : SpreadFrom low site rest) :
    Spread site (⟨nesting, site, parameters, body⟩ :: rest) := by
  refine ⟨List.forall_mem_cons.mpr ⟨List.suffix_refl site, spread.spread.below⟩, ?_⟩
  refine List.pairwise_cons.mpr ⟨fun literal isIn same => ?_, spread.apart⟩
  obtain ⟨part, _, below⟩ := spread.below literal isIn
  rw [← same] at below
  exact absurd below.length_le (Nat.not_succ_le_self _)

end Literal

section Sites

open Literal

mutual

theorem Expr.spread_literals (nesting : Nat) (site : Site) (code : Expr) :
    Spread site (code.literals nesting site) := by
  match code with
  | .name _ | .integer _ | .string _ | .boolean _ => exact ⟨by simp [Expr.literals], .nil⟩
  | .array items => exact (spread_exprsLiterals nesting site 0 items).spread
  | .hash pairs => exact (spread_pairsLiterals nesting site 0 pairs).spread
  | .unary _ operand => exact (operand.spread_literals nesting (0 :: site)).single.spread
  | .binary _ left right =>
      exact (SpreadFrom.append (left.spread_literals nesting (0 :: site))
        (right.spread_literals nesting (1 :: site)).single).spread
  | .conditional condition consequence none =>
      exact (SpreadFrom.append (condition.spread_literals nesting (0 :: site))
        (spread_blockLiterals nesting (1 :: site) 0 consequence).spread.single).spread
  | .conditional condition consequence (some alternative) =>
      exact (SpreadFrom.append (condition.spread_literals nesting (0 :: site))
        (SpreadFrom.append (spread_blockLiterals nesting (1 :: site) 0 consequence).spread
          (spread_blockLiterals nesting (2 :: site) 0 alternative).spread.single)).spread
  | .function parameters body =>
      exact (spread_blockLiterals (nesting + 1) site 0 body).function nesting parameters body
  | .call callee arguments =>
      exact (SpreadFrom.append (callee.spread_literals nesting (0 :: site))
        (spread_exprsLiterals nesting site 1 arguments)).spread
  | .index left index =>
      exact (SpreadFrom.append (left.spread_literals nesting (0 :: site))
        (index.spread_literals nesting (1 :: site)).single).spread

theorem Stmt.spread_literals (nesting : Nat) (site : Site) (code : Stmt) :
    Spread site (code.literals nesting site) := by
  match code with
  | .define _ value => exact value.spread_literals nesting site
  | .returning value => exact value.spread_literals nesting site
  | .expr value => exact value.spread_literals nesting site

theorem spread_exprsLiterals (nesting : Nat) (site : Site) (next : Nat) (items : List Expr) :
    SpreadFrom next site (exprsLiterals nesting site next items) := by
  match items with
  | [] => exact spreadFrom_nil
  | item :: items =>
      exact .append (item.spread_literals nesting (next :: site))
        (spread_exprsLiterals nesting site (next + 1) items)

theorem spread_pairsLiterals (nesting : Nat) (site : Site) (next : Nat)
    (pairs : List (Expr × Expr)) :
    SpreadFrom next site (pairsLiterals nesting site next pairs) := by
  match pairs with
  | [] => exact spreadFrom_nil
  | (key, value) :: pairs =>
      exact .append (key.spread_literals nesting (next :: site))
        (.append (value.spread_literals nesting ((next + 1) :: site))
          (spread_pairsLiterals nesting site (next + 2) pairs))

theorem spread_blockLiterals (nesting : Nat) (site : Site) (next : Nat) (code : List Stmt) :
    SpreadFrom next site (blockLiterals nesting site next code) := by
  match code with
  | [] => exact spreadFrom_nil
  | first :: rest =>
      exact .append (first.spread_literals nesting (next :: site))
        (spread_blockLiterals nesting site (next + 1) rest)

end

end Sites

/-! ### Policies on function literals -/

def Policy.onLiterals (allowed : Literal → Prop) : Policy where
  Context := Nat
  enter nesting _ := nesting + 1
  after nesting _ := nesting
  AllowsName _ _ := True
  AllowsLiteral nesting site parameters body := allowed ⟨nesting, site, parameters, body⟩

section Literals

set_option linter.unusedSectionVars false

variable {allowed : Literal → Prop}

mutual

theorem Expr.obeys_onLiterals (nesting : Nat) (site : Site) (code : Expr)
    (all : ∀ literal ∈ code.literals nesting site, allowed literal) :
    code.Obeys (.onLiterals allowed) nesting site := by
  match code with
  | .name _ | .integer _ | .string _ | .boolean _ => trivial
  | .array items => exact exprsObey_onLiterals nesting site 0 items all
  | .hash pairs => exact pairsObey_onLiterals nesting site 0 pairs all
  | .unary _ operand => exact operand.obeys_onLiterals nesting (0 :: site) all
  | .binary _ left right =>
      obtain ⟨allLeft, allRight⟩ := List.forall_mem_append.mp all
      exact ⟨left.obeys_onLiterals nesting _ allLeft, right.obeys_onLiterals nesting _ allRight⟩
  | .conditional condition consequence none =>
      obtain ⟨allCondition, allBlock⟩ := List.forall_mem_append.mp all
      exact ⟨condition.obeys_onLiterals nesting _ allCondition,
        blockObeys_onLiterals nesting _ 0 consequence allBlock⟩
  | .conditional condition consequence (some alternative) =>
      obtain ⟨allCondition, allBlocks⟩ := List.forall_mem_append.mp all
      obtain ⟨allBlock, allOther⟩ := List.forall_mem_append.mp allBlocks
      exact ⟨condition.obeys_onLiterals nesting _ allCondition,
        blockObeys_onLiterals nesting _ 0 consequence allBlock,
        blockObeys_onLiterals nesting _ 0 alternative allOther⟩
  | .function parameters body =>
      obtain ⟨first, allBody⟩ := List.forall_mem_cons.mp all
      exact ⟨first, blockObeys_onLiterals (nesting + 1) site 0 body allBody⟩
  | .call callee arguments =>
      obtain ⟨allCallee, allArguments⟩ := List.forall_mem_append.mp all
      exact ⟨callee.obeys_onLiterals nesting _ allCallee,
        exprsObey_onLiterals nesting site 1 arguments allArguments⟩
  | .index left index =>
      obtain ⟨allLeft, allIndex⟩ := List.forall_mem_append.mp all
      exact ⟨left.obeys_onLiterals nesting _ allLeft, index.obeys_onLiterals nesting _ allIndex⟩

theorem Stmt.obeys_onLiterals (nesting : Nat) (site : Site) (code : Stmt)
    (all : ∀ literal ∈ code.literals nesting site, allowed literal) :
    code.Obeys (.onLiterals allowed) nesting site := by
  match code with
  | .define _ value => exact value.obeys_onLiterals nesting site all
  | .returning value => exact value.obeys_onLiterals nesting site all
  | .expr value => exact value.obeys_onLiterals nesting site all

theorem exprsObey_onLiterals (nesting : Nat) (site : Site) (next : Nat) (items : List Expr)
    (all : ∀ literal ∈ exprsLiterals nesting site next items, allowed literal) :
    ExprsObey (.onLiterals allowed) nesting site next items := by
  match items with
  | [] => trivial
  | item :: items =>
      obtain ⟨allItem, allItems⟩ := List.forall_mem_append.mp all
      exact ⟨item.obeys_onLiterals nesting _ allItem,
        exprsObey_onLiterals nesting site (next + 1) items allItems⟩

theorem pairsObey_onLiterals (nesting : Nat) (site : Site) (next : Nat)
    (pairs : List (Expr × Expr))
    (all : ∀ literal ∈ pairsLiterals nesting site next pairs, allowed literal) :
    PairsObey (.onLiterals allowed) nesting site next pairs := by
  match pairs with
  | [] => trivial
  | (key, value) :: pairs =>
      obtain ⟨allKey, allRest⟩ := List.forall_mem_append.mp all
      obtain ⟨allValue, allPairs⟩ := List.forall_mem_append.mp allRest
      exact ⟨key.obeys_onLiterals nesting _ allKey, value.obeys_onLiterals nesting _ allValue,
        pairsObey_onLiterals nesting site (next + 2) pairs allPairs⟩

theorem blockObeys_onLiterals (nesting : Nat) (site : Site) (next : Nat) (code : List Stmt)
    (all : ∀ literal ∈ blockLiterals nesting site next code, allowed literal) :
    BlockObeys (.onLiterals allowed) nesting site next code := by
  match code with
  | [] => trivial
  | first :: rest =>
      obtain ⟨allFirst, allRest⟩ := List.forall_mem_append.mp all
      exact ⟨first.obeys_onLiterals nesting _ allFirst,
        blockObeys_onLiterals nesting site (next + 1) rest allRest⟩

end

end Literals

end Scriptlet
