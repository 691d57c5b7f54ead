import Mathlib
import Scriptlet.Proofs.Eval.Walks
import Scriptlet.Proofs.Execution.Lines

/-!
# Map and reduce

A program in the language that defines `map` and `reduce` for arrays, and with them `double` and
`sum`. Both walk over the array. For `map` the state of the walk is the array of the images so far
(`takes_map`), for `reduce` it is what the elements so far combine to (`takes_reduce`). Both are
right for every function that is passed to them and takes all elements.

The main statement is about the program as a source text that is evaluated in a session, and about
`map` with `double` and then `sum` on a list of integers of any length.
-/
set_option autoImplicit false

namespace Scriptlet.MapReduce

open Eval

def definitions : String :=
  String.join [
    "let map = fn(arr, f) \x7b\n",
    "    let iter = fn(arr, accumulated) \x7b\n",
    "        if (len(arr) == 0) \x7b\n",
    "            accumulated\n",
    "        \x7d else \x7b\n",
    "            iter(rest(arr), push(accumulated, f(first(arr))));\n",
    "        \x7d\n",
    "    \x7d;\n",
    "    iter(arr, []);\n",
    "\x7d;\n",
    "\n",
    "let reduce = fn(arr, initial, f) \x7b\n",
    "    let iter = fn(arr, result) \x7b\n",
    "        if (len(arr) == 0) \x7b\n",
    "            result\n",
    "        \x7d else \x7b\n",
    "            iter(rest(arr), f(result, first(arr)));\n",
    "        \x7d\n",
    "    \x7d;\n",
    "    iter(arr, initial);\n",
    "\x7d;\n",
    "\n",
    "let double = fn(x) \x7b x * 2 \x7d;\n",
    "let sum = fn(arr) \x7b reduce(arr, 0, fn(total, x) \x7b total + x \x7d) \x7d;\n"]

/-! ## The code -/

def mapStep : Expr :=
  .call (.name "push") [.name "accumulated",
    .call (.name "f") [.call (.name "first") [.name "arr"]]]

def mapBody : Block :=
  walk "accumulated" mapStep (.array [])

def reduceStep : Expr :=
  .call (.name "f") [.name "result", .call (.name "first") [.name "arr"]]

def reduceBody : Block :=
  walk "result" reduceStep (.name "initial")

def doubleBody : Block :=
  [.expr (.binary .multiply (.name "x") (.integer 2))]

def addBody : Block :=
  [.expr (.binary .add (.name "total") (.name "x"))]

def sumBody : Block :=
  [.expr (.call (.name "reduce") [.name "arr", .integer 0, .function ["total", "x"] addBody])]

def code : Program :=
  ⟨[.define "map" (.function ["arr", "f"] mapBody),
    .define "reduce" (.function ["arr", "initial", "f"] reduceBody),
    .define "double" (.function ["x"] doubleBody),
    .define "sum" (.function ["arr"] sumBody)]⟩

set_option maxRecDepth 8000 in
theorem parse_definitions : parse definitions = .ok code := by
  rw [parse, read, readWith, tokens, Lexer.ofSource]
  simp only [definitions, String.join_cons, String.join_nil, String.toList_append,
    String.reduceToList]
  cbv

theorem parse_map : parse "map(xs, double)" =
    .ok ⟨[.expr (.call (.name "map") [.name "xs", .name "double"])]⟩ := by
  rw [parse, read, readWith, tokens, Lexer.ofSource]
  simp only [String.reduceToList]
  cbv

theorem parse_sum : parse "sum(map(xs, double))" =
    .ok ⟨[.expr (.call (.name "sum") [.call (.name "map") [.name "xs", .name "double"]])]⟩ := by
  rw [parse, read, readWith, tokens, Lexer.ofSource]
  simp only [String.reduceToList]
  cbv

variable {before : Store} {home : ScopeId} {bindings : List (String × Value)} {site : Site}
  {id : ObjectId} {least : Nat}

/-! ## Map -/

section Map

variable {α : Type} {item image : α → Value} {list : List α} {f : Value}

/-- Some elements are done, and the state is the array of their images. The others are ahead. -/
def Mapped (item image : α → Value) (list : List α) (elements : List Value) (total : Value) :
    Prop :=
  ∃ (done ahead : List α) (array : ObjectId), done ++ ahead = list ∧ elements = ahead.map item ∧
    total = .array array (done.map image)

/-- `push(accumulated, f(first(arr)))` -/
theorem comesTo_mapStep {own : ScopeId} {array : ObjectId} {first total : Value}
    {others : List Value} {place : Site} {depth : Nat}
    (takes : ∀ element, Takes before (least + 1) f [item element] (· = image element))
    (walking : Walking before own bindings "accumulated" array (first :: others) total)
    (found : bindings.lookup "f" = some f) (deep : least < depth)
    (mapped : Mapped item image list (first :: others) total) :
    ComesTo before (expr (apply depth) own place mapStep) (Mapped item image list others) := by
  obtain ⟨done, ahead, object, rfl, same, rfl⟩ := mapped
  obtain ⟨element, rest, rfl, rfl, rfl⟩ := List.map_eq_cons_iff.mp same.symm
  have applied : ComesTo before (expr (apply depth) own (2 :: place)
      (.call (.name "f") [.call (.name "first") [.name "arr"]])) (· = image element) := by
    refine comesTo_call (walking.lookup_name (by decide) (by decide) found) (comesTo_exprs_cons
      (walking.comesTo_ahead .first comesTo_first) comesTo_exprs_nil) ?_ deep
    rintro _ ⟨_, _, rfl, rfl, rfl⟩
    exact takes element
  refine comesTo_call_builtin .push walking.shows (walking.lookup_builtin .push)
    (comesTo_exprs_cons walking.lookup_state (comesTo_exprs_cons applied comesTo_exprs_nil)) ?_
  rintro _ ⟨_, _, rfl, ⟨_, _, rfl, rfl, rfl⟩, rfl⟩
  refine comesTo_push.mono ?_
  rintro _ ⟨object, rfl⟩
  exact ⟨done ++ [element], rest, object, (List.append_cons done element rest).symm, rfl,
    by simp⟩

/-- `map` comes to the array of the images. -/
theorem takes_map (shows : before.Shows home bindings) (free : NoBuiltin bindings)
    (takes : ∀ element, Takes before (least + 1) f [item element] (· = image element))
    (short : list.length < 2 ^ 64) (array : ObjectId) :
    Takes before (list.length + least + 2) (.function id ⟨["arr", "f"], mapBody, home, site⟩)
      [.array array (list.map item), f]
      fun value => ∃ array, value = .array array (list.map image) := by
  have seen : NoBuiltin (("f", f) :: ("arr", .array array (list.map item)) :: bindings) :=
    (free.cons rfl _).cons rfl _
  have walks : Takes before ((list.map item).length + least + 2)
      (.function id ⟨["arr", "f"], mapBody, home, site⟩) [.array array (list.map item), f]
      (Mapped item image list []) := by
    refine takes_walk shows seen rfl rfl ⟨by decide, by decide, rfl⟩ ?_ ?_ (by simpa)
    · intro later own function call place _
      refine (comesTo_array comesTo_exprs_nil).mono ?_
      rintro _ ⟨object, _, rfl, rfl⟩
      exact ⟨[], list, object, rfl, rfl, rfl⟩
    · intro function later own array first others total place depth untouched walking deep mapped
      exact comesTo_mapStep (fun element => (takes element).untouched untouched) walking rfl deep
        mapped
  rw [List.length_map] at walks
  refine walks.mono ?_
  rintro _ ⟨done, ahead, object, whole, none, rfl⟩
  obtain rfl : ahead = [] := List.map_eq_nil_iff.mp none.symm
  rw [List.append_nil] at whole
  exact ⟨object, by rw [whole]⟩

end Map

/-! ## Reduce -/

section Reduce

variable {α β : Type} {item : α → Value} {value : β → Value} {combine : β → α → β} {list : List α}
  {initial : β} {f : Value}

/-- The state is what the elements so far combine to, so that the ones ahead lead from it to the
result. -/
def Reduced (item : α → Value) (value : β → Value) (combine : β → α → β) (list : List α)
    (initial : β) (elements : List Value) (total : Value) : Prop :=
  ∃ (ahead : List α) (current : β), elements = ahead.map item ∧ total = value current ∧
    ahead.foldl combine current = list.foldl combine initial

/-- `f(result, first(arr))` -/
theorem comesTo_reduceStep {own : ScopeId} {array : ObjectId} {first total : Value}
    {others : List Value} {place : Site} {depth : Nat}
    (takes : ∀ current element, Takes before (least + 1) f [value current, item element]
      (· = value (combine current element)))
    (walking : Walking before own bindings "result" array (first :: others) total)
    (found : bindings.lookup "f" = some f) (deep : least < depth)
    (reduced : Reduced item value combine list initial (first :: others) total) :
    ComesTo before (expr (apply depth) own place reduceStep)
      (Reduced item value combine list initial others) := by
  obtain ⟨ahead, current, same, rfl, whole⟩ := reduced
  obtain ⟨element, rest, rfl, rfl, rfl⟩ := List.map_eq_cons_iff.mp same.symm
  refine comesTo_call (walking.lookup_name (by decide) (by decide) found) (comesTo_exprs_cons
    walking.lookup_state (comesTo_exprs_cons (walking.comesTo_ahead .first comesTo_first)
      comesTo_exprs_nil)) ?_ deep
  rintro _ ⟨_, _, rfl, ⟨_, _, rfl, rfl, rfl⟩, rfl⟩
  refine (takes current element).mono ?_
  rintro _ rfl
  exact ⟨rest, combine current element, rfl, rfl, whole⟩

/-- `reduce` comes to what all elements combine to, from left to right. -/
theorem takes_reduce (shows : before.Shows home bindings) (free : NoBuiltin bindings)
    (takes : ∀ current element, Takes before (least + 1) f [value current, item element]
      (· = value (combine current element)))
    (short : list.length < 2 ^ 64) (array : ObjectId) (initial : β) :
    Takes before (list.length + least + 2)
      (.function id ⟨["arr", "initial", "f"], reduceBody, home, site⟩)
      [.array array (list.map item), value initial, f]
      (· = value (list.foldl combine initial)) := by
  have seen : NoBuiltin (("f", f) :: ("initial", value initial) ::
      ("arr", .array array (list.map item)) :: bindings) :=
    ((free.cons rfl _).cons rfl _).cons rfl _
  have walks : Takes before ((list.map item).length + least + 2)
      (.function id ⟨["arr", "initial", "f"], reduceBody, home, site⟩)
      [.array array (list.map item), value initial, f]
      (Reduced item value combine list initial []) := by
    refine takes_walk shows seen rfl rfl ⟨by decide, by decide, rfl⟩ ?_ ?_ (by simpa)
    · intro later own function call place shown
      refine (comesTo_name shown rfl).mono ?_
      rintro _ rfl
      exact ⟨list, initial, rfl, rfl, rfl⟩
    · intro function later own array first others total place depth untouched walking deep reduced
      exact comesTo_reduceStep (fun current element => (takes current element).untouched untouched)
        walking rfl deep reduced
  rw [List.length_map] at walks
  refine walks.mono ?_
  rintro _ ⟨ahead, current, none, rfl, whole⟩
  obtain rfl : ahead = [] := List.map_eq_nil_iff.mp none.symm
  rw [← whole, List.foldl_nil]

end Reduce

/-! ## Double and sum -/

theorem takes_double (shows : before.Shows home bindings) (number : Int64) :
    Takes before 1 (.function id ⟨["x"], doubleBody, home, site⟩) [.integer number]
      (· = .integer (number * 2)) := by
  refine takes_function fun depth _ store same => ComesTo.ends ?_
  have shown := (shows.untouched same).entered ⟨["x"], doubleBody, home, site⟩ [.integer number]
  rw [doubleBody, block_expr]
  exact comesTo_binary (comesTo_name shown rfl) (comesTo_integer 2) rfl

theorem takes_add (shows : before.Shows home bindings) (total number : Int64) :
    Takes before 1 (.function id ⟨["total", "x"], addBody, home, site⟩)
      [.integer total, .integer number] (· = .integer (total + number)) := by
  refine takes_function fun depth _ store same => ComesTo.ends ?_
  have shown := (shows.untouched same).entered ⟨["total", "x"], addBody, home, site⟩
    [.integer total, .integer number]
  rw [addBody, block_expr]
  exact comesTo_binary (comesTo_name shown rfl) (comesTo_name shown rfl) rfl

/-- `sum` adds up the elements in 64 bits. -/
theorem takes_sum {numbers : List Int64} {reducer : ObjectId} {place : Site}
    (shows : before.Shows home bindings) (free : NoBuiltin bindings)
    (bound : bindings.lookup "reduce" =
      some (.function reducer ⟨["arr", "initial", "f"], reduceBody, home, place⟩))
    (short : numbers.length < 2 ^ 64) (array : ObjectId) :
    Takes before (numbers.length + 3) (.function id ⟨["arr"], sumBody, home, site⟩)
      [.array array (numbers.map .integer)] (· = .integer (numbers.foldl (· + ·) 0)) := by
  refine takes_function fun depth enough store same => ComesTo.ends ?_
  let closure : Closure := ⟨["arr"], sumBody, home, site⟩
  let argument : Value := .array array (numbers.map .integer)
  have shown : (store.entered closure [argument]).Shows store.scopes.size
      (("arr", argument) :: bindings) :=
    (shows.untouched same).entered closure [argument]
  have home := (shows.untouched same).untouched (store.untouched_entered closure [argument])
  have found : List.lookup "reduce" (("arr", argument) :: bindings) = _ := bound
  rw [sumBody, block_expr]
  refine comesTo_call (comesTo_name shown found) (comesTo_exprs_cons (comesTo_name shown rfl)
    (comesTo_exprs_cons (comesTo_integer 0) (comesTo_exprs_cons (comesTo_function _ _)
      comesTo_exprs_nil))) ?_ enough
  rintro _ ⟨_, _, rfl, ⟨_, _, rfl, ⟨_, _, ⟨adder, rfl⟩, rfl, rfl⟩, rfl⟩, rfl⟩
  exact takes_reduce home free (takes_add shown) short array 0

/-! ## The program in a session -/

def library (root : ScopeId) (unit : Nat) : List (String × Value) :=
  [("sum", .function (unit + 4) ⟨["arr"], sumBody, root, [3, unit]⟩),
    ("double", .function (unit + 3) ⟨["x"], doubleBody, root, [2, unit]⟩),
    ("reduce", .function (unit + 2) ⟨["arr", "initial", "f"], reduceBody, root, [1, unit]⟩),
    ("map", .function (unit + 1) ⟨["arr", "f"], mapBody, root, [0, unit]⟩)]

def withList (root : ScopeId) (unit : Nat) (array : ObjectId) (numbers : List Int64) :
    List (String × Value) :=
  ("xs", .array array (numbers.map .integer)) :: library root unit

theorem noBuiltin_withList (root : ScopeId) (unit : Nat) (array : ObjectId)
    (numbers : List Int64) : NoBuiltin (withList root unit array numbers) := by
  intro builtin
  cases builtin <;> rfl

theorem evaluate_definitions (depth : Nat) (session : Session) {store : Store}
    (shows : store.Shows session.root []) :
    ∃ value defined, Execution.evaluate depth session definitions store = .ok value defined ∧
      defined.Shows session.root (library session.root store.issued) := by
  have begun : (code.begun store).Shows session.root [] :=
    shows.untouched (store.untouched_issue.trans (Store.untouched_note _ _))
  rw [Execution.evaluate_eq_ending depth session parse_definitions]
  simp only [code, block_define_function]
  exact ⟨_, _, rfl, (((begun.defineNew _ _).defineNew _ _).defineNew _ _).defineNew _ _⟩

/-- A source text that is one expression is evaluated to what the expression comes to. -/
theorem evaluate_of_comesTo {text : String} {source : Expr} {depth : Nat} {session : Session}
    {good : Value → Prop} (parsed : parse text = .ok ⟨[.expr source]⟩)
    (comes : ∀ place, ComesTo before (expr (apply depth) session.root place source) good) :
    ∃ value later, Execution.evaluate depth session text before = .ok value later ∧
      before.Untouched later ∧ good value := by
  have begun : before.Untouched (Program.begun ⟨[.expr source]⟩ before) :=
    before.untouched_issue.trans (Store.untouched_note _ _)
  obtain ⟨value, later, ran, untouched, holds⟩ := comes [0, before.issued] _ begun
  refine ⟨value, later, ?_, begun.trans untouched, holds⟩
  rw [Execution.evaluate_eq_ending depth session parsed, block_expr, ran]
  rfl

theorem foldl_doubled (numbers : List Int64) (start : Int) :
    (numbers.map fun number => Int64.ofInt (2 * number.toInt)).foldl (· + ·) (.ofInt start) =
      .ofInt (start + 2 * (numbers.map Int64.toInt).sum) := by
  induction numbers generalizing start with
  | nil => simp
  | cons number numbers ih =>
      rw [List.map_cons, List.foldl_cons, ← Int64.ofInt_add, ih, List.map_cons, List.sum_cons,
        Int.mul_add, Int.add_assoc]

section Session

variable {session : Session} {unit : Nat} {numbers : List Int64} {array : ObjectId} {depth : Nat}

/-- `map(xs, double)` -/
theorem comesTo_doubled (place : Site)
    (shows : before.Shows session.root (withList session.root unit array numbers))
    (short : numbers.length < 2 ^ 64) (enough : numbers.length + 2 ≤ depth) :
    ComesTo before
      (expr (apply depth) session.root place (.call (.name "map") [.name "xs", .name "double"]))
      fun value => ∃ id, value =
        .array id (numbers.map fun number => .integer (.ofInt (2 * number.toInt))) := by
  have free := noBuiltin_withList session.root unit array numbers
  have doubles (number : Int64) : Takes before 1
      (.function (unit + 3) ⟨["x"], doubleBody, session.root, [2, unit]⟩) [.integer number]
      (· = .integer (.ofInt (2 * number.toInt))) := by
    have wrapped : number * 2 = .ofInt (2 * number.toInt) := by
      rw [Int64.ofInt_mul, Int64.ofInt_toInt, Int64.mul_comm]
      rfl
    rw [← wrapped]
    exact takes_double shows number
  refine comesTo_call (comesTo_name shows rfl) (comesTo_exprs_cons (comesTo_name shows rfl)
    (comesTo_exprs_cons (comesTo_name shows rfl) comesTo_exprs_nil)) ?_ enough
  rintro _ ⟨_, _, rfl, ⟨_, _, rfl, rfl, rfl⟩, rfl⟩
  exact takes_map shows free doubles short array

/-- `sum(map(xs, double))` -/
theorem comesTo_sum (place : Site)
    (shows : before.Shows session.root (withList session.root unit array numbers))
    (short : numbers.length < 2 ^ 64) (enough : numbers.length + 3 ≤ depth) :
    ComesTo before
      (expr (apply depth) session.root place
        (.call (.name "sum") [.call (.name "map") [.name "xs", .name "double"]]))
      (· = .integer (.ofInt (2 * (numbers.map Int64.toInt).sum))) := by
  have free := noBuiltin_withList session.root unit array numbers
  have doubled := comesTo_doubled (1 :: place) shows short (Nat.le_of_succ_le enough)
  refine comesTo_call (comesTo_name shows rfl) (comesTo_exprs_cons doubled comesTo_exprs_nil) ?_
    enough
  rintro _ ⟨_, _, ⟨id, rfl⟩, rfl, rfl⟩
  let doubled : List Int64 := numbers.map fun number => .ofInt (2 * number.toInt)
  have sums : Takes before (doubled.length + 3)
      (.function (unit + 4) ⟨["arr"], sumBody, session.root, [3, unit]⟩)
      [.array id (doubled.map .integer)] (· = .integer (doubled.foldl (· + ·) 0)) :=
    takes_sum shows free rfl (by simpa [doubled]) id
  have total := foldl_doubled numbers 0
  rw [Int.zero_add] at total
  rw [List.length_map, List.map_map] at sums
  rwa [← total]

end Session

/-- The program is right for every list of integers. Once it has been evaluated in a new session and
a list is bound to `xs`, `map(xs, double)` comes to the array of the doubled integers in the same
order, and `sum(map(xs, double))` comes to the double of their sum, both wrapped to 64 bits. Neither
changes a scope, so that they can follow each other in any order. For a list of `n` integers calls
are nested `n + 3` deep at most. An array in a memory with addresses of 64 bits has less than 2^64
elements; with that many `len` would come to zero again. -/
theorem doubles_and_sums (numbers : List Int64) (short : numbers.length < 2 ^ 64) (depth : Nat)
    (enough : numbers.length + 3 ≤ depth) (store : Store) :
    let session := (Session.start store).1
    ∃ value defined,
      Execution.evaluate depth session definitions (Session.start store).2 = .ok value defined ∧
      ∀ (array : ObjectId) (current : Store),
        (defined.define session.root "xs" (.array array (numbers.map .integer))).Untouched current →
        (∃ id later, Execution.evaluate depth session "map(xs, double)" current =
            .ok (.array id (numbers.map fun number => .integer (.ofInt (2 * number.toInt)))) later ∧
          current.Untouched later) ∧
        ∃ later, Execution.evaluate depth session "sum(map(xs, double))" current =
            .ok (.integer (.ofInt (2 * (numbers.map Int64.toInt).sum))) later ∧
          current.Untouched later := by
  intro session
  obtain ⟨value, defined, ran, shows⟩ := evaluate_definitions depth session store.shows_start
  refine ⟨value, defined, ran, fun array current same => ?_⟩
  have shown := (shows.define "xs" (.array array (numbers.map .integer))).untouched same
  obtain ⟨_, later, ranMap, untouched, id, rfl⟩ := evaluate_of_comesTo parse_map fun place =>
    comesTo_doubled place shown short (Nat.le_of_succ_le enough)
  obtain ⟨_, final, ranSum, untouchedSum, rfl⟩ := evaluate_of_comesTo parse_sum fun place =>
    comesTo_sum place shown short enough
  exact ⟨⟨id, later, ranMap, untouched⟩, final, ranSum, untouchedSum⟩

/-- `[1, 2, 3, 9223372036854775807]`: the last integer wraps around when it is doubled, and the sum
of the doubled integers is 10. -/
theorem doubles_and_sums_wrapping :
    ∃ value defined,
      Execution.evaluate callDepth ⟨0⟩ definitions (Session.start .empty).2 = .ok value defined ∧
      ∀ array, ∃ id later final,
        let bound := defined.define 0 "xs" (.array array
          [.integer 1, .integer 2, .integer 3, .integer 9223372036854775807])
        Execution.evaluate callDepth ⟨0⟩ "map(xs, double)" bound =
          .ok (.array id [.integer 2, .integer 4, .integer 6, .integer (-2)]) later ∧
        Execution.evaluate callDepth ⟨0⟩ "sum(map(xs, double))" later =
          .ok (.integer 10) final := by
  obtain ⟨value, defined, ran, comes⟩ :=
    doubles_and_sums [1, 2, 3, 9223372036854775807] (by decide) callDepth (by decide) .empty
  refine ⟨value, defined, ran, fun array => ?_⟩
  obtain ⟨⟨id, later, ranMap, untouched⟩, _⟩ := comes array _ (.refl _)
  obtain ⟨_, final, ranSum, _⟩ := comes array later untouched
  exact ⟨id, later, final, ranMap, ranSum⟩

end Scriptlet.MapReduce
