import Scriptlet.Proofs.Printer.RoundTrip

/-!
# How operators nest

Operands with binary operators between them are split at the operator that binds least, and if there
are several such operators, at the last of them; `nesting` does so until single operands are left.
The reader goes from left to right instead: behind an operand it takes in one operator after the
other, each with as much of the text as binds more tightly. `Joins` says that it makes the same tree
of it, and `operators_nest` that this holds for whole texts.

While the reader goes on, the operators to its left bind at least as tightly as the next one, so
that the next operator is the last one of the loosest among those that were read.
-/
set_option autoImplicit false

namespace Scriptlet

open Token (Kind)
open Phrase (Derives Stops Unfinished)

/-! ## The tree of a sequence -/

def BinaryOp.strength : BinaryOp → Nat
  | .equal | .notEqual => 0
  | .less | .greater => 1
  | .add | .subtract => 2
  | .multiply | .divide => 3

section Split

variable {α : Type}

/-- Splits a sequence at the last one of its loosest operators. -/
def splitAtLoosest : List (BinaryOp × α) →
    Option (List (BinaryOp × α) × (BinaryOp × α) × List (BinaryOp × α))
  | [] => none
  | item :: items =>
    match splitAtLoosest items with
    | none => some ([], item, [])
    | some (before, loosest, after) =>
      if item.1.strength < loosest.1.strength then some ([], item, items)
      else some (item :: before, loosest, after)

theorem splitAtLoosest_eq_none {items : List (BinaryOp × α)}
    (missing : splitAtLoosest items = none) : items = [] := by
  cases items with
  | nil => rfl
  | cons item items =>
      unfold splitAtLoosest at missing
      split at missing
      · cases missing
      · split at missing <;> cases missing

theorem splitAtLoosest_append {items before after : List (BinaryOp × α)} {loosest : BinaryOp × α}
    (found : splitAtLoosest items = some (before, loosest, after)) :
    items = before ++ loosest :: after := by
  induction items generalizing before with
  | nil => cases found
  | cons item items ih =>
      unfold splitAtLoosest at found
      split at found
      · rename_i missing
        cases found
        rw [splitAtLoosest_eq_none missing, List.nil_append]
      · rename_i front weakest back inner
        split at found
        · cases found
          rfl
        · cases found
          rw [ih inner, List.cons_append]

/-- The operators before the split are no looser, and those behind it are tighter. -/
theorem splitAtLoosest_eq {before after : List (BinaryOp × α)} {loosest : BinaryOp × α}
    (noLooser : ∀ item ∈ before, loosest.1.strength ≤ item.1.strength)
    (tighter : ∀ item ∈ after, loosest.1.strength < item.1.strength) :
    splitAtLoosest (before ++ loosest :: after) = some (before, loosest, after) := by
  induction before with
  | nil =>
      rw [List.nil_append, splitAtLoosest]
      cases split : splitAtLoosest after with
      | none => rw [splitAtLoosest_eq_none split]
      | some found =>
          obtain ⟨front, weakest, back⟩ := found
          have member : weakest ∈ after := by
            rw [splitAtLoosest_append split]
            simp
          simp only [if_pos (tighter weakest member)]
  | cons item before ih =>
      obtain ⟨here, others⟩ := List.forall_mem_cons.mp noLooser
      rw [List.cons_append, splitAtLoosest, ih others]
      simp only [if_neg (Nat.not_lt.mpr here)]

end Split

def nesting (first : Expr) (items : List (BinaryOp × Expr)) : Expr :=
  match _split : splitAtLoosest items with
  | none => first
  | some (before, (op, next), after) => .binary op (nesting first before) (nesting next after)
termination_by items.length
decreasing_by
  all_goals
    have lengths := congrArg List.length (splitAtLoosest_append _split)
    simp only [List.length_append, List.length_cons] at lengths
    omega

@[simp]
theorem nesting_nil (first : Expr) : nesting first [] = first := by
  rw [nesting]
  rfl

theorem nesting_split (first : Expr) {before after : List (BinaryOp × Expr)} {op : BinaryOp}
    {next : Expr} (noLooser : ∀ item ∈ before, op.strength ≤ item.1.strength)
    (tighter : ∀ item ∈ after, op.strength < item.1.strength) :
    nesting first (before ++ (op, next) :: after) =
      .binary op (nesting first before) (nesting next after) := by
  have found : splitAtLoosest (before ++ (op, next) :: after) = some (before, (op, next), after) :=
    splitAtLoosest_eq noLooser tighter
  rw [nesting]
  split
  · rename_i missing
    rw [found] at missing
    cases missing
  · rename_i other
    rw [found] at other
    cases other
    rfl

/-! ## The tokens of a sequence -/

inductive IsAtom : Token → Expr → Prop
  | name {token : Token} (isName : token.kind = .name) : IsAtom token (.name token.literal)
  | integer {token : Token} (isInteger : token.kind = .integer)
      (small : Text.digitsValue token.literal < 9223372036854775808) :
      IsAtom token (.integer (Int64.ofNat (Text.digitsValue token.literal)))
  | string {token : Token} (isString : token.kind = .string) :
      IsAtom token (.string token.literal)
  | trueWord {token : Token} (isTrue : token.kind = .trueWord) : IsAtom token (.boolean true)
  | falseWord {token : Token} (isFalse : token.kind = .falseWord) : IsAtom token (.boolean false)

/-- Any number of signs before an atom. The first sign is the outermost one. -/
inductive IsOperand : List Token → Expr → Prop
  | atom {token : Token} {tree : Expr} (isAtom : IsAtom token tree) : IsOperand [token] tree
  | sign {token : Token} {op : UnaryOp} {list : List Token} {tree : Expr}
      (sign : unaryOperator? token.kind = some op) (isOperand : IsOperand list tree) :
      IsOperand (token :: list) (.unary op tree)

inductive IsTail : List Token → List (BinaryOp × Expr) → Prop
  | nil : IsTail [] []
  | cons {token : Token} {op : BinaryOp} {list others : List Token} {tree : Expr}
      {items : List (BinaryOp × Expr)} (isOperator : token.kind = op.tokenKind)
      (isOperand : IsOperand list tree) (isTail : IsTail others items) :
      IsTail (token :: (list ++ others)) ((op, tree) :: items)

theorem IsTail.split {tail : List Token} {before after : List (BinaryOp × Expr)}
    (isTail : IsTail tail (before ++ after)) :
    ∃ front back, tail = front ++ back ∧ IsTail front before ∧ IsTail back after := by
  induction before generalizing tail with
  | nil => exact ⟨[], tail, rfl, .nil, isTail⟩
  | cons item before ih =>
      cases isTail with
      | @cons token op list _ tree _ isOperator isOperand isTail =>
          obtain ⟨front, back, rfl, isFront, isBack⟩ := ih isTail
          exact ⟨token :: (list ++ front), back, by simp, .cons isOperator isOperand isFront,
            isBack⟩

/-! ## What the grammar makes of it -/

theorem BinaryOp.tier_rank (op : BinaryOp) : op.tier.rank = op.strength + 1 := by
  cases op <;> rfl

theorem BinaryOp.tokenKind_rank (op : BinaryOp) :
    op.tokenKind.precedence.rank = op.strength + 1 := by
  rw [Tier.rank_of_operator (operator?_tokenKind op), op.tier_rank]

theorem BinaryOp.floor_rank (op : BinaryOp) : op.tier.floor.rank = op.strength := by
  cases op <;> rfl

theorem BinaryOp.floor_tighter_rank (op : BinaryOp) :
    op.tier.tighter.floor.rank = op.strength + 1 := by
  cases op <;> rfl

theorem BinaryOp.strength_lt (op : BinaryOp) : op.strength < Precedence.product.rank := by
  cases op <;> decide

/-- A tighter operator belongs to the right operand of an operator. -/
theorem BinaryOp.tighter_rank_le {op other : BinaryOp} (tighter : op.strength < other.strength) :
    op.tier.tighter.rank ≤ other.tier.rank := by
  refine Tier.tighter_rank_le ?_ fun same => ?_
  · rw [op.tier_rank, other.tier_rank]
    omega
  · have rank := congrArg Tier.rank same
    rw [op.tier_rank, other.tier_rank] at rank
    omega

theorem Tier.floor_rank_le {looser tier : Tier} (le : looser.rank ≤ tier.rank) :
    looser.floor.rank ≤ tier.floor.rank := by
  cases looser <;> cases tier <;> first | decide | exact absurd le (by decide)

def Lowers (rank : Nat) (list : List Token) : Prop :=
  ∃ token tail, list = token :: tail ∧ token.kind.precedence.rank ≤ rank

theorem Lowers.mono {rank higher : Nat} {list : List Token} (lowers : Lowers rank list)
    (le : rank ≤ higher) : Lowers higher list := by
  obtain ⟨token, tail, here, low⟩ := lowers
  exact ⟨token, tail, here, low.trans le⟩

theorem Lowers.stops {minimum : Precedence} {list : List Token}
    (lowers : Lowers minimum.rank list) (left : Expr) : Stops minimum left list := by
  obtain ⟨token, tail, rfl, low⟩ := lowers
  exact ⟨token, tail, rfl, .inl low⟩

theorem IsTail.lowers {tail rest : List Token} {items : List (BinaryOp × Expr)} {rank : Nat}
    (isTail : IsTail tail items) (low : ∀ item ∈ items.head?, item.1.strength < rank)
    (lowers : Lowers rank rest) : Lowers rank (tail ++ rest) := by
  cases isTail with
  | nil => exact lowers
  | @cons token op _ _ _ _ isOperator _ _ =>
      refine ⟨token, _, rfl, ?_⟩
      rw [isOperator, op.tokenKind_rank]
      exact low _ rfl

theorem IsAtom.derives {token : Token} {tree : Expr} (isAtom : IsAtom token tree)
    (rest : List Token) : Derives .atom (token :: rest) tree rest := by
  cases isAtom with
  | name isName => exact .name isName
  | integer isInteger small => exact .integer isInteger small
  | string isString => exact .string isString
  | trueWord isTrue => exact .trueWord isTrue
  | falseWord isFalse => exact .falseWord isFalse

theorem IsOperand.unfinished {list rest : List Token} {tree : Expr}
    (isOperand : IsOperand list tree) (lowers : Lowers Precedence.product.rank rest)
    (looser : Tier) :
    Unfinished looser (list ++ rest) tree rest := by
  induction isOperand generalizing looser with
  | atom isAtom => exact (Phrase.open_atom (isAtom.derives rest)).unfinished looser
  | @sign _ op _ tree sign _ ih =>
      have operand := (ih .unary).finish (lowers.stops tree)
      exact Phrase.unfinished_unary (.unary sign operand) rfl looser

/-- An operator takes in the operators behind it up to one that is no tighter. -/
theorem exists_taken (op : BinaryOp) (items : List (BinaryOp × Expr)) :
    ∃ taken left, items = taken ++ left ∧
      (∀ item ∈ taken, op.strength < item.1.strength) ∧
      ∀ item ∈ left.head?, item.1.strength ≤ op.strength := by
  induction items with
  | nil => exact ⟨[], [], rfl, by simp, by simp⟩
  | cons item items ih =>
      by_cases tight : op.strength < item.1.strength
      · obtain ⟨taken, left, rfl, tighter, looser⟩ := ih
        exact ⟨item :: taken, left, rfl, List.forall_mem_cons.mpr ⟨tight, tighter⟩, looser⟩
      · refine ⟨[], item :: items, rfl, by simp, ?_⟩
        rintro _ ⟨⟩
        exact Nat.not_lt.mp tight

/-- Whatever an expression begins with, the items behind it are joined with it as `nesting` says, if
the operators that were read are no looser than the first one of the items. -/
def Joins (items : List (BinaryOp × Expr)) : Prop :=
  ∀ (looser : Tier) (list tail rest : List Token) (first : Expr)
    (consumed : List (BinaryOp × Expr)), IsTail tail items →
    (∀ item ∈ items, looser.rank ≤ item.1.tier.rank) → Lowers looser.floor.rank rest →
    (∀ item ∈ items.head?, ∀ other ∈ consumed, item.1.strength ≤ other.1.strength) →
    Unfinished looser list (nesting first consumed) (tail ++ rest) →
    Unfinished looser list (nesting first (consumed ++ items)) rest

/-- The right operand of an operator takes in what binds more tightly. -/
theorem Joins.derives_right {list front rest : List Token} {op : BinaryOp} {next : Expr}
    {taken : List (BinaryOp × Expr)} (joins : Joins taken) (isOperand : IsOperand list next)
    (isTail : IsTail front taken) (tighter : ∀ item ∈ taken, op.strength < item.1.strength)
    (lowers : Lowers (op.strength + 1) rest) :
    Derives (.tier op.tier.tighter) (list ++ (front ++ rest)) (nesting next taken) rest := by
  have before : Lowers Precedence.product.rank (front ++ rest) :=
    isTail.lowers (fun item _ => item.1.strength_lt) (lowers.mono op.strength_lt)
  have start := isOperand.unfinished before op.tier.tighter
  rw [← op.floor_tighter_rank] at lowers
  have whole := joins _ _ front rest next [] isTail
    (fun item member => BinaryOp.tighter_rank_le (tighter item member)) lowers (by simp)
    (by rwa [nesting_nil])
  exact whole.finish (lowers.stops _)

/-- The operator and what its right operand takes in leave the rest of the items. -/
theorem Joins.cons {op : BinaryOp} {next : Expr} {taken left : List (BinaryOp × Expr)}
    (tighter : ∀ item ∈ taken, op.strength < item.1.strength)
    (after : ∀ item ∈ left.head?, item.1.strength ≤ op.strength) (joins : Joins taken)
    (joinsLeft : Joins left) : Joins ((op, next) :: (taken ++ left)) := by
  intro looser list tail rest first consumed isTail belong lowers noLooser start
  obtain ⟨here, belongs⟩ := List.forall_mem_cons.mp belong
  have noLooser : ∀ other ∈ consumed, op.strength ≤ other.1.strength := noLooser _ rfl
  cases isTail with
  | @cons token _ operand others _ _ isOperator isOperand isTail =>
      obtain ⟨front, back, rfl, isFront, isBack⟩ := isTail.split
      have floor : looser.floor.rank ≤ op.strength + 1 :=
        (Tier.floor_rank_le here).trans (op.floor_rank.trans_le (Nat.le_succ _))
      have lowersBack : Lowers (op.strength + 1) (back ++ rest) :=
        isBack.lowers (fun item member => Nat.lt_succ_of_le (after item member))
          (lowers.mono floor)
      have right := joins.derives_right isOperand isFront tighter lowersBack
      simp only [List.cons_append, List.append_assoc] at start
      have joined := start.binary (isOperator ▸ operator?_tokenKind op) here right
      rw [← nesting_split first noLooser tighter] at joined
      have whole := joinsLeft looser list back rest first _ isBack
        (fun item member => belongs item (List.mem_append_right _ member)) lowers ?_ joined
      · simpa using whole
      · intro item member other isConsumed
        have low := after item member
        simp only [List.mem_append, List.mem_cons] at isConsumed
        rcases isConsumed with isConsumed | rfl | isTaken
        · exact low.trans (noLooser other isConsumed)
        · exact low
        · exact low.trans (tighter other isTaken).le

theorem joins (items : List (BinaryOp × Expr)) : Joins items := by
  -- the right operand and the rest of the items are sequences of fewer items
  induction count : items.length using Nat.strong_induction_on generalizing items with
  | _ count ih =>
    cases items with
    | nil =>
        intro looser list tail rest first consumed isTail _ _ _ start
        cases isTail
        rwa [List.append_nil]
    | cons item more =>
        obtain ⟨op, next⟩ := item
        obtain ⟨taken, left, rfl, tighter, after⟩ := exists_taken op more
        simp only [List.length_cons, List.length_append] at count
        exact .cons tighter after (ih _ (by omega) taken rfl) (ih _ (by omega) left rfl)

/-- Operands with operators between them are one expression, which nests as the strength of the
operators says. -/
theorem derives_nesting {operand tail rest : List Token} {first : Expr}
    {items : List (BinaryOp × Expr)} (isOperand : IsOperand operand first)
    (isTail : IsTail tail items) (lowers : Lowers Precedence.lowest.rank rest) :
    Derives .expr (operand ++ (tail ++ rest)) (nesting first items) rest := by
  have before : Lowers Precedence.product.rank (tail ++ rest) :=
    isTail.lowers (fun item _ => item.1.strength_lt) (lowers.mono (by decide))
  have start := isOperand.unfinished before .equality
  have whole := joins items .equality _ tail rest first [] isTail
    (fun item _ => item.1.tier.equality_rank_le) lowers (by simp) (by rwa [nesting_nil])
  exact whole.finish (lowers.stops _)

/-- A text of operands with operators between them is accepted as one expression, split at the last
one of the loosest operators, and so are the texts on both sides of it. -/
theorem operators_nest {source : String} {operand tail : List Token} {ending : Token}
    {first : Expr} {items : List (BinaryOp × Expr)} (isOperand : IsOperand operand first)
    (isTail : IsTail tail items) (listed : tokens source = operand ++ tail ++ [ending]) :
    parse source = .ok ⟨[.expr (nesting first items)]⟩ := by
  have atEnd : ending.kind = .endOfInput := by
    have suffix : [ending] <:+ tokens source := listed ▸ List.suffix_append _ _
    exact ((ended_tokens source).of_suffix suffix (by simp)).rest_eq_nil_iff.mp rfl
  have lowers : Lowers Precedence.lowest.rank [ending] := ⟨ending, [], rfl, by rw [atEnd]; decide⟩
  have derives := derives_nesting isOperand isTail lowers
  rw [← List.append_assoc, ← listed] at derives
  exact parse_of_derived (Program.derived_of_expr derives atEnd)

theorem operators_nest_mixed :
    parse "1 - -x - 2 * y" = .ok ⟨[.expr (.binary .subtract
      (.binary .subtract (.integer 1) (.unary .negate (.name "x")))
      (.binary .multiply (.integer 2) (.name "y")))]⟩ := by
  have isOperand : IsOperand [⟨.integer, "1", 0, 1⟩] (.integer 1) :=
    .atom (.integer rfl (by decide))
  have isTail : IsTail
      (⟨.minus, "-", 2, 3⟩ :: ([⟨.minus, "-", 4, 5⟩, ⟨.name, "x", 5, 6⟩] ++
        (⟨.minus, "-", 7, 8⟩ :: ([⟨.integer, "2", 9, 10⟩] ++
          (⟨.star, "*", 11, 12⟩ :: ([⟨.name, "y", 13, 14⟩] ++ []))))))
      [(.subtract, .unary .negate (.name "x")), (.subtract, .integer 2),
        (.multiply, .name "y")] :=
    .cons rfl (.sign rfl (.atom (.name rfl)))
      (.cons rfl (.atom (.integer rfl (by decide))) (.cons rfl (.atom (.name rfl)) .nil))
  have whole := operators_nest isOperand isTail
    (by decide : tokens "1 - -x - 2 * y" = _ ++ [⟨.endOfInput, "", 14, 14⟩])
  rw [whole]
  simp [nesting, splitAtLoosest, BinaryOp.strength]

end Scriptlet
