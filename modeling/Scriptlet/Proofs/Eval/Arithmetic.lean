import Mathlib.Data.Int.ModEq
import Scriptlet.Eval.Program

/-!
# Integer arithmetic

An expression of integers, signs, sums, differences and products has a number that is computed
without any bounds (`Expr.Computes`). The evaluator works with words of 64 bits and wraps around at
every node. It always comes to the word that the number of the whole expression wraps to
(`Wraps`), since the integers map to the words in a way that keeps all these operations.

A division is only exact on words: it goes toward zero, and only the quotient of the least word and
-1 wraps around.
-/
set_option autoImplicit false

namespace Scriptlet

/-- The number of an expression of integers, in which nothing is divided or compared. -/
inductive Expr.Computes : Expr → Int → Prop
  | integer (value : Int64) : Computes (.integer value) value.toInt
  | negate {operand : Expr} {number : Int} (computes : Computes operand number) :
      Computes (.unary .negate operand) (-number)
  | add {left right : Expr} {number other : Int} (computesLeft : Computes left number)
      (computesRight : Computes right other) :
      Computes (.binary .add left right) (number + other)
  | subtract {left right : Expr} {number other : Int} (computesLeft : Computes left number)
      (computesRight : Computes right other) :
      Computes (.binary .subtract left right) (number - other)
  | multiply {left right : Expr} {number other : Int} (computesLeft : Computes left number)
      (computesRight : Computes right other) :
      Computes (.binary .multiply left right) (number * other)

/-- The word is in the range of 64 bits and differs from the number by a multiple of 2^64. -/
structure Wraps (number word : Int) : Prop where
  low : -2 ^ 63 ≤ word
  high : word < 2 ^ 63
  congruent : word ≡ number [ZMOD 2 ^ 64]

/-! ## Words -/

section Words

variable {number word : Int}

theorem wraps_iff : Wraps number word ↔ word = (Int64.ofInt number).toInt := by
  rw [Int64.toInt_ofInt, Int64.size, Int.bmod_def]
  constructor
  · rintro ⟨low, high, congruent⟩
    unfold Int.ModEq at congruent
    split <;> omega
  · rintro rfl
    refine ⟨?_, ?_, ?_⟩
    · split <;> omega
    · split <;> omega
    · unfold Int.ModEq
      split <;> omega

theorem Wraps.eq_ofInt (wraps : Wraps number word) : Int64.ofInt number = Int64.ofInt word := by
  rw [wraps_iff.mp wraps, Int64.ofInt_toInt]

theorem Wraps.toInt_ofInt (wraps : Wraps number word) : (Int64.ofInt word).toInt = word := by
  rw [← wraps.eq_ofInt, ← wraps_iff.mp wraps]

/-- The quotient of two words is that of their numbers, wrapped. -/
theorem wraps_quotient (left right : Int64) :
    Wraps (left.toInt.tdiv right.toInt) (left / right).toInt := by
  rw [wraps_iff, Int64.toInt_div, Int64.toInt_ofInt, Int64.size]

end Words

/-! ## Evaluation -/

namespace Eval

variable {call : Caller} {scope : ScopeId} {site : Site} {store : Store}

theorem unary_integer {op : UnaryOp} {operand : Expr} {value : Int64}
    (ran : expr call scope (0 :: site) operand store = .ok (.integer value) store) :
    expr call scope site (.unary op operand) store =
      ofResult (op.apply (.integer value)) store := by
  rw [expr, Run.bind_apply, ran]

theorem binary_integers {op : BinaryOp} {left right : Expr} {value other : Int64}
    (ranLeft : expr call scope (0 :: site) left store = .ok (.integer value) store)
    (ranRight : expr call scope (1 :: site) right store = .ok (.integer other) store) :
    expr call scope site (.binary op left right) store =
      ofResult (op.onIntegers value other) store := by
  rw [expr, Run.bind_apply, ranLeft]
  simp only [Run.bind_apply, ranRight, BinaryOp.apply]

/-- The word of the number is what the evaluator computes, and nothing else happens. -/
theorem expr_of_computes {code : Expr} {number : Int} (computes : code.Computes number)
    (site : Site) : expr call scope site code store = .ok (.integer (.ofInt number)) store := by
  induction computes generalizing site with
  | integer value => rw [expr, Int64.ofInt_toInt, Run.pure_apply]
  | negate _ ih =>
      rw [unary_integer (ih _), Int64.ofInt_neg]
      rfl
  | add _ _ ihLeft ihRight =>
      rw [binary_integers (ihLeft _) (ihRight _), Int64.ofInt_add]
      rfl
  | subtract _ _ ihLeft ihRight =>
      rw [binary_integers (ihLeft _) (ihRight _), Int64.ofInt_sub]
      rfl
  | multiply _ _ ihLeft ihRight =>
      rw [binary_integers (ihLeft _) (ihRight _), Int64.ofInt_mul]
      rfl

end Eval

/-- Arithmetic is exact up to multiples of 2^64. An expression of integers comes to the one word
that its number wraps to, and leaves the store as it is. The division of two such expressions fails
if the word of the divisor is zero, and else gives the quotient of the words toward zero, wrapped. -/
theorem arithmetic_wraps {code : Expr} {number : Int} (computes : code.Computes number)
    (call : Eval.Caller) (scope : ScopeId) (site : Site) (store : Store) :
    (∃ value : Int64, Eval.expr call scope site code store = .ok (.integer value) store ∧
      ∀ word, Wraps number word ↔ word = value.toInt) ∧
    ∀ (other : Expr) (divisor : Int), other.Computes divisor →
      ∀ word divisorWord, Wraps number word → Wraps divisor divisorWord →
        (Eval.expr call scope site (.binary .divide code other) store =
          .raised (.failed .divisionByZero) store ↔ divisorWord = 0) ∧
        (divisorWord ≠ 0 → ∃ quotient : Int64,
          Eval.expr call scope site (.binary .divide code other) store =
            .ok (.integer quotient) store ∧ Wraps (word.tdiv divisorWord) quotient.toInt) := by
  refine ⟨⟨_, Eval.expr_of_computes computes site, fun word => wraps_iff⟩, ?_⟩
  intro other divisor computesOther word divisorWord wraps wrapsDivisor
  have isZero : Int64.ofInt divisorWord = 0 ↔ divisorWord = 0 := by
    rw [← Int64.toInt_inj, wrapsDivisor.toInt_ofInt, Int64.toInt_zero]
  rw [Eval.binary_integers (Eval.expr_of_computes computes _)
    (Eval.expr_of_computes computesOther _), wraps.eq_ofInt, wrapsDivisor.eq_ofInt]
  by_cases zero : divisorWord = 0
  · rw [BinaryOp.onIntegers, if_pos (isZero.mpr zero)]
    exact ⟨iff_of_true rfl zero, fun notZero => absurd zero notZero⟩
  · rw [BinaryOp.onIntegers, if_neg (fun same => zero (isZero.mp same))]
    have quotient := wraps_quotient (.ofInt word) (.ofInt divisorWord)
    rw [wraps.toInt_ofInt, wrapsDivisor.toInt_ofInt] at quotient
    exact ⟨iff_of_false nofun zero, fun _ => ⟨_, rfl, quotient⟩⟩

/-- `(9223372036854775807 + 1) / -1`: the sum wraps to the least word, and so does the quotient. -/
theorem arithmetic_wraps_least :
    (∃ value : Int64, Eval.expr (Eval.apply 0) 0 []
        (.binary .add (.integer 9223372036854775807) (.integer 1)) .empty =
          .ok (.integer value) .empty ∧ value.toInt = -9223372036854775808) ∧
      ∃ quotient : Int64, Eval.expr (Eval.apply 0) 0 []
        (.binary .divide (.binary .add (.integer 9223372036854775807) (.integer 1))
          (.unary .negate (.integer 1))) .empty = .ok (.integer quotient) .empty ∧
        quotient.toInt = -9223372036854775808 := by
  have computes : Expr.Computes (.binary .add (.integer 9223372036854775807) (.integer 1))
      9223372036854775808 := .add (.integer _) (.integer _)
  have computesOther : Expr.Computes (.unary .negate (.integer 1)) (-1) := .negate (.integer _)
  have wraps : Wraps 9223372036854775808 (-9223372036854775808) := ⟨by decide, by decide, rfl⟩
  obtain ⟨⟨value, ran, only⟩, divides⟩ := arithmetic_wraps computes (Eval.apply 0) 0 [] .empty
  obtain ⟨-, divided⟩ := divides _ _ computesOther _ (-1) wraps ⟨by decide, by decide, rfl⟩
  obtain ⟨quotient, ranQuotient, wrapsQuotient⟩ := divided (by decide)
  refine ⟨⟨value, ran, ((only _).mp wraps).symm⟩, quotient, ranQuotient, ?_⟩
  exact (wraps_iff.mp wrapsQuotient).trans (wraps_iff.mp wraps).symm

end Scriptlet
