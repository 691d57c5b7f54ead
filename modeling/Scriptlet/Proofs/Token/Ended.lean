import Scriptlet.Token.Lexer
import Mathlib.Data.List.Infix

/-!
# The end of a token list

A lexer that has not given out the end of its text takes a character off the text with every
token, so that it comes to the end. `remaining_cons` says that the tokens a lexer still holds are
the next one and those of the lexer after it; `ended_tokens` says that the tokens of a text end
with the only token of kind `endOfInput`.
-/
set_option autoImplicit false

namespace Scriptlet

open Token (Kind)

/-- The last token, and no other, ends the input. -/
inductive Ended : List Token → Prop
  | last {token : Token} (atEnd : token.kind = .endOfInput) : Ended [token]
  | cons {token : Token} {rest : List Token} (inside : token.kind ≠ .endOfInput)
      (ended : Ended rest) : Ended (token :: rest)

namespace Ended

theorem ne_nil {list : List Token} (ended : Ended list) : list ≠ [] := by
  cases ended <;> simp

theorem rest_eq_nil_iff {token : Token} {rest : List Token} (ended : Ended (token :: rest)) :
    rest = [] ↔ token.kind = .endOfInput := by
  cases ended with
  | last atEnd => simp [atEnd]
  | cons inside ended => simp [inside, ended.ne_nil]

theorem of_suffix {list rest : List Token} (ended : Ended list) (suffix : rest <:+ list)
    (nonempty : rest ≠ []) : Ended rest := by
  induction ended with
  | last atEnd =>
      rcases List.suffix_cons_iff.mp suffix with rfl | suffix
      · exact .last atEnd
      · exact absurd (List.suffix_nil.mp suffix) nonempty
  | cons inside ended ih =>
      rcases List.suffix_cons_iff.mp suffix with rfl | suffix
      · exact .cons inside ended
      · exact ih suffix

end Ended

/-! ## One step of the lexer -/

theorem ofWord_mem (word : String) :
    Kind.ofWord word ∈ Kind.name :: Token.keywords.map Prod.snd := by
  unfold Kind.ofWord
  cases found : Token.keywords.lookup word with
  | none => simp
  | some kind =>
      obtain ⟨before, after, split, _⟩ := List.lookup_eq_some_iff.mp found
      rw [split]
      simp

theorem ofWord_ne_of_not_mem (word : String) {kind : Kind}
    (other : kind ∉ Kind.name :: Token.keywords.map Prod.snd) : Kind.ofWord word ≠ kind := by
  rintro rfl
  exact other (ofWord_mem word)

theorem signKind_ne_endOfInput (c : Char) : signKind c ≠ .endOfInput := by
  unfold signKind
  split <;> simp

theorem scan_kind_ne_endOfInput (c : Char) (rest : List Char) :
    (scan c rest).kind ≠ .endOfInput := by
  unfold scan
  split
  · exact ofWord_ne_of_not_mem _ (by decide)
  · split
    · simp
    · split
      · split <;> simp
      · split
        · simp
        · simp
        · exact signKind_ne_endOfInput _

theorem length_scan_rest_le (c : Char) (rest : List Char) :
    (scan c rest).rest.length ≤ rest.length := by
  unfold scan
  split
  · exact (List.dropWhile_suffix _).length_le
  · split
    · exact (List.dropWhile_suffix _).length_le
    · split
      · have shorter := (List.dropWhile_suffix (· ≠ '"') (l := rest)).length_le
        split
        · simp
        · rename_i found
          rw [found] at shorter
          exact Nat.le_of_succ_le shorter
      · split <;> simp

namespace Lexer

/-- What a lexer can do next: it is finished, it gives out the end, or it gives out a token from
inside the text and holds fewer characters. -/
theorem next_cases (lexer : Lexer) :
    (lexer.finished = true ∧ lexer.next = none) ∨
      (lexer.finished = false ∧ ∃ token later, lexer.next = some (token, later) ∧
        ((token.kind = .endOfInput ∧ later.finished = true) ∨
          (token.kind ≠ .endOfInput ∧ later.finished = false ∧
            later.rest.length < lexer.rest.length))) := by
  unfold next
  cases finished : lexer.finished with
  | true => simp
  | false =>
      refine .inr ⟨rfl, ?_⟩
      have shorter := (List.dropWhile_suffix Text.isBlank (l := lexer.rest)).length_le
      cases found : lexer.rest.dropWhile Text.isBlank with
      | nil => exact ⟨_, _, rfl, .inl ⟨rfl, rfl⟩⟩
      | cons c rest =>
          refine ⟨_, _, rfl, .inr ⟨scan_kind_ne_endOfInput c rest, rfl, ?_⟩⟩
          have scanned := length_scan_rest_le c rest
          rw [found] at shorter
          simp only [List.length_cons] at shorter
          show (scan c rest).rest.length < lexer.rest.length
          omega

def remaining (lexer : Lexer) : List Token :=
  lexer.take (lexer.rest.length + 1)

theorem take_of_finished (lexer : Lexer) (finished : lexer.finished = true) (count : Nat) :
    lexer.take count = [] := by
  have none : lexer.next = none := by simp [next, finished]
  cases count <;> simp [take, none]

/-- Bounds above the number of characters cut no token off. -/
theorem take_eq_take (lexer : Lexer) (count other : Nat) (enough : lexer.rest.length < count)
    (others : lexer.rest.length < other) : lexer.take count = lexer.take other := by
  induction count generalizing lexer other with
  | zero => omega
  | succ count ih =>
      cases other with
      | zero => omega
      | succ other =>
          rcases next_cases lexer with ⟨_, none⟩ | ⟨_, token, later, some, cases⟩
          · simp [take, none]
          · simp only [take, some]
            rcases cases with ⟨_, finished⟩ | ⟨_, _, shorter⟩
            · rw [take_of_finished later finished, take_of_finished later finished]
            · rw [ih later other (by omega) (by omega)]

theorem remaining_cons (lexer later : Lexer) (token : Token)
    (step : lexer.next = some (token, later)) :
    lexer.remaining = token :: later.remaining := by
  have unfolded : lexer.remaining = token :: later.take lexer.rest.length := by
    simp [remaining, take, step]
  rw [unfolded]
  rcases next_cases lexer with ⟨_, none⟩ | ⟨_, given, next, some, cases⟩
  · simp [none] at step
  · rw [some] at step
    obtain ⟨rfl, rfl⟩ : given = token ∧ next = later := by simpa using step
    rcases cases with ⟨_, finished⟩ | ⟨_, _, shorter⟩
    · rw [remaining, take_of_finished next finished, take_of_finished next finished]
    · rw [remaining, take_eq_take next _ _ shorter (Nat.lt_succ_self _)]

theorem ended_remaining (lexer : Lexer) (going : lexer.finished = false) :
    Ended lexer.remaining := by
  induction size : lexer.rest.length using Nat.strong_induction_on generalizing lexer with
  | _ size ih =>
      rcases next_cases lexer with ⟨finished, _⟩ | ⟨_, token, later, step, cases⟩
      · simp [going] at finished
      · rw [remaining_cons lexer later token step]
        rcases cases with ⟨atEnd, finished⟩ | ⟨inside, going, shorter⟩
        · rw [remaining, take_of_finished later finished]
          exact .last atEnd
        · exact .cons inside (ih later.rest.length (by omega) later going rfl)

end Lexer

theorem tokens_eq_remaining (source : String) :
    tokens source = (Lexer.ofSource source).remaining :=
  rfl

/-- The tokens of a text end with the only token that ends the input. -/
theorem ended_tokens (source : String) : Ended (tokens source) :=
  Lexer.ended_remaining (Lexer.ofSource source) rfl

end Scriptlet
