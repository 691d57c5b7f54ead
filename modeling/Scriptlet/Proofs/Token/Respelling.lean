import Scriptlet.Proofs.Reader.Repair
import Scriptlet.Proofs.Token.Offsets

/-!
# Texts with given tokens

What a text spells are the kinds and the literals of its tokens. The tokens at the front of a text
can be followed by a patch instead of what follows them: `exists_spelled` gives a text for it. The
exception is a quote without a partner, which takes in whatever stands behind it.
-/
set_option autoImplicit false

namespace Scriptlet

open Token (Kind)

def Token.spelling (token : Token) : Kind × String :=
  (token.kind, token.literal)

/-- A string that is not closed: the rest of the text as one illegal token. -/
def Token.isUnterminated (token : Token) : Bool :=
  token.kind = .illegal && token.literal.toList.head? = some '"'

def Token.ending : Token :=
  ⟨.endOfInput, "", 0, 0⟩

def Spelled (chars : List Char) (list : List (Kind × String)) : Prop :=
  ∀ offset, ∃ lexed, Lexes offset chars lexed ∧ lexed.map Token.spelling = list

variable {chars blanks rest : List Char} {c : Char} {list : List (Kind × String)}

theorem spelled_blank (blank : ∀ c ∈ chars, Text.isBlank c = true) :
    Spelled chars [(.endOfInput, "")] :=
  fun _ => ⟨_, .blank blank, rfl⟩

theorem Spelled.lexeme (blank : ∀ c ∈ blanks, Text.isBlank c = true)
    (ink : Text.isBlank c = false) (spelled : Spelled (scan c rest).rest list) :
    Spelled (blanks ++ c :: rest) (((scan c rest).kind, (scan c rest).literal) :: list) := by
  intro offset
  obtain ⟨lexed, lexes, same⟩ :=
    spelled (offset + byteLength blanks + byteLength (scan c rest).chars)
  exact ⟨_, .lexeme blank ink lexes, congrArg (_ :: ·) same⟩

theorem Spelled.tokens {source : String} (spelled : Spelled source.toList list) :
    (tokens source).map Token.spelling = list := by
  obtain ⟨lexed, lexes, same⟩ := spelled 0
  rw [lexes.tokens_eq, same]

/-! ## Patches -/

def patchText : List Kind → List Char
  | [] => [' ']
  | kind :: patch => ' ' :: (kind.text.toList ++ patchText patch)

theorem filler_text {kind : Kind} (fills : kind.isFiller = true) :
    ∃ c run, kind.text.toList = c :: run ∧ scan c run = ⟨kind, c :: run, []⟩ ∧
      Text.isBlank c = false ∧ c ≠ '"' ∧ kind ≠ .string := by
  cases kind <;> first
    | exact ⟨_, _, rfl, by decide, by decide, by decide, by decide⟩
    | exact absurd fills (by decide)

theorem patchText_head (patch : List Kind) : (patchText patch).head? = some ' ' := by
  cases patch <;> rfl

theorem spelled_patchText {patch : List Kind} (fills : patch.all Kind.isFiller = true) :
    Spelled (patchText patch) ((filling patch).map Token.spelling ++ [(.endOfInput, "")]) := by
  induction patch with
  | nil => exact spelled_blank (List.forall_mem_singleton.mpr (by decide))
  | cons kind patch ih =>
      simp only [List.all_cons, Bool.and_eq_true] at fills
      obtain ⟨c, run, text, scanned, ink, noQuote, noString⟩ := filler_text fills.1
      have fits : Fits (patchText patch) (scan c run).rest :=
        fits_of_blank (patchText_head patch) (by decide)
      have swapped := scan_swap (fun quote => absurd quote noQuote) fits
      rw [scanned, List.tail_cons] at swapped
      have spelled : Spelled ([' '] ++ c :: (run ++ patchText patch)) _ :=
        Spelled.lexeme (List.forall_mem_singleton.mpr (by decide)) ink
          (by rw [swapped]; exact ih fills.2)
      rw [swapped] at spelled
      have literal : Lexeme.literal ⟨kind, c :: run, patchText patch⟩ = kind.text := by
        rw [Lexeme.literal, if_neg noString, ← text, String.ofList_toList]
      rw [literal] at spelled
      simpa [patchText, text, filling, Token.filler, Token.spelling] using spelled

/-! ## Other texts behind the tokens -/

theorem isTerminated_of_token {token : Token} (kind : token.kind = (scan c rest).kind)
    (literal : token.literal = (scan c rest).literal) (closed : token.isUnterminated = false) :
    isTerminated c rest := by
  by_contra unterminated
  rw [scan_unterminated unterminated] at kind literal
  simp [Token.isUnterminated, kind, literal, Lexeme.literal] at closed

theorem Lexes.chars_ne_nil {offset : Nat} {lexed : List Token} (lexes : Lexes offset chars lexed)
    (more : 1 < lexed.length) : chars ≠ [] := by
  cases lexes with
  | blank blank => exact absurd more (by simp)
  | lexeme blank ink lexesRest => simp

/-- What stands behind the tokens at the front of a text can be replaced. -/
theorem Lexes.respelled {offset : Nat} {front after : List Token} {spot : Token}
    (lexes : Lexes offset chars (front ++ spot :: after))
    (closed : ∀ last, front.getLast? = some last → last.isUnterminated = false)
    {tail : List Char} (begins : tail.head? = some ' ') (spelled : Spelled tail list) :
    ∃ other, Fits other chars ∧ Spelled other (front.map Token.spelling ++ list) := by
  induction front generalizing offset chars with
  | nil => exact ⟨tail, fits_of_blank begins (by decide), spelled⟩
  | cons token front ih =>
      generalize listed : token :: front ++ spot :: after = lexed at lexes
      cases lexes with
      | blank blank => cases front <;> cases listed
      | @lexeme offset blanks c rest more blank ink lexesMore =>
          obtain ⟨rfl, rfl⟩ := List.cons.inj listed
          have closedRest : ∀ last, front.getLast? = some last → last.isUnterminated = false := by
            intro last found
            exact closed last (by rw [List.getLast?_cons, found]; rfl)
          obtain ⟨other, fits, spelledOther⟩ := ih lexesMore closedRest
          have terminated : isTerminated c rest := by
            cases front with
            | nil => exact isTerminated_of_token rfl rfl (closed _ rfl)
            | cons next front =>
                refine isTerminated_of_rest (lexesMore.chars_ne_nil ?_)
                show 1 < ((next :: front) ++ spot :: after).length
                simp only [List.length_cons, List.length_append]
                omega
          have swapped := scan_swap terminated fits
          obtain ⟨run, chars⟩ := scan_chars_eq c rest
          rw [chars, List.tail_cons] at swapped
          have spelledAll : Spelled (blanks ++ c :: (run ++ other)) _ :=
            Spelled.lexeme blank ink (by rw [swapped]; exact spelledOther)
          refine ⟨blanks ++ c :: (run ++ other), fun _ => .inl ∘ ?_, ?_⟩
          · cases blanks <;> exact id
          rw [swapped] at spelledAll
          simpa [Token.spelling, Lexeme.literal, chars] using spelledAll

/-- There is a text for the tokens and a patch behind them. -/
theorem exists_spelled {source : String} {front after : List Token} {spot : Token}
    (split : tokens source = front ++ spot :: after)
    (closed : ∀ last, front.getLast? = some last → last.isUnterminated = false)
    {patch : List Kind} (fills : patch.all Kind.isFiller = true) :
    ∃ text, (tokens text).map Token.spelling =
      (front ++ (filling patch ++ [Token.ending])).map Token.spelling := by
  have lexes := lexes_tokens source
  rw [split] at lexes
  obtain ⟨chars, _, spelled⟩ := lexes.respelled closed (patchText_head patch) (spelled_patchText fills)
  refine ⟨String.ofList chars, ?_⟩
  rw [← String.toList_ofList (l := chars)] at spelled
  rw [spelled.tokens]
  simp [Token.ending, Token.spelling]

/-! ## Strings that are not closed -/

theorem scan_rest_of_unterminated (kind : (scan c rest).kind = .illegal)
    (literal : (scan c rest).literal.toList.head? = some '"') : (scan c rest).rest = [] := by
  by_contra goesOn
  have terminated := isTerminated_of_rest goesOn
  obtain ⟨run, chars⟩ := scan_chars_eq c rest
  obtain rfl : c = '"' := by
    simpa [Lexeme.literal, kind, chars] using literal
  obtain ⟨inside, after, rfl, noQuote⟩ := List.eq_append_cons_of_mem (terminated rfl)
  rw [scan_string noQuote] at kind
  cases kind

/-- A string that is not closed is the last token before the end of the input. -/
theorem Lexes.after_unterminated {offset : Nat} {front after : List Token} {token : Token}
    (lexes : Lexes offset chars (front ++ token :: after))
    (isOpen : token.isUnterminated = true) :
    after.map Token.spelling = [(.endOfInput, "")] := by
  generalize listed : front ++ token :: after = lexed at lexes
  induction lexes generalizing front with
  | blank blank =>
      cases front with
      | nil =>
          cases listed
          cases isOpen
      | cons first front => simp at listed
  | @lexeme offset blanks c rest list blank ink lexesRest ih =>
      cases front with
      | nil =>
          obtain ⟨rfl, rfl⟩ := List.cons.inj listed
          simp only [Token.isUnterminated, Bool.and_eq_true, decide_eq_true_eq] at isOpen
          rw [scan_rest_of_unterminated isOpen.1 isOpen.2] at lexesRest
          rw [lexesRest.remaining.symm.trans (Lexes.blank (by simp)).remaining]
          rfl
      | cons first front => exact ih (List.cons.inj listed).2

end Scriptlet
