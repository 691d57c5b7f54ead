import Scriptlet.Proofs.Reader.Concatenation
import Scriptlet.Proofs.Token.Respelling
import Scriptlet.Proofs.Token.Tiling

/-!
# Layout

It does not matter which blanks stand around the tokens of a text. The lexemes of a text can be laid
out anew (`laidOut`) with any blanks before, between and behind them, as long as there are some
between any two of them and none behind a string that is not closed. The new text has the same
tokens but for their places, and it is read in the same way: the same statements, and the same
diagnostics about the tokens that have the same number.
-/
set_option autoImplicit false

namespace Scriptlet

open Token (Kind)

def Token.lexeme (source : String) (token : Token) : String :=
  between source token.start token.stop

def lexemes (source : String) : List String :=
  (tokens source).dropLast.map (Token.lexeme source)

/-- The lexemes one after the other, with the first of the gaps before them and one behind each. -/
def laidOut (gap : Nat → String) : List String → String
  | [] => gap 0
  | lexeme :: lexemes => gap 0 ++ lexeme ++ laidOut (fun index => gap (index + 1)) lexemes

/-- Gaps of blanks for these tokens. Only the first and the last of them may be empty, and the last
one has to be if it stood behind a string that is not closed. -/
structure Layout (list : List Token) (gap : Nat → String) : Prop where
  blank : ∀ index ≤ list.length, ∀ c ∈ (gap index).toList, Text.isBlank c = true
  apart : ∀ index, 0 < index → index < list.length → gap index ≠ ""
  closed : ∀ token, list.getLast? = some token → token.isUnterminated = true →
    gap list.length = ""

def Diagnostic.placed (place : Nat) : Diagnostic → Diagnostic
  | .unexpected expected got _ => .unexpected expected got place
  | .noExpression kind _ => .noExpression kind place
  | .illegal literal _ => .illegal literal place
  | .badInteger literal _ => .badInteger literal place

/-- The same diagnostic about the tokens that have the same number in the two lists. -/
def Diagnostic.Corresponds (list others : List Token) (diagnostic other : Diagnostic) : Prop :=
  ∃ (number : Nat) (token twin : Token), list[number]? = some token ∧
    others[number]? = some twin ∧ diagnostic.position = token.start ∧
    other = diagnostic.placed twin.start

/-! ## The tokens -/

section Tokens

variable {source : String} {gap : Nat → String} {list : List Token} {token : Token}

theorem Layout.tail (layout : Layout (token :: list) gap) :
    Layout list fun index => gap (index + 1) where
  blank index within := layout.blank (index + 1) (Nat.succ_le_succ within)
  apart index _ within := layout.apart (index + 1) (Nat.succ_pos index) (Nat.succ_lt_succ within)
  closed last found := layout.closed last (by rw [List.getLast?_cons, found]; rfl)

theorem toList_laidOut_cons (lexeme : String) (lexemes : List String) :
    (laidOut gap (lexeme :: lexemes)).toList =
      (gap 0).toList ++
        (lexeme.toList ++ (laidOut (fun index => gap (index + 1)) lexemes).toList) := by
  simp [laidOut]

/-- What is laid out behind a token begins with a blank, if with anything. -/
theorem Layout.fits (layout : Layout (token :: list) gap) (source : String) (rest : List Char) :
    Fits (laidOut (fun index => gap (index + 1)) (list.map (Token.lexeme source))).toList rest := by
  intro c found
  refine .inr (layout.blank 1 (Nat.succ_le_succ (Nat.zero_le _)) c ?_)
  cases list with
  | nil => exact List.mem_of_head? found
  | cons next list =>
      have nonempty : (gap 1).toList ≠ [] := fun nothing =>
        layout.apart 1 Nat.one_pos (by simp) (String.toList_eq_nil_iff.mp nothing)
      rw [List.map_cons, toList_laidOut_cons, List.head?_append_of_ne_nil _ nonempty] at found
      exact List.mem_of_head? found

theorem Layout.scan_eq (source : String) {offset start stop : Nat} {c : Char} {rest : List Char}
    (layout :
      Layout (⟨(scan c rest).kind, (scan c rest).literal, start, stop⟩ :: list.dropLast) gap)
    (more : Lexes offset (scan c rest).rest list) {run tail : List Char}
    (listed : (scan c rest).chars = c :: run)
    (follows : (laidOut (fun index => gap (index + 1))
      (list.dropLast.map (Token.lexeme source))).toList = tail) :
    scan c (run ++ tail) = ⟨(scan c rest).kind, (scan c rest).chars, tail⟩ := by
  by_cases terminated : isTerminated c rest
  · have swapped := scan_swap terminated (follows ▸ layout.fits source (scan c rest).rest)
    rwa [listed, List.tail_cons, ← listed] at swapped
  · -- the quote takes in all that follows it, so nothing may
    have scanned := scan_unterminated terminated
    rw [scanned] at more listed layout ⊢
    obtain ⟨rfl, rfl⟩ := List.cons.inj listed
    have last : list.dropLast = [] := by
      rw [← more.remaining, (Lexes.blank (by simp)).remaining]
      rfl
    rw [last] at layout follows
    have nothing : tail = [] := by
      rw [← follows, List.map_nil, laidOut, String.toList_eq_nil_iff]
      exact layout.closed _ rfl (by simp [Token.isUnterminated, Lexeme.literal])
    rw [nothing, List.append_nil, scanned]

/-- The lexemes of the rest of a text spell the same tokens wherever they are laid out. -/
theorem Lexes.spelled_laidOut {offset : Nat} {chars : List Char} (lexes : Lexes offset chars list)
    (front : List Char) (split : source.toList = front ++ chars)
    (place : byteLength front = offset) (layout : Layout list.dropLast gap) :
    Spelled (laidOut gap (list.dropLast.map (Token.lexeme source))).toList
      (list.map Token.spelling) := by
  induction lexes generalizing front gap with
  | blank blank => exact spelled_blank (layout.blank 0 le_rfl)
  | @lexeme offset blanks c rest list blank ink more ih =>
      have spans : Spans source (offset + byteLength blanks)
          (offset + byteLength blanks + byteLength (scan c rest).chars) (scan c rest).chars :=
        ⟨front ++ blanks, (scan c rest).rest, by rw [scan_split, split, List.append_assoc],
          by rw [byteLength_append, place], rfl⟩
      obtain ⟨run, listed⟩ := scan_chars_eq c rest
      have blankFirst : ∀ c ∈ (gap 0).toList, Text.isBlank c = true :=
        layout.blank 0 (Nat.zero_le _)
      rw [List.dropLast_cons_of_ne_nil more.ne_nil] at layout ⊢
      have scanned := layout.scan_eq source more listed rfl
      have spelledMore := ih (front ++ (blanks ++ (scan c rest).chars))
        (by rw [split, List.append_assoc, List.append_assoc, scan_split])
        (by rw [byteLength_append, byteLength_append, place, Nat.add_assoc]) layout.tail
      have spelled := Spelled.lexeme blankFirst ink (by rw [scanned]; exact spelledMore)
      rw [scanned] at spelled
      rw [List.map_cons, List.map_cons, toList_laidOut_cons, Token.lexeme, spans.between_eq,
        String.toList_ofList, listed]
      exact spelled

theorem tokens_laidOut (layout : Layout (tokens source).dropLast gap) :
    (tokens (laidOut gap (lexemes source))).map Token.spelling =
      (tokens source).map Token.spelling :=
  ((lexes_tokens source).spelled_laidOut [] rfl rfl layout).tokens

end Tokens

/-! ## The reading -/

theorem Course.nil_iff_nil : ([] : List Token) = [] ↔ ([] : List Token) = [] :=
  Iff.rfl

def Course.numbered (list others : List Token) : Course where
  Same token twin := (token, twin) ∈ list.zip others ∧ token.spelling = twin.spelling
  kind_eq same := congrArg Prod.fst same.2
  literal_eq same := congrArg Prod.snd same.2
  rest := []
  other := []
  ends_iff := Course.nil_iff_nil
  before := []

namespace Course

variable {list others : List Token}

theorem common_numbered {rest twins : List Token} (within : rest.zip twins ⊆ list.zip others)
    (same : rest.map Token.spelling = twins.map Token.spelling) :
    (numbered list others).Common rest twins := by
  induction rest generalizing twins with
  | nil =>
      rw [List.map_eq_nil_iff.mp same.symm]
      exact .rest
  | cons token rest ih =>
      cases twins with
      | nil => cases same
      | cons twin twins =>
          obtain ⟨sameToken, sameRest⟩ := List.cons.inj same
          rw [List.zip_cons_cons] at within
          exact .cons ⟨within List.mem_cons_self, sameToken⟩
            (ih (fun _ member => within (List.mem_cons_of_mem _ member)) sameRest)

theorem abreast_numbered (ended : Ended list) (endedOther : Ended others)
    (same : list.map Token.spelling = others.map Token.spelling) :
    (numbered list others).Abreast (.start list) (.start others) := by
  obtain ⟨token, ahead, rfl⟩ := List.exists_cons_of_ne_nil ended.ne_nil
  cases others with
  | nil => cases same
  | cons twin twins =>
      obtain ⟨sameToken, sameRest⟩ := List.cons.inj same
      have first : (token, twin) ∈ (token :: ahead).zip (twin :: twins) := List.mem_cons_self
      exact ⟨ended, endedOther, ⟨first, sameToken⟩,
        common_numbered (List.subset_cons_self _ _) sameRest, [], .nil, rfl⟩

theorem Alike.corresponds {diagnostic other : Diagnostic}
    (alike : (numbered list others).Alike diagnostic other) :
    diagnostic.Corresponds list others other := by
  have numbers {token twin : Token} (member : (token, twin) ∈ list.zip others) :
      ∃ number : Nat, list[number]? = some token ∧ others[number]? = some twin := by
    obtain ⟨number, found⟩ := List.mem_iff_getElem?.mp member
    exact ⟨number, List.getElem?_zip_eq_some.mp found⟩
  cases alike with
  | @unexpected expected token twin same =>
      obtain ⟨number, found, foundTwin⟩ := numbers same.1
      refine ⟨number, _, _, found, foundTwin, rfl, ?_⟩
      rw [Diagnostic.unexpectedToken, Diagnostic.unexpectedToken, (numbered _ _).kind_eq same]
      rfl
  | @notLeading token twin same =>
      obtain ⟨number, found, foundTwin⟩ := numbers same.1
      refine ⟨number, _, _, found, foundTwin, Diagnostic.notLeading_position _, ?_⟩
      rw [Diagnostic.notLeading, Diagnostic.notLeading, (numbered _ _).kind_eq same,
        (numbered _ _).literal_eq same]
      split <;> rfl
  | @badInteger token twin same =>
      obtain ⟨number, found, foundTwin⟩ := numbers same.1
      refine ⟨number, _, _, found, foundTwin, rfl, ?_⟩
      rw [(numbered _ _).literal_eq same]
      rfl

end Course

/-- Whichever blanks stand around the tokens of a text, they say the same and are read as the same
statements, with the same diagnostics about them. -/
theorem layout_immaterial {source : String} {gap : Nat → String}
    (layout : Layout (tokens source).dropLast gap) :
    let text := laidOut gap (lexemes source)
    (tokens text).map Token.spelling = (tokens source).map Token.spelling ∧
      (read text).complete = true ∧ (read source).complete = true ∧
      (read text).program = (read source).program ∧
      List.Forall₂ (Diagnostic.Corresponds (tokens source) (tokens text))
        (read source).diagnostics (read text).diagnostics := by
  intro text
  have same : (tokens text).map Token.spelling = (tokens source).map Token.spelling :=
    tokens_laidOut layout
  have length : (tokens text).length = (tokens source).length := by
    simpa using congrArg List.length same
  obtain ⟨statements, later, ran, readSource⟩ := read_eq (le_refl (tokens source).length)
  obtain ⟨statementsText, laterText, ranText, readText⟩ := read_eq (le_of_eq length)
  have abreast := Course.abreast_numbered (ended_tokens source) (ended_tokens text) same.symm
  obtain ⟨laterOther, ranOther, along⟩ := abreast.programRest rfl ran
  cases ranOther.symm.trans ranText
  obtain ⟨new, alikes, recorded⟩ := along.recorded
  rw [readSource, readText, recorded]
  exact ⟨same, rfl, rfl, rfl, alikes.imp fun _ _ => Course.Alike.corresponds⟩

/-- Wide blanks around the tokens of a bad statement, but none behind a string without an end. -/
theorem layout_immaterial_unclosed :
    (let gap : Nat → String := fun index => if index < 7 then "\u2003" else ""
    let source := "let=1;x!=\"a"
    Layout (tokens source).dropLast gap ∧
      laidOut gap (lexemes source) = "\u2003let\u2003=\u20031\u2003;\u2003x\u2003!=\u2003\"a" ∧
      (read (laidOut gap (lexemes source))).program = (read source).program ∧
      List.Forall₂ (Diagnostic.Corresponds (tokens source) (tokens (laidOut gap (lexemes source))))
        (read source).diagnostics (read (laidOut gap (lexemes source))).diagnostics) := by
  have listed : tokens "let=1;x!=\"a" =
      [⟨.letWord, "let", 0, 3⟩, ⟨.assign, "=", 3, 4⟩, ⟨.integer, "1", 4, 5⟩,
        ⟨.semicolon, ";", 5, 6⟩, ⟨.name, "x", 6, 7⟩, ⟨.notEqual, "!=", 7, 9⟩,
        ⟨.illegal, "\"a", 9, 11⟩, ⟨.endOfInput, "", 11, 11⟩] := by decide
  intro gap source
  have layout : Layout (tokens source).dropLast gap := by
    rw [listed]
    refine ⟨fun index _ => ?_, fun index _ within => ?_, fun _ _ _ => rfl⟩
    · unfold gap
      split
      · exact List.forall_mem_singleton.mpr rfl
      · exact List.forall_mem_nil _
    · have here : gap index = "\u2003" := if_pos within
      exact here ▸ by decide
  have laid : laidOut gap (lexemes source) =
      "\u2003let\u2003=\u20031\u2003;\u2003x\u2003!=\u2003\"a" := by
    rw [lexemes, listed]
    decide
  obtain ⟨_, _, _, program, diagnostics⟩ := layout_immaterial layout
  exact ⟨layout, laid, program, diagnostics⟩

end Scriptlet
