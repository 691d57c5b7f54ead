import Scriptlet.Proofs.Reader.Completion
import Scriptlet.Proofs.Token.Respelling

/-!
# The first diagnostic

The first diagnostic of a reading stands at the earliest token it can stand at. Once this token has
been read nothing can make a program of the text, since readers never look further ahead before they
complain (`parse_ne_of_spelled`). The tokens before it, on the other hand, are the beginning of a
program (`exists_parse`), unless the last of them is a string that is not closed: a `let` or a
`return` passes over it together with other junk, but no text can stand behind it.
-/
set_option autoImplicit false

namespace Scriptlet

open Token (Kind)

theorem Ended.rest_eq_nil_iff_mem {front rest : List Token} (ended : Ended (front ++ rest))
    (nonempty : front ≠ []) :
    rest = [] ↔ Kind.endOfInput ∈ (front.map Token.spelling).map Prod.fst := by
  induction front with
  | nil => exact absurd rfl nonempty
  | cons token front ih =>
      by_cases more : front = []
      · rw [more] at ended ⊢
        have isLast : rest = [] ↔ token.kind = .endOfInput := ended.rest_eq_nil_iff
        rw [isLast]
        simp [Token.spelling, eq_comm]
      · have inside : token.kind ≠ .endOfInput :=
          fun atEnd => absurd (ended.rest_eq_nil_iff.mpr atEnd) (by simp [more])
        have endedRest : Ended (front ++ rest) :=
          ended.of_suffix (List.suffix_cons _ _) (by simp [more])
        rw [ih endedRest more]
        simp [Token.spelling, inside.symm]

namespace Course

def alike (rest other : List Token) (ends_iff : rest = [] ↔ other = []) : Course where
  Same token twin := token.spelling = twin.spelling
  kind_eq := congrArg Prod.fst
  literal_eq := congrArg Prod.snd
  rest := rest
  other := other
  ends_iff := ends_iff
  before := []

variable {front twins rest others : List Token} {ends_iff : rest = [] ↔ others = []}

theorem common_alike (same : front.map Token.spelling = twins.map Token.spelling) :
    (alike rest others ends_iff).Common (front ++ rest) (twins ++ others) := by
  induction front generalizing twins with
  | nil =>
      rw [List.map_eq_nil_iff.mp same.symm]
      exact .rest
  | cons token front ih =>
      cases twins with
      | nil => cases same
      | cons twin twins =>
          obtain ⟨sameToken, sameRest⟩ := List.cons.inj same
          exact .cons sameToken (ih sameRest)

theorem abreast_alike (nonempty : front ≠ [])
    (same : front.map Token.spelling = twins.map Token.spelling) (ended : Ended (front ++ rest))
    (endedOther : Ended (twins ++ others)) :
    (alike rest others ends_iff).Abreast (.start (front ++ rest)) (.start (twins ++ others)) := by
  obtain ⟨token, front, rfl⟩ := List.exists_cons_of_ne_nil nonempty
  cases twins with
  | nil => cases same
  | cons twin twins =>
      obtain ⟨sameToken, sameRest⟩ := List.cons.inj same
      exact ⟨ended, endedOther, sameToken, common_alike sameRest, [], .nil, rfl⟩

end Course

/-! ## Readings without diagnostics -/

theorem Reading.diagnostics_ofOutcome (outcome : Outcome Cursor Diagnostic Program) :
    (Reading.ofOutcome outcome).diagnostics = outcome.diagnostics := by
  cases outcome <;> rfl

theorem Cursor.start_recorded (list : List Token) : (Cursor.start list).recorded = [] := by
  cases list <;> rfl

theorem Cursor.start_tokens {list : List Token} (nonempty : list ≠ []) :
    (Cursor.start list).tokens = list := by
  obtain ⟨token, ahead, rfl⟩ := List.exists_cons_of_ne_nil nonempty
  rfl

theorem read_points {source : String} {diagnostic : Diagnostic}
    (found : diagnostic ∈ (read source).diagnostics) : diagnostic.PointsInto (tokens source) := by
  have start_tokens := Cursor.start_tokens (ended_tokens source).ne_nil
  have cites := Reader.local_program (tokens source).length (.start (tokens source))
    (start_tokens ▸ ended_tokens source)
  rw [read, readWith, Reading.diagnostics_ofOutcome] at found
  exact start_tokens ▸ cites.points (Cursor.start_recorded _) found

/-- A text is a program if other tokens that say the same are. -/
theorem parse_of_leads {text : String} {list : List Token} {statements : Block} {bound : Nat}
    (spelled : (tokens text).map Token.spelling = list.map Token.spelling) (ended : Ended list)
    (leads : Reader.Leads (Reader.programRest (Reader.statement (Reader.expression .standard bound))
      bound) list statements []) :
    parse text = .ok ⟨statements⟩ := by
  obtain ⟨token, ahead, rfl, runs⟩ := leads
  obtain ⟨last, ran⟩ := runs []
  let course : Course := .alike [] [] Iff.rfl
  have abreast : course.Abreast (.start (token :: ahead ++ [])) (.start (tokens text ++ [])) :=
    Course.abreast_alike (by simp) spelled.symm (by simpa using ended) (by simpa using ended_tokens text)
  rw [List.append_nil, List.append_nil] at abreast
  obtain ⟨later, ranText, along⟩ := abreast.programRest rfl ran
  obtain ⟨new, alikes, recorded⟩ := along.recorded
  cases alikes
  -- the bound may be too small for the text in general, but it was enough for this one
  let larger := max bound (tokens text).length
  have extend : Run.Extends
      (Reader.programRest (Reader.statement (Reader.expression .standard bound)) bound)
      (Reader.programRest (Reader.statement (Reader.expression .standard larger)) larger) :=
    Reader.extends_programRest (Reader.extends_statement
      (Reader.extends_expression .standard (le_max_left _ _))) (le_max_left _ _)
  obtain ⟨found, final, ranFinal, readText⟩ := read_eq (le_max_right bound (tokens text).length)
  cases (Reader.extended extend ranText).symm.trans ranFinal
  simp only [parse, readText, recorded]
  rfl

/-! ## With the token -/

section Earliest

variable {source text : String} {before after : List Token} {spot : Token} {diagnostic : Diagnostic}
  (split : tokens source = before ++ spot :: after)
  (first : (read source).diagnostics.head? = some diagnostic)
  (position : diagnostic.position = spot.start)

include split first position

/-- No text that begins with the tokens up to the one complained about is a program. -/
theorem parse_ne_of_spelled
    (spells : (before ++ [spot]).map Token.spelling <+: (tokens text).map Token.spelling)
    (program : Program) : parse text ≠ .ok program := by
  intro parsed
  obtain ⟨last, ranText⟩ := (derived_of_parse parsed).readTokens
  obtain ⟨moreSpelled, whole⟩ := spells
  obtain ⟨twins, others, splitText, same, _⟩ := List.map_eq_append_iff.mp whole.symm
  have splitSource : tokens source = before ++ [spot] ++ after := split.trans (List.append_cons _ _ _)
  have ended := splitSource ▸ ended_tokens source
  have endedText := splitText ▸ ended_tokens text
  have nonempty : twins ≠ [] := by
    rintro rfl
    simp at same
  have ends_iff : after = [] ↔ others = [] := by
    rw [ended.rest_eq_nil_iff_mem (by simp), endedText.rest_eq_nil_iff_mem nonempty, same]
  let course : Course := .alike after others ends_iff
  have abreast : course.Abreast (.start (tokens source)) (.start (tokens text)) := by
    rw [splitSource, splitText]
    exact Course.abreast_alike (by simp) same.symm ended endedText
  have clear : course.Clear diagnostic := by
    intro points
    obtain ⟨token, member, start⟩ := List.mem_map.mp points
    have increasing := split ▸ increasing_tokens source
    have later := (List.pairwise_cons.mp (List.pairwise_append.mp increasing).2.1).1 token member
    omega
  have firstHere : (readTokens .standard (tokens source)).diagnostics.head? = some diagnostic := by
    rwa [read, readWith, Reading.diagnostics_ofOutcome] at first
  let bound := max (tokens source).length (tokens text).length
  have inStep : course.First True (Reader.program .standard bound) (Reader.program .standard bound) :=
    Course.first_program bound
  have mirrors := inStep.mirrors _ _ abreast
  rw [Reader.program_eq_readTokens .standard (ended_tokens source) (le_max_left _ _),
    Reader.program_eq_readTokens .standard (ended_tokens text) (le_max_right _ _), ranText] at mirrors
  exact mirrors.fails (Cursor.start_recorded _) diagnostic firstHere clear program _ rfl
    (Cursor.start_recorded _).symm

/-- The tokens before the one complained about are the beginning of a program. -/
theorem exists_parse
    (closed : ∀ last, before.getLast? = some last → last.isUnterminated = false) :
    ∃ text program, before.map Token.spelling <+: (tokens text).map Token.spelling ∧
      parse text = .ok program := by
  let depth := (tokens source).length
  let stmt (depth : Nat) := Reader.statement (Reader.expression .standard depth)
  obtain ⟨statements, later, ran, readSource⟩ := read_eq (le_refl depth)
  have fails : Reader.Fails (Reader.programRest (stmt depth) depth) (.start (tokens source)) before
      spot after := by
    have start_tokens := Cursor.start_tokens (ended_tokens source).ne_nil
    refine ⟨start_tokens ▸ ended_tokens source, start_tokens ▸ increasing_tokens source,
      Cursor.start_recorded _, start_tokens.trans split, diagnostic, ?_, position⟩
    rw [ran]
    rwa [readSource] at first
  obtain ⟨patch, fills, completed, leads⟩ := Reader.completes_programRest
    (Reader.begun_statement (Reader.begun_expression depth)) depth fails
  obtain ⟨text, spelled⟩ := exists_spelled split closed fills
  refine ⟨text, ⟨completed⟩, ?_, ?_⟩
  · rw [spelled, List.map_append]
    exact List.prefix_append _ _
  · have ended : Ended (before ++ (filling patch ++ [Token.ending])) :=
      (split ▸ ended_tokens source).swap ((Ended.last rfl).filled fills)
    exact parse_of_leads spelled ended (leads Token.ending rfl)

/-- Nothing can be made of a text whose last token is a string that is not closed, if the end of the
input is what is complained about. -/
theorem parse_ne_of_unterminated {last : Token} (found : before.getLast? = some last)
    (isOpen : last.isUnterminated = true)
    (spells : before.map Token.spelling <+: (tokens text).map Token.spelling) (program : Program) :
    parse text ≠ .ok program := by
  obtain ⟨front, rfl⟩ := List.getLast?_eq_some_iff.mp found
  -- both texts end with the string
  have ending : (spot :: after).map Token.spelling = [(.endOfInput, "")] := by
    have lexes := lexes_tokens source
    rw [split, List.append_assoc] at lexes
    exact lexes.after_unterminated isOpen
  obtain ⟨moreSpelled, whole⟩ := spells
  obtain ⟨twins, others, splitText, same, _⟩ := List.map_eq_append_iff.mp whole.symm
  have endingText : others.map Token.spelling = [(.endOfInput, "")] := by
    rw [List.map_append] at same
    obtain ⟨twinsFront, twinsLast, rfl, _, sameLast⟩ := List.map_eq_append_iff.mp same
    obtain ⟨twin, rfl, sameTwin⟩ := List.map_eq_singleton_iff.mp sameLast
    have lexes := lexes_tokens text
    rw [splitText, List.append_assoc] at lexes
    refine lexes.after_unterminated ?_
    obtain ⟨kind, literal⟩ := Prod.mk.inj sameTwin
    rwa [Token.isUnterminated, kind, literal]
  have sameSpot : [spot].map Token.spelling = others.map Token.spelling := by
    rw [endingText, List.map_singleton, (List.cons.inj ending).1]
  refine parse_ne_of_spelled split first position ?_ program
  rw [splitText, List.map_append, sameSpot, ← same, ← List.map_append]

end Earliest

/-- The first diagnostic of a text points at the earliest token it could point at. No program begins
with the tokens up to this one. Some program begins with the tokens before it, exactly if the last
of these is no string that is not closed. -/
theorem first_diagnostic_earliest {source : String} {diagnostic : Diagnostic}
    {others : List Diagnostic} (found : (read source).diagnostics = diagnostic :: others) :
    ∃ before spot after, tokens source = before ++ spot :: after ∧
      spot.start = diagnostic.position ∧
      ((∃ text program, before.map Token.spelling <+: (tokens text).map Token.spelling ∧
          parse text = .ok program) ↔
        ∀ last, before.getLast? = some last → last.isUnterminated = false) ∧
      ∀ text program,
        (before ++ [spot]).map Token.spelling <+: (tokens text).map Token.spelling →
          parse text ≠ .ok program := by
  have first : (read source).diagnostics.head? = some diagnostic := by rw [found]; rfl
  have points := read_points (List.mem_of_head? first)
  obtain ⟨spot, member, start⟩ := List.mem_map.mp points
  obtain ⟨before, after, split⟩ := List.append_of_mem member
  refine ⟨before, spot, after, split, start, ⟨?_, exists_parse split first start.symm⟩, ?_⟩
  · rintro ⟨text, program, spells, parsed⟩ last isLast
    by_contra isOpen
    exact parse_ne_of_unterminated split first start.symm isLast (by simpa using isOpen) spells program
      parsed
  · intro text program spells
    exact parse_ne_of_spelled split first start.symm spells program

theorem first_diagnostic_earliest_let :
    ∃ before spot after, tokens "let = 1" = before ++ spot :: after ∧ spot.start = 4 ∧
      ((∃ text program, before.map Token.spelling <+: (tokens text).map Token.spelling ∧
          parse text = .ok program) ↔
        ∀ last, before.getLast? = some last → last.isUnterminated = false) ∧
      ∀ text program,
        (before ++ [spot]).map Token.spelling <+: (tokens text).map Token.spelling →
          parse text ≠ .ok program := by
  have listed : tokens "let = 1" =
      [⟨.letWord, "let", 0, 3⟩, ⟨.assign, "=", 4, 5⟩, ⟨.integer, "1", 6, 7⟩,
        ⟨.endOfInput, "", 7, 7⟩] := by
    decide
  have found : (read "let = 1").diagnostics = [.unexpected .name .assign 4] := by
    rw [read, readWith, listed]
    cbv
  exact first_diagnostic_earliest found

/-- The string is passed over as junk, and the end of the input behind it is complained about. -/
theorem unclosed_string_skipped :
    (read "fn() \x7b let x = 1 \"abc").diagnostics = [.unexpected .rightBrace .endOfInput 21] ∧
      ∃ before spot, tokens "fn() \x7b let x = 1 \"abc" = before ++ [spot] ∧ spot.start = 21 ∧
        ∀ text program, before.map Token.spelling <+: (tokens text).map Token.spelling →
          parse text ≠ .ok program := by
  have listed : tokens "fn() \x7b let x = 1 \"abc" =
      [⟨.functionWord, "fn", 0, 2⟩, ⟨.leftParen, "(", 2, 3⟩, ⟨.rightParen, ")", 3, 4⟩,
        ⟨.leftBrace, "\x7b", 5, 6⟩, ⟨.letWord, "let", 7, 10⟩, ⟨.name, "x", 11, 12⟩,
        ⟨.assign, "=", 13, 14⟩, ⟨.integer, "1", 15, 16⟩, ⟨.illegal, "\"abc", 17, 21⟩] ++
      [⟨.endOfInput, "", 21, 21⟩] := by
    decide
  have diagnostics : (read "fn() \x7b let x = 1 \"abc").diagnostics =
      [.unexpected .rightBrace .endOfInput 21] := by
    rw [read, readWith, listed]
    cbv
  refine ⟨diagnostics, _, _, listed, rfl, fun text program spells => ?_⟩
  exact parse_ne_of_unterminated listed (by rw [diagnostics]; rfl) rfl rfl (by decide) spells program

end Scriptlet
