import Scriptlet.Proofs.Phrase.Recognition
import Scriptlet.Proofs.Reader.Concatenation

/-!
# Programs in pieces

A text with nothing wrong in it that ends with a semicolon can be followed by another such text:
the two together are read as the statements of the one and then those of the other. So any number
of pieces make one program, as long as all but the last end with a semicolon (`parse_join`).
-/
set_option autoImplicit false

namespace Scriptlet

def endsWithSemicolon (source : String) : Bool :=
  (tokens source).dropLast.getLast?.map Token.kind == some .semicolon

theorem tokens_of_endsWithSemicolon {source : String} (ends : endsWithSemicolon source = true) :
    ∃ front semicolon ending, tokens source = front ++ [semicolon, ending] ∧
      semicolon.kind = .semicolon := by
  obtain ⟨semicolon, last, isSemicolon⟩ := Option.map_eq_some_iff.mp (beq_iff_eq.mp ends)
  obtain ⟨front, split⟩ := List.getLast?_eq_some_iff.mp last
  have whole := List.dropLast_append_getLast (ended_tokens source).ne_nil
  rw [split, List.append_assoc] at whole
  exact ⟨front, semicolon, _, whole.symm, isSemicolon⟩

theorem statements_ne_nil_of_endsWithSemicolon {source : String} {program : Program}
    (ends : endsWithSemicolon source = true) (parsed : parse source = .ok program) :
    program.statements ≠ [] := by
  intro none
  obtain ⟨front, semicolon, ending, listed, _⟩ := tokens_of_endsWithSemicolon ends
  obtain ⟨last, derived⟩ := derived_of_parse parsed
  rw [none, listed] at derived
  generalize same : front ++ [semicolon, ending] = list at derived
  cases derived with
  | statementsEnd => simpa using congrArg List.length same

/-- The statements of an accepted text are those of the loop, which records nothing. -/
theorem programRest_of_parse {source : String} {program : Program}
    (parsed : parse source = .ok program) {bound : Nat} (enough : (tokens source).length ≤ bound) :
    ∃ later,
      Reader.programRest (Reader.statement (Reader.expression .standard bound)) bound
        (.start (tokens source)) = .ok program.statements later ∧ later.recorded = [] := by
  obtain ⟨statements, later, ran, readSource⟩ := read_eq enough
  simp only [parse, Reading.result, readSource] at parsed
  split at parsed
  · rename_i clean
    cases parsed
    exact ⟨later, ran, by simpa using clean⟩
  · cases parsed

theorem parse_append {first second : String} {program programSecond : Program}
    (ends : endsWithSemicolon first = true) (parsed : parse first = .ok program)
    (parsedSecond : parse second = .ok programSecond) :
    parse (first ++ second) = .ok ⟨program.statements ++ programSecond.statements⟩ := by
  obtain ⟨front, semicolon, ending, listed, isSemicolon⟩ := tokens_of_endsWithSemicolon ends
  have both := tokens_append listed isSemicolon second
  have ending_eq := tokens_ending (listed.trans (List.append_cons _ _ _))
  have nonempty : (tokens second).map (Token.moved first.utf8ByteSize) ≠ [] := by
    simpa using (ended_tokens second).ne_nil
  -- one bound for all three readings
  obtain ⟨bound, enough⟩ : ∃ bound, ∀ source ∈ [first, second, first ++ second],
      (tokens source).length ≤ bound := by
    refine ⟨(tokens first).length + (tokens second).length + (tokens (first ++ second)).length, ?_⟩
    intro source isOne
    simp only [List.mem_cons, List.not_mem_nil, or_false] at isOne
    rcases isOne with rfl | rfl | rfl <;> omega
  obtain ⟨later, ran, clean⟩ := programRest_of_parse parsed (enough first (by simp))
  obtain ⟨laterSecond, ranSecond, cleanSecond⟩ :=
    programRest_of_parse parsedSecond (enough second (by simp))
  obtain ⟨statements, laterBoth, ranBoth, readBoth⟩ := read_eq (enough (first ++ second) (by simp))
  have endedBoth := ended_tokens (first ++ second)
  have endedFirst := ended_tokens first
  rw [listed] at ran endedFirst
  rw [both] at ranBoth endedBoth
  obtain ⟨used, middle, tokensMiddle, recordedMiddle, goesOn⟩ := programRest_append endedFirst
    endedBoth nonempty isSemicolon (by rw [ending_eq]) ran (by simp [clean])
  have endedMiddle : Ended middle.tokens := by
    rw [tokensMiddle]
    exact endedBoth.of_suffix ((List.suffix_cons _ _).trans (List.suffix_append _ _)) nonempty
  obtain ⟨final, ranFinal, recordedFinal⟩ := programRest_moved (ended_tokens second) endedMiddle
    tokensMiddle ranSecond
  have whole := goesOn bound
  rw [Run.bind_apply, ranFinal] at whole
  have extend := Reader.extends_programRest (Run.Extends.refl
    (Reader.statement (Reader.expression .standard bound))) (Nat.le_add_left bound used)
  have same := (extend _).resolve_left (by rintro ⟨why, halted⟩; cases ranBoth.symm.trans halted)
  obtain ⟨rfl, rfl⟩ : program.statements ++ programSecond.statements = statements ∧
      final = laterBoth := by
    simpa using whole.symm.trans (same.trans ranBoth)
  simp [parse, Reading.result, readBoth, recordedFinal, recordedMiddle, clean, cleanSecond]

/-- Pieces that are programs, all but the last with a semicolon at their end, are a program. -/
theorem parse_join {lines : List String} {programs : List Program}
    (pieces : List.Forall₂ (fun line program => endsWithSemicolon line = true ∧
      parse line = .ok program) lines programs) {last : String} {program : Program}
    (parsed : parse last = .ok program) :
    parse (String.join lines ++ last) =
      .ok ⟨programs.flatMap Program.statements ++ program.statements⟩ := by
  induction pieces with
  | nil => simpa [String.join] using parsed
  | @cons line first lines programs piece _ ih =>
      rw [String.join_cons, String.append_assoc, parse_append piece.1 piece.2 ih, List.flatMap_cons,
        List.append_assoc]

end Scriptlet
