import Mathlib.Data.List.TakeWhile
import Scriptlet.Proofs.Token.Spelling

/-!
# Where tokens stand

The tokens of a text cover its bytes from left to right: each begins behind the one before it
(`increasing_tokens`), and the end of the input stands behind all bytes (`tokens_ending`). A text
that is moved by some bytes has the same tokens, moved by as many, and a text that ends with a
semicolon can be followed by any other text without a change to the tokens of either
(`tokens_append`).
-/
set_option autoImplicit false

namespace Scriptlet

open Token (Kind)

def Token.moved (distance : Nat) (token : Token) : Token :=
  { token with start := token.start + distance, stop := token.stop + distance }

/-! ## Bytes of a text -/

theorem byteLength_append (front back : List Char) :
    byteLength (front ++ back) = byteLength front + byteLength back := by
  induction front with
  | nil => simp [byteLength]
  | cons c front ih => simp only [List.cons_append, byteLength, ih, Nat.add_assoc]

theorem utf8ByteSize_ofList (chars : List Char) :
    (String.ofList chars).utf8ByteSize = byteLength chars := by
  induction chars with
  | nil => rfl
  | cons c chars ih =>
      rw [← String.size_toByteArray, String.toByteArray_ofList] at ih ⊢
      rw [List.utf8Encode_cons, ByteArray.size_append, ih, byteLength]
      simp [List.utf8Encode_singleton]

theorem byteLength_toList (source : String) : byteLength source.toList = source.utf8ByteSize := by
  rw [← utf8ByteSize_ofList, String.ofList_toList]

/-! ## One token after another -/

theorem scan_split (c : Char) (rest : List Char) :
    (scan c rest).chars ++ (scan c rest).rest = c :: rest := by
  unfold scan
  split
  · simp
  split
  · simp
  split
  · have whole := List.takeWhile_append_dropWhile (p := (· ≠ '"')) (l := rest)
    split
    · simp
    · rename_i found
      rw [found] at whole
      simpa using whole
  · split <;> simp

theorem scan_chars_ne_nil (c : Char) (rest : List Char) : (scan c rest).chars ≠ [] := by
  intro nothing
  have split := congrArg List.length (scan_split c rest)
  have short := length_scan_rest_le c rest
  simp only [nothing, List.nil_append, List.length_cons] at split
  omega

theorem scan_chars_eq (c : Char) (rest : List Char) : ∃ run, (scan c rest).chars = c :: run := by
  obtain ⟨first, run, listed⟩ := List.exists_cons_of_ne_nil (scan_chars_ne_nil c rest)
  have split := scan_split c rest
  rw [listed] at split
  exact ⟨run, by rw [listed, (List.cons.inj split).1]⟩

theorem takeWhile_stops {p : Char → Bool} {run other : List Char} (all : ∀ c ∈ run, p c = true)
    (stops : ∀ c, other.head? = some c → p c = false) :
    (run ++ other).takeWhile p = run ∧ (run ++ other).dropWhile p = other := by
  rw [List.takeWhile_append_of_pos all, List.dropWhile_append_of_pos all]
  cases other with
  | nil => simp
  | cons c other => simp [stops c rfl]

def isTerminated (c : Char) (rest : List Char) : Prop :=
  c = '"' → '"' ∈ rest

/-- What may stand behind a lexeme in place of what stands there: nothing at all, or a text that
begins in the same way or with a blank. -/
def Fits (other rest : List Char) : Prop :=
  ∀ c, other.head? = some c → rest.head? = some c ∨ Text.isBlank c = true

theorem fits_of_blank {blank : Char} {other rest : List Char} (head : other.head? = some blank)
    (isBlank : Text.isBlank blank = true) : Fits other rest := by
  intro c found
  cases head.symm.trans found
  exact .inr isBlank

theorem Fits.stops {p : Char → Bool} {other rest : List Char}
    (fits : Fits other (rest.dropWhile p)) (inWord : ∀ c, p c = true → isWordPart c = true) (c : Char)
    (head : other.head? = some c) : p c = false := by
  rcases fits c head with same | isBlank
  · have stopped := List.head?_dropWhile_not p rest
    rw [same] at stopped
    simpa using stopped
  · by_contra part
    rw [isBlank_of_wordPart (inWord c (by simpa using part))] at isBlank
    cases isBlank

/-- A lexeme is read off in the same way if something else stands behind it. -/
theorem scan_swap {c : Char} {rest other : List Char} (terminated : isTerminated c rest)
    (fits : Fits other (scan c rest).rest) :
    scan c ((scan c rest).chars.tail ++ other) =
      ⟨(scan c rest).kind, (scan c rest).chars, other⟩ := by
  by_cases word : isWordStart c = true
  · have scanned (rest : List Char) : scan c rest =
        ⟨.ofWord (String.ofList (c :: rest.takeWhile isWordPart)), c :: rest.takeWhile isWordPart,
          rest.dropWhile isWordPart⟩ := by
      simp only [scan, word, if_true]
    rw [scanned rest] at fits ⊢
    obtain ⟨taken, dropped⟩ := takeWhile_stops (fun c member => List.mem_takeWhile_imp member)
      (fits.stops fun _ part => part)
    rw [scanned, List.tail_cons, taken, dropped]
  by_cases digit : c.isDigit = true
  · have scanned (rest : List Char) : scan c rest =
        ⟨.integer, c :: rest.takeWhile Char.isDigit, rest.dropWhile Char.isDigit⟩ := by
      simp [scan, word, digit]
    rw [scanned rest] at fits ⊢
    obtain ⟨taken, dropped⟩ := takeWhile_stops (fun c member => List.mem_takeWhile_imp member)
      (fits.stops fun c isDigit => by simp [isWordPart, isDigit])
    rw [scanned, List.tail_cons, taken, dropped]
  by_cases quote : c = '"'
  · obtain ⟨inside, after, rfl, noQuote⟩ := List.eq_append_cons_of_mem (terminated quote)
    rw [quote, scan_string noQuote]
    simp only [List.tail_cons, List.append_assoc, List.singleton_append, scan_string noQuote]
  · have scanned (rest : List Char) (single : c = '=' ∨ c = '!' → rest.head? ≠ some '=') :
        scan c rest = ⟨signKind c, [c], rest⟩ := by
      unfold scan
      rw [if_neg word, if_neg digit, if_neg quote]
      split
      · exact absurd rfl (single (.inl rfl))
      · exact absurd rfl (single (.inr rfl))
      · rfl
    by_cases double : (c = '=' ∨ c = '!') ∧ rest.head? = some '='
    · obtain ⟨sign, head⟩ := double
      obtain ⟨after, rfl⟩ : ∃ after, rest = '=' :: after := by
        cases rest with
        | nil => cases head
        | cons d after => exact ⟨after, by rw [Option.some.inj head]⟩
      rcases sign with rfl | rfl <;> rfl
    · have single : c = '=' ∨ c = '!' → rest.head? ≠ some '=' := fun sign head =>
        double ⟨sign, head⟩
      rw [scanned rest single] at fits ⊢
      refine scanned other fun sign head => ?_
      rcases fits '=' head with same | isBlank
      · exact single sign same
      · exact absurd isBlank (by decide)

/-- A quote without a partner makes one lexeme of the rest. -/
theorem scan_unterminated {c : Char} {rest : List Char} (unterminated : ¬isTerminated c rest) :
    scan c rest = ⟨.illegal, '"' :: rest, []⟩ := by
  obtain ⟨rfl, noQuote⟩ : c = '"' ∧ '"' ∉ rest := by
    simpa only [isTerminated, Classical.not_imp] using unterminated
  have dropped : rest.dropWhile (· ≠ '"') = [] := by
    refine List.dropWhile_eq_nil_iff.mpr fun d member => ?_
    simp only [decide_eq_true_eq]
    rintro rfl
    exact noQuote member
  simp only [scan, dropped]
  rfl

theorem isTerminated_of_rest {c : Char} {rest : List Char} (goesOn : (scan c rest).rest ≠ []) :
    isTerminated c rest := by
  by_contra unterminated
  rw [scan_unterminated unterminated] at goesOn
  exact goesOn rfl

/-- What follows a lexeme that does not end the text makes no difference to it. -/
theorem scan_append {c : Char} {rest : List Char} (goesOn : (scan c rest).rest ≠ [])
    (more : List Char) :
    scan c (rest ++ more) =
      ⟨(scan c rest).kind, (scan c rest).chars, (scan c rest).rest ++ more⟩ := by
  have terminated := isTerminated_of_rest goesOn
  have fits : Fits ((scan c rest).rest ++ more) (scan c rest).rest := by
    obtain ⟨d, after, listed⟩ := List.exists_cons_of_ne_nil goesOn
    rw [listed]
    exact fun _ => .inl
  have tail : (scan c rest).chars.tail ++ ((scan c rest).rest ++ more) = rest ++ more := by
    obtain ⟨d, chars, listed⟩ := List.exists_cons_of_ne_nil (scan_chars_ne_nil c rest)
    have split := scan_split c rest
    rw [listed, List.cons_append] at split
    rw [listed, List.tail_cons, ← List.append_assoc, (List.cons.inj split).2]
  rw [← tail, scan_swap terminated fits]

theorem eq_semicolon {c : Char} {rest : List Char} (found : (scan c rest).kind = .semicolon) :
    c = ';' := by
  unfold scan at found
  split at found
  · exact absurd found (ofWord_ne_of_not_mem _ (by decide))
  split at found
  · cases found
  split at found
  · split at found <;> cases found
  split at found
  · cases found
  · cases found
  · unfold signKind at found
    split at found <;> first | rfl | cases found

/-- The tokens of the characters, the first of which stands behind `offset` bytes. -/
inductive Lexes : Nat → List Char → List Token → Prop
  | blank {offset : Nat} {chars : List Char} (blank : ∀ c ∈ chars, Text.isBlank c = true) :
      Lexes offset chars
        [⟨.endOfInput, "", offset + byteLength chars, offset + byteLength chars⟩]
  | lexeme {offset : Nat} {blanks : List Char} {c : Char} {rest : List Char} {list : List Token}
      (blank : ∀ c ∈ blanks, Text.isBlank c = true) (ink : Text.isBlank c = false)
      (more : Lexes (offset + byteLength blanks + byteLength (scan c rest).chars)
        (scan c rest).rest list) :
      Lexes offset (blanks ++ c :: rest)
        (⟨(scan c rest).kind, (scan c rest).literal, offset + byteLength blanks,
          offset + byteLength blanks + byteLength (scan c rest).chars⟩ :: list)

theorem Lexes.remaining {offset : Nat} {chars : List Char} {list : List Token}
    (lexes : Lexes offset chars list) : (Lexer.mk offset chars false).remaining = list := by
  induction lexes with
  | @blank offset chars blank =>
      have taken : chars.takeWhile Text.isBlank = chars := List.takeWhile_eq_self_iff.mpr blank
      have dropped : chars.dropWhile Text.isBlank = [] := List.dropWhile_eq_nil_iff.mpr blank
      have step : (Lexer.mk offset chars false).next =
          some (⟨.endOfInput, "", offset + byteLength chars, offset + byteLength chars⟩,
            ⟨offset + byteLength chars, [], true⟩) := by
        simp [Lexer.next, taken, dropped]
      rw [Lexer.remaining_cons _ _ _ step]
      rfl
  | @lexeme offset blanks c rest list blank ink more ih =>
      have taken : (blanks ++ c :: rest).takeWhile Text.isBlank = blanks := by
        rw [List.takeWhile_append_of_pos blank]
        simp [ink]
      have dropped : (blanks ++ c :: rest).dropWhile Text.isBlank = c :: rest := by
        rw [List.dropWhile_append_of_pos blank]
        simp [ink]
      have step : (Lexer.mk offset (blanks ++ c :: rest) false).next =
          some (⟨(scan c rest).kind, (scan c rest).literal, offset + byteLength blanks,
            offset + byteLength blanks + byteLength (scan c rest).chars⟩,
            ⟨offset + byteLength blanks + byteLength (scan c rest).chars, (scan c rest).rest,
              false⟩) := by
        simp [Lexer.next, taken, dropped]
      rw [Lexer.remaining_cons _ _ _ step, ih]

theorem lexes_remaining (offset : Nat) (chars : List Char) :
    Lexes offset chars (Lexer.mk offset chars false).remaining := by
  suffices ∃ list, Lexes offset chars list by
    obtain ⟨list, lexes⟩ := this
    rw [lexes.remaining]
    exact lexes
  induction length : chars.length using Nat.strong_induction_on generalizing offset chars with
  | _ count ih =>
      have whole := List.takeWhile_append_dropWhile (p := Text.isBlank) (l := chars)
      have blank : ∀ c ∈ chars.takeWhile Text.isBlank, Text.isBlank c = true :=
        fun c member => List.mem_takeWhile_imp member
      cases found : chars.dropWhile Text.isBlank with
      | nil => exact ⟨_, .blank (List.dropWhile_eq_nil_iff.mp found)⟩
      | cons c rest =>
          rw [found] at whole
          have ink : Text.isBlank c = false := by
            have head := List.head?_dropWhile_not Text.isBlank chars
            rw [found] at head
            simpa using head
          have shorter : (scan c rest).rest.length < count := by
            have scanned := length_scan_rest_le c rest
            have split := congrArg List.length whole
            simp only [List.length_append, List.length_cons] at split
            omega
          rw [← whole]
          obtain ⟨list, more⟩ := ih _ shorter
            (offset + byteLength (chars.takeWhile Text.isBlank) + byteLength (scan c rest).chars)
            (scan c rest).rest rfl
          exact ⟨_, .lexeme blank ink more⟩

theorem lexes_tokens (source : String) : Lexes 0 source.toList (tokens source) :=
  lexes_remaining 0 source.toList

theorem Lexes.tokens_eq {source : String} {list : List Token}
    (lexes : Lexes 0 source.toList list) : tokens source = list :=
  lexes.remaining

namespace Lexes

variable {offset : Nat} {chars : List Char} {list : List Token}

theorem ending (lexes : Lexes offset chars list) :
    list.getLast? =
      some ⟨.endOfInput, "", offset + byteLength chars, offset + byteLength chars⟩ := by
  induction lexes with
  | blank blank => rfl
  | @lexeme offset blanks c rest list blank ink more ih =>
      have split := congrArg byteLength (scan_split c rest)
      rw [byteLength_append] at split
      have same : offset + byteLength blanks + byteLength (scan c rest).chars +
          byteLength (scan c rest).rest = offset + byteLength (blanks ++ c :: rest) := by
        rw [byteLength_append, ← split]
        omega
      rw [same] at ih
      rw [List.getLast?_cons, ih]
      rfl

theorem offset_le (lexes : Lexes offset chars list) : ∀ token ∈ list, offset ≤ token.start := by
  induction lexes with
  | blank blank =>
      intro token member
      rw [List.mem_singleton.mp member]
      exact Nat.le_add_right _ _
  | lexeme blank ink more ih =>
      intro token member
      rcases List.mem_cons.mp member with rfl | later
      · exact Nat.le_add_right _ _
      · exact Nat.le_trans (by omega) (ih token later)

theorem increasing (lexes : Lexes offset chars list) :
    list.Pairwise fun token later => token.start < later.start := by
  induction lexes with
  | blank blank => exact List.pairwise_singleton _ _
  | @lexeme offset blanks c rest list blank ink more ih =>
      refine List.pairwise_cons.mpr ⟨fun later member => ?_, ih⟩
      have positive : 0 < byteLength (scan c rest).chars := by
        obtain ⟨first, chars, listed⟩ := List.exists_cons_of_ne_nil (scan_chars_ne_nil c rest)
        rw [listed, byteLength]
        exact Nat.add_pos_left first.utf8Size_pos _
      exact Nat.lt_of_lt_of_le (by simpa using positive) (more.offset_le later member)

theorem moved (lexes : Lexes offset chars list) (distance : Nat) :
    Lexes (offset + distance) chars (list.map (Token.moved distance)) := by
  induction lexes with
  | @blank offset chars blank =>
      have ending : Lexes (offset + distance) chars _ := .blank blank
      simpa [Token.moved, Nat.add_right_comm] using ending
  | @lexeme offset blanks c rest list blank ink more ih =>
      have commuted : offset + byteLength blanks + byteLength (scan c rest).chars + distance =
          offset + distance + byteLength blanks + byteLength (scan c rest).chars := by omega
      rw [commuted] at ih
      have lexed := Lexes.lexeme blank ink ih
      simpa [Token.moved, Nat.add_right_comm] using lexed

/-- Blanks in front of a text move it. -/
theorem afterBlanks {blanks : List Char} (blank : ∀ c ∈ blanks, Text.isBlank c = true)
    (lexes : Lexes (offset + byteLength blanks) chars list) :
    Lexes offset (blanks ++ chars) list := by
  generalize moved : offset + byteLength blanks = place at lexes
  cases lexes with
  | blank blankRest =>
      have all : ∀ c ∈ blanks ++ chars, Text.isBlank c = true := by
        intro c member
        rcases List.mem_append.mp member with front | back
        · exact blank c front
        · exact blankRest c back
      rw [← moved, Nat.add_assoc, ← byteLength_append]
      exact .blank all
  | @lexeme _ others c rest list blankOthers ink more =>
      have all : ∀ c ∈ blanks ++ others, Text.isBlank c = true := by
        intro c member
        rcases List.mem_append.mp member with front | back
        · exact blank c front
        · exact blankOthers c back
      have place : offset + byteLength blanks + byteLength others =
          offset + byteLength (blanks ++ others) := by
        rw [byteLength_append, Nat.add_assoc]
      rw [← moved, place] at more ⊢
      rw [← List.append_assoc]
      exact .lexeme all ink more

theorem ne_nil (lexes : Lexes offset chars list) : list ≠ [] := by
  cases lexes <;> simp

theorem all_blank {ending : Token} (lexes : Lexes offset chars [ending]) :
    ∀ c ∈ chars, Text.isBlank c = true := by
  cases lexes with
  | blank blank => exact blank
  | lexeme blank ink more => exact absurd rfl more.ne_nil

/-- A text that ends with a semicolon can be followed by any other. -/
theorem append {front : List Token} {semicolon ending : Token}
    (lexes : Lexes offset chars (front ++ [semicolon, ending]))
    (isSemicolon : semicolon.kind = .semicolon) {more : List Char} {others : List Token}
    (lexesMore : Lexes (offset + byteLength chars) more others) :
    Lexes offset (chars ++ more) (front ++ semicolon :: others) := by
  generalize listed : front ++ [semicolon, ending] = list at lexes
  induction lexes generalizing front with
  | blank blank =>
      have length := congrArg List.length listed
      simp at length
  | @lexeme offset blanks c rest list blank ink lexesRest ih =>
      have bytes := congrArg byteLength (scan_split c rest)
      rw [byteLength_append] at bytes
      rw [byteLength_append, ← bytes] at lexesMore
      have place : offset + (byteLength blanks +
            (byteLength (scan c rest).chars + byteLength (scan c rest).rest)) =
          offset + byteLength blanks + byteLength (scan c rest).chars +
            byteLength (scan c rest).rest := by omega
      rw [place] at lexesMore
      rw [List.append_assoc, List.cons_append]
      cases front with
      | nil =>
          -- the semicolon itself, with blanks behind it at most
          obtain ⟨rfl, rfl⟩ := List.cons.inj listed
          obtain rfl : c = ';' := eq_semicolon isSemicolon
          have scanned (rest : List Char) : scan ';' rest = ⟨.semicolon, [';'], rest⟩ :=
            scan_sign (by decide) (by simp)
          have lexed : Lexes offset (blanks ++ ';' :: (rest ++ more)) _ :=
            .lexeme blank ink <| by
              rw [scanned (rest ++ more)]
              rw [scanned rest] at lexesRest lexesMore
              exact afterBlanks lexesRest.all_blank lexesMore
          rw [scanned] at lexed
          rw [scanned]
          exact lexed
      | cons first front =>
          obtain ⟨rfl, rfl⟩ := List.cons.inj listed
          have goesOn : (scan c rest).rest ≠ [] := by
            intro nothing
            rw [nothing] at lexesRest
            have only := lexesRest.remaining
            have length := congrArg List.length ((Lexes.blank (by simp)).remaining.symm.trans only)
            simp at length
          have scanned := scan_append goesOn more
          have lexed : Lexes offset (blanks ++ c :: (rest ++ more)) _ :=
            .lexeme blank ink <| by
              rw [scanned]
              exact ih lexesMore rfl
          rw [scanned] at lexed
          exact lexed

end Lexes

theorem increasing_tokens (source : String) :
    (tokens source).Pairwise fun token later => token.start < later.start :=
  (lexes_tokens source).increasing

theorem tokens_ending {source : String} {front : List Token} {ending : Token}
    (ends : tokens source = front ++ [ending]) :
    ending = ⟨.endOfInput, "", source.utf8ByteSize, source.utf8ByteSize⟩ := by
  have last := (lexes_tokens source).ending
  rw [ends, List.getLast?_append, byteLength_toList, Nat.zero_add] at last
  simpa using last

theorem tokens_append {first : String} {front : List Token} {semicolon ending : Token}
    (ends : tokens first = front ++ [semicolon, ending])
    (isSemicolon : semicolon.kind = .semicolon) (second : String) :
    tokens (first ++ second) =
      front ++ semicolon :: (tokens second).map (Token.moved first.utf8ByteSize) := by
  have lexes := lexes_tokens first
  rw [ends] at lexes
  have lexesMore := (lexes_tokens second).moved (byteLength first.toList)
  have lexed := lexes.append isSemicolon lexesMore
  rw [← String.toList_append, byteLength_toList] at lexed
  exact lexed.tokens_eq

end Scriptlet
