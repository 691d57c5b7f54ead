import Scriptlet.Proofs.Token.Tiling

/-!
# Tokens are longest matches

`IsLexeme` lists the texts that are lexemes, whole and with their kinds, and says nothing about how
one is found at the front of a longer text. A token covers the longest lexeme that stands where it
begins (`IsLongest`). Where no lexeme stands, the token is illegal: it takes in one character, or
all the rest of the text if a string that is never closed begins there.
-/
set_option autoImplicit false

namespace Scriptlet

open Token (Kind)

/-! ## Lexemes -/

def IsLetter (c : Char) : Prop :=
  ('A' ≤ c ∧ c ≤ 'Z') ∨ ('a' ≤ c ∧ c ≤ 'z') ∨ c = '_'

def IsDigit (c : Char) : Prop :=
  '0' ≤ c ∧ c ≤ '9'

def IsWord (chars : List Char) : Prop :=
  ∃ c run, chars = c :: run ∧ IsLetter c ∧ ∀ d ∈ run, IsLetter d ∨ IsDigit d

def reservedKinds : List (String × Kind) :=
  [("fn", .functionWord), ("let", .letWord), ("true", .trueWord), ("false", .falseWord),
    ("if", .ifWord), ("else", .elseWord), ("return", .returnWord)]

def signs : List (String × Kind) :=
  [("==", .equal), ("!=", .notEqual), ("=", .assign), ("!", .bang), ("+", .plus), ("-", .minus),
    ("*", .star), ("/", .slash), ("<", .less), (">", .greater), (",", .comma), (":", .colon),
    (";", .semicolon), ("(", .leftParen), (")", .rightParen), ("\x7b", .leftBrace),
    ("\x7d", .rightBrace), ("[", .leftBracket), ("]", .rightBracket)]

inductive IsLexeme : Kind → List Char → Prop
  | keyword {word : String} {kind : Kind} (known : (word, kind) ∈ reservedKinds) :
      IsLexeme kind word.toList
  | name {chars : List Char} (isWord : IsWord chars)
      (free : String.ofList chars ∉ reserved) : IsLexeme .name chars
  | integer {chars : List Char} (nonempty : chars ≠ []) (digits : ∀ c ∈ chars, IsDigit c) :
      IsLexeme .integer chars
  | string {inside : List Char} (noQuote : '"' ∉ inside) :
      IsLexeme .string ('"' :: (inside ++ ['"']))
  | sign {text : String} {kind : Kind} (known : (text, kind) ∈ signs) : IsLexeme kind text.toList

/-- The lexeme stands at the front of the text, is of this kind and of no other, and no lexeme that
stands there is longer. -/
structure IsLongest (kind : Kind) (chars text : List Char) : Prop where
  lexeme : IsLexeme kind chars
  only : ∀ other, IsLexeme other chars → other = kind
  front : chars <+: text
  longest : ∀ other others, IsLexeme other others → others <+: text →
    others.length ≤ chars.length

/-! ## Classes of characters -/

section Scan

variable {c : Char} {run rest chars : List Char} {kind : Kind}

theorem isDigit_iff : c.isDigit = true ↔ IsDigit c := by
  rw [Char.isDigit_iff_toNat]
  exact Iff.rfl

theorem isWordStart_iff : isWordStart c = true ↔ IsLetter c := by
  have upper : c.isUpper = true ↔ 'A' ≤ c ∧ c ≤ 'Z' := decide_eq_true_iff
  have lower : c.isLower = true ↔ 'a' ≤ c ∧ c ≤ 'z' :=
    Bool.and_eq_true_iff.trans (and_congr decide_eq_true_iff decide_eq_true_iff)
  have alpha : c.isAlpha = true ↔ c.isUpper = true ∨ c.isLower = true := Bool.or_eq_true_iff
  rw [isWordStart, Bool.or_eq_true, alpha, upper, lower, beq_iff_eq, or_assoc, IsLetter]

theorem isWordPart_iff : isWordPart c = true ↔ IsLetter c ∨ IsDigit c := by
  rw [isWordPart, Bool.or_eq_true, isWordStart_iff, isDigit_iff]

/-! ## What is scanned -/

theorem scan_letter (letter : IsLetter c) (rest : List Char) :
    scan c rest = ⟨.ofWord (String.ofList (c :: rest.takeWhile isWordPart)),
      c :: rest.takeWhile isWordPart, rest.dropWhile isWordPart⟩ := by
  simp only [scan, isWordStart_iff.mpr letter, if_true]

theorem scan_digit (digit : IsDigit c) (rest : List Char) :
    scan c rest =
      ⟨.integer, c :: rest.takeWhile Char.isDigit, rest.dropWhile Char.isDigit⟩ := by
  have isDigit := isDigit_iff.mpr digit
  simp [scan, isWordStart_of_digit isDigit, isDigit]

/-- What begins no word, no number and no string is a sign of two characters or one of its own. -/
theorem scan_other (noLetter : ¬IsLetter c) (noDigit : ¬IsDigit c) (noQuote : c ≠ '"')
    (rest : List Char) :
    (∃ after, rest = '=' :: after ∧
        (c = '=' ∧ scan c rest = ⟨.equal, ['=', '='], after⟩ ∨
          c = '!' ∧ scan c rest = ⟨.notEqual, ['!', '='], after⟩)) ∨
      scan c rest = ⟨signKind c, [c], rest⟩ := by
  rw [← isWordStart_iff] at noLetter
  rw [← isDigit_iff] at noDigit
  unfold scan
  rw [if_neg noLetter, if_neg noDigit, if_neg noQuote]
  split
  · exact .inl ⟨_, rfl, .inl ⟨rfl, rfl⟩⟩
  · exact .inl ⟨_, rfl, .inr ⟨rfl, rfl⟩⟩
  · exact .inr rfl

theorem keywords_eq_reservedKinds : Token.keywords = reservedKinds :=
  rfl

theorem ofWord_of_free {word : String} (free : word ∉ reserved) : Kind.ofWord word = .name :=
  ofWord_plain (by simpa using free)

theorem isWord_of_keyword {word : String} (known : (word, kind) ∈ reservedKinds) :
    IsWord word.toList ∧ Kind.ofWord (String.ofList word.toList) = kind := by
  rw [← keywords_eq_reservedKinds] at known
  obtain ⟨c, run, shape, begins, parts, found⟩ := keyword_shape known
  rw [shape]
  exact ⟨⟨c, run, rfl, isWordStart_iff.mp begins, fun d member =>
    isWordPart_iff.mp (parts d member)⟩, found⟩

theorem IsWord.isLexeme (isWord : IsWord chars) :
    IsLexeme (.ofWord (String.ofList chars)) chars := by
  by_cases free : String.ofList chars ∈ reserved
  · have listed : reserved = reservedKinds.map Prod.fst := rfl
    rw [listed] at free
    obtain ⟨⟨word, kind⟩, known, same⟩ := List.mem_map.mp free
    obtain rfl : chars = word.toList := String.ofList_eq.mp same.symm
    rw [(isWord_of_keyword known).2]
    exact .keyword known
  · rw [ofWord_of_free free]
    exact .name isWord free

theorem sign_shape {text : String} (known : (text, kind) ∈ signs) :
    ∃ c run, text.toList = c :: run ∧ signKind c ≠ .illegal ∧
      (run = [] ∨ run = ['='] ∧ (c = '=' ∨ c = '!')) ∧ (scan c run).kind = kind := by
  simp only [signs, List.mem_cons, Prod.mk.injEq, List.not_mem_nil, or_false] at known
  rcases known with ⟨rfl, rfl⟩ | ⟨rfl, rfl⟩ | ⟨rfl, rfl⟩ | ⟨rfl, rfl⟩ | ⟨rfl, rfl⟩ | ⟨rfl, rfl⟩ |
    ⟨rfl, rfl⟩ | ⟨rfl, rfl⟩ | ⟨rfl, rfl⟩ | ⟨rfl, rfl⟩ | ⟨rfl, rfl⟩ | ⟨rfl, rfl⟩ | ⟨rfl, rfl⟩ |
    ⟨rfl, rfl⟩ | ⟨rfl, rfl⟩ | ⟨rfl, rfl⟩ | ⟨rfl, rfl⟩ | ⟨rfl, rfl⟩ | ⟨rfl, rfl⟩ <;>
    exact ⟨_, _, rfl, by decide, by decide, rfl⟩

theorem sign_mem (isSign : signKind c ≠ .illegal) : (String.ofList [c], signKind c) ∈ signs := by
  unfold signKind at isSign ⊢
  split at isSign <;> first | contradiction | decide

theorem IsWord.scan_append (isWord : IsWord (c :: run)) (rest : List Char) :
    (scan c (run ++ rest)).kind ≠ .illegal ∧ c :: run <+: (scan c (run ++ rest)).chars := by
  obtain ⟨_, _, ⟨⟩, letter, parts⟩ := isWord
  rw [scan_letter letter]
  refine ⟨ofWord_ne_of_not_mem _ (by decide), ?_⟩
  rw [List.takeWhile_append_of_pos fun d member => isWordPart_iff.mpr (parts d member)]
  exact List.prefix_append (c :: run) _

theorem scan_sign_kind (isSign : signKind c ≠ .illegal) (rest : List Char) :
    (scan c rest).kind ≠ .illegal := by
  by_cases single : c = '=' ∨ c = '!' → rest.head? ≠ some '='
  · rw [scan_sign isSign single]
    exact isSign
  · simp only [Classical.not_imp, Decidable.not_not] at single
    obtain ⟨sign, head⟩ := single
    obtain ⟨after, rfl⟩ := List.head?_eq_some_iff.mp head
    rcases sign with rfl | rfl <;> exact nofun

/-- A lexeme at the front of a text is scanned whole at least. -/
theorem IsLexeme.scan_append (lexeme : IsLexeme kind (c :: run)) (rest : List Char) :
    (scan c (run ++ rest)).kind ≠ .illegal ∧ c :: run <+: (scan c (run ++ rest)).chars := by
  generalize listed : c :: run = chars at lexeme
  cases lexeme with
  | keyword known =>
      have isWord := (isWord_of_keyword known).1
      rw [← listed] at isWord ⊢
      exact isWord.scan_append rest
  | name isWord free =>
      rw [← listed] at isWord ⊢
      exact isWord.scan_append rest
  | integer nonempty digits =>
      subst listed
      obtain ⟨digit, others⟩ := List.forall_mem_cons.mp digits
      rw [scan_digit digit,
        List.takeWhile_append_of_pos fun d member => isDigit_iff.mpr (others d member)]
      exact ⟨nofun, List.prefix_append (c :: run) _⟩
  | string noQuote =>
      obtain ⟨rfl, rfl⟩ := List.cons.inj listed
      rw [List.append_assoc, List.singleton_append, scan_string noQuote]
      exact ⟨nofun, List.prefix_refl _⟩
  | sign known =>
      obtain ⟨d, others, shape, isSign, short, _⟩ := sign_shape known
      obtain ⟨rfl, rfl⟩ := List.cons.inj (listed.trans shape)
      refine ⟨scan_sign_kind isSign _, ?_⟩
      rw [shape]
      rcases short with rfl | ⟨rfl, rfl | rfl⟩
      · obtain ⟨others, chars⟩ := scan_chars_eq c ([] ++ rest)
        exact ⟨others, chars.symm⟩
      · exact List.prefix_refl _
      · exact List.prefix_refl _

/-- A lexeme on its own is scanned with its kind, which is therefore the only one it has. -/
theorem IsLexeme.scan_kind (lexeme : IsLexeme kind (c :: run)) : (scan c run).kind = kind := by
  have word (isWord : IsWord (c :: run)) (found : Kind.ofWord (String.ofList (c :: run)) = kind) :
      (scan c run).kind = kind := by
    obtain ⟨_, _, ⟨⟩, letter, parts⟩ := isWord
    have whole : run.takeWhile isWordPart = run :=
      List.takeWhile_eq_self_iff.mpr fun d member => isWordPart_iff.mpr (parts d member)
    rw [scan_letter letter, whole]
    exact found
  generalize listed : c :: run = chars at lexeme
  cases lexeme with
  | keyword known =>
      obtain ⟨isWord, found⟩ := isWord_of_keyword known
      rw [← listed] at isWord found
      exact word isWord found
  | name isWord free =>
      rw [← listed] at isWord free
      exact word isWord (ofWord_of_free free)
  | integer nonempty digits =>
      subst listed
      rw [scan_digit (digits c (List.mem_cons_self ..))]
  | string noQuote =>
      obtain ⟨rfl, rfl⟩ := List.cons.inj listed
      rw [scan_string noQuote]
  | sign known =>
      obtain ⟨d, others, shape, _, _, found⟩ := sign_shape known
      obtain ⟨rfl, rfl⟩ := List.cons.inj (listed.trans shape)
      exact found

theorem IsLexeme.exists_cons (lexeme : IsLexeme kind chars) : ∃ c run, chars = c :: run := by
  cases lexeme with
  | keyword known =>
      obtain ⟨c, run, shape, _⟩ := (isWord_of_keyword known).1
      exact ⟨c, run, shape⟩
  | name isWord free =>
      obtain ⟨c, run, shape, _⟩ := isWord
      exact ⟨c, run, shape⟩
  | integer nonempty digits => exact List.exists_cons_of_ne_nil nonempty
  | string noQuote => exact ⟨_, _, rfl⟩
  | sign known =>
      obtain ⟨c, run, shape, _⟩ := sign_shape known
      exact ⟨c, run, shape⟩

theorem IsLexeme.legal (lexeme : IsLexeme kind chars) : kind ≠ .illegal := by
  obtain ⟨c, run, rfl⟩ := lexeme.exists_cons
  have scanned := (lexeme.scan_append []).1
  rwa [List.append_nil, lexeme.scan_kind] at scanned

/-- What is scanned is a lexeme, or else a single character or a string that is never closed. -/
theorem scan_cases (c : Char) (rest : List Char) :
    IsLexeme (scan c rest).kind (scan c rest).chars ∨
      ((scan c rest).kind = .illegal ∧
        (scan c rest).chars = if c = '"' then c :: rest else [c]) := by
  by_cases letter : IsLetter c
  · rw [scan_letter letter]
    exact .inl (IsWord.isLexeme ⟨c, _, rfl, letter, fun d member =>
      isWordPart_iff.mp (List.mem_takeWhile_imp member)⟩)
  by_cases digit : IsDigit c
  · rw [scan_digit digit]
    refine .inl (.integer (List.cons_ne_nil _ _) (List.forall_mem_cons.mpr ⟨digit, ?_⟩))
    exact fun d member => isDigit_iff.mp (List.mem_takeWhile_imp member)
  by_cases quote : c = '"'
  · subst quote
    by_cases closed : '"' ∈ rest
    · obtain ⟨inside, after, rfl, noQuote⟩ := List.eq_append_cons_of_mem closed
      rw [scan_string noQuote]
      exact .inl (.string noQuote)
    · rw [scan_unterminated fun terminated => closed (terminated rfl), if_pos rfl]
      exact .inr ⟨rfl, rfl⟩
  rcases scan_other letter digit quote rest with ⟨after, _, ⟨_, found⟩ | ⟨_, found⟩⟩ | found
  · have known : ("==", Kind.equal) ∈ signs := by decide
    rw [found]
    exact .inl (.sign known)
  · have known : ("!=", Kind.notEqual) ∈ signs := by decide
    rw [found]
    exact .inl (.sign known)
  · rw [found, if_neg quote]
    by_cases illegal : signKind c = .illegal
    · exact .inr ⟨illegal, rfl⟩
    · have lexeme := IsLexeme.sign (sign_mem illegal)
      rw [String.toList_ofList] at lexeme
      exact .inl lexeme

theorem isLongest_scan (legal : (scan c rest).kind ≠ .illegal) :
    IsLongest (scan c rest).kind (scan c rest).chars (c :: rest) := by
  have lexeme := (scan_cases c rest).resolve_right fun other => legal other.1
  obtain ⟨run, listed⟩ := scan_chars_eq c rest
  refine ⟨lexeme, fun other same => ?_, ⟨_, scan_split c rest⟩, ?_⟩
  · rw [listed] at lexeme same
    exact same.scan_kind.symm.trans lexeme.scan_kind
  · intro other others isOther front
    obtain ⟨d, run, rfl⟩ := isOther.exists_cons
    obtain ⟨after, split⟩ := front
    obtain ⟨rfl, rfl⟩ := List.cons.inj split
    exact (isOther.scan_append after).2.length_le

/-- No lexeme stands where something illegal is scanned. -/
theorem not_front_of_illegal (illegal : (scan c rest).kind = .illegal)
    (lexeme : IsLexeme kind chars) : ¬chars <+: c :: rest := by
  rintro ⟨after, split⟩
  obtain ⟨d, run, rfl⟩ := lexeme.exists_cons
  obtain ⟨rfl, rfl⟩ := List.cons.inj split
  exact (lexeme.scan_append after).1 illegal

end Scan

/-! ## Tokens in their text -/

namespace Token

def covered (source : String) (token : Token) : List Char :=
  (between source token.start token.stop).toList

def onward (source : String) (token : Token) : List Char :=
  (between source token.start source.utf8ByteSize).toList

end Token

/-- A token from inside the text covers what is scanned where it begins. -/
theorem Lexes.scanned {source : String} {offset : Nat} {chars : List Char} {list : List Token}
    (lexes : Lexes offset chars list) (front : List Char) (split : source.toList = front ++ chars)
    (place : byteLength front = offset) {token : Token} (member : token ∈ list)
    (inside : token.kind ≠ .endOfInput) :
    ∃ c rest, token.kind = (scan c rest).kind ∧ token.covered source = (scan c rest).chars ∧
      token.onward source = c :: rest := by
  induction lexes generalizing front with
  | blank blank =>
      rw [List.mem_singleton.mp member] at inside
      exact absurd rfl inside
  | @lexeme offset blanks c rest list blank ink more ih =>
      rw [← List.append_assoc] at split
      rcases List.mem_cons.mp member with rfl | later
      · have start : byteLength (front ++ blanks) = offset + byteLength blanks := by
          rw [byteLength_append, place]
        refine ⟨c, rest, rfl, ?_, ?_⟩
        · have spans : Spans source (offset + byteLength blanks)
              (offset + byteLength blanks + byteLength (scan c rest).chars) (scan c rest).chars :=
            ⟨front ++ blanks, (scan c rest).rest, by rw [split, scan_split], start, rfl⟩
          rw [Token.covered, spans.between_eq, String.toList_ofList]
        · have spans : Spans source (offset + byteLength blanks) source.utf8ByteSize (c :: rest) :=
            ⟨front ++ blanks, [], by rw [split, List.append_nil], start, by
              rw [← start, ← byteLength_append, ← split, byteLength_toList]⟩
          rw [Token.onward, spans.between_eq, String.toList_ofList]
      · refine ih (front ++ blanks ++ (scan c rest).chars) ?_ ?_ later
        · rw [List.append_assoc (front ++ blanks), scan_split, split]
        · rw [byteLength_append, byteLength_append, place]

/-- A token covers the longest lexeme that stands where it begins, and is of its kind. It is illegal
exactly if no lexeme stands there; then it covers all that is left of the text, if this begins with
a quote, and a single character otherwise. -/
theorem token_longest_match {source : String} {token : Token} (member : token ∈ tokens source)
    (inside : token.kind ≠ .endOfInput) :
    (token.kind ≠ .illegal →
        IsLongest token.kind (token.covered source) (token.onward source)) ∧
      (token.kind = .illegal ↔
        ¬∃ kind chars, IsLexeme kind chars ∧ chars <+: token.onward source) ∧
      (token.kind = .illegal → ∃ c rest, token.onward source = c :: rest ∧
        token.covered source = if c = '"' then c :: rest else [c]) := by
  obtain ⟨c, rest, kind, covered, onward⟩ :=
    (lexes_tokens source).scanned [] rfl rfl member inside
  rw [kind, covered, onward]
  refine ⟨isLongest_scan, ⟨?_, ?_⟩, fun illegal => ?_⟩
  · rintro illegal ⟨kind, chars, lexeme, front⟩
    exact not_front_of_illegal illegal lexeme front
  · intro nothing
    by_contra legal
    have longest := isLongest_scan legal
    exact nothing ⟨_, _, longest.lexeme, longest.front⟩
  · refine ⟨c, rest, rfl, ?_⟩
    exact ((scan_cases c rest).resolve_left fun lexeme => lexeme.legal illegal).2

/-- A word that begins like a keyword goes on behind it, and no lexeme begins with a quote that
stands alone. -/
theorem token_longest_match_word :
    (⟨.name, "fnx", 0, 3⟩ ∈ tokens "fnx \"é" ∧
      IsLongest .name "fnx".toList "fnx \"é".toList) ∧
    (⟨.illegal, "\"é", 4, 7⟩ ∈ tokens "fnx \"é" ∧
      ¬∃ kind chars, IsLexeme kind chars ∧ chars <+: "\"é".toList) := by
  have listed : tokens "fnx \"é" =
      [⟨.name, "fnx", 0, 3⟩, ⟨.illegal, "\"é", 4, 7⟩, ⟨.endOfInput, "", 7, 7⟩] := by
    decide
  have word : ⟨.name, "fnx", 0, 3⟩ ∈ tokens "fnx \"é" := by simp [listed]
  have quote : ⟨.illegal, "\"é", 4, 7⟩ ∈ tokens "fnx \"é" := by simp [listed]
  exact ⟨⟨word, (token_longest_match word nofun).1 nofun⟩,
    ⟨quote, (token_longest_match quote nofun).2.1.mp rfl⟩⟩

end Scriptlet
