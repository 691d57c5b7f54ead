import Mathlib.Data.String.Basic
import Mathlib.Logic.Function.Iterate
import Scriptlet.Proofs.Token.Offsets

/-!
# Tokens tile their text

Between the lexemes of a text there is nothing but blanks, and a lexeme is what its token says it
is. `Tiles` states this from a byte of the text on: a gap of blanks, then a token that `Covers` its
lexeme, and so on up to the end of the input. Places are byte offsets. The texts between them are
taken from the source by the offsets alone, and all of them lie at boundaries of characters.

A lexer gives out these tokens one after the other, and nothing behind them, however often it is
asked (`Lexer.after`).
-/
set_option autoImplicit false

namespace Scriptlet

open Token (Kind)

/-! ## Places in a text -/

def between (source : String) (start stop : Nat) : String :=
  String.Pos.Raw.extract source ⟨start⟩ ⟨stop⟩

def IsBoundary (source : String) (offset : Nat) : Prop :=
  String.Pos.Raw.IsValid source ⟨offset⟩

def Spans (source : String) (start stop : Nat) (chars : List Char) : Prop :=
  ∃ front back, source.toList = front ++ (chars ++ back) ∧ byteLength front = start ∧
    start + byteLength chars = stop

variable {source : String} {start middle stop : Nat} {chars others : List Char}

theorem byteLength_eq_utf8Len (chars : List Char) : byteLength chars = String.utf8Len chars := by
  rw [← utf8ByteSize_ofList, String.utf8ByteSize_ofList]

theorem isBoundary_of_append {front back : List Char} (split : source.toList = front ++ back) :
    IsBoundary source (byteLength front) := by
  refine String.Pos.Raw.isValid_iff_exists_append.mpr
    ⟨String.ofList front, String.ofList back, ?_, ?_⟩
  · rw [← String.ofList_append, ← split, String.ofList_toList]
  · rw [String.Pos.Raw.ext_iff, String.byteIdx_rawEndPos, utf8ByteSize_ofList]

namespace Spans

theorem le (spans : Spans source start stop chars) : start ≤ stop := by
  obtain ⟨front, back, _, _, rfl⟩ := spans
  exact Nat.le_add_right _ _

theorem isBoundary_start (spans : Spans source start stop chars) : IsBoundary source start := by
  obtain ⟨front, back, split, rfl, _⟩ := spans
  exact isBoundary_of_append split

theorem isBoundary_stop (spans : Spans source start stop chars) : IsBoundary source stop := by
  obtain ⟨front, back, split, rfl, rfl⟩ := spans
  rw [← byteLength_append]
  exact isBoundary_of_append (by rw [split, List.append_assoc])

theorem between_eq (spans : Spans source start stop chars) :
    between source start stop = String.ofList chars := by
  obtain ⟨front, back, split, rfl, rfl⟩ := spans
  have whole : source = String.ofList (front ++ chars ++ back) := by
    rw [List.append_assoc, ← split, String.ofList_toList]
  rw [between, whole, byteLength_eq_utf8Len, byteLength_eq_utf8Len]
  exact String.extract_of_valid front chars back

theorem split (spans : Spans source start stop (chars ++ others)) :
    Spans source start (start + byteLength chars) chars ∧
      Spans source (start + byteLength chars) stop others := by
  obtain ⟨front, back, split, rfl, rfl⟩ := spans
  refine ⟨⟨front, others ++ back, by rw [split, List.append_assoc], rfl, rfl⟩,
    ⟨front ++ chars, back, by simp [split], byteLength_append _ _, ?_⟩⟩
  rw [byteLength_append, Nat.add_assoc]

end Spans

/-! ## Tilings -/

/-- The second place is not before the first one, and all characters from one to the other are
blank. -/
structure Gap (source : String) (start stop : Nat) : Prop where
  le : start ≤ stop
  boundary : IsBoundary source start ∧ IsBoundary source stop
  blank : ∀ c ∈ (between source start stop).toList, Text.isBlank c = true

structure Token.Quotes (source : String) (token : Token) : Prop where
  apart : token.start + 1 ≤ token.stop - 1
  opening : between source token.start (token.start + 1) = "\""
  closing : between source (token.stop - 1) token.stop = "\""
  literal : token.literal = between source (token.start + 1) (token.stop - 1)
  noQuote : '"' ∉ token.literal.toList

structure Token.Covers (source : String) (token : Token) : Prop where
  inside : token.kind ≠ .endOfInput
  nonempty : token.start < token.stop
  boundary : IsBoundary source token.start ∧ IsBoundary source token.stop
  literal : token.kind ≠ .string → token.literal = between source token.start token.stop
  quotes : token.kind = .string → token.Quotes source

/-- From the given byte on, the tokens cover the text but for gaps. The last one, and no other, is
the end of the input, and it stands behind all bytes. -/
inductive Tiles (source : String) : Nat → List Token → Prop
  | ending {place : Nat} (gap : Gap source place source.utf8ByteSize) :
      Tiles source place [⟨.endOfInput, "", source.utf8ByteSize, source.utf8ByteSize⟩]
  | token {place : Nat} {token : Token} {rest : List Token} (gap : Gap source place token.start)
      (covers : token.Covers source) (more : Tiles source token.stop rest) :
      Tiles source place (token :: rest)

theorem Spans.gap (spans : Spans source start stop chars)
    (blank : ∀ c ∈ chars, Text.isBlank c = true) : Gap source start stop := by
  refine ⟨spans.le, ⟨spans.isBoundary_start, spans.isBoundary_stop⟩, ?_⟩
  rw [spans.between_eq, String.toList_ofList]
  exact blank

/-- A lexeme of kind `string` has a quote at each end and none inside. -/
theorem chars_of_string {c : Char} {rest : List Char} (isString : (scan c rest).kind = .string) :
    ∃ inside, '"' ∉ inside ∧ (scan c rest).chars = '"' :: (inside ++ ['"']) := by
  by_cases quote : c = '"'
  · subst quote
    by_cases closed : '"' ∈ rest
    · obtain ⟨inside, after, rfl, noQuote⟩ := List.eq_append_cons_of_mem closed
      exact ⟨inside, noQuote, by rw [scan_string noQuote]⟩
    · rw [scan_unterminated fun terminated => closed (terminated rfl)] at isString
      cases isString
  · unfold scan at isString
    split at isString
    · exact absurd isString (ofWord_ne_of_not_mem _ (by decide))
    split at isString
    · cases isString
    split at isString
    · cases isString
    · cases isString
    · unfold signKind at isString
      split at isString <;> cases isString

theorem Spans.quotes {inside : List Char} {kind : Kind}
    (spans : Spans source start stop ('"' :: (inside ++ ['"']))) (noQuote : '"' ∉ inside) :
    Token.Quotes source ⟨kind, String.ofList inside, start, stop⟩ := by
  have size : byteLength ['"'] = 1 := rfl
  have opened : Spans source start stop (['"'] ++ (inside ++ ['"'])) := spans
  obtain ⟨opening, rest⟩ := opened.split
  obtain ⟨literal, closing⟩ := rest.split
  rw [size] at opening rest literal closing
  obtain rfl : stop = start + 1 + byteLength inside + 1 := by
    obtain ⟨_, _, _, _, width⟩ := closing
    exact width.symm
  refine ⟨Nat.le_add_right _ _, opening.between_eq, closing.between_eq, literal.between_eq.symm, ?_⟩
  rwa [String.toList_ofList]

theorem Spans.covers {c : Char} {rest : List Char}
    (spans : Spans source start stop (scan c rest).chars) :
    Token.Covers source ⟨(scan c rest).kind, (scan c rest).literal, start, stop⟩ := by
  have width : 0 < byteLength (scan c rest).chars := by
    obtain ⟨run, listed⟩ := scan_chars_eq c rest
    rw [listed, byteLength]
    exact Nat.add_pos_left c.utf8Size_pos _
  refine ⟨scan_kind_ne_endOfInput c rest, ?_, ⟨spans.isBoundary_start, spans.isBoundary_stop⟩, ?_,
    ?_⟩
  · obtain ⟨_, _, _, _, rfl⟩ := spans
    exact Nat.lt_add_of_pos_right width
  · intro noString
    rw [spans.between_eq]
    exact congrArg String.ofList (if_neg noString)
  · intro isString
    obtain ⟨inside, noQuote, listed⟩ := chars_of_string isString
    have literal : (scan c rest).literal = String.ofList inside := by
      rw [Lexeme.literal, if_pos isString, listed, List.tail_cons, List.dropLast_concat]
    rw [literal]
    rw [listed] at spans
    exact spans.quotes noQuote

/-- The tokens of the rest of a text tile it from there on. -/
theorem Lexes.tiles {offset : Nat} {list : List Token} (lexes : Lexes offset chars list)
    (front : List Char) (split : source.toList = front ++ chars)
    (place : byteLength front = offset) : Tiles source offset list := by
  induction lexes generalizing front with
  | @blank offset chars blank =>
      have spans : Spans source offset (offset + byteLength chars) chars :=
        ⟨front, [], by rw [split, List.append_nil], place, rfl⟩
      have size : offset + byteLength chars = source.utf8ByteSize := by
        rw [← place, ← byteLength_append, ← split, byteLength_toList]
      rw [size] at spans ⊢
      exact .ending (spans.gap blank)
  | @lexeme offset blanks c rest list blank ink more ih =>
      have spans : Spans source offset
          (offset + byteLength (blanks ++ (scan c rest).chars)) (blanks ++ (scan c rest).chars) :=
        ⟨front, (scan c rest).rest, by rw [List.append_assoc, scan_split, split], place, rfl⟩
      obtain ⟨gap, lexeme⟩ := spans.split
      rw [byteLength_append, ← Nat.add_assoc] at lexeme
      refine .token (gap.gap blank) lexeme.covers
        (ih (front ++ (blanks ++ (scan c rest).chars)) ?_ ?_)
      · rw [split, List.append_assoc, List.append_assoc, scan_split]
      · rw [byteLength_append, byteLength_append, place, Nat.add_assoc]

/-! ## One request after another -/

namespace Lexer

def following (lexer : Lexer) : Lexer :=
  match lexer.next with
  | some (_, later) => later
  | none => lexer

def after (lexer : Lexer) (requests : Nat) : Lexer :=
  following^[requests] lexer

theorem after_succ (lexer : Lexer) (requests : Nat) :
    lexer.after (requests + 1) = lexer.following.after requests :=
  Function.iterate_succ_apply following requests lexer

theorem after_succ_eq (lexer : Lexer) (requests : Nat) :
    lexer.after (requests + 1) = (lexer.after requests).following :=
  Function.iterate_succ_apply' following requests lexer

theorem remaining_after (lexer : Lexer) (requests : Nat) :
    (lexer.after requests).remaining = lexer.remaining.drop requests := by
  induction requests generalizing lexer with
  | zero => rfl
  | succ requests ih =>
      rw [after_succ, ih]
      cases step : lexer.next with
      | none =>
          have nothing : lexer.remaining = [] := by simp [remaining, take, step]
          simp [following, step, nothing]
      | some given =>
          obtain ⟨token, later⟩ := given
          simp [following, step, remaining_cons lexer later token step]

/-- A lexer gives out the first of the tokens that remain, and goes on with the others. -/
theorem next_eq (lexer : Lexer) :
    lexer.next = lexer.remaining.head?.map fun token => (token, lexer.following) := by
  cases step : lexer.next with
  | none => simp [remaining, take, step]
  | some given =>
      obtain ⟨token, later⟩ := given
      simp [remaining_cons lexer later token step, following, step]

theorem next_after (source : String) (requests : Nat) :
    ((ofSource source).after requests).next =
      (tokens source)[requests]?.map fun token =>
        (token, (ofSource source).after (requests + 1)) := by
  rw [next_eq, remaining_after, ← tokens_eq_remaining, List.head?_drop, after_succ_eq]

end Lexer

/-- So many requests go beyond the end of the input exactly if one of them was answered with it. -/
theorem Ended.length_le_iff {list : List Token} (ended : Ended list) (requests : Nat) :
    list.length ≤ requests ↔ ∃ earlier < requests, ∃ token, list[earlier]? = some token ∧
      token.kind = .endOfInput := by
  induction ended generalizing requests with
  | @last token atEnd =>
      constructor
      · exact fun long => ⟨0, long, token, rfl, atEnd⟩
      · rintro ⟨earlier, before, _⟩
        exact Nat.lt_of_le_of_lt (Nat.zero_le _) before
  | @cons token rest inside ended ih =>
      cases requests with
      | zero => simp
      | succ requests =>
          rw [List.length_cons, Nat.succ_le_succ_iff, ih]
          constructor
          · rintro ⟨earlier, before, found⟩
            exact ⟨earlier + 1, Nat.succ_lt_succ before, found⟩
          · rintro ⟨earlier, before, found, here, atEnd⟩
            cases earlier with
            | zero =>
                cases here
                exact absurd atEnd inside
            | succ earlier => exact ⟨earlier, Nat.lt_of_succ_lt_succ before, found, here, atEnd⟩

/-- The tokens of a text tile it, from its first byte on. A lexer answers one request after another
with these tokens, and with none once it has given out the end of the input. To ask for a token that
must be there is a fault then, and never before. -/
theorem tokens_tile (source : String) :
    Tiles source 0 (tokens source) ∧
      (∀ requests, ((Lexer.ofSource source).after requests).next.map Prod.fst =
        (tokens source)[requests]?) ∧
      (∀ requests token, (tokens source)[requests]? = some token →
        ((Lexer.ofSource source).after requests).nextToken =
          .ok (token, (Lexer.ofSource source).after (requests + 1))) ∧
      ∀ requests, ((Lexer.ofSource source).after requests).nextToken = .error .pastEnd ↔
        ∃ earlier < requests, ∃ token, (tokens source)[earlier]? = some token ∧
          token.kind = .endOfInput := by
  refine ⟨(lexes_tokens source).tiles [] rfl rfl, fun requests => ?_,
    fun requests token found => ?_, fun requests => ?_⟩
  · rw [Lexer.next_after, Option.map_map]
    exact Option.map_id'
  · simp only [Lexer.nextToken, Lexer.next_after, found, Option.map_some]
  · rw [← (ended_tokens source).length_le_iff, ← List.getElem?_eq_none_iff, Lexer.nextToken,
      Lexer.next_after]
    cases (tokens source)[requests]? <;> simp

end Scriptlet
