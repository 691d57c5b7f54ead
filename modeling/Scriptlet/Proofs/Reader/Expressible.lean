import Scriptlet.Proofs.Phrase.Soundness
import Scriptlet.Proofs.Token.Tiling

/-!
# Trees are made of what texts can spell

Whatever the reader makes of a text can be spelled: names are words, integers have no sign and are
in range, strings are quoted in the text, and only names, functions and calls are called. It makes
no difference whether there is something wrong with the text.

Tokens have the literals that their kinds promise (`Token.Speakable`). A reader that `Builds` values
with a property does so from such tokens, and leaves such tokens, even where it fails: so the
property survives the recovery from errors. The conclusion is `expressible_read`.
-/
set_option autoImplicit false

namespace Scriptlet

open Token (Kind)

/-! ## Tokens -/

def QuotedIn (source text : String) : Prop :=
  ∃ before after, source.toList = before ++ '"' :: (text.toList ++ '"' :: after)

/-- The literal is one that the kind of the token promises. -/
structure Token.Speakable (source : String) (token : Token) : Prop where
  name : token.kind = .name → isPlainName token.literal = true
  string : token.kind = .string →
    '"' ∉ token.literal.toList ∧ QuotedIn source token.literal

theorem ofWord_reserved {word : String} (isReserved : reserved.contains word = true) :
    Kind.ofWord word ≠ .name := by
  simp only [reserved, List.contains_iff_mem, List.mem_cons, List.not_mem_nil, or_false]
    at isReserved
  rcases isReserved with rfl | rfl | rfl | rfl | rfl | rfl | rfl <;> decide

theorem isPlainName_of_name {c : Char} {rest : List Char} (isName : (scan c rest).kind = .name) :
    isPlainName (scan c rest).literal = true := by
  by_cases begins : isWordStart c = true
  · have scanned : scan c rest =
        ⟨.ofWord (String.ofList (c :: rest.takeWhile isWordPart)), c :: rest.takeWhile isWordPart,
          rest.dropWhile isWordPart⟩ := by
      unfold scan
      rw [if_pos begins]
    have literal : (scan c rest).literal = String.ofList (c :: rest.takeWhile isWordPart) := by
      rw [Lexeme.literal, if_neg (by rw [isName]; decide), scanned]
    rw [scanned] at isName
    have free : reserved.contains (String.ofList (c :: rest.takeWhile isWordPart)) = false := by
      by_contra isReserved
      exact ofWord_reserved (by simpa using isReserved) isName
    have noDigit : c.isDigit = false := by
      by_contra digit
      rw [isWordStart_of_digit (by simpa using digit)] at begins
      cases begins
    have parts : ∀ d ∈ c :: rest.takeWhile isWordPart, (d.isAlphanum || d == '_') = true := by
      intro d member
      have isPart : isWordPart d = true := by
        rcases List.mem_cons.mp member with rfl | member
        · simp [isWordPart, begins]
        · exact List.mem_takeWhile_imp member
      simp only [isWordPart, isWordStart, Bool.or_eq_true] at isPart
      simp only [Char.isAlphanum, Bool.or_eq_true]
      tauto
    rw [literal]
    simp only [isPlainName, String.toList_ofList, noDigit, free, List.all_eq_true.mpr parts]
    rfl
  · unfold scan at isName
    rw [if_neg begins] at isName
    split at isName
    · cases isName
    split at isName
    · split at isName <;> cases isName
    split at isName
    · cases isName
    · cases isName
    · unfold signKind at isName
      split at isName <;> cases isName

theorem Lexes.speakable {source : String} {offset : Nat} {chars : List Char} {list : List Token}
    (lexes : Lexes offset chars list) (front : List Char) (split : source.toList = front ++ chars) :
    ∀ token ∈ list, token.Speakable source := by
  induction lexes generalizing front with
  | blank =>
      intro token member
      rw [List.mem_singleton.mp member]
      exact ⟨nofun, nofun⟩
  | @lexeme offset blanks c rest list _ _ _ ih =>
      intro token member
      rcases List.mem_cons.mp member with rfl | member
      · refine ⟨isPlainName_of_name, fun isString => ?_⟩
        obtain ⟨inside, noQuote, listed⟩ := chars_of_string isString
        have literal : (scan c rest).literal = String.ofList inside := by
          rw [Lexeme.literal, if_pos isString, listed, List.tail_cons, List.dropLast_concat]
        rw [literal, QuotedIn, String.toList_ofList]
        refine ⟨noQuote, front ++ blanks, (scan c rest).rest, ?_⟩
        rw [split, ← scan_split c rest, listed]
        simp
      · refine ih (front ++ (blanks ++ (scan c rest).chars)) ?_ token member
        rw [split, ← scan_split c rest]
        simp

theorem speakable_tokens (source : String) : ∀ token ∈ tokens source, token.Speakable source :=
  (lexes_tokens source).speakable [] rfl

/-! ## Trees -/

mutual

/-- All parts of the expression can be spelled, and its strings are quoted in the source. -/
def Expr.Expressible (source : String) : Expr → Prop
  | .name name => isPlainName name = true
  | .integer value => 0 ≤ value.toInt ∧ value.toInt ≤ 9223372036854775807
  | .string text => '"' ∉ text.toList ∧ QuotedIn source text
  | .boolean _ => True
  | .array items => ExprsExpressible source items
  | .hash pairs => PairsExpressible source pairs
  | .unary _ operand => operand.Expressible source
  | .binary _ left right => left.Expressible source ∧ right.Expressible source
  | .conditional condition consequence none =>
    condition.Expressible source ∧ StmtsExpressible source consequence
  | .conditional condition consequence (some alternative) =>
    condition.Expressible source ∧ StmtsExpressible source consequence ∧
      StmtsExpressible source alternative
  | .function parameters body =>
    (∀ name ∈ parameters, isPlainName name = true) ∧ StmtsExpressible source body
  | .call callee arguments =>
    callee.isCallable = true ∧ callee.Expressible source ∧ ExprsExpressible source arguments
  | .index left index => left.Expressible source ∧ index.Expressible source

def Stmt.Expressible (source : String) : Stmt → Prop
  | .define name value => isPlainName name = true ∧ value.Expressible source
  | .returning value => value.Expressible source
  | .expr value => value.Expressible source

def ExprsExpressible (source : String) : List Expr → Prop
  | [] => True
  | item :: items => item.Expressible source ∧ ExprsExpressible source items

def PairsExpressible (source : String) : List (Expr × Expr) → Prop
  | [] => True
  | (key, value) :: pairs =>
    (key.Expressible source ∧ value.Expressible source) ∧ PairsExpressible source pairs

def StmtsExpressible (source : String) : List Stmt → Prop
  | [] => True
  | stmt :: stmts => stmt.Expressible source ∧ StmtsExpressible source stmts

end

theorem exprsExpressible_iff {source : String} {items : List Expr} :
    ExprsExpressible source items ↔ ∀ item ∈ items, item.Expressible source := by
  induction items with
  | nil => simp [ExprsExpressible]
  | cons item items ih => simp [ExprsExpressible, ih]

theorem pairsExpressible_iff {source : String} {pairs : List (Expr × Expr)} :
    PairsExpressible source pairs ↔
      ∀ pair ∈ pairs, pair.1.Expressible source ∧ pair.2.Expressible source := by
  induction pairs with
  | nil => simp [PairsExpressible]
  | cons pair pairs ih => simp [PairsExpressible, ih]

/-! ## Building -/

def Cursor.Speaks (source : String) (cursor : Cursor) : Prop :=
  ∀ token ∈ cursor.tokens, token.Speakable source

def Outcome.Builds {α : Type} (source : String) (post : α → Prop) :
    Outcome Cursor Diagnostic α → Prop
  | .ok value later => post value ∧ later.Speaks source
  | .raised _ later => later.Speaks source
  | .halted _ => True

namespace Reader

variable {α β : Type} {source : String} {post : α → Prop} {postNext : β → Prop}

def Builds (source : String) (post : α → Prop) (run : Reader α) : Prop :=
  ∀ cursor : Cursor, cursor.Speaks source → (run cursor).Builds source post

theorem Builds.bind {run : Reader α} {next : α → Reader β} (builds : Builds source post run)
    (buildsNext : ∀ value, post value → Builds source postNext (next value)) :
    Builds source postNext (run >>= next) := by
  intro cursor speaks
  have first := builds cursor speaks
  rw [Run.bind_apply]
  cases outcome : run cursor with
  | ok value later =>
      rw [outcome] at first
      exact buildsNext value first.1 later first.2
  | raised diagnostic later =>
      rw [outcome] at first
      exact first
  | halted why => trivial

theorem Builds.ite {run other : Reader α} {condition : Prop} [Decidable condition]
    (builds : Builds source post run) (buildsOther : Builds source post other) :
    Builds source post (if condition then run else other) := by
  split
  · exact builds
  · exact buildsOther

theorem Builds.attempt {run : Reader α} (builds : Builds source post run) :
    Builds source (fun result => ∀ value, result = .ok value → post value) (Run.attempt run) := by
  intro cursor speaks
  have built := builds cursor speaks
  unfold Run.attempt
  cases outcome : run cursor with
  | ok value later =>
      rw [outcome] at built
      exact ⟨fun _ same => by cases same; exact built.1, built.2⟩
  | raised diagnostic later =>
      rw [outcome] at built
      exact ⟨nofun, built⟩
  | halted why => trivial

theorem builds_pure {value : α} (holds : post value) : Builds source post (pure value) :=
  fun _ speaks => ⟨holds, speaks⟩

theorem builds_raise (diagnostic : Diagnostic) :
    Builds source post (Run.raise diagnostic : Reader α) :=
  fun _ speaks => speaks

theorem builds_halt (why : Halt) : Builds source post (Run.halt why : Reader α) :=
  fun _ _ => trivial

theorem builds_ofExcept {result : Except Diagnostic α}
    (holds : ∀ value, result = .ok value → post value) :
    Builds source post (Run.ofExcept result : Reader α) := by
  cases result with
  | ok value => exact builds_pure (holds value rfl)
  | error diagnostic => exact builds_raise diagnostic

theorem builds_modify {change : Cursor → Cursor}
    (onward : ∀ cursor, (change cursor).tokens <:+ cursor.tokens) :
    Builds source (fun _ => True) (Run.modify change) :=
  fun cursor speaks => ⟨trivial, fun token member => speaks token ((onward cursor).subset member)⟩

theorem builds_current : Builds source (Token.Speakable source) current :=
  fun cursor speaks => ⟨speaks cursor.current List.mem_cons_self, speaks⟩

theorem builds_peek : Builds source (fun _ => True) peek := by
  intro cursor speaks
  unfold peek
  split
  · exact ⟨trivial, speaks⟩
  · split
    · exact ⟨trivial, speaks⟩
    · trivial

theorem builds_peekIs (kind : Kind) : Builds source (fun _ => True) (peekIs kind) :=
  builds_peek.bind fun _ _ => builds_pure trivial

theorem builds_advance : Builds source (fun _ => True) advance := by
  intro cursor speaks
  unfold advance
  split
  · rename_i next ahead more
    refine ⟨trivial, fun token member => speaks token ?_⟩
    rw [Cursor.tokens, more]
    exact List.mem_cons_of_mem _ member
  · split
    · exact ⟨trivial, speaks⟩
    · trivial

theorem builds_expect (kind : Kind) : Builds source (fun _ => True) (expect kind) :=
  builds_peek.bind fun _ _ => builds_advance.ite (builds_raise _)

theorem kind_of_expect {kind : Kind} {cursor later : Cursor} {value : Unit}
    (ran : expect kind cursor = .ok value later) : later.current.kind = kind := by
  obtain ⟨next, middle, ranPeek, ran⟩ := Run.bind_eq_ok ran
  split at ran
  · rename_i found
    unfold peek at ranPeek
    unfold advance at ran
    split at ranPeek
    · rename_i ahead
      cases ranPeek
      rw [ahead] at ran
      cases ran
      exact found
    · rename_i ahead
      split at ranPeek
      · rename_i atEnd
        cases ranPeek
        rw [ahead] at ran
        simp only [if_pos atEnd] at ran
        cases ran
        exact found
      · cases ranPeek
  · cases ran

theorem Builds.expectedToken {next : Token → Reader α} {kind : Kind}
    (builds : ∀ token, token.Speakable source → token.kind = kind →
      Builds source post (next token)) :
    Builds source post (expect kind >>= fun _ => current >>= next) := by
  intro cursor speaks
  have expected := builds_expect kind cursor speaks
  rw [Run.bind_apply]
  cases outcome : expect kind cursor with
  | ok value later =>
      rw [outcome] at expected
      exact builds later.current (expected.2 _ List.mem_cons_self)
        (kind_of_expect outcome) later expected.2
  | raised diagnostic later =>
      rw [outcome] at expected
      exact expected
  | halted why => trivial

theorem builds_endStatement : Builds source (fun _ => True) endStatement := by
  refine (builds_modify fun cursor => ?_).bind fun _ _ =>
    (builds_peekIs _).bind fun _ _ => builds_advance.ite (builds_pure trivial)
  exact skipUntilNext_suffix _ _ _

theorem builds_record (diagnostic : Diagnostic) :
    Builds source (fun _ => True) (record diagnostic) :=
  builds_modify fun _ => List.suffix_refl _

theorem builds_leaveStatement : Builds source (fun _ => True) leaveStatement :=
  builds_modify fun _ => skipUntil_suffix _ _ _

theorem builds_leaveBlockStatement : Builds source (fun _ => True) leaveBlockStatement :=
  builds_modify fun _ => skipInBlock_suffix _ _ _

/-! ## Lists -/

theorem builds_itemsRest {item : Reader α} (builds : Builds source post item) (rounds : Nat) :
    Builds source (fun list => ∀ value ∈ list, post value) (itemsRest item rounds) := by
  induction rounds with
  | zero => exact builds_halt _
  | succ rounds ih =>
      refine (builds_peekIs _).bind fun _ _ => Builds.ite ?_ (builds_pure (by simp))
      exact builds_advance.bind fun _ _ => builds_advance.bind fun _ _ =>
        builds.bind fun next holds => ih.bind fun rest all =>
          builds_pure (List.forall_mem_cons.mpr ⟨holds, all⟩)

theorem builds_items {item : Reader α} (builds : Builds source post item) (close : Kind)
    (rounds : Nat) :
    Builds source (fun list => ∀ value ∈ list, post value) (items close item rounds) := by
  refine (builds_peekIs _).bind fun _ _ => Builds.ite ?_ ?_
  · exact builds_advance.bind fun _ _ => builds_pure (by simp)
  · exact builds_advance.bind fun _ _ => builds.bind fun first holds =>
      (builds_itemsRest builds rounds).bind fun rest all => (builds_expect close).bind fun _ _ =>
        builds_pure (List.forall_mem_cons.mpr ⟨holds, all⟩)

theorem builds_parameter : Builds source (fun name => isPlainName name = true) parameter := by
  refine builds_current.bind fun token speakable => ?_
  split
  · rename_i isName
    exact builds_pure (speakable.name isName)
  · exact builds_raise _

/-! ## Statements -/

section Loops

variable {stmt : Reader Stmt} (builds : Builds source (Stmt.Expressible source) stmt)

include builds

theorem builds_blockRest (rounds : Nat) :
    Builds source (StmtsExpressible source) (blockRest stmt rounds) := by
  induction rounds with
  | zero => exact builds_halt _
  | succ rounds ih =>
      refine builds_current.bind fun token _ => Builds.ite (builds_pure trivial)
        (Builds.ite (builds_raise _) ?_)
      refine builds.attempt.bind fun result holds => ?_
      cases result with
      | ok first =>
          exact builds_advance.bind fun _ _ => ih.bind fun rest all =>
            builds_pure ⟨holds first rfl, all⟩
      | error diagnostic =>
          exact (builds_record _).bind fun _ _ => builds_leaveBlockStatement.bind fun _ _ => ih

theorem builds_programRest (rounds : Nat) :
    Builds source (StmtsExpressible source) (programRest stmt rounds) := by
  induction rounds with
  | zero => exact builds_halt _
  | succ rounds ih =>
      refine builds_current.bind fun token _ => Builds.ite (builds_pure trivial) ?_
      refine builds.attempt.bind fun result holds => ?_
      cases result with
      | ok first =>
          exact builds_advance.bind fun _ _ => ih.bind fun rest all =>
            builds_pure ⟨holds first rfl, all⟩
      | error diagnostic =>
          exact (builds_record _).bind fun _ _ => builds_leaveStatement.bind fun _ _ =>
            builds_advance.bind fun _ _ => ih

end Loops

theorem integerOf_range {token : Token} {value : Int64} (found : integerOf token = .ok value) :
    0 ≤ value.toInt ∧ value.toInt ≤ 9223372036854775807 := by
  unfold integerOf at found
  simp only at found
  split at found
  · rename_i small
    cases found
    rw [Int64.toInt_ofNat_of_lt small]
    exact ⟨Int.natCast_nonneg _, by unfold integerBound at small; omega⟩
  · cases found

/-- Only what can be called is called. -/
theorem trailingRule_form {left : Expr} {kind : Kind} {rule : TrailingHandler ⊕ Trailing}
    (found : trailingRule .standard left kind = some rule) :
    ∃ form, rule = .inr form ∧ (form = .call → left.isCallable = true) := by
  unfold trailingRule at found
  split at found
  · cases found
  · rename_i free
    obtain ⟨form, isForm, rfl⟩ := Option.map_eq_some_iff.mp found
    refine ⟨form, rfl, ?_⟩
    rintro rfl
    cases kind <;> cases isForm
    simpa using free

section Parts

variable {expr : Precedence → Reader Expr}
  (builds : ∀ minimum, Builds source (Expr.Expressible source) (expr minimum))

include builds

theorem builds_define : Builds source (Stmt.Expressible source) (define expr) := by
  refine Builds.expectedToken fun name speakable isName => (builds_expect _).bind fun _ _ => ?_
  exact builds_advance.bind fun _ _ => (builds _).bind fun value holds =>
    builds_endStatement.bind fun _ _ => builds_pure ⟨speakable.name isName, holds⟩

theorem builds_returning : Builds source (Stmt.Expressible source) (returning expr) :=
  builds_advance.bind fun _ _ => (builds _).bind fun _ holds =>
    builds_endStatement.bind fun _ _ => builds_pure holds

theorem builds_exprStatement : Builds source (Stmt.Expressible source) (exprStatement expr) := by
  refine (builds _).bind fun value holds => (builds_peekIs _).bind fun _ _ => ?_
  have done : Builds source (Stmt.Expressible source) (pure (.expr value)) := builds_pure holds
  split
  · exact builds_advance.bind fun _ _ => done
  · exact done

theorem builds_statement : Builds source (Stmt.Expressible source) (statement expr) := by
  refine builds_current.bind fun token _ => ?_
  split
  · exact builds_define builds
  · exact builds_returning builds
  · exact builds_exprStatement builds

theorem builds_block (rounds : Nat) :
    Builds source (StmtsExpressible source) (block expr rounds) :=
  builds_advance.bind fun _ _ => builds_blockRest (builds_statement builds) rounds

/-! ## Expressions -/

theorem builds_pair :
    Builds source (fun found => found.1.Expressible source ∧ found.2.Expressible source)
      (pair expr) :=
  (builds _).bind fun _ holds => (builds_expect _).bind fun _ _ => builds_advance.bind fun _ _ =>
    (builds _).bind fun _ holdsValue => builds_pure ⟨holds, holdsValue⟩

theorem builds_conditional (rounds : Nat) (token : Token) :
    Builds source (Expr.Expressible source) (leadingForm expr rounds token .conditional) := by
  refine builds_advance.bind fun _ _ => (builds _).bind fun condition holds =>
    (builds_expect _).bind fun _ _ => (builds_block builds rounds).bind fun consequence all =>
      (builds_peekIs _).bind fun _ _ => Builds.ite ?_ (builds_pure ⟨holds, all⟩)
  exact builds_advance.bind fun _ _ => (builds_expect _).bind fun _ _ =>
    (builds_block builds rounds).bind fun alternative allOther =>
      builds_pure ⟨holds, all, allOther⟩

theorem builds_function (rounds : Nat) (token : Token) :
    Builds source (Expr.Expressible source) (leadingForm expr rounds token .function) :=
  (builds_expect _).bind fun _ _ => (builds_items builds_parameter _ rounds).bind fun _ names =>
    (builds_expect _).bind fun _ _ => (builds_block builds rounds).bind fun _ all =>
      builds_pure ⟨names, all⟩

theorem builds_leadingForm (rounds : Nat) {token : Token} (speakable : token.Speakable source)
    {form : Leading} (begins : token.kind.leading? = some form) :
    Builds source (Expr.Expressible source) (leadingForm expr rounds token form) := by
  have kind := kind_of_leading begins
  cases form with
  | name => exact builds_pure (speakable.name kind)
  | integer =>
      refine (builds_ofExcept fun value found => ?_).bind fun _ holds => builds_pure holds
      exact integerOf_range found
  | string => exact builds_pure (speakable.string kind)
  | boolean value => exact builds_pure trivial
  | unary op =>
      exact builds_advance.bind fun _ _ => (builds _).bind fun _ holds => builds_pure holds
  | group =>
      exact builds_advance.bind fun _ _ => (builds _).bind fun _ holds =>
        (builds_expect _).bind fun _ _ => builds_pure holds
  | array =>
      exact (builds_items (builds _) _ rounds).bind fun _ all =>
        builds_pure (exprsExpressible_iff.mpr all)
  | hash =>
      exact (builds_items (builds_pair builds) _ rounds).bind fun _ all =>
        builds_pure (pairsExpressible_iff.mpr all)
  | conditional => exact builds_conditional builds rounds token
  | function => exact builds_function builds rounds token

theorem builds_operand (rounds : Nat) :
    Builds source (Expr.Expressible source) (operand .standard expr rounds) := by
  refine builds_current.bind fun token speakable => ?_
  simp only [Handlers.standard]
  cases begins : token.kind.leading? with
  | none => exact builds_raise _
  | some form => exact builds_leadingForm builds rounds speakable begins

theorem builds_trailingForm (rounds : Nat) {left : Expr} (holds : left.Expressible source)
    (token : Token) {form : Trailing} (callable : form = .call → left.isCallable = true) :
    Builds source (Expr.Expressible source) (trailingForm expr rounds left token form) := by
  cases form with
  | binary op =>
      exact builds_advance.bind fun _ _ => (builds _).bind fun _ holdsRight =>
        builds_pure ⟨holds, holdsRight⟩
  | call =>
      exact (builds_items (builds _) _ rounds).bind fun _ all =>
        builds_pure ⟨callable rfl, holds, exprsExpressible_iff.mpr all⟩
  | index =>
      exact builds_advance.bind fun _ _ => (builds _).bind fun _ holdsIndex =>
        (builds_expect _).bind fun _ _ => builds_pure ⟨holds, holdsIndex⟩

theorem builds_operators (inner : Nat) (minimum : Precedence) (rounds : Nat) {left : Expr}
    (holds : left.Expressible source) :
    Builds source (Expr.Expressible source)
      (operators .standard expr inner minimum rounds left) := by
  induction rounds generalizing left with
  | zero => exact builds_halt _
  | succ rounds ih =>
      refine builds_peek.bind fun next _ => ?_
      split
      · split
        · exact builds_pure holds
        · rename_i rule found
          obtain ⟨form, rfl, callable⟩ := trailingRule_form found
          refine builds_advance.bind fun _ _ =>
            (builds_trailingForm builds inner holds next callable).bind fun _ => ih
      · exact builds_pure holds

end Parts

theorem builds_expression (depth : Nat) (minimum : Precedence) :
    Builds source (Expr.Expressible source) (expression .standard depth minimum) := by
  induction depth generalizing minimum with
  | zero => exact builds_halt _
  | succ depth ih =>
      exact (builds_operand ih _).bind fun _ => builds_operators ih _ minimum _

end Reader

/-- Whatever is wrong with a text, the program made of it consists of trees that can be spelled. -/
theorem expressible_read (source : String) :
    StmtsExpressible source (read source).program.statements := by
  let bound := (tokens source).length
  have builds : Reader.Builds source (fun program => StmtsExpressible source program.statements)
      (Reader.program .standard bound) :=
    (Reader.builds_programRest (Reader.builds_statement (Reader.builds_expression bound))
      bound).bind fun _ all => Reader.builds_pure all
  have speaks : (Cursor.start (tokens source)).Speaks source := by
    obtain ⟨token, ahead, listed⟩ := List.exists_cons_of_ne_nil (ended_tokens source).ne_nil
    have speakable := speakable_tokens source
    rw [listed] at speakable ⊢
    exact speakable
  have built := builds (.start (tokens source)) speaks
  rw [read, readWith, readTokens, Run.exec]
  cases outcome : Reader.program .standard bound (.start (tokens source)) with
  | ok program later =>
      rw [outcome] at built
      exact built.1
  | raised diagnostic later => exact trivial
  | halted why => exact trivial

end Scriptlet
