import Scriptlet.Proofs.Printer.Spelled

/-!
# Canonical texts are read back

A program is plain if its names, integers and strings can be written down as they are, if what is
called can be called, and if an expression on its own ends the statements it stands in. The
canonical text of a plain program is read as that program (`parse_text`).

The proof goes through the forms of expressions one by one: each is read if its parts are. The
induction over programs is then the induction over their forms.
-/
set_option autoImplicit false

namespace Scriptlet

open Token (Kind)
open Phrase (Derives Unfinished)

variable {list : List Token} {chars : List Char}

attribute [local simp] Expr.text

/-! ## Forms of expressions -/

theorem reads_name {name : String} (plain : isPlainName name = true) : (Expr.name name).Reads := by
  refine reads_of_atom fun list chars kind spells follows _ => ?_
  obtain ⟨token, tail, rfl, isName, rfl, spellsTail⟩ :=
    Spells.plainName spells plain follows.1
  exact ⟨tail, spellsTail, .name isName⟩

theorem reads_boolean (value : Bool) : (Expr.boolean value).Reads := by
  refine reads_of_atom fun list chars kind spells follows _ => ?_
  cases value with
  | true =>
      have spells : Spells list ("true".toList ++ chars) := spells
      obtain ⟨token, tail, rfl, isTrue, spellsTail⟩ :=
        spells.keyword .trueWord rfl follows.1
      exact ⟨tail, spellsTail, .trueWord isTrue⟩
  | false =>
      have spells : Spells list ("false".toList ++ chars) := spells
      obtain ⟨token, tail, rfl, isFalse, spellsTail⟩ :=
        spells.keyword .falseWord rfl follows.1
      exact ⟨tail, spellsTail, .falseWord isFalse⟩

theorem reads_string {text : String} (noQuote : '"' ∉ text.toList) : (Expr.string text).Reads := by
  refine reads_of_atom fun list chars kind spells follows _ => ?_
  have spells : Spells list ('"' :: (text.toList ++ '"' :: chars)) := by
    simpa using spells
  obtain ⟨token, tail, rfl, isString, literal, spellsTail⟩ := spells.string noQuote
  rw [String.ofList_toList] at literal
  exact ⟨tail, spellsTail, literal ▸ .string isString⟩

theorem reads_integer {value : Int64} (natural : 0 ≤ value.toInt) :
    (Expr.integer value).Reads := by
  refine reads_of_atom fun list chars kind spells follows _ => ?_
  obtain ⟨n, isNat⟩ := Int.eq_ofNat_of_zero_le natural
  have spells : Spells list (Nat.toDigits 10 n ++ chars) := by
    simpa [isNat, Text.decimal] using spells
  have small : n < 9223372036854775808 := by
    have bound := value.toInt_lt
    omega
  have same : Int64.ofNat n = value := by
    rw [← Int64.ofInt_eq_ofNat, ← isNat, Int64.ofInt_toInt]
  obtain ⟨tail, spellsTail, derives⟩ := derives_natural spells follows.1 small
  exact ⟨tail, spellsTail, same ▸ derives⟩

theorem reads_array {items : List Expr} (reads : ∀ item ∈ items, item.Reads) :
    (Expr.array items).Reads := by
  refine reads_of_atom fun list chars kind spells _ _ => ?_
  have spells : Spells list ('[' :: ((separated (items.map Expr.text)).toList ++
      ']' :: chars)) := by
    simpa [exprTexts_eq_map] using spells
  exact derives_array (readsItem_map fun item member => (reads item member).item) spells

theorem reads_hash {pairs : List (Expr × Expr)}
    (reads : ∀ pair ∈ pairs, pair.1.Reads ∧ pair.2.Reads) : (Expr.hash pairs).Reads := by
  refine reads_of_atom fun list chars kind spells _ _ => ?_
  have spells : Spells list ('\x7b' :: ((separated (pairs.map fun pair =>
      pair.1.text ++ ": " ++ pair.2.text)).toList ++ '\x7d' :: chars)) := by
    simpa [pairTexts_eq_map] using spells
  refine derives_hash (readsItem_map fun pair member => ?_) spells
  exact readsItem_pair (reads pair member).1.item (reads pair member).2.item

theorem reads_group {expr : Expr} (inside : List Char)
    (text : expr.text.toList = '(' :: (inside ++ [')']))
    (derives : ∀ list chars, Spells list (inside ++ ')' :: chars) →
      ∃ tail, Spells tail (')' :: chars) ∧ Derives .expr list expr tail) : expr.Reads := by
  refine reads_of_atom fun list chars kind spells _ _ => ?_
  rw [text] at spells
  have spells : Spells list ('(' :: (inside ++ ')' :: chars)) := by simpa using spells
  obtain ⟨opening, rest, rfl, opens, spellsRest⟩ := spells.mark rfl
  obtain ⟨middle, spellsMiddle, derivation⟩ := derives rest chars spellsRest
  obtain ⟨closing, tail, rfl, closes, spellsTail⟩ := spellsMiddle.mark rfl
  exact ⟨tail, spellsTail, .group opens derivation closes⟩

theorem derives_before_paren {expr : Expr} {tail : List Token}
    (unfinished : Unfinished .equality list expr tail) (spells : Spells tail (')' :: chars)) :
    Derives .expr list expr tail :=
  unfinished.finish (spells.stops (follows_mark rfl) ⟨rfl, nofun⟩ _ _)

theorem unary_spells {op : UnaryOp} (spells : Spells list (op.sign.toList ++ chars))
    (noEqual : chars.head? ≠ some '=') :
    ∃ token tail, list = token :: tail ∧ unaryOperator? token.kind = some op ∧
      Spells tail chars := by
  cases op with
  | negate =>
      have spells : Spells list ('-' :: chars) := spells
      obtain ⟨token, tail, here, kind, spellsTail⟩ := spells.mark rfl
      exact ⟨token, tail, here, by rw [kind]; rfl, spellsTail⟩
  | not =>
      have spells : Spells list ('!' :: chars) := spells
      obtain ⟨token, tail, here, kind, spellsTail⟩ := spells.sign nofun fun _ => noEqual
      exact ⟨token, tail, here, by rw [kind]; rfl, spellsTail⟩

def BinaryOp.tokenKind : BinaryOp → Kind
  | .add => .plus
  | .subtract => .minus
  | .multiply => .star
  | .divide => .slash
  | .less => .less
  | .greater => .greater
  | .equal => .equal
  | .notEqual => .notEqual

def BinaryOp.tier : BinaryOp → Tier
  | .add => .sum
  | .subtract => .sum
  | .multiply => .product
  | .divide => .product
  | .less => .order
  | .greater => .order
  | .equal => .equality
  | .notEqual => .equality

theorem operator?_tokenKind (op : BinaryOp) : op.tier.operator? op.tokenKind = some op := by
  cases op <;> rfl

theorem tokenKind_ne_else (op : BinaryOp) : op.tokenKind ≠ .elseWord := by
  cases op <;> nofun

theorem Spells.binary {op : BinaryOp} (spells : Spells list (op.sign.toList ++ ' ' :: chars)) :
    ∃ token tail, list = token :: tail ∧ token.kind = op.tokenKind ∧
      Spells tail (' ' :: chars) := by
  cases op with
  | equal => exact Spells.equal spells
  | notEqual => exact Spells.notEqual spells
  | add => exact Spells.mark (c := '+') spells rfl
  | subtract => exact Spells.mark (c := '-') spells rfl
  | multiply => exact Spells.mark (c := '*') spells rfl
  | divide => exact Spells.mark (c := '/') spells rfl
  | less => exact Spells.mark (c := '<') spells rfl
  | greater => exact Spells.mark (c := '>') spells rfl

theorem follows_binary (op : BinaryOp) :
    Follows (' ' :: (op.sign.toList ++ ' ' :: chars)) op.tokenKind := by
  refine ⟨apart_blank, fun list spells => ?_⟩
  obtain ⟨token, tail, here, kind, _⟩ := spells.space.binary
  exact ⟨token, tail, here, kind⟩

/-- No expression begins with an equals sign, so that a sign before one stands by itself. -/
theorem Expr.Reads.head_ne {expr : Expr} (reads : expr.Reads) :
    (expr.text.toList ++ ')' :: chars).head? ≠ some '=' := by
  intro begins
  obtain ⟨more, shape⟩ := List.head?_eq_some_iff.mp begins
  have spells : Spells _ (expr.text.toList ++ ')' :: chars) := ⟨0, rfl⟩
  obtain ⟨tail, _, derives⟩ := reads.tier spells (follows_mark rfl) ⟨rfl, nofun⟩ .unary
  obtain ⟨token, rest, here, leads⟩ := derives.opens
  rw [here, shape] at spells
  have kind : token.kind = .equal ∨ token.kind = .assign := by
    by_cases double : more.head? = some '='
    · obtain ⟨after, rfl⟩ := List.head?_eq_some_iff.mp double
      obtain ⟨_, _, ⟨⟩, kind, _⟩ := spells.equal
      exact .inl kind
    · obtain ⟨_, _, ⟨⟩, kind, _⟩ := spells.sign nofun fun _ => double
      exact .inr kind
  rcases kind with kind | kind <;> rw [kind] at leads <;> cases leads

theorem reads_unary {op : UnaryOp} {operand : Expr} (reads : operand.Reads) :
    (Expr.unary op operand).Reads := by
  refine reads_group (op.sign.toList ++ operand.text.toList) (by simp) ?_
  intro list chars spells
  have spells : Spells list (op.sign.toList ++ (operand.text.toList ++ ')' :: chars)) := by
    simpa using spells
  obtain ⟨token, rest, rfl, sign, spellsRest⟩ := unary_spells spells reads.head_ne
  obtain ⟨tail, spellsTail, derives⟩ :=
    reads.tier spellsRest (follows_mark rfl) ⟨rfl, nofun⟩ .unary
  have signed := Phrase.unfinished_unary (.unary sign derives) rfl .equality
  exact ⟨tail, spellsTail, derives_before_paren signed spellsTail⟩

theorem reads_binary {op : BinaryOp} {left right : Expr} (readsLeft : left.Reads)
    (readsRight : right.Reads) : (Expr.binary op left right).Reads := by
  refine reads_group (left.text.toList ++ ' ' :: (op.sign.toList ++ ' ' ::
    right.text.toList)) (by simp) ?_
  intro list chars spells
  have spells : Spells list (left.text.toList ++ ' ' :: (op.sign.toList ++ ' ' ::
      (right.text.toList ++ ')' :: chars))) := by
    simpa using spells
  obtain ⟨middle, spellsMiddle, isOpen⟩ := readsLeft list _ _ spells (follows_binary op)
    (tokenKind_ne_else op)
  obtain ⟨token, rest, rfl, kind, spellsRest⟩ := spellsMiddle.space.binary
  obtain ⟨tail, spellsTail, derives⟩ := readsRight.tier spellsRest.space
    (follows_mark rfl) ⟨rfl, nofun⟩ op.tier.tighter
  have start : Unfinished .equality list left (token :: rest) :=
    isOpen.unfinished .equality
  have whole := start.binary (kind ▸ operator?_tokenKind op) (Tier.equality_rank_le _) derives
  exact ⟨tail, spellsTail, derives_before_paren whole spellsTail⟩

theorem reads_index {left index : Expr} (readsLeft : left.Reads) (readsIndex : index.Reads) :
    (Expr.index left index).Reads := by
  refine reads_group (left.text.toList ++ '[' :: (index.text.toList ++ [']']))
    (by simp) ?_
  intro list chars spells
  have spells : Spells list (left.text.toList ++ '[' :: (index.text.toList ++ ']' :: ')' ::
      chars)) := by
    simpa using spells
  obtain ⟨middle, spellsMiddle, isOpen⟩ :=
    readsLeft list _ _ spells (follows_mark rfl) nofun
  obtain ⟨opening, rest, rfl, opens, spellsRest⟩ := spellsMiddle.mark rfl
  obtain ⟨after, spellsAfter, derives⟩ :=
    readsIndex.tier spellsRest (follows_mark rfl) ⟨rfl, nofun⟩ .equality
  obtain ⟨closing, tail, rfl, closes, spellsTail⟩ := spellsAfter.mark rfl
  have start : Unfinished .equality list left (opening :: rest) :=
    isOpen.unfinished .equality
  have whole := start.index opens derives closes
  exact ⟨tail, spellsTail, derives_before_paren whole spellsTail⟩

theorem reads_call {callee : Expr} {arguments : List Expr} (callable : callee.isCallable = true)
    (readsCallee : callee.Reads) (reads : ∀ argument ∈ arguments, argument.Reads) :
    (Expr.call callee arguments).Reads := by
  intro list chars kind spells _ _
  have spells : Spells list (callee.text.toList ++ '(' ::
      ((separated (arguments.map Expr.text)).toList ++ ')' :: chars)) := by
    simpa [exprTexts_eq_map] using spells
  obtain ⟨middle, spellsMiddle, isOpen⟩ :=
    readsCallee list _ _ spells (follows_mark rfl) nofun
  obtain ⟨opening, rest, rfl, opens, spellsRest⟩ := spellsMiddle.mark rfl
  obtain ⟨tail, spellsTail, items⟩ := derives_items .element
    (readsItem_map fun argument member => (reads argument member).item) spellsRest rfl
    ⟨rfl, nofun⟩ nofun rfl
  exact ⟨tail, spellsTail, fun whole final more =>
    isOpen whole final (.call opens callable items more)⟩

theorem braced_shape (texts : List String) : ∃ more, (braced texts).toList = '\x7b' :: more := by
  simp [braced]

theorem follows_braced (texts : List String) :
    Follows ((braced texts).toList ++ chars) .leftBrace := by
  obtain ⟨more, shape⟩ := braced_shape texts
  rw [shape]
  exact follows_mark rfl

theorem reads_conditional {condition : Expr} {consequence : List Stmt} (reads : condition.Reads)
    (readsBlock : ∀ stmt ∈ consequence, stmt.Reads) (ends : endsOnly consequence = true) :
    (Expr.conditional condition consequence none).Reads := by
  refine reads_of_atom fun list chars kind spells follows noElse => ?_
  have spells : Spells list ("if".toList ++ ' ' :: (condition.text.toList ++ ' ' ::
      ((braced (consequence.map Stmt.text)).toList ++ chars))) := by
    simpa [stmtTexts_eq_map] using spells
  obtain ⟨word, rest, rfl, isIf, spellsRest⟩ := spells.keyword .ifWord rfl apart_blank
  obtain ⟨middle, spellsMiddle, derives⟩ := reads.tier spellsRest.space
    (follows_braced _).blank ⟨rfl, nofun⟩ .equality
  obtain ⟨tail, spellsTail, block⟩ :=
    derives_block consequence readsBlock ends spellsMiddle.space
  obtain ⟨next, after, rfl, found⟩ := follows.2 tail spellsTail
  exact ⟨_, spellsTail, .conditional isIf derives block (found ▸ noElse)⟩

theorem reads_alternative {condition : Expr} {consequence alternative : List Stmt}
    (reads : condition.Reads) (readsBlock : ∀ stmt ∈ consequence, stmt.Reads)
    (ends : endsOnly consequence = true) (readsOther : ∀ stmt ∈ alternative, stmt.Reads)
    (endsOther : endsOnly alternative = true) :
    (Expr.conditional condition consequence (some alternative)).Reads := by
  refine reads_of_atom fun list chars kind spells _ _ => ?_
  have spells : Spells list ("if".toList ++ ' ' :: (condition.text.toList ++ ' ' ::
      ((braced (consequence.map Stmt.text)).toList ++ ' ' :: ("else".toList ++ ' ' ::
        ((braced (alternative.map Stmt.text)).toList ++ chars))))) := by
    simpa [stmtTexts_eq_map] using spells
  obtain ⟨word, rest, rfl, isIf, spellsRest⟩ := spells.keyword .ifWord rfl apart_blank
  obtain ⟨middle, spellsMiddle, derives⟩ := reads.tier spellsRest.space
    (follows_braced _).blank ⟨rfl, nofun⟩ .equality
  obtain ⟨after, spellsAfter, block⟩ :=
    derives_block consequence readsBlock ends spellsMiddle.space
  obtain ⟨elseToken, rest, rfl, isElse, spellsElse⟩ :=
    spellsAfter.space.keyword .elseWord rfl apart_blank
  obtain ⟨tail, spellsTail, other⟩ :=
    derives_block alternative readsOther endsOther spellsElse.space
  exact ⟨tail, spellsTail, .alternative isIf derives block isElse other⟩

theorem readsItem_parameter {name : String} (plain : isPlainName name = true) :
    ReadsItem .parameter name name := by
  intro list chars kind spells follows _
  obtain ⟨token, tail, rfl, isName, rfl, spellsTail⟩ := spells.plainName plain follows.1
  exact ⟨tail, spellsTail, .parameter isName⟩

theorem reads_function {parameters : List String} {body : List Stmt}
    (plain : ∀ name ∈ parameters, isPlainName name = true) (reads : ∀ stmt ∈ body, stmt.Reads)
    (ends : endsOnly body = true) : (Expr.function parameters body).Reads := by
  refine reads_of_atom fun list chars kind spells _ _ => ?_
  have spells : Spells list ("fn".toList ++ '(' :: ((separated (parameters.map id)).toList ++
      ')' :: ' ' :: ((braced (body.map Stmt.text)).toList ++ chars))) := by
    simpa [stmtTexts_eq_map] using spells
  obtain ⟨word, rest, rfl, isFunction, spellsRest⟩ :=
    spells.keyword .functionWord rfl (follows_mark rfl).1
  obtain ⟨opening, rest, rfl, opens, spellsItems⟩ := spellsRest.mark rfl
  obtain ⟨middle, spellsMiddle, items⟩ := derives_items .parameter
    (readsItem_map fun name member => readsItem_parameter (plain name member)) spellsItems rfl
    ⟨rfl, nofun⟩ nofun rfl
  obtain ⟨tail, spellsTail, block⟩ :=
    derives_block body reads ends spellsMiddle.space
  exact ⟨tail, spellsTail, .function isFunction opens items block⟩

/-! ## Plain programs -/

mutual

/-- The text of the expression can be read back: names are words and no keywords, integers have no
sign, strings no quote; what is called can be called. -/
def Expr.plain : Expr → Bool
  | .name name => isPlainName name
  | .integer value => 0 ≤ value.toInt
  | .string text => !text.toList.contains '"'
  | .boolean _ => true
  | .array items => exprsPlain items
  | .hash pairs => pairsPlain pairs
  | .unary _ operand => operand.plain
  | .binary _ left right => left.plain && right.plain
  | .conditional condition consequence none =>
    condition.plain && (endsOnly consequence && stmtsPlain consequence)
  | .conditional condition consequence (some alternative) =>
    condition.plain && (endsOnly consequence && stmtsPlain consequence) &&
      (endsOnly alternative && stmtsPlain alternative)
  | .function parameters body =>
    parameters.all isPlainName && (endsOnly body && stmtsPlain body)
  | .call callee arguments => callee.isCallable && callee.plain && exprsPlain arguments
  | .index left index => left.plain && index.plain

def Stmt.plain : Stmt → Bool
  | .define name value => isPlainName name && value.plain
  | .returning value => value.plain
  | .expr value => value.plain

def exprsPlain : List Expr → Bool
  | [] => true
  | item :: items => item.plain && exprsPlain items

def pairsPlain : List (Expr × Expr) → Bool
  | [] => true
  | (key, value) :: pairs => key.plain && value.plain && pairsPlain pairs

def stmtsPlain : List Stmt → Bool
  | [] => true
  | stmt :: stmts => stmt.plain && stmtsPlain stmts

end

def Program.plain (program : Program) : Bool :=
  endsOnly program.statements && stmtsPlain program.statements

mutual

theorem reads_expr (expr : Expr) (plain : expr.plain = true) : expr.Reads := by
  match expr with
  | .name name => exact reads_name plain
  | .integer value => exact reads_integer (by simpa [Expr.plain] using plain)
  | .string text => exact reads_string (by simpa [Expr.plain] using plain)
  | .boolean value => exact reads_boolean value
  | .array items => exact reads_array (reads_exprs items plain)
  | .hash pairs => exact reads_hash (reads_pairs pairs plain)
  | .unary op operand => exact reads_unary (reads_expr operand plain)
  | .binary op left right =>
      simp only [Expr.plain, Bool.and_eq_true] at plain
      exact reads_binary (reads_expr left plain.1) (reads_expr right plain.2)
  | .conditional condition consequence none =>
      simp only [Expr.plain, Bool.and_eq_true] at plain
      obtain ⟨plainCondition, ends, plainBlock⟩ := plain
      exact reads_conditional (reads_expr condition plainCondition)
        (reads_stmts consequence plainBlock) ends
  | .conditional condition consequence (some alternative) =>
      simp only [Expr.plain, Bool.and_eq_true] at plain
      obtain ⟨⟨plainCondition, ends, plainBlock⟩, endsOther, plainOther⟩ := plain
      exact reads_alternative (reads_expr condition plainCondition)
        (reads_stmts consequence plainBlock) ends (reads_stmts alternative plainOther) endsOther
  | .function parameters body =>
      simp only [Expr.plain, Bool.and_eq_true, List.all_eq_true] at plain
      obtain ⟨plainNames, ends, plainBody⟩ := plain
      exact reads_function plainNames (reads_stmts body plainBody) ends
  | .call callee arguments =>
      simp only [Expr.plain, Bool.and_eq_true] at plain
      obtain ⟨⟨callable, plainCallee⟩, plainArguments⟩ := plain
      exact reads_call callable (reads_expr callee plainCallee)
        (reads_exprs arguments plainArguments)
  | .index left index =>
      simp only [Expr.plain, Bool.and_eq_true] at plain
      exact reads_index (reads_expr left plain.1) (reads_expr index plain.2)

theorem reads_stmt (stmt : Stmt) (plain : stmt.plain = true) : stmt.Reads := by
  match stmt with
  | .define name value =>
      simp only [Stmt.plain, Bool.and_eq_true] at plain
      exact stmtReads_define plain.1 (reads_expr value plain.2)
  | .returning value => exact stmtReads_returning (reads_expr value plain)
  | .expr value => exact stmtReads_expr (reads_expr value plain)

theorem reads_exprs (items : List Expr) (plain : exprsPlain items = true) :
    ∀ item ∈ items, item.Reads := by
  match items with
  | [] => simp
  | item :: items =>
      simp only [exprsPlain, Bool.and_eq_true] at plain
      intro other member
      rcases List.mem_cons.mp member with same | member
      · rw [same]
        exact reads_expr item plain.1
      · exact reads_exprs items plain.2 other member

theorem reads_pairs (pairs : List (Expr × Expr)) (plain : pairsPlain pairs = true) :
    ∀ pair ∈ pairs, pair.1.Reads ∧ pair.2.Reads := by
  match pairs with
  | [] => simp
  | (key, value) :: pairs =>
      simp only [pairsPlain, Bool.and_eq_true] at plain
      intro other member
      rcases List.mem_cons.mp member with same | member
      · rw [same]
        exact ⟨reads_expr key plain.1.1, reads_expr value plain.1.2⟩
      · exact reads_pairs pairs plain.2 other member

theorem reads_stmts (stmts : List Stmt) (plain : stmtsPlain stmts = true) :
    ∀ stmt ∈ stmts, stmt.Reads := by
  match stmts with
  | [] => simp
  | stmt :: stmts =>
      simp only [stmtsPlain, Bool.and_eq_true] at plain
      intro other member
      rcases List.mem_cons.mp member with same | member
      · rw [same]
        exact reads_stmt stmt plain.1
      · exact reads_stmts stmts plain.2 other member

end

theorem derived_text {program : Program} (plain : program.plain = true) :
    program.Derived (tokens program.text) := by
  simp only [Program.plain, Bool.and_eq_true] at plain
  have spells : Spells (tokens program.text)
      ((String.join (program.statements.map Stmt.text)).toList ++ []) := by
    rw [List.append_nil, ← stmtTexts_eq_map]
    exact spells_tokens program.text
  obtain ⟨tail, spellsTail, derives⟩ := derives_statements (.inl rfl) program.statements
    (reads_stmts program.statements plain.2) plain.1 follows_nil spells
  obtain ⟨token, rfl, _⟩ := spellsTail.nil
  exact ⟨token, derives⟩

/-- Reading undoes printing: the canonical text of a plain program is accepted, and gives the
program itself. -/
theorem parse_text (program : Program) (plain : program.plain = true) :
    parse program.text = .ok program :=
  parse_of_derived (derived_text plain)

theorem parse_text_conditional :
    parse (Program.text ⟨[.define "f" (.function ["x"] [.expr (.conditional
        (.binary .less (.name "x") (.integer 0)) [.expr (.unary .negate (.name "x"))] none)]),
      .expr (.call (.name "f") [.index (.array [.string "a"]) (.integer 0)])]⟩) =
    .ok ⟨[.define "f" (.function ["x"] [.expr (.conditional
        (.binary .less (.name "x") (.integer 0)) [.expr (.unary .negate (.name "x"))] none)]),
      .expr (.call (.name "f") [.index (.array [.string "a"]) (.integer 0)])]⟩ :=
  parse_text _ rfl

end Scriptlet
