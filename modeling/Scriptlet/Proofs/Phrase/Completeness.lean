import Scriptlet.Proofs.Phrase.Derivation
import Scriptlet.Proofs.Reader.Progress

/-!
# The reader follows the grammar

A derivation tells the reader what to do: on tokens that derive a phrase, the reader of the phrase
gives its tree, stands on the last token of it, and records nothing.

Expressions need more than that. The loop over operators reads all tiers at once, while the grammar
takes them one by one. A tier therefore says where the loop has come to when the tier is over
(`Begins` and `Continues`); the loop itself is over when nothing goes on with the expression.
-/
set_option autoImplicit false

namespace Scriptlet

open Token (Kind)

def Tier.rank : Tier → Nat
  | .equality => Precedence.equality.rank
  | .order => Precedence.order.rank
  | .sum => Precedence.sum.rank
  | .product => Precedence.product.rank
  | .unary => Precedence.call.rank

theorem Tier.rank_le_tighter (tier : Tier) : tier.rank ≤ tier.tighter.rank := by
  cases tier <;> decide

theorem Tier.rank_le_unary (tier : Tier) : tier.rank ≤ Tier.unary.rank := by
  cases tier <;> decide

theorem Tier.equality_rank_le (tier : Tier) : Tier.equality.rank ≤ tier.rank := by
  cases tier <;> decide

theorem Tier.rank_of_operator {tier : Tier} {kind : Kind} {op : BinaryOp}
    (found : tier.operator? kind = some op) : kind.precedence.rank = tier.rank := by
  cases tier <;> cases kind <;> cases found <;> rfl

theorem Tier.tier?_floor (tier : Tier) : tier.floor.tier? = some tier := by
  cases tier <;> rfl

theorem Precedence.rank_lt_of_tier {minimum : Precedence} {tier : Tier}
    (place : minimum.tier? = some tier) : minimum.rank < tier.rank := by
  cases minimum <;> cases place <;> decide

theorem Precedence.floor_le_of_tier {minimum : Precedence} {tier : Tier}
    (place : minimum.tier? = some tier) : tier.floor.rank ≤ minimum.rank := by
  cases minimum <;> cases place <;> decide

namespace Reader

variable {α β : Type}

/-! ## Where a reader leads -/

/-- From the first token of `list` on, the reader gives the value without recording anything. It
ends on the last token before `rest`. -/
def Leads (run : Reader α) (list : List Token) (value : α) (rest : List Token) : Prop :=
  ∃ token ahead, list = token :: ahead ∧ ∀ recorded,
    ∃ last, run ⟨token, ahead, recorded⟩ = .ok value ⟨last, rest, recorded⟩

def LeadsOn (run : Reader α) (list : List Token) (value : α) (rest : List Token) : Prop :=
  ∀ token recorded, ∃ last, run ⟨token, list, recorded⟩ = .ok value ⟨last, rest, recorded⟩

theorem LeadsOn.leads {run : Reader α} {list rest : List Token} {value : α}
    (leads : LeadsOn run list value rest) (token : Token) :
    Leads run (token :: list) value rest :=
  ⟨token, list, rfl, leads token⟩

theorem LeadsOn.bind {run : Reader α} {next : α → Reader β} {list middle rest : List Token}
    {value : α} {result : β} (leads : LeadsOn run list value middle)
    (leadsNext : LeadsOn (next value) middle result rest) :
    LeadsOn (run >>= next) list result rest := by
  intro token recorded
  obtain ⟨last, ran⟩ := leads token recorded
  obtain ⟨final, ranNext⟩ := leadsNext last recorded
  exact ⟨final, by rw [Run.bind_apply, ran]; exact ranNext⟩

theorem Leads.bind {run : Reader α} {next : α → Reader β} {list middle rest : List Token}
    {value : α} {result : β} (leads : Leads run list value middle)
    (leadsNext : LeadsOn (next value) middle result rest) :
    Leads (run >>= next) list result rest := by
  obtain ⟨token, ahead, here, runs⟩ := leads
  refine ⟨token, ahead, here, fun recorded => ?_⟩
  obtain ⟨last, ran⟩ := runs recorded
  obtain ⟨final, ranNext⟩ := leadsNext last recorded
  exact ⟨final, by rw [Run.bind_apply, ran]; exact ranNext⟩

theorem Leads.afterAdvance {run : Reader α} {list rest : List Token} {value : α}
    (leads : Leads run list value rest) :
    LeadsOn (advance >>= fun _ => run) list value rest := by
  obtain ⟨next, ahead, rfl, runs⟩ := leads
  intro token recorded
  exact runs recorded

theorem leadsOn_pure (value : α) (rest : List Token) : LeadsOn (pure value) rest value rest :=
  fun token _ => ⟨token, rfl⟩

theorem leadsOn_advance (next : Token) (rest : List Token) :
    LeadsOn advance (next :: rest) () rest :=
  fun _ _ => ⟨next, rfl⟩

theorem leadsOn_expect {kind : Kind} {next : Token} (found : next.kind = kind)
    (rest : List Token) : LeadsOn (expect kind) (next :: rest) () rest := by
  intro token recorded
  refine ⟨next, ?_⟩
  simp [expect, Run.bind_apply, peek, found, advance, Cursor.moveTo]

theorem Leads.afterExpect {run : Reader α} {kind : Kind} {token : Token} {list rest : List Token}
    {value : α} (leads : Leads run (token :: list) value rest) (found : token.kind = kind) :
    LeadsOn (expect kind >>= fun _ => run) (token :: list) value rest := by
  obtain ⟨_, _, ⟨⟩, runs⟩ := leads
  intro before recorded
  obtain ⟨last, ran⟩ := runs recorded
  refine ⟨last, ?_⟩
  simp [expect, Run.bind_apply, peek, found, advance, Cursor.moveTo, ran]

theorem LeadsOn.expectedToken {next : Token → Reader α} {kind : Kind} {token : Token}
    {list rest : List Token} {value : α} (found : token.kind = kind)
    (leads : LeadsOn (next token) list value rest) :
    LeadsOn (expect kind >>= fun _ => current >>= next) (token :: list) value rest := by
  intro before recorded
  obtain ⟨last, ran⟩ := leads token recorded
  refine ⟨last, ?_⟩
  simp [expect, Run.bind_apply, peek, found, advance, Cursor.moveTo, current, ran]

theorem peekIs_cons (kind : Kind) (token next : Token) (ahead : List Token)
    (recorded : List Diagnostic) :
    peekIs kind ⟨token, next :: ahead, recorded⟩ =
      .ok (decide (next.kind = kind)) ⟨token, next :: ahead, recorded⟩ :=
  rfl

theorem LeadsOn.found {next : Bool → Reader α} {kind : Kind} {token : Token}
    {list rest : List Token} {value : α} (here : token.kind = kind)
    (leads : LeadsOn (next true) (token :: list) value rest) :
    LeadsOn (peekIs kind >>= next) (token :: list) value rest := by
  intro before recorded
  obtain ⟨last, ran⟩ := leads before recorded
  exact ⟨last, by simpa [Run.bind_apply, peekIs_cons, here] using ran⟩

theorem LeadsOn.absent {next : Bool → Reader α} {kind : Kind} {token : Token}
    {list rest : List Token} {value : α} (other : token.kind ≠ kind)
    (leads : LeadsOn (next false) (token :: list) value rest) :
    LeadsOn (peekIs kind >>= next) (token :: list) value rest := by
  intro before recorded
  obtain ⟨last, ran⟩ := leads before recorded
  exact ⟨last, by simpa [Run.bind_apply, peekIs_cons, other] using ran⟩

/-! ## Statements -/

theorem leadsOn_semicolon {list rest : List Token} (semicolon : Phrase.Semicolon list rest)
    (value : α) :
    LeadsOn (do
      if ← peekIs .semicolon then advance
      return value) list value rest := by
  cases semicolon with
  | found here => exact .found here ((leadsOn_advance _ _).bind (leadsOn_pure _ _))
  | none other => exact .absent other (leadsOn_pure _ _)

theorem leadsOn_endStatement {list rest : List Token} (ending : Phrase.Ending list rest) :
    LeadsOn endStatement list () rest := by
  induction ending with
  | @semicolon token rest here =>
      intro before recorded
      refine ⟨token, ?_⟩
      simp [endStatement, Run.bind_apply, Run.modify, skipUntilNext, here, Cursor.moveTo,
        peekIs_cons, advance]
  | brace here =>
      intro before recorded
      refine ⟨before, ?_⟩
      simp [endStatement, Run.bind_apply, Run.modify, skipUntilNext, here, Cursor.moveTo,
        peekIs_cons]
  | endOfInput here =>
      intro before recorded
      refine ⟨before, ?_⟩
      simp [endStatement, Run.bind_apply, Run.modify, skipUntilNext, here, Cursor.moveTo,
        peekIs_cons]
  | @junk token list rest noSemicolon noBrace inside _ ih =>
      intro before recorded
      obtain ⟨last, ran⟩ := ih token recorded
      refine ⟨last, ?_⟩
      rw [← ran]
      simp [endStatement, Run.bind_apply, Run.modify, skipUntilNext, noSemicolon, noBrace, inside,
        Cursor.moveTo]

theorem leads_blockRest_nil {stmt : Reader Stmt} {rounds : Nat} {token : Token}
    (closes : token.kind = .rightBrace) (rest : List Token) :
    Leads (blockRest stmt (rounds + 1)) (token :: rest) [] rest := by
  refine ⟨token, rest, rfl, fun recorded => ⟨token, ?_⟩⟩
  simp [blockRest, Run.bind_apply, current, closes]

theorem leads_blockRest_cons {stmt : Reader Stmt} {rounds : Nat} {token : Token}
    {list middle rest : List Token} {first : Stmt} {others : List Stmt}
    (unclosed : token.kind ≠ .rightBrace) (inside : token.kind ≠ .endOfInput)
    (leads : Leads stmt (token :: list) first middle)
    (leadsRest : Leads (blockRest stmt rounds) middle others rest) :
    Leads (blockRest stmt (rounds + 1)) (token :: list) (first :: others) rest := by
  obtain ⟨_, _, ⟨⟩, runs⟩ := leads
  obtain ⟨next, ahead, rfl, runsRest⟩ := leadsRest
  refine ⟨_, _, rfl, fun recorded => ?_⟩
  obtain ⟨last, ran⟩ := runs recorded
  obtain ⟨final, ranRest⟩ := runsRest recorded
  refine ⟨final, ?_⟩
  simp [-bind_pure_comp, blockRest, Run.bind_apply, current, unclosed, inside, Run.attempt, ran,
    advance, Cursor.moveTo, ranRest]

theorem leads_programRest_nil {stmt : Reader Stmt} {rounds : Nat} {token : Token}
    (atEnd : token.kind = .endOfInput) (rest : List Token) :
    Leads (programRest stmt (rounds + 1)) (token :: rest) [] rest := by
  refine ⟨token, rest, rfl, fun recorded => ⟨token, ?_⟩⟩
  simp [programRest, Run.bind_apply, current, atEnd]

theorem leads_programRest_cons {stmt : Reader Stmt} {rounds : Nat} {token : Token}
    {list middle rest : List Token} {first : Stmt} {others : List Stmt}
    (inside : token.kind ≠ .endOfInput) (leads : Leads stmt (token :: list) first middle)
    (leadsRest : Leads (programRest stmt rounds) middle others rest) :
    Leads (programRest stmt (rounds + 1)) (token :: list) (first :: others) rest := by
  obtain ⟨_, _, ⟨⟩, runs⟩ := leads
  obtain ⟨next, ahead, rfl, runsRest⟩ := leadsRest
  refine ⟨_, _, rfl, fun recorded => ?_⟩
  obtain ⟨last, ran⟩ := runs recorded
  obtain ⟨final, ranRest⟩ := runsRest recorded
  refine ⟨final, ?_⟩
  simp [-bind_pure_comp, programRest, Run.bind_apply, current, inside, Run.attempt, ran, advance,
    Cursor.moveTo, ranRest]

theorem leadsOn_itemsRest_cons {item : Reader α} {rounds : Nat} {comma : Token}
    {list middle rest : List Token} {next : α} {others : List α} (goesOn : comma.kind = .comma)
    (leads : Leads item list next middle)
    (leadsRest : LeadsOn (itemsRest item rounds) middle others rest) :
    LeadsOn (itemsRest item (rounds + 1)) (comma :: list) (next :: others) rest := by
  refine LeadsOn.found goesOn ((leadsOn_advance _ _).bind (Leads.afterAdvance ?_))
  exact leads.bind (leadsRest.bind (leadsOn_pure _ _))

theorem statement_apply (expr : Precedence → Reader Expr) (cursor : Cursor) :
    statement expr cursor =
      if cursor.current.kind = .letWord then define expr cursor
      else if cursor.current.kind = .returnWord then returning expr cursor
      else exprStatement expr cursor := by
  simp only [statement, Run.bind_apply, current]
  cases cursor.current.kind <;> rfl

theorem leads_exprStatement {expr : Precedence → Reader Expr} {token : Token}
    {list rest : List Token} {value : Stmt} (begins : token.kind.leading?.isSome)
    (leads : Leads (exprStatement expr) (token :: list) value rest) :
    Leads (statement expr) (token :: list) value rest := by
  obtain ⟨_, _, ⟨⟩, runs⟩ := leads
  refine ⟨_, _, rfl, fun recorded => ?_⟩
  obtain ⟨last, ran⟩ := runs recorded
  refine ⟨last, ?_⟩
  rw [statement_apply, if_neg, if_neg, ran]
  · intro isReturn
    rw [isReturn] at begins
    cases begins
  · intro isLet
    rw [isLet] at begins
    cases begins

/-! ## Operators -/

abbrev loop (depth : Nat) (minimum : Precedence) (rounds : Nat) (left : Expr) : Reader Expr :=
  operators .standard (expression .standard depth) (depth + 1) minimum rounds left

/-- The loop comes from `left` before `list` to `whole` before `rest`, with rounds to spare. -/
def Continues (depth : Nat) (minimum : Precedence) (left : Expr) (list : List Token)
    (whole : Expr) (rest : List Token) : Prop :=
  ∀ token recorded rounds, list.length < rounds → ∃ last more, rest.length < more ∧
    loop depth minimum rounds left ⟨token, list, recorded⟩ =
      loop depth minimum more whole ⟨last, rest, recorded⟩

def Begins (depth : Nat) (minimum : Precedence) (list : List Token) (whole : Expr)
    (rest : List Token) : Prop :=
  ∃ token ahead, list = token :: ahead ∧ ∀ recorded, ∃ last more, rest.length < more ∧
    expression .standard (depth + 1) minimum ⟨token, ahead, recorded⟩ =
      loop depth minimum more whole ⟨last, rest, recorded⟩

section Operators

variable {depth : Nat} {minimum : Precedence} {list middle rest : List Token}
  {left first whole : Expr}

theorem Continues.refl : Continues depth minimum left rest left rest :=
  fun token _ rounds enough => ⟨token, rounds, enough, rfl⟩

theorem Continues.trans (start : Continues depth minimum left list first middle)
    (more : Continues depth minimum first middle whole rest) :
    Continues depth minimum left list whole rest := by
  intro token recorded rounds enough
  obtain ⟨last, others, enough, ran⟩ := start token recorded rounds enough
  obtain ⟨final, spare, enough, ranMore⟩ := more last recorded others enough
  exact ⟨final, spare, enough, ran.trans ranMore⟩

theorem Begins.continue (begins : Begins depth minimum list first middle)
    (more : Continues depth minimum first middle whole rest) :
    Begins depth minimum list whole rest := by
  obtain ⟨token, ahead, here, runs⟩ := begins
  refine ⟨token, ahead, here, fun recorded => ?_⟩
  obtain ⟨last, others, enough, ran⟩ := runs recorded
  obtain ⟨final, spare, enough, ranMore⟩ := more last recorded others enough
  exact ⟨final, spare, enough, ran.trans ranMore⟩

theorem Leads.begins
    (leads : Leads (operand .standard (expression .standard depth) (depth + 1)) list first rest)
    (shorter : rest.length ≤ depth) (minimum : Precedence) :
    Begins depth minimum list first rest := by
  obtain ⟨token, ahead, here, runs⟩ := leads
  refine ⟨token, ahead, here, fun recorded => ?_⟩
  obtain ⟨last, ran⟩ := runs recorded
  refine ⟨last, depth + 1, by omega, ?_⟩
  rw [expression, Run.bind_apply, ran]

theorem trailingRule_operator {tier : Tier} {kind : Kind} {op : BinaryOp}
    (found : tier.operator? kind = some op) (left : Expr) :
    trailingRule .standard left kind = some (.inr (.binary op)) := by
  cases tier <;> cases kind <;> cases found <;> rfl

theorem trailingRule_index {kind : Kind} (found : kind = .leftBracket) (left : Expr) :
    trailingRule .standard left kind = some (.inr .index) := by
  rw [found]
  rfl

theorem trailingRule_call {kind : Kind} (found : kind = .leftParen)
    (callable : left.isCallable = true) :
    trailingRule .standard left kind = some (.inr .call) := by
  rw [found, trailingRule, callable]
  rfl

/-- A round of the loop takes in an operator that binds tightly enough. -/
theorem LeadsOn.continues {next : Token} {form : Trailing}
    (rule : trailingRule .standard left next.kind = some (.inr form))
    (binds : minimum.rank < next.kind.precedence.rank)
    (leads : LeadsOn (trailingForm (expression .standard depth) (depth + 1) left next form) list
      whole rest)
    (shorter : rest.length ≤ list.length) :
    Continues depth minimum left (next :: list) whole rest := by
  intro token recorded rounds enough
  obtain ⟨last, ran⟩ := leads next recorded
  cases rounds with
  | zero => omega
  | succ rounds =>
      refine ⟨last, rounds, by simp only [List.length_cons] at enough; omega, ?_⟩
      simp [loop, operators, Run.bind_apply, peek, binds, rule, advance, Cursor.moveTo, extend, ran]

theorem continues_operator {tier : Tier} {op : BinaryOp} {token : Token} {right : Expr}
    (goesOn : tier.operator? token.kind = some op) (low : minimum.rank < tier.rank)
    (leads : Leads (expression .standard depth token.kind.precedence) list right rest)
    (shorter : rest.length ≤ list.length) :
    Continues depth minimum left (token :: list) (.binary op left right) rest := by
  refine LeadsOn.continues (trailingRule_operator goesOn left) ?_ ?_ shorter
  · rw [Tier.rank_of_operator goesOn]
    exact low
  · exact Leads.afterAdvance (leads.bind (leadsOn_pure _ _))

theorem continues_index {opening closing : Token} {index : Expr}
    (opens : opening.kind = .leftBracket) (low : minimum.rank < Tier.unary.rank)
    (leads : Leads (expression .standard depth .lowest) list index (closing :: rest))
    (closes : closing.kind = .rightBracket) (shorter : rest.length ≤ list.length) :
    Continues depth minimum left (opening :: list) (.index left index) rest := by
  refine LeadsOn.continues (trailingRule_index opens left) ?_ ?_ shorter
  · rw [opens]
    exact low.trans (by decide)
  · exact Leads.afterAdvance (leads.bind ((leadsOn_expect closes _).bind (leadsOn_pure _ _)))

theorem continues_call {opening : Token} {arguments : List Expr}
    (opens : opening.kind = .leftParen) (callable : left.isCallable = true)
    (low : minimum.rank < Tier.unary.rank)
    (leads : LeadsOn (items .rightParen (expression .standard depth .lowest) (depth + 1)) list
      arguments rest)
    (shorter : rest.length ≤ list.length) :
    Continues depth minimum left (opening :: list) (.call left arguments) rest := by
  refine LeadsOn.continues (trailingRule_call opens callable) ?_ ?_ shorter
  · rw [opens]
    exact low
  · exact leads.bind (leadsOn_pure _ _)

/-- The loop is over when the next token does not go on with the expression. -/
theorem Begins.leads (begins : Begins depth minimum list whole rest)
    (stops : Phrase.Stops minimum whole rest) :
    Leads (expression .standard (depth + 1) minimum) list whole rest := by
  obtain ⟨token, ahead, here, runs⟩ := begins
  refine ⟨token, ahead, here, fun recorded => ?_⟩
  obtain ⟨last, more, enough, ran⟩ := runs recorded
  refine ⟨last, ran.trans ?_⟩
  obtain ⟨next, tail, rfl, halts⟩ := stops
  cases more with
  | zero => omega
  | succ more =>
      rcases halts with low | ⟨paren, uncallable⟩
      · simp [loop, operators, Run.bind_apply, peek, Nat.not_lt.mpr low]
      · simp [loop, operators, Run.bind_apply, peek, paren, trailingRule, uncallable]

end Operators

end Reader

/-! ## Phrases -/

open Reader

def Item.reader (expr : Precedence → Reader Expr) : (what : Item) → Reader what.Tree
  | .parameter => Reader.parameter
  | .element => expr .lowest
  | .pair => Reader.pair expr

namespace Phrase

def Read : (phrase : Phrase) → List Token → phrase.Tree → List Token → Prop
  | .statements close, list, tree, rest =>
    ∀ depth rounds closing tail, list.length ≤ depth → list.length ≤ rounds →
      rest = closing :: tail →
        (close = .endOfInput →
          Leads (programRest (Reader.statement (expression .standard depth)) rounds) list tree
            tail) ∧
        (close = .rightBrace →
          Leads (blockRest (Reader.statement (expression .standard depth)) rounds) list tree tail)
  | .statement, list, tree, rest =>
    ∀ depth, list.length ≤ depth →
      Leads (Reader.statement (expression .standard depth)) list tree rest
  | .block, list, tree, rest =>
    ∀ depth rounds, list.length ≤ depth → list.length ≤ rounds →
      Leads (Reader.block (expression .standard depth) rounds) list tree rest
  | .tier level, list, tree, rest =>
    ∀ depth (minimum : Precedence), list.length ≤ depth + 1 → minimum.rank < level.rank →
      Begins depth minimum list tree rest
  | .tierRest level left, list, tree, rest =>
    ∀ depth (minimum : Precedence), list.length ≤ depth → minimum.rank < level.rank →
      Continues depth minimum left list tree rest
  | .operand, list, tree, rest =>
    ∀ depth (minimum : Precedence), list.length ≤ depth + 1 → minimum.rank < Tier.unary.rank →
      Begins depth minimum list tree rest
  | .operandRest left, list, tree, rest =>
    ∀ depth (minimum : Precedence), list.length ≤ depth → minimum.rank < Tier.unary.rank →
      Continues depth minimum left list tree rest
  | .atom, list, tree, rest =>
    ∀ depth, list.length ≤ depth + 1 →
      Leads (Reader.operand .standard (expression .standard depth) (depth + 1)) list tree rest
  | .item what, list, tree, rest =>
    ∀ depth, list.length ≤ depth →
      Leads (what.reader (expression .standard depth)) list tree rest
  | .items what close, list, tree, rest =>
    ∀ depth rounds, list.length ≤ depth → list.length ≤ rounds →
      LeadsOn (Reader.items close (what.reader (expression .standard depth)) rounds) list tree rest
  | .itemsRest what close, list, tree, rest =>
    ∀ depth rounds, list.length ≤ depth → list.length ≤ rounds →
      ∃ closing, closing.kind = close ∧
        LeadsOn (Reader.itemsRest (what.reader (expression .standard depth)) rounds) list tree
          (closing :: rest)

/-- Where a whole expression of a tier is asked for, it is read to its end. -/
theorem Derives.leads {level : Tier} {list rest : List Token} {tree : Expr}
    (derivation : Derives (.tier level) list tree rest) (read : Read (.tier level) list tree rest)
    {minimum : Precedence} (place : minimum.tier? = some level) {depth : Nat}
    (enough : list.length ≤ depth) :
    Leads (expression .standard depth minimum) list tree rest := by
  have nonempty := derivation.length_le
  simp only [least] at nonempty
  cases depth with
  | zero => omega
  | succ depth =>
      exact (read depth minimum enough (Precedence.rank_lt_of_tier place)).leads
        (derivation.stops.mono (Precedence.floor_le_of_tier place))

theorem Derives.leadsExpr {list rest : List Token} {tree : Expr}
    (derivation : Derives .expr list tree rest) (read : Read .expr list tree rest) {depth : Nat}
    (enough : list.length ≤ depth) :
    Leads (expression .standard depth .lowest) list tree rest :=
  derivation.leads read rfl enough

theorem Derives.opening {list rest : List Token} {body : List Stmt}
    (derivation : Derives .block list body rest) :
    ∃ token tail, list = token :: tail ∧ token.kind = .leftBrace := by
  cases derivation with
  | block opens _ _ => exact ⟨_, _, rfl, opens⟩

theorem leads_operand {depth : Nat} {token : Token} {form : Leading} {list rest : List Token}
    {tree : Expr} (begins : token.kind.leading? = some form)
    (leads : LeadsOn (leadingForm (expression .standard depth) (depth + 1) token form) list tree
      rest) :
    Leads (Reader.operand .standard (expression .standard depth) (depth + 1)) (token :: list) tree
      rest := by
  refine ⟨token, list, rfl, fun recorded => ?_⟩
  obtain ⟨last, ran⟩ := leads token recorded
  refine ⟨last, ?_⟩
  rw [← ran]
  simp only [Reader.operand, Run.bind_apply, current, Handlers.standard, begins]

theorem leads_define {depth : Nat} {word name sign : Token} {list middle rest : List Token}
    {value : Expr} (isLet : word.kind = .letWord) (isName : name.kind = .name)
    (isSign : sign.kind = .assign)
    (leads : Leads (expression .standard depth .lowest) list value middle)
    (ending : Ending middle rest) :
    Leads (Reader.statement (expression .standard depth)) (word :: name :: sign :: list)
      (.define name.literal value) rest := by
  have define : LeadsOn (Reader.define (expression .standard depth)) (name :: sign :: list)
      (.define name.literal value) rest := by
    refine LeadsOn.expectedToken isName ((leadsOn_expect isSign _).bind ?_)
    refine Leads.afterAdvance (leads.bind ((leadsOn_endStatement ending).bind ?_))
    exact leadsOn_pure _ _
  refine ⟨word, _, rfl, fun recorded => ?_⟩
  obtain ⟨last, ran⟩ := define word recorded
  exact ⟨last, by rw [statement_apply, if_pos isLet, ran]⟩

theorem leads_returning {depth : Nat} {word : Token} {list middle rest : List Token}
    {value : Expr} (isReturn : word.kind = .returnWord)
    (leads : Leads (expression .standard depth .lowest) list value middle)
    (ending : Ending middle rest) :
    Leads (Reader.statement (expression .standard depth)) (word :: list) (.returning value)
      rest := by
  have returning : LeadsOn (Reader.returning (expression .standard depth)) list
      (.returning value) rest :=
    Leads.afterAdvance (leads.bind ((leadsOn_endStatement ending).bind (leadsOn_pure _ _)))
  refine ⟨word, _, rfl, fun recorded => ?_⟩
  obtain ⟨last, ran⟩ := returning word recorded
  refine ⟨last, ?_⟩
  rw [statement_apply, if_neg (by simp [isReturn]), if_pos isReturn, ran]

theorem leads_conditional {depth : Nat} {word next : Token} {list middle rest : List Token}
    {condition : Expr} {consequence : List Stmt} (isIf : word.kind = .ifWord)
    (leads : Leads (expression .standard depth .lowest) list condition middle)
    (derivation : Derives .block middle consequence (next :: rest))
    (leadsBlock : Leads (Reader.block (expression .standard depth) (depth + 1)) middle
      consequence (next :: rest))
    (noElse : next.kind ≠ .elseWord) :
    Leads (Reader.operand .standard (expression .standard depth) (depth + 1)) (word :: list)
      (.conditional condition consequence none) (next :: rest) := by
  obtain ⟨_, _, rfl, opens⟩ := derivation.opening
  refine leads_operand (by rw [isIf]; rfl) ?_
  refine Leads.afterAdvance (leads.bind ?_)
  refine Leads.afterExpect (leadsBlock.bind ?_) opens
  exact LeadsOn.absent noElse (leadsOn_pure _ _)

theorem leads_alternative {depth : Nat} {word next : Token} {list middle after rest : List Token}
    {condition : Expr} {consequence alternative : List Stmt} (isIf : word.kind = .ifWord)
    (leads : Leads (expression .standard depth .lowest) list condition middle)
    (derivation : Derives .block middle consequence (next :: after))
    (leadsBlock : Leads (Reader.block (expression .standard depth) (depth + 1)) middle
      consequence (next :: after))
    (isElse : next.kind = .elseWord) (other : Derives .block after alternative rest)
    (leadsOther : Leads (Reader.block (expression .standard depth) (depth + 1)) after
      alternative rest) :
    Leads (Reader.operand .standard (expression .standard depth) (depth + 1)) (word :: list)
      (.conditional condition consequence (some alternative)) rest := by
  obtain ⟨_, _, rfl, opens⟩ := derivation.opening
  obtain ⟨_, _, rfl, opensOther⟩ := other.opening
  refine leads_operand (by rw [isIf]; rfl) ?_
  refine Leads.afterAdvance (leads.bind ?_)
  refine Leads.afterExpect (leadsBlock.bind ?_) opens
  refine LeadsOn.found isElse ((leadsOn_advance _ _).bind ?_)
  exact Leads.afterExpect (leadsOther.bind (leadsOn_pure _ _)) opensOther

theorem leads_function {depth : Nat} {word opening : Token} {list middle rest : List Token}
    {parameters : List String} {body : List Stmt} (isFunction : word.kind = .functionWord)
    (opens : opening.kind = .leftParen)
    (leads : LeadsOn (Reader.items .rightParen Reader.parameter (depth + 1)) list parameters
      middle)
    (derivation : Derives .block middle body rest)
    (leadsBlock : Leads (Reader.block (expression .standard depth) (depth + 1)) middle body
      rest) :
    Leads (Reader.operand .standard (expression .standard depth) (depth + 1))
      (word :: opening :: list) (.function parameters body) rest := by
  obtain ⟨_, _, rfl, opensBody⟩ := derivation.opening
  refine leads_operand (by rw [isFunction]; rfl) ?_
  refine (leadsOn_expect opens _).bind (leads.bind ?_)
  exact Leads.afterExpect (leadsBlock.bind (leadsOn_pure _ _)) opensBody

theorem read_statementsEnd {close : Kind} {token : Token} (closes : token.kind = close)
    (rest : List Token) : Read (.statements close) (token :: rest) [] (token :: rest) := by
  rintro depth rounds _ _ enough enoughRounds ⟨⟩
  cases rounds with
  | zero => simp at enoughRounds
  | succ rounds =>
      refine ⟨?_, ?_⟩
      · rintro rfl
        exact leads_programRest_nil closes rest
      · rintro rfl
        exact leads_blockRest_nil closes rest

theorem read_statementsMore {close : Kind} {token : Token} {list middle rest : List Token}
    {first : Stmt} {others : List Stmt} (goesOn : token.kind ≠ close)
    (statement : Derives .statement (token :: list) first middle)
    (readFirst : Read .statement (token :: list) first middle)
    (readOthers : Read (.statements close) middle others rest) :
    Read (.statements close) (token :: list) (first :: others) rest := by
  intro depth rounds closing tail enough enoughRounds here
  have shorter := statement.length_le
  obtain ⟨_, _, ⟨⟩, inside, _⟩ := statement.statement_opens
  simp only [least, List.length_cons] at shorter enough enoughRounds
  cases rounds with
  | zero => omega
  | succ rounds =>
      obtain ⟨program, block⟩ := readOthers depth rounds closing tail (by omega) (by omega) here
      refine ⟨?_, ?_⟩
      · rintro rfl
        exact leads_programRest_cons inside (readFirst depth enough) (program rfl)
      · rintro rfl
        exact leads_blockRest_cons goesOn inside (readFirst depth enough) (block rfl)

theorem read_tierMore {tier : Tier} {op : BinaryOp} {left right whole : Expr} {token : Token}
    {list middle rest : List Token} (goesOn : tier.operator? token.kind = some op)
    (operand : Derives (.tier tier.tighter) list right middle)
    (readOperand : Read (.tier tier.tighter) list right middle)
    (readMore : Read (.tierRest tier (.binary op left right)) middle whole rest) :
    Read (.tierRest tier left) (token :: list) whole rest := by
  intro depth minimum enough low
  have shorter := operand.length_le
  simp only [least, List.length_cons] at shorter enough
  have place : token.kind.precedence.tier? = some tier.tighter := by
    rw [Tier.precedence_of_operator goesOn, Tier.tier?_floor]
  have leads := operand.leads readOperand place (by omega : list.length ≤ depth)
  exact (continues_operator goesOn low leads (by omega)).trans
    (readMore depth minimum (by omega) low)

theorem read_unary {op : UnaryOp} {operand : Expr} {token : Token} {list rest : List Token}
    (sign : unaryOperator? token.kind = some op)
    (derivation : Derives (.tier .unary) list operand rest)
    (read : Read (.tier .unary) list operand rest) :
    Read (.tier .unary) (token :: list) (.unary op operand) rest := by
  intro depth minimum enough low
  have shorter := derivation.length_le
  simp only [least, List.length_cons] at shorter enough
  have leads : Leads (expression .standard depth .unary) list operand rest :=
    derivation.leads read rfl (by omega)
  refine Leads.begins ?_ (by omega) minimum
  refine leads_operand (unaryOperator?_leading sign) ?_
  exact Leads.afterAdvance (leads.bind (leadsOn_pure _ _))

theorem read_index {left index whole : Expr} {opening closing : Token}
    {list middle rest : List Token} (opens : opening.kind = .leftBracket)
    (derivation : Derives .expr list index (closing :: middle))
    (closes : closing.kind = .rightBracket) (read : Read .expr list index (closing :: middle))
    (readMore : Read (.operandRest (.index left index)) middle whole rest) :
    Read (.operandRest left) (opening :: list) whole rest := by
  intro depth minimum enough low
  have shorter := derivation.length_le
  simp only [least, List.length_cons] at shorter enough
  have leads := derivation.leadsExpr read (by omega : list.length ≤ depth)
  exact (continues_index opens low leads closes (by omega)).trans
    (readMore depth minimum (by omega) low)

theorem read_call {left whole : Expr} {arguments : List Expr} {opening : Token}
    {list middle rest : List Token} (opens : opening.kind = .leftParen)
    (callable : left.isCallable = true)
    (items : Derives (.items .element .rightParen) list arguments middle)
    (readItems : Read (.items .element .rightParen) list arguments middle)
    (readMore : Read (.operandRest (.call left arguments)) middle whole rest) :
    Read (.operandRest left) (opening :: list) whole rest := by
  intro depth minimum enough low
  have shorter := items.length_le
  simp only [least, List.length_cons] at shorter enough
  have leads := readItems depth (depth + 1) (by omega) (by omega)
  exact (continues_call opens callable low leads (by omega)).trans
    (readMore depth minimum (by omega) low)

theorem read_itemsSome {what : Item} {close : Kind} {token : Token} {list middle rest : List Token}
    {first : what.Tree} {others : List what.Tree} (goesOn : token.kind ≠ close)
    (derivation : Derives (.item what) (token :: list) first middle)
    (readFirst : Read (.item what) (token :: list) first middle)
    (readOthers : Read (.itemsRest what close) middle others rest) :
    Read (.items what close) (token :: list) (first :: others) rest := by
  intro depth rounds enough enoughRounds
  have shorter := derivation.length_le
  simp only [least] at shorter
  obtain ⟨closing, closes, others⟩ := readOthers depth rounds (by omega) (by omega)
  refine LeadsOn.absent goesOn (Leads.afterAdvance ((readFirst depth enough).bind ?_))
  exact others.bind ((leadsOn_expect closes _).bind (leadsOn_pure _ _))

theorem read_itemsMore {what : Item} {close : Kind} {comma : Token} {list middle rest : List Token}
    {next : what.Tree} {others : List what.Tree} (goesOn : comma.kind = .comma)
    (derivation : Derives (.item what) list next middle)
    (readNext : Read (.item what) list next middle)
    (readOthers : Read (.itemsRest what close) middle others rest) :
    Read (.itemsRest what close) (comma :: list) (next :: others) rest := by
  intro depth rounds enough enoughRounds
  have shorter := derivation.length_le
  simp only [least, List.length_cons] at shorter enough enoughRounds
  cases rounds with
  | zero => omega
  | succ rounds =>
      obtain ⟨closing, closes, others⟩ := readOthers depth rounds (by omega) (by omega)
      exact ⟨closing, closes, leadsOn_itemsRest_cons goesOn (readNext depth (by omega)) others⟩

/-- Every phrase is read as its derivation says. -/
theorem Derives.read {phrase : Phrase} {list rest : List Token} {tree : phrase.Tree}
    (derivation : Derives phrase list tree rest) : phrase.Read list tree rest := by
  induction derivation with
  | statementsEnd closes => exact read_statementsEnd closes _
  | statementsMore goesOn statement _ ih ihMore =>
      exact read_statementsMore goesOn statement ih ihMore
  | define isLet isName isSign derivation ending ih =>
      intro depth enough
      simp only [List.length_cons] at enough
      exact leads_define isLet isName isSign (derivation.leadsExpr ih (by omega)) ending
  | returning isReturn derivation ending ih =>
      intro depth enough
      simp only [List.length_cons] at enough
      exact leads_returning isReturn (derivation.leadsExpr ih (by omega)) ending
  | exprStatement derivation semicolon ih =>
      intro depth enough
      obtain ⟨token, tail, rfl, begins⟩ := derivation.opens
      refine leads_exprStatement begins ?_
      exact (derivation.leadsExpr ih enough).bind (leadsOn_semicolon semicolon _)
  | block opens statements closes ih =>
      intro depth rounds enough enoughRounds
      simp only [List.length_cons] at enough enoughRounds
      obtain ⟨-, block⟩ := ih depth rounds _ _ (by omega) (by omega) rfl
      exact (block rfl).afterAdvance.leads _
  | @tier tier list middle rest first whole binary operand more ihOperand ihMore =>
      intro depth minimum enough low
      have shorter := operand.length_le
      simp only [least] at shorter
      have begins := ihOperand depth minimum enough (low.trans_le tier.rank_le_tighter)
      exact begins.continue (ihMore depth minimum (by omega) low)
  | tierEnd _ =>
      intro depth minimum enough low
      exact Continues.refl
  | tierMore goesOn operand _ ih ihMore => exact read_tierMore goesOn operand ih ihMore
  | unary sign derivation ih => exact read_unary sign derivation ih
  | single _ ih =>
      intro depth minimum enough low
      exact ih depth minimum enough low
  | operand atom more ihAtom ihMore =>
      intro depth minimum enough low
      have shorter := atom.length_le
      simp only [least] at shorter
      have begins := (ihAtom depth enough).begins (by omega) minimum
      exact begins.continue (ihMore depth minimum (by omega) low)
  | operandEnd _ _ =>
      intro depth minimum enough low
      exact Continues.refl
  | index opens derivation closes _ ih ihMore =>
      exact read_index opens derivation closes ih ihMore
  | call opens callable items _ ih ihMore =>
      exact read_call opens callable items ih ihMore
  | name begins | string begins | trueWord begins | falseWord begins =>
      intro depth enough
      exact leads_operand (by rw [begins]; rfl) (leadsOn_pure _ _)
  | integer begins small =>
      intro depth enough
      refine leads_operand (by rw [begins]; rfl) fun before recorded => ⟨before, ?_⟩
      simp only [leadingForm, integerOf, integerBound, small, if_true]
      rfl
  | group begins derivation closes ih =>
      intro depth enough
      simp only [List.length_cons] at enough
      refine leads_operand (by rw [begins]; rfl) ?_
      exact Leads.afterAdvance ((derivation.leadsExpr ih (by omega)).bind
        ((leadsOn_expect closes _).bind (leadsOn_pure _ _)))
  | array begins items ih | hash begins items ih =>
      intro depth enough
      simp only [List.length_cons] at enough
      refine leads_operand (by rw [begins]; rfl) ?_
      exact (ih depth (depth + 1) (by omega) (by omega)).bind (leadsOn_pure _ _)
  | conditional isIf derivation block noElse ih ihBlock =>
      intro depth enough
      have shorter := derivation.length_le
      simp only [least, List.length_cons] at shorter enough
      exact leads_conditional isIf (derivation.leadsExpr ih (by omega)) block
        (ihBlock depth (depth + 1) (by omega) (by omega)) noElse
  | alternative isIf derivation block isElse other ih ihBlock ihOther =>
      intro depth enough
      have shorter := derivation.length_le
      have shorterBlock := block.length_le
      simp only [least, List.length_cons] at shorter shorterBlock enough
      exact leads_alternative isIf (derivation.leadsExpr ih (by omega)) block
        (ihBlock depth (depth + 1) (by omega) (by omega)) isElse other
        (ihOther depth (depth + 1) (by omega) (by omega))
  | function isFunction opens items block ihItems ihBlock =>
      intro depth enough
      have shorter := items.length_le
      simp only [least, List.length_cons] at shorter enough
      exact leads_function isFunction opens (ihItems depth (depth + 1) (by omega) (by omega))
        block (ihBlock depth (depth + 1) (by omega) (by omega))
  | @parameter token rest isName =>
      intro depth enough
      refine ⟨token, rest, rfl, fun recorded => ⟨token, ?_⟩⟩
      simp [Item.reader, Reader.parameter, Run.bind_apply, current, isName]
  | element derivation ih =>
      intro depth enough
      exact derivation.leadsExpr ih enough
  | pair key isColon value ihKey ihValue =>
      intro depth enough
      have shorter := key.length_le
      simp only [least, List.length_cons] at shorter
      refine (key.leadsExpr ihKey enough).bind ((leadsOn_expect isColon _).bind ?_)
      exact Leads.afterAdvance ((value.leadsExpr ihValue (by omega)).bind (leadsOn_pure _ _))
  | itemsNone closes =>
      intro depth rounds enough enoughRounds
      exact LeadsOn.found closes ((leadsOn_advance _ _).bind (leadsOn_pure _ _))
  | itemsSome goesOn derivation _ ih ihMore => exact read_itemsSome goesOn derivation ih ihMore
  | @itemsEnd what close token rest closes noComma =>
      intro depth rounds enough enoughRounds
      refine ⟨token, closes, ?_⟩
      cases rounds with
      | zero => simp at enoughRounds
      | succ rounds => exact LeadsOn.absent noComma (leadsOn_pure _ _)
  | itemsMore goesOn derivation _ ih ihMore => exact read_itemsMore goesOn derivation ih ihMore

end Phrase

theorem Program.Derived.readTokens {program : Program} {list : List Token}
    (derived : program.Derived list) :
    ∃ last, Scriptlet.readTokens .standard list = .ok program ⟨last, [], []⟩ := by
  obtain ⟨ending, derivation⟩ := derived
  obtain ⟨leads, -⟩ := derivation.read list.length list.length ending [] le_rfl le_rfl rfl
  obtain ⟨token, ahead, rfl, runs⟩ := leads rfl
  obtain ⟨last, ran⟩ := runs []
  refine ⟨last, ?_⟩
  simp only [Scriptlet.readTokens, Run.exec, Reader.program, Run.bind_apply, Cursor.start, ran,
    Run.pure_apply]

theorem parse_of_derived {source : String} {program : Program}
    (derived : program.Derived (tokens source)) : parse source = .ok program := by
  obtain ⟨last, ran⟩ := derived.readTokens
  simp [parse, read, readWith, ran, Reading.ofOutcome, Reading.result]

end Scriptlet
