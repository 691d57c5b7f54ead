import Scriptlet.Proofs.Reader.Concatenation
import Scriptlet.Proofs.Reader.Earliest

/-!
# What diagnostics say

A diagnostic says something about the token it points at, and what it says is the case
(`Diagnostic.Describes`). The diagnostics of a reading stand in the order of these tokens, although
a reader may complain about the token ahead and then be left standing before it.

What makes the order work is the place up to which there have been complaints. A reader that begins
a phrase has complained about nothing behind its current token (`Cursor.Begins`); one that has come
to the end of a phrase may have complained about the token ahead as well (`Cursor.Rests`), but from
there it looks only forward. `Opening` and `Following` say of a reader that it keeps the account in
order from places of the one kind and of the other.
-/
set_option autoImplicit false

namespace Scriptlet

open Token (Kind)

namespace Diagnostic

/-- The diagnostic points at the token, and what it says about it is the case. An integer is bad if
it is larger than 2 to the power of 63, less one. -/
def Describes (token : Token) : Diagnostic → Prop
  | .unexpected expected got position =>
    position = token.start ∧ got = token.kind ∧ expected ≠ got
  | .noExpression kind position =>
    position = token.start ∧ kind = token.kind ∧ kind ≠ .illegal ∧ kind.leading? = none
  | .illegal literal position =>
    position = token.start ∧ token.kind = .illegal ∧ literal = token.literal
  | .badInteger literal position =>
    position = token.start ∧ token.kind = .integer ∧ literal = token.literal ∧
      9223372036854775807 < Text.digitsValue literal

variable {token : Token}

theorem Describes.position_eq {diagnostic : Diagnostic} (describes : diagnostic.Describes token) :
    diagnostic.position = token.start := by
  cases diagnostic <;> exact describes.1

theorem describes_unexpectedToken {expected : Kind} (other : token.kind ≠ expected) :
    (unexpectedToken expected token).Describes token :=
  ⟨rfl, rfl, other.symm⟩

theorem describes_notLeading (unknown : token.kind.leading? = none) :
    (notLeading token).Describes token := by
  unfold notLeading
  split
  · rename_i isIllegal
    exact ⟨rfl, isIllegal, rfl⟩
  · rename_i legal
    exact ⟨rfl, rfl, legal, unknown⟩

theorem describes_badInteger (isInteger : token.kind = .integer)
    (large : ¬Text.digitsValue token.literal < Reader.integerBound) :
    (badInteger token.literal token.start).Describes token := by
  refine ⟨rfl, isInteger, rfl, ?_⟩
  unfold Reader.integerBound at large
  omega

end Diagnostic

/-! ## The account of a cursor -/

/-- The cursor stands among the tokens of the text. What it has recorded describes tokens of the
text, in their order, and none that begins behind the limit. -/
structure Cursor.Accounts (source : String) (limit : Nat) (cursor : Cursor) : Prop where
  tokens : cursor.tokens <:+ Scriptlet.tokens source
  describes : ∀ diagnostic ∈ cursor.recorded,
    ∃ token ∈ Scriptlet.tokens source, diagnostic.Describes token
  ordered : cursor.recorded.Pairwise fun earlier later => earlier.position ≤ later.position
  reached : ∀ diagnostic ∈ cursor.recorded, diagnostic.position ≤ limit

namespace Cursor

variable {source : String} {limit further : Nat} {cursor later : Cursor} {diagnostic : Diagnostic}

/-- A phrase may begin here: nothing was said about tokens behind the current one. -/
def Begins (source : String) (cursor : Cursor) : Prop :=
  cursor.Accounts source cursor.current.start

/-- A phrase may end here: nothing was said about tokens behind the one ahead. -/
def Rests (source : String) (cursor : Cursor) : Prop :=
  cursor.Accounts source cursor.step.current.start

theorem Accounts.ended (accounts : cursor.Accounts source limit) : Ended cursor.tokens :=
  (ended_tokens source).of_suffix accounts.tokens (by simp [Cursor.tokens])

theorem Accounts.mono (accounts : cursor.Accounts source limit) (le : limit ≤ further) :
    cursor.Accounts source further :=
  ⟨accounts.tokens, accounts.describes, accounts.ordered, fun diagnostic member =>
    (accounts.reached diagnostic member).trans le⟩

theorem Accounts.onward (accounts : cursor.Accounts source limit)
    (suffix : later.tokens <:+ cursor.tokens) (same : later.recorded = cursor.recorded) :
    later.Accounts source limit := by
  refine ⟨suffix.trans accounts.tokens, ?_, ?_, ?_⟩ <;> rw [same]
  · exact accounts.describes
  · exact accounts.ordered
  · exact accounts.reached

/-- Another diagnostic, about a token up to which there have been complaints at most. -/
theorem Accounts.noted {token : Token} (accounts : cursor.Accounts source token.start)
    (member : token ∈ Scriptlet.tokens source) (describes : diagnostic.Describes token) :
    (cursor.noted diagnostic).Accounts source token.start := by
  have position := describes.position_eq
  refine ⟨accounts.tokens, ?_, ?_, ?_⟩
  · intro other isIn
    rcases List.mem_append.mp isIn with old | new
    · exact accounts.describes other old
    · rw [List.mem_singleton.mp new]
      exact ⟨token, member, describes⟩
  · refine List.pairwise_append.mpr ⟨accounts.ordered, List.pairwise_singleton _ _, ?_⟩
    intro earlier old other new
    rw [List.mem_singleton.mp new, position]
    exact accounts.reached earlier old
  · intro other isIn
    rcases List.mem_append.mp isIn with old | new
    · exact accounts.reached other old
    · rw [List.mem_singleton.mp new, position]

theorem start_le_of_suffix (suffix : later.tokens <:+ cursor.tokens)
    (among : cursor.tokens <:+ Scriptlet.tokens source) :
    cursor.current.start ≤ later.current.start := by
  have increasing := (increasing_tokens source).sublist among.sublist
  have member : later.current ∈ cursor.tokens := suffix.subset (List.mem_cons_self ..)
  rcases List.mem_cons.mp member with same | ahead
  · rw [same]
  · exact ((List.pairwise_cons.mp increasing).1 _ ahead).le

theorem Accounts.current_mem (accounts : cursor.Accounts source limit) :
    cursor.current ∈ Scriptlet.tokens source :=
  accounts.tokens.subset (List.mem_cons_self ..)

theorem Begins.rests (begins : cursor.Begins source) : cursor.Rests source :=
  begins.mono (start_le_of_suffix cursor.onward_step.tokens begins.tokens)

theorem Rests.step (rests : cursor.Rests source) : cursor.step.Begins source :=
  Accounts.onward rests cursor.onward_step.tokens (by simp)

/-- From the token ahead on, a phrase may begin anywhere. -/
theorem Rests.begins (rests : cursor.Rests source) (suffix : later.tokens <:+ cursor.step.tokens)
    (same : later.recorded = cursor.recorded) : later.Begins source := by
  have further := Accounts.onward rests.step suffix (same.trans cursor.step_recorded.symm)
  exact further.mono (start_le_of_suffix suffix rests.step.tokens)

/-- A phrase may also end wherever one is passed over. -/
theorem Rests.onward (rests : cursor.Rests source) (suffix : later.tokens <:+ cursor.tokens)
    (same : later.recorded = cursor.recorded) : later.Rests source := by
  have moved := step_suffix_step suffix rests.ended
  exact (Accounts.onward rests suffix same).mono (start_le_of_suffix moved rests.step.tokens)

theorem Begins.noted (begins : cursor.Begins source)
    (describes : diagnostic.Describes cursor.current) : (cursor.noted diagnostic).Rests source := by
  have accounts := Accounts.noted begins begins.current_mem describes
  have ahead := (cursor.noted diagnostic).onward_step.tokens
  exact accounts.mono (start_le_of_suffix ahead begins.tokens)

theorem Rests.noted (rests : cursor.Rests source)
    (describes : diagnostic.Describes cursor.step.current) :
    (cursor.noted diagnostic).Rests source := by
  have same : (cursor.noted diagnostic).step.current = cursor.step.current := by
    unfold Cursor.step Cursor.noted
    cases cursor.ahead <;> rfl
  unfold Rests
  rw [same]
  exact Accounts.noted rests rests.step.current_mem describes

end Cursor

/-- A bad statement of a block is left at a token behind the current one, unless the current one is
the brace that closes the block. The end of the input is behind itself. -/
theorem Cursor.leftBlockStatement_cases {cursor : Cursor} (ended : Ended cursor.tokens) :
    cursor.leftBlockStatement.tokens <:+ cursor.step.tokens ∨
      (cursor.current.kind = .rightBrace ∧ cursor.leftBlockStatement = cursor) := by
  obtain ⟨current, ahead, recorded⟩ := cursor
  cases ahead with
  | nil => exact .inl (List.suffix_refl _)
  | cons next ahead =>
      have inside : current.kind ≠ .endOfInput := fun atEnd =>
        absurd (ended.rest_eq_nil_iff.mpr atEnd) (by simp)
      have further (depth : Nat) := skipInBlock_suffix depth next ahead
      unfold leftBlockStatement skipInBlock
      split
      · contradiction
      · exact .inl (List.suffix_refl _)
      · rename_i closing _
        exact .inr ⟨closing, rfl⟩
      · exact .inl (further _)
      · exact .inl (further _)
      · exact .inl (further _)

/-! ## Readers that keep the account -/

def Outcome.Accounts {α : Type} (source : String) : Outcome Cursor Diagnostic α → Prop
  | .ok _ later => later.Rests source
  | .raised diagnostic later => (later.noted diagnostic).Rests source
  | .halted _ => True

namespace Reader

variable {α β : Type} {source : String} {cursor : Cursor}

def Opening (source : String) (run : Reader α) : Prop :=
  ∀ cursor : Cursor, cursor.Begins source → (run cursor).Accounts source

def Following (source : String) (run : Reader α) : Prop :=
  ∀ cursor : Cursor, cursor.Rests source → (run cursor).Accounts source

theorem Following.opening {run : Reader α} (following : Following source run) :
    Opening source run :=
  fun cursor begins => following cursor begins.rests

theorem accounts_bind {run : Reader α} {next : α → Reader β}
    (accounts : (run cursor).Accounts source)
    (accountsNext : ∀ value later, run cursor = .ok value later → later.Rests source →
      (next value later).Accounts source) :
    ((run >>= next) cursor).Accounts source := by
  rw [Run.bind_apply]
  cases outcome : run cursor with
  | ok value later =>
      rw [outcome] at accounts
      exact accountsNext value later outcome accounts
  | raised diagnostic later =>
      rw [outcome] at accounts
      exact accounts
  | halted why => trivial

theorem Opening.bind {run : Reader α} {next : α → Reader β} (opening : Opening source run)
    (following : ∀ value, Following source (next value)) : Opening source (run >>= next) :=
  fun cursor begins =>
    accounts_bind (opening cursor begins) fun value later _ rests => following value later rests

theorem Following.bind {run : Reader α} {next : α → Reader β} (following : Following source run)
    (followingNext : ∀ value, Following source (next value)) : Following source (run >>= next) :=
  fun cursor rests => accounts_bind (following cursor rests) fun value later _ rests =>
    followingNext value later rests

theorem Following.ite {run other : Reader α} {condition : Prop} [Decidable condition]
    (following : Following source run) (followingOther : Following source other) :
    Following source (if condition then run else other) := by
  split
  · exact following
  · exact followingOther

theorem following_pure (value : α) : Following source (pure value) :=
  fun _ rests => rests

theorem following_current : Following source current :=
  fun _ rests => rests

theorem following_peekIs (kind : Kind) : Following source (peekIs kind) := by
  intro cursor rests
  rw [peekIs_eq rests.ended]
  exact rests

theorem following_advance : Following source advance := by
  intro cursor rests
  rw [advance_eq rests.ended]
  exact rests.step.rests

theorem Opening.afterAdvance {run : Reader α} (opening : Opening source run) :
    Following source (advance >>= fun _ => run) := by
  intro cursor rests
  rw [Run.bind_apply, advance_eq rests.ended]
  exact opening cursor.step rests.step

theorem following_expect (kind : Kind) : Following source (expect kind) := by
  intro cursor rests
  rw [expect_eq rests.ended]
  split
  · exact rests.step.rests
  · rename_i other
    exact rests.noted (Diagnostic.describes_unexpectedToken other)

theorem following_endStatement : Following source endStatement := by
  refine Following.bind (fun cursor rests => ?_) fun _ =>
    (following_peekIs .semicolon).bind fun _ => following_advance.ite (following_pure ())
  exact Cursor.Rests.onward rests (skipUntilNext_suffix _ _ _) rfl

theorem opening_parameter : Opening source parameter := by
  intro cursor begins
  simp only [parameter, Run.bind_apply, current]
  split
  · exact begins.rests
  · rename_i other
    exact begins.noted (Diagnostic.describes_unexpectedToken other)

/-! ## Loops -/

theorem following_itemRound {item : Reader α} (opening : Opening source item) :
    Following source (itemRound item) := by
  refine (following_peekIs _).bind fun _ => Following.ite ?_ (following_pure _)
  exact following_advance.bind fun _ => (opening.bind fun _ => following_pure _).afterAdvance

theorem following_itemsRest {item : Reader α} (opening : Opening source item) (rounds : Nat) :
    Following source (itemsRest item rounds) := by
  induction rounds with
  | zero => exact fun _ _ => trivial
  | succ rounds ih =>
      rw [itemsRest_succ]
      refine (following_itemRound opening).bind fun found => ?_
      cases found with
      | none => exact following_pure _
      | some next => exact ih.bind fun _ => following_pure _

theorem following_items {item : Reader α} (opening : Opening source item) (close : Kind)
    (rounds : Nat) : Following source (items close item rounds) := by
  refine (following_peekIs _).bind fun _ => Following.ite ?_ ?_
  · exact following_advance.bind fun _ => following_pure _
  · exact (opening.bind fun _ => (following_itemsRest opening rounds).bind fun _ =>
      (following_expect _).bind fun _ => following_pure _).afterAdvance

def AtStatement (source : String) (cursor : Cursor) : Prop :=
  cursor.Begins source ∨ (cursor.current.kind = .rightBrace ∧ cursor.Rests source)

theorem AtStatement.rests (place : AtStatement source cursor) : cursor.Rests source := by
  rcases place with begins | ⟨_, rests⟩
  · exact begins.rests
  · exact rests

/-- Where a bad statement of a block is left, the loop can go on. -/
theorem atStatement_leftBlockStatement (rests : cursor.Rests source) :
    AtStatement source cursor.leftBlockStatement := by
  rcases Cursor.leftBlockStatement_cases rests.ended with further | ⟨closing, stays⟩
  · exact .inl (rests.begins further rfl)
  · rw [stays]
    exact .inr ⟨closing, rests⟩

theorem blockRound_atStatement {stmt : Reader Stmt} (opening : Opening source stmt)
    (place : AtStatement source cursor) :
    (blockRound stmt cursor).Accounts source ∧
      ∀ found later, blockRound stmt cursor = .ok (some found) later →
        AtStatement source later := by
  by_cases closing : cursor.current.kind = .rightBrace
  · rw [blockRound_closing stmt closing]
    refine ⟨place.rests, ?_⟩
    rintro _ _ ⟨⟩
  have begins : cursor.Begins source := place.resolve_right fun closed => closing closed.1
  by_cases atEnd : cursor.current.kind = .endOfInput
  · rw [blockRound_atEnd stmt atEnd]
    refine ⟨begins.noted (Diagnostic.describes_unexpectedToken closing), ?_⟩
    rintro _ _ ⟨⟩
  have accounts := opening cursor begins
  cases outcome : stmt cursor with
  | ok first middle =>
      rw [outcome] at accounts
      have rests : middle.Rests source := accounts
      rw [blockRound_ok rests.ended closing atEnd outcome]
      refine ⟨rests.step.rests, ?_⟩
      rintro _ _ ⟨⟩
      exact .inl rests.step
  | raised diagnostic middle =>
      rw [outcome] at accounts
      have left := atStatement_leftBlockStatement accounts
      rw [blockRound_raised closing atEnd outcome]
      refine ⟨left.rests, ?_⟩
      rintro _ _ ⟨⟩
      exact left
  | halted why =>
      rw [blockRound_halted closing atEnd outcome]
      refine ⟨trivial, ?_⟩
      rintro _ _ ⟨⟩

theorem blockRest_accounts {stmt : Reader Stmt} (opening : Opening source stmt) (rounds : Nat)
    (place : AtStatement source cursor) : (blockRest stmt rounds cursor).Accounts source := by
  induction rounds generalizing cursor with
  | zero => trivial
  | succ rounds ih =>
      obtain ⟨accounts, again⟩ := blockRound_atStatement opening place
      rw [blockRest_succ]
      refine accounts_bind accounts fun found later ran rests => ?_
      cases found with
      | none => exact rests
      | some first => exact accounts_bind (ih (again first later ran)) fun _ _ _ rests => rests

theorem programRound_begins {stmt : Reader Stmt} (opening : Opening source stmt)
    (begins : cursor.Begins source) :
    (programRound stmt cursor).Accounts source ∧
      ∀ found later, programRound stmt cursor = .ok (some found) later → later.Begins source := by
  by_cases atEnd : cursor.current.kind = .endOfInput
  · rw [programRound_atEnd stmt atEnd]
    refine ⟨begins.rests, ?_⟩
    rintro _ _ ⟨⟩
  have accounts := opening cursor begins
  cases outcome : stmt cursor with
  | ok first middle =>
      rw [outcome] at accounts
      have rests : middle.Rests source := accounts
      rw [programRound_ok rests.ended atEnd outcome]
      refine ⟨rests.step.rests, ?_⟩
      rintro _ _ ⟨⟩
      exact rests.step
  | raised diagnostic middle =>
      rw [outcome] at accounts
      have rests : (middle.noted diagnostic).Rests source := accounts
      have left := (rests.onward (Cursor.onward_leftStatement _).tokens rfl).step
      have ended : Ended middle.tokens := rests.ended
      rw [programRound_raised ended atEnd outcome]
      refine ⟨left.rests, ?_⟩
      rintro _ _ ⟨⟩
      exact left
  | halted why =>
      rw [programRound_halted atEnd outcome]
      refine ⟨trivial, ?_⟩
      rintro _ _ ⟨⟩

theorem opening_programRest {stmt : Reader Stmt} (opening : Opening source stmt) (rounds : Nat) :
    Opening source (programRest stmt rounds) := by
  induction rounds with
  | zero => exact fun _ _ => trivial
  | succ rounds ih =>
      intro cursor begins
      obtain ⟨accounts, again⟩ := programRound_begins opening begins
      rw [programRest_succ]
      refine accounts_bind accounts fun found later ran rests => ?_
      cases found with
      | none => exact rests
      | some first =>
          exact accounts_bind (ih later (again first later ran)) fun _ _ _ rests => rests

/-! ## Phrases -/

section Parts

variable {expr : Precedence → Reader Expr} (opening : ∀ minimum, Opening source (expr minimum))

include opening

theorem following_define : Following source (define expr) :=
  (following_expect _).bind fun _ => following_current.bind fun _ =>
    (following_expect _).bind fun _ => Opening.afterAdvance <| (opening _).bind fun _ =>
      following_endStatement.bind fun _ => following_pure _

theorem following_returning : Following source (returning expr) :=
  Opening.afterAdvance <| (opening _).bind fun _ =>
    following_endStatement.bind fun _ => following_pure _

theorem opening_exprStatement : Opening source (exprStatement expr) :=
  (opening _).bind fun _ => (following_peekIs _).bind fun _ =>
    (following_advance.bind fun _ => following_pure _).ite (following_pure _)

theorem opening_statement : Opening source (statement expr) := by
  intro cursor begins
  rw [statement_apply]
  split
  · exact (following_define opening).opening cursor begins
  · split
    · exact (following_returning opening).opening cursor begins
    · exact opening_exprStatement opening cursor begins

theorem following_block (rounds : Nat) : Following source (block expr rounds) :=
  Opening.afterAdvance fun _ begins =>
    blockRest_accounts (opening_statement opening) rounds (.inl begins)

theorem opening_pair : Opening source (pair expr) :=
  (opening _).bind fun _ => (following_expect _).bind fun _ =>
    Opening.afterAdvance <| (opening _).bind fun _ => following_pure _

theorem following_conditional (rounds : Nat) (token : Token) :
    Following source (leadingForm expr rounds token .conditional) := by
  refine Opening.afterAdvance <| (opening _).bind fun _ => ?_
  refine (following_expect _).bind fun _ => (following_block opening rounds).bind fun _ =>
    (following_peekIs _).bind fun _ => Following.ite ?_ (following_pure _)
  exact following_advance.bind fun _ => (following_expect _).bind fun _ =>
    (following_block opening rounds).bind fun _ => following_pure _

theorem following_function (rounds : Nat) (token : Token) :
    Following source (leadingForm expr rounds token .function) :=
  (following_expect _).bind fun _ => (following_items opening_parameter _ rounds).bind fun _ =>
    (following_expect _).bind fun _ => (following_block opening rounds).bind fun _ =>
      following_pure _

theorem following_leadingForm (rounds : Nat) (token : Token) {form : Leading}
    (other : form ≠ .integer) : Following source (leadingForm expr rounds token form) := by
  cases form with
  | name => exact following_pure _
  | integer => contradiction
  | string => exact following_pure _
  | boolean value => exact following_pure _
  | unary op => exact ((opening _).bind fun _ => following_pure _).afterAdvance
  | group =>
      exact ((opening _).bind fun _ =>
        (following_expect _).bind fun _ => following_pure _).afterAdvance
  | array => exact (following_items (opening _) _ rounds).bind fun _ => following_pure _
  | hash => exact (following_items (opening_pair opening) _ rounds).bind fun _ => following_pure _
  | conditional => exact following_conditional opening rounds token
  | function => exact following_function opening rounds token

omit opening in
/-- A number that is too large is the one form that complains about its own first token. -/
theorem integer_accounts (begins : cursor.Begins source)
    (isInteger : cursor.current.kind = .integer) (rounds : Nat) :
    (leadingForm expr rounds cursor.current .integer cursor).Accounts source := by
  rw [integer_apply]
  split
  · exact begins.rests
  · rename_i large
    exact begins.noted (Diagnostic.describes_badInteger isInteger large)

theorem opening_operand (rounds : Nat) : Opening source (operand .standard expr rounds) := by
  intro cursor begins
  rw [operand_apply]
  cases leads : cursor.current.kind.leading? with
  | none => exact begins.noted (Diagnostic.describes_notLeading leads)
  | some form =>
      by_cases integer : form = .integer
      · subst integer
        exact integer_accounts begins (kind_of_leading leads) rounds
      · exact (following_leadingForm opening rounds cursor.current integer).opening cursor begins

theorem following_trailingForm (rounds : Nat) (left : Expr) (token : Token) (form : Trailing) :
    Following source (trailingForm expr rounds left token form) := by
  cases form with
  | binary op => exact ((opening _).bind fun _ => following_pure _).afterAdvance
  | call => exact (following_items (opening _) _ rounds).bind fun _ => following_pure _
  | index =>
      exact ((opening _).bind fun _ =>
        (following_expect _).bind fun _ => following_pure _).afterAdvance

theorem following_operatorRound (inner : Nat) (minimum : Precedence) (left : Expr) :
    Following source (operatorRound .standard expr inner minimum left) := by
  intro cursor rests
  rw [operatorRound_apply rests.ended]
  cases cursor.step.current.kind.continuation? minimum left with
  | none => exact rests
  | some form =>
      exact ((following_trailingForm opening inner left cursor.step.current form).bind
        fun extended => following_pure (some extended)) cursor.step rests.step.rests

theorem following_operators (inner : Nat) (minimum : Precedence) (rounds : Nat) (left : Expr) :
    Following source (operators .standard expr inner minimum rounds left) := by
  induction rounds generalizing left with
  | zero => exact fun _ _ => trivial
  | succ rounds ih =>
      rw [operators_succ]
      refine (following_operatorRound opening inner minimum left).bind fun found => ?_
      cases found with
      | none => exact following_pure _
      | some extended => exact ih extended

end Parts

theorem opening_expression (depth : Nat) (minimum : Precedence) :
    Opening source (expression .standard depth minimum) := by
  induction depth generalizing minimum with
  | zero => exact fun _ _ => trivial
  | succ depth ih =>
      exact (opening_operand ih _).bind fun first => following_operators ih _ minimum _ first

end Reader

theorem Cursor.begins_start (source : String) :
    (Cursor.start (Scriptlet.tokens source)).Begins source := by
  have tokens := Cursor.start_tokens (ended_tokens source).ne_nil
  have recorded := Cursor.start_recorded (Scriptlet.tokens source)
  refine ⟨?_, ?_, ?_, ?_⟩
  · rw [tokens]
  all_goals simp [recorded]

/-- Every diagnostic of a text describes the token it points at, and the diagnostics stand in the
order of their tokens. -/
theorem diagnostics_describe_tokens (source : String) :
    ((read source).diagnostics.Pairwise fun earlier later => earlier.position ≤ later.position) ∧
      ∀ diagnostic ∈ (read source).diagnostics,
        ∃ token ∈ tokens source, diagnostic.Describes token := by
  obtain ⟨statements, later, ran, result⟩ := read_eq (le_refl (tokens source).length)
  have accounts := Reader.opening_programRest
    (Reader.opening_statement (Reader.opening_expression (tokens source).length))
    (tokens source).length _ (Cursor.begins_start source)
  rw [ran] at accounts
  have rests : later.Rests source := accounts
  rw [result]
  exact ⟨rests.ordered, rests.describes⟩

end Scriptlet
