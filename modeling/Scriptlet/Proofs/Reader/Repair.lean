import Scriptlet.Proofs.Reader.Bounds
import Scriptlet.Proofs.Reader.Settling

/-!
# Finishing what a reader has begun

If a reader first complains about some token, then what stands before the token is the beginning of
something that can be read: a few tokens in place of the one complained about, a `patch`, finish it.
`Completes` says so. A reader that comes after another has not read anything yet when the other one
complains; how it is finished from nothing is `Closes`.

What follows the patch must not continue it. `Ready` says which tokens may follow. The finished text
is longer than what was read of the other, so that it is read with larger bounds.
-/
set_option autoImplicit false

namespace Scriptlet

open Token (Kind)

def Token.Kind.isFiller (kind : Kind) : Bool :=
  [Kind.name, .assign, .colon, .leftParen, .rightParen, .leftBrace, .rightBrace,
    .rightBracket].contains kind

def Token.filler (kind : Kind) : Token :=
  ⟨kind, kind.text, 0, 0⟩

def filling (patch : List Kind) : List Token :=
  patch.map Token.filler

/-- The kinds can be filled in, and the first of them continues nothing. -/
def isPatch (patch : List Kind) : Bool :=
  patch.all Kind.isFiller && patch.head?.all Kind.isInert

def Course.Follows (course : Course) (follows : Kind → Prop) : Prop :=
  ∀ token, course.other.head? = some token → follows token.kind

def Token.Kind.Inert (kind : Kind) : Prop :=
  kind.isInert = true

def Token.Kind.Final (kind : Kind) : Prop :=
  kind = .rightBrace ∨ kind = .endOfInput

theorem Token.Kind.Final.inert {kind : Kind} (final : kind.Final) : kind.Inert := by
  rcases final with rfl | rfl <;> rfl

theorem Token.Kind.Inert.ne {kind other : Kind} (inert : kind.Inert)
    (active : other.isInert = false) : kind ≠ other := by
  rintro rfl
  cases inert.symm.trans active

structure Ready (follows : Kind → Prop) (rest : List Token) : Prop where
  ended : Ended rest
  head : ∀ token, rest.head? = some token → follows token.kind

theorem Ready.mono {follows weaker : Kind → Prop} {rest : List Token} (ready : Ready follows rest)
    (imp : ∀ kind, follows kind → weaker kind) : Ready weaker rest :=
  ⟨ready.ended, fun token head => imp _ (ready.head token head)⟩

theorem Ended.filled {patch : List Kind} {rest : List Token} (ended : Ended rest)
    (fills : patch.all Kind.isFiller = true) : Ended (filling patch ++ rest) := by
  induction patch with
  | nil => exact ended
  | cons kind patch ih =>
      simp only [List.all_cons, Bool.and_eq_true] at fills
      refine .cons ?_ (ih fills.2)
      rintro ⟨⟩
      cases fills.1

theorem Ready.filled {follows : Kind → Prop} {patch : List Kind} {rest : List Token}
    (ready : Ready follows rest) (imp : ∀ kind, follows kind → kind.Inert)
    (patched : isPatch patch = true) : Ready Kind.Inert (filling patch ++ rest) := by
  simp only [isPatch, Bool.and_eq_true] at patched
  refine ⟨ready.ended.filled patched.1, ?_⟩
  cases patch with
  | nil => exact (ready.mono imp).head
  | cons kind patch =>
      rintro _ ⟨⟩
      exact patched.2

/-- What stands before a token of a list can be followed by other tokens. -/
theorem Ended.swap {front after others : List Token} {spot : Token}
    (ended : Ended (front ++ spot :: after)) (endedOthers : Ended others) :
    Ended (front ++ others) := by
  induction front with
  | nil => exact endedOthers
  | cons token front ih =>
      have inside : token.kind ≠ .endOfInput :=
        fun atEnd => absurd (ended.rest_eq_nil_iff.mpr atEnd) (by simp)
      exact .cons inside (ih (ended.of_suffix (List.suffix_cons _ _) (by simp)))

/-- Tokens that stand at different places are different. -/
theorem split_of_points {front after list : List Token} {spot : Token}
    (increasing : (front ++ spot :: after).Pairwise fun token later => token.start < later.start)
    (suffix : list <:+ front ++ spot :: after) {diagnostic : Diagnostic}
    (points : diagnostic.PointsInto list) (position : diagnostic.position = spot.start) :
    ∃ between, list = between ++ spot :: after := by
  obtain ⟨passed, whole⟩ := suffix
  rcases List.append_eq_append_iff.mp whole with ⟨between, _, rfl⟩ | ⟨more, _, split⟩
  · exact ⟨between, rfl⟩
  cases more with
  | nil => exact ⟨[], split.symm⟩
  | cons first more =>
      obtain ⟨rfl, rfl⟩ := List.cons.inj split
      obtain ⟨token, member, start⟩ := List.mem_map.mp points
      have before := (List.pairwise_append.mp increasing).2.1
      have less := (List.pairwise_cons.mp before).1 token (List.mem_append_right _ member)
      omega

namespace Reader

variable {α β : Type} {run more : Reader α} {follows : Kind → Prop} {skip : Nat}

/-! ## Definitions -/

/-- The reader, begun with an empty record, first complains about `spot`. -/
structure Fails (run : Reader α) (cursor : Cursor) (front : List Token) (spot : Token)
    (after : List Token) : Prop where
  ended : Ended cursor.tokens
  increasing : cursor.tokens.Pairwise fun token later => token.start < later.start
  clean : cursor.recorded = []
  split : cursor.tokens = front ++ spot :: after
  complains : ∃ diagnostic, (run cursor).diagnostics.head? = some diagnostic ∧
    diagnostic.position = spot.start

/-- The reader is content with the tokens, if some others fill the gap behind them. -/
def Completable (follows : Kind → Prop) (more : Reader α) (front : List Token) : Prop :=
  ∃ patch, patch.all Kind.isFiller = true ∧ ∃ value, ∀ rest, Ready follows rest →
    Leads more (front ++ (filling patch ++ rest)) value rest

/-- What was read before the complaint, more than `skip` tokens of it, can be finished. -/
def Completes (skip : Nat) (follows : Kind → Prop) (run more : Reader α) : Prop :=
  ∀ cursor front spot after, Fails run cursor front spot after → skip < front.length →
    Completable follows more front

def Closes (follows : Kind → Prop) (more : Reader α) (patch : List Kind) : Prop :=
  ∃ value, ∀ rest, Ready follows rest → LeadsOn more (filling patch ++ rest) value rest

def Starts (follows : Kind → Prop) (more : Reader α) (patch : List Kind) : Prop :=
  ∃ value, ∀ rest, Ready follows rest → Leads more (filling patch ++ rest) value rest

theorem Completes.mono {stricter : Kind → Prop} (completes : Completes skip follows run more)
    (imp : ∀ kind, stricter kind → follows kind) : Completes skip stricter run more := by
  intro cursor front spot after fails far
  obtain ⟨patch, fills, value, leads⟩ := completes cursor front spot after fails far
  exact ⟨patch, fills, value, fun rest ready => leads rest (ready.mono imp)⟩

/-- A computation that the larger bounds do not change. -/
theorem extended {cursor later : Cursor} {value : α} (extend : Run.Extends run more)
    (ran : run cursor = .ok value later) : more cursor = .ok value later := by
  rcases extend cursor with ⟨why, halted⟩ | same
  · cases ran.symm.trans halted
  · exact same.trans ran

/-- A reader that came to its end before the place where the lists part does the same on the
other side. -/
theorem follow (lock : ∀ course : Course, course.First (course.Follows follows) run run)
    {cursor middle : Cursor} {value : α} (ran : run cursor = .ok value middle)
    (clean : cursor.recorded = []) (cleanMiddle : middle.recorded = [])
    (ended : Ended cursor.tokens) {front between after others : List Token} {spot : Token}
    (split : cursor.tokens = front ++ spot :: after) (nonempty : front ≠ [])
    (splitMiddle : middle.ahead = between ++ spot :: after) (endedOthers : Ended others)
    (next : between = [] → ∀ token, others.head? = some token → follows token.kind) :
    ∃ token ahead, front ++ others = token :: ahead ∧ ∀ recorded,
      run ⟨token, ahead, recorded⟩ = .ok value ⟨middle.current, between ++ others, recorded⟩ := by
  obtain ⟨token, front, rfl⟩ := List.exists_cons_of_ne_nil nonempty
  obtain ⟨here, ahead⟩ := List.cons.inj split
  refine ⟨token, front ++ others, rfl, fun recorded => ?_⟩
  let course : Course := .same (spot :: after) others recorded (by simp [endedOthers.ne_nil])
  have cursor_eq : cursor = ⟨token, front ++ spot :: after, []⟩ := by
    cases cursor
    simp only at here ahead clean
    rw [here, ahead, clean]
    rfl
  rw [cursor_eq] at ran ended
  have abreast : course.Abreast ⟨token, front ++ spot :: after, []⟩
      ⟨token, front ++ others, recorded⟩ :=
    Course.abreast_same ended (ended.swap endedOthers)
  have reaches : course.Reaches (course.Follows follows) middle := by
    by_cases near : between = []
    · refine .inr (.inr ⟨next near, ?_⟩)
      simp only [course, Course.same, Cursor.tokens, splitMiddle, List.length_cons,
        List.length_append]
      omega
    · refine .inr (.inl ?_)
      have positive := List.length_pos_iff.mpr near
      simp only [course, Course.same, Cursor.tokens, splitMiddle, List.length_cons,
        List.length_append]
      omega
  obtain ⟨later, ranOther, along⟩ := ((lock course).mirrors _ _ abreast).ok value middle ran reaches
    (by simp [cleanMiddle])
  obtain ⟨shared, aheadMiddle, aheadLater⟩ := along.common.eq_append
  have shared_eq : shared = between :=
    List.append_cancel_right (aheadMiddle.symm.trans splitMiddle)
  obtain ⟨new, alikes, recordedLater⟩ := along.recorded
  rw [cleanMiddle] at alikes
  cases alikes
  rw [ranOther]
  cases later
  simp only [List.append_nil] at aheadLater recordedLater
  rw [aheadLater, recordedLater, shared_eq, show middle.current = _ from along.same]
  rfl

/-- A reader that does the same as another one, which the first token decides. -/
theorem Completes.ofCurrent {other moreOther : Reader α} {cursor : Cursor}
    {front after : List Token} {spot : Token} (completes : Completes 0 follows other moreOther)
    (fails : Fails run cursor front spot after) (far : 0 < front.length)
    (same : run cursor = other cursor)
    (sameMore : ∀ ahead recorded,
      more ⟨cursor.current, ahead, recorded⟩ = moreOther ⟨cursor.current, ahead, recorded⟩) :
    Completable follows more front := by
  have failsOther : Fails other cursor front spot after :=
    ⟨fails.ended, fails.increasing, fails.clean, fails.split, same ▸ fails.complains⟩
  obtain ⟨token, front, rfl⟩ := List.exists_cons_of_length_pos far
  obtain rfl : cursor.current = token := (List.cons.inj fails.split).1
  obtain ⟨patch, fills, value, leads⟩ := completes cursor _ spot after failsOther far
  refine ⟨patch, fills, value, fun rest ready => ?_⟩
  obtain ⟨_, _, listed, runs⟩ := leads rest ready
  cases listed
  exact ⟨_, _, rfl, fun recorded => by simpa only [sameMore] using runs recorded⟩

/-! ## One reader after another -/

def StaysInside (run : Reader α) : Prop :=
  ∀ cursor value later, Ended cursor.tokens → cursor.current.kind ≠ .endOfInput →
    run cursor = .ok value later → later.current.kind ≠ .endOfInput

def EndsInside (run : Reader α) : Prop :=
  ∀ cursor value later, Ended cursor.tokens → run cursor = .ok value later →
    later.current.kind ≠ .endOfInput

structure Begun (follows : Kind → Prop) (run more : Reader α) (patch : List Kind) : Prop where
  lock : ∀ course : Course, course.First (course.Follows follows) run run
  extend : Run.Extends run more
  ends : EndsInside run
  starts : Starts follows more patch
  completes : Completes 0 follows run more

structure Resumed (follows : Kind → Prop) (run more : Reader α) (patch : List Kind) : Prop where
  lock : ∀ course : Course, course.Rest (course.Follows follows) run run
  extend : Run.Extends run more
  stays : StaysInside run
  closes : Closes follows more patch
  completes : Completes 1 follows run more

theorem Settles.ends (settles : Settles run) : EndsInside run :=
  fun cursor value later ended ran => (settles cursor value later ended ran).2

theorem EndsInside.stays (ends : EndsInside run) : StaysInside run :=
  fun cursor value later ended _ ran => ends cursor value later ended ran

theorem Begun.here {patch : List Kind} (begun : Begun follows run more patch) : Local run :=
  (begun.lock (.same [] [] [] Iff.rfl)).here

theorem Resumed.forward {patch : List Kind} (resumed : Resumed follows run more patch) :
    Forward run :=
  (resumed.lock (.same [] [] [] Iff.rfl)).here

theorem Fails.inside {cursor : Cursor} {front after : List Token} {spot : Token}
    (fails : Fails run cursor front spot after) (nonempty : front ≠ []) :
    cursor.current.kind ≠ .endOfInput := by
  obtain ⟨token, front, rfl⟩ := List.exists_cons_of_ne_nil nonempty
  intro atEnd
  have nothing := (Cursor.ahead_eq_nil_iff fails.ended).mpr atEnd
  have split := fails.split
  simp [Cursor.tokens, nothing] at split

theorem Fails.elim {cursor : Cursor} {front after : List Token} {spot : Token}
    (fails : Fails run cursor front spot after) (silent : (run cursor).diagnostics = []) : False := by
  obtain ⟨diagnostic, found, _⟩ := fails.complains
  rw [silent] at found
  cases found

theorem Fails.not_before {cursor : Cursor} {front after : List Token} {spot token : Token}
    (fails : Fails run cursor front spot after) (member : token ∈ front) {diagnostic : Diagnostic}
    (found : (run cursor).diagnostics.head? = some diagnostic)
    (position : diagnostic.position = token.start) : False := by
  obtain ⟨other, foundOther, positionOther⟩ := fails.complains
  cases found.symm.trans foundOther
  have less := (List.pairwise_append.mp (fails.split ▸ fails.increasing)).2.2 token member spot
    List.mem_cons_self
  omega

theorem Fails.elim_current {cursor : Cursor} {front after : List Token} {spot : Token}
    (fails : Fails run cursor front spot after) (far : 0 < front.length) {diagnostic : Diagnostic}
    (found : (run cursor).diagnostics.head? = some diagnostic)
    (position : diagnostic.position = cursor.current.start) {goal : Prop} : goal := by
  obtain ⟨token, front, rfl⟩ := List.exists_cons_of_length_pos far
  obtain rfl : cursor.current = token := (List.cons.inj fails.split).1
  exact (fails.not_before List.mem_cons_self found position).elim

theorem Fails.of_eq {other : Reader β} {cursor here : Cursor} {front after list : List Token}
    {spot : Token} (fails : Fails run cursor front spot after)
    (same : (other here).diagnostics = (run cursor).diagnostics) (suffix : here.tokens <:+ cursor.tokens)
    (split : here.tokens = list ++ spot :: after) (clean : here.recorded = []) :
    Fails other here list spot after :=
  ⟨fails.ended.of_suffix suffix (by simp [Cursor.tokens]), fails.increasing.sublist suffix.sublist,
    clean, split, same ▸ fails.complains⟩

section Bind

variable {next moreNext : α → Reader β} {patch begun : List Kind}

theorem StaysInside.bind (here : Local run) (stays : StaysInside run)
    (staysNext : ∀ value, StaysInside (next value)) : StaysInside (run >>= next) := by
  intro cursor value later ended inside ran
  obtain ⟨found, middle, ranFirst, ranNext⟩ := Run.bind_eq_ok ran
  exact staysNext found middle value later (here.ended ended ranFirst)
    (stays cursor found middle ended inside ranFirst) ranNext

/-- The complaint is about something that the first reader has met. -/
theorem Fails.first {cursor : Cursor} {front after : List Token} {spot : Token}
    (fails : Fails (run >>= next) cursor front spot after) (here : Local run)
    (hereNext : ∀ value, Local (next value)) :
    Fails run cursor front spot after ∨
      ∃ value middle, run cursor = .ok value middle ∧ middle.recorded = [] := by
  obtain ⟨diagnostic, found, position⟩ := fails.complains
  have failsFirst (found : (run cursor).diagnostics.head? = some diagnostic) :
      Fails run cursor front spot after :=
    ⟨fails.ended, fails.increasing, fails.clean, fails.split, diagnostic, found, position⟩
  rw [Run.bind_apply] at found
  cases outcome : run cursor with
  | ok value middle =>
      rw [outcome] at found
      by_cases clean : middle.recorded = []
      · exact .inr ⟨value, middle, rfl, clean⟩
      · have cites := hereNext value middle (here.ended fails.ended outcome)
        have recorded := cites.head?_recorded clean found
        exact .inl (failsFirst (by rw [outcome]; exact recorded))
  | raised error middle =>
      rw [outcome] at found
      exact .inl (failsFirst (by rw [outcome]; exact found))
  | halted why =>
      rw [outcome] at found
      cases found

/-- Otherwise it is about something behind the place where the first reader has ended. -/
theorem Fails.rest {cursor middle : Cursor} {front after : List Token} {spot : Token} {value : α}
    (fails : Fails (run >>= next) cursor front spot after) (here : Local run)
    (ran : run cursor = .ok value middle) (clean : middle.recorded = [])
    (inside : middle.current.kind ≠ .endOfInput) (forward : Forward (next value)) :
    ∃ between, middle.ahead = between ++ spot :: after ∧
      Fails (next value) middle (middle.current :: between) spot after := by
  have suffix : middle.tokens <:+ cursor.tokens := (here.ok fails.ended ran).tokens
  have endedMiddle := here.ended fails.ended ran
  obtain ⟨diagnostic, found, position⟩ := fails.complains
  rw [Run.bind_apply, ran] at found
  have points : diagnostic.PointsInto middle.ahead := by
    rw [← Cursor.tokens_step_of_inside endedMiddle inside]
    exact (forward middle endedMiddle).points clean (List.mem_of_head? found)
  have increasing := fails.split ▸ fails.increasing
  have suffixAhead : middle.ahead <:+ front ++ spot :: after :=
    fails.split ▸ (List.suffix_cons _ _).trans suffix
  obtain ⟨between, split⟩ := split_of_points increasing suffixAhead points position
  exact ⟨between, split, endedMiddle, fails.increasing.sublist suffix.sublist, clean,
    congrArg (middle.current :: ·) split, diagnostic, found, position⟩

theorem Completes.bind (lock : ∀ course : Course, course.First (course.Follows Kind.Inert) run run)
    (extend : Run.Extends run more) (stays : StaysInside run)
    (completes : Completes skip Kind.Inert run more)
    (rest : ∀ value, Resumed follows (next value) (moreNext value) patch)
    (patched : isPatch patch = true) (imp : ∀ kind, follows kind → kind.Inert) :
    Completes skip follows (run >>= next) (more >>= moreNext) := by
  intro cursor front spot after fails far
  have here : Local run := (lock (.same [] [] [] Iff.rfl)).here
  have forward (value : α) : Forward (next value) := (rest value).forward
  have fills : patch.all Kind.isFiller = true := by
    simp only [isPatch, Bool.and_eq_true] at patched
    exact patched.1
  have nonempty : front ≠ [] := List.length_pos_iff.mp (Nat.zero_lt_of_lt far)
  rcases fails.first here fun value => (forward value).here with failsFirst | ⟨value, middle, ran, clean⟩
  · -- the first reader is finished, and the others begin behind its patch
    obtain ⟨begun, fillsBegun, value, leads⟩ := completes cursor front spot after failsFirst far
    obtain ⟨result, leadsOn⟩ := (rest value).closes
    refine ⟨begun ++ patch, by simp [fillsBegun, fills], result, fun tail ready => ?_⟩
    have leadsFirst := leads _ (ready.filled imp patched)
    rw [filling, List.map_append, List.append_assoc]
    exact leadsFirst.bind (leadsOn tail ready)
  · have inside := fails.inside nonempty
    obtain ⟨between, split, failsNext⟩ := fails.rest here ran clean
      (stays cursor value middle fails.ended inside ran) (forward value)
    by_cases near : between = []
    · -- the others have not read anything yet
      obtain ⟨result, leadsOn⟩ := (rest value).closes
      refine ⟨patch, fills, result, fun tail ready => ?_⟩
      have readyRest := ready.filled imp patched
      obtain ⟨token, ahead, listed, runs⟩ := follow lock ran fails.clean clean fails.ended fails.split
        nonempty split readyRest.ended fun _ => readyRest.head
      refine ⟨token, ahead, listed, fun recorded => ?_⟩
      obtain ⟨last, ranNext⟩ := leadsOn tail ready middle.current recorded
      rw [near] at runs
      exact ⟨last, by rw [Run.bind_apply, extended extend (runs recorded)]; exact ranNext⟩
    · obtain ⟨begun, fillsBegun, result, leads⟩ := (rest value).completes middle _ spot after
        failsNext (by simpa using List.length_pos_iff.mpr near)
      refine ⟨begun, fillsBegun, result, fun tail ready => ?_⟩
      obtain ⟨token, ahead, listed, runs⟩ := follow lock ran fails.clean clean fails.ended fails.split
        nonempty split (ready.ended.filled fillsBegun) fun nothing => absurd nothing near
      obtain ⟨_, _, listedNext, runsNext⟩ := leads tail ready
      cases listedNext
      refine ⟨token, ahead, listed, fun recorded => ?_⟩
      obtain ⟨last, ranNext⟩ := runsNext recorded
      exact ⟨last, by rw [Run.bind_apply, extended extend (runs recorded)]; exact ranNext⟩

theorem Begun.bind (first : Begun Kind.Inert run more begun)
    (rest : ∀ value, Resumed follows (next value) (moreNext value) patch)
    (patched : isPatch patch = true) (imp : ∀ kind, follows kind → kind.Inert) :
    Begun follows (run >>= next) (more >>= moreNext) (begun ++ patch) where
  lock course := ((first.lock course).mono fun licensed token head => imp _ (licensed token head)).bind
    fun value => (rest value).lock course
  extend := first.extend.bind fun value => (rest value).extend
  ends := by
    intro cursor value later ended ran
    obtain ⟨found, middle, ranFirst, ranNext⟩ := Run.bind_eq_ok ran
    exact (rest found).stays middle value later (first.here.ended ended ranFirst)
      (first.ends cursor found middle ended ranFirst) ranNext
  starts := by
    obtain ⟨value, leads⟩ := first.starts
    obtain ⟨result, leadsOn⟩ := (rest value).closes
    refine ⟨result, fun tail ready => ?_⟩
    rw [filling, List.map_append, List.append_assoc]
    exact (leads _ (ready.filled imp patched)).bind (leadsOn tail ready)
  completes := first.completes.bind first.lock first.extend first.ends.stays rest patched imp

theorem Resumed.bind (first : Resumed Kind.Inert run more begun)
    (rest : ∀ value, Resumed follows (next value) (moreNext value) patch)
    (patched : isPatch patch = true) (imp : ∀ kind, follows kind → kind.Inert) :
    Resumed follows (run >>= next) (more >>= moreNext) (begun ++ patch) where
  lock course := ((first.lock course).mono fun licensed token head => imp _ (licensed token head)).bind
    fun value => (rest value).lock course
  extend := first.extend.bind fun value => (rest value).extend
  stays := first.stays.bind first.forward.here fun value => (rest value).stays
  closes := by
    obtain ⟨value, leads⟩ := first.closes
    obtain ⟨result, leadsOn⟩ := (rest value).closes
    refine ⟨result, fun tail ready => ?_⟩
    rw [filling, List.map_append, List.append_assoc]
    exact (leads _ (ready.filled imp patched)).bind (leadsOn tail ready)
  completes := first.completes.bind (fun course => (first.lock course).first) first.extend first.stays
    rest patched imp

end Bind

/-! ## Rules -/

section Rules

variable {patch : List Kind}

/-- A reader that goes on behind the current token, begun on a token that it does not look at. -/
theorem Resumed.completesFirst (resumed : Resumed follows run more patch)
    (fills : patch.all Kind.isFiller = true) : Completes 0 follows run more := by
  intro cursor front spot after fails far
  cases front with
  | nil => exact absurd far (Nat.lt_irrefl 0)
  | cons token front =>
      cases front with
      | nil =>
          obtain ⟨value, leads⟩ := resumed.closes
          exact ⟨patch, fills, value, fun rest ready => (leads rest ready).leads token⟩
      | cons next front =>
          exact resumed.completes cursor _ spot after fails (by simp)

theorem Completes.afterAdvance (completes : Completes 0 follows run more) :
    Completes 1 follows (advance >>= fun _ => run) (advance >>= fun _ => more) := by
  intro cursor front spot after fails far
  obtain ⟨token, front, rfl⟩ := List.exists_cons_of_length_pos (Nat.zero_lt_of_lt far)
  have inside := fails.inside (List.cons_ne_nil _ _)
  have stepped := Cursor.tokens_step_of_inside fails.ended inside
  have failsRun : Fails run cursor.step front spot after := by
    refine fails.of_eq ?_ cursor.onward_step.tokens ?_ (by simpa using fails.clean)
    · rw [Run.bind_apply, advance_eq fails.ended]
    · exact stepped.trans (List.cons.inj fails.split).2
  obtain ⟨patch, fills, value, leads⟩ := completes _ front spot after failsRun
    (Nat.lt_of_succ_lt_succ far)
  exact ⟨patch, fills, value, fun rest ready => (leads rest ready).afterAdvance.leads token⟩

theorem Begun.afterAdvance (begun : Begun follows run more patch) :
    Resumed follows (advance >>= fun _ => run) (advance >>= fun _ => more) patch where
  lock course := (begun.lock course).afterAdvance
  extend := (Run.Extends.refl _).bind fun _ => begun.extend
  stays := by
    intro cursor value later ended _ ran
    exact begun.ends _ value later (cursor.onward_step.ended ended) (advance_ok ended ran)
  closes := by
    obtain ⟨value, leads⟩ := begun.starts
    exact ⟨value, fun rest ready => (leads rest ready).afterAdvance⟩
  completes := begun.completes.afterAdvance

theorem stays_pure (value : α) : StaysInside (pure value) := by
  intro cursor _ later _ inside ran
  cases ran
  exact inside

theorem resumed_pure (value : α) : Resumed follows (pure value) (pure value) [] where
  lock _ := Course.rest_pure value
  extend := Run.Extends.refl _
  stays := stays_pure value
  closes := ⟨value, fun rest _ => leadsOn_pure value rest⟩
  completes _ _ _ _ fails _ := (fails.elim fails.clean).elim

theorem Fails.ofMap {f : α → β} {cursor : Cursor} {front after : List Token} {spot : Token}
    (fails : Fails (run >>= fun value => pure (f value)) cursor front spot after)
    (here : Local run) : Fails run cursor front spot after := by
  refine (fails.first here fun _ => (forward_pure _).here).resolve_right ?_
  rintro ⟨value, middle, ran, clean⟩
  refine fails.elim ?_
  rw [Run.bind_apply, ran]
  exact clean

theorem Completes.map (completes : Completes skip follows run more) (here : Local run) (f : α → β) :
    Completes skip follows (run >>= fun value => pure (f value))
      (more >>= fun value => pure (f value)) := by
  intro cursor front spot after fails far
  obtain ⟨patch, fills, value, leads⟩ := completes cursor front spot after (fails.ofMap here) far
  exact ⟨patch, fills, f value, fun rest ready => (leads rest ready).bind (leadsOn_pure _ _)⟩

theorem Begun.map (begun : Begun follows run more patch) (f : α → β) :
    Begun follows (run >>= fun value => pure (f value)) (more >>= fun value => pure (f value))
      patch where
  lock course := (begun.lock course).bind fun _ => Course.rest_pure _
  extend := begun.extend.bind fun _ => Run.Extends.refl _
  ends := by
    intro cursor value later ended ran
    obtain ⟨found, middle, ran, done⟩ := Run.bind_eq_ok ran
    cases done
    exact begun.ends cursor found later ended ran
  starts := by
    obtain ⟨value, leads⟩ := begun.starts
    exact ⟨f value, fun rest ready => (leads rest ready).bind (leadsOn_pure _ _)⟩
  completes := begun.completes.map begun.here f

theorem Resumed.map (resumed : Resumed follows run more patch) (f : α → β) :
    Resumed follows (run >>= fun value => pure (f value)) (more >>= fun value => pure (f value))
      patch where
  lock course := (resumed.lock course).bind fun _ => Course.rest_pure _
  extend := resumed.extend.bind fun _ => Run.Extends.refl _
  stays := resumed.stays.bind resumed.forward.here fun _ => stays_pure _
  closes := by
    obtain ⟨value, leads⟩ := resumed.closes
    exact ⟨f value, fun rest ready => (leads rest ready).bind (leadsOn_pure _ _)⟩
  completes := resumed.completes.map resumed.forward.here f

/-- A reader without any bounds left says nothing. -/
theorem resumed_halt (why : Halt) (closes : Closes follows more patch) :
    Resumed follows (Run.halt why) more patch where
  lock _ := ⟨fun _ _ => trivial, fun _ _ => trivial, fun _ _ _ _ => Course.mirrors_halted _⟩
  extend := Run.extends_halt why more
  stays := by
    intro cursor value later _ _ ran
    cases ran
  closes := closes
  completes _ _ _ _ fails _ := (fails.elim rfl).elim

theorem closes_expect (kind : Kind) : Closes follows (expect kind) [kind] :=
  ⟨(), fun rest _ => leadsOn_expect rfl rest⟩

theorem stays_expect {kind : Kind} (inside : kind ≠ .endOfInput) : StaysInside (expect kind) := by
  intro cursor _ later ended _ ran
  rw [expect_eq ended] at ran
  split at ran
  · rename_i found
    cases ran
    rwa [found]
  · cases ran

/-- If the next token is before the complaint, it is the expected one. -/
theorem Fails.expected {next : Unit → Reader α} {kind : Kind} {cursor : Cursor}
    {front after : List Token} {spot token : Token}
    (fails : Fails (expect kind >>= next) cursor (token :: front) spot after) (more : front ≠ []) :
    cursor.step.current.kind = kind ∧ Fails (next ()) cursor.step front spot after := by
  have inside := fails.inside (List.cons_ne_nil _ _)
  have stepped := Cursor.tokens_step_of_inside fails.ended inside
  have splitStep : cursor.step.tokens = front ++ spot :: after :=
    stepped.trans (List.cons.inj fails.split).2
  by_cases found : cursor.step.current.kind = kind
  · refine ⟨found, fails.of_eq ?_ cursor.onward_step.tokens splitStep (by simpa using fails.clean)⟩
    rw [Run.bind_apply, expect_eq fails.ended, if_pos found]
  · obtain ⟨first, others, rfl⟩ := List.exists_cons_of_ne_nil more
    have current : cursor.step.current = first := (List.cons.inj splitStep).1
    have complaint : ((expect kind >>= next) cursor).diagnostics.head? =
        some (.unexpectedToken kind first) := by
      rw [Run.bind_apply, expect_eq fails.ended, if_neg found, current]
      simp [Outcome.diagnostics, fails.clean]
    exact (fails.not_before (by simp) complaint rfl).elim

theorem Completes.afterExpect (completes : Completes 0 follows run more) (kind : Kind) :
    Completes 1 follows (expect kind >>= fun _ => run) (expect kind >>= fun _ => more) := by
  intro cursor front spot after fails far
  obtain ⟨token, front, rfl⟩ := List.exists_cons_of_length_pos (Nat.zero_lt_of_lt far)
  have positive : 0 < front.length := Nat.lt_of_succ_lt_succ far
  have nonempty : front ≠ [] := List.length_pos_iff.mp positive
  obtain ⟨found, failsRun⟩ := fails.expected nonempty
  obtain ⟨patch, fills, value, leads⟩ := completes _ front spot after failsRun positive
  refine ⟨patch, fills, value, fun rest ready => ?_⟩
  obtain ⟨first, others, rfl⟩ := List.exists_cons_of_ne_nil nonempty
  have current : cursor.step.current = first := (List.cons.inj failsRun.split).1
  exact ((leads rest ready).afterExpect (current ▸ found)).leads token

theorem resumed_expect {kind : Kind} (inside : kind ≠ .endOfInput) :
    Resumed follows (expect kind) (expect kind) [kind] where
  lock _ := Course.rest_expect kind
  extend := Run.Extends.refl _
  stays := stays_expect inside
  closes := closes_expect kind
  completes := by
    have completes : Completes 1 follows (expect kind >>= fun _ => pure ())
        (expect kind >>= fun _ => pure ()) :=
      Completes.afterExpect ((resumed_pure ()).completesFirst rfl) kind
    rwa [bind_pure_unit] at completes

/-- The next token is looked at, and it is before the complaint. -/
theorem completes_peekIs {next moreNext : Bool → Reader α} (kind : Kind)
    (completes : ∀ found, Completes 1 follows (next found) (moreNext found)) :
    Completes 1 follows (peekIs kind >>= next) (peekIs kind >>= moreNext) := by
  intro cursor front spot after fails far
  obtain ⟨token, front, rfl⟩ := List.exists_cons_of_length_pos (Nat.zero_lt_of_lt far)
  obtain ⟨first, front, rfl⟩ := List.exists_cons_of_length_pos (Nat.lt_of_succ_lt_succ far)
  have current : cursor.step.current = first := by
    have stepped := Cursor.tokens_step_of_inside fails.ended (fails.inside (List.cons_ne_nil _ _))
    exact (List.cons.inj (stepped.trans (List.cons.inj fails.split).2)).1
  have failsNext : Fails (next (decide (first.kind = kind))) cursor (token :: first :: front) spot
      after := by
    refine fails.of_eq ?_ (List.suffix_refl _) fails.split fails.clean
    rw [Run.bind_apply, peekIs_eq fails.ended, current]
  obtain ⟨patch, fills, value, leads⟩ := completes _ cursor _ spot after failsNext far
  refine ⟨patch, fills, value, fun rest ready => ?_⟩
  obtain ⟨_, _, listed, runs⟩ := leads rest ready
  cases listed
  refine ⟨_, _, rfl, fun recorded => ?_⟩
  obtain ⟨last, ran⟩ := runs recorded
  exact ⟨last, by rw [Run.bind_apply, List.append_eq, List.cons_append, peekIs_cons]; exact ran⟩

/-- The next token is passed if it is of the given kind, which what follows is not. -/
theorem Resumed.whenNext {orElse moreElse : Reader α} {kind : Kind}
    (resumed : Resumed follows run more patch) (fills : patch.all Kind.isFiller = true)
    (resumedElse : Resumed follows orElse moreElse [])
    (isInside : kind ≠ .endOfInput) (avoids : ∀ other, follows other → other ≠ kind) :
    Resumed follows
      (peekIs kind >>= fun found => if found = true then advance >>= fun _ => run else orElse)
      (peekIs kind >>= fun found => if found = true then advance >>= fun _ => more else moreElse)
      [] where
  lock course := Course.Rest.whenNext (resumed.lock course).first (resumedElse.lock course)
    fun licensed token head => avoids _ (licensed token head)
  extend := (Run.Extends.refl _).bind fun _ =>
    ((Run.Extends.refl _).bind fun _ => resumed.extend).ite resumedElse.extend
  stays := by
    intro cursor value later ended inside ran
    have ran := peekIs_ok ended ran
    split at ran
    · rename_i found
      refine resumed.stays _ value later (cursor.onward_step.ended ended) ?_ (advance_ok ended ran)
      rwa [of_decide_eq_true found]
    · exact resumedElse.stays cursor value later ended inside ran
  closes := by
    obtain ⟨value, leads⟩ := resumedElse.closes
    refine ⟨value, fun rest ready => ?_⟩
    obtain ⟨token, ahead, rfl⟩ := List.exists_cons_of_ne_nil ready.ended.ne_nil
    exact .absent (avoids _ (ready.head token rfl)) (leads _ ready)
  completes := by
    refine completes_peekIs kind fun found => ?_
    cases found with
    | true => exact (resumed.completesFirst fills).afterAdvance
    | false => exact resumedElse.completes

end Rules

end Reader

end Scriptlet
