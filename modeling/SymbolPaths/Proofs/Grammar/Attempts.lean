import Mathlib.Data.List.Induction
import Mathlib.Data.List.TakeWhile
import Mathlib.Data.Nat.Find
import Mathlib.Order.Bounds.Basic
import SymbolPaths.Grammar.Retry

/-!
# Attempts

An operation is called until a call succeeds, or fails in a way that makes no sense to
repeat, or there are no retries left. Here is said how many calls that makes, and what
comes of them, in two ways.

* `run_eq`: the course of an operation in time, for any calls and any moment at which it
  is cancelled;
* `Effort.look`: what one look makes of an operation that is looked at from time to time,
  when something may be there or not, and the token that cancels it is read once. To poll
  an operation is to look at it until it waits for what is not there;
* `paced_watch`: the few forms that an operation takes that was never found cancelled
  (`Paced`);
* `exists_settles`: which call is the last one, and all that follows (`Settles`).

The two ways suit two kinds of questions. In time, all that happens is known from the moment at
which each call ends: the course is a list of calls and delays, and the cancellation cuts it off.
Look by look nothing is known of time; an operation is a state that a look changes, and between
two looks anything may happen to what it waits for. The number of looks that find something is
bounded by what is left to be done (`Effort.remaining`), so an operation that is looked at often
enough comes to its end.

Both go by the same call, the last one, which is the least that succeeds, fails for good, or has
no retries left (`IsDecidedAt`). No counter overflows before it, since there are no more calls
than retries, and one.
-/

namespace SymbolPaths

/-- How an operation ends that is not repeated. -/
def RetryResult.ofOutcome {ε α : Type} : Except ε α → RetryResult ε α
  | .ok value => .ok value
  | .error e => .failed e

/-- The delays before the first `n` repetitions. -/
def RetryPolicy.delays (p : RetryPolicy) (n : Nat) : List Delay :=
  (List.range n).map fun i => p.delayFor (.ofNat i)

theorem RetryPolicy.delays_succ (p : RetryPolicy) (retry : UInt32) :
    p.delays (retry.toNat + 1) = p.delays retry.toNat ++ [p.delayFor retry] := by
  rw [delays, delays, List.range_succ, List.map_append, List.map_singleton, UInt32.ofNat_toNat]

namespace Retry

variable {ε α : Type}

section Step

variable {policy : RetryPolicy} {retryable : ε → Bool} {outcome : Nat → Except ε α}
  {retry : UInt32} {k : Nat}

/-- Whether the call after `n` failed ones is the last one, when the calls end as given. -/
def IsLast (policy : RetryPolicy) (retryable : ε → Bool) (outcome : Nat → Except ε α)
    (n : Nat) : Prop :=
  (∃ value, outcome n = .ok value) ∨ (∃ e, outcome n = .error e ∧ retryable e = false) ∨
    n = policy.retries.toNat

/-- The least number of failed calls after which the call is the last one. -/
def IsDecidedAt (policy : RetryPolicy) (retryable : ε → Bool) (outcome : Nat → Except ε α)
    (k : Nat) : Prop :=
  IsLeast {n | IsLast policy retryable outcome n} k

/-- Some call is the last one: that after all retries is, if no other. -/
theorem exists_isDecidedAt (policy : RetryPolicy) (retryable : ε → Bool)
    (outcome : Nat → Except ε α) : ∃ k, IsDecidedAt policy retryable outcome k := by
  classical
  have hlast : ∃ n, IsLast policy retryable outcome n := ⟨policy.retries.toNat, .inr (.inr rfl)⟩
  exact ⟨Nat.find hlast, Nat.find_spec hlast, fun n hn => Nat.find_min' hlast hn⟩

/-- The last call comes after no more failed ones than there are retries. -/
theorem IsDecidedAt.le_retries (h : IsDecidedAt policy retryable outcome k) :
    k ≤ policy.retries.toNat :=
  h.2 (.inr (.inr rfl))

/-- What comes of the last call ends the operation. That a call is the last one has three reasons,
    and the step looks for each of them. -/
theorem step_last (h : IsLast policy retryable outcome retry.toNat) :
    step policy retryable false (.calling retry) (.returned (outcome retry.toNat)) =
      .done (.ofOutcome (outcome retry.toNat)) := by
  cases houtcome : outcome retry.toNat with
  | ok value => rfl
  | error e =>
    have hends : policy.retries ≤ retry ∨ retryable e = false := by
      rcases h with ⟨value, h⟩ | ⟨e', h, hretryable⟩ | h
      · cases houtcome.symm.trans h
      · cases houtcome.symm.trans h
        exact .inr hretryable
      · exact .inl (UInt32.le_iff_toNat_le.2 (Nat.le_of_eq h.symm))
    simp only [step, Bool.false_eq_true, if_false]
    rw [if_pos (by simpa using hends)]
    rfl

/-- After any other call the operation waits. -/
theorem step_again (hle : retry.toNat ≤ policy.retries.toNat)
    (h : ¬IsLast policy retryable outcome retry.toNat) :
    step policy retryable false (.calling retry) (.returned (outcome retry.toNat)) =
      .on (.waiting retry) := by
  rw [IsLast, not_or, not_or] at h
  obtain ⟨hok, hfatal, hne⟩ := h
  cases houtcome : outcome retry.toNat with
  | ok value => exact absurd ⟨value, houtcome⟩ hok
  | error e =>
    have hretryable : retryable e = true :=
      Bool.not_eq_false _ ▸ fun hfalse => hfatal ⟨e, houtcome, hfalse⟩
    have hlt : ¬policy.retries ≤ retry := by
      rw [UInt32.le_iff_toNat_le]
      omega
    simp only [step, Bool.false_eq_true, if_false]
    rw [if_neg (by simp [hretryable, hlt])]

/-- Before the last call the number of retries can be counted on. -/
theorem toNat_succ (h : retry.toNat < policy.retries.toNat) :
    (retry + 1).toNat = retry.toNat + 1 := by
  have := policy.retries.toNat_lt
  rw [UInt32.toNat_add, UInt32.toNat_one]
  omega

end Step

/-! ### In time -/

section Time

variable {policy : RetryPolicy} {retryable : ε → Bool} {call : Nat → Call ε α}
  {cancelAt : Option Nat} {now k : Nat}

/-- When the call after `n` failed ones begins, if nothing comes between. -/
def beginsAt (policy : RetryPolicy) (call : Nat → Call ε α) (now : Nat) : Nat → Nat
  | 0 => now
  | n + 1 => beginsAt policy call now n + (call n).duration +
      (policy.delayFor (.ofNat n)).milliseconds

/-- When the call after `n` failed ones ends, if nothing comes between. -/
def endsAt (policy : RetryPolicy) (call : Nat → Call ε α) (now n : Nat) : Nat :=
  beginsAt policy call now n + (call n).duration

/-- A call begins when the delay after the one before is over. -/
theorem beginsAt_succ (n : Nat) : beginsAt policy call now (n + 1) =
    endsAt policy call now n + (policy.delayFor (.ofNat n)).milliseconds :=
  rfl

theorem beginsAt_le_endsAt (n : Nat) : beginsAt policy call now n ≤ endsAt policy call now n :=
  Nat.le_add_right _ _

theorem endsAt_le_beginsAt (n : Nat) :
    endsAt policy call now n ≤ beginsAt policy call now (n + 1) :=
  Nat.le_add_right _ _

/-- Later calls end later. -/
theorem endsAt_mono : Monotone (endsAt policy call now) :=
  monotone_nat_of_le_succ fun n =>
    (endsAt_le_beginsAt n).trans (beginsAt_le_endsAt (n + 1))

/-- No call begins before the operation does. -/
theorem le_beginsAt (n : Nat) : now ≤ beginsAt policy call now n := by
  induction n with
  | zero => exact Nat.le_refl _
  | succ n ih => exact (ih.trans (beginsAt_le_endsAt n)).trans (endsAt_le_beginsAt n)

/-- Whether an operation is not cancelled yet at a moment. -/
def isOpen (cancelAt : Option Nat) (time : Nat) : Bool := cancelAt.all (time < ·)

/-- What happens before the cancellation is seen when it happens. -/
theorem seenAt_of_isOpen {time : Nat} (h : isOpen cancelAt time) :
    seenAt cancelAt time = (time, false) := by
  cases cancelAt with
  | none => rfl
  | some c =>
    have hlt : time < c := by simpa [isOpen] using h
    rw [seenAt, if_neg (Nat.not_le.2 hlt)]

/-- What happens after the cancellation is not seen, as the cancellation is seen first. -/
theorem seenAt_of_not_isOpen {time : Nat} (h : isOpen cancelAt time = false) :
    seenAt cancelAt time = (cancelAt.getD 0, true) := by
  cases cancelAt with
  | none => cases h
  | some c =>
    have hle : c ≤ time := by simpa [isOpen] using h
    rw [seenAt, if_pos hle, Option.getD_some]

/-- From a moment before the cancellation nothing is seen earlier than that. -/
theorem le_seenAt {time time' : Nat} (h : isOpen cancelAt time) (hle : time ≤ time') :
    time ≤ (seenAt cancelAt time').1 := by
  cases hopen : isOpen cancelAt time' with
  | true => rwa [seenAt_of_isOpen hopen]
  | false =>
    cases cancelAt with
    | none => cases hopen
    | some c =>
      have hlt : time < c := by simpa [isOpen] using h
      rw [seenAt_of_not_isOpen hopen]
      exact hlt.le

/-- A cancellation is never taken back. -/
theorem isOpen_eq_false_of_le {time time' : Nat} (hle : time ≤ time')
    (h : isOpen cancelAt time = false) : isOpen cancelAt time' = false := by
  cases cancelAt with
  | none => cases h
  | some c =>
    have hc : c ≤ time := by simpa [isOpen] using h
    simpa [isOpen] using hc.trans hle

/-- The course of an operation of which the call after `k` failed ones is the last one,
    from the call after `i` failed ones on. -/
def courseFrom (policy : RetryPolicy) (call : Nat → Call ε α) (cancelAt : Option Nat)
    (now i k : Nat) : Course ε α :=
  { begun := ((List.range' i (k + 1 - i)).map (beginsAt policy call now)).takeWhile
      (isOpen cancelAt)
    delays := ((List.range' i (k - i)).takeWhile fun n =>
      isOpen cancelAt (endsAt policy call now n)).map fun n => policy.delayFor (.ofNat n)
    result := if isOpen cancelAt (endsAt policy call now k) then .ofOutcome (call k).outcome
      else .aborted
    finished := (seenAt cancelAt (endsAt policy call now k)).1 }

/-! What is left of a course ends in one of four ways. -/

/-- What is left of a course is nothing if it is cancelled before the next call. -/
theorem courseFrom_of_closed {i : Nat} (hle : i ≤ k)
    (hbegins : isOpen cancelAt (beginsAt policy call now i) = false) :
    courseFrom policy call cancelAt now i k =
      { begun := [], delays := [], result := .aborted, finished := cancelAt.getD 0 } := by
  have hends := isOpen_eq_false_of_le (beginsAt_le_endsAt i) hbegins
  have hlast := isOpen_eq_false_of_le (endsAt_mono hle) hends
  obtain ⟨n, rfl⟩ := Nat.exists_eq_add_of_le hle
  rw [courseFrom, show i + n + 1 - i = n + 1 by omega, Nat.add_sub_cancel_left,
    seenAt_of_not_isOpen hlast, hlast]
  congr 1
  · rw [List.range'_succ, List.map_cons, List.takeWhile_cons_of_neg (by simp [hbegins])]
  · cases n with
    | zero => rfl
    | succ n =>
      rw [List.range'_succ, List.takeWhile_cons_of_neg (by simp [hends])]
      rfl

/-- What is left is one call, of which nothing is seen, if it is cancelled during that call. -/
theorem courseFrom_of_closed_end {i : Nat} (hle : i ≤ k)
    (hbegins : isOpen cancelAt (beginsAt policy call now i))
    (hends : isOpen cancelAt (endsAt policy call now i) = false) :
    courseFrom policy call cancelAt now i k =
      { begun := [beginsAt policy call now i], delays := [], result := .aborted,
        finished := cancelAt.getD 0 } := by
  have hlast := isOpen_eq_false_of_le (endsAt_mono hle) hends
  have hnext := isOpen_eq_false_of_le (endsAt_le_beginsAt i) hends
  obtain ⟨n, rfl⟩ := Nat.exists_eq_add_of_le hle
  rw [courseFrom, show i + n + 1 - i = n + 1 by omega, Nat.add_sub_cancel_left,
    seenAt_of_not_isOpen hlast, hlast, List.range'_succ, List.map_cons,
    List.takeWhile_cons_of_pos hbegins]
  cases n with
  | zero => rfl
  | succ n =>
    rw [List.range'_succ, List.range'_succ, List.map_cons,
      List.takeWhile_cons_of_neg (by simp [hnext]), List.takeWhile_cons_of_neg (by simp [hends])]
    rfl

/-- What is left is the last call if that ends in time. -/
theorem courseFrom_last (hbegins : isOpen cancelAt (beginsAt policy call now k))
    (hends : isOpen cancelAt (endsAt policy call now k)) :
    courseFrom policy call cancelAt now k k =
      { begun := [beginsAt policy call now k], delays := [],
        result := .ofOutcome (call k).outcome, finished := endsAt policy call now k } := by
  rw [courseFrom, Nat.add_sub_cancel_left, Nat.sub_self, seenAt_of_isOpen hends, if_pos hends,
    List.range'_one, List.map_singleton, List.takeWhile_cons_of_pos hbegins]
  rfl

/-- Otherwise the call fails in time, and a delay follows with what is left after it. -/
theorem courseFrom_again {i : Nat} (hlt : i < k)
    (hbegins : isOpen cancelAt (beginsAt policy call now i))
    (hends : isOpen cancelAt (endsAt policy call now i)) :
    courseFrom policy call cancelAt now i k =
      { courseFrom policy call cancelAt now (i + 1) k with
        begun := beginsAt policy call now i ::
          (courseFrom policy call cancelAt now (i + 1) k).begun
        delays := policy.delayFor (.ofNat i) ::
          (courseFrom policy call cancelAt now (i + 1) k).delays } := by
  have hcalls : k + 1 - i = k + 1 - (i + 1) + 1 := by omega
  have hdelays : k - i = k - (i + 1) + 1 := by omega
  simp only [courseFrom, hcalls, hdelays, List.range'_succ, List.map_cons, List.takeWhile_cons,
    hbegins, hends, if_true]

/-- From a call on that is not cancelled, however many more calls are allowed for. -/
theorem runFrom_eq (hk : IsDecidedAt policy retryable (fun n => (call n).outcome) k)
    {retry : UInt32} {fuel : Nat} (hle : retry.toNat ≤ k) (hfuel : k - retry.toNat < fuel)
    (hbegins : isOpen cancelAt (beginsAt policy call now retry.toNat)) :
    runFrom policy retryable call cancelAt fuel retry (beginsAt policy call now retry.toNat) =
      courseFrom policy call cancelAt now retry.toNat k := by
  -- A call is only reached while nothing is cancelled, and then at the moment at which it
  -- begins in an undisturbed course: this is what the induction keeps.
  induction fuel generalizing retry with
  | zero => exact absurd hfuel (Nat.not_lt_zero _)
  | succ fuel ih =>
    have hretries := hle.trans hk.le_retries
    rw [runFrom, ← endsAt]
    cases hends : isOpen cancelAt (endsAt policy call now retry.toNat) with
    | false =>
      rw [courseFrom_of_closed_end hle hbegins hends]
      simp only [seenAt_of_not_isOpen hends]
      rfl
    | true =>
      simp only [seenAt_of_isOpen hends]
      rcases hle.eq_or_lt with heq | hlt
      · have hlast : IsLast policy retryable (fun n => (call n).outcome) retry.toNat := heq ▸ hk.1
        rw [step_last hlast, heq, courseFrom_last (heq ▸ hbegins) (heq ▸ hends)]
      · have hagain : ¬IsLast policy retryable (fun n => (call n).outcome) retry.toNat :=
          fun hlast => Nat.not_le.2 hlt (hk.2 hlast)
        have hsucc : (retry + 1).toNat = retry.toNat + 1 :=
          toNat_succ (hlt.trans_le hk.le_retries)
        have hdelay : endsAt policy call now retry.toNat + (policy.delayFor retry).milliseconds =
            beginsAt policy call now (retry + 1).toNat := by
          rw [hsucc, beginsAt_succ, UInt32.ofNat_toNat]
        rw [step_again hretries hagain, courseFrom_again hlt hbegins hends, UInt32.ofNat_toNat]
        simp only [hdelay]
        cases hnext : isOpen cancelAt (beginsAt policy call now (retry + 1).toNat) with
        | false =>
          rw [← hsucc, courseFrom_of_closed (by omega) hnext]
          simp only [seenAt_of_not_isOpen hnext]
          rfl
        | true =>
          simp only [seenAt_of_isOpen hnext]
          rw [← hsucc, ← ih (by omega) (by omega) hnext]
          rfl

variable (policy retryable call cancelAt now) in
/-- The course of an operation. -/
theorem run_eq (hk : IsDecidedAt policy retryable (fun n => (call n).outcome) k) :
    run policy retryable call cancelAt now =
      { courseFrom policy call cancelAt now 0 k with
        finished := max now (courseFrom policy call cancelAt now 0 k).finished } := by
  have hstart : beginsAt policy call now 0 = now := rfl
  cases hopen : isOpen cancelAt now with
  | false =>
    have hle : cancelAt.getD 0 ≤ now := by
      cases cancelAt with
      | none => exact Nat.zero_le _
      | some c => simpa [isOpen] using hopen
    rw [courseFrom_of_closed (Nat.zero_le k) hopen, Nat.max_eq_left hle]
    simp only [run, seenAt_of_not_isOpen hopen]
    rfl
  | true =>
    have hrun : run policy retryable call cancelAt now =
        courseFrom policy call cancelAt now 0 k := by
      simp only [run, seenAt_of_isOpen hopen]
      exact runFrom_eq hk (Nat.zero_le k) (Nat.lt_succ_of_le ((Nat.sub_le ..).trans hk.le_retries))
        hopen
    rw [hrun, Nat.max_eq_right]
    exact le_seenAt hopen ((le_beginsAt k).trans (beginsAt_le_endsAt k))

/-- An operation that is cancelled after its last call has ended, or never, takes the whole
    of its course. -/
theorem run_of_isOpen (hk : IsDecidedAt policy retryable (fun n => (call n).outcome) k)
    (hopen : isOpen cancelAt (endsAt policy call now k)) :
    run policy retryable call cancelAt now =
      { begun := (List.range (k + 1)).map (beginsAt policy call now), delays := policy.delays k,
        result := .ofOutcome (call k).outcome, finished := endsAt policy call now k } := by
  have hearlier {time : Nat} (hle : time ≤ endsAt policy call now k) : isOpen cancelAt time :=
    Bool.not_eq_false _ ▸ fun hclosed =>
      Bool.false_ne_true ((isOpen_eq_false_of_le hle hclosed).symm.trans hopen)
  have hends {n : Nat} (hn : n ∈ List.range (k + 1)) :
      endsAt policy call now n ≤ endsAt policy call now k :=
    endsAt_mono (Nat.le_of_lt_succ (List.mem_range.1 hn))
  have hbegun : ((List.range (k + 1)).map (beginsAt policy call now)).takeWhile
      (isOpen cancelAt) = (List.range (k + 1)).map (beginsAt policy call now) := by
    refine List.takeWhile_eq_self_iff.2 fun time htime => ?_
    obtain ⟨n, hn, rfl⟩ := List.mem_map.1 htime
    exact hearlier ((beginsAt_le_endsAt n).trans (hends hn))
  have hdelays : ((List.range k).takeWhile fun n => isOpen cancelAt (endsAt policy call now n)) =
      List.range k := by
    refine List.takeWhile_eq_self_iff.2 fun n hn => ?_
    exact hearlier (hends (List.mem_range.2 ((List.mem_range.1 hn).trans (Nat.lt_succ_self k))))
  rw [run_eq policy retryable call cancelAt now hk, courseFrom, Nat.sub_zero, Nat.sub_zero,
    ← List.range_eq_range', ← List.range_eq_range', hbegun, hdelays, if_pos hopen,
    seenAt_of_isOpen hopen]
  simp only [Nat.max_eq_right ((le_beginsAt k).trans (beginsAt_le_endsAt k))]
  rfl

end Time

/-! ### From one look to the next -/

/-- A look at an operation: whether it is cancelled by then, and whether what it waits for
    is there. -/
structure Look where
  /-- Whether the operation is cancelled by then. -/
  cancelled : Bool
  /-- Whether what it waits for is there. -/
  ready : Bool
  deriving DecidableEq, Repr

/-- What is to be seen at a look, when the calls end as given. -/
def Look.signal (outcome : Nat → Except ε α) (l : Look) : Phase → Signal ε α
  | .calling retry => if l.ready then .returned (outcome retry.toNat) else .idle
  | .waiting _ => if l.ready then .elapsed else .idle

/-- Where an operation stands between two looks. -/
inductive Stage (ε α : Type) where
  /-- The call after `retry` failed ones is to begin. -/
  | due (retry : UInt32)
  /-- Something is under way. -/
  | pending (phase : Phase)
  /-- It is over. -/
  | ended (result : RetryResult ε α)

/-- An operation, with what it has begun so far. -/
structure Effort (ε α : Type) where
  /-- How many calls were begun. -/
  calls : Nat
  /-- The delays that were begun, in their order. -/
  delays : List Delay
  /-- Where it stands. -/
  stage : Stage ε α

namespace Effort

/-- An operation that nobody has looked at. -/
def start : Effort ε α := { calls := 0, delays := [], stage := .due 0 }

/-- What a look makes of an operation. Before every call the cancellation is asked for as
    it is before the first. -/
def look (policy : RetryPolicy) (retryable : ε → Bool) (outcome : Nat → Except ε α)
    (e : Effort ε α) (l : Look) : Effort ε α :=
  match e.stage with
  | .ended _ => e
  | .due retry =>
    match (begin l.cancelled : Progress ε α) with
    | .done result => { e with stage := .ended result }
    | .on _ => { e with calls := e.calls + 1, stage := .pending (.calling retry) }
  | .pending phase =>
    match phase, step policy retryable l.cancelled phase (l.signal outcome phase) with
    | _, .done result => { e with stage := .ended result }
    | .calling _, .on (.waiting retry) =>
      { e with delays := e.delays ++ [policy.delayFor retry], stage := .pending (.waiting retry) }
    | .waiting _, .on (.calling retry) => { e with stage := .due retry }
    | _, .on phase => { e with stage := .pending phase }

/-- What looks make of an operation, one after the other. -/
def watch (policy : RetryPolicy) (retryable : ε → Bool) (outcome : Nat → Except ε α)
    (looks : List Look) : Effort ε α :=
  looks.foldl (look policy retryable outcome) start

variable {policy : RetryPolicy} {retryable : ε → Bool} {outcome : Nat → Except ε α}
  {e : Effort ε α} {l : Look} {looks : List Look} {k : Nat}

/-- What is true of an operation that was never found cancelled, if the call after `k`
    failed ones is the last one: it counts the calls that have failed, and has waited as
    long before each repetition as it has to. -/
inductive Paced (policy : RetryPolicy) (outcome : Nat → Except ε α) (k : Nat) :
    Effort ε α → Prop
  /-- Before a call there were as many calls and delays as calls failed. -/
  | due {retry : UInt32} : retry.toNat ≤ k →
      Paced policy outcome k ⟨retry.toNat, policy.delays retry.toNat, .due retry⟩
  /-- During a call there is one call more than delays. -/
  | calling {retry : UInt32} : retry.toNat ≤ k →
      Paced policy outcome k
        ⟨retry.toNat + 1, policy.delays retry.toNat, .pending (.calling retry)⟩
  /-- During a delay there are as many of both, and the last call is still to come. -/
  | waiting {retry : UInt32} : retry.toNat < k →
      Paced policy outcome k
        ⟨retry.toNat + 1, policy.delays (retry.toNat + 1), .pending (.waiting retry)⟩
  /-- After the last call there were all calls up to it, and the delays between them. -/
  | ended : Paced policy outcome k ⟨k + 1, policy.delays k, .ended (.ofOutcome (outcome k))⟩

/-- The number of looks that find something there which an operation still needs. -/
def remaining (k : Nat) (e : Effort ε α) : Nat :=
  match e.stage with
  | .due retry => 3 * (k - retry.toNat) + 2
  | .pending (.calling retry) => 3 * (k - retry.toNat) + 1
  | .pending (.waiting retry) => 3 * (k - retry.toNat)
  | .ended _ => 0

theorem paced_start : Paced policy outcome k (start : Effort ε α) :=
  @Paced.due ε α policy outcome k 0 (Nat.zero_le k)

/-- A look that finds no cancellation takes an operation one step further, or leaves it as
    it is if nothing is there. -/
theorem paced_look (hk : IsDecidedAt policy retryable outcome k) (h : Paced policy outcome k e)
    (hl : l.cancelled = false) :
    Paced policy outcome k (e.look policy retryable outcome l) ∧
      (e.look policy retryable outcome l).remaining k ≤
        e.remaining k - if l.ready then 1 else 0 := by
  -- A call and its repetition lie three looks apart: to begin it, to see its end, and to see
  -- the end of the delay.
  obtain ⟨cancelled, ready⟩ := l
  obtain rfl : cancelled = false := hl
  cases h with
  | due hle =>
    refine ⟨.calling hle, ?_⟩
    simp only [look, begin, remaining, Bool.false_eq_true, if_false]
    split <;> omega
  | @calling retry hle =>
    cases ready with
    | false => exact ⟨.calling hle, Nat.le_refl _⟩
    | true =>
      rcases hle.eq_or_lt with heq | hlt
      · obtain rfl := heq
        simp only [look, Look.signal, if_true, step_last hk.1]
        exact ⟨.ended, Nat.zero_le _⟩
      · have hagain : ¬IsLast policy retryable outcome retry.toNat :=
          fun hlast => Nat.not_le.2 hlt (hk.2 hlast)
        simp only [look, Look.signal, if_true, step_again (hle.trans hk.le_retries) hagain]
        refine ⟨?_, by simp [remaining]⟩
        rw [← RetryPolicy.delays_succ]
        exact .waiting hlt
  | @waiting retry hlt =>
    cases ready with
    | false => exact ⟨.waiting hlt, Nat.le_refl _⟩
    | true =>
      have hsucc : (retry + 1).toNat = retry.toNat + 1 := toNat_succ (hlt.trans_le hk.le_retries)
      simp only [look, Look.signal, if_true, step, Bool.false_eq_true, if_false, remaining, hsucc]
      refine ⟨?_, by omega⟩
      rw [← hsucc]
      exact .due (by omega)
  | ended => exact ⟨.ended, Nat.zero_le _⟩

/-- Looks that find no cancellation keep an operation to its pace, by induction from the last of
    them. Each that finds something there leaves one less to be found. -/
theorem paced_watch (hk : IsDecidedAt policy retryable outcome k)
    (hlooks : ∀ l ∈ looks, l.cancelled = false) :
    Paced policy outcome k (watch policy retryable outcome looks) ∧
      (watch policy retryable outcome looks).remaining k ≤ 3 * k + 2 - looks.countP (·.ready) := by
  induction looks using List.reverseRecOn with
  | nil => exact ⟨paced_start, by simp [watch, start, remaining]⟩
  | append_singleton looks l ih =>
    obtain ⟨hpaced, hremaining⟩ := ih fun m hm => hlooks m (List.mem_append_left _ hm)
    have hl := hlooks l (List.mem_append_right _ (List.mem_singleton_self l))
    obtain ⟨hpaced', hremaining'⟩ := paced_look hk hpaced hl
    have hnext : watch policy retryable outcome (looks ++ [l]) =
        (watch policy retryable outcome looks).look policy retryable outcome l :=
      List.foldl_append ..
    rw [hnext, List.countP_append, List.countP_singleton]
    refine ⟨hpaced', hremaining'.trans ?_⟩
    omega

/-- An operation that needs nothing any more is over, with what came of its last call. -/
theorem Paced.eq_of_remaining (h : Paced policy outcome k e) (hremaining : e.remaining k = 0) :
    e = ⟨k + 1, policy.delays k, .ended (.ofOutcome (outcome k))⟩ := by
  cases h with
  | due => simp [remaining] at hremaining
  | calling => simp [remaining] at hremaining
  | waiting hlt =>
    simp only [remaining] at hremaining
    omega
  | ended => rfl

end Effort

/-- What follows for an operation that nobody cancels if the call after `k` failed ones is
    the last one. -/
structure Settles (policy : RetryPolicy) (retryable : ε → Bool) (call : Nat → Call ε α)
    (now k : Nat) : Prop where
  /-- It makes that call and those before it, each as soon as the delay before it is over,
      and ends with what comes of that call. -/
  course : run policy retryable call none now =
    { begun := (List.range (k + 1)).map (beginsAt policy call now)
      delays := policy.delays k
      result := .ofOutcome (call k).outcome
      finished := endsAt policy call now k }
  /-- However often it is looked at meanwhile, it has begun as many calls and delays as are
      due when so many calls have failed. -/
  paced : ∀ looks : List Look, (∀ l ∈ looks, l.cancelled = false) →
    Effort.Paced policy (fun n => (call n).outcome) k
      (Effort.watch policy retryable (fun n => (call n).outcome) looks)
  /-- The number of calls that have failed can always be counted on. -/
  counts : ∀ (looks : List Look) (retry : UInt32), (∀ l ∈ looks, l.cancelled = false) →
    (Effort.watch policy retryable (fun n => (call n).outcome) looks).stage =
      .pending (.waiting retry) →
    (retry + 1).toNat = (Effort.watch policy retryable (fun n => (call n).outcome) looks).calls
  /-- It comes to its end when it was looked at often enough. -/
  ends : ∀ looks : List Look, (∀ l ∈ looks, l.cancelled = false) →
    3 * k + 2 ≤ looks.countP (·.ready) →
    Effort.watch policy retryable (fun n => (call n).outcome) looks =
      { calls := k + 1, delays := policy.delays k, stage := .ended (.ofOutcome (call k).outcome) }

/-- Which call is the last one is decided by what calls come to, not by when they are looked at. All
    else follows from the pace of the operation. -/
theorem exists_settles (policy : RetryPolicy) (retryable : ε → Bool) (call : Nat → Call ε α)
    (now : Nat) : ∃ k, IsDecidedAt policy retryable (fun n => (call n).outcome) k ∧
      Settles policy retryable call now k := by
  obtain ⟨k, hk⟩ := exists_isDecidedAt policy retryable fun n => (call n).outcome
  refine ⟨k, hk, ?_⟩
  constructor
  case course => exact run_of_isOpen hk rfl
  case paced => exact fun looks hlooks => (Effort.paced_watch hk hlooks).1
  case counts =>
    intro looks retry hlooks hstage
    have hpaced := (Effort.paced_watch hk hlooks).1
    generalize Effort.watch policy retryable (fun n => (call n).outcome) looks = e at *
    cases hpaced with
    | waiting hlt =>
      obtain rfl := Phase.waiting.inj (Stage.pending.inj hstage)
      exact toNat_succ (hlt.trans_le hk.le_retries)
    | _ => cases hstage
  case ends =>
    intro looks hlooks hready
    obtain ⟨hpaced, hremaining⟩ := Effort.paced_watch hk hlooks
    exact hpaced.eq_of_remaining (by omega)

end Retry

end SymbolPaths
