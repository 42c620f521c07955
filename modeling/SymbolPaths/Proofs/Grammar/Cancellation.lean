import SymbolPaths.Proofs.Grammar.Attempts

/-!
# Cancelled operations

Whoever waits for an operation may cancel it at any moment: before it is called, while a
call or a delay is under way, and when a call has just ended that nobody has looked at yet.
The next look at the operation ends it, whatever else there is to see, and nothing is begun
from then on.

* `Effort.look_of_cancelled`: what a look makes of an operation that is cancelled by then;
* `heedsCancellation`: all that follows from a cancellation, and that nothing else ends an
  operation as aborted (`HeedsCancellation`).

There are two kinds of laws. Look by look the cancellation is seen at the next look, whatever that
look finds besides, as every stage asks for it first. In time it is seen when it comes: the end of
a call or of a delay is not waited for. What was begun by then is what an operation that nobody
cancels has begun by then, and a cancellation that comes when that is over changes nothing.
-/

namespace SymbolPaths

/-- No call ends as aborted: only a cancellation does that. -/
theorem RetryResult.ofOutcome_ne_aborted {ε α : Type} (outcome : Except ε α) :
    ofOutcome outcome ≠ .aborted := by
  cases outcome <;> exact nofun

namespace Retry

variable {ε α : Type}

namespace Effort

variable {policy : RetryPolicy} {retryable : ε → Bool} {outcome : Nat → Except ε α}
  {e : Effort ε α} {l : Look} {k : Nat}

/-- An operation that is over stays as it is. -/
theorem look_of_ended {result : RetryResult ε α} (h : e.stage = .ended result) (l : Look) :
    e.look policy retryable outcome l = e := by
  simp only [look, h]

/-- A look that finds the cancellation ends an operation, whatever it waits for and whatever else is
    there. Every stage asks for the cancellation first. -/
theorem look_of_cancelled (h : ∀ result, e.stage ≠ .ended result) (hl : l.cancelled = true) :
    e.look policy retryable outcome l = { e with stage := .ended .aborted } := by
  obtain ⟨calls, delays, stage⟩ := e
  obtain ⟨cancelled, ready⟩ := l
  obtain rfl : cancelled = true := hl
  cases stage with
  | due retry => rfl
  | pending phase => cases phase <;> rfl
  | ended result => exact absurd rfl (h result)

/-- An operation that is over stays so for all later looks. -/
theorem foldl_look_of_ended {result : RetryResult ε α} (h : e.stage = .ended result)
    (looks : List Look) : looks.foldl (look policy retryable outcome) e = e := by
  induction looks with
  | nil => rfl
  | cons l looks ih => rw [List.foldl_cons, look_of_ended h, ih]

end Effort

/-- What follows from a cancellation of an operation that may be repeated. -/
structure HeedsCancellation (policy : RetryPolicy) (retryable : ε → Bool)
    (call : Nat → Call ε α) : Prop where
  /-- If an operation that is not over is cancelled when it is looked at next, that look
      ends it as aborted, also if a call has ended or a delay is over, and no look begins
      anything any more. -/
  at_once : ∀ (before : List Look) (l : Look) (after : List Look), l.cancelled = true →
    (∀ result, (Effort.watch policy retryable (fun n => (call n).outcome) before).stage ≠
      .ended result) →
    Effort.watch policy retryable (fun n => (call n).outcome) (before ++ l :: after) =
      { Effort.watch policy retryable (fun n => (call n).outcome) before with
        stage := .ended .aborted }
  /-- What is never cancelled is never aborted. -/
  never : ∀ looks : List Look, (∀ l ∈ looks, l.cancelled = false) →
    (Effort.watch policy retryable (fun n => (call n).outcome) looks).stage ≠ .ended .aborted
  /-- Nor is it in time, whenever it is begun. -/
  never_in_time : ∀ now, (run policy retryable call none now).result ≠ .aborted
  /-- A cancellation that comes when all is over changes nothing. -/
  late : ∀ now c, (run policy retryable call none now).finished < c →
    run policy retryable call (some c) now = run policy retryable call none now
  /-- Any other one ends the operation when it comes, or when it is begun, also if a call
      or a delay ends at that very moment: of what it would have begun it has begun what
      comes before. -/
  cut_short : ∀ now c, c ≤ (run policy retryable call none now).finished →
    (run policy retryable call (some c) now).result = .aborted ∧
      (run policy retryable call (some c) now).finished = max now c ∧
      (run policy retryable call (some c) now).begun =
        (run policy retryable call none now).begun.takeWhile (· < c) ∧
      (run policy retryable call (some c) now).delays <+:
        (run policy retryable call none now).delays

/-- Any operation heeds its cancellation. What is said of looks comes from one look each; what is
    said of time comes from the course of the operation. -/
theorem heedsCancellation (policy : RetryPolicy) (retryable : ε → Bool)
    (call : Nat → Call ε α) : HeedsCancellation policy retryable call := by
  obtain ⟨k, hk⟩ := exists_isDecidedAt policy retryable fun n => (call n).outcome
  have hwhole (now : Nat) := @run_of_isOpen _ _ policy retryable call none now k hk rfl
  -- The first two laws are about looks, whenever they come; the others put times on them.
  constructor
  case at_once =>
    intro before l after hl hbefore
    rw [Effort.watch, List.foldl_append, List.foldl_cons, ← Effort.watch,
      Effort.look_of_cancelled hbefore hl]
    exact Effort.foldl_look_of_ended rfl after
  case never =>
    intro looks hlooks hstage
    have hpaced := (Effort.paced_watch hk hlooks).1
    generalize Effort.watch policy retryable (fun n => (call n).outcome) looks = e at *
    cases hpaced with
    | ended => exact RetryResult.ofOutcome_ne_aborted _ (Stage.ended.inj hstage)
    | _ => cases hstage
  case never_in_time =>
    intro now
    rw [hwhole now]
    exact RetryResult.ofOutcome_ne_aborted _
  case late =>
    intro now c hlt
    rw [hwhole now] at hlt ⊢
    exact run_of_isOpen hk (decide_eq_true hlt)
  case cut_short =>
    intro now c hle
    rw [hwhole now] at hle ⊢
    have hclosed : isOpen (some c) (endsAt policy call now k) = false :=
      decide_eq_false (Nat.not_lt.2 hle)
    rw [run_eq policy retryable call (some c) now hk, courseFrom, hclosed,
      seenAt_of_not_isOpen hclosed, Nat.sub_zero, Nat.sub_zero, ← List.range_eq_range',
      ← List.range_eq_range']
    exact ⟨rfl, rfl, rfl, (List.takeWhile_prefix _).map _⟩

end Retry

end SymbolPaths
