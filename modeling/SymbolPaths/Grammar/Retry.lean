import SymbolPaths.Grammar.Delay

/-!
# Trying again

An operation that may fail is called up to a number of times more than once,
with a delay between two calls that doubles each time. Whoever waits for it may
cancel it: that is seen before a call begins, and, whenever the waiting is
looked at again, before anything else is.

* `RetryPolicy.delayFor`: the delay before each further call;
* `Retry.step`: one look at an operation that is being called or waited with;
* `Retry.run`: the whole course of an operation in time.
-/

namespace SymbolPaths

/-- How often to try again, and how long to wait before the first time. -/
structure RetryPolicy where
  retries : UInt32
  baseDelay : Delay
  deriving DecidableEq, Repr, Inhabited

namespace RetryPolicy

/-- Three more attempts, a second before the first of them. -/
def standard : RetryPolicy := ⟨3, Delay.ofMilliseconds 1000⟩

/-- A single attempt. -/
def once : RetryPolicy := ⟨0, Delay.zero⟩

/-- The number of times that a delay is the base delay: it doubles, up to the
    largest number of 32 bits. -/
def factor (retry : UInt32) : Nat := if retry < 32 then 1 <<< retry.toNat else 4294967295

/-- The delay after the call that follows `retry` failed ones. -/
def delayFor (p : RetryPolicy) (retry : UInt32) : Delay := p.baseDelay.scale (factor retry)

end RetryPolicy

/-- How an operation ended. -/
inductive RetryResult (ε α : Type) where
  | ok (value : α)
  | aborted
  | failed (error : ε)
  deriving DecidableEq, Repr, Inhabited

namespace Retry

variable {ε α : Type}

/-- What an operation that was not given up yet is waiting for. -/
inductive Phase where
  /-- The call after `retry` failed ones is under way. -/
  | calling (retry : UInt32)
  /-- The delay after that call failed is running. -/
  | waiting (retry : UInt32)
  deriving DecidableEq, Repr, Inhabited

/-- What is seen when an operation is looked at. -/
inductive Signal (ε α : Type) where
  /-- The call ended. -/
  | returned (outcome : Except ε α)
  /-- The delay is over. -/
  | elapsed
  /-- Nothing happened. -/
  | idle

/-- What becomes of an operation that was looked at. -/
inductive Progress (ε α : Type) where
  | on (phase : Phase)
  | done (result : RetryResult ε α)
  deriving DecidableEq, Repr, Inhabited

/-- Begins an operation: it is called unless it was cancelled already. -/
def begin (cancelled : Bool) : Progress ε α :=
  if cancelled then .done .aborted else .on (.calling 0)

/-- Looks at an operation. A cancellation goes before all else; a failed call is
    repeated only while there are retries left, and if that makes sense. -/
def step (policy : RetryPolicy) (retryable : ε → Bool) (cancelled : Bool) (phase : Phase)
    (signal : Signal ε α) : Progress ε α :=
  if cancelled then .done .aborted
  else match phase, signal with
    | .calling _, .returned (.ok value) => .done (.ok value)
    | .calling retry, .returned (.error e) =>
      if policy.retries ≤ retry || !retryable e then .done (.failed e) else .on (.waiting retry)
    | .waiting retry, .elapsed => .on (.calling (retry + 1))
    | phase, _ => .on phase

/-! ### A course of time

Time is counted in milliseconds. Every call takes some time, and the operation
may be cancelled at one moment. -/

/-- What a call does when it is made: how long it takes and how it ends. -/
structure Call (ε α : Type) where
  duration : Nat
  outcome : Except ε α

/-- The course of an operation. -/
structure Course (ε α : Type) where
  /-- When each call began. -/
  begun : List Nat
  /-- The delays between the calls. -/
  delays : List Delay
  /-- How it ended, and when. -/
  result : RetryResult ε α
  finished : Nat

/-- The moment at which something due at `due` is seen, and whether the operation
    was cancelled by then. -/
def seenAt (cancelAt : Option Nat) (due : Nat) : Nat × Bool :=
  match cancelAt with
  | none => (due, false)
  | some c => if c ≤ due then (c, true) else (due, false)

/-- The course of an operation from a call on that begins `now`, after `retry`
    failed ones. It ends when `fuel` calls were made; one more than the retries
    that are left is enough. -/
def runFrom (policy : RetryPolicy) (retryable : ε → Bool) (call : Nat → Call ε α)
    (cancelAt : Option Nat) : Nat → UInt32 → Nat → Course ε α
  | 0, _, now => { begun := [], delays := [], result := .aborted, finished := now }
  | fuel + 1, retry, now =>
    let c := call retry.toNat
    let (seen, cancelled) := seenAt cancelAt (now + c.duration)
    match step policy retryable cancelled (.calling retry) (.returned c.outcome) with
    | .done result => { begun := [now], delays := [], result, finished := seen }
    | .on _ =>
      let delay := policy.delayFor retry
      let (woken, cancelled) := seenAt cancelAt (seen + delay.milliseconds)
      match step policy retryable cancelled (.waiting retry) (.elapsed : Signal ε α) with
      | .done result => { begun := [now], delays := [delay], result, finished := woken }
      | .on _ =>
        let rest := runFrom policy retryable call cancelAt fuel (retry + 1) woken
        { rest with begun := now :: rest.begun, delays := delay :: rest.delays }

/-- The course of an operation that begins `now`. -/
def run (policy : RetryPolicy) (retryable : ε → Bool) (call : Nat → Call ε α)
    (cancelAt : Option Nat) (now : Nat) : Course ε α :=
  let (_, cancelled) := seenAt cancelAt now
  match (begin cancelled : Progress ε α) with
  | .done result => { begun := [], delays := [], result, finished := now }
  | .on _ => runFrom policy retryable call cancelAt (policy.retries.toNat + 1) 0 now

end Retry

end SymbolPaths
