import SymbolPaths.Failure
import SymbolPaths.Grammar.Retry

/-!
# The engine

Grammars run on an engine, of which there may be several kinds. The kinds are
tried in order, each with retries, and the first engine that comes up is kept
for good. If none does, nothing is kept, and the next attempt starts over.
-/

namespace SymbolPaths

/-- One way to create an engine of type `τ`. -/
structure EngineStrategy (τ : Type) where
  name : String
  /-- What the `n`-th attempt ever made comes to. -/
  create : Nat → Except String τ

/-- The place for the engine. -/
structure EngineCell (τ : Type) where
  strategies : List (EngineStrategy τ)
  policy : RetryPolicy
  /-- The engine, once there is one. -/
  engine : Option τ
  /-- How often each strategy was attempted so far, in their order. -/
  attempts : List Nat

namespace EngineCell

variable {τ : Type}

/-- A cell without an engine. -/
def make (strategies : List (EngineStrategy τ)) (policy : RetryPolicy) : EngineCell τ :=
  { strategies, policy, engine := none, attempts := strategies.map fun _ => 0 }

/-- What came of asking for the engine. -/
structure Answer (τ : Type) where
  result : Except AcquireError τ
  /-- The strategies that were attempted, once for each attempt. -/
  calls : List String
  /-- The delays between the attempts. -/
  delays : List Delay
  /-- How often each strategy was attempted since the beginning. -/
  attempts : List Nat

/-- The failure when no strategy came up with an engine. -/
def exhausted (failures : List String) : AcquireError :=
  .engineInit ("; ".intercalate
    (if failures.isEmpty then ["no engine strategy configured"] else failures))

/-- Tries strategies in order, each with the number of attempts made before. -/
def resolve (policy : RetryPolicy) (failures : List String) :
    List (EngineStrategy τ × Nat) → Answer τ
  | [] => { result := .error (exhausted failures), calls := [], delays := [], attempts := [] }
  | (s, before) :: rest =>
    let course := Retry.run policy (fun _ => true)
      (fun n => { duration := 0, outcome := s.create (before + n) }) none 0
    let made := course.begun.length
    let calls := List.replicate made s.name
    match course.result with
    | .ok engine =>
      { result := .ok engine, calls, delays := course.delays,
        attempts := (before + made) :: rest.map (·.2) }
    | .failed reason =>
      let answer := resolve policy (failures ++ [s.name ++ ": " ++ reason]) rest
      { answer with
        calls := calls ++ answer.calls
        delays := course.delays ++ answer.delays
        attempts := (before + made) :: answer.attempts }
    | .aborted =>
      let answer := resolve policy (failures ++ [s.name ++ ": aborted"]) rest
      { answer with
        calls := calls ++ answer.calls
        delays := course.delays ++ answer.delays
        attempts := (before + made) :: answer.attempts }

/-- Asks for the engine, which is created if there is none yet. -/
def getOrInit (cell : EngineCell τ) : EngineCell τ × Answer τ :=
  match cell.engine with
  | some engine =>
    (cell, { result := .ok engine, calls := [], delays := [], attempts := cell.attempts })
  | none =>
    let answer := resolve cell.policy [] (cell.strategies.zip cell.attempts)
    ({ cell with engine := answer.result.toOption, attempts := answer.attempts }, answer)

end EngineCell

end SymbolPaths
