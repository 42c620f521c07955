import Mathlib.Data.List.Forall2
import SymbolPaths.Grammar.Engine
import SymbolPaths.Proofs.Grammar.Attempts

/-!
# The engine that comes up

Strategies are tried in order, each as often as there are retries, until one delivers an
engine. If none does, nothing is kept but the number of attempts, and the next time it all
starts over. Once there is an engine no strategy is attempted any more.

* `exhausts_or_delivers`: what a strategy comes to when it is tried;
* `resolve_append`: what comes of the strategies after those that are exhausted;
* `isTried_resolve`: what comes of all of them (`IsTried`);
* `isSteady`: what comes of asking for the engine again and again (`IsSteady`).

The outcomes of a strategy are given for all its attempts from the first one on, whenever they are
made, and a cell remembers how many of them were made. So asking again is the same as asking a
cell whose strategies are further on, and what is proved of the first time holds of every time.

How it ends is stated in the words of the failure: the reports of all strategies in their order,
each with its name and its last failure, or that no strategy is configured.
-/

namespace SymbolPaths

namespace EngineCell

variable {τ : Type} {policy : RetryPolicy} {strategy : EngineStrategy τ × Nat}
  {strategies rest : List (EngineStrategy τ × Nat)} {reason : String}
  {reasons failures : List String} {k : Nat} {engine : τ}

/-- How the attempts end that are made with a strategy from now on. -/
def outcome (strategy : EngineStrategy τ × Nat) (n : Nat) : Except String τ :=
  strategy.1.create (strategy.2 + n)

/-- Whether a strategy fails as often as it may be attempted, the last time for a reason. -/
structure Exhausts (policy : RetryPolicy) (strategy : EngineStrategy τ × Nat) (reason : String) :
    Prop where
  /-- The first attempt fails, and so does every repetition. -/
  fails : ∀ n ≤ policy.retries.toNat, ∃ e, outcome strategy n = .error e
  /-- The last failure is the one that is reported. -/
  last : outcome strategy policy.retries.toNat = .error reason

/-- Whether a strategy delivers an engine after a number of failed attempts, before it is
    exhausted. -/
structure Delivers (policy : RetryPolicy) (strategy : EngineStrategy τ × Nat) (k : Nat)
    (engine : τ) : Prop where
  /-- The attempt that succeeds is still allowed. -/
  le_retries : k ≤ policy.retries.toNat
  /-- All attempts before it fail. -/
  fails : ∀ n < k, ∃ e, outcome strategy n = .error e
  /-- It delivers the engine. -/
  last : outcome strategy k = .ok engine

/-! ### One strategy -/

/-- Every failure of a strategy is worth another attempt. -/
theorem isLast_iff {outcome : Nat → Except String τ} {n : Nat} :
    Retry.IsLast policy (fun _ => true) outcome n ↔
      (∃ engine, outcome n = .ok engine) ∨ n = policy.retries.toNat := by
  simp [Retry.IsLast]

/-- The last attempt with a strategy that is exhausted is the one after all retries. -/
theorem Exhausts.isDecidedAt (h : Exhausts policy strategy reason) :
    Retry.IsDecidedAt policy (fun _ => true) (outcome strategy) policy.retries.toNat := by
  refine ⟨isLast_iff.2 (.inr rfl), fun n hn => ?_⟩
  rcases isLast_iff.1 hn with ⟨engine, hok⟩ | rfl
  · by_contra hlt
    obtain ⟨e, he⟩ := h.fails n (Nat.le_of_not_le hlt)
    cases hok.symm.trans he
  · exact Nat.le_refl _

/-- The last attempt with a strategy that delivers an engine is the one that does. -/
theorem Delivers.isDecidedAt (h : Delivers policy strategy k engine) :
    Retry.IsDecidedAt policy (fun _ => true) (outcome strategy) k := by
  refine ⟨isLast_iff.2 (.inl ⟨engine, h.last⟩), fun n hn => ?_⟩
  rcases isLast_iff.1 hn with ⟨engine, hok⟩ | rfl
  · by_contra hlt
    obtain ⟨e, he⟩ := h.fails n (Nat.lt_of_not_le hlt)
    cases hok.symm.trans he
  · exact h.le_retries

/-- A strategy is exhausted or delivers an engine, by what comes of its last attempt. -/
theorem exhausts_or_delivers (policy : RetryPolicy) (strategy : EngineStrategy τ × Nat) :
    (∃ reason, Exhausts policy strategy reason) ∨
      ∃ k engine, Delivers policy strategy k engine := by
  obtain ⟨k, hk⟩ := Retry.exists_isDecidedAt policy (fun _ => true) (outcome strategy)
  have hfails (n : Nat) (hn : n < k) : ∃ e, outcome strategy n = .error e := by
    cases hn' : outcome strategy n with
    | error e => exact ⟨e, rfl⟩
    | ok engine => exact absurd (hk.2 (isLast_iff.2 (.inl ⟨engine, hn'⟩))) (Nat.not_le.2 hn)
  cases hlast : outcome strategy k with
  | ok engine => exact .inr ⟨k, engine, hk.le_retries, hfails, hlast⟩
  | error reason =>
    obtain rfl : k = policy.retries.toNat := by
      rcases isLast_iff.1 hk.1 with ⟨engine, hok⟩ | heq
      · cases hlast.symm.trans hok
      · exact heq
    refine .inl ⟨reason, fun n hn => ?_, hlast⟩
    rcases Nat.lt_or_eq_of_le hn with hlt | rfl
    · exact hfails n hlt
    · exact ⟨reason, hlast⟩

/-- What comes of a strategy is what comes of trying again. -/
theorem course_eq (hk : Retry.IsDecidedAt policy (fun _ => true) (outcome strategy) k) :
    let course := Retry.run policy (fun _ => true)
      (fun n => { duration := 0, outcome := strategy.1.create (strategy.2 + n) }) none 0
    course.begun.length = k + 1 ∧ course.delays = policy.delays k ∧
      course.result = .ofOutcome (outcome strategy k) := by
  intro course
  have hcourse : course = _ := Retry.run_of_isOpen hk rfl
  simp only [course, hcourse, List.length_map, List.length_range, true_and]
  rfl

/-! ### All strategies -/

/-- What is told of strategies that are exhausted. -/
def report (strategies : List (EngineStrategy τ × Nat)) (reasons : List String) : List String :=
  List.zipWith (fun strategy reason => strategy.1.name ++ ": " ++ reason) strategies reasons

/-- Of every strategy that is exhausted something is told. -/
theorem report_eq_nil_iff (h : List.Forall₂ (Exhausts policy) strategies reasons) :
    report strategies reasons = [] ↔ strategies = [] := by
  cases h <;> simp [report]

/-- The failure tells of all strategies in their order, or that there are none. -/
theorem exhausted_report (h : List.Forall₂ (Exhausts policy) strategies reasons) :
    exhausted (report strategies reasons) =
      .engineInit (if strategies.isEmpty then "no engine strategy configured"
        else "; ".intercalate (report strategies reasons)) := by
  have hempty : (report strategies reasons).isEmpty = strategies.isEmpty := by
    rw [Bool.eq_iff_iff, List.isEmpty_iff, List.isEmpty_iff, report_eq_nil_iff h]
  rw [exhausted, hempty]
  split
  · -- A single text is joined to itself.
    rfl
  · rfl

/-- What comes of strategies that are exhausted one after another, if this comes of those
    after them. -/
def Answer.after (policy : RetryPolicy) (strategies : List (EngineStrategy τ × Nat))
    (answer : Answer τ) : Answer τ :=
  { result := answer.result
    calls := strategies.flatMap (fun strategy =>
      List.replicate (policy.retries.toNat + 1) strategy.1.name) ++ answer.calls
    delays := strategies.flatMap (fun _ => policy.delays policy.retries.toNat) ++ answer.delays
    attempts := strategies.map (fun strategy => strategy.2 + (policy.retries.toNat + 1)) ++
      answer.attempts }

/-- What comes of a strategy that delivers an engine, and of those after it. -/
def Answer.found (policy : RetryPolicy) (strategy : EngineStrategy τ × Nat) (k : Nat) (engine : τ)
    (rest : List (EngineStrategy τ × Nat)) : Answer τ :=
  { result := .ok engine
    calls := List.replicate (k + 1) strategy.1.name
    delays := policy.delays k
    attempts := (strategy.2 + (k + 1)) :: rest.map (·.2) }

/-- A strategy that is exhausted adds its attempts and its last failure to what comes of those after
    it. -/
theorem resolve_of_exhausts (h : Exhausts policy strategy reason) :
    resolve policy failures (strategy :: rest) =
      (resolve policy (failures ++ report [strategy] [reason]) rest).after policy [strategy] := by
  obtain ⟨hbegun, hdelays, hresult⟩ := course_eq h.isDecidedAt
  rw [h.last] at hresult
  simp only [resolve, hbegun, hdelays, hresult, RetryResult.ofOutcome]
  simp [Answer.after, report]

/-- A strategy that delivers an engine ends the search, and those after it are not attempted. -/
theorem resolve_of_delivers (h : Delivers policy strategy k engine) :
    resolve policy failures (strategy :: rest) = .found policy strategy k engine rest := by
  obtain ⟨hbegun, hdelays, hresult⟩ := course_eq h.isDecidedAt
  rw [h.last] at hresult
  simp only [resolve, hbegun, hdelays, hresult, RetryResult.ofOutcome]
  rfl

/-- Strategies that are exhausted one after another add their attempts and last failures, by
    induction from the first of them. -/
theorem resolve_append (h : List.Forall₂ (Exhausts policy) strategies reasons) :
    resolve policy failures (strategies ++ rest) =
      (resolve policy (failures ++ report strategies reasons) rest).after policy strategies := by
  induction h generalizing failures with
  | nil => simp [report, Answer.after]
  | @cons strategy reason strategies reasons hstrategy _ ih =>
    rw [List.cons_append, resolve_of_exhausts hstrategy, ih, List.append_assoc]
    simp [report, Answer.after]

/-- What comes of trying strategies in order. -/
inductive IsTried (policy : RetryPolicy) (strategies : List (EngineStrategy τ × Nat)) :
    Answer τ → Prop
  /-- Each of them is attempted as often as it may be, and the last failure of each is told, or
      that there are none. -/
  | fails {reasons : List String} : List.Forall₂ (Exhausts policy) strategies reasons →
      IsTried policy strategies (Answer.after policy strategies
        { result := .error (.engineInit
            (if strategies.isEmpty then "no engine strategy configured"
              else "; ".intercalate (report strategies reasons)))
          calls := [], delays := [], attempts := [] })
  /-- So is each of those before the first one that delivers an engine. Those after it are not
      attempted. -/
  | finds {front rest : List (EngineStrategy τ × Nat)} {reasons : List String}
      {strategy : EngineStrategy τ × Nat} {k : Nat} {engine : τ} :
      strategies = front ++ strategy :: rest → List.Forall₂ (Exhausts policy) front reasons →
      Delivers policy strategy k engine →
      IsTried policy strategies (Answer.after policy front (.found policy strategy k engine rest))

/-- Either all strategies are exhausted, or there is a first one that is not, and delivers an
    engine. -/
theorem exists_front (policy : RetryPolicy) (strategies : List (EngineStrategy τ × Nat)) :
    (∃ reasons, List.Forall₂ (Exhausts policy) strategies reasons) ∨
      ∃ front strategy rest reasons k engine, strategies = front ++ strategy :: rest ∧
        List.Forall₂ (Exhausts policy) front reasons ∧ Delivers policy strategy k engine := by
  induction strategies with
  | nil => exact .inl ⟨[], .nil⟩
  | cons strategy strategies ih =>
    rcases exhausts_or_delivers policy strategy with ⟨reason, hreason⟩ | ⟨k, engine, hdelivers⟩
    · rcases ih with ⟨reasons, hall⟩ | ⟨front, s, rest, reasons, k, engine, rfl, hfront, hs⟩
      · exact .inl ⟨_, .cons hreason hall⟩
      · exact .inr ⟨strategy :: front, s, rest, _, k, engine, rfl, .cons hreason hfront, hs⟩
    · exact .inr ⟨[], strategy, strategies, [], k, engine, rfl, .nil, hdelivers⟩

/-- Whatever the strategies do, they are tried as they should be. -/
theorem isTried_resolve (policy : RetryPolicy) (strategies : List (EngineStrategy τ × Nat)) :
    IsTried policy strategies (resolve policy [] strategies) := by
  rcases exists_front policy strategies with
    ⟨reasons, hall⟩ | ⟨front, s, rest, reasons, k, engine, rfl, hfront, hs⟩
  · have hresolve : resolve policy [] (strategies ++ []) = _ := resolve_append hall
    rw [List.append_nil] at hresolve
    rw [hresolve, resolve, List.nil_append, exhausted_report hall]
    exact .fails hall
  · rw [resolve_append hfront, resolve_of_delivers hs]
    exact .finds rfl hfront hs

/-! ### Again and again -/

/-- The cell when the engine was asked for so many times. -/
def after (cell : EngineCell τ) (n : Nat) : EngineCell τ := (fun c => c.getOrInit.1)^[n] cell

/-- What comes of asking for the engine when it was asked for so many times before. -/
def answer (cell : EngineCell τ) (n : Nat) : Answer τ := (cell.after n).getOrInit.2

theorem after_succ (cell : EngineCell τ) (n : Nat) :
    cell.after (n + 1) = (cell.after n).getOrInit.1 :=
  Function.iterate_succ_apply' ..

theorem getOrInit_of_some {cell : EngineCell τ} (h : cell.engine = some engine) :
    cell.getOrInit =
      (cell, { result := .ok engine, calls := [], delays := [], attempts := cell.attempts }) := by
  rw [getOrInit, h]

/-- Without an engine all strategies are tried, each from where it stopped the last time. -/
theorem getOrInit_of_none {cell : EngineCell τ} (h : cell.engine = none) :
    cell.getOrInit =
      let answer := resolve cell.policy [] (cell.strategies.zip cell.attempts)
      ({ cell with engine := answer.result.toOption, attempts := answer.attempts }, answer) := by
  rw [getOrInit, h]

/-- The strategies when each of them was exhausted so many times. -/
def exhaustedTimes (policy : RetryPolicy) (strategies : List (EngineStrategy τ)) (n : Nat) :
    List (EngineStrategy τ × Nat) :=
  strategies.map fun strategy => (strategy, n * (policy.retries.toNat + 1))

/-- Where no strategy delivers an engine, each of them is attempted as often as it may be. -/
theorem IsTried.attempts_of_toOption {answer : Answer τ} (h : IsTried policy strategies answer)
    (hnone : answer.result.toOption = none) :
    answer.attempts = strategies.map fun strategy => strategy.2 + (policy.retries.toNat + 1) := by
  cases h with
  | fails => exact List.append_nil _
  | finds => cases hnone

/-- If no strategy delivers an engine from the attempts of this time, all that is kept are their
    numbers. -/
theorem getOrInit_of_exhausted {strategies : List (EngineStrategy τ)} {n : Nat}
    {cell : EngineCell τ}
    (h : cell = { make strategies policy with
      attempts := strategies.map fun _ => n * (policy.retries.toNat + 1) }) :
    cell.getOrInit =
      let answer := resolve policy [] (exhaustedTimes policy strategies n)
      ({ cell with engine := answer.result.toOption, attempts := answer.attempts }, answer) := by
  subst h
  rw [exhaustedTimes, List.map_prod_left_eq_zip]
  exact getOrInit_of_none rfl

/-- A cell that is still empty has exhausted every strategy each time. -/
theorem after_of_engine_eq_none {strategies : List (EngineStrategy τ)} {n : Nat}
    (h : ((make strategies policy).after n).engine = none) :
    (make strategies policy).after n =
      { make strategies policy with
        attempts := strategies.map fun _ => n * (policy.retries.toNat + 1) } := by
  induction n with
  | zero => simp [after, make]
  | succ n ih =>
    rw [after_succ] at h ⊢
    cases hengine : ((make strategies policy).after n).engine with
    | some engine =>
      rw [getOrInit_of_some hengine, hengine] at h
      cases h
    | none =>
      rw [getOrInit_of_exhausted (ih hengine)] at h ⊢
      have hattempts := (isTried_resolve policy _).attempts_of_toOption h
      simp only at h
      simp only [h, hattempts, ih hengine]
      simp only [exhaustedTimes, List.map_map, Function.comp_def, Nat.succ_mul]
      rfl

/-- Once there is an engine the cell stays as it is. -/
theorem after_of_engine_eq_some {cell : EngineCell τ} {n m : Nat}
    (h : (cell.after n).engine = some engine) (hle : n ≤ m) : cell.after m = cell.after n := by
  induction hle with
  | refl => rfl
  | step _ ih => rw [after_succ, ih, getOrInit_of_some h]

/-- What was found is what is kept. -/
theorem engine_getOrInit (cell : EngineCell τ) :
    cell.getOrInit.1.engine = cell.getOrInit.2.result.toOption ∧
      cell.getOrInit.1.attempts = cell.getOrInit.2.attempts := by
  cases h : cell.engine with
  | some engine =>
    rw [getOrInit_of_some h]
    exact ⟨h, rfl⟩
  | none =>
    rw [getOrInit_of_none h]
    exact ⟨rfl, rfl⟩

/-- What comes of asking for the engine again and again. -/
structure IsSteady (policy : RetryPolicy) (strategies : List (EngineStrategy τ)) : Prop where
  /-- As long as there is no engine, the strategies are tried from the first on, each of them
      after it was exhausted as often as the engine was asked for. -/
  tried : ∀ n, ((make strategies policy).after n).engine = none →
    IsTried policy (exhaustedTimes policy strategies n) ((make strategies policy).answer n)
  /-- An engine that is found is kept, and nothing is if none is found. -/
  kept : ∀ n, ((make strategies policy).after (n + 1)).engine =
    ((make strategies policy).answer n).result.toOption
  /-- From then on it is what comes of asking for the engine, and nothing is attempted. -/
  found : ∀ n m engine, ((make strategies policy).answer n).result = .ok engine → n < m →
    (make strategies policy).answer m =
      { result := .ok engine, calls := [], delays := [],
        attempts := ((make strategies policy).answer n).attempts }

/-- By induction on how often the engine was asked for: as long as there is none, every time starts
    where the last one stopped. -/
theorem isSteady (policy : RetryPolicy) (strategies : List (EngineStrategy τ)) :
    IsSteady policy strategies := by
  constructor
  case tried =>
    intro n hnone
    rw [answer, getOrInit_of_exhausted (after_of_engine_eq_none hnone)]
    exact isTried_resolve policy _
  case kept =>
    intro n
    rw [after_succ]
    exact (engine_getOrInit _).1
  case found =>
    intro n m engine hfound hlt
    obtain ⟨hengine, hattempts⟩ := engine_getOrInit ((make strategies policy).after n)
    rw [← answer, hfound, ← after_succ] at hengine
    rw [answer, after_of_engine_eq_some hengine hlt, getOrInit_of_some hengine, after_succ,
      hattempts, ← answer]

end EngineCell

end SymbolPaths
