import Mathlib.Data.List.Induction
import Mathlib.Logic.Relation
import SymbolPaths.Proofs.Grammar.Turn

/-!
# Loads side by side

A loader with everyone who has called it: loads, and lists of languages that are
loaded ahead, one load after the other. At any moment one thing happens: somebody
calls, a load is resumed with some reply, a load is given up, or a language is
aborted. Which of these comes next, and which replies come, is left open, so the
engine, the disk and the network may do what they like.

Of each caller more is kept than the loader knows, to tell what became of it: the
number of its load also when that is over, whether the language was aborted
meanwhile, and how many downloads the load has begun.

* `Traffic.step`: what happens at an event;
* `Reachable`: the states that events lead to, and `Leads` those that they lead to from
  some moment on, if every event keeps to a condition;
* `happens_step`: an event other than an abortion concerns one caller at most (`Happens`);
* `comes_step`: what becomes of one caller at an event (`Comes`).

What has happened is a list of events or a relation between states, as it suits. Whoever proves
something of all states that events lead to does it by cases on what an event makes of the
callers: either for all callers at once, by `happens_step`, or for one that is followed from its
call to its end, by `comes_step`. In both the turns of loads stay closed, and are opened by the
laws of a turn.
-/

namespace SymbolPaths

namespace Load

/-- What came of a load. -/
def result? : Load → Option (Except AcquireError GrammarHandle)
  | finished result => some result
  | waiting _ _ => none

/-- Only a load that is over has a result. -/
theorem eq_finished_of_result? {load : Load} {result : Except AcquireError GrammarHandle}
    (h : load.result? = some result) : load = .finished result := by
  cases load with
  | waiting language wait => cases h
  | finished result => rw [Option.some.inj h]

/-- Whether a load has a download under way. -/
def isDownloading : Load → Bool
  | waiting _ wait => wait.isDownloading
  | finished _ => false

end Load

/-- A load as its caller sees it. -/
structure Caller where
  /-- The language that is asked for. -/
  lang : String
  /-- How far the load has come, unless it was given up. -/
  load : Option Load
  /-- The number under which the load was entered in the list, also when it is over. -/
  flight : Option Nat
  /-- Whether the language was aborted while the load was entered and not over. -/
  aborted : Bool
  /-- The number of downloads that the load has begun. -/
  downloads : Nat

namespace Caller

/-- A caller whose load has just started. -/
def start (s : LoaderState) (lang : String) : Caller :=
  { lang, load := some (Loader.begin s lang), flight := none, aborted := false, downloads := 0 }

/-- Whether the load was not given up and is not over. -/
def isRunning (c : Caller) : Bool := c.load.any fun load => !load.isFinished

/-- Whether the load has a download under way. -/
def isDownloading (c : Caller) : Bool := c.load.any Load.isDownloading

/-- What came of the load. -/
def result? (c : Caller) : Option (Except AcquireError GrammarHandle) := c.load.bind Load.result?

/-- The caller when the load has come further. -/
def carryOn (c : Caller) (load : Load) : Caller :=
  { c with
    load := some load
    flight := load.flight?.or c.flight
    downloads := c.downloads + if load.isDownloading && !c.isDownloading then 1 else 0 }

/-- The caller when the load was given up. -/
def giveUp (c : Caller) : Caller := { c with load := none }

/-- The caller when a language was aborted. -/
def abort (lang : String) (c : Caller) : Caller :=
  if c.lang = lang ∧ c.isRunning ∧ c.flight.isSome then { c with aborted := true } else c

section

variable (c : Caller) (load : Load) (lang : String)

@[simp] theorem lang_carryOn : (c.carryOn load).lang = c.lang := rfl
@[simp] theorem aborted_carryOn : (c.carryOn load).aborted = c.aborted := rfl
@[simp] theorem isRunning_carryOn : (c.carryOn load).isRunning = !load.isFinished := rfl

@[simp] theorem lang_abort : (c.abort lang).lang = c.lang := by
  rw [abort]
  split <;> rfl

@[simp] theorem load_abort : (c.abort lang).load = c.load := by
  rw [abort]
  split <;> rfl

@[simp] theorem flight_abort : (c.abort lang).flight = c.flight := by
  rw [abort]
  split <;> rfl

@[simp] theorem downloads_abort : (c.abort lang).downloads = c.downloads := by
  rw [abort]
  split <;> rfl

@[simp] theorem isRunning_abort : (c.abort lang).isRunning = c.isRunning := by
  rw [isRunning, load_abort, isRunning]

@[simp] theorem result?_abort : (c.abort lang).result? = c.result? := by
  rw [result?, load_abort, result?]

/-- An abortion marks a caller whose load has a number and is not over, and does nothing else to
    it. -/
theorem aborted_abort : (c.abort lang).aborted =
    (c.aborted || decide (c.lang = lang ∧ c.isRunning ∧ c.flight.isSome)) := by
  rw [abort]
  split
  · next h => simp [h]
  · next h => simp [h]

end

end Caller

/-- A list of languages that are loaded ahead. -/
structure Batch where
  /-- The languages that are still to be loaded. -/
  rest : List String
  /-- The caller of the last load that was started. -/
  current : Option Nat

/-- A loader and those who have called it. -/
structure Traffic where
  /-- What the loader remembers. -/
  state : LoaderState
  /-- The callers by their numbers. -/
  callers : List Caller
  /-- The lists that are loaded ahead, by their numbers. -/
  batches : List Batch

/-- What may happen. -/
inductive Event where
  /-- Somebody loads a language. -/
  | load (lang : String)
  /-- Somebody loads languages ahead. -/
  | preload (langs : List String)
  /-- The next language of a list is loaded, if the load before is over. -/
  | advance (batch : Nat)
  /-- A load is resumed with a reply. -/
  | resume (number : Nat) (reply : LoadReply)
  /-- A load is given up, and with it the list that it is of. -/
  | giveUp (number : Nat)
  /-- A language is aborted. -/
  | abort (lang : String)

namespace Traffic

/-- A loader that nobody has called. -/
def initial : Traffic := { state := .initial, callers := [], batches := [] }

/-- The load of a caller. -/
def load? (w : Traffic) (number : Nat) : Option Load := w.callers[number]?.bind (·.load)

/-- What came of the load of a caller. -/
def result? (w : Traffic) (number : Nat) : Option (Except AcquireError GrammarHandle) :=
  w.callers[number]?.bind Caller.result?

/-- Starts a load. -/
def call (w : Traffic) (lang : String) : Traffic :=
  { w with callers := w.callers ++ [Caller.start w.state lang] }

/-- Starts the next load of a list. -/
def advance (w : Traffic) (batch : Nat) : Traffic :=
  match w.batches[batch]? with
  | some { rest := lang :: rest, current } =>
    if current.all fun number => (w.load? number).any Load.isFinished then
      { w.call lang with
        batches := w.batches.set batch { rest, current := some w.callers.length } }
    else w
  | _ => w

/-- Carries a load on. -/
def resume (env : Loader) (w : Traffic) (number : Nat) (reply : LoadReply) : Traffic :=
  match w.load? number with
  | some load =>
    let (state, load) := Loader.resume env w.state load reply
    { w with state, callers := w.callers.modify number (·.carryOn load) }
  | none => w

/-- Gives a load up. -/
def giveUp (w : Traffic) (number : Nat) : Traffic :=
  match w.load? number with
  | some load =>
    if load.isFinished then w
    else { w with
      state := Loader.drop w.state load
      callers := w.callers.modify number Caller.giveUp }
  | none => w

/-- Aborts a language. -/
def abort (w : Traffic) (lang : String) : Traffic :=
  { w with state := (w.state.abort lang).1, callers := w.callers.map (Caller.abort lang) }

/-- What happens at an event. -/
def step (env : Loader) (w : Traffic) : Event → Traffic
  | .load lang => w.call lang
  | .preload langs => { w with batches := w.batches ++ [{ rest := langs, current := none }] }
  | .advance batch => w.advance batch
  | .resume number reply => w.resume env number reply
  | .giveUp number => w.giveUp number
  | .abort lang => w.abort lang

/-- Whether events lead from one moment to another, each of which keeps to a
    condition. -/
def Leads (env : Loader) (keep : Traffic → Event → Prop) : Traffic → Traffic → Prop :=
  Relation.ReflTransGen fun w w' => ∃ e, keep w e ∧ w' = w.step env e

/-- The states that events lead to. -/
def Reachable (env : Loader) : Traffic → Prop := Leads env (fun _ _ => True) initial

/-- The state that given events lead to. -/
def after (env : Loader) (events : List Event) : Traffic := events.foldl (step env) initial

/-- Any list of events leads to a state that can be reached. -/
theorem reachable_after (env : Loader) (events : List Event) :
    Reachable env (after env events) := by
  induction events using List.reverseRecOn with
  | nil => exact .refl
  | append_singleton events e ih =>
    rw [after, List.foldl_append]
    exact .tail ih ⟨e, trivial, rfl⟩

/-! ### Events -/

variable {env : Loader} {w w' : Traffic} {number : Nat} {c : Caller} {language : Language}
  {wait : LoadWait} {reply : LoadReply}

/-- Whether two lists of callers differ at most in one place, where the second has a
    given caller. -/
def Updates (callers callers' : List Caller) (number : Nat) (c : Caller) : Prop :=
  ∀ i, callers'[i]? = if i = number then some c else callers[i]?

/-- Changing the caller at one place leaves those at all others. -/
theorem updates_modify {callers : List Caller} (hc : callers[number]? = some c)
    (f : Caller → Caller) : Updates callers (callers.modify number f) number (f c) := by
  intro i
  rw [List.getElem?_modify]
  by_cases hi : number = i
  · subst hi
    simp [hc]
  · simp [hi, Ne.symm hi]

/-- A new caller comes last and leaves all others where they are. -/
theorem updates_append (callers : List Caller) (c : Caller) :
    Updates callers (callers ++ [c]) callers.length c := by
  intro i
  by_cases hi : i = callers.length
  · simp [hi]
  · rw [if_neg hi, List.getElem?_append]
    split
    · rfl
    · next hlt =>
      rw [List.getElem?_eq_none (by simp; omega), List.getElem?_eq_none (by omega)]

/-- What an event makes of what the loader remembers and of the callers. -/
inductive Happens (env : Loader) (w : Traffic) : Event → LoaderState → List Caller → Prop
  /-- It concerns nobody. -/
  | nothing {e : Event} : Happens env w e w.state w.callers
  /-- Somebody calls. -/
  | calls {e : Event} {lang : String} {callers : List Caller} :
      Updates w.callers callers w.callers.length (Caller.start w.state lang) →
      Happens env w e w.state callers
  /-- A load has its turn. -/
  | turns {number : Nat} {reply : LoadReply} {c : Caller} {language : Language} {wait : LoadWait}
      {state : LoaderState} {load : Load} {callers : List Caller} :
      w.callers[number]? = some c → c.load = some (.waiting language wait) →
      Loader.Turn env w.state language reply wait state load →
      Updates w.callers callers number (c.carryOn load) →
      Happens env w (.resume number reply) state callers
  /-- A load is given up. -/
  | leaves {number : Nat} {c : Caller} {language : Language} {wait : LoadWait}
      {callers : List Caller} :
      w.callers[number]? = some c → c.load = some (.waiting language wait) →
      Updates w.callers callers number c.giveUp →
      Happens env w (.giveUp number) (Loader.drop w.state (.waiting language wait)) callers
  /-- A language is aborted, which all its callers hear of. -/
  | aborts {lang : String} :
      Happens env w (.abort lang) (w.state.abort lang).1 (w.callers.map (Caller.abort lang))

theorem load?_eq_some_iff {load : Load} : w.load? number = some load ↔
    ∃ c, w.callers[number]? = some c ∧ c.load = some load :=
  Option.bind_eq_some_iff

theorem load_of_load? {load : Load} (hc : w.callers[number]? = some c)
    (hload : w.load? number = some load) : c.load = some load := by
  rwa [load?, hc, Option.bind_some] at hload

/-- To resume a load is to change what the loader remembers and the load of one caller. -/
theorem step_resume {load : Load} (hc : w.callers[number]? = some c) (hload : c.load = some load) :
    w.step env (.resume number reply) =
      { w with
        state := (Loader.resume env w.state load reply).1
        callers := w.callers.modify number
          (·.carryOn (Loader.resume env w.state load reply).2) } := by
  have hw : w.load? number = some load := load?_eq_some_iff.2 ⟨c, hc, hload⟩
  simp only [step, resume, hw]

/-- To give up a load that is under way is to forget what the loader remembers of it, and the load
    itself. -/
theorem step_giveUp {load : Load} (hc : w.callers[number]? = some c) (hload : c.load = some load)
    (hrunning : load.isFinished = false) : w.step env (.giveUp number) =
      { w with
        state := Loader.drop w.state load
        callers := w.callers.modify number Caller.giveUp } := by
  have hw : w.load? number = some load := load?_eq_some_iff.2 ⟨c, hc, hload⟩
  simp only [step, giveUp, hw, hrunning, Bool.false_eq_true, if_false]

/-- Whose load is resumed has the load then that it has come to. -/
theorem getElem?_callers_resume_self {load : Load} (hc : w.callers[number]? = some c)
    (hload : c.load = some load) : (w.step env (.resume number reply)).callers[number]? =
      some (c.carryOn (Loader.resume env w.state load reply).2) := by
  rw [step_resume hc hload]
  exact (updates_modify hc _ number).trans (if_pos rfl)

/-- What came of a resumed load is told by the load that it has come to. -/
theorem result?_resume {load : Load} (hc : w.callers[number]? = some c)
    (hload : c.load = some load) : (w.step env (.resume number reply)).result? number =
      (Loader.resume env w.state load reply).2.result? := by
  rw [result?, getElem?_callers_resume_self hc hload]
  rfl

/-- Only the caller whose load is resumed sees it. -/
theorem getElem?_callers_resume {i : Nat} (hi : i ≠ number) (reply : LoadReply) :
    (w.step env (.resume number reply)).callers[i]? = w.callers[i]? := by
  simp only [step, resume]
  split
  · rw [List.getElem?_modify_ne _ _ (Ne.symm hi)]
  · rfl

/-- Only the caller who gives up a load sees it. -/
theorem getElem?_callers_giveUp {i : Nat} (hi : i ≠ number) :
    (w.step env (.giveUp number)).callers[i]? = w.callers[i]? := by
  simp only [step, giveUp]
  split
  · split
    · rfl
    · rw [List.getElem?_modify_ne _ _ (Ne.symm hi)]
  · rfl

/-- A load that is over stays as it is. -/
theorem carryOn_finished {result : Except AcquireError GrammarHandle}
    (hload : c.load = some (.finished result)) : c.carryOn (.finished result) = c := by
  obtain ⟨lang, load, flight, aborted, downloads⟩ := c
  obtain rfl : load = _ := hload
  rfl

variable (env) in
/-- All that an event does is one of these things, by cases on what the event is about: a number
    that nobody has, a load that is over, or one that waits. -/
theorem happens_step (hfresh : w.state.isCancelled (w.state.lastFlight + 1) = false) (e : Event) :
    Happens env w e (w.step env e).state (w.step env e).callers := by
  cases e with
  | load lang => exact .calls (updates_append _ _)
  | preload langs => exact .nothing
  | advance batch =>
    simp only [step, advance]
    split
    · split
      · exact .calls (updates_append _ _)
      · exact .nothing
    · exact .nothing
  | resume number reply =>
    cases hw : w.load? number with
    | none =>
      have hstep : w.step env (.resume number reply) = w := by simp only [step, resume, hw]
      rw [hstep]
      exact .nothing
    | some load =>
      obtain ⟨c, hc, hload⟩ := load?_eq_some_iff.1 hw
      rw [step_resume hc hload]
      cases load with
      | waiting language wait =>
        exact .turns hc hload (Loader.turn_resume hfresh wait) (updates_modify hc _)
      | finished result =>
        -- Nothing resumes a load that is over.
        have hsame : w.callers.modify number (·.carryOn (.finished result)) = w.callers := by
          refine List.ext_getElem? fun i => ?_
          rw [updates_modify hc _ i]
          split
          · next hi => rw [hi, hc, carryOn_finished hload]
          · rfl
        simp only [Loader.resume, hsame]
        exact .nothing
  | giveUp number =>
    cases hw : w.load? number with
    | none =>
      have hstep : w.step env (.giveUp number) = w := by simp only [step, giveUp, hw]
      rw [hstep]
      exact .nothing
    | some load =>
      obtain ⟨c, hc, hload⟩ := load?_eq_some_iff.1 hw
      cases load with
      | waiting language wait =>
        rw [step_giveUp hc hload rfl]
        exact .leaves hc hload (updates_modify hc _)
      | finished result =>
        have hstep : w.step env (.giveUp number) = w := by
          simp only [step, giveUp, hw, Load.isFinished, if_true]
        rw [hstep]
        exact .nothing
  | abort lang => exact .aborts

/-- What an event makes of one caller, when it makes `s'` of what the loader remembers. -/
inductive Comes (env : Loader) (s s' : LoaderState) (number : Nat) (c : Caller) :
    Event → Caller → Prop
  /-- The event is about others. -/
  | stays {e : Event} : Comes env s s' number c e c
  /-- The load has its turn. -/
  | turns {reply : LoadReply} {language : Language} {wait : LoadWait} {load : Load} :
      c.load = some (.waiting language wait) → Loader.Turn env s language reply wait s' load →
      Comes env s s' number c (.resume number reply) (c.carryOn load)
  /-- The load is given up. -/
  | leaves {language : Language} {wait : LoadWait} : c.load = some (.waiting language wait) →
      Comes env s s' number c (.giveUp number) c.giveUp
  /-- Some language is aborted. -/
  | aborts {lang : String} : Comes env s s' number c (.abort lang) (c.abort lang)

/-- Who has called is there for good. -/
theorem comes_step (hfresh : w.state.isCancelled (w.state.lastFlight + 1) = false) (e : Event)
    (hc : w.callers[number]? = some c) :
    ∃ c', (w.step env e).callers[number]? = some c' ∧
      Comes env w.state (w.step env e).state number c e c' := by
  have hhappens := happens_step env hfresh e
  generalize (w.step env e).state = s', (w.step env e).callers = callers' at hhappens ⊢
  -- Another caller than the one concerned stays as it was.
  have hother {callers' : List Caller} {n : Nat} {d : Caller} {e : Event} {s' : LoaderState}
      (hupdates : Updates w.callers callers' n d) (hne : number ≠ n) :
      ∃ c', callers'[number]? = some c' ∧ Comes env w.state s' number c e c' :=
    ⟨c, (hupdates number).trans ((if_neg hne).trans hc), .stays⟩
  cases hhappens with
  | nothing => exact ⟨c, hc, .stays⟩
  | calls hupdates =>
    refine hother hupdates fun hn => ?_
    rw [hn, List.getElem?_eq_none (Nat.le_refl _)] at hc
    cases hc
  | @turns n reply d language wait _ load _ hd hload hturn hupdates =>
    by_cases hn : number = n
    · subst hn
      obtain rfl := Option.some.inj (hc.symm.trans hd)
      exact ⟨_, (hupdates number).trans (if_pos rfl), .turns hload hturn⟩
    · exact hother hupdates hn
  | @leaves n d language wait _ hd hload hupdates =>
    by_cases hn : number = n
    · subst hn
      obtain rfl := Option.some.inj (hc.symm.trans hd)
      exact ⟨_, (hupdates number).trans (if_pos rfl), .leaves hload⟩
    · exact hother hupdates hn
  | aborts => exact ⟨_, by rw [List.getElem?_map, hc]; rfl, .aborts⟩

/-- Who comes in at an event has just called. -/
theorem start_of_step (hfresh : w.state.isCancelled (w.state.lastFlight + 1) = false) {e : Event}
    (hnone : w.callers[number]? = none) (hc : (w.step env e).callers[number]? = some c) :
    ∃ lang, c = Caller.start w.state lang := by
  have hhappens := happens_step env hfresh e
  generalize (w.step env e).state = s', (w.step env e).callers = callers' at hhappens hc
  have hthere {n : Nat} {d d' : Caller} (hd : w.callers[n]? = some d)
      (hupdates : Updates w.callers callers' n d') : False := by
    have hn : number ≠ n := by
      rintro rfl
      cases hnone.symm.trans hd
    rw [hupdates number, if_neg hn, hnone] at hc
    cases hc
  cases hhappens with
  | nothing => cases hnone.symm.trans hc
  | calls hupdates =>
    rw [hupdates number] at hc
    split at hc
    · exact ⟨_, (Option.some.inj hc).symm⟩
    · cases hnone.symm.trans hc
  | turns hd _ _ hupdates => exact (hthere hd hupdates).elim
  | leaves hd _ hupdates => exact (hthere hd hupdates).elim
  | aborts =>
    rw [List.getElem?_map, hnone] at hc
    cases hc

end Traffic

end SymbolPaths
