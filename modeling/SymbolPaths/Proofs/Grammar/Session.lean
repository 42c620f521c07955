import SymbolPaths.Grammar.Session
import SymbolPaths.Proofs.Grammar.Alone

/-!
# A load in a session

While one waits for a load in a session where all loads before it are over, the load
is by itself, and it comes to an end: whatever it meets brings it closer to that. So
it is never stopped because it was carried on or woken too often.

* `Load.looks`, `Load.stage`: how far a load is from its end;
* `isCloser_resume`: a reply to what it waits for brings it closer (`Fits`);
* `carries_proceed`: it is carried on until it is over or is to be woken later;
* `loads_load`: the whole course of a load.

A session serves a load from its disk and its addresses, and advances its clock when a load has to
wait. What comes from there always suits what the load waits for (`Fits`), which is more than is
known where replies are left open. So each reply brings the load closer to its end, and a measure
of that is bounded: ten stages, of which the download takes as many looks as its retries allow.
-/

namespace SymbolPaths

/-! ### How far a load is from its end -/

/-- How often an operation is looked at until it is over, at most. -/
def Retry.Phase.looks (retries : UInt32) : Retry.Phase → Nat
  | calling retry => 2 * (retries.toNat - retry.toNat) + 1
  -- The call that follows is counted by its own number, which may have begun again at zero.
  | waiting retry => 2 * (retries.toNat - (retry + 1).toNat) + 2

/-- Whatever is under way is looked at once more. -/
theorem Retry.Phase.looks_pos {retries : UInt32} (phase : Retry.Phase) :
    0 < phase.looks retries := by
  cases phase <;> exact Nat.succ_pos _

namespace Load

/-- How often the download of a load is looked at until it is over, at most. -/
def looks (retries : UInt32) : Load → Nat
  | waiting _ (.fetch _ phase) => phase.looks retries
  | waiting _ (.store _ _ _) => 0
  | waiting _ _ => (Retry.Phase.calling 0).looks retries
  | finished _ => 0

/-- How far a load is from its end but for the download, which counts as one step. -/
def stage : Load → Nat
  | waiting _ .engine => 10
  | waiting _ (.probe _) => 9
  | waiting _ (.read _) => 8
  | waiting _ (.fetch _ _) => 7
  | waiting _ (.store _ _ write) => write.remaining + 1
  | finished _ => 0

/-- Whether a load is closer to its end than another. -/
def IsCloser (retries : UInt32) (after before : Load) : Prop :=
  after.looks retries < before.looks retries ∧ after.stage ≤ before.stage ∨
    after.looks retries ≤ before.looks retries ∧ after.stage < before.stage

variable {retries : UInt32} {language : Language} {wait : LoadWait} {load : Load}

theorem stage_waiting_pos (language : Language) (wait : LoadWait) :
    0 < (waiting language wait).stage := by
  cases wait <;> exact Nat.succ_pos _

/-- A load is looked at a limited number of times, whatever it waits for. -/
theorem looks_le (retries : UInt32) (load : Load) :
    load.looks retries ≤ 2 * retries.toNat + 2 := by
  have hphase (phase : Retry.Phase) : phase.looks retries ≤ 2 * retries.toNat + 2 := by
    cases phase <;> simp only [Retry.Phase.looks] <;> omega
  cases load with
  | finished result => exact Nat.zero_le _
  | waiting language wait =>
    cases wait with
    | fetch flight phase => exact hphase phase
    | store flight payload write => exact Nat.zero_le _
    | _ => exact hphase (.calling 0)

/-- There are ten stages. -/
theorem stage_le (load : Load) : load.stage ≤ 10 := by
  cases load with
  | finished result => exact Nat.zero_le _
  | waiting language wait =>
    cases wait with
    | store flight payload write =>
      cases write <;> simp only [stage, CacheWrite.remaining] <;> omega
    | _ => simp only [stage]; omega

theorem IsCloser.looks_le {after before : Load} (h : after.IsCloser retries before) :
    after.looks retries ≤ before.looks retries :=
  h.elim (fun h => Nat.le_of_lt h.1) fun h => h.1

/-- What comes closer to its end has less before it in all, which is why every load ends. -/
theorem IsCloser.looks_add_stage_lt {after before : Load} (h : after.IsCloser retries before) :
    after.looks retries + after.stage < before.looks retries + before.stage :=
  h.elim (fun h => Nat.add_lt_add_of_lt_of_le h.1 h.2) fun h => Nat.add_lt_add_of_le_of_lt h.1 h.2

/-- A load that is over is closer to its end than any that waits. -/
theorem isCloser_of_isFinished (h : load.isFinished) :
    IsCloser retries load (waiting language wait) := by
  cases load with
  | waiting language wait => cases h
  | finished result => exact .inr ⟨Nat.zero_le _, stage_waiting_pos language wait⟩

end Load

namespace Loader

/-- Whether a reply is one to what a load waits for. -/
inductive Fits : LoadWait → LoadReply → Prop
  /-- The engine has come up, or has not. -/
  | engine {result : Except AcquireError Unit} : Fits .engine (.engine result)
  /-- Whether there is a payload was looked up. -/
  | probed {flight : Nat} {present : Bool} : Fits (.probe flight) (.probed present)
  /-- The payload was read, or reading has failed. -/
  | read {flight : Nat} {result : Except IoError Bytes} : Fits (.read flight) (.read result)
  /-- A call of the download has ended. -/
  | returned {flight : Nat} {retry : UInt32} {outcome : Except AcquireError Bytes} :
      Fits (.fetch flight (.calling retry)) (.fetch (.returned outcome))
  /-- A delay is over. -/
  | elapsed {flight : Nat} {retry : UInt32} :
      Fits (.fetch flight (.waiting retry)) (.fetch .elapsed)
  /-- An operation of storing has ended. -/
  | disk {flight : Nat} {payload : Bytes} {write : CacheWrite} {result : Except IoError Nat} :
      Fits (.store flight payload write) (.disk result)

variable {env : Loader} {s : LoaderState} {language : Language} {wait : LoadWait}
  {flight : Nat} {phase : Retry.Phase} {reply : LoadReply}

/-- To begin a download is to come closer to the end. -/
theorem isCloser_beginDownload {before : Load}
    (hlooks : before.looks env.policy.retries = (Retry.Phase.calling 0).looks env.policy.retries)
    (hstage : 7 < before.stage) :
    (beginDownload env s language flight).2.IsCloser env.policy.retries before := by
  cases hcancelled : s.isCancelled flight with
  | true =>
    simp only [beginDownload, Retry.begin, hcancelled, if_true]
    exact .inr ⟨Nat.zero_le _, Nat.zero_lt_of_lt hstage⟩
  | false =>
    simp only [beginDownload, Retry.begin, hcancelled, Bool.false_eq_true, if_false]
    exact .inr ⟨Nat.le_of_eq hlooks.symm, hstage⟩

/-- The reply to a download or a delay takes one look off. -/
theorem looks_resume_fetch (h : Fits (.fetch flight phase) reply) :
    let after := (resume env s (.waiting language (.fetch flight phase)) reply).2
    after.looks env.policy.retries < phase.looks env.policy.retries ∧ after.stage ≤ 7 := by
  have hpos : 0 < phase.looks env.policy.retries := phase.looks_pos
  have hover {load : Load} (hload : load.isFinished) :
      load.looks env.policy.retries < phase.looks env.policy.retries ∧ load.stage ≤ 7 := by
    cases load with
    | waiting language wait => cases hload
    | finished result => exact ⟨hpos, Nat.zero_le _⟩
  cases hcancelled : s.isCancelled flight with
  | true =>
    cases h <;> simp only [resume, hcancelled, Retry.step, if_true, download] <;> exact hover rfl
  | false =>
    cases h with
    | @elapsed _ retry =>
      simp only [resume, hcancelled, Retry.step, Bool.false_eq_true, if_false, download]
      exact ⟨by simp only [Load.looks, Retry.Phase.looks]; omega, Nat.le_refl _⟩
    | @returned _ retry outcome =>
      cases outcome with
      | ok payload =>
        simp only [resume, hcancelled, Retry.step, Bool.false_eq_true, if_false, download, persist]
        split
        · exact hover isFinished_commit
        · exact ⟨hpos, Nat.le_refl _⟩
      | error e =>
        simp only [resume, hcancelled, Retry.step, Bool.false_eq_true, if_false]
        split
        · exact hover rfl
        · next hretry =>
          -- Another call is due only while there are retries left, so its number is the next.
          simp only [Bool.or_eq_true, decide_eq_true_eq, not_or, UInt32.not_le,
            UInt32.lt_iff_toNat_lt] at hretry
          have hnext : (retry + 1).toNat = retry.toNat + 1 := by
            rw [UInt32.toNat_add, UInt32.toNat_one, Nat.mod_eq_of_lt]
            have := env.policy.retries.toNat_lt
            omega
          simp only [download, Load.looks, Retry.Phase.looks, hnext]
          exact ⟨by omega, Nat.le_refl _⟩

/-- A reply to what a load waits for brings it closer to its end. -/
theorem isCloser_resume (h : Fits wait reply) :
    (resume env s (.waiting language wait) reply).2.IsCloser env.policy.retries
      (.waiting language wait) := by
  -- Fewer looks at the download are left, or no more of them and the load is at a later stage.
  cases h with
  | @engine result =>
    cases result with
    | error e => exact Load.isCloser_of_isFinished rfl
    | ok =>
      simp only [resume, enter]
      split
      · exact Load.isCloser_of_isFinished rfl
      · split
        · exact Load.isCloser_of_isFinished rfl
        · split
          · exact .inr ⟨Nat.le_refl _, Nat.lt_succ_self _⟩
          · exact isCloser_beginDownload rfl (Nat.lt_of_sub_eq_succ rfl)
  | @probed flight present =>
    cases present with
    | true => exact .inr ⟨Nat.le_refl _, Nat.lt_succ_self _⟩
    | false => exact isCloser_beginDownload rfl (Nat.lt_of_sub_eq_succ rfl)
  | @read flight result =>
    cases result with
    | ok payload => exact Load.isCloser_of_isFinished isFinished_commit
    | error e => exact isCloser_beginDownload rfl (Nat.lt_of_sub_eq_succ rfl)
  | returned => exact .inl (looks_resume_fetch .returned)
  | elapsed => exact .inl (looks_resume_fetch .elapsed)
  | @disk flight payload write result =>
    simp only [resume]
    split
    · exact Load.isCloser_of_isFinished isFinished_commit
    · exact Load.isCloser_of_isFinished isFinished_commit
    · next hok herror =>
      have hleft : 0 < write.remaining := by
        cases write with
        | done r =>
          cases r with
          | ok => exact absurd rfl hok
          | error e => exact absurd rfl (herror e)
        | _ => exact Nat.succ_pos _
      exact .inr ⟨Nat.le_refl _, Nat.succ_lt_succ (CacheWrite.remaining_next_lt result hleft)⟩

end Loader

/-! ### The course of a load in a session -/

/-- The load of a task. -/
def Task.load : Task → Load
  | waiting load _ _ => load
  | done result _ => .finished result

namespace Session

open Loader

/-- Whether a load meets a reply to what it waits for, now or, if that is a download or
    a delay, later. -/
inductive Meeting.Suits : LoadWait → Meeting → Prop
  /-- The reply is there at once. -/
  | now {wait : LoadWait} {reply : LoadReply} : Fits wait reply → Suits wait (.now reply)
  /-- A download or a delay will be over at some time. -/
  | later {flight : Nat} {phase : Retry.Phase} {due : Nat}
      {signal : Retry.Signal AcquireError Bytes} :
      Fits (.fetch flight phase) (.fetch signal) →
      Suits (.fetch flight phase) (.later due signal)

/-- Whether a load is over, or waits for a download or a delay and is woken at the end
    of that. -/
inductive Rests : Task → Prop
  /-- The load is over. -/
  | done {result : Except AcquireError GrammarHandle} {time : Nat} : Rests (.done result time)
  /-- It waits for a download or a delay, and what it is woken with suits that. -/
  | waiting {language : Language} {flight : Nat} {phase : Retry.Phase} {due : Nat}
      {signal : Retry.Signal AcquireError Bytes} :
      Fits (.fetch flight phase) (.fetch signal) →
      Rests (.waiting (.waiting language (.fetch flight phase)) due signal)

/-- What a session makes of a load that it carries on. -/
structure Carries (env : Surroundings) (s : Session) (load : Load) (s' : Session)
    (task : Task) : Prop where
  /-- Nothing was done to the loader but what the load does. -/
  goesOn : GoesOn env.loader (s.state, load) (s'.state, task.load)
  /-- The load is over, or waits to be woken. -/
  rests : Rests task
  /-- It is no further from its end. -/
  looks_le : task.load.looks env.loader.policy.retries ≤ load.looks env.loader.policy.retries
  /-- The other loads are as they were. -/
  tasks_eq : s'.tasks = s.tasks

variable {env : Surroundings} {s : Session} {front : List Task} {task : Task} {load : Load}
  {wait : LoadWait}

/-- Serving a load changes nothing but the disk and the addresses. -/
theorem exists_serve_eq (env : Surroundings) (s : Session) (lang : String) (wait : LoadWait) :
    ∃ disk urls, (s.serve env lang wait).1 = { s with disk, urls } := by
  cases wait with
  | fetch flight phase => cases phase <;> exact ⟨_, _, rfl⟩
  | store flight payload write =>
    simp only [serve]
    split <;> exact ⟨_, _, rfl⟩
  | _ => exact ⟨_, _, rfl⟩

/-- What takes its time in a session comes when that is over, and suits what is waited for. -/
theorem suits_takes {flight : Nat} {phase : Retry.Phase} {duration : Nat}
    {signal : Retry.Signal AcquireError Bytes}
    (h : Fits (.fetch flight phase) (.fetch signal)) :
    (s.takes duration signal).Suits (.fetch flight phase) := by
  rw [takes]
  split
  · exact .now h
  · exact .later h

/-- What a session serves suits what is waited for. -/
theorem suits_serve (env : Surroundings) (s : Session) (lang : String) (wait : LoadWait) :
    (s.serve env lang wait).2.Suits wait := by
  cases wait with
  | engine => exact .now .engine
  | probe flight => exact .now .probed
  | read flight => exact .now .read
  | fetch flight phase =>
    cases phase with
    | calling retry => exact suits_takes .returned
    | waiting retry => exact suits_takes .elapsed
  | store flight payload write =>
    simp only [serve]
    split <;> exact .now .disk

/-- A load that was served at once is carried on from there. -/
theorem Carries.of_now {disk : Disk} {urls : List String} {s' : Session} {language : Language}
    {reply : LoadReply} (hfits : Fits wait reply)
    (h : Carries env
      { s with state := (resume env.loader s.state (.waiting language wait) reply).1, disk, urls }
      (resume env.loader s.state (.waiting language wait) reply).2 s' task) :
    Carries env s (.waiting language wait) s' task where
  goesOn := .head ⟨reply, rfl⟩ h.goesOn
  rests := h.rests
  looks_le := Nat.le_trans h.looks_le (isCloser_resume hfits).looks_le
  tasks_eq := h.tasks_eq

/-- A load is carried on until it is over or has to be woken. -/
theorem carries_proceed {fuel : Nat}
    (hfuel : load.looks env.loader.policy.retries + load.stage ≤ fuel) :
    let after := proceed env fuel s load
    Carries env s load after.1 after.2 := by
  -- The fuel bounds the looks left and the stage together, and each turn brings the load closer.
  induction fuel generalizing s load with
  | zero =>
    cases load with
    | finished result => exact ⟨.refl, .done, Nat.le_refl _, rfl⟩
    | waiting language wait =>
      have := Load.stage_waiting_pos language wait
      omega
  | succ fuel ih =>
    cases load with
    | finished result => exact ⟨.refl, .done, Nat.le_refl _, rfl⟩
    | waiting language wait =>
      obtain ⟨disk, urls, hframe⟩ := exists_serve_eq env s language.name wait
      have hsuits := suits_serve env s language.name wait
      simp only [proceed]
      split
      · next s' due signal hserve =>
        simp only [hserve] at hframe hsuits
        subst hframe
        cases hsuits with
        | later hfits => exact ⟨.refl, .waiting hfits, Nat.le_refl _, rfl⟩
      · next s' reply hserve =>
        simp only [hserve] at hframe hsuits
        subst hframe
        cases hsuits with
        | now hfits =>
          have hcloser : (resume env.loader s.state (.waiting language wait) reply).2.IsCloser
              env.loader.policy.retries (.waiting language wait) := isCloser_resume hfits
          have hless := hcloser.looks_add_stage_lt
          exact .of_now hfits (ih (by omega))

/-- The steps that a session takes suffice for every load. -/
theorem carries_proceed_steps (env : Surroundings) (s : Session) (load : Load) :
    let after := proceed env (steps env) s load
    Carries env s load after.1 after.2 := by
  refine carries_proceed ?_
  have hlooks := load.looks_le env.loader.policy.retries
  have hstage := load.stage_le
  rw [steps]
  omega

/-! ### Waiting for the last load -/

/-- Where all loads but the last are over, only that is woken. -/
theorem next?_eq (hfront : ∀ t ∈ front, t.isDone) (htasks : s.tasks = front ++ [task]) :
    s.next? = match task with
      | .waiting _ due signal => some (front.length, due, signal)
      | .done _ _ => none := by
  have hdone (entry : Task × Nat) (hmem : entry ∈ front.zipIdx) :
      ∃ result time, entry.1 = .done result time := by
    have h := hfront entry.1 (List.fst_mem_of_mem_zipIdx hmem)
    cases hentry : entry.1 with
    | waiting load due signal => rw [hentry] at h; cases h
    | done result time => exact ⟨result, time, rfl⟩
  simp only [next?, htasks, List.zipIdx_append, List.filterMap_append]
  rw [List.filterMap_eq_nil_iff.2 fun entry hmem => by
    obtain ⟨result, time, h⟩ := hdone entry hmem
    rw [h]]
  cases task <;> simp

/-- A load that is woken comes closer to its end. -/
theorem tasks_wake (env : Surroundings) (s : Session) {due : Nat}
    {signal : Retry.Signal AcquireError Bytes} (hrests : Rests (.waiting load due signal))
    (htasks : s.tasks = front ++ [.waiting load due signal]) :
    ∃ task, (wake env s front.length signal).tasks = front ++ [task] ∧ Rests task ∧
      task.load.looks env.loader.policy.retries < load.looks env.loader.policy.retries ∧
      GoesOn env.loader (s.state, load) ((wake env s front.length signal).state, task.load) := by
  have hget : s.tasks[front.length]? = some (.waiting load due signal) := by
    rw [htasks, List.getElem?_concat_length]
  cases hrests with
  | @waiting language flight phase _ _ hfits =>
    have hlooks : (resume env.loader s.state (.waiting language (.fetch flight phase))
        (.fetch signal)).2.looks env.loader.policy.retries <
          phase.looks env.loader.policy.retries := (looks_resume_fetch hfits).1
    simp only [wake, hget]
    have hcarries (p : LoaderState × Load) :
        let after := proceed env (steps env) { s with state := p.1 } p.2
        Carries env { s with state := p.1 } p.2 after.1 after.2 := carries_proceed_steps env _ _
    obtain ⟨hgoes, hrests, hle, hsame⟩ := hcarries
      (resume env.loader s.state (.waiting language (.fetch flight phase)) (.fetch signal))
    refine ⟨_, ?_, hrests, Nat.lt_of_le_of_lt hle hlooks, .head ⟨.fetch signal, rfl⟩ hgoes⟩
    rw [hsame, htasks, List.set_append_right _ _ (Nat.le_refl _), Nat.sub_self, List.set_cons_zero]

/-- If all loads but the last are over, and one waits for that, it comes to its end. -/
theorem run_last {fuel : Nat} (hfront : ∀ t ∈ front, t.isDone)
    (htasks : s.tasks = front ++ [task]) (hrests : Rests task)
    (hfuel : task.load.looks env.loader.policy.retries ≤ fuel) :
    let after := run env (fun s _ => !(s.tasks[front.length]?.any Task.isDone)) fuel s
    ∃ result time, after.tasks = front ++ [.done result time] ∧
      GoesOn env.loader (s.state, task.load) (after.state, .finished result) := by
  induction fuel generalizing s task with
  | zero =>
    cases hrests with
    | done => exact ⟨_, _, htasks, .refl⟩
    | @waiting language flight phase => exact absurd hfuel (Nat.not_le_of_lt phase.looks_pos)
  | succ fuel ih =>
    -- One waking is spent, and the load has one look less before it.
    have hget : s.tasks[front.length]? = some task := by
      rw [htasks, List.getElem?_concat_length]
    cases hrests with
    | done =>
      simp only [run, next?_eq hfront htasks]
      exact ⟨_, _, htasks, .refl⟩
    | @waiting language flight phase due signal hfits =>
      simp only [run, next?_eq hfront htasks, hget]
      obtain ⟨task, htasks', hrests', hlooks, hgoes⟩ :=
        tasks_wake env { s with clock := due } (.waiting hfits) htasks
      obtain ⟨result, time, hdone, hend⟩ :=
        ih htasks' hrests' (Nat.le_of_lt_succ (Nat.lt_of_lt_of_le hlooks hfuel))
      exact ⟨result, time, hdone, hgoes.trans hend⟩

/-- A load that nobody interferes with comes to its end in a session, and is the last
    one there. -/
theorem loads_load (env : Surroundings) (lang : String) (hs : ∀ t ∈ s.tasks, t.isDone) :
    let after := s.load env lang
    Loads env.loader s.state lang after.1.state after.2 ∧ ∀ t ∈ after.1.tasks, t.isDone := by
  obtain ⟨hgoes, hrests, -, hsame⟩ := carries_proceed_steps env s (begin s.state lang)
  simp only [load, start, await]
  generalize proceed env (steps env) s (begin s.state lang) = p at hgoes hrests hsame
  obtain ⟨s₁, task⟩ := p
  have hfuel : task.load.looks env.loader.policy.retries ≤
      wakes env { s₁ with tasks := s₁.tasks ++ [task] } := by
    have hlooks := task.load.looks_le env.loader.policy.retries
    have hone := Nat.le_mul_of_pos_left (2 * env.loader.policy.retries.toNat + 4)
      (Nat.zero_lt_succ s₁.tasks.length)
    rw [wakes, List.length_append, List.length_singleton]
    exact Nat.le_trans (by omega) hone
  obtain ⟨result, time, hdone, hend⟩ :=
    run_last (s := { s₁ with tasks := s₁.tasks ++ [task] }) (hsame ▸ hs) rfl hrests hfuel
  rw [outcome?, hdone, List.getElem?_concat_length]
  refine ⟨hgoes.trans hend, fun t ht => ?_⟩
  rw [hdone, hsame, List.mem_append, List.mem_singleton] at ht
  rcases ht with ht | rfl
  · exact hs t ht
  · rfl

end Session

end SymbolPaths
