import SymbolPaths.Proofs.Grammar.Traffic

/-!
# What is true at any moment

The list of loads under way, the numbers of loads that the loader takes for
cancelled, and the loads themselves are changed at different moments, and yet they
fit together whenever nobody acts (`Sound`). An event other than an abortion
concerns one caller, and what it has to do is said for all of them at once
(`Sound.updates`): the list gains what the caller holds now, and loses what it held
before.

* `Sound.turn`, `Sound.giveUp`, `Sound.abort`: what becomes of it at an event;
* `sound_of_reachable`: it is true of whatever events lead to.

Of the laws that make up `Sound` each was chosen because another one needs it. An abortion marks a
load by its number, so numbers must be those of one load each and the next one must be nobody's;
the list tells who is under way, so a load that is under way and not aborted must have the entry,
and one that is aborted must not; and a load that takes its entry away must find its own, or none.

An event other than an abortion changes what the loader remembers and one caller. What it does to
the list is given by what the caller holds before and after, and with that the laws are proved
once (`Sound.updates`) and not for every kind of turn.
-/

namespace SymbolPaths

namespace Caller

/-- Whether the load of a caller is of a language, was entered in the list under a
    number, and is neither over, nor given up, nor aborted. -/
def Holds (c : Caller) (lang : String) (flight : Nat) : Prop :=
  c.isRunning ∧ c.aborted = false ∧ c.lang = lang ∧ c.flight = some flight

variable {c : Caller} {language : Language} {wait : LoadWait} {lang : String} {flight : Nat}

/-- A load that waits is under way. -/
theorem isRunning_of_load (h : c.load = some (.waiting language wait)) : c.isRunning := by
  rw [isRunning, h]
  rfl

/-- A load under way waits for something. -/
theorem exists_of_isRunning (h : c.isRunning) :
    ∃ language wait, c.load = some (.waiting language wait) := by
  rw [isRunning, Option.any_eq_true] at h
  obtain ⟨load, hload, hnot⟩ := h
  cases load with
  | waiting language wait => exact ⟨language, wait, hload⟩
  | finished result => exact absurd hnot Bool.false_ne_true

/-- A load without a number holds nothing in the list. -/
theorem not_holds_of_flight (h : c.flight = none) : ¬c.Holds lang flight := by
  rintro ⟨_, _, _, hflight⟩
  exact Option.some_ne_none _ (hflight.symm.trans h)

/-- A load that is over holds nothing in the list. -/
theorem not_holds_of_not_isRunning (h : c.isRunning = false) : ¬c.Holds lang flight := by
  rintro ⟨hrunning, _⟩
  exact Bool.noConfusion (h.symm.trans hrunning)

/-- A caller whose load waits under the number that it had before has that number. -/
theorem flight_carryOn_waiting (h : c.flight = none ∨ c.flight = wait.flight?) :
    (c.carryOn (.waiting language wait)).flight = wait.flight? := by
  rw [carryOn, Load.flight?_waiting]
  rcases h with h | h <;> rw [h] <;> cases wait.flight? <;> rfl

end Caller

namespace Traffic

/-- What is true of a loader and its callers at any moment. -/
structure Sound (s : LoaderState) (callers : List Caller) : Prop where
  /-- A load that waits is of the language that was asked for, and has the number
      under which it was entered. -/
  own : ∀ {i : Nat} {c : Caller} {language : Language} {wait : LoadWait},
    callers[i]? = some c → c.load = some (.waiting language wait) →
    language.name = c.lang ∧ c.flight = wait.flight?
  /-- Numbers were given out by the loader. -/
  le_last : ∀ {i : Nat} {c : Caller} {f : Nat}, callers[i]? = some c → c.flight = some f →
    f ≤ s.lastFlight
  /-- No two loads have one number. -/
  unique : ∀ {i j : Nat} {c d : Caller} {f : Nat}, callers[i]? = some c → callers[j]? = some d →
    c.flight = some f → d.flight = some f → i = j
  /-- Only a load that was entered in the list can be aborted. -/
  flight_of_aborted : ∀ {i : Nat} {c : Caller}, callers[i]? = some c → c.aborted → c.flight.isSome
  /-- What is cancelled was given out by the loader, so the next number is not. -/
  cancelled_le_last : ∀ {f : Nat}, s.isCancelled f → f ≤ s.lastFlight
  /-- What was aborted is what the loader takes for cancelled. -/
  isCancelled_iff : ∀ {i : Nat} {c : Caller} {f : Nat}, callers[i]? = some c → c.isRunning →
    c.flight = some f → (s.isCancelled f ↔ c.aborted)
  /-- The list has the loads that are under way. -/
  inFlight_iff : ∀ {lang : String} {f : Nat}, s.inFlight.get? lang = some f ↔
    ∃ (i : Nat) (c : Caller), callers[i]? = some c ∧ c.Holds lang f
  /-- A language that is being loaded is not there. -/
  apart : ∀ {lang : String} {f : Nat}, s.inFlight.get? lang = some f → s.loaded.get? lang = none

namespace Sound

variable {env : Loader} {s s' : LoaderState} {callers callers' : List Caller} {number f : Nat}
  {c c' : Caller} {lang : String} {language : Language} {wait : LoadWait} {reply : LoadReply}

/-- Before anybody has called all is sound. -/
theorem initial : Sound .initial [] where
  own h := by simp at h
  le_last h := by simp at h
  unique h := by simp at h
  flight_of_aborted h := by simp at h
  cancelled_le_last h := by simp [LoaderState.initial, LoaderState.isCancelled] at h
  isCancelled_iff h := by simp at h
  inFlight_iff := by simp [LoaderState.initial]
  apart h := by simp [LoaderState.initial] at h

/-- The next number is nobody's. -/
theorem fresh (h : Sound s callers) : s.isCancelled (s.lastFlight + 1) = false :=
  Bool.eq_false_iff.2 fun hc => Nat.not_succ_le_self _ (h.cancelled_le_last hc)

/-- Only loads with a number are aborted. -/
theorem aborted_of_flight (h : Sound s callers) (hc : callers[number]? = some c)
    (hflight : c.flight = none) : c.aborted = false := by
  refine Bool.eq_false_iff.2 fun ha => ?_
  have := h.flight_of_aborted hc ha
  simp [hflight] at this

/-- No two loads have the entry of a language. -/
theorem eq_of_holds {i j g : Nat} {d : Caller} (h : Sound s callers) (hc : callers[i]? = some c)
    (hd : callers[j]? = some d) (hcholds : c.Holds lang f) (hdholds : d.Holds lang g) : i = j := by
  have hentry := h.inFlight_iff.2 ⟨i, c, hc, hcholds⟩
  have hentry' := h.inFlight_iff.2 ⟨j, d, hd, hdholds⟩
  obtain rfl := Option.some.inj (hentry.symm.trans hentry')
  exact h.unique hc hd hcholds.2.2.2 hdholds.2.2.2

/-- What an event has to do when it concerns one caller: the list has to gain what
    the caller holds now and to lose what it held before. -/
theorem updates (h : Sound s callers) (hupdates : Updates callers callers' number c')
    (hcancelled : s'.cancelled = s.cancelled) (hlast : s.lastFlight ≤ s'.lastFlight)
    (hown : ∀ language wait, c'.load = some (.waiting language wait) →
      language.name = c'.lang ∧ c'.flight = wait.flight?)
    (hflight : ∀ f, c'.flight = some f → (∃ c, callers[number]? = some c ∧ c.flight = some f) ∨
      s.lastFlight < f ∧ f ≤ s'.lastFlight)
    (haborted : c'.aborted → c'.flight.isSome)
    (hrunning : ∀ f, c'.isRunning → c'.flight = some f → (s.isCancelled f ↔ c'.aborted))
    (hlist : ∀ lang f, s'.inFlight.get? lang = some f ↔ c'.Holds lang f ∨
      s.inFlight.get? lang = some f ∧ ∀ c, callers[number]? = some c → ¬c.Holds lang f)
    (hapart : ∀ lang f, s'.inFlight.get? lang = some f → s'.loaded.get? lang = none) :
    Sound s' callers' := by
  have hisCancelled (f : Nat) : s'.isCancelled f = s.isCancelled f := by
    rw [LoaderState.isCancelled, hcancelled, LoaderState.isCancelled]
  -- A caller is the one concerned, or is as it was.
  have hcases {i : Nat} {c : Caller} (hc : callers'[i]? = some c) :
      i = number ∧ c = c' ∨ i ≠ number ∧ callers[i]? = some c := by
    rw [hupdates i] at hc
    split at hc
    · next hi => exact .inl ⟨hi, (Option.some.inj hc).symm⟩
    · next hi => exact .inr ⟨hi, hc⟩
  -- No other caller has the flight of the one concerned: it is that caller's old one, or a new one.
  have hother {j : Nat} {d : Caller} {f : Nat} (hj : j ≠ number) (hd : callers[j]? = some d)
      (hf : d.flight = some f) : c'.flight ≠ some f := by
    intro hc'
    rcases hflight f hc' with ⟨c, hc, hcf⟩ | ⟨hlt, _⟩
    · exact hj (h.unique hd hc hf hcf)
    · exact Nat.not_le.2 hlt (h.le_last hd hf)
  constructor
  case own =>
    intro i c language wait hc hload
    rcases hcases hc with ⟨_, rfl⟩ | ⟨_, hc⟩
    · exact hown language wait hload
    · exact h.own hc hload
  case le_last =>
    intro i c f hc hf
    rcases hcases hc with ⟨_, rfl⟩ | ⟨_, hc⟩
    · rcases hflight f hf with ⟨d, hd, hdf⟩ | ⟨_, hle⟩
      · exact Nat.le_trans (h.le_last hd hdf) hlast
      · exact hle
    · exact Nat.le_trans (h.le_last hc hf) hlast
  case unique =>
    intro i j c d f hc hd hcf hdf
    rcases hcases hc with ⟨hi, rfl⟩ | ⟨hi, hc⟩ <;> rcases hcases hd with ⟨hj, rfl⟩ | ⟨hj, hd⟩
    · exact hi.trans hj.symm
    · exact absurd hcf (hother hj hd hdf)
    · exact absurd hdf (hother hi hc hcf)
    · exact h.unique hc hd hcf hdf
  case flight_of_aborted =>
    intro i c hc hca
    rcases hcases hc with ⟨_, rfl⟩ | ⟨_, hc⟩
    · exact haborted hca
    · exact h.flight_of_aborted hc hca
  case cancelled_le_last =>
    intro f hf
    exact Nat.le_trans (h.cancelled_le_last (hisCancelled f ▸ hf)) hlast
  case isCancelled_iff =>
    intro i c f hc hcr hf
    rw [hisCancelled]
    rcases hcases hc with ⟨_, rfl⟩ | ⟨_, hc⟩
    · exact hrunning f hcr hf
    · exact h.isCancelled_iff hc hcr hf
  case inFlight_iff =>
    intro lang f
    rw [hlist, h.inFlight_iff]
    constructor
    · rintro (hholds | ⟨⟨i, d, hd, hholds⟩, hnot⟩)
      · exact ⟨number, c', (hupdates number).trans (if_pos rfl), hholds⟩
      · have hi : i ≠ number := fun hi => hnot d (hi ▸ hd) hholds
        exact ⟨i, d, (hupdates i).trans ((if_neg hi).trans hd), hholds⟩
    · rintro ⟨i, d, hd, hholds⟩
      rcases hcases hd with ⟨_, rfl⟩ | ⟨hi, hd⟩
      · exact .inl hholds
      · refine .inr ⟨⟨i, d, hd, hholds⟩, fun c hc hcholds => hi ?_⟩
        exact h.unique hd hc hholds.2.2.2 hcholds.2.2.2
  case apart =>
    intro lang f hf
    exact hapart lang f hf

/-- A load waits for something else. -/
theorem same (h : Sound s callers) (hc : callers[number]? = some c)
    (hload : c.load = some (.waiting language wait)) {after : LoadWait}
    (hwait : after.flight? = wait.flight?)
    (hupdates : Updates callers callers' number (c.carryOn (.waiting language after))) :
    Sound s callers' := by
  obtain ⟨hlang, hown⟩ := h.own hc hload
  have hflight : (c.carryOn (.waiting language after)).flight = c.flight := by
    rw [Caller.flight_carryOn_waiting (.inr (hown.trans hwait.symm)), hwait, hown]
  have hrunning : c.isRunning := Caller.isRunning_of_load hload
  -- The caller holds what it held, so the lists stand as they are.
  have hholds (lang : String) (f : Nat) :
      (c.carryOn (.waiting language after)).Holds lang f ↔ c.Holds lang f := by
    simp [Caller.Holds, hflight, hrunning, Load.isFinished]
  refine h.updates hupdates rfl (Nat.le_refl _) ?_ ?_ ?_ ?_ ?_ (fun _ _ => h.apart)
  · rintro _ _ ⟨⟩
    exact ⟨hlang, hflight.trans (hown.trans hwait.symm)⟩
  · exact fun f hf => .inl ⟨c, hc, hflight ▸ hf⟩
  · exact fun haborted => hflight ▸ h.flight_of_aborted hc haborted
  · intro f _ hf
    rw [hflight] at hf
    rw [Caller.aborted_carryOn]
    exact h.isCancelled_iff hc hrunning hf
  · intro lang f
    constructor
    · intro hf
      by_cases hcf : c.Holds lang f
      · exact .inl ((hholds lang f).2 hcf)
      · exact .inr ⟨hf, fun d hd => Option.some.inj (hc.symm.trans hd) ▸ hcf⟩
    · rintro (hcf | ⟨hf, _⟩)
      · exact h.inFlight_iff.2 ⟨number, c, hc, (hholds lang f).1 hcf⟩
      · exact hf

/-- A load that is not entered in the list starts, ends or is given up. -/
theorem outside (h : Sound s callers) (hupdates : Updates callers callers' number c')
    (hinFlight : s'.inFlight = s.inFlight) (hloaded : s'.loaded = s.loaded)
    (hcancelled : s'.cancelled = s.cancelled) (hlast : s'.lastFlight = s.lastFlight)
    (hold : ∀ c, callers[number]? = some c → c.flight = none)
    (hflight : c'.flight = none) (haborted : c'.aborted = false)
    (hown : ∀ language wait, c'.load = some (.waiting language wait) →
      language.name = c'.lang ∧ c'.flight = wait.flight?) : Sound s' callers' := by
  have hnone {f : Nat} (hf : c'.flight = some f) : False :=
    Option.some_ne_none _ (hf.symm.trans hflight)
  refine h.updates hupdates hcancelled (Nat.le_of_eq hlast.symm) hown
    (fun f hf => (hnone hf).elim) (fun ha => Bool.noConfusion (haborted.symm.trans ha))
    (fun f _ hf => (hnone hf).elim) ?_ ?_
  · intro lang f
    rw [hinFlight]
    constructor
    · exact fun hf => .inr ⟨hf, fun c hc => Caller.not_holds_of_flight (hold c hc)⟩
    · rintro (hholds | ⟨hf, _⟩)
      · exact absurd hholds (Caller.not_holds_of_flight hflight)
      · exact hf
  · rw [hinFlight, hloaded]
    exact fun lang f => h.apart

/-- A load is entered in the list, which has none of its language. -/
theorem enters (h : Sound s callers) (hc : callers[number]? = some c)
    (hlang : language.name = c.lang) (hcflight : c.flight = none)
    (hloaded : s.loaded.get? language.name = none)
    (hfree : s.isAcquiring language.name = false) (hwait : wait.flight? = some (s.lastFlight + 1))
    (hupdates : Updates callers callers' number (c.carryOn (.waiting language wait))) :
    Sound ({ s with ready := true }.register language.name) callers' := by
  have hflight : (c.carryOn (.waiting language wait)).flight = some (s.lastFlight + 1) := by
    rw [Caller.flight_carryOn_waiting (.inl hcflight), hwait]
  have haborted := h.aborted_of_flight hc hcflight
  have hnone := (LoaderState.isAcquiring_eq_false ..).1 hfree
  refine h.updates hupdates rfl (Nat.le_succ _) ?_ ?_ ?_ ?_ ?_ ?_
  · rintro _ _ ⟨⟩
    exact ⟨hlang, hflight.trans hwait.symm⟩
  · intro f hf
    obtain rfl := Option.some.inj (hflight.symm.trans hf)
    exact .inr ⟨Nat.lt_succ_self _, Nat.le_refl _⟩
  · exact fun _ => hflight ▸ rfl
  · intro f _ hf
    obtain rfl := Option.some.inj (hflight.symm.trans hf)
    simp only [h.fresh, Caller.carryOn, haborted]
  · intro lang f
    rw [LoaderState.get?_inFlight_register]
    have hold (d : Caller) (hd : callers[number]? = some d) : ¬d.Holds lang f :=
      Option.some.inj (hc.symm.trans hd) ▸ Caller.not_holds_of_flight hcflight
    -- The caller holds what it has just registered, and nothing else.
    have hholds : (c.carryOn (.waiting language wait)).Holds lang f ↔
        lang = language.name ∧ s.lastFlight + 1 = f := by
      simp [Caller.Holds, hflight, haborted, hlang, Load.isFinished, eq_comm]
    rw [hholds]
    by_cases hl : lang = language.name
    · simp [hl, hnone]
    · simpa [hl] using fun _ => hold
  · intro lang f
    rw [LoaderState.get?_inFlight_register]
    split
    · next hl => exact fun _ => hl ▸ hloaded
    · exact h.apart

/-- A load that is entered in the list and was not cancelled has the entry of its
    language. -/
theorem holds (h : Sound s callers) (hc : callers[number]? = some c)
    (hload : c.load = some (.waiting language wait)) (hwait : wait.flight? = some f)
    (huncancelled : s.isCancelled f = false) : c.Holds language.name f := by
  obtain ⟨hlang, hflight⟩ := h.own hc hload
  have hrunning := Caller.isRunning_of_load hload
  have haborted : c.aborted = false := by
    rw [Bool.eq_false_iff, ne_eq, ← h.isCancelled_iff hc hrunning (hflight.trans hwait),
      huncancelled]
    exact Bool.false_ne_true
  exact ⟨hrunning, haborted, hlang.symm, hflight.trans hwait⟩

/-- A load that is entered in the list ends or is given up. It leaves the list, and it
    may leave its grammar unless it was cancelled. -/
theorem leaves (h : Sound s callers) (hc : callers[number]? = some c)
    (hload : c.load = some (.waiting language wait)) (hwait : wait.flight? = some f)
    (hupdates : Updates callers callers' number c') (hflight : c'.flight = c.flight)
    (haborted : c'.aborted = c.aborted)
    (hnot : c'.isRunning = false)
    (hinFlight : ∀ other, s'.inFlight.get? other =
      if other = language.name ∧ s.inFlight.get? language.name = some f then none
      else s.inFlight.get? other)
    (hcancelled : s'.cancelled = s.cancelled) (hlast : s'.lastFlight = s.lastFlight)
    (hloaded : s'.loaded = s.loaded ∨
      s.isCancelled f = false ∧ ∃ handle, s'.loaded = s.loaded.put language.name handle) :
    Sound s' callers' := by
  obtain ⟨hcl, hcf⟩ := h.own hc hload
  rw [hwait] at hcf
  refine h.updates hupdates hcancelled (Nat.le_of_eq hlast.symm) ?_ ?_ ?_ ?_ ?_ ?_
  · intro _ _ hload'
    exact absurd (Caller.isRunning_of_load hload') (Bool.eq_false_iff.1 hnot)
  · exact fun g hg => .inl ⟨c, hc, hflight ▸ hg⟩
  · exact fun ha => hflight ▸ h.flight_of_aborted hc (haborted ▸ ha)
  · exact fun _ hr => absurd hr (Bool.eq_false_iff.1 hnot)
  · intro lang g
    rw [hinFlight]
    constructor
    · intro hg
      split at hg
      · cases hg
      · next hkept =>
        refine .inr ⟨hg, fun d hd hholds => hkept ?_⟩
        obtain rfl := Option.some.inj (hc.symm.trans hd)
        obtain rfl := Option.some.inj (hcf.symm.trans hholds.2.2.2)
        have hl : lang = language.name := hholds.2.2.1.symm.trans hcl.symm
        exact ⟨hl, hl ▸ hg⟩
    · rintro (hholds | ⟨hg, hothers⟩)
      · exact absurd hholds (Caller.not_holds_of_not_isRunning hnot)
      · rw [if_neg]
        · exact hg
        · -- An entry with the number of this load is its own, not that of a newer load.
          rintro ⟨rfl, hf⟩
          obtain ⟨i, d, hd, hholds⟩ := h.inFlight_iff.1 hf
          obtain rfl := h.unique hd hc hholds.2.2.2 hcf
          obtain rfl := Option.some.inj (hf.symm.trans hg)
          exact hothers d hd hholds
  · intro lang g
    rw [hinFlight]
    intro hg
    split at hg
    · cases hg
    · next hkept =>
      rcases hloaded with hloaded | ⟨huncancelled, handle, hloaded⟩
      · rw [hloaded]
        exact h.apart hg
      · rw [hloaded, Table.get?_put, if_neg]
        · exact h.apart hg
        · -- A load that may leave its grammar had the entry, and takes it along.
          rintro rfl
          exact hkept ⟨rfl, h.inFlight_iff.2 ⟨number, c, hc, h.holds hc hload hwait huncancelled⟩⟩

/-- A turn keeps all sound, in each of its cases: the load enters the list, stays there or leaves
    it. -/
theorem turn (h : Sound s callers) (hc : callers[number]? = some c)
    (hload : c.load = some (.waiting language wait)) {load : Load}
    (hturn : Loader.Turn env s language reply wait s' load)
    (hupdates : Updates callers callers' number (c.carryOn load)) : Sound s' callers' := by
  obtain ⟨hlang, hflight⟩ := h.own hc hload
  -- A load that does not get past the engine was never entered in the list.
  have hunentered (hengine : wait = .engine) (result : Except AcquireError GrammarHandle)
      (s' : LoaderState) (hs' : s' = s ∨ s' = { s with ready := true })
      (hupdates : Updates callers callers' number (c.carryOn (.finished result))) :
      Sound s' callers' := by
    have hnone : c.flight = none := hflight.trans (hengine ▸ rfl)
    have haborted : c.aborted = false := h.aborted_of_flight hc hnone
    refine h.outside hupdates ?_ ?_ ?_ ?_ (fun d hd => Option.some.inj (hc.symm.trans hd) ▸ hnone)
      hnone haborted nofun
    all_goals rcases hs' with rfl | rfl <;> rfl
  cases hturn with
  | stays => exact h.same hc hload rfl hupdates
  | fails => exact hunentered rfl _ s (.inl rfl) hupdates
  | finds => exact hunentered rfl _ _ (.inr rfl) hupdates
  | yields => exact hunentered rfl _ _ (.inr rfl) hupdates
  | enters _ hloaded hfree hwait =>
    refine h.enters hc hlang hflight hloaded hfree ?_ hupdates
    rcases hwait with rfl | rfl <;> rfl
  | goesOn hbefore hfollows => exact h.same hc hload (hfollows.flight?.trans hbefore.symm) hupdates
  | breaksOff _ hbefore _ =>
    exact h.leaves hc hload hbefore hupdates rfl rfl rfl
      (fun _ => LoaderState.get?_inFlight_release ..) (LoaderState.cancelled_release ..)
      (LoaderState.lastFlight_release ..) (.inl (LoaderState.loaded_release ..))
  | succeeds _ hbefore huncancelled _ _ =>
    exact h.leaves hc hload hbefore hupdates rfl rfl rfl
      (fun _ => LoaderState.get?_inFlight_release ..) (LoaderState.cancelled_release ..)
      (LoaderState.lastFlight_release ..) (.inr ⟨huncancelled, _, LoaderState.loaded_release ..⟩)

/-- To give up a load is to leave the list, if it is entered there. -/
theorem giveUp (h : Sound s callers) (hc : callers[number]? = some c)
    (hload : c.load = some (.waiting language wait))
    (hupdates : Updates callers callers' number c.giveUp) :
    Sound (Loader.drop s (.waiting language wait)) callers' := by
  obtain ⟨_, hflight⟩ := h.own hc hload
  rw [Loader.drop_waiting]
  cases hwait : wait.flight? with
  | none =>
    have hnone : c.flight = none := hflight.trans hwait
    have haborted : c.giveUp.aborted = false := (h.aborted_of_flight hc hnone :)
    exact h.outside hupdates rfl rfl rfl rfl
      (fun d hd => Option.some.inj (hc.symm.trans hd) ▸ hnone) hnone haborted nofun
  | some f =>
    exact h.leaves hc hload hwait hupdates rfl rfl rfl
      (fun _ => LoaderState.get?_inFlight_release ..) (LoaderState.cancelled_release ..)
      (LoaderState.lastFlight_release ..) (.inl (LoaderState.loaded_release ..))

/-- An abortion takes the language from the list and marks the load that was entered there. -/
theorem abort (h : Sound s callers) (lang : String) :
    Sound (s.abort lang).1 (callers.map (Caller.abort lang)) := by
  -- Aborting changes no caller's number, load or flight, only whether it is aborted.
  have hcases {i : Nat} {d : Caller} (hd : (callers.map (Caller.abort lang))[i]? = some d) :
      ∃ c, callers[i]? = some c ∧ d = c.abort lang := by
    rw [List.getElem?_map, Option.map_eq_some_iff] at hd
    obtain ⟨c, hc, rfl⟩ := hd
    exact ⟨c, hc, rfl⟩
  constructor
  case own =>
    intro i d language wait hd hload
    obtain ⟨c, hc, rfl⟩ := hcases hd
    rw [Caller.load_abort] at hload
    simpa using h.own hc hload
  case le_last =>
    intro i d f hd hf
    obtain ⟨c, hc, rfl⟩ := hcases hd
    exact h.le_last hc (by simpa using hf)
  case unique =>
    intro i j d d' f hd hd' hf hf'
    obtain ⟨c, hc, rfl⟩ := hcases hd
    obtain ⟨c', hc', rfl⟩ := hcases hd'
    exact h.unique hc hc' (by simpa using hf) (by simpa using hf')
  case flight_of_aborted =>
    intro i d hd ha
    obtain ⟨c, hc, rfl⟩ := hcases hd
    rw [Caller.aborted_abort, Bool.or_eq_true, decide_eq_true_eq] at ha
    rw [Caller.flight_abort]
    rcases ha with ha | ⟨_, _, hsome⟩
    · exact h.flight_of_aborted hc ha
    · exact hsome
  case cancelled_le_last =>
    intro f hf
    rcases (LoaderState.isCancelled_abort ..).1 hf with hf | hf
    · obtain ⟨i, c, hc, hholds⟩ := h.inFlight_iff.1 hf
      exact h.le_last hc hholds.2.2.2
    · exact h.cancelled_le_last hf
  case isCancelled_iff =>
    intro i d f hd hrunning hf
    obtain ⟨c, hc, rfl⟩ := hcases hd
    rw [Caller.isRunning_abort] at hrunning
    rw [Caller.flight_abort] at hf
    rw [LoaderState.isCancelled_abort, Caller.aborted_abort, h.isCancelled_iff hc hrunning hf,
      Bool.or_eq_true, decide_eq_true_eq, or_comm]
    -- Of the language, it is the one that is under way that gets cancelled; the others were before.
    constructor
    · rintro (ha | hin)
      · exact .inl ha
      · obtain ⟨j, e, he, hholds⟩ := h.inFlight_iff.1 hin
        obtain rfl := h.unique he hc hholds.2.2.2 hf
        obtain rfl := Option.some.inj (he.symm.trans hc)
        exact .inr ⟨hholds.2.2.1, hrunning, hf ▸ rfl⟩
    · rintro (ha | ⟨hlang, _, _⟩)
      · exact .inl ha
      · cases ha : c.aborted with
        | true => exact .inl rfl
        | false => exact .inr (h.inFlight_iff.2 ⟨i, c, hc, hrunning, ha, hlang, hf⟩)
  case inFlight_iff =>
    intro other f
    rw [LoaderState.get?_inFlight_abort]
    constructor
    · intro hf
      split at hf
      · cases hf
      · next hother =>
        obtain ⟨i, c, hc, hrunning, ha, hlang, hflight⟩ := h.inFlight_iff.1 hf
        refine ⟨i, c.abort lang, by simp [hc], by simpa using hrunning, ?_, by simpa using hlang,
          by simpa using hflight⟩
        simp [Caller.aborted_abort, ha, hlang, hother]
    · rintro ⟨i, d, hd, hrunning, ha, hlang, hflight⟩
      obtain ⟨c, hc, rfl⟩ := hcases hd
      rw [Caller.isRunning_abort] at hrunning
      rw [Caller.lang_abort] at hlang
      rw [Caller.flight_abort] at hflight
      simp only [Caller.aborted_abort, hlang, hrunning, hflight, Option.isSome_some, and_true,
        Bool.or_eq_false_iff, decide_eq_false_iff_not] at ha
      rw [if_neg ha.2]
      exact h.inFlight_iff.2 ⟨i, c, hc, hrunning, ha.1, hlang, hflight⟩
  case apart =>
    intro other f hf
    rw [LoaderState.get?_inFlight_abort] at hf
    rw [LoaderState.get?_loaded_abort]
    split at hf
    · cases hf
    · next hother => rw [if_neg hother]; exact h.apart hf

end Sound

variable {env : Loader} {keep : Traffic → Event → Prop} {w w' : Traffic}

/-- Every event keeps all sound. -/
theorem sound_step (h : Sound w.state w.callers) (e : Event) :
    Sound (w.step env e).state (w.step env e).callers := by
  have hhappens := happens_step env h.fresh e
  generalize (w.step env e).state = s', (w.step env e).callers = callers' at hhappens ⊢
  cases hhappens with
  | nothing => exact h
  | calls hupdates =>
    refine h.outside hupdates rfl rfl rfl rfl (by simp) rfl rfl fun language wait hload => ?_
    obtain ⟨hlang, rfl⟩ := Loader.eq_engine_of_begin (Option.some.inj hload)
    exact ⟨hlang, rfl⟩
  | turns hc hload hturn hupdates => exact h.turn hc hload hturn hupdates
  | leaves hc hload hupdates => exact h.giveUp hc hload hupdates
  | aborts => exact h.abort _

/-- What every event keeps that keeps to a condition is kept by all of them. -/
theorem of_leads {P : Traffic → Prop} (hsound : Sound w.state w.callers) (hw : P w)
    (hstep : ∀ w e, Sound w.state w.callers → P w → keep w e → P (w.step env e))
    (hleads : Leads env keep w w') : Sound w'.state w'.callers ∧ P w' := by
  induction hleads with
  | refl => exact ⟨hsound, hw⟩
  | tail _ hnext ih =>
    obtain ⟨e, hkeep, rfl⟩ := hnext
    exact ⟨sound_step ih.1 e, hstep _ e ih.1 ih.2 hkeep⟩

/-- In every state that events lead to all is sound. -/
theorem sound_of_reachable (h : Reachable env w) : Sound w.state w.callers :=
  (of_leads (P := fun _ => True) .initial trivial (fun _ _ _ _ _ => trivial) h).1

end Traffic

end SymbolPaths
