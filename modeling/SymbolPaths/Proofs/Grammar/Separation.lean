import Mathlib.Data.List.Forall2
import SymbolPaths.Proofs.Grammar.Parts

/-!
# Languages side by side

The languages of a loader share what it remembers, the numbers of its loads, and the directory
of its cache. Yet what those see who have to do with one language does not depend on what others
do meanwhile with other languages: if that had not happened, they would have seen the same. For
the loader that is always so. For the disk it is so if no file has two names, and if making the
directory of the cache brings no payload of the language to light.

Two runs are compared. They are alike for the language at first (`Site.AreAlike`), and an act
that the language has to do with happens in both, while any other one happens in the first run
only.

* `Site.alike_act`: after an act that the language has to do with;
* `Site.alike_run`: after all acts;
* `Site.isSeparate_run`: what those see who have to do with the language.

The loads of other languages change three things that a load of the language can come across: the
numbers that the loader gives out, the numbers of the files on the disk, and whether the directory
of the cache was made. So the two runs are not equal in these, and the relation between them has
to leave them open: it comes from `Loader.AreAlike` for the loads and from `GrammarCache.AreAlike`
for the disks. The proof is then one step for each kind of act, and an induction on the acts.
-/

namespace SymbolPaths

namespace Caller

/-- Whether the load of a caller is one of those under way. -/
def isEntered (c : Caller) : Bool := c.isRunning && !c.aborted && c.flight.isSome

theorem isLike_start {lang : String} {s t : LoaderState} (T : Nat → Nat → Prop)
    (h : LoaderState.AreAlike lang s t) : (start s lang).IsLike T (start t lang) :=
  ⟨rfl, .some (Loader.isLike_begin T h), rfl, rfl⟩

theorem IsLike.isEntered {T : Nat → Nat → Prop} {a b : Caller} (h : a.IsLike T b) :
    a.isEntered = b.isEntered := by
  rw [Caller.isEntered, Caller.isEntered, h.isRunning, h.aborted, h.flight]

end Caller

namespace Traffic

variable {w : Traffic} {lang : String} {number k : Nat}

/-- A language is being loaded if a load of it is under way. -/
theorem isAcquiring_eq (h : Sound w.state w.callers) (lang : String) :
    w.state.isAcquiring lang = (w.own lang).any Caller.isEntered := by
  rw [Bool.eq_iff_iff, LoaderState.isAcquiring_eq_true, List.any_eq_true]
  constructor
  · rintro ⟨f, hf⟩
    obtain ⟨i, c, hc, hrunning, haborted, hlang, hflight⟩ := h.inFlight_iff.1 hf
    refine ⟨c, List.mem_filter.2 ⟨List.mem_of_getElem? hc, by simpa using hlang⟩, ?_⟩
    simp [Caller.isEntered, hrunning, haborted, hflight]
  · rintro ⟨c, hc, hentered⟩
    obtain ⟨hmem, hlang⟩ := List.mem_filter.1 hc
    obtain ⟨i, hi⟩ := List.mem_iff_getElem?.1 hmem
    simp only [Caller.isEntered, Bool.and_eq_true, Bool.not_eq_true'] at hentered
    obtain ⟨⟨hrunning, haborted⟩, hflight⟩ := hentered
    obtain ⟨f, hf⟩ := Option.isSome_iff_exists.1 hflight
    exact ⟨f, h.inFlight_iff.2 ⟨i, c, hi, hrunning, haborted, by simpa using hlang, hf⟩⟩

theorem exists_of_number? (hk : w.number? lang number = some k) :
    ∃ c, w.callers[number]? = some c ∧ c.lang = lang ∧
      k = (w.callers.take number).countP (·.lang = lang) := by
  rw [number?] at hk
  split at hk
  · next hany =>
    obtain ⟨c, hc, hlang⟩ := (Option.any_eq_true ..).1 hany
    exact ⟨c, hc, by simpa using hlang, (Option.some.inj hk).symm⟩
  · cases hk

/-- If some of a list are related to those of another list one by one, each of them is related to
    the one that has its number among them, and both may come further. -/
theorem exists_related {α β : Type} {R : α → β → Prop} {p : α → Bool} {l : List α}
    {l' : List β} (h : List.Forall₂ R (l.filter p) l') {n : Nat} {a : α} (hn : l[n]? = some a)
    (ha : p a = true) : ∃ b, l'[(l.take n).countP p]? = some b ∧ R a b ∧
      ∀ {R' : α → β → Prop} {f : α → α} {g : β → β}, (∀ x y, R x y → R' x y) → p (f a) = true →
        R' (f a) (g b) →
        List.Forall₂ R' ((l.modify n f).filter p) (l'.modify ((l.take n).countP p) g) := by
  -- The element's number among those that satisfy `p` is how many of them stand before it.
  induction l generalizing n l' with
  | nil => cases hn
  | cons x l ih =>
    cases n with
    | zero =>
      obtain rfl := Option.some.inj hn
      rw [List.filter_cons_of_pos ha] at h
      cases h with
      | @cons _ b _ l' hb hl =>
        refine ⟨b, rfl, hb, fun {R' f g} hR hf hfg => ?_⟩
        rw [List.modify_zero_cons, List.filter_cons_of_pos hf]
        exact .cons hfg (hl.imp hR)
    | succ n =>
      by_cases hx : p x = true
      · rw [List.filter_cons_of_pos hx] at h
        cases h with
        | @cons _ y _ l' hy hl =>
          obtain ⟨b, hb, hab, hmodify⟩ := ih hl hn
          rw [List.take_succ_cons, List.countP_cons_of_pos hx]
          refine ⟨b, hb, hab, fun {R' f g} hR hf hfg => ?_⟩
          rw [List.modify_succ_cons, List.filter_cons_of_pos hx]
          exact .cons (hR x y hy) (hmodify hR hf hfg)
      · rw [List.filter_cons_of_neg hx] at h
        rw [List.take_succ_cons, List.countP_cons_of_neg hx]
        obtain ⟨b, hb, hab, hmodify⟩ := ih h hn
        refine ⟨b, hb, hab, fun {R' f g} hR hf hfg => ?_⟩
        rw [List.modify_succ_cons, List.filter_cons_of_neg hx]
        exact hmodify hR hf hfg

end Traffic

namespace Site

/-- Whether two sites are alike for a language, of which the second one has no callers but those
    of the language. -/
structure AreAlike (c : GrammarCache) (lang : String) (s t : Site) : Prop where
  /-- The callers of the language have one each, in the same order. -/
  callers : List.Forall₂ (Caller.IsLike (c.AreTied lang s.disk t.disk)) (s.traffic.own lang)
    t.traffic.callers
  /-- The loaders remember the same of it. -/
  state : LoaderState.AreAlike lang s.traffic.state t.traffic.state
  /-- The disks are alike for it. -/
  disk : c.AreAlike lang s.disk t.disk

/-- What those see who have to do with a language. -/
structure Agree (c : GrammarCache) (lang : String) (s t : Site) : Prop where
  /-- The same came of the loads of the language, in the order in which they were called. -/
  results : (s.traffic.own lang).map Caller.result? = (t.traffic.own lang).map Caller.result?
  /-- The same grammar is there, or none. -/
  loaded : s.traffic.state.loaded.get? lang = t.traffic.state.loaded.get? lang
  /-- Whether it is there is told alike. -/
  has : s.traffic.state.has lang = t.traffic.state.has lang
  /-- Whether it is being loaded is told alike. -/
  isAcquiring : s.traffic.state.isAcquiring lang = t.traffic.state.isAcquiring lang
  /-- Who aborts the language now is told the same. -/
  abort : (s.traffic.state.abort lang).2 = (t.traffic.state.abort lang).2
  /-- The same payload can be read. -/
  payload : c.payload? lang s.disk = c.payload? lang t.disk
  /-- The same is found in the cache. -/
  exists? : c.exists? lang s.disk = c.exists? lang t.disk

variable {env : Loader} {c : GrammarCache} {lang : String} {s t s' : Site} {a b : Act}
  {number k : Nat} {reply reply' : LoadReply} {language : Language} {wait wait' : LoadWait}
  {load load' : Load} {u' v' : Disk} {op op' : DiskCall}

theorem AreAlike.refl_booted (c : GrammarCache) (lang : String) (d : Disk) :
    AreAlike c lang (booted d) (booted d) :=
  ⟨.nil, .refl lang _, .refl c lang d⟩

/-- An act that the language has nothing to do with. -/
theorem AreAlike.of_spares (h : AreAlike c lang s t) (hspares : Spares c lang s s') :
    AreAlike c lang s' t := by
  have hstay := hspares.disk h.disk
  refine ⟨?_, hspares.state.trans h.state, hstay.alike⟩
  rw [hspares.own]
  exact h.callers.imp fun _ _ hlike => hlike.mono hstay.tied

/-- What the callers of both have in common. -/
theorem AreAlike.map_eq {α : Type} (h : AreAlike c lang s t) {f : Caller → α}
    (hf : ∀ {T : Nat → Nat → Prop} {a b : Caller}, a.IsLike T b → f a = f b) :
    (s.traffic.own lang).map f = t.traffic.callers.map f := by
  have hcallers := h.callers
  generalize s.traffic.own lang = l, t.traffic.callers = l' at hcallers
  induction hcallers with
  | nil => rfl
  | cons hlike _ ih => rw [List.map_cons, List.map_cons, hf hlike, ih]

theorem AreAlike.lang_eq (h : AreAlike c lang s t) {d : Caller} (hd : d ∈ t.traffic.callers) :
    d.lang = lang := by
  have hmem : d.lang ∈ (s.traffic.own lang).map Caller.lang := by
    rw [h.map_eq Caller.IsLike.lang]
    exact List.mem_map_of_mem hd
  obtain ⟨a, ha, heq⟩ := List.mem_map.1 hmem
  rw [← heq]
  simpa using (List.mem_filter.1 ha).2

theorem AreAlike.own_eq (h : AreAlike c lang s t) : t.traffic.own lang = t.traffic.callers :=
  List.filter_eq_self.2 fun _ hd => by simpa using h.lang_eq hd

theorem AreAlike.isAcquiring (hs : IsTidy c lang s) (ht : IsTidy c lang t)
    (h : AreAlike c lang s t) :
    s.traffic.state.isAcquiring lang = t.traffic.state.isAcquiring lang := by
  have hany {l : List Caller} : l.any Caller.isEntered = (l.map Caller.isEntered).any id := by
    rw [List.any_map]
    rfl
  rw [Traffic.isAcquiring_eq hs.orderly.sound, Traffic.isAcquiring_eq ht.orderly.sound, h.own_eq,
    hany, hany, h.map_eq Caller.IsLike.isEntered]

theorem agree_of_alike (hlang : '/' ∉ lang.toList) (hs : IsTidy c lang s) (ht : IsTidy c lang t)
    (h : AreAlike c lang s t) : Agree c lang s t := by
  have hhas : s.traffic.state.has lang = t.traffic.state.has lang := by
    rw [LoaderState.has, LoaderState.has, Table.contains, Table.contains, h.state.loaded]
  have hacquiring := h.isAcquiring hs ht
  constructor
  case results => rw [h.own_eq, h.map_eq Caller.IsLike.result?]
  case loaded => exact h.state.loaded
  case has => exact hhas
  case isAcquiring => exact hacquiring
  case abort => simp only [LoaderState.abort, hacquiring, hhas]
  case payload => exact GrammarCache.payload?_of_alike hlang h.disk hs.plain ht.plain
  case exists? => exact GrammarCache.exists?_of_alike hlang h.disk hs.plain ht.plain

/-! ### An act that the language has to do with -/

/-- A caller of the language and the one that has its number among those of the language may both
    come further. -/
theorem AreAlike.exists_like (h : AreAlike c lang s t)
    (hk : s.traffic.number? lang number = some k) :
    ∃ d d', s.traffic.callers[number]? = some d ∧ t.traffic.callers[k]? = some d' ∧
      d.lang = lang ∧ d.IsLike (c.AreTied lang s.disk t.disk) d' ∧
      ∀ {T : Nat → Nat → Prop} {f g : Caller → Caller},
        (∀ {n m : Nat}, c.AreTied lang s.disk t.disk n m → T n m) → (f d).lang = lang →
        (f d).IsLike T (g d') → List.Forall₂ (Caller.IsLike T)
          ((s.traffic.callers.modify number f).filter (·.lang = lang))
          (t.traffic.callers.modify k g) := by
  obtain ⟨d, hd, hlang, rfl⟩ := Traffic.exists_of_number? hk
  obtain ⟨d', hd', hlike, hmodify⟩ := Traffic.exists_related h.callers hd (by simpa using hlang)
  refine ⟨d, d', hd, hd', hlang, hlike, fun hT hf hfg => ?_⟩
  exact hmodify (fun _ _ hlike => hlike.mono hT) (by simpa using hf) hfg

/-- The loads of both. -/
theorem AreAlike.load_cases (h : AreAlike c lang s t)
    (hk : s.traffic.number? lang number = some k) :
    (s.traffic.load? number = none ∧ t.traffic.load? k = none) ∨
      ∃ load load', s.traffic.load? number = some load ∧ t.traffic.load? k = some load' ∧
        load.IsLike (c.AreTied lang s.disk t.disk) load' := by
  obtain ⟨d, d', hd, hd', -, hlike, -⟩ := h.exists_like hk
  rw [Traffic.load?, Traffic.load?, hd, hd', Option.bind_some, Option.bind_some]
  exact hlike.load_cases

/-- Loads that are told the same. -/
theorem AreAlike.outcome (hcache : env.cache = some c) (hs : IsTidy c lang s)
    (ht : IsTidy c lang t) (h : AreAlike c lang s t)
    (hk : s.traffic.number? lang number = some k) {T : Nat → Nat → Prop}
    (hload : s.traffic.load? number = some (.waiting language wait))
    (hload' : t.traffic.load? k = some (.waiting language wait'))
    (hanswers : Loader.Answers T wait reply wait' reply') :
    Loader.AreAlike T lang (Loader.resume env s.traffic.state (.waiting language wait) reply)
      (Loader.resume env t.traffic.state (.waiting language wait') reply') := by
  obtain ⟨d, d', hd, hd', hlang, hlike, -⟩ := h.exists_like hk
  have hdload := Traffic.load_of_load? hd hload
  have hdload' := Traffic.load_of_load? hd' hload'
  obtain ⟨hname, hflight⟩ := hs.orderly.sound.own hd hdload
  obtain ⟨-, hflight'⟩ := ht.orderly.sound.own hd' hdload'
  obtain rfl : language.name = lang := hname.trans hlang
  refine Loader.alike_resume (by rw [hcache]; rfl) h.state (h.isAcquiring hs ht) ?_ hanswers
  intro f g hf hg
  -- The numbers differ, but both loads were aborted or neither was.
  rw [Bool.eq_iff_iff, hs.orderly.sound.isCancelled_iff hd (Caller.isRunning_of_load hdload)
      (hflight.trans hf), hlike.aborted,
    ht.orderly.sound.isCancelled_iff hd' (Caller.isRunning_of_load hdload') (hflight'.trans hg)]

/-- Two loads are carried on, with what becomes of the disks meanwhile. -/
theorem AreAlike.resume (h : AreAlike c lang s t) (hk : s.traffic.number? lang number = some k)
    (hload : s.traffic.load? number = some load) (hload' : t.traffic.load? k = some load')
    (hstay : c.StayAlike lang s.disk t.disk u' v')
    (houtcome : Loader.AreAlike (c.AreTied lang u' v') lang
      (Loader.resume env s.traffic.state load reply)
      (Loader.resume env t.traffic.state load' reply')) :
    AreAlike c lang ⟨s.traffic.step env (.resume number reply), u'⟩
      ⟨t.traffic.step env (.resume k reply'), v'⟩ := by
  obtain ⟨d, d', hd, hd', hlang, hlike, hmodify⟩ := h.exists_like hk
  have hdload := Traffic.load_of_load? hd hload
  have hdload' := Traffic.load_of_load? hd' hload'
  rw [Traffic.step_resume hd hdload, Traffic.step_resume hd' hdload']
  exact ⟨hmodify hstay.tied hlang (hlike.carryOn houtcome.load), houtcome.state, hstay.alike⟩

/-- Two loads are given up. -/
theorem AreAlike.giveUp (h : AreAlike c lang s t) (hk : s.traffic.number? lang number = some k) :
    AreAlike c lang ⟨s.traffic.step env (.giveUp number), s.disk⟩
      ⟨t.traffic.step env (.giveUp k), t.disk⟩ := by
  obtain ⟨d, d', hd, hd', hlang, hlike, hmodify⟩ := h.exists_like hk
  rcases h.load_cases hk with ⟨hload, hload'⟩ | ⟨load, load', hload, hload', hloads⟩
  · simp only [Traffic.step, Traffic.giveUp, hload, hload']
    exact h
  · have hdload := Traffic.load_of_load? hd hload
    have hdload' := Traffic.load_of_load? hd' hload'
    cases hloads with
    | finished result =>
      simp only [Traffic.step, Traffic.giveUp, hload, hload', Load.isFinished, if_true]
      exact h
    | waiting language hwait =>
      rw [Traffic.step_giveUp hd hdload rfl, Traffic.step_giveUp hd' hdload' rfl]
      refine ⟨hmodify id hlang hlike.giveUp, ?_, h.disk⟩
      exact ((Loader.alike_drop lang _ language _).trans h.state).trans
        (Loader.alike_drop lang _ language _).symm

theorem AreAlike.call (h : AreAlike c lang s t) :
    AreAlike c lang ⟨s.traffic.call lang, s.disk⟩ ⟨t.traffic.call lang, t.disk⟩ := by
  refine ⟨?_, h.state, h.disk⟩
  have hown : (s.traffic.call lang).own lang =
      s.traffic.own lang ++ [Caller.start s.traffic.state lang] := by
    simp [Traffic.call, Traffic.own, Caller.start]
  rw [hown]
  exact List.rel_append h.callers (.cons (Caller.isLike_start _ h.state) .nil)

theorem AreAlike.abort (h : AreAlike c lang s t) :
    AreAlike c lang ⟨s.traffic.abort lang, s.disk⟩ ⟨t.traffic.abort lang, t.disk⟩ := by
  refine ⟨?_, LoaderState.alike_abort h.state, h.disk⟩
  have hown : (s.traffic.abort lang).own lang = (s.traffic.own lang).map (Caller.abort lang) := by
    simp only [Traffic.own, Traffic.abort, List.filter_map, Function.comp_def, Caller.lang_abort]
  have hcallers : (t.traffic.abort lang).callers = t.traffic.callers.map (Caller.abort lang) := rfl
  rw [hown, hcallers, List.forall₂_map_left_iff, List.forall₂_map_right_iff]
  exact h.callers.imp fun _ _ hlike => hlike.abort lang

/-! ### The disk -/

/-- Whether the disk replies the same to two loads. -/
structure RepliesAlike (c : GrammarCache) (lang : String) (u v : Disk) (wait wait' : LoadWait)
    (x y : LoadReply × Disk) : Prop where
  /-- Both are told the same. -/
  answers : Loader.Answers (c.AreTied lang x.2 y.2) wait x.1 wait' y.1
  /-- The disks are alike afterwards. -/
  stay : c.StayAlike lang u v x.2 y.2

/-- An operation fails on both, and does the same harm. -/
theorem stayAlike_spoil (hlang : '/' ∉ lang.toList) (hs : IsTidy c lang s) (ht : IsTidy c lang t)
    (h : c.AreAlike lang s.disk t.disk)
    (hhome : op = .makeDirs c.dir ∨ ∃ p, c.home? s.disk = some p ∧ c.home? t.disk = some p)
    (hmatches : c.Matches lang (c.AreTied lang s.disk t.disk) op op') (harm : Harm) :
    c.StayAlike lang s.disk t.disk (harm.spoil op s.disk) (harm.spoil op' t.disk) := by
  have hperform := GrammarCache.stayAlike_perform hlang hs.orderly.unshared ht.orderly.unshared
    hhome h hmatches
  cases harm with
  | nothing => exact ⟨h, id⟩
  | all => exact hperform
  | other bytes =>
    cases hmatches with
    | writes offset _ htied =>
      exact GrammarCache.stayAlike_perform hlang hs.orderly.unshared ht.orderly.unshared
        (.inr (hhome.resolve_left fun h => by cases h)) h (.writes offset bytes htied)
    | _ => exact hperform

/-- The disk replies the same, or fails the same. -/
theorem repliesAlike (hlang : '/' ∉ lang.toList) (hs : IsTidy c lang s) (ht : IsTidy c lang t)
    (h : c.AreAlike lang s.disk t.disk)
    (hwait : wait.IsLike (c.AreTied lang s.disk t.disk) wait')
    (hu : ∀ f payload write, wait = .store f payload write → write.IsPrepared c s.disk)
    (hv : ∀ f payload write, wait' = .store f payload write → write.IsPrepared c t.disk) :
    Option.Rel (RepliesAlike c lang s.disk t.disk wait wait') (reply? c lang s.disk wait)
        (reply? c lang t.disk wait') ∧
      ∀ cause harm, Option.Rel (RepliesAlike c lang s.disk t.disk wait wait')
        (failure? c lang s.disk cause harm wait) (failure? c lang t.disk cause harm wait') := by
  have hstay : c.StayAlike lang s.disk t.disk s.disk t.disk := ⟨h, id⟩
  -- Only a write changes the disk; a probe and a read show the same on both.
  cases hwait with
  | engine => exact ⟨.none, fun _ _ => .none⟩
  | fetch phase => exact ⟨.none, fun _ _ => .none⟩
  | probe =>
    refine ⟨.some ⟨?_, hstay⟩, fun _ _ => .some ⟨.probes false, hstay⟩⟩
    rw [GrammarCache.exists?_of_alike hlang h hs.plain ht.plain]
    exact .probes _
  | read =>
    refine ⟨.some ⟨?_, hstay⟩, fun _ _ => .some ⟨.readFails, hstay⟩⟩
    have hpayload := GrammarCache.payload?_of_alike hlang h hs.plain ht.plain
    rw [GrammarCache.payload?, GrammarCache.payload?] at hpayload
    cases hread : c.read lang s.disk with
    | ok payload =>
      cases hread' : c.read lang t.disk with
      | ok payload' =>
        rw [hread, hread'] at hpayload
        obtain rfl : payload = payload' := Option.some.inj hpayload
        exact .reads payload
      | error e =>
        rw [hread, hread'] at hpayload
        cases hpayload
    | error e =>
      cases hread' : c.read lang t.disk with
      | ok payload' =>
        rw [hread, hread'] at hpayload
        cases hpayload
      | error e' => exact .readFails
  | @store f g write write' payload hwrite =>
    replace hu := hu _ _ _ rfl
    replace hv := hv _ _ _ rfl
    simp only [reply?, failure?]
    cases hop : write.call? c lang payload with
    | none =>
      rw [CacheWrite.call?_eq_none_of_isLike hwrite hop]
      exact ⟨.none, fun _ _ => .none⟩
    | some op =>
      obtain ⟨op', hop', hmatches⟩ := CacheWrite.exists_call?_of_isLike hwrite hop
      have hhome := CacheWrite.home_of_isPrepared hop h hu hwrite hv
      rw [hop']
      refine ⟨.some ⟨.stores payload ?_, ?_⟩, fun cause harm => .some ?_⟩
      · exact CacheWrite.isLike_next hlang hs.orderly.unshared ht.orderly.unshared h hwrite hu hv
          hop hop'
      · exact GrammarCache.stayAlike_perform hlang hs.orderly.unshared ht.orderly.unshared hhome h
          hmatches
      · have hspoil := stayAlike_spoil hlang hs ht h hhome hmatches harm
        have hnext := CacheWrite.isLike_next_error hwrite cause
        exact ⟨.stores payload (hnext.mono hspoil.tied), hspoil⟩

/-- The disk serves both, or fails both. -/
theorem AreAlike.disk_acts (hlang : '/' ∉ lang.toList) (hcache : env.cache = some c)
    (hs : IsTidy c lang s) (ht : IsTidy c lang t) (h : AreAlike c lang s t)
    (hk : s.traffic.number? lang number = some k) :
    AreAlike c lang (s.serve env number) (t.serve env k) ∧
      ∀ cause harm, AreAlike c lang (s.fail env number cause harm) (t.fail env k cause harm) := by
  rcases h.load_cases hk with ⟨hload, hload'⟩ | ⟨load, load', hload, hload', hloads⟩
  · simp only [serve, fail, hcache, hload, hload']
    exact ⟨h, fun _ _ => h⟩
  · cases hloads with
    | finished result =>
      simp only [serve, fail, hcache, hload, hload']
      exact ⟨h, fun _ _ => h⟩
    | @waiting wait wait' language hwait =>
      obtain ⟨d, d', hd, hd', hlang₀, -, -⟩ := h.exists_like hk
      have hdload := Traffic.load_of_load? hd hload
      have hdload' := Traffic.load_of_load? hd' hload'
      have hname : language.name = lang := (hs.orderly.sound.own hd hdload).1.trans hlang₀
      have hreplies := repliesAlike hlang hs ht h.disk hwait
        (fun f payload write hwait => hs.prepared hd ⟨f, hwait ▸ hdload⟩)
        (fun f payload write hwait => ht.prepared hd' ⟨f, hwait ▸ hdload'⟩)
      -- Both are told, or neither is.
      have htold {x y : Option (LoadReply × Disk)}
          (hxy : Option.Rel (RepliesAlike c lang s.disk t.disk wait wait') x y) :
          AreAlike c lang
            (x.elim s fun r => ⟨s.traffic.step env (.resume number r.1), r.2⟩)
            (y.elim t fun r => ⟨t.traffic.step env (.resume k r.1), r.2⟩) := by
        cases hxy with
        | none => exact h
        | some hxy =>
          exact h.resume hk hload hload' hxy.stay
            (h.outcome hcache hs ht hk hload hload' hxy.answers)
      rw [serve_eq hcache hload, serve_eq hcache hload', hname]
      refine ⟨htold hreplies.1, fun cause harm => ?_⟩
      rw [fail_eq hcache hload, fail_eq hcache hload', hname]
      exact htold (hreplies.2 cause harm)

/-! ### Runs -/

/-- An act that the language has to do with happens in both. -/
theorem alike_act (hlang : '/' ∉ lang.toList) (hcache : env.cache = some c)
    (hs : IsTidy c lang s) (ht : IsTidy c lang t) (h : AreAlike c lang s t)
    (hpart : part? s.traffic lang a = some b) : AreAlike c lang (s.act env a) (t.act env b) := by
  -- The other site takes the part of the act that concerns the language: the same call by the
  -- caller that stands for this one.
  cases a with
  | serve number =>
    obtain ⟨k, hk, rfl⟩ := Option.map_eq_some_iff.1 hpart
    exact (h.disk_acts hlang hcache hs ht hk).1
  | fault number cause harm =>
    obtain ⟨k, hk, rfl⟩ := Option.map_eq_some_iff.1 hpart
    exact (h.disk_acts hlang hcache hs ht hk).2 cause harm
  | event e =>
    cases e with
    | preload langs => cases hpart
    | load other =>
      obtain ⟨rfl, rfl⟩ : other = lang ∧ Act.event (.load lang) = b := by simpa [part?] using hpart
      exact h.call
    | abort other =>
      obtain ⟨rfl, rfl⟩ : other = lang ∧ Act.event (.abort lang) = b := by simpa [part?] using hpart
      exact h.abort
    | advance batch =>
      obtain ⟨hnext, rfl⟩ : s.traffic.next? batch = some lang ∧ Act.event (.load lang) = b := by
        simpa [part?] using hpart
      have hcall := h.call
      refine ⟨?_, ?_, hcall.disk⟩
      · have hown : (s.traffic.advance batch).own lang = (s.traffic.call lang).own lang := by
          rw [Traffic.own, Traffic.own, Traffic.callers_advance, hnext]
          rfl
        exact hown.symm ▸ hcall.callers
      · exact (Traffic.state_advance s.traffic batch).symm ▸ hcall.state
    | giveUp number =>
      obtain ⟨k, hk, rfl⟩ := Option.map_eq_some_iff.1 hpart
      exact h.giveUp hk
    | resume number reply =>
      obtain ⟨k, hk, rfl⟩ := Option.map_eq_some_iff.1 hpart
      have hact (s : Site) (number : Nat) : s.act env (.event (.resume number reply)) =
          if reply.isOfDisk then s else ⟨s.traffic.step env (.resume number reply), s.disk⟩ := rfl
      rw [hact, hact]
      by_cases hdisk : reply.isOfDisk = true
      · rw [if_pos hdisk, if_pos hdisk]
        exact h
      · rw [if_neg hdisk, if_neg hdisk]
        have hstay : c.StayAlike lang s.disk t.disk s.disk t.disk := ⟨h.disk, id⟩
        rcases h.load_cases hk with ⟨hload, hload'⟩ | ⟨load, load', hload, hload', hloads⟩
        · simp only [Traffic.step, Traffic.resume, hload, hload']
          exact h
        · refine h.resume hk hload hload' hstay ?_
          cases hloads with
          | finished result => exact ⟨h.state, .finished result⟩
          | waiting language hwait =>
            exact h.outcome hcache hs ht hk hload hload' (.elsewhere hwait (by simpa using hdisk))

/-- Sites that are alike stay so, when all acts happen in the first one and those that the
    language has to do with in the second one. -/
theorem alike_run (hlang : '/' ∉ lang.toList) (hcache : env.cache = some c)
    (hs : IsTidy c lang s) (ht : IsTidy c lang t) (h : AreAlike c lang s t) (acts : List Act) :
    let s' := run env s acts
    let t' := run env t (only env lang s acts)
    IsTidy c lang s' ∧ IsTidy c lang t' ∧ AreAlike c lang s' t' := by
  induction acts generalizing s t with
  | nil => exact ⟨hs, ht, h⟩
  | cons a acts ih =>
    have hs' := isTidy_act hlang hcache hs a
    rw [only, run, run, List.foldl_cons, List.foldl_append]
    cases hpart : part? s.traffic lang a with
    | none => exact ih hs' ht (h.of_spares (spares_act hlang hcache hs hpart))
    | some b =>
      exact ih hs' (isTidy_act hlang hcache ht b) (alike_act hlang hcache hs ht h hpart)

/-- What a language sees of a run, against the run in which nothing happens but what the language
    has to do with. -/
structure IsSeparate (env : Loader) (c : GrammarCache) (d : Disk) (lang : String)
    (acts : List Act) : Prop where
  /-- At any moment it sees the same. -/
  agree : ∀ before rest, acts = before ++ rest → Agree c lang (run env (booted d) before)
    (run env (booted d) (only env lang (booted d) before))
  /-- The moments follow one another in both runs. -/
  split : ∀ before rest, acts = before ++ rest → only env lang (booted d) acts =
    only env lang (booted d) before ++ only env lang (run env (booted d) before) rest
  /-- In the second run nobody calls any other language. -/
  alone : ∀ caller ∈ (run env (booted d) (only env lang (booted d) acts)).traffic.callers,
    caller.lang = lang

/-- What happens to other languages makes no difference to a language, if no file has two names
    in the directory and nothing comes to light when that is made. -/
theorem isSeparate_run (hlanguage : language ∈ Language.all) (hcache : env.cache = some c)
    {d : Disk} (hunshared : d.IsUnshared c.Contains) (hplain : c.IsPlain language.name d)
    (acts : List Act) :
    IsSeparate env c d language.name acts := by
  have hlang := Language.no_slash hlanguage
  have htidy : IsTidy c language.name (booted d) := isTidy_booted hunshared hplain
  have hrun := alike_run hlang hcache htidy htidy (.refl_booted c language.name d)
  constructor
  case agree =>
    intro before _ _
    obtain ⟨hs, ht, h⟩ := hrun before
    exact agree_of_alike hlang hs ht h
  case split =>
    rintro before rest rfl
    exact only_append env language.name (booted d) before rest
  case alone => exact fun _ hcaller => (hrun acts).2.2.lang_eq hcaller

/-- Two languages are loaded, of which one is aborted while both are stored. The other one is
    stored and loaded as if nothing else had happened. -/
theorem isSeparate_interleaved :
    let env : Loader := { source := .standard, cache := some ⟨"langs"⟩, policy := .once }
    let ready : LoadReply := .engine (.ok ())
    let payload (text : String) : LoadReply := .fetch (.returned (.ok (Text.encode text)))
    let acts : List Act :=
      [.event (.load "python"), .event (.load "rust"), .event (.resume 0 ready),
        .event (.resume 1 ready), .serve 0, .serve 1, .event (.resume 1 (payload "grammar:rust")),
        .event (.resume 0 (payload "grammar:python")), .serve 0, .serve 1, .serve 0, .serve 1,
        .event (.abort "python"), .serve 0, .serve 1, .event (.giveUp 0), .serve 1, .serve 1]
    let language : Language := ⟨"rust", [".rs"], some Query.rust⟩
    let alone := run env (booted .empty) (only env "rust" (booted .empty) acts)
    IsSeparate env ⟨"langs"⟩ .empty "rust" acts ∧
      (only env "rust" (booted .empty) acts).length = 9 ∧
      alone.traffic.result? 0 = some (.ok ⟨language, ⟨"rust"⟩⟩) ∧
      GrammarCache.payload? ⟨"langs"⟩ "rust" alone.disk = some (Text.encode "grammar:rust") := by
  intro env ready payload acts language alone
  have hrust : language ∈ Language.all := by decide
  have hplain : GrammarCache.IsPlain ⟨"langs"⟩ language.name .empty :=
    GrammarCache.isPlain_of_no_up (Language.no_slash hrust) Disk.isTree_empty (by decide)
  have hseparate : IsSeparate env ⟨"langs"⟩ .empty language.name acts :=
    isSeparate_run hrust rfl (Disk.isUnshared_empty _) hplain acts
  exact ⟨hseparate, by decide +kernel, by decide +kernel, by decide +kernel⟩

/-- What is stored for one language may bring the payload of another one to light, if the way to
    the directory leads up from one that has to be made. It may also empty that payload, if a file
    has two names. -/
theorem not_isSeparate_of_hidden_or_shared :
    let env (dir : String) : Loader :=
      { source := .standard, cache := some ⟨dir⟩, policy := .once }
    let acts : List Act :=
      [.event (.load "rust"), .event (.resume 0 (.engine (.ok ()))), .serve 0,
        .event (.resume 0 (.fetch (.returned (.ok [1])))), .serve 0, .serve 0]
    let hidden : Disk :=
      ⟨[(["c"], .directory), (["c", "tree-sitter-python.wasm"], .file 0)], [[7]], by decide⟩
    let shared : Disk :=
      ⟨[(["c"], .directory), (["c", "tree-sitter-python.wasm"], .file 0),
        (["c", "tree-sitter-rust.wasm.tmp"], .file 0)], [[7]], by decide⟩
    (hidden.IsUnshared (GrammarCache.Contains ⟨"a/../c"⟩) ∧
      ¬IsSeparate (env "a/../c") ⟨"a/../c"⟩ hidden "python" acts) ∧
      GrammarCache.IsPlain ⟨"c"⟩ "python" shared ∧
        ¬IsSeparate (env "c") ⟨"c"⟩ shared "python" acts := by
  intro env acts hidden shared
  -- The payload is not what it is when the other language is not loaded.
  have hbreaks {dir : String} {d : Disk}
      (hne : GrammarCache.payload? ⟨dir⟩ "python" (run (env dir) (booted d) acts).disk ≠
        GrammarCache.payload? ⟨dir⟩ "python"
          (run (env dir) (booted d) (only (env dir) "python" (booted d) acts)).disk) :
      ¬IsSeparate (env dir) ⟨dir⟩ d "python" acts :=
    fun h => hne (h.agree acts [] (List.append_nil acts).symm).payload
  refine ⟨⟨?_, hbreaks (by decide +kernel)⟩, ?_, hbreaks (by decide +kernel)⟩
  · exact Disk.isUnshared_of_entries _ (by decide)
  · exact GrammarCache.isPlain_of_home? (p := ["c"]) (by decide +kernel)

end Site

end SymbolPaths
