import SymbolPaths.Proofs.Grammar.Acts
import SymbolPaths.Proofs.Grammar.Likeness

/-!
# The part of one language

Of all that happens to a loader, a language has to do with some acts only: somebody loads it or
aborts it, or one of its loads is carried on, given up, served or failed. If nothing else
happened its callers would have other numbers, but these acts could happen all the same. The
other acts leave alone what the language has to do with.

* `Site.only`: the acts that a language has to do with, as they are when nothing else happens;
* `Site.IsTidy`: what is true of a site at any moment;
* `Site.spares_act`: an act that a language has nothing to do with.

An act is told what it is to a language by counting: the callers of the language keep their order
when all others are left out, so a caller that is one of them gets as its number how many of them
have called before it. That number does not change any more, since callers come at the end and
none goes.

What is true of a site at any moment is needed for the acts of others: that no open file belongs
to two languages, that whoever stores a payload has made the directory, and that the directory
hides nothing.
-/

namespace SymbolPaths

namespace Traffic

/-- Those who have called a language. -/
def own (w : Traffic) (lang : String) : List Caller := w.callers.filter (·.lang = lang)

/-- The number that a caller has among those of a language, if it is one of them. -/
def number? (w : Traffic) (lang : String) (number : Nat) : Option Nat :=
  if w.callers[number]?.any (·.lang = lang) then
    some ((w.callers.take number).countP (·.lang = lang))
  else none

/-- The language of a list that is loaded next, if the load before is over. -/
def next? (w : Traffic) (batch : Nat) : Option String :=
  match w.batches[batch]? with
  | some { rest := lang :: _, current } =>
    if current.all fun number => (w.load? number).any Load.isFinished then some lang else none
  | _ => none

variable {w : Traffic} {lang : String} {number : Nat} {c : Caller}

/-- To go on with a list changes nothing of what the loader remembers: the load is only begun. -/
theorem state_advance (w : Traffic) (batch : Nat) : (w.advance batch).state = w.state := by
  rw [advance]
  split
  · split <;> rfl
  · rfl

/-- The next language of a list has a caller, if the load before is over. -/
theorem callers_advance (w : Traffic) (batch : Nat) :
    (w.advance batch).callers =
      w.callers ++ ((w.next? batch).map (Caller.start w.state)).toList := by
  rw [advance, next?]
  cases w.batches[batch]? with
  | none => simp
  | some b =>
    obtain ⟨rest, current⟩ := b
    cases rest with
    | nil => simp
    | cons lang rest =>
      dsimp only
      split <;> simp [call]

/-- A caller of another language has no number among those of this one. -/
theorem number?_eq_none (hc : w.callers[number]? = some c) :
    w.number? lang number = none ↔ c.lang ≠ lang := by
  simp [number?, hc]

/-- Callers of other languages may come further. -/
theorem filter_modify_of_not {α : Type} {p : α → Bool} {l : List α} {n : Nat} {a : α}
    (hn : l[n]? = some a) (ha : p a = false) {f : α → α} (hf : p (f a) = false) :
    (l.modify n f).filter p = l.filter p := by
  induction l generalizing n with
  | nil => cases hn
  | cons x l ih =>
    cases n with
    | zero =>
      obtain rfl := Option.some.inj hn
      rw [List.modify_zero_cons, List.filter_cons_of_neg (by simp [hf]),
        List.filter_cons_of_neg (by simp [ha])]
    | succ n =>
      rw [List.modify_succ_cons, List.filter_cons, List.filter_cons, ih hn]

end Traffic

namespace Site

/-- The act that an act is to a language when nothing else happens than what the language has to
    do with; there is none if it has nothing to do with the act. -/
def part? (w : Traffic) (lang : String) : Act → Option Act
  | .event (.load other) => if other = lang then some (.event (.load lang)) else none
  | .event (.preload _) => none
  | .event (.advance batch) =>
    if w.next? batch = some lang then some (.event (.load lang)) else none
  | .event (.resume number reply) => (w.number? lang number).map fun k => .event (.resume k reply)
  | .event (.giveUp number) => (w.number? lang number).map fun k => .event (.giveUp k)
  | .event (.abort other) => if other = lang then some (.event (.abort lang)) else none
  | .serve number => (w.number? lang number).map .serve
  | .fault number cause harm => (w.number? lang number).map fun k => .fault k cause harm

/-- A site whose loader nobody has called, and whose engine is up. -/
def booted (d : Disk) : Site :=
  ⟨{ Traffic.initial with state := { LoaderState.initial with ready := true } }, d⟩

/-- The acts that a language has to do with, of those that happen to a site. -/
def only (env : Loader) (lang : String) : Site → List Act → List Act
  | _, [] => []
  | s, a :: acts => (part? s.traffic lang a).toList ++ only env lang (s.act env a) acts

variable {env : Loader} {c : GrammarCache} {lang : String} {s s' : Site} {a : Act} {e : Event}
  {d' : Disk} {number : Nat} {reply : LoadReply} {language : Language} {wait : LoadWait}
  {write : CacheWrite} {payload : Bytes} {call call' : DiskCall}

/-- The acts of a language are told from the acts of all, one after another. -/
theorem only_append (env : Loader) (lang : String) (s : Site) (before rest : List Act) :
    only env lang s (before ++ rest) =
      only env lang s before ++ only env lang (run env s before) rest := by
  induction before generalizing s with
  | nil => rfl
  | cons a before ih =>
    rw [List.cons_append, only, only, ih, List.append_assoc]
    rfl

/-! ### Tidy sites -/

/-- What is true of a site at any moment. Of the orderly files only that of no language is asked
    for, as nobody loads one without a name. -/
structure IsTidy (c : GrammarCache) (lang : String) (s : Site) : Prop where
  /-- The files of the cache are as they should be, whoever stores something. -/
  orderly : Orderly c "" (fun _ => True) s
  /-- Who stores a payload has made the directory. -/
  prepared : ∀ {i : Nat} {d : Caller} {language : Language} {payload : Bytes} {write : CacheWrite},
    s.traffic.callers[i]? = some d → d.Stores language payload write → write.IsPrepared c s.disk
  /-- Making the directory brings no payload of the language to light. -/
  plain : c.IsPlain lang s.disk

/-- A site that nobody has called is tidy, if the disk is as it should be. -/
theorem isTidy_booted {d : Disk} (hunshared : d.IsUnshared c.Contains) (hplain : c.IsPlain lang d) :
    IsTidy c lang (booted d) := by
  have h : Orderly c "" (fun _ => True) ⟨.initial, d⟩ :=
    orderly_initial hunshared fun _ _ => trivial
  refine ⟨⟨?_, h.listed, h.unshared, h.owns, h.stored, h.storing⟩, fun hc => ?_, hplain⟩
  · exact ⟨h.sound.own, h.sound.le_last, h.sound.unique, h.sound.flight_of_aborted,
      h.sound.cancelled_le_last, h.sound.isCancelled_iff, h.sound.inFlight_iff, h.sound.apart⟩
  · simp [booted, Traffic.initial] at hc

/-- No load stores a payload of no language, so no event can spoil that. -/
theorem IsTidy.keeps (h : IsTidy c lang s) (e : Event) : Keeps "" (fun _ => True) s e where
  brings _ _ _ _ _ _ := trivial
  stops number d hd hlang _ := by
    rintro ⟨language, payload, write, flight, hload⟩
    have hnamed : ∀ l ∈ Language.all, l.name ≠ "" := by decide
    refine hnamed language (h.orderly.listed number d language _ hd hload) ?_
    exact (h.orderly.sound.own hd hload).1.trans hlang

/-- An operation leaves the directory where it is. -/
theorem isPrepared_perform {d : Disk} (h : write.IsPrepared c d) (call : DiskCall) :
    write.IsPrepared c (call.perform d).1 :=
  h.imp_right fun h => h.imp_right fun ⟨p, hhome⟩ => ⟨p, GrammarCache.home?_perform call hhome⟩

/-- When the operation that comes next was performed, the directory is there. -/
theorem isPrepared_next {d : Disk} (h : write.IsPrepared c d)
    (hcall : write.call? c lang payload = some call) :
    (write.next (call.perform d).2).IsPrepared c (call.perform d).1 := by
  by_cases hwrite : write = .preparing
  · subst hwrite
    cases hcall
    simp only [DiskCall.perform]
    cases hmake : (d.makeDirs c.dir).2 with
    | error e => exact .inr (.inl ⟨_, rfl⟩)
    | ok => exact .inr (.inr (Disk.directory?_makeDirs hmake))
  · rcases h with h | ⟨r, rfl⟩ | ⟨p, hhome⟩
    · exact absurd h hwrite
    · cases hcall
    · exact .inr (.inr ⟨p, GrammarCache.home?_perform call hhome⟩)

/-- After a failure it is as it was. -/
theorem isPrepared_next_error {d : Disk} (h : write.IsPrepared c d) (e : IoError) :
    (write.next (.error e)).IsPrepared c d := by
  rcases h with rfl | ⟨r, rfl⟩ | hhome
  · exact .inr (.inl ⟨_, rfl⟩)
  · exact .inr (.inl ⟨r, rfl⟩)
  · exact .inr (.inr hhome)

/-- When the disk has replied, the directory is there. -/
theorem isPrepared_of_replies {d : Disk} {flight : Nat} (h : write.IsPrepared c d)
    (hreplies : Replies c lang d (.store flight payload write) reply d') :
    ∃ result, reply = .disk result ∧ (write.next result).IsPrepared c d' := by
  cases hreplies with
  | ends hreply =>
    obtain ⟨call, hcall, heq⟩ := Option.map_eq_some_iff.1 hreply
    cases heq
    exact ⟨_, rfl, isPrepared_next h hcall⟩
  | @storeFails _ _ _ call call' e _ hcall hlike hdone =>
    have hnext := isPrepared_next_error h e
    rcases hdone with rfl | rfl
    · exact ⟨_, rfl, hnext⟩
    · exact ⟨_, rfl, isPrepared_perform hnext call'⟩

/-- What may happen to the disk for a load: nothing, or an operation in storing a payload, which
    may write something else than it should. -/
inductive Touches (c : GrammarCache) (s : Site) (number : Nat) : Disk → Prop
  /-- The disk stays as it is. -/
  | nothing : Touches c s number s.disk
  /-- The operation that the load is at is performed, or one that writes something else. -/
  | performs {d : Caller} {language : Language} {payload : Bytes} {write : CacheWrite}
      {call call' : DiskCall} : s.traffic.callers[number]? = some d →
      d.Stores language payload write → write.call? c language.name payload = some call →
      call.IsLike call' → Touches c s number (call'.perform s.disk).1

/-- A reply of the disk comes with nothing that happens to it, or with an operation that may have
    gone wrong. -/
theorem touches_of_replies (hload : s.traffic.load? number = some (.waiting language wait))
    (h : Replies c language.name s.disk wait reply d') : Touches c s number d' := by
  have hstores {f : Nat} {payload : Bytes} {write : CacheWrite}
      (hwait : wait = .store f payload write) :
      ∃ d, s.traffic.callers[number]? = some d ∧ d.Stores language payload write := by
    subst hwait
    obtain ⟨d, hd, hload⟩ := Traffic.load?_eq_some_iff.1 hload
    exact ⟨d, hd, f, hload⟩
  -- Only a load that stores touches the disk, by the call it is at or by part of it.
  cases h with
  | probeFails => exact .nothing
  | readFails => exact .nothing
  | ends hreply =>
    cases wait with
    | engine => cases hreply
    | fetch => cases hreply
    | probe =>
      cases hreply
      exact .nothing
    | read =>
      cases hreply
      exact .nothing
    | store flight payload write =>
      obtain ⟨call, hcall, heq⟩ := Option.map_eq_some_iff.1 hreply
      cases heq
      obtain ⟨d, hd, hd'⟩ := hstores rfl
      exact .performs hd hd' hcall (.same call)
  | @storeFails flight payload write call call' e _ hcall hlike hdone =>
    obtain ⟨d, hd, hd'⟩ := hstores rfl
    rcases hdone with rfl | rfl
    · exact .nothing
    · exact .performs hd hd' hcall hlike

theorem exists_touches_of_does (hcache : env.cache = some c) (h : Does env s a e d') :
    ∃ number, Touches c s number d' := by
  cases meets_of_does h with
  | elsewhere => exact ⟨0, .nothing⟩
  | @disk _ number _ _ _ _ hcache' hload hreplies =>
    obtain rfl := Option.some.inj (hcache.symm.trans hcache')
    exact ⟨number, touches_of_replies hload hreplies⟩

/-- A write that comes next makes the directory, or finds it there. -/
theorem IsTidy.home (h : IsTidy c lang s) {i : Nat} {d : Caller}
    (hd : s.traffic.callers[i]? = some d) (hstores : d.Stores language payload write)
    (hcall : write.call? c language.name payload = some call) :
    write = .preparing ∨ ∃ p, c.home? s.disk = some p := by
  rcases h.prepared hd hstores with hwrite | ⟨r, rfl⟩ | hhome
  · exact .inl hwrite
  · cases hcall
  · exact .inr hhome

/-- The directory stays plain, as operations make it or find it there. -/
theorem isPlain_of_does (hlang : '/' ∉ lang.toList) (hcache : env.cache = some c)
    (h : IsTidy c lang s) (hdoes : Does env s a e d') : c.IsPlain lang d' := by
  obtain ⟨number, htouches⟩ := exists_touches_of_does hcache hdoes
  cases htouches with
  | nothing => exact h.plain
  | @performs _ _ _ _ _ call' hd hstores hcall hlike =>
    rcases h.home hd hstores hcall with rfl | ⟨p, hhome⟩
    · cases hcall
      cases hlike
      exact GrammarCache.isPlain_of_between hlang (GrammarCache.extends_made c s.disk) (.refl _)
        h.plain
    · exact GrammarCache.isPlain_of_home? (GrammarCache.home?_perform call' hhome)

/-- Who is about to store something still has the directory, whoever the reply is for. -/
theorem isPrepared_of_does (hcache : env.cache = some c) (h : IsTidy c lang s)
    (hdoes : Does env s a e d') {i : Nat} {d : Caller}
    (hd : (s.traffic.step env e).callers[i]? = some d) (hstores : d.Stores language payload write) :
    write.IsPrepared c d' := by
  have hkept {write : CacheWrite} (hwrite : write.IsPrepared c s.disk) :
      write.IsPrepared c d' := by
    obtain ⟨number, htouches⟩ := exists_touches_of_does hcache hdoes
    cases htouches with
    | nothing => exact hwrite
    | @performs _ _ _ _ _ call' => exact isPrepared_perform hwrite call'
  obtain ⟨d₀, hd₀, -, hcases⟩ := Traffic.stores_of_step h.orderly.sound hd hstores
  rcases hcases with ⟨hstores₀, -⟩ | ⟨-, rfl, -⟩ | ⟨result, rfl⟩
  · exact hkept (h.prepared hd₀ hstores₀)
  · exact .inl rfl
  · -- It has just been told what became of an operation.
    cases meets_of_does hdoes with
    | elsewhere helsewhere => cases helsewhere _ _ rfl
    | @disk _ number _ language₀ wait _ hcache' hload hreplies =>
      obtain rfl := Option.some.inj (hcache.symm.trans hcache')
      have hload₀ := Traffic.load_of_load? hd₀ hload
      cases wait with
      | store flight payload₀ write₀ =>
        obtain ⟨_, hreply, hnext⟩ :=
          isPrepared_of_replies (h.prepared hd₀ ⟨flight, hload₀⟩) hreplies
        cases hreply
        obtain ⟨-, -, rfl, -⟩ := Traffic.stores_of_resume_disk hd₀ ⟨flight, hload₀⟩ hd hstores
        exact hnext
      | _ =>
        cases hreplies with
        | ends hreply => cases hreply

/-- An act keeps a site tidy. -/
theorem isTidy_act (hlang : '/' ∉ lang.toList) (hcache : env.cache = some c)
    (h : IsTidy c lang s) (a : Act) : IsTidy c lang (s.act env a) := by
  rcases act_cases env s a with hsame | ⟨e, d', hdoes, hact⟩
  · rwa [hsame]
  · rw [hact]
    exact ⟨orderly_step (by simp) hcache h.orderly (h.keeps e) (meets_of_does hdoes),
      isPrepared_of_does hcache h hdoes, isPlain_of_does hlang hcache h hdoes⟩

/-! ### Acts of others -/

/-- Whether a site that comes after another is the same to a language. -/
structure Spares (c : GrammarCache) (lang : String) (s s' : Site) : Prop where
  /-- The callers of the language are the same. -/
  own : s'.traffic.own lang = s.traffic.own lang
  /-- The loader remembers the same of the language. -/
  state : LoaderState.AreAlike lang s'.traffic.state s.traffic.state
  /-- A disk that was alike to the language still is. -/
  disk : ∀ {v : Disk}, c.AreAlike lang s.disk v → c.StayAlike lang s.disk v s'.disk v

theorem Spares.refl (c : GrammarCache) (lang : String) (s : Site) : Spares c lang s s :=
  ⟨rfl, .refl lang _, fun h => ⟨h, id⟩⟩

/-- Where nothing happens to the disk. -/
theorem Spares.of_traffic {w : Traffic} (hown : w.own lang = s.traffic.own lang)
    (hstate : LoaderState.AreAlike lang w.state s.traffic.state) : Spares c lang s ⟨w, s.disk⟩ :=
  ⟨hown, hstate, fun h => ⟨h, id⟩⟩

theorem own_append_of_ne {w : Traffic} {other : String} (hne : other ≠ lang) :
    (w.callers ++ [Caller.start w.state other]).filter (·.lang = lang) = w.own lang := by
  simp [Caller.start, hne, Traffic.own]

/-- Resuming a load of another language leaves the callers of this one as they are. -/
theorem own_resume_of_other {w : Traffic} (hnumber : w.number? lang number = none)
    (reply : LoadReply) : (w.step env (.resume number reply)).own lang = w.own lang := by
  cases hw : w.load? number with
  | none => simp only [Traffic.step, Traffic.resume, hw]
  | some load =>
    obtain ⟨d, hd, hload⟩ := Traffic.load?_eq_some_iff.1 hw
    have hne := (Traffic.number?_eq_none hd).1 hnumber
    rw [Traffic.step_resume hd hload]
    exact Traffic.filter_modify_of_not hd (by simp [hne]) (by simp [hne])

/-- Resuming a load of another language changes nothing of what is remembered of this one. -/
theorem alike_resume_of_other (h : IsTidy c lang s)
    (hnumber : s.traffic.number? lang number = none) (reply : LoadReply) :
    LoaderState.AreAlike lang (s.traffic.step env (.resume number reply)).state
      s.traffic.state := by
  cases hw : s.traffic.load? number with
  | none =>
    simp only [Traffic.step, Traffic.resume, hw]
    exact .refl lang _
  | some load =>
    obtain ⟨d, hd, hload⟩ := Traffic.load?_eq_some_iff.1 hw
    rw [Traffic.step_resume hd hload]
    cases load with
    | finished result => exact .refl lang _
    | waiting language wait =>
      refine Loader.alike_resume_of_ne (fun hlang => ?_) _ wait reply
      exact (Traffic.number?_eq_none hd).1 hnumber
        ((h.orderly.sound.own hd hload).1.symm.trans hlang.symm)

/-- What happens to the disk for a load of another language. -/
theorem stayAlike_of_touches (hlang : '/' ∉ lang.toList) (h : IsTidy c lang s)
    (hnumber : s.traffic.number? lang number = none) (htouches : Touches c s number d') {v : Disk}
    (halike : c.AreAlike lang s.disk v) : c.StayAlike lang s.disk v d' v := by
  cases htouches with
  | nothing => exact ⟨halike, id⟩
  | @performs d language payload write call call' hd hstores hcall hlike =>
    obtain ⟨flight, hload⟩ := hstores
    have hother := Language.no_slash (h.orderly.listed number d language _ hd hload)
    have hne : lang ≠ language.name := fun hlang =>
      (Traffic.number?_eq_none hd).1 hnumber
        ((h.orderly.sound.own hd hload).1.symm.trans hlang.symm)
    by_cases hwrite : write = .preparing
    · subst hwrite
      cases hcall
      cases hlike
      exact GrammarCache.stayAlike_made halike
    · obtain ⟨p, hhome⟩ := (h.home hd ⟨flight, hload⟩ hcall).resolve_left hwrite
      have hwithin := hlike.isWithin (CacheWrite.isWithin_of_call? hother hcall)
      refine GrammarCache.stayAlike_of_avoids hlang h.orderly.unshared hwithin hhome halike
        (fun q hq => ?_) fun path hmakes => ?_
      · refine hlike.avoids (CacheWrite.avoids_of_ne hlang hother hne hq ?_ hcall)
        rintro n rfl
        exact h.orderly.owns hd ⟨flight, hload⟩
      · subst hmakes
        cases hlike
        exact CacheWrite.ne_makeDirs hcall hwrite path rfl

/-- Giving up a load of another language leaves this one alone. -/
theorem spares_giveUp (hnumber : s.traffic.number? lang number = none) :
    Spares c lang s ⟨s.traffic.step env (.giveUp number), s.disk⟩ := by
  cases hw : s.traffic.load? number with
  | none =>
    simp only [Traffic.step, Traffic.giveUp, hw]
    exact .refl c lang s
  | some load =>
    obtain ⟨d, hd, hload⟩ := Traffic.load?_eq_some_iff.1 hw
    cases load with
    | finished result =>
      simp only [Traffic.step, Traffic.giveUp, hw, Load.isFinished, if_true]
      exact .refl c lang s
    | waiting language wait =>
      have hne := (Traffic.number?_eq_none hd).1 hnumber
      rw [Traffic.step_giveUp hd hload rfl]
      exact .of_traffic (Traffic.filter_modify_of_not hd (by simp [hne])
        (by simp [Caller.giveUp, hne])) (Loader.alike_drop lang _ language wait)

/-- Callers of this language hear nothing of an abortion of another one. -/
theorem own_abort_of_ne {w : Traffic} {other : String} (hne : other ≠ lang) :
    (w.step env (.abort other)).own lang = w.own lang := by
  have hlang : (fun d : Caller => decide (d.lang = lang)) ∘ Caller.abort other =
      fun d => decide (d.lang = lang) := by
    funext d
    rw [Function.comp_apply, Caller.lang_abort]
  simp only [Traffic.own, Traffic.step, Traffic.abort, List.filter_map, hlang]
  refine (List.map_congr_left fun d hd => ?_).trans (List.map_id _)
  have hd' : d.lang = lang := by simpa using (List.mem_filter.1 hd).2
  exact if_neg fun h => hne (h.1.symm.trans hd')

/-- An act that a language has nothing to do with leaves it alone. -/
theorem spares_act (hlang : '/' ∉ lang.toList) (hcache : env.cache = some c)
    (h : IsTidy c lang s) (hpart : part? s.traffic lang a = none) :
    Spares c lang s (s.act env a) := by
  have hresume {number : Nat} {reply : LoadReply} {d' : Disk}
      (hnumber : s.traffic.number? lang number = none)
      (htouches : Touches c s number d') :
      Spares c lang s ⟨s.traffic.step env (.resume number reply), d'⟩ :=
    ⟨own_resume_of_other hnumber reply, alike_resume_of_other h hnumber reply,
      stayAlike_of_touches hlang h hnumber htouches⟩
  -- The act concerns a caller of another language, whose turn touches neither this language's part
  -- of the loader nor its files.
  rcases act_cases env s a with hsame | ⟨e, d', hdoes, hact⟩
  · rw [hsame]
    exact .refl c lang s
  · rw [hact]
    cases hdoes with
    | serves hcache' hload hreply =>
      obtain rfl := Option.some.inj (hcache.symm.trans hcache')
      exact hresume (by simpa [part?] using hpart) (touches_of_replies hload (.ends hreply))
    | fails hcache' hload hfailure =>
      obtain rfl := Option.some.inj (hcache.symm.trans hcache')
      exact hresume (by simpa [part?] using hpart)
        (touches_of_replies hload (replies_of_failure? hfailure))
    | event he =>
      cases e with
      | load other =>
        have hne : other ≠ lang := by simpa [part?] using hpart
        exact .of_traffic (own_append_of_ne hne) (.refl lang _)
      | preload langs => exact .of_traffic rfl (.refl lang _)
      | advance batch =>
        have hne : s.traffic.next? batch ≠ some lang := by simpa [part?] using hpart
        refine .of_traffic ?_ (by rw [Traffic.step, Traffic.state_advance]; exact .refl lang _)
        rw [Traffic.own, Traffic.step, Traffic.callers_advance]
        cases hnext : s.traffic.next? batch with
        | none => simp [Traffic.own]
        | some other => exact own_append_of_ne fun hother => hne (hother ▸ hnext)
      | resume number reply => exact hresume (by simpa [part?] using hpart) .nothing
      | giveUp number => exact spares_giveUp (by simpa [part?] using hpart)
      | abort other =>
        have hne : other ≠ lang := by simpa [part?] using hpart
        exact .of_traffic (own_abort_of_ne hne) (LoaderState.alike_abort_of_ne (Ne.symm hne) _)

end Site

end SymbolPaths
