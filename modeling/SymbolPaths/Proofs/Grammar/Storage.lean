import SymbolPaths.Grammar.Session
import SymbolPaths.Proofs.Grammar.Files
import SymbolPaths.Proofs.Grammar.Sound

/-!
# What is stored

A loader with those who have called it, on a disk with its cache. Loads wait for the disk
as they wait for the engine and the network, but its replies are not left open: an
operation does what it does to the disk, or it fails and may then have done all of it or a
part. Meanwhile other loads act on the disk as well.

A payload is stored before it is made into a grammar. So what is on the disk is what has
come, complete, whether the engine accepts it or not.

* `Site.Leads`: what events lead to;
* `Site.Orderly`: what is true of the files at any moment, as long as no load is stopped
  while it stores a payload;
* `Site.isStocked_of_leads`: what is stored, and when (`Site.IsStocked`).

What a load that stores its payload relies on is what it has itself done to the temporary file.
That survives what all others do: loads of other languages have other files, and of its own
language there is no other load, as long as none is stopped while it stores. A load that is
stopped leaves its open file behind, and the next one of the language may open the same; this is
why the condition on the events (`Site.Keeps`) is there, and several loads that write at once are
the matter of another module.
-/

namespace SymbolPaths

open FilePath (place)

namespace LoadReply

/-- Whether a reply comes from the disk. -/
def isOfDisk : LoadReply → Bool
  | probed _ => true
  | read _ => true
  | disk _ => true
  | engine _ => false
  | fetch _ => false

end LoadReply

namespace Caller

/-- Whether the load of a caller has come so far in storing a payload. -/
def Stores (c : Caller) (language : Language) (payload : Bytes) (write : CacheWrite) : Prop :=
  ∃ flight, c.load = some (.waiting language (.store flight payload write))

/-- Whether the load of a caller is storing a payload. -/
def IsStoring (c : Caller) : Prop := ∃ language payload write, c.Stores language payload write

end Caller

namespace Traffic

variable {env : Loader} {w : Traffic} {number : Nat} {c : Caller} {language : Language}
  {wait : LoadWait} {payload : Bytes} {write : CacheWrite} {e : Event}

/-- Every load that waits is of a language of the registry. -/
def IsListed (w : Traffic) : Prop :=
  ∀ (number : Nat) (c : Caller) (language : Language) (wait : LoadWait),
    w.callers[number]? = some c → c.load = some (.waiting language wait) → language ∈ Language.all

/-- An event leaves only loads of registered languages waiting: a name that is not registered ends
    its load at once. -/
theorem isListed_step (hsound : Sound w.state w.callers) (h : w.IsListed) (e : Event) :
    (w.step env e).IsListed := by
  intro number c language wait hc hload
  cases hd : w.callers[number]? with
  | none =>
    obtain ⟨lang, rfl⟩ := start_of_step hsound.fresh hd hc
    have hbegin : Loader.begin w.state lang = .waiting language wait := Option.some.inj hload
    rw [Loader.begin] at hbegin
    split at hbegin
    · cases hbegin
    · next hfind =>
      split at hbegin
      · cases hbegin
      · cases hbegin
        exact (Language.find?_eq_some hfind).1
  | some d =>
    obtain ⟨c', hc', hcomes⟩ := comes_step hsound.fresh e hd
    obtain rfl := Option.some.inj (hc'.symm.trans hc)
    cases hcomes with
    | stays => exact h number _ language wait hd hload
    | leaves => cases hload
    | aborts => exact h number d language wait hd (Caller.load_abort .. ▸ hload)
    | turns hbefore hturn =>
      obtain rfl := Option.some.inj hload
      generalize (w.step env (.resume number _)).state = s' at hturn
      cases hturn <;> exact h number d language _ hd hbefore

/-- A load that stores a payload was storing it before, or has just downloaded it, or is
    told what became of an operation. -/
theorem stores_of_step (hsound : Sound w.state w.callers)
    (hc : (w.step env e).callers[number]? = some c) (hstores : c.Stores language payload write) :
    ∃ d, w.callers[number]? = some d ∧ c.lang = d.lang ∧
      (d.Stores language payload write ∧ (c.aborted = d.aborted ∨ e = .abort d.lang) ∨
        e = .resume number (.fetch (.returned (.ok payload))) ∧ write = .preparing ∧
          c.aborted = false ∨
        ∃ result, e = .resume number (.disk result)) := by
  obtain ⟨flight, hload⟩ := hstores
  cases hd : w.callers[number]? with
  | none =>
    obtain ⟨lang, rfl⟩ := start_of_step hsound.fresh hd hc
    exact absurd (Loader.eq_engine_of_begin (Option.some.inj hload)).2 nofun
  | some d =>
    refine ⟨d, rfl, ?_⟩
    obtain ⟨c', hc', hcomes⟩ := comes_step hsound.fresh e hd
    obtain rfl := Option.some.inj (hc'.symm.trans hc)
    -- A load stores after a step if it did before, if its download has just come in, or if the disk
    -- has answered.
    cases hcomes with
    | stays => exact ⟨rfl, .inl ⟨⟨flight, hload⟩, .inl rfl⟩⟩
    | leaves => cases hload
    | @aborts lang =>
      refine ⟨Caller.lang_abort .., .inl ⟨⟨flight, Caller.load_abort .. ▸ hload⟩, ?_⟩⟩
      by_cases hlang : d.lang = lang
      · exact .inr (by rw [hlang])
      · exact .inl (by simp [Caller.aborted_abort, hlang])
    | turns hbefore hturn =>
      obtain rfl := Option.some.inj hload
      generalize (w.step env (.resume number _)).state = s' at hturn
      refine ⟨rfl, ?_⟩
      cases hturn with
      | stays => exact .inl ⟨⟨flight, hbefore⟩, .inl rfl⟩
      | enters _ _ _ hwait => rcases hwait with hwait | hwait <;> cases hwait
      | goesOn hflight hfollows =>
        cases hfollows with
        | stores huncancelled hreply =>
          obtain ⟨_, haborted, _⟩ := hsound.holds hd hbefore hflight huncancelled
          exact .inr (.inl ⟨by rw [hreply], rfl, haborted⟩)
        | writes hreply => exact .inr (.inr ⟨_, by rw [hreply]⟩)

/-- A load that is told what became of an operation goes on to the next one. -/
theorem stores_of_resume_disk {d : Caller} {language' : Language} {payload' : Bytes}
    {write' : CacheWrite} {result : Except IoError Nat}
    (hd : w.callers[number]? = some d) (hbefore : d.Stores language' payload' write')
    (hc : (w.step env (.resume number (.disk result))).callers[number]? = some c)
    (hstores : c.Stores language payload write) :
    language = language' ∧ payload = payload' ∧ write = write'.next result ∧
      c.aborted = d.aborted := by
  obtain ⟨flight, hload⟩ := hbefore
  obtain ⟨flight', hload'⟩ := hstores
  rw [getElem?_callers_resume_self hd hload] at hc
  obtain rfl := Option.some.inj hc
  replace hload' := Option.some.inj hload'
  have hfinished {s : LoaderState} {language₀ : Language} {flight₀ : Nat} {payload₀ : Bytes}
      (h : (Loader.commit env s language₀ flight₀ payload₀).2 =
        .waiting language (.store flight' payload write)) : False := by
    have hcommit : (Loader.commit env s language₀ flight₀ payload₀).2.isFinished :=
      Loader.isFinished_commit
    rw [h] at hcommit
    cases hcommit
  simp only [Loader.resume] at hload'
  split at hload'
  · exact (hfinished hload').elim
  · exact (hfinished hload').elim
  · cases hload'
    exact ⟨rfl, rfl, rfl, rfl⟩

end Traffic

/-- A loader with those who have called it, and the disk that its cache is on. -/
structure Site where
  /-- The loader and its callers. -/
  traffic : Traffic
  /-- The disk with the cache. -/
  disk : Disk

namespace Site

/-- What the disk replies to a load of a language that waits for it, when nothing fails, and
    what becomes of the disk. -/
def reply? (c : GrammarCache) (lang : String) (d : Disk) : LoadWait → Option (LoadReply × Disk)
  | .probe _ => some (.probed (c.exists? lang d), d)
  | .read _ => some (.read (c.read lang d), d)
  | .store _ payload write => (write.call? c lang payload).map fun call =>
    (.disk (call.perform d).2, (call.perform d).1)
  | .engine => none
  | .fetch _ _ => none

/-- What the disk may reply to a load of a language that waits for it, and what becomes of
    the disk. -/
inductive Replies (c : GrammarCache) (lang : String) (d : Disk) :
    LoadWait → LoadReply → Disk → Prop
  /-- The disk does what is asked of it. -/
  | ends {wait : LoadWait} {reply : LoadReply} {d' : Disk} :
      reply? c lang d wait = some (reply, d') → Replies c lang d wait reply d'
  /-- Nothing is found, although there may be something. -/
  | probeFails {flight : Nat} : Replies c lang d (.probe flight) (.probed false) d
  /-- Nothing is read, although there may be something. -/
  | readFails {flight : Nat} {e : IoError} : Replies c lang d (.read flight) (.read (.error e)) d
  /-- The operation fails after it has done nothing, or all, or has written something. -/
  | storeFails {flight : Nat} {payload : Bytes} {write : CacheWrite} {call call' : DiskCall}
      {e : IoError} {d' : Disk} : write.call? c lang payload = some call → call.IsLike call' →
      d' = d ∨ d' = (call'.perform d).1 →
      Replies c lang d (.store flight payload write) (.disk (.error e)) d'

/-- What may become of the disk at an event. -/
inductive Meets (env : Loader) (s : Site) : Event → Disk → Prop
  /-- A load that waits for the disk is told what the disk may reply. -/
  | disk {c : GrammarCache} {number : Nat} {reply : LoadReply} {language : Language}
      {wait : LoadWait} {d' : Disk} : env.cache = some c →
      s.traffic.load? number = some (.waiting language wait) →
      Replies c language.name s.disk wait reply d' → Meets env s (.resume number reply) d'
  /-- Any other event leaves the disk alone. -/
  | elsewhere {e : Event} : (∀ number reply, e = .resume number reply → reply.isOfDisk = false) →
      Meets env s e s.disk

/-- Whether events lead from one moment to another, each of which keeps to a
    condition. -/
def Leads (env : Loader) (keep : Site → Event → Prop) : Site → Site → Prop :=
  Relation.ReflTransGen fun s s' => ∃ e, keep s e ∧ s'.traffic = s.traffic.step env e ∧
    Meets env s e s'.disk

/-- What happens when the disk replies to a load that waits for it, and nothing fails. -/
def serve (env : Loader) (s : Site) (number : Nat) : Site :=
  match env.cache, s.traffic.load? number with
  | some c, some (.waiting language wait) =>
    match reply? c language.name s.disk wait with
    | some (reply, disk) => ⟨s.traffic.step env (.resume number reply), disk⟩
    | none => s
  | _, _ => s

/-- Whether an event brings no other payloads of a language than those of a kind, and stops
    no load of the language while it stores one. -/
structure Keeps (lang : String) (Fine : Bytes → Prop) (s : Site) (e : Event) : Prop where
  /-- What is downloaded for the language is of the kind. -/
  brings : ∀ (number : Nat) (d : Caller) (payload : Bytes), s.traffic.callers[number]? = some d →
    d.lang = lang → e = .resume number (.fetch (.returned (.ok payload))) → Fine payload
  /-- No load of the language is aborted or given up while it stores a payload. -/
  stops : ∀ (number : Nat) (d : Caller), s.traffic.callers[number]? = some d → d.lang = lang →
    e = .abort lang ∨ e = .giveUp number → ¬d.IsStoring

/-- What is true of the files of the cache at any moment. -/
structure Orderly (c : GrammarCache) (lang : String) (Fine : Bytes → Prop) (s : Site) : Prop where
  /-- The list and the loads fit together. -/
  sound : Traffic.Sound s.traffic.state s.traffic.callers
  /-- Only registered languages are being loaded. -/
  listed : s.traffic.IsListed
  /-- No file has two names in the directory of the cache. -/
  unshared : s.disk.IsUnshared c.Contains
  /-- A file that is open to be filled is one of its own language. -/
  owns : ∀ {i : Nat} {d : Caller} {language : Language} {payload : Bytes} {n : Nat},
    s.traffic.callers[i]? = some d → d.Stores language payload (.filling n) →
    c.Owns language.name s.disk n
  /-- What is stored for the language is of the kind. -/
  stored : ∀ {payload : Bytes}, c.stored? lang s.disk = some payload → Fine payload
  /-- A load that stores a payload of the language was not aborted, and the temporary file holds
      what it needs next. -/
  storing : ∀ {i : Nat} {d : Caller} {language : Language} {payload : Bytes} {write : CacheWrite},
    s.traffic.callers[i]? = some d → d.Stores language payload write → language.name = lang →
    d.aborted = false ∧ Fine payload ∧ write.Fits c lang payload s.disk

variable {env : Loader} {c : GrammarCache} {lang : String} {Fine : Bytes → Prop} {s s' : Site}
  {e : Event} {d' : Disk} {wait : LoadWait} {reply : LoadReply}

/-- Where no operation comes to an end, the files are as they were. -/
theorem orderly_of_same (h : Orderly c lang Fine s) (hkeeps : Keeps lang Fine s e)
    (hquiet : ∀ number result, e ≠ .resume number (.disk result)) :
    Orderly c lang Fine ⟨s.traffic.step env e, s.disk⟩ := by
  have hsound' : Traffic.Sound (s.traffic.step env e).state (s.traffic.step env e).callers :=
    Traffic.sound_step h.sound e
  constructor
  case sound => exact hsound'
  case listed => exact Traffic.isListed_step h.sound h.listed e
  case unshared => exact h.unshared
  case stored => exact h.stored
  -- Nothing was answered by the disk, so a load that fills a file did so before.
  case owns =>
    intro i d language payload n hd hstores
    obtain ⟨d₀, hd₀, _, hcases⟩ := Traffic.stores_of_step h.sound hd hstores
    rcases hcases with ⟨hstores, _⟩ | ⟨_, hpreparing, _⟩ | ⟨result, he⟩
    · exact h.owns hd₀ hstores
    · cases hpreparing
    · exact absurd he (hquiet _ _)
  case storing =>
    intro i d language payload write hd hstores hlang
    obtain ⟨d₀, hd₀, hdlang, hcases⟩ := Traffic.stores_of_step h.sound hd hstores
    have hown : language.name = d.lang := by
      obtain ⟨_, hload⟩ := hstores
      exact (hsound'.own hd hload).1
    have hlang₀ : d₀.lang = lang := by rw [← hdlang, ← hown, hlang]
    rcases hcases with ⟨hstores, haborted⟩ | ⟨he, rfl, haborted⟩ | ⟨result, he⟩
    · obtain ⟨hnot, hfine, hfits⟩ := h.storing hd₀ hstores hlang
      refine ⟨?_, hfine, hfits⟩
      rcases haborted with haborted | he
      · rw [haborted, hnot]
      · have hstops := hkeeps.stops i d₀ hd₀ hlang₀ (.inl (hlang₀ ▸ he))
        exact absurd ⟨language, payload, write, hstores⟩ hstops
    · exact ⟨haborted, hkeeps.brings i d₀ payload hd₀ hlang₀ he, trivial⟩
    · exact absurd he (hquiet _ _)

/-- What a reply of the disk comes to: no operation came to its end, and the disk is as it
    was, or an operation in storing a payload did, or failed halfway. -/
inductive Acts (c : GrammarCache) (lang : String) (d : Disk) : LoadWait → LoadReply → Disk → Prop
  /-- The disk was only asked something, or not at all. -/
  | quiet {wait : LoadWait} {reply : LoadReply} :
      (∀ result, reply ≠ .disk result) → Acts c lang d wait reply d
  /-- The operation had its effect, and ended well if it is the one that was asked for. -/
  | stores {flight : Nat} {payload : Bytes} {write : CacheWrite} {call call' : DiskCall}
      {result result' : Except IoError Nat} {d' : Disk} :
      write.call? c lang payload = some call → call.IsLike call' → call'.Effect d d' result' →
      call' = call ∧ result' = result ∨ (∃ e, result = .error e) →
      Acts c lang d (.store flight payload write) (.disk result) d'

/-- Whatever the disk replies, it has done what the load is waiting for, or something like it. -/
theorem Replies.acts {d : Disk} (h : Replies c lang d wait reply d') :
    Acts c lang d wait reply d' := by
  cases h with
  | probeFails => exact .quiet fun _ h => by cases h
  | readFails => exact .quiet fun _ h => by cases h
  | ends hreply =>
    cases wait with
    | engine => cases hreply
    | fetch => cases hreply
    | probe =>
      cases hreply
      exact .quiet fun _ h => by cases h
    | read =>
      cases hreply
      exact .quiet fun _ h => by cases h
    | store flight payload write =>
      obtain ⟨call, hcall, heq⟩ := Option.map_eq_some_iff.1 hreply
      cases heq
      exact .stores hcall (.same call) (DiskCall.effect_perform call d) (.inl ⟨rfl, rfl⟩)
  | @storeFails flight payload write call call' e _ hcall hlike hdone =>
    rcases hdone with rfl | rfl
    · exact .stores hcall (.same call) .fails (.inl ⟨rfl, rfl⟩)
    · exact .stores hcall hlike (DiskCall.effect_perform call' d) (.inr ⟨e, rfl⟩)

/-- A load that stores a payload of the language has the entry of the language. -/
theorem holds_of_stores (h : Orderly c lang Fine s) {number : Nat} {d : Caller}
    {language : Language} {payload : Bytes} {write : CacheWrite}
    (hd : s.traffic.callers[number]? = some d) (hstores : d.Stores language payload write)
    (hlang : language.name = lang) : ∃ f, d.Holds lang f := by
  obtain ⟨haborted, _, _⟩ := h.storing hd hstores hlang
  obtain ⟨flight, hload⟩ := hstores
  obtain ⟨hown, hflight⟩ := h.sound.own hd hload
  exact ⟨flight, Caller.isRunning_of_load hload, haborted, hown.symm.trans hlang, hflight⟩

/-- Where an operation in storing a payload comes to its end, the load that stores it goes on
    to the next one, and all others find their files as they were. -/
theorem orderly_of_effect (hslash : '/' ∉ lang.toList) (h : Orderly c lang Fine s)
    {number flight : Nat} {d : Caller} {language : Language} {payload : Bytes} {write : CacheWrite}
    {call call' : DiskCall} {result result' : Except IoError Nat}
    (hd : s.traffic.callers[number]? = some d)
    (hload : d.load = some (.waiting language (.store flight payload write)))
    (hcall : write.call? c language.name payload = some call) (hlike : call.IsLike call')
    (heffect : call'.Effect s.disk d' result')
    (hresult : call' = call ∧ result' = result ∨ ∃ e, result = .error e) :
    Orderly c lang Fine ⟨s.traffic.step env (.resume number (.disk result)), d'⟩ := by
  have hstores : d.Stores language payload write := ⟨flight, hload⟩
  have hlisted := Language.no_slash (h.listed number d language _ hd hload)
  have hwithin : call.IsWithin c.Contains := CacheWrite.isWithin_of_call? hlisted hcall
  -- The files of another language than the one that is stored are as they were.
  have havoids (hne : lang ≠ language.name) {q : Place}
      (hq : q = place (c.path lang) ∨ q = place (c.tempPath lang)) : call.Avoids s.disk q :=
    CacheWrite.avoids_of_ne hslash hlisted hne hq (fun n hn => h.owns hd (hn ▸ hstores)) hcall
  -- The caller is the one that is told, or another one, which is as it was.
  have hcases {i : Nat} {d₁ : Caller} {language₁ : Language} {payload₁ : Bytes}
      {write₁ : CacheWrite}
      (hd₁ : (s.traffic.step env (.resume number (.disk result))).callers[i]? = some d₁)
      (hstores₁ : d₁.Stores language₁ payload₁ write₁) :
      (i = number ∧ language₁ = language ∧ payload₁ = payload ∧ write₁ = write.next result ∧
        d₁.aborted = d.aborted) ∨ (i ≠ number ∧ s.traffic.callers[i]? = some d₁) := by
    by_cases hi : i = number
    · subst hi
      exact .inl ⟨rfl, Traffic.stores_of_resume_disk hd hstores hd₁ hstores₁⟩
    · rw [Traffic.getElem?_callers_resume hi] at hd₁
      exact .inr ⟨hi, hd₁⟩
  constructor
  case sound => exact Traffic.sound_step h.sound _
  case listed => exact Traffic.isListed_step h.sound h.listed _
  case unshared => exact heffect.isUnshared h.unshared (hlike.isWithin hwithin)
  case owns =>
    intro i d₁ language₁ payload₁ n hd₁ hstores₁
    rcases hcases hd₁ hstores₁ with ⟨_, rfl, rfl, hnext, _⟩ | ⟨_, hd₁⟩
    · rcases hresult with ⟨rfl, rfl⟩ | ⟨e, rfl⟩
      · exact CacheWrite.owns_next hlisted h.unshared hcall heffect hnext.symm
      · -- After a failure no file is open.
        cases write <;> cases hnext
    · obtain ⟨flight₁, hload₁⟩ := hstores₁
      exact CacheWrite.owns_of_effect (Language.no_slash (h.listed i d₁ language₁ _ hd₁ hload₁))
        hlisted (h.owns hd₁ ⟨flight₁, hload₁⟩) hcall hlike heffect
  case stored =>
    -- A file changes under its name only by the renaming, from a complete one.
    intro payload₁ hpayload₁
    by_cases hlang : language.name = lang
    · obtain ⟨_, hfine, hfits⟩ := h.storing hd hstores hlang
      rcases CacheWrite.stored?_of_effect h.unshared hslash hfits (hlang ▸ hcall) hlike
          heffect with hkept | ⟨_, hnew⟩
      · exact h.stored (hkept.symm.trans hpayload₁)
      · exact Option.some.inj (hnew.symm.trans hpayload₁) ▸ hfine
    · refine h.stored ?_
      rw [← hpayload₁]
      exact (GrammarCache.stored?_of_avoids hslash h.unshared heffect (hlike.isWithin hwithin)
        (hlike.avoids (havoids (Ne.symm hlang) (.inl rfl)))).symm
  case storing =>
    intro i d₁ language₁ payload₁ write₁ hd₁ hstores₁ hlang
    rcases hcases hd₁ hstores₁ with ⟨_, rfl, rfl, rfl, haborted⟩ | ⟨hi, hd₁⟩
    · obtain ⟨hnot, hfine, hfits⟩ := h.storing hd hstores hlang
      refine ⟨haborted.trans hnot, hfine, ?_⟩
      rcases hresult with ⟨rfl, rfl⟩ | ⟨e, rfl⟩
      · exact CacheWrite.fits_next hfits (hlang ▸ hcall) heffect
      · exact CacheWrite.fits_next_error e
    · obtain ⟨hnot, hfine, hfits⟩ := h.storing hd₁ hstores₁ hlang
      -- Of the language itself nobody else stores a payload.
      have hne : lang ≠ language.name := by
        intro hname
        obtain ⟨f₁, hholds₁⟩ := holds_of_stores h hd₁ hstores₁ hlang
        obtain ⟨f, hholds⟩ := holds_of_stores h hd hstores hname.symm
        exact hi (h.sound.eq_of_holds hd₁ hd hholds₁ hholds)
      have hsame := heffect.sameAt h.unshared (hlike.isWithin hwithin)
        (GrammarCache.contains_tempPath hslash) (hlike.avoids (havoids hne (.inr rfl)))
      exact ⟨hnot, hfine, CacheWrite.fits_of_sameAt hfits hsame⟩

/-- An event keeps the files orderly, whoever it is about. -/
theorem orderly_step (hslash : '/' ∉ lang.toList) (hcache : env.cache = some c)
    (h : Orderly c lang Fine s) (hkeeps : Keeps lang Fine s e) (hmeets : Meets env s e d') :
    Orderly c lang Fine ⟨s.traffic.step env e, d'⟩ := by
  cases hmeets with
  | elsewhere he =>
    refine orderly_of_same h hkeeps fun number result hresume => ?_
    cases he number _ hresume
  | @disk _ number reply language wait _ hcache' hload hreplies =>
    obtain rfl := Option.some.inj (hcache.symm.trans hcache')
    cases hreplies.acts with
    | quiet hquiet =>
      refine orderly_of_same h hkeeps fun _ result hresume => ?_
      exact hquiet result (Event.resume.inj hresume).2
    | stores hcall hlike heffect hresult =>
      obtain ⟨d, hd, hload⟩ := Traffic.load?_eq_some_iff.1 hload
      exact orderly_of_effect hslash h hd hload hcall hlike heffect hresult

/-- The files are orderly before anybody has called. -/
theorem orderly_initial {d : Disk} (hunshared : d.IsUnshared c.Contains)
    (hstored : ∀ payload, c.stored? lang d = some payload → Fine payload) :
    Orderly c lang Fine ⟨.initial, d⟩ where
  sound := .initial
  listed := by simp [Traffic.IsListed, Traffic.initial]
  unshared := hunshared
  owns h := by simp [Traffic.initial] at h
  stored := hstored _
  storing h := by simp [Traffic.initial] at h

/-- Files that are orderly stay so, by induction on the events. -/
theorem orderly_of_leads (hslash : '/' ∉ lang.toList) (hcache : env.cache = some c)
    (h : Orderly c lang Fine s) (hleads : Leads env (Keeps lang Fine) s s') :
    Orderly c lang Fine s' := by
  induction hleads with
  | refl => exact h
  | @tail _ s' _ hnext ih =>
    obtain ⟨e, hkeeps, htraffic, hmeets⟩ := hnext
    obtain ⟨traffic, disk⟩ := s'
    obtain rfl : traffic = _ := htraffic
    exact orderly_step hslash hcache ih hkeeps hmeets

/-- What is stored for a language at any moment. -/
structure IsStocked (env : Loader) (c : GrammarCache) (language : Language) (Fine : Bytes → Prop)
    (s : Site) : Prop where
  /-- It is of the kind of what was stored at first and of what came since. -/
  fine : ∀ payload, c.stored? language.name s.disk = some payload → Fine payload
  /-- So is what a load finds there. -/
  found : ∀ payload, c.read language.name s.disk = .ok payload → Fine payload
  /-- A load that completes what it stores leaves it there, also when the engine does not
      accept it and the load fails. -/
  kept : ∀ (number flight : Nat) (payload : Bytes) (cause : AcquireError) (disk : Disk),
    s.traffic.load? number = some (.waiting language (.store flight payload .naming)) →
    s.disk.rename (c.tempPath language.name) (c.path language.name) = (disk, .ok ()) →
    env.make language.name payload = .error cause →
    c.stored? language.name disk = some payload ∧
      (s.traffic.step env (.resume number (.disk (.ok 0)))).result? number = some (.error cause)

/-- If no other payloads come for a language than those of a kind, and no load of it is
    aborted or given up while it stores one, no others are ever stored. -/
theorem isStocked_of_leads {language : Language} {d : Disk} (hlanguage : language ∈ Language.all)
    (hcache : env.cache = some c) (hunshared : d.IsUnshared c.Contains)
    (hstored : ∀ payload, c.stored? language.name d = some payload → Fine payload)
    (hleads : Leads env (Keeps language.name Fine) ⟨.initial, d⟩ s) :
    IsStocked env c language Fine s := by
  have horderly : Orderly c language.name Fine s :=
    orderly_of_leads (Language.no_slash hlanguage) hcache (orderly_initial hunshared hstored)
      hleads
  constructor
  case fine => exact fun payload => horderly.stored
  case found => exact fun payload hread => horderly.stored (GrammarCache.stored?_of_read hread)
  case kept =>
    intro number flight payload cause disk hload hrename hmake
    obtain ⟨d, hd, hload⟩ := Traffic.load?_eq_some_iff.1 hload
    obtain ⟨haborted, _, hfits⟩ := horderly.storing hd ⟨flight, hload⟩ rfl
    constructor
    · have heffect :=
        DiskCall.effect_rename s.disk (c.tempPath language.name) (c.path language.name)
      rw [hrename] at heffect
      exact CacheWrite.stored?_of_rename hfits heffect
    -- A load that stores is not aborted, so its flight is not cancelled and the grammar is kept.
    · have hcancelled : s.traffic.state.isCancelled flight = false := by
        rw [Bool.eq_false_iff, ne_eq, horderly.sound.isCancelled_iff hd
          (Caller.isRunning_of_load hload) (horderly.sound.own hd hload).2, haborted]
        exact Bool.false_ne_true
      rw [Traffic.result?_resume hd hload]
      simp only [Loader.resume, CacheWrite.next, Loader.commit, hcancelled, Bool.false_eq_true,
        if_false, hmake]
      rfl

/-- A reply breaks no condition if what it brings is fine. -/
theorem keeps_resume {number : Nat}
    (h : ∀ payload, reply = .fetch (.returned (.ok payload)) → Fine payload) :
    Keeps lang Fine s (.resume number reply) where
  brings _ _ payload _ _ he := h payload (Event.resume.inj he).2
  stops _ _ _ _ he := by rcases he with he | he <;> cases he

/-- Anybody may call: a load that begins stores nothing. -/
theorem leads_load {s₀ : Site} (h : Leads env (Keeps lang Fine) s₀ s) (other : String) :
    Leads env (Keeps lang Fine) s₀ ⟨s.traffic.step env (.load other), s.disk⟩ := by
  refine .tail h ⟨.load other, ⟨fun _ _ _ _ _ he => absurd he nofun, fun _ _ _ _ he => ?_⟩, rfl,
    .elsewhere fun _ _ he => absurd he nofun⟩
  rcases he with he | he <;> cases he

/-- Any reply may come from elsewhere than the disk, if what it brings is fine. -/
theorem leads_resume {s₀ : Site} (h : Leads env (Keeps lang Fine) s₀ s) (number : Nat)
    (reply : LoadReply) (hreply : reply.isOfDisk = false)
    (hfine : ∀ payload, reply = .fetch (.returned (.ok payload)) → Fine payload) :
    Leads env (Keeps lang Fine) s₀ ⟨s.traffic.step env (.resume number reply), s.disk⟩ :=
  .tail h ⟨.resume number reply, keeps_resume hfine, rfl,
    .elsewhere fun _ _ he => (Event.resume.inj he).2 ▸ hreply⟩

/-- The disk may serve what is asked of it. -/
theorem leads_serve {s₀ : Site} (h : Leads env (Keeps lang Fine) s₀ s) (number : Nat) :
    Leads env (Keeps lang Fine) s₀ (s.serve env number) := by
  rw [serve]
  split
  · next c language wait hcache hload =>
    split
    · next reply disk hreply =>
      refine .tail h ⟨_, keeps_resume fun payload he => ?_, rfl, .disk hcache hload (.ends hreply)⟩
      subst he
      cases wait with
      | store flight payload write =>
        obtain ⟨call, _, heq⟩ := Option.map_eq_some_iff.1 hreply
        cases heq
      | _ => cases hreply
    · exact h
  · exact h

/-- A payload is downloaded and stored, and is there when the engine has rejected it. -/
theorem isStocked_rejected :
    let env : Loader := { source := .standard, cache := some ⟨"langs"⟩, policy := .once }
    let language : Language := ⟨"rust", [".rs"], some Query.rust⟩
    let s : Site := ⟨Traffic.after env [.load "rust", .resume 0 (.engine (.ok ()))], .empty⟩
    let s : Site := s.serve env 0
    let s : Site := ⟨s.traffic.step env (.resume 0 (.fetch (.returned (.ok [1])))), s.disk⟩
    let s : Site := ((((s.serve env 0).serve env 0).serve env 0).serve env 0).serve env 0
    IsStocked env ⟨"langs"⟩ language (· = [1]) s ∧
      GrammarCache.stored? ⟨"langs"⟩ "rust" s.disk = some [1] ∧
      s.traffic.result? 0 = some (.error (.invalidGrammar "rust" "unexpected payload")) := by
  intro env language s₂ s₃ s₄ s₅
  have h₁ : Leads env (Keeps "rust" (· = [1])) ⟨.initial, .empty⟩ _ := leads_load .refl "rust"
  have h₂ : Leads env (Keeps "rust" (· = [1])) ⟨.initial, .empty⟩ s₂ :=
    leads_resume h₁ 0 (.engine (.ok ())) rfl fun _ he => absurd he nofun
  have h₄ : Leads env (Keeps "rust" (· = [1])) ⟨.initial, .empty⟩ s₄ := by
    refine leads_resume (leads_serve h₂ 0) 0 (.fetch (.returned (.ok [1]))) rfl fun payload he => ?_
    cases he
    rfl
  have h₅ := leads_serve (leads_serve (leads_serve (leads_serve (leads_serve h₄ 0) 0) 0) 0) 0
  have hstocked : IsStocked env ⟨"langs"⟩ language (· = [1]) s₅ :=
    isStocked_of_leads (by decide) rfl (Disk.isUnshared_empty _)
      (fun payload h => by rw [GrammarCache.stored?_empty] at h; cases h) h₅
  exact ⟨hstocked, by decide +kernel, by decide +kernel⟩

end Site

/-- A payload that the engine rejects stays on the disk, where later loads find it: they fail
    without a download, also when another payload would come. -/
theorem Session.keeps_rejected_payload :
    let env : Surroundings :=
      { loader := { source := .standard, cache := some ⟨"c"⟩, policy := .once }
        engine := .ok ()
        network := fun before _ =>
          ⟨0, .ok (Text.encode (if before = 0 then "garbage" else "grammar:python"))⟩ }
    let first := Session.load env (.ofDisk .empty) "python"
    let second := Session.load env first.1 "python"
    first.2 = .error (.invalidGrammar "python" "unexpected payload") ∧
      first.1.state.isAcquiring "python" = false ∧
      GrammarCache.read ⟨"c"⟩ "python" first.1.disk = .ok (Text.encode "garbage") ∧
      second.2 = .error (.invalidGrammar "python" "unexpected payload") ∧
      second.1.urls.length = 1 := by
  decide +kernel

end SymbolPaths
