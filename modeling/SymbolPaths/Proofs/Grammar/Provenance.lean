import SymbolPaths.Proofs.Grammar.Abort
import SymbolPaths.Proofs.Grammar.Acts

/-!
# Where grammars come from

A payload goes a long way before it is a grammar that is kept: it is read from the cache, or
downloaded, perhaps not at the first attempt, and stored; then it is made into a grammar, and
put under the name of its language. Meanwhile other loads do the same, and languages are
aborted. Whatever comes in between, what is kept under a name comes from what the load that
put it there had asked for under that name.

* `Site.Obtains`: at which act a load gets a payload that it asked for;
* `Site.Stores`: at which act a load puts a grammar under a name;
* `Site.IsGenuine`: a grammar that was made of a payload of its language;
* `Site.isProvenant_run`: all grammars that are kept or handed out are genuine, and no loader
  does anything for a name that is not in the registry.

What is proved speaks of the past: at which act a payload was obtained, and under which name. The
loader remembers none of it, so the statements are about lists of acts, and each of them has to
survive an act that comes last (`Obtained.append`, `IsGenuine.append`). Three things are followed
together, since each may become another one at a turn: a payload that a load has in hand or
stores, a grammar that is kept, and a grammar that was handed out (`IsTraced`).
-/

namespace SymbolPaths

open FilePath (place)

theorem Language.find?_name {language : Language} (h : language ∈ Language.all) :
    Language.find? language.name = some language := by
  have hall : ∀ l ∈ Language.all, Language.find? l.name = some l := by decide
  exact hall language h

namespace Loader

variable {env : Loader} {s s' : LoaderState} {language : Language} {reply : LoadReply}
  {wait : LoadWait} {load : Load}

/-- A turn keeps no other grammar than the one that the load ends with. -/
theorem Turn.loaded_cases (h : Turn env s language reply wait s' load) :
    s'.loaded = s.loaded ∨ ∃ handle, load = .finished (.ok handle) ∧
      s'.loaded = s.loaded.put language.name handle := by
  cases h with
  | breaksOff => exact .inl (LoaderState.loaded_release ..)
  | succeeds => exact .inr ⟨_, rfl, LoaderState.loaded_release ..⟩
  | _ => exact .inl rfl

end Loader

namespace Site

/-- The site after acts, which begin with a disk and a loader that nobody has called. -/
def after (env : Loader) (d : Disk) (acts : List Act) : Site := run env ⟨.initial, d⟩ acts

/-- At which act a load obtains a payload of a language. -/
inductive Obtains (env : Loader) (s : Site) (number : Nat) (lang : String) (payload : Bytes) :
    Act → Prop
  /-- It asks for the file of the language, and the disk serves it. -/
  | reads {c : GrammarCache} {language : Language} {wait : LoadWait} : env.cache = some c →
      s.traffic.load? number = some (.waiting language wait) →
      wait.request? env language.name = some (.read (c.path lang)) →
      s.disk.read (c.path lang) = .ok payload → Obtains env s number lang payload (.serve number)
  /-- It asks for what is at the address of the language, and is told. -/
  | downloads {language : Language} {wait : LoadWait} :
      s.traffic.load? number = some (.waiting language wait) →
      wait.request? env language.name = some (.download (env.source.location lang)) →
      Obtains env s number lang payload (.event (.resume number (.fetch (.returned (.ok payload)))))

/-- Whether a load obtained a payload of a language at some act. -/
def Obtained (env : Loader) (d : Disk) (acts : List Act) (number : Nat) (lang : String)
    (payload : Bytes) : Prop :=
  ∃ before a rest, acts = before ++ a :: rest ∧
    Obtains env (after env d before) number lang payload a

/-- Whether a load ends at an act with a grammar, which is kept under a name from then on. -/
structure Stores (env : Loader) (s : Site) (number : Nat) (lang : String) (handle : GrammarHandle)
    (a : Act) : Prop where
  /-- The load was not over before. -/
  running : s.traffic.result? number = none
  /-- There was no grammar under the name. -/
  absent : s.traffic.state.loaded.get? lang = none
  /-- The load has ended with the grammar. -/
  result : (s.act env a).traffic.result? number = some (.ok handle)
  /-- The grammar is there under the name. -/
  present : (s.act env a).traffic.state.loaded.get? lang = some handle

/-- Whether a grammar is that of the language of a name, made of a payload which the load that
    put it under the name had obtained for it. -/
structure IsGenuine (env : Loader) (d : Disk) (acts : List Act) (lang : String)
    (handle : GrammarHandle) : Prop where
  /-- Its language is the one that the registry has under the name. -/
  registered : Language.find? lang = some handle.language
  /-- Some load of the name has put it there at an act, and it was made of a payload that this very
      load had obtained by then. -/
  stored : ∃ before a rest number payload, acts = before ++ a :: rest ∧
    Stores env (after env d before) number lang handle a ∧
    env.make lang payload = .ok handle.grammar ∧
    Obtained env d (before ++ [a]) number lang payload

/-- Whether a place is that of a file of the cache. -/
def IsCached (env : Loader) (q : Place) : Prop :=
  ∃ c, env.cache = some c ∧ ∃ language ∈ Language.all,
    q = place (c.path language.name) ∨ q = place (c.tempPath language.name)

/-- What is true of grammars after acts. -/
structure IsProvenant (env : Loader) (d : Disk) (acts : List Act) : Prop where
  /-- What is kept is genuine. -/
  kept : ∀ lang handle, (after env d acts).traffic.state.loaded.get? lang = some handle →
    IsGenuine env d acts lang handle
  /-- What a load returns is genuine. -/
  returned : ∀ (number : Nat) (c : Caller) (handle : GrammarHandle),
    (after env d acts).traffic.callers[number]? = some c → c.result? = some (.ok handle) →
    IsGenuine env d acts c.lang handle
  /-- What is under way is in the registry. -/
  underWay : ∀ lang, (after env d acts).traffic.state.isAcquiring lang →
    ∃ language ∈ Language.all, language.name = lang
  /-- All that is asked of the disk and of the network is asked for a language of the
      registry. -/
  asked : ∀ number language wait request,
    (after env d acts).traffic.load? number = some (.waiting language wait) →
    wait.request? env language.name = some request → language ∈ Language.all
  /-- No file is given a name but those of the cache. -/
  named : ∀ q n, (after env d acts).disk.entry? q = some (.file n) →
    d.entry? q = some (.file n) ∨ IsCached env q

/-- What is true of all loads after acts. -/
structure IsTraced (env : Loader) (d : Disk) (acts : List Act) (s : Site) : Prop where
  /-- The list and the loads fit together. -/
  sound : Traffic.Sound s.traffic.state s.traffic.callers
  /-- Only registered languages are being loaded. -/
  listed : s.traffic.IsListed
  /-- Every grammar that is there is genuine. -/
  kept : ∀ {lang : String} {handle : GrammarHandle},
    s.traffic.state.loaded.get? lang = some handle → IsGenuine env d acts lang handle
  /-- So is every grammar that was handed out. -/
  returned : ∀ {number : Nat} {c : Caller} {handle : GrammarHandle},
    s.traffic.callers[number]? = some c → c.result? = some (.ok handle) →
    IsGenuine env d acts c.lang handle
  /-- A load stores what it has obtained. -/
  storing : ∀ {number : Nat} {c : Caller} {language : Language} {flight : Nat} {payload : Bytes}
    {write : CacheWrite}, s.traffic.callers[number]? = some c →
    c.load = some (.waiting language (.store flight payload write)) →
    Obtained env d acts number language.name payload
  /-- A file has the name that it had at first, or one of the cache. -/
  named : ∀ {q : Place} {n : Nat}, s.disk.entry? q = some (.file n) →
    d.entry? q = some (.file n) ∨ IsCached env q

variable {env : Loader} {d d' : Disk} {acts : List Act} {a : Act} {number : Nat}
  {lang : String} {payload : Bytes} {handle : GrammarHandle} {language : Language}
  {wait : LoadWait} {reply : LoadReply} {e : Event} {load : Load} {c : Caller} {s' : LoaderState}

theorem Obtained.append (h : Obtained env d acts number lang payload) (a : Act) :
    Obtained env d (acts ++ [a]) number lang payload := by
  obtain ⟨before, b, rest, rfl, hobtains⟩ := h
  exact ⟨before, b, rest ++ [a], by simp, hobtains⟩

theorem IsGenuine.append (h : IsGenuine env d acts lang handle) (a : Act) :
    IsGenuine env d (acts ++ [a]) lang handle := by
  obtain ⟨hregistered, before, b, rest, number, payload, rfl, hstores⟩ := h
  exact ⟨hregistered, before, b, rest ++ [a], number, payload, by simp, hstores⟩

/-- A load that has a payload in hand has obtained it, at this act or at an earlier one. -/
theorem obtained_of_payload? (h : IsTraced env d acts (after env d acts))
    (hdoes : Does env (after env d acts) a (.resume number reply) d')
    (hload : (after env d acts).traffic.load? number = some (.waiting language wait))
    (hpayload : wait.payload? reply = some payload) :
    Obtained env d (acts ++ [a]) number language.name payload := by
  have hnow (hobtains : Obtains env (after env d acts) number language.name payload a) :
      Obtained env d (acts ++ [a]) number language.name payload := ⟨acts, a, [], rfl, hobtains⟩
  -- Three waits are given a payload: a stored one was obtained before, the other two get it now.
  cases wait with
  | engine => cases hpayload
  | probe => cases hpayload
  | store flight payload' write =>
    obtain ⟨c, hc, hcload⟩ := Traffic.load?_eq_some_iff.1 hload
    cases reply with
    | disk result =>
      obtain rfl := Option.some.inj hpayload
      exact (h.storing hc hcload).append a
    | _ => cases hpayload
  | read flight =>
    cases reply with
    | read result =>
      cases result with
      | error => cases hpayload
      | ok payload' =>
        obtain rfl := Option.some.inj hpayload
        cases hdoes with
        | event he => cases he
        | serves hcache hload' hreply =>
          cases hload.symm.trans hload'
          simp only [reply?, Option.some.injEq, Prod.mk.injEq, LoadReply.read.injEq] at hreply
          refine hnow (.reads hcache hload ?_ hreply.1)
          rw [LoadWait.request?, hcache]
          rfl
        | fails hcache hload' hfailure =>
          cases hload.symm.trans hload'
          cases hfailure
    | _ => cases hpayload
  | fetch flight phase =>
    cases phase with
    | waiting retry => cases hpayload
    | calling retry =>
      cases reply with
      | fetch signal =>
        cases signal with
        | returned outcome =>
          cases outcome with
          | error => cases hpayload
          | ok payload' =>
            obtain rfl := Option.some.inj hpayload
            cases hdoes with
            | event => exact hnow (.downloads hload rfl)
            | serves hcache hload' hreply =>
              cases hload.symm.trans hload'
              cases hreply
            | fails hcache hload' hfailure =>
              cases hload.symm.trans hload'
              cases hfailure
        | _ => cases hpayload
      | _ => cases hpayload

/-- A load ends with a genuine grammar, or without one. -/
theorem isGenuine_of_turn (h : IsTraced env d acts (after env d acts))
    (hdoes : Does env (after env d acts) a (.resume number reply) d')
    (hc : (after env d acts).traffic.callers[number]? = some c)
    (hload : c.load = some (.waiting language wait))
    (hstate : ((after env d acts).traffic.step env (.resume number reply)).state = s')
    (hresult : ((after env d acts).traffic.step env (.resume number reply)).result? number =
      some (.ok handle))
    (hturn : Loader.Turn env (after env d acts).traffic.state language reply wait s'
      (.finished (.ok handle))) : IsGenuine env d (acts ++ [a]) language.name handle := by
  have hload' : (after env d acts).traffic.load? number = some (.waiting language wait) :=
    Traffic.load?_eq_some_iff.2 ⟨c, hc, hload⟩
  cases hturn with
  | finds _ hloaded => exact (h.kept hloaded).append a
  | @succeeds flight _ payload grammar skip hflight huncancelled hpayload hmake =>
    refine ⟨Language.find?_name (h.listed number c language wait hc hload), acts, a, [], number,
      payload, rfl, ?_, hmake, obtained_of_payload? h hdoes hload' hpayload⟩
    constructor
    case running =>
      rw [Traffic.result?, hc, Option.bind_some, Caller.result?, hload]
      rfl
    case absent =>
      have hholds := h.sound.holds hc hload hflight huncancelled
      exact h.sound.apart (h.sound.inFlight_iff.2 ⟨number, c, hc, hholds⟩)
    case result => rwa [act_of_does hdoes]
    case present =>
      rw [act_of_does hdoes, hstate, LoaderState.loaded_release, Table.get?_put, if_pos rfl]

theorem isTraced_initial (env : Loader) (d : Disk) : IsTraced env d [] ⟨.initial, d⟩ where
  sound := .initial
  listed := by simp [Traffic.IsListed, Traffic.initial]
  kept h := by cases h
  returned h := by simp [Traffic.initial] at h
  storing h := by simp [Traffic.initial] at h
  named := .inl

/-- An act that does nothing leaves all as it was. -/
theorem IsTraced.append (h : IsTraced env d acts s) (a : Act) : IsTraced env d (acts ++ [a]) s where
  sound := h.sound
  listed := h.listed
  kept hloaded := (h.kept hloaded).append a
  returned hc hresult := (h.returned hc hresult).append a
  storing hc hload := (h.storing hc hload).append a
  named := h.named

/-- What is kept after an event is what was kept, or what a load has just ended with. -/
theorem isGenuine_of_kept (h : IsTraced env d acts (after env d acts))
    (hdoes : Does env (after env d acts) a e d')
    (hloaded : ((after env d acts).traffic.step env e).state.loaded.get? lang = some handle) :
    IsGenuine env d (acts ++ [a]) lang handle := by
  have hhappens := Traffic.happens_step env h.sound.fresh e
  generalize hstate : ((after env d acts).traffic.step env e).state = s' at hhappens hloaded
  generalize hcallers : ((after env d acts).traffic.step env e).callers = callers' at hhappens
  -- Only a turn that succeeds puts a handle in the list; the others keep it or take some away.
  cases hhappens with
  | nothing => exact (h.kept hloaded).append a
  | calls => exact (h.kept hloaded).append a
  | leaves =>
    rw [Loader.loaded_drop] at hloaded
    exact (h.kept hloaded).append a
  | aborts =>
    rw [LoaderState.get?_loaded_abort] at hloaded
    split at hloaded
    · cases hloaded
    · exact (h.kept hloaded).append a
  | @turns number reply c language wait _ load _ hc hload hturn hupdates =>
    rcases hturn.loaded_cases with hsame | ⟨handle', rfl, hput⟩
    · rw [hsame] at hloaded
      exact (h.kept hloaded).append a
    · rw [hput, Table.get?_put] at hloaded
      split at hloaded
      · next hlang =>
        obtain rfl := Option.some.inj hloaded
        rw [hlang]
        refine isGenuine_of_turn h hdoes hc hload hstate ?_ hturn
        rw [Traffic.result?, hcallers, hupdates number, if_pos rfl]
        rfl
      · exact (h.kept hloaded).append a

/-- What a load returns was returned before, or was kept, or is what it has just ended with. -/
theorem isGenuine_of_returned (h : IsTraced env d acts (after env d acts))
    (hdoes : Does env (after env d acts) a e d')
    (hc : ((after env d acts).traffic.step env e).callers[number]? = some c)
    (hresult : c.result? = some (.ok handle)) : IsGenuine env d (acts ++ [a]) c.lang handle := by
  -- A caller that has just come returns what the list holds already; for one that was there, the
  -- handle is old or comes from this turn.
  cases hd : (after env d acts).traffic.callers[number]? with
  | none =>
    obtain ⟨lang, rfl⟩ := Traffic.start_of_step h.sound.fresh hd hc
    have hbegin : (Loader.begin (after env d acts).traffic.state lang).result? =
      some (.ok handle) := hresult
    rw [Loader.begin] at hbegin
    split at hbegin
    · cases hbegin
    · split at hbegin
      · next hloaded =>
        cases hbegin
        exact (h.kept hloaded).append a
      · cases hbegin
  | some c₀ =>
    obtain ⟨c', hc', hcomes⟩ := Traffic.comes_step h.sound.fresh e hd
    obtain rfl := Option.some.inj (hc'.symm.trans hc)
    generalize hstate : ((after env d acts).traffic.step env e).state = s' at hcomes
    cases hcomes with
    | stays => exact (h.returned hd hresult).append a
    | leaves => cases hresult
    | aborts =>
      rw [Caller.result?_abort] at hresult
      rw [Caller.lang_abort]
      exact (h.returned hd hresult).append a
    | @turns reply language wait load hload hturn =>
      obtain rfl := Load.eq_finished_of_result? hresult
      rw [Caller.lang_carryOn, ← (h.sound.own hd hload).1]
      refine isGenuine_of_turn h hdoes hd hload hstate ?_ hturn
      rw [Traffic.result?, hc]
      rfl

/-- What a load stores it was storing before, or has just been told. -/
theorem obtained_of_storing (h : IsTraced env d acts (after env d acts))
    (hdoes : Does env (after env d acts) a e d') {flight : Nat} {write : CacheWrite}
    (hc : ((after env d acts).traffic.step env e).callers[number]? = some c)
    (hload : c.load = some (.waiting language (.store flight payload write))) :
    Obtained env d (acts ++ [a]) number language.name payload := by
  -- A caller that has just come waits for the engine, so one that stores was there before.
  cases hd : (after env d acts).traffic.callers[number]? with
  | none =>
    obtain ⟨lang, rfl⟩ := Traffic.start_of_step h.sound.fresh hd hc
    cases (Loader.eq_engine_of_begin (Option.some.inj hload)).2
  | some c₀ =>
    obtain ⟨c', hc', hcomes⟩ := Traffic.comes_step h.sound.fresh e hd
    obtain rfl := Option.some.inj (hc'.symm.trans hc)
    generalize ((after env d acts).traffic.step env e).state = s' at hcomes
    cases hcomes with
    | stays => exact (h.storing hd hload).append a
    | leaves => cases hload
    | aborts => exact (h.storing hd (Caller.load_abort .. ▸ hload)).append a
    | @turns reply language' wait load hbefore hturn =>
      obtain rfl := Option.some.inj hload
      cases hturn with
      | stays => exact (h.storing hd hbefore).append a
      | enters _ _ _ hwait => rcases hwait with hwait | hwait <;> cases hwait
      | goesOn _ hfollows =>
        cases hfollows with
        | writes => exact (h.storing hd hbefore).append a
        | stores _ hreply =>
          refine obtained_of_payload? h hdoes (Traffic.load?_eq_some_iff.2 ⟨c₀, hd, hbefore⟩) ?_
          rw [hreply]
          rfl

/-- A file that is given a name at an event is given one of the cache. -/
theorem isCached_of_named (h : IsTraced env d acts (after env d acts))
    (hdoes : Does env (after env d acts) a e d') {q : Place} {n : Nat}
    (hq : d'.entry? q = some (.file n)) : d.entry? q = some (.file n) ∨ IsCached env q := by
  cases meets_of_does hdoes with
  | elsewhere => exact h.named hq
  | @disk c number reply language wait _ hcache hload hreplies =>
    obtain ⟨c₀, hc₀, hcload⟩ := Traffic.load?_eq_some_iff.1 hload
    have hlanguage := h.listed number c₀ language wait hc₀ hcload
    cases hreplies.acts with
    | quiet => exact h.named hq
    | @stores _ payload write call call' _ _ _ hcall hlike heffect _ =>
      rcases heffect.entry?_eq_file hq with
        hq | ⟨_, path, rfl, hplace⟩ | ⟨source, target, rfl, hplace, _⟩
      · exact h.named hq
      · refine .inr ⟨c, hcache, language, hlanguage, .inr ?_⟩
        cases hlike
        cases write <;> cases hcall
        exact hplace
      · refine .inr ⟨c, hcache, language, hlanguage, .inl ?_⟩
        cases hlike
        cases write <;> cases hcall
        exact hplace

theorem isTraced_step (h : IsTraced env d acts (after env d acts))
    (hdoes : Does env (after env d acts) a e d') :
    IsTraced env d (acts ++ [a]) ⟨(after env d acts).traffic.step env e, d'⟩ where
  sound := Traffic.sound_step h.sound e
  listed := Traffic.isListed_step h.sound h.listed e
  kept := isGenuine_of_kept h hdoes
  returned := isGenuine_of_returned h hdoes
  storing := obtained_of_storing h hdoes
  named := isCached_of_named h hdoes

theorem isTraced_after (env : Loader) (d : Disk) (acts : List Act) :
    IsTraced env d acts (after env d acts) := by
  induction acts using List.reverseRecOn with
  | nil => exact isTraced_initial env d
  | append_singleton acts a ih =>
    rw [after, run_append]
    rcases act_cases env (after env d acts) a with hsame | ⟨e, d', hdoes, hact⟩
    · exact hsame.symm ▸ ih.append a
    · exact hact.symm ▸ isTraced_step ih hdoes

/-- All grammars that are kept or returned are genuine, and nothing is done for a name that is not
    in the registry. -/
theorem isProvenant_run (env : Loader) (d : Disk) (acts : List Act) : IsProvenant env d acts := by
  have h := isTraced_after env d acts
  constructor
  case kept => exact fun _ _ => h.kept
  case returned => exact fun _ _ _ => h.returned
  case underWay =>
    intro lang hacquiring
    obtain ⟨f, hf⟩ := (LoaderState.isAcquiring_eq_true ..).1 hacquiring
    obtain ⟨number, c, hc, hrunning, _, hlang, _⟩ := h.sound.inFlight_iff.1 hf
    obtain ⟨language, wait, hload⟩ := Caller.exists_of_isRunning hrunning
    exact ⟨language, h.listed number c language wait hc hload,
      ((h.sound.own hc hload).1).trans hlang⟩
  case asked =>
    intro number language wait _ hload _
    obtain ⟨c, hc, hcload⟩ := Traffic.load?_eq_some_iff.1 hload
    exact h.listed number c language wait hc hcload
  case named => exact fun _ _ => h.named

end Site

end SymbolPaths
