import SymbolPaths.Proofs.Grammar.Storage

/-!
# Acts

What happens to a loader, with those who have called it, and to the disk of its cache, told as
a list of acts: somebody calls, aborts or gives up, the engine or the network replies, and the
disk serves a load that waits for it, or fails it and does some harm. Given what was before, an
act says all of what comes after.

* `Site.run`: what acts come to, one after another;
* `Site.leads_iff_exists_run`: that is all that events may lead to;
* `Site.act_cases`: an act does nothing, or is an event, with what the disk has to do with it;
* `LoadWait.request?`: what a load asks for that waits.

Events say what happens to a loader, and leave open what the disk does. Acts leave nothing open:
the disk serves, or it fails for a reason that is given and does a harm that is given. So a run of
acts can be computed, which is what statements about all runs are tried on, and two runs of the
same acts can be compared, which is what separates the languages from each other. That nothing is
lost in between is `Site.leads_iff_exists_run`: whatever events may lead to, some acts do lead to.
-/

namespace SymbolPaths

/-- What a load asks of the disk and of the network. -/
inductive LoadRequest where
  /-- Whether there is something at a path. -/
  | probe (path : String)
  /-- What is at a path. -/
  | read (path : String)
  /-- What is at an address. -/
  | download (url : String)
  /-- An operation on the disk. -/
  | perform (call : DiskCall)

/-- What the load of a language asks for when it waits. -/
def LoadWait.request? (env : Loader) (lang : String) : LoadWait → Option LoadRequest
  | engine => none
  | probe _ => env.cache.map fun c => .probe (c.path lang)
  | read _ => env.cache.map fun c => .read (c.path lang)
  | fetch _ (.calling _) => some (.download (env.source.location lang))
  | fetch _ (.waiting _) => none
  | store _ payload write => (env.cache.bind fun c => write.call? c lang payload).map .perform

/-- Whether the disk has a part in an event. -/
def Event.isOfDisk : Event → Bool
  | .resume _ reply => reply.isOfDisk
  | _ => false

/-- What an operation may have done when it fails. -/
inductive Harm where
  /-- Nothing at all. -/
  | nothing
  /-- All that it was to do. -/
  | all
  /-- If it was to write something, it wrote something else; or else all that it was to do. -/
  | other (bytes : Bytes)

/-- What becomes of the disk when an operation fails. -/
def Harm.spoil (call : DiskCall) (d : Disk) : Harm → Disk
  | nothing => d
  | all => (call.perform d).1
  | other bytes => match call with
    | .write number offset _ => d.write number offset bytes
    | call => (call.perform d).1

namespace Site

/-- What may happen. -/
inductive Act where
  /-- An event in which the disk has no part. -/
  | event (e : Event)
  /-- The disk serves a load. -/
  | serve (number : Nat)
  /-- The disk fails a load. -/
  | fault (number : Nat) (cause : IoError) (harm : Harm)

/-- What the disk replies to a load of a language that waits for it, when it fails, and what
    becomes of the disk. -/
def failure? (c : GrammarCache) (lang : String) (d : Disk) (cause : IoError) (harm : Harm) :
    LoadWait → Option (LoadReply × Disk)
  | .probe _ => some (.probed false, d)
  | .read _ => some (.read (.error cause), d)
  | .store _ payload write => (write.call? c lang payload).map fun call =>
    (.disk (.error cause), harm.spoil call d)
  | .engine => none
  | .fetch _ _ => none

/-- What happens when the disk fails a load that waits for it. -/
def fail (env : Loader) (s : Site) (number : Nat) (cause : IoError) (harm : Harm) : Site :=
  match env.cache, s.traffic.load? number with
  | some c, some (.waiting language wait) =>
    match failure? c language.name s.disk cause harm wait with
    | some (reply, disk) => ⟨s.traffic.step env (.resume number reply), disk⟩
    | none => s
  | _, _ => s

/-- What happens at an act. -/
def act (env : Loader) (s : Site) : Act → Site
  | .event e => if e.isOfDisk then s else ⟨s.traffic.step env e, s.disk⟩
  | .serve number => s.serve env number
  | .fault number cause harm => s.fail env number cause harm

/-- What acts come to, one after another. -/
def run (env : Loader) (s : Site) (acts : List Act) : Site := acts.foldl (act env) s

variable {env : Loader} {s s' : Site} {a : Act} {e : Event} {c : GrammarCache} {lang : String}
  {d d' : Disk} {cause : IoError} {harm : Harm} {wait : LoadWait} {reply : LoadReply} {number : Nat}

/-- The last act happens to what the others come to. -/
theorem run_append (env : Loader) (s : Site) (acts : List Act) (a : Act) :
    s.run env (acts ++ [a]) = (s.run env acts).act env a := by
  rw [run, List.foldl_append]
  rfl

/-- What an act does that does something. -/
inductive Does (env : Loader) (s : Site) : Act → Event → Disk → Prop
  /-- An event in which the disk has no part happens as it is. -/
  | event {e : Event} : e.isOfDisk = false → Does env s (.event e) e s.disk
  /-- A load that waits for the disk is told what the disk replies. -/
  | serves {c : GrammarCache} {number : Nat} {language : Language} {wait : LoadWait}
      {reply : LoadReply} {d : Disk} : env.cache = some c →
      s.traffic.load? number = some (.waiting language wait) →
      reply? c language.name s.disk wait = some (reply, d) →
      Does env s (.serve number) (.resume number reply) d
  /-- A load that waits for the disk is told of a failure, with the harm that was done. -/
  | fails {c : GrammarCache} {number : Nat} {cause : IoError} {harm : Harm} {language : Language}
      {wait : LoadWait} {reply : LoadReply} {d : Disk} : env.cache = some c →
      s.traffic.load? number = some (.waiting language wait) →
      failure? c language.name s.disk cause harm wait = some (reply, d) →
      Does env s (.fault number cause harm) (.resume number reply) d

/-- What the disk replies is told to the load. -/
theorem serve_eq {language : Language} (hcache : env.cache = some c)
    (hload : s.traffic.load? number = some (.waiting language wait)) :
    s.serve env number = (reply? c language.name s.disk wait).elim s fun r =>
      ⟨s.traffic.step env (.resume number r.1), r.2⟩ := by
  simp only [serve, hcache, hload]
  cases reply? c language.name s.disk wait with
  | none => rfl
  | some r => rfl

/-- What the disk does when it fails is told to the load as well. -/
theorem fail_eq {language : Language} (hcache : env.cache = some c)
    (hload : s.traffic.load? number = some (.waiting language wait)) (cause : IoError)
    (harm : Harm) :
    s.fail env number cause harm =
      (failure? c language.name s.disk cause harm wait).elim s fun r =>
        ⟨s.traffic.step env (.resume number r.1), r.2⟩ := by
  simp only [fail, hcache, hload]
  cases failure? c language.name s.disk cause harm wait with
  | none => rfl
  | some r => rfl

/-- What an act does is an event, and something that happens to the disk. -/
theorem act_of_does (h : Does env s a e d) : s.act env a = ⟨s.traffic.step env e, d⟩ := by
  cases h with
  | event he => rw [act, he, if_neg Bool.false_ne_true]
  | serves hcache hload hreply => rw [act, serve_eq hcache hload, hreply, Option.elim_some]
  | fails hcache hload hfailure => rw [act, fail_eq hcache hload, hfailure, Option.elim_some]

/-- Every act does something, or nothing at all: an event of the disk that nobody waits for is
    none. -/
theorem act_cases (env : Loader) (s : Site) (a : Act) :
    s.act env a = s ∨ ∃ e d, Does env s a e d ∧ s.act env a = ⟨s.traffic.step env e, d⟩ := by
  have hdoes {e : Event} {d : Disk} (h : Does env s a e d) :
      s.act env a = s ∨ ∃ e d, Does env s a e d ∧ s.act env a = ⟨s.traffic.step env e, d⟩ :=
    .inr ⟨e, d, h, act_of_does h⟩
  cases a with
  | event e =>
    cases he : e.isOfDisk with
    | true => exact .inl (by rw [act, he, if_pos rfl])
    | false => exact hdoes (.event he)
  | serve number =>
    simp only [act, serve]
    split
    · next hcache hload =>
      split
      · next hreply => exact .inr ⟨_, _, .serves hcache hload hreply, rfl⟩
      · exact .inl rfl
    · exact .inl rfl
  | fault number cause harm =>
    simp only [act, fail]
    split
    · next hcache hload =>
      split
      · next hfailure => exact .inr ⟨_, _, .fails hcache hload hfailure, rfl⟩
      · exact .inl rfl
    · exact .inl rfl

/-- What the disk may do when it fails is among what it may do. -/
theorem replies_of_failure? (h : failure? c lang d cause harm wait = some (reply, d')) :
    Replies c lang d wait reply d' := by
  cases wait with
  | engine => cases h
  | fetch => cases h
  | probe =>
    cases h
    exact .probeFails
  | read =>
    cases h
    exact .readFails
  | store flight payload write =>
    obtain ⟨call, hcall, heq⟩ := Option.map_eq_some_iff.1 h
    cases heq
    cases harm with
    | nothing => exact .storeFails hcall (.same call) (.inl rfl)
    | all => exact .storeFails hcall (.same call) (.inr rfl)
    | other bytes =>
      cases call with
      | write n offset bytes' => exact .storeFails hcall (.writes n offset bytes' bytes) (.inr rfl)
      | _ => exact .storeFails hcall (.same _) (.inr rfl)

/-- What the disk replies is the reply of some act. -/
theorem exists_does_of_replies (hcache : env.cache = some c) {language : Language}
    (hload : s.traffic.load? number = some (.waiting language wait))
    (h : Replies c language.name s.disk wait reply d') :
    ∃ a, Does env s a (.resume number reply) d' := by
  cases h with
  | ends hreply => exact ⟨.serve number, .serves hcache hload hreply⟩
  | probeFails => exact ⟨.fault number .notFound .nothing, .fails hcache hload rfl⟩
  | @readFails flight e => exact ⟨.fault number e .nothing, .fails hcache hload rfl⟩
  | @storeFails flight payload write call call' e _ hcall hlike hdone =>
    have hfails (harm : Harm) : Does env s (.fault number e harm)
        (.resume number (.disk (.error e))) (harm.spoil call s.disk) :=
      .fails hcache hload (by simp only [failure?, hcall, Option.map_some])
    rcases hdone with rfl | rfl
    · exact ⟨_, hfails .nothing⟩
    · cases hlike with
      | same => exact ⟨_, hfails .all⟩
      | writes n offset bytes bytes' => exact ⟨_, hfails (.other bytes')⟩

/-- An act keeps to what the disk may reply. -/
theorem meets_of_does (h : Does env s a e d) : Meets env s e d := by
  cases h with
  | event he =>
    refine .elsewhere fun number reply hresume => ?_
    rwa [hresume] at he
  | serves hcache hload hreply => exact .disk hcache hload (.ends hreply)
  | fails hcache hload hfailure => exact .disk hcache hload (replies_of_failure? hfailure)

/-- Events lead to what acts come to, and to nothing else. -/
theorem leads_iff_exists_run :
    Leads env (fun _ _ => True) s s' ↔ ∃ acts, s.run env acts = s' := by
  constructor
  · intro h
    induction h with
    | refl => exact ⟨[], rfl⟩
    | @tail s₁ s₂ _ hnext ih =>
      obtain ⟨acts, rfl⟩ := ih
      obtain ⟨e, -, htraffic, hmeets⟩ := hnext
      -- A reply of the disk is one that an act makes it give; any other event is an act itself.
      have hdoes : ∃ a, Does env (s.run env acts) a e s₂.disk := by
        generalize s₂.disk = d at hmeets
        cases hmeets with
        | disk hcache hload hreplies => exact exists_does_of_replies hcache hload hreplies
        | elsewhere he =>
          refine ⟨.event e, .event ?_⟩
          cases e with
          | resume number reply => exact he number reply rfl
          | _ => rfl
      obtain ⟨a, ha⟩ := hdoes
      exact ⟨acts ++ [a], by rw [run_append, act_of_does ha, ← htraffic]⟩
  · rintro ⟨acts, rfl⟩
    induction acts using List.reverseRecOn with
    | nil => exact .refl
    | append_singleton acts a ih =>
      rw [run_append]
      rcases act_cases env (s.run env acts) a with hsame | ⟨e, d, hdoes, hact⟩
      · rwa [hsame]
      · rw [hact]
        exact .tail ih ⟨e, trivial, rfl, meets_of_does hdoes⟩

end Site

end SymbolPaths
