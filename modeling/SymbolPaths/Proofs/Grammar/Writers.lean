import SymbolPaths.Proofs.Grammar.Files

/-!
# Several writers

Payloads for one language may be stored at the same time, by several programs that share a
cache, or by one whose load was given up and begun again. All of them write into one temporary
file. Whoever opens it empties it in place, and whoever has it open goes on writing to it when it
has got the name of the payload.

So what is stored is whole as long as nobody opens the temporary file while another writer, not
yet given up, has it open or is about to rename it. It need not be whole otherwise.

* `Writers.run`: what becomes of the disk and of the writers, whose operations come in any order,
  halfway, or not at all;
* `Writers.run_alone`: a single writer stores its payload as `GrammarCache.write` does;
* `Writers.Whole`: what is true at any moment, if the writers keep apart;
* `Writers.isWhole_run`: what is stored then; `Writers.not_isWhole_rivals`: what may be if
  they do not.

What a writer relies on is again what the temporary file holds (`Writer.Fits`), and what it has
written of its payload so far. Another writer breaks that in one way only, by opening the file:
whatever else it does to a file it does to one that it has opened. So if nobody opens the file
while somebody has it open or is about to rename it, what one writer relies on is safe from the
others, and as soon as somebody does there are runs in which what is stored is no payload at all.
-/

namespace SymbolPaths

open FilePath (place)

/-- What is written to the end of a file is added to it. -/
theorem Disk.content_write_append {d : Disk} {n : Nat} (hn : n < d.contents.length)
    (bytes : Bytes) :
    (d.write n (d.content n).length bytes).content n = d.content n ++ bytes := by
  have hdrop : (d.content n).drop ((d.content n).length + bytes.length) = [] :=
    List.drop_eq_nil_of_le (Nat.le_add_right _ _)
  rw [write, hdrop, List.take_length, Nat.sub_self, List.replicate_zero, List.append_nil,
    List.append_nil]
  simp [content, fill, hn]

/-- One of those who store a payload for the same language. -/
structure Writer where
  /-- What it stores. -/
  payload : Bytes
  /-- How far it has come; nothing if it was given up. -/
  stage : Option CacheWrite
  /-- How much it has written into the open file. -/
  written : Nat

/-- What a writer may do next. -/
inductive WriterAct where
  /-- The next operation comes to its end. -/
  | proceed
  /-- Some of what is left is written into the open file. -/
  | write (count : Nat)
  /-- The next operation fails, and has done nothing or all. -/
  | fail (cause : IoError) (acted : Bool)
  /-- The writer is given up. -/
  | stop
  deriving DecidableEq, Repr, Inhabited

/-- Whether the next operation is performed. -/
def WriterAct.performs : WriterAct → Bool
  | proceed => true
  | fail _ acted => acted
  | _ => false

namespace Writer

/-- A writer that has done nothing yet. -/
def start (payload : Bytes) : Writer := { payload, stage := some .preparing, written := 0 }

/-- Whether the temporary file is open for a writer, or complete. -/
def holds (w : Writer) : Bool :=
  match w.stage with
  | some (.filling _) | some (.syncing _) | some .naming => true
  | _ => false

/-- Whether it is about to open the temporary file. -/
def isOpening (w : Writer) : Bool :=
  match w.stage with
  | some .opening => true
  | _ => false

/-- What is left to be written. -/
def rest (w : Writer) : Bytes := w.payload.drop w.written

/-- The operation that comes next. An open file is written to at the offset of the writer. -/
def call? (c : GrammarCache) (lang : String) (w : Writer) : Option DiskCall :=
  match w.stage with
  | none => none
  | some (.filling n) => some (.write n w.written w.rest)
  | some stage => stage.call? c lang w.payload

/-- What becomes of a writer and of the disk when it does something. -/
def act (c : GrammarCache) (lang : String) (d : Disk) (w : Writer) : WriterAct → Writer × Disk
  | .proceed =>
    match w.stage, w.call? c lang with
    | some stage, some call =>
      ({ w with stage := some (stage.next (call.perform d).2) }, (call.perform d).1)
    | _, _ => (w, d)
  | .write count =>
    match w.stage with
    | some (.filling n) =>
      ({ w with written := w.written + (w.rest.take count).length },
        d.write n w.written (w.rest.take count))
    | _ => (w, d)
  | .fail cause acted =>
    match w.stage, w.call? c lang with
    | some stage, some call =>
      ({ w with stage := some (stage.next (.error cause)) },
        if acted then (call.perform d).1 else d)
    | _, _ => (w, d)
  | .stop => ({ w with stage := none }, d)

variable {c : GrammarCache} {lang : String} {d d' : Disk} {w w' : Writer} {a : WriterAct}

/-- All that can become of a writer and of the disk. -/
inductive Turn (c : GrammarCache) (lang : String) (d : Disk) (w : Writer) (a : WriterAct) :
    Writer → Disk → Prop
  /-- It has nothing to do. -/
  | rests : Turn c lang d w a w d
  /-- It is given up. -/
  | stops : Turn c lang d w a { w with stage := none } d
  /-- It writes some bytes more, at its own offset. -/
  | writes {n count : Nat} : w.stage = some (.filling n) →
      Turn c lang d w a { w with written := w.written + (w.rest.take count).length }
        (d.write n w.written (w.rest.take count))
  /-- Its operation is performed, and it goes on with the result. -/
  | ends {stage : CacheWrite} {call : DiskCall} {result : Except IoError Nat} {d' : Disk} :
      w.stage = some stage → w.call? c lang = some call → call.Effect d d' result → a.performs →
      Turn c lang d w a { w with stage := some (stage.next result) } d'
  /-- It is told of a failure, although the operation may have been performed. -/
  | fails {stage : CacheWrite} {call : DiskCall} {result : Except IoError Nat} {d' : Disk}
      {cause : IoError} :
      w.stage = some stage → w.call? c lang = some call → call.Effect d d' result →
      (a.performs = false → d' = d) →
      Turn c lang d w a { w with stage := some (stage.next (.error cause)) } d'

theorem turn_act (c : GrammarCache) (lang : String) (d : Disk) (w : Writer) (a : WriterAct) :
    Turn c lang d w a (w.act c lang d a).1 (w.act c lang d a).2 := by
  cases a with
  | proceed =>
    rw [act]
    split
    · next hstage hcall => exact .ends hstage hcall (DiskCall.effect_perform _ d) rfl
    · exact .rests
  | write count =>
    rw [act]
    split
    · next hstage => exact .writes hstage
    · exact .rests
  | fail cause acted =>
    rw [act]
    split
    · next stage call hstage hcall =>
      cases acted with
      | true => exact .fails hstage hcall (DiskCall.effect_perform call d) nofun
      | false =>
        have heffect : call.Effect d d (.error cause) := .fails
        exact .fails hstage hcall heffect fun _ => rfl
    · exact .rests
  | stop => exact .stops

theorem Turn.payload_eq (h : Turn c lang d w a w' d') : w'.payload = w.payload := by
  cases h <;> rfl

/-! ### The temporary file -/

/-- Whether the temporary file, if it is there, is a certain one that has no other name in the
    directory. -/
structure HasTemp (c : GrammarCache) (lang : String) (d : Disk) (n : Nat) (bytes : Bytes) :
    Prop where
  /-- The file was created. -/
  lt_length : n < d.contents.length
  /-- It has no other name in the directory. -/
  place_eq : ∀ {q : Place}, c.Contains q → d.entry? q = some (.file n) → q = place (c.tempPath lang)
  /-- No other file has the temporary name. -/
  unique : ∀ {m : Nat}, d.entry? (place (c.tempPath lang)) = some (.file m) → m = n
  /-- It holds the bytes that were written. -/
  content_eq : d.content n = bytes

variable {n : Nat} {bytes : Bytes} {result : Except IoError Nat}

/-- What does not come to the names of files or to what it holds does not matter to it. -/
theorem HasTemp.of_entries (h : HasTemp c lang d n bytes)
    (hentry : ∀ {q : Place} {m : Nat}, d'.entry? q = some (.file m) → d.entry? q = some (.file m))
    (hcontents : d'.contents = d.contents) : HasTemp c lang d' n bytes where
  lt_length := hcontents ▸ h.lt_length
  place_eq hcontains hq := h.place_eq hcontains (hentry hq)
  unique hq := h.unique (hentry hq)
  content_eq := by rw [Disk.content, hcontents, ← Disk.content, h.content_eq]

/-- A file that was opened is empty. -/
theorem hasTemp_create (hlang : '/' ∉ lang.toList) (hunshared : d.IsUnshared c.Contains)
    (h : (DiskCall.create (c.tempPath lang)).Effect d d' (.ok n)) : HasTemp c lang d' n [] := by
  obtain ⟨hentry, hcontent⟩ := h.of_create
  have htemp : c.Contains (place (c.tempPath lang)) := GrammarCache.contains_tempPath hlang
  have hunshared' : d'.IsUnshared c.Contains := h.isUnshared hunshared htemp
  refine ⟨Disk.lt_length_of_entry hentry, fun hcontains hq => ?_, fun hq => ?_, hcontent⟩
  · exact hunshared' hcontains htemp hq hentry
  · cases hentry.symm.trans hq
    rfl

/-- What is written to its end is added to it. -/
theorem HasTemp.write (h : HasTemp c lang d n bytes) (more : Bytes) :
    HasTemp c lang (d.write n bytes.length more) n (bytes ++ more) where
  lt_length := Nat.lt_of_lt_of_eq h.lt_length (Disk.length_fill ..).symm
  place_eq hcontains hq := h.place_eq hcontains hq
  unique hq := h.unique hq
  content_eq := by
    have hcontent := Disk.content_write_append h.lt_length more
    rwa [h.content_eq] at hcontent

/-- With its name it becomes what is stored. -/
theorem HasTemp.stored?_of_rename {number : Nat} (h : HasTemp c lang d n bytes)
    (heffect : (DiskCall.rename (c.tempPath lang) (c.path lang)).Effect d d' (.ok number)) :
    c.stored? lang d' = some bytes := by
  refine CacheWrite.stored?_of_rename ?_ heffect
  cases heffect with
  | @renames _ _ m hentry _ =>
    obtain rfl := h.unique hentry
    exact Disk.file?_eq_some_iff.2 ⟨m, hentry, h.content_eq⟩

/-- What a writer can rely on when it has come so far. -/
def Fits (c : GrammarCache) (lang : String) (d : Disk) (w : Writer) : Prop :=
  match w.stage with
  | some .preparing | some .opening => w.written = 0
  | some (.filling n) =>
    w.written ≤ w.payload.length ∧ HasTemp c lang d n (w.payload.take w.written)
  | some (.syncing n) => HasTemp c lang d n w.payload
  | some .naming => ∃ n, HasTemp c lang d n w.payload
  | _ => True

/-- What it does brings it to what it can rely on next. -/
theorem Turn.fits (h : Turn c lang d w a w' d') (hlang : '/' ∉ lang.toList)
    (hunshared : d.IsUnshared c.Contains) (hfits : w.Fits c lang d) : w'.Fits c lang d' := by
  obtain ⟨payload, stage, written⟩ := w
  cases h with
  | rests => exact hfits
  | stops => trivial
  | @writes n count hstage =>
    obtain rfl : stage = _ := hstage
    obtain ⟨hle, htemp⟩ := hfits
    have hwrite := htemp.write ((payload.drop written).take count)
    have htake : payload.take (written + ((payload.drop written).take count).length) =
        payload.take written ++ (payload.drop written).take count := by
      rw [List.take_add, List.length_take, ← List.take_eq_take_min]
    rw [List.length_take_of_le hle, ← htake] at hwrite
    refine ⟨?_, hwrite⟩
    have := List.length_take_le' count (payload.drop written)
    rw [List.length_drop] at this
    exact Nat.add_le_of_le_sub' hle this
  | @ends stage call result _ hstage hcall heffect _ =>
    obtain rfl : _ = some stage := hstage
    cases stage with
    | preparing =>
      cases result with
      | error e => trivial
      | ok n => exact hfits
    | opening =>
      cases result with
      | error e => trivial
      | ok n =>
        -- The file is empty, and nothing of the payload has been written.
        cases hcall
        obtain rfl : written = 0 := hfits
        exact ⟨Nat.zero_le _, hasTemp_create hlang hunshared heffect⟩
    | filling n =>
      cases hcall
      obtain ⟨hle, htemp⟩ := hfits
      cases heffect with
      | fails => trivial
      | writes =>
        -- With what was left the file is complete.
        have hwrite := htemp.write (payload.drop written)
        rw [List.length_take_of_le hle, List.take_append_drop] at hwrite
        exact hwrite
    | syncing n =>
      cases hcall
      cases heffect with
      | fails => trivial
      | syncs => exact ⟨n, hfits⟩
    | naming => cases result <;> trivial
    | discarding cause => trivial
    | done r => trivial
  | @fails stage call result _ cause hstage _ _ _ =>
    cases stage <;> trivial

/-- A writer opens and renames files in the directory of the cache only. -/
theorem isWithin_of_call? {call : DiskCall} (hlang : '/' ∉ lang.toList)
    (hcall : w.call? c lang = some call) : call.IsWithin c.Contains := by
  obtain ⟨payload, stage, written⟩ := w
  cases stage with
  | none => cases hcall
  | some stage =>
    cases stage with
    | opening =>
      cases hcall
      exact GrammarCache.contains_tempPath hlang
    | naming =>
      cases hcall
      exact GrammarCache.contains_tempPath hlang
    | done r => cases hcall
    | _ =>
      cases hcall
      trivial

/-- What is performed for a writer leaves alone what is stored, or stores all of its payload. -/
theorem stored?_of_call {call : DiskCall} (hlang : '/' ∉ lang.toList)
    (hunshared : d.IsUnshared c.Contains)
    (hfits : w.Fits c lang d) (hcall : w.call? c lang = some call)
    (heffect : call.Effect d d' result) :
    c.stored? lang d' = c.stored? lang d ∨ c.stored? lang d' = some w.payload := by
  have hne : place (c.path lang) ≠ place (c.tempPath lang) :=
    GrammarCache.path_ne_tempPath hlang hlang
  have hsame (havoids : call.Avoids d (place (c.path lang))) :
      c.stored? lang d' = c.stored? lang d :=
    GrammarCache.stored?_of_avoids hlang hunshared heffect (isWithin_of_call? hlang hcall) havoids
  obtain ⟨payload, stage, written⟩ := w
  -- Only renaming touches the place of the payload; a filled file stands at the temporary place
  -- alone.
  cases stage with
  | none => cases hcall
  | some stage =>
    cases stage with
    | preparing =>
      cases hcall
      exact .inl (hsame trivial)
    | opening =>
      cases hcall
      exact .inl (hsame hne)
    | filling n =>
      cases hcall
      exact .inl (hsame fun h => hne (hfits.2.place_eq (GrammarCache.contains_path hlang) h))
    | syncing n =>
      cases hcall
      exact .inl (hsame trivial)
    | naming =>
      cases hcall
      obtain ⟨n, htemp⟩ := hfits
      cases result with
      | error e =>
        cases heffect
        exact .inl rfl
      | ok number => exact .inr (htemp.stored?_of_rename heffect)
    | discarding cause =>
      cases hcall
      exact .inl (hsame hne)
    | done r => cases hcall

theorem Turn.stored? (h : Turn c lang d w a w' d') (hlang : '/' ∉ lang.toList)
    (hunshared : d.IsUnshared c.Contains) (hfits : w.Fits c lang d) :
    c.stored? lang d' = c.stored? lang d ∨ c.stored? lang d' = some w.payload := by
  cases h with
  | rests => exact .inl rfl
  | stops => exact .inl rfl
  | @writes n count hstage =>
    have htemp : HasTemp c lang d n (w.payload.take w.written) := by
      rw [Fits, hstage] at hfits
      exact hfits.2
    refine .inl (GrammarCache.stored?_of_avoids hlang hunshared .writes trivial fun h => ?_)
    exact GrammarCache.path_ne_tempPath hlang hlang
      (htemp.place_eq (GrammarCache.contains_path hlang) h)
  | ends _ hcall heffect _ => exact stored?_of_call hlang hunshared hfits hcall heffect
  | fails _ hcall heffect _ => exact stored?_of_call hlang hunshared hfits hcall heffect

theorem Turn.isUnshared (h : Turn c lang d w a w' d') (hlang : '/' ∉ lang.toList)
    (hunshared : d.IsUnshared c.Contains) : d'.IsUnshared c.Contains := by
  cases h with
  | rests => exact hunshared
  | stops => exact hunshared
  | writes _ => exact hunshared
  | ends _ hcall heffect _ => exact heffect.isUnshared hunshared (isWithin_of_call? hlang hcall)
  | fails _ hcall heffect _ => exact heffect.isUnshared hunshared (isWithin_of_call? hlang hcall)

/-- Only who opens the temporary file comes to have it open. -/
theorem Turn.of_holds (h : Turn c lang d w a w' d') (hholds : w'.holds) :
    w.holds ∨ w.isOpening ∧ a.performs := by
  obtain ⟨payload, stage, written⟩ := w
  cases h with
  | rests => exact .inl hholds
  | stops => cases hholds
  | writes hstage =>
    obtain rfl : stage = _ := hstage
    exact .inl rfl
  | @ends stage call result _ hstage _ _ hperforms =>
    obtain rfl : _ = some stage := hstage
    cases stage with
    | opening => exact .inr ⟨rfl, hperforms⟩
    | filling n => exact .inl rfl
    | syncing n => exact .inl rfl
    | naming => exact .inl rfl
    | preparing => cases result <;> cases hholds
    | discarding cause => cases hholds
    | done r => cases hholds
  | @fails stage _ _ _ _ _ _ _ _ => cases stage <;> cases hholds

/-- What is performed for others leaves the temporary file alone, or removes it, unless they have
    it open or open it. -/
theorem HasTemp.of_call {call : DiskCall} (htemp : HasTemp c lang d n bytes)
    (hholds : w.holds = false) (hopening : w.isOpening = false) (hcall : w.call? c lang = some call)
    (heffect : call.Effect d d' result) : HasTemp c lang d' n bytes := by
  obtain ⟨payload, stage, written⟩ := w
  cases stage with
  | none => cases hcall
  | some stage =>
    cases stage with
    | preparing =>
      cases hcall
      cases heffect with
      | fails => exact htemp
      | makes hextends => exact htemp.of_entries hextends.no_file hextends.contents_eq
    | discarding cause =>
      -- The file may lose its name, but it stays as it is.
      cases hcall
      have hentry {q : Place} {m : Nat} (hq : d'.entry? q = some (.file m)) :
          d.entry? q = some (.file m) := by
        rcases heffect.entry?_eq_file hq with hq | ⟨_, _, hcall, _⟩ | ⟨_, _, hcall, _⟩
        · exact hq
        · cases hcall
        · cases hcall
      refine htemp.of_entries hentry ?_
      cases heffect <;> rfl
    | opening => cases hopening
    | done r => cases hcall
    | _ => cases hholds

theorem Turn.hasTemp (h : Turn c lang d w a w' d') (hholds : w.holds = false)
    (hopens : ¬(w.isOpening ∧ a.performs)) (htemp : HasTemp c lang d n bytes) :
    HasTemp c lang d' n bytes := by
  cases h with
  | rests => exact htemp
  | stops => exact htemp
  | writes hstage =>
    rw [holds, hstage] at hholds
    cases hholds
  | ends _ hcall heffect hperforms =>
    have hopening : w.isOpening = false := Bool.eq_false_iff.2 fun h => hopens ⟨h, hperforms⟩
    exact htemp.of_call hholds hopening hcall heffect
  | fails _ hcall heffect hsame =>
    cases hperforms : a.performs with
    | false => exact hsame hperforms ▸ htemp
    | true =>
      have hopening : w.isOpening = false := Bool.eq_false_iff.2 fun h => hopens ⟨h, hperforms⟩
      exact htemp.of_call hholds hopening hcall heffect

/-- What another writer does leaves alone what a writer can rely on, if only one of them has the
    temporary file open, and the other one does not open it then. -/
theorem Turn.fits_other {w₁ : Writer} (h : Turn c lang d w a w' d') (hfits : w₁.Fits c lang d)
    (hother : w₁.holds → w.holds = false ∧ ¬(w.isOpening ∧ a.performs)) : w₁.Fits c lang d' := by
  obtain ⟨payload, stage, written⟩ := w₁
  cases stage with
  | none => trivial
  | some stage =>
    cases stage with
    | filling n => exact hfits.imp_right (h.hasTemp (hother rfl).1 (hother rfl).2)
    | syncing n => exact h.hasTemp (hother rfl).1 (hother rfl).2 hfits
    | naming => exact hfits.imp fun n => h.hasTemp (hother rfl).1 (hother rfl).2
    | _ => exact hfits

end Writer

/-- The disk and those who write to it. -/
structure Writers where
  /-- The disk that they share. -/
  disk : Disk
  /-- Those who write, in the order in which they are numbered. -/
  writers : List Writer

namespace Writers

/-- What happens when one of them does something. -/
def step (c : GrammarCache) (lang : String) (s : Writers) (i : Nat) (a : WriterAct) : Writers :=
  match s.writers[i]? with
  | none => s
  | some w =>
    let (w, disk) := w.act c lang s.disk a
    { disk, writers := s.writers.set i w }

/-- What happens when they do this and that, one after another. -/
def run (c : GrammarCache) (lang : String) : Writers → List (Nat × WriterAct) → Writers
  | s, [] => s
  | s, (i, a) :: acts => run c lang (s.step c lang i a) acts

/-- Whether the temporary file is not opened by one of them while it is open for another one. -/
def allows (s : Writers) (i : Nat) (a : WriterAct) : Bool :=
  match s.writers[i]? with
  | none => true
  | some w => !(w.isOpening && a.performs) || s.writers.all fun w => !w.holds

/-- Whether it never is. -/
def keepApart (c : GrammarCache) (lang : String) : Writers → List (Nat × WriterAct) → Bool
  | _, [] => true
  | s, (i, a) :: acts => s.allows i a && keepApart c lang (s.step c lang i a) acts

variable {c : GrammarCache} {lang : String} {s : Writers} {i : Nat} {w : Writer} {a : WriterAct}
  {acts : List (Nat × WriterAct)} {payload : Bytes} {payloads : List Bytes} {old : Option Bytes}
  {d : Disk} {stage : CacheWrite}

theorem step_eq (h : s.writers[i]? = some w) : s.step c lang i a =
    ⟨(w.act c lang s.disk a).2, s.writers.set i (w.act c lang s.disk a).1⟩ := by
  rw [step, h]

/-! ### One writer -/

theorem finish_eq {call : DiskCall} {d' : Disk} {result : Except IoError Nat}
    (h : stage.call? c lang payload = some call) (hperform : call.perform d = (d', result)) :
    stage.finish c lang payload d = (stage.next result).finish c lang payload d' := by
  rw [CacheWrite.finish.eq_def]
  cases stage with
  | done r => cases h
  | _ =>
    cases h
    simp only [CacheWrite.call?, hperform]

/-- A writer that no other comes between does what it has to at once. -/
theorem run_finish {fuel : Nat} (h : stage.remaining ≤ fuel) :
    run c lang ⟨d, [⟨payload, some stage, 0⟩]⟩ (List.replicate fuel (0, .proceed)) =
      ⟨(stage.finish c lang payload d).1,
        [⟨payload, some (.done (stage.finish c lang payload d).2), 0⟩]⟩ := by
  -- The fuel bounds the calls still to be made; a write that is done makes none.
  induction fuel generalizing stage d with
  | zero =>
    cases stage with
    | done r => rw [CacheWrite.finish.eq_def]; rfl
    | _ => cases h
  | succ fuel ih =>
    rw [List.replicate_succ, run]
    cases hcall : stage.call? c lang payload with
    | none =>
      cases stage with
      | done r => exact ih (Nat.zero_le _)
      | _ => cases hcall
    | some call =>
      have hact : step c lang ⟨d, [⟨payload, some stage, 0⟩]⟩ 0 .proceed =
          ⟨(call.perform d).1, [⟨payload, some (stage.next (call.perform d).2), 0⟩]⟩ := by
        cases stage <;> cases hcall <;> rfl
      have hpos : 0 < stage.remaining := by
        cases stage with
        | done r => cases hcall
        | _ => exact Nat.succ_pos _
      have hlt := CacheWrite.remaining_next_lt (call.perform d).2 hpos
      rw [hact, finish_eq hcall rfl]
      exact ih (Nat.le_of_lt_succ (Nat.lt_of_lt_of_le hlt h))

/-- A single writer stores its payload. -/
theorem run_alone (c : GrammarCache) (lang : String) (payload : Bytes) (d : Disk) :
    run c lang ⟨d, [.start payload]⟩ (List.replicate 6 (0, .proceed)) =
      ⟨(c.write lang payload d).1, [⟨payload, some (.done (c.write lang payload d).2), 0⟩]⟩ :=
  run_finish (Nat.le_refl 6)

/-! ### Several writers -/

/-- What is true at any moment. -/
structure Whole (c : GrammarCache) (lang : String) (old : Option Bytes) (payloads : List Bytes)
    (s : Writers) : Prop where
  /-- No file has two names in the directory of the cache. -/
  unshared : s.disk.IsUnshared c.Contains
  /-- Each writer stores its own payload. -/
  payloads_eq : s.writers.map (·.payload) = payloads
  /-- The temporary file is open for one writer at most. -/
  alone : ∀ {i j : Nat} {w w' : Writer}, s.writers[i]? = some w → s.writers[j]? = some w' →
    w.holds → w'.holds → i = j
  /-- It holds what each of them relies on. -/
  fits : ∀ {i : Nat} {w : Writer}, s.writers[i]? = some w → w.Fits c lang s.disk
  /-- What is stored is what was there at first, or a whole payload. -/
  stored : c.stored? lang s.disk = old ∨ ∃ payload ∈ payloads, c.stored? lang s.disk = some payload

theorem whole_start (hunshared : d.IsUnshared c.Contains) :
    Whole c lang (c.stored? lang d) payloads ⟨d, payloads.map .start⟩ where
  unshared := hunshared
  payloads_eq := by simp [Function.comp_def, Writer.start]
  alone h _ hholds _ := by
    obtain ⟨payload, _, rfl⟩ := List.mem_map.1 (List.mem_of_getElem? h)
    cases hholds
  fits h := by
    obtain ⟨payload, _, rfl⟩ := List.mem_map.1 (List.mem_of_getElem? h)
    exact rfl
  stored := .inl rfl

/-- Where a writer opens the temporary file, no other one has it open. -/
theorem holds_eq_false_of_allows {j : Nat} {w' : Writer} (hallows : s.allows i a)
    (hw : s.writers[i]? = some w) (hopens : w.isOpening ∧ a.performs)
    (hw' : s.writers[j]? = some w') : w'.holds = false := by
  rw [allows, hw] at hallows
  simp only [hopens.1, hopens.2, Bool.and_true, Bool.not_true, Bool.false_or, List.all_eq_true,
    Bool.not_eq_true'] at hallows
  exact hallows w' (List.mem_of_getElem? hw')

theorem whole_step (hlang : '/' ∉ lang.toList) (h : Whole c lang old payloads s)
    (hallows : s.allows i a) : Whole c lang old payloads (s.step c lang i a) := by
  cases hw : s.writers[i]? with
  | none =>
    rw [step, hw]
    exact h
  | some w =>
    rw [step_eq hw]
    have hturn := Writer.turn_act c lang s.disk w a
    generalize (w.act c lang s.disk a).1 = w', (w.act c lang s.disk a).2 = d' at hturn ⊢
    have hset {j : Nat} {v : Writer} (hv : (s.writers.set i w')[j]? = some v) :
        j = i ∧ v = w' ∨ j ≠ i ∧ s.writers[j]? = some v := by
      by_cases hj : j = i
      · subst hj
        have hlt := (List.getElem?_eq_some_iff.1 hw).1
        rw [List.getElem?_set_self hlt] at hv
        exact .inl ⟨rfl, (Option.some.inj hv).symm⟩
      · rw [List.getElem?_set_ne (Ne.symm hj)] at hv
        exact .inr ⟨hj, hv⟩
    have hnone {j : Nat} {v : Writer} (hv : s.writers[j]? = some v)
        (hopens : w.isOpening ∧ a.performs) : v.holds = false :=
      holds_eq_false_of_allows hallows hw hopens hv
    constructor
    case unshared => exact hturn.isUnshared hlang h.unshared
    case payloads_eq =>
      obtain ⟨hlt, rfl⟩ := List.getElem?_eq_some_iff.1 hw
      rw [List.map_set, hturn.payload_eq, ← List.map_set, List.set_getElem_self, h.payloads_eq]
    case alone =>
      -- Who has the file open now had it open before, or has opened it while nobody had.
      have hone {j : Nat} {v : Writer} (hv : s.writers[j]? = some v) (hholds : v.holds)
          (hholds' : w'.holds) : j = i := by
        rcases hturn.of_holds hholds' with hw' | hopens
        · exact h.alone hv hw hholds hw'
        · rw [hnone hv hopens] at hholds
          cases hholds
      intro j j' v v' hv hv' hholds hholds'
      rcases hset hv with ⟨rfl, rfl⟩ | ⟨hj, hold⟩ <;>
        rcases hset hv' with ⟨rfl, rfl⟩ | ⟨hj', hold'⟩
      · rfl
      · exact absurd (hone hold' hholds' hholds) hj'
      · exact absurd (hone hold hholds hholds') hj
      · exact h.alone hold hold' hholds hholds'
    case fits =>
      intro j v hv
      rcases hset hv with ⟨rfl, rfl⟩ | ⟨hj, hv⟩
      · exact hturn.fits hlang h.unshared (h.fits hw)
      · -- If the other one has the file open, this one neither has nor opens it.
        refine hturn.fits_other (h.fits hv) fun hholds => ⟨?_, fun hopens => ?_⟩
        · exact Bool.eq_false_iff.2 fun hholds' => hj (h.alone hv hw hholds hholds')
        · rw [hnone hv hopens] at hholds
          cases hholds
    case stored =>
      -- What is stored changes only by a renaming, from a complete file.
      rcases hturn.stored? hlang h.unshared (h.fits hw) with hkept | hnew
      · rw [hkept]
        exact h.stored
      · have hmem : w.payload ∈ s.writers.map (·.payload) :=
          List.mem_map_of_mem (List.mem_of_getElem? hw)
        exact .inr ⟨w.payload, h.payloads_eq ▸ hmem, hnew⟩

theorem whole_run (hlang : '/' ∉ lang.toList) (h : Whole c lang old payloads s)
    (hapart : keepApart c lang s acts) : Whole c lang old payloads (run c lang s acts) := by
  induction acts generalizing s with
  | nil => exact h
  | cons act acts ih =>
    rw [keepApart, Bool.and_eq_true] at hapart
    exact ih (whole_step hlang h hapart.1) hapart.2

theorem keepApart_take {k : Nat} (h : keepApart c lang s acts) :
    keepApart c lang s (acts.take k) := by
  induction acts generalizing s k with
  | nil => rwa [List.take_nil]
  | cons act acts ih =>
    cases k with
    | zero => rfl
    | succ k =>
      rw [keepApart, Bool.and_eq_true] at h
      rw [List.take_succ_cons, keepApart, Bool.and_eq_true]
      exact ⟨h.1, ih h.2⟩

/-- What is stored for a language when several store their payloads. -/
structure IsWhole (c : GrammarCache) (lang : String) (old : Option Bytes) (payloads : List Bytes)
    (s : Writers) : Prop where
  /-- It is what was stored at first, if something was, or all of one payload. -/
  stored : c.stored? lang s.disk = old ∨ ∃ payload ∈ payloads, c.stored? lang s.disk = some payload
  /-- So is what can be read. -/
  read : ∀ bytes, c.read lang s.disk = .ok bytes → old = some bytes ∨ bytes ∈ payloads
  /-- Who completes its payload leaves it there. -/
  named : ∀ (i : Nat) (w : Writer) (disk : Disk), s.writers[i]? = some w →
    w.stage = some .naming → s.disk.rename (c.tempPath lang) (c.path lang) = (disk, .ok ()) →
    c.stored? lang disk = some w.payload

theorem isWhole_run (hlang : '/' ∉ lang.toList) (hunshared : d.IsUnshared c.Contains)
    (hapart : keepApart c lang ⟨d, payloads.map .start⟩ acts) (k : Nat) :
    IsWhole c lang (c.stored? lang d) payloads
      (run c lang ⟨d, payloads.map .start⟩ (acts.take k)) := by
  have hwhole := whole_run hlang (whole_start hunshared) (keepApart_take (k := k) hapart)
  generalize run c lang ⟨d, payloads.map .start⟩ (acts.take k) = s at hwhole
  constructor
  case stored => exact hwhole.stored
  case read =>
    intro bytes hread
    have hbytes := GrammarCache.stored?_of_read hread
    rcases hwhole.stored with hold | ⟨payload, hmem, hpayload⟩
    · exact .inl (hold.symm.trans hbytes)
    · exact .inr (Option.some.inj (hpayload.symm.trans hbytes) ▸ hmem)
  case named =>
    intro i w disk hw hstage hrename
    have hfits := hwhole.fits hw
    rw [Writer.Fits, hstage] at hfits
    obtain ⟨n, htemp⟩ := hfits
    have heffect := DiskCall.effect_rename s.disk (c.tempPath lang) (c.path lang)
    rw [hrename] at heffect
    exact htemp.stored?_of_rename heffect

/-- One writer is given up halfway, and another one stores its payload then. -/
theorem isWhole_given_up :
    let payloads : List Bytes := [[1, 2, 3], [4, 5]]
    let acts : List (Nat × WriterAct) :=
      [(0, .proceed), (0, .proceed), (0, .write 2), (0, .stop)] ++ List.replicate 5 (1, .proceed)
    let s := run ⟨"c"⟩ "go" ⟨.empty, payloads.map .start⟩ acts
    ('/' ∉ "go".toList ∧ Disk.empty.IsUnshared (GrammarCache.Contains ⟨"c"⟩) ∧
      keepApart ⟨"c"⟩ "go" ⟨.empty, payloads.map .start⟩ acts) ∧
      GrammarCache.stored? ⟨"c"⟩ "go" s.disk = some [4, 5] ∧
      IsWhole ⟨"c"⟩ "go" none payloads s := by
  intro payloads acts s
  have hlang : '/' ∉ "go".toList := by decide
  have hapart : keepApart ⟨"c"⟩ "go" ⟨.empty, payloads.map .start⟩ acts := by decide +kernel
  have hunshared : Disk.empty.IsUnshared (GrammarCache.Contains ⟨"c"⟩) := Disk.isUnshared_empty _
  have hwhole := isWhole_run hlang hunshared hapart 9
  rw [GrammarCache.stored?_empty] at hwhole
  exact ⟨⟨hlang, hunshared, hapart⟩, by decide +kernel, hwhole⟩

/-- Two payloads for one language. -/
def rivals : List Bytes := [Text.encode "grammar:python", Text.encode "alias:rust"]

/-- The first writer has written all of its payload when the other one opens the file, and
    renames it then. -/
def emptied : Writers :=
  run ⟨"c"⟩ "python" ⟨.empty, rivals.map .start⟩
    (List.replicate 4 (0, .proceed) ++ List.replicate 2 (1, .proceed) ++ [(0, .proceed)])

/-- Both have the file open when the first one writes and renames it, and then the other one
    writes. -/
def overwritten : Writers :=
  run ⟨"c"⟩ "python" ⟨.empty, rivals.map .start⟩
    (List.replicate 2 (1, .proceed) ++ List.replicate 5 (0, .proceed) ++ [(1, .proceed)])

/-- If a writer opens the temporary file of another one, what is stored may be empty, or mixed
    from both payloads. -/
theorem not_isWhole_rivals :
    GrammarCache.stored? ⟨"c"⟩ "python" emptied.disk = some [] ∧
      ¬IsWhole ⟨"c"⟩ "python" none rivals emptied ∧
      GrammarCache.stored? ⟨"c"⟩ "python" overwritten.disk = some (Text.encode "alias:rustthon") ∧
      ¬IsWhole ⟨"c"⟩ "python" none rivals overwritten := by
  have hemptied : GrammarCache.stored? ⟨"c"⟩ "python" emptied.disk = some [] := by decide +kernel
  have hmixed : GrammarCache.stored? ⟨"c"⟩ "python" overwritten.disk =
      some (Text.encode "alias:rustthon") := by decide +kernel
  refine ⟨hemptied, fun h => ?_, hmixed, fun h => ?_⟩
  · have hstored := h.stored
    rw [hemptied] at hstored
    exact absurd hstored (by decide)
  · have hstored := h.stored
    rw [hmixed] at hstored
    exact absurd hstored (by decide)

end Writers

end SymbolPaths
