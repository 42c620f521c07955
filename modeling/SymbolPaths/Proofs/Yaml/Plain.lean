import SymbolPaths.Proofs.Yaml.Layout
import SymbolPaths.Yaml.Scalar.Plain
import SymbolPaths.Yaml.Scalar.Written

/-!
# Plain texts are read back

A text without quotes goes on until something ends it. One that is written so has nothing in it
that would, and the next entry is not indented, so that it is read up to there. A key goes on to
its colon.

* `exists_readPlain`: what was written plainly is read back;
* `readPlain_key`: a key is read up to its colon.
-/

namespace SymbolPaths.Yaml

variable {c x : Char} {cs gap rest : List Char} {m : Mark} {floor : Nat}

/-- A gap in a plain text is gathered until it is over. -/
theorem readPlain_gap (h : isGap c) (htab : c ≠ '\t') :
    readPlain false floor gap m (c :: cs) =
      readPlain false floor (gap ++ [c]) (m.after c) cs := by
  rw [readPlain, if_pos h, if_neg fun hbad => htab hbad.1]

/-- A character that does not end the text stands for itself, behind the gap before it. -/
theorem readPlain_char (h : isGap c = false) (hgap : gap.any isBreak = false)
    (hcomment : gap = [] ∨ c ≠ '#') (hends : (c == ':' && endsWord cs) = false) :
    readPlain false floor gap m (c :: cs) =
      (readPlain false floor [] (m.after c) cs).map fun (t, s) =>
        (foldGap false gap ++ c :: t, s) := by
  have hcomment' : (!gap.isEmpty && c == '#') = false := by
    rcases hcomment with rfl | hne
    · rfl
    · rw [beq_eq_false_iff_ne.2 hne, Bool.and_false]
  rw [readPlain, h, hgap, hcomment', endsPlain, hends]
  simp only [Bool.false_and, Bool.false_or, Bool.false_eq_true, if_false]

/-- The next entry is not a part of the text before, since it is not indented. -/
theorem readPlain_break (hrest : startsEntry rest) (hfloor : 0 < floor) (m : Mark) :
    readPlain false floor [] m ('\n' :: rest) = some ([], ⟨m.after '\n', rest⟩) := by
  have hbreak : isBreak '\n' = true := rfl
  have hcolumn : (m.after '\n').column < floor := by rwa [Mark.column_after_of_isBreak hbreak]
  rw [readPlain_gap rfl (by decide), List.nil_append]
  cases rest with
  | nil => rfl
  | cons c cs =>
    rw [readPlain, isGap_of_startsEntry hrest, List.any_cons, hbreak]
    simp only [Bool.false_eq_true, if_false, Bool.not_false, Bool.true_and, Bool.true_or,
      decide_eq_true hcolumn, Bool.or_true, if_true]

/-- A colon that ends a key ends the text as well. -/
theorem readPlain_colon (h : endsWord cs) :
    readPlain false floor [] m (':' :: cs) = some ([], ⟨m, ':' :: cs⟩) := by
  have hcolon : isGap ':' = false := rfl
  rw [readPlain, hcolon, endsPlain, h]
  simp

/-- Whether a word ends is told by what follows it in its line. -/
theorem endsWord_append_break (h : isBreak c) (cs rest : List Char) :
    endsWord (cs ++ c :: rest) = endsWord cs := by
  cases cs with
  | nil => exact isGap_of_isBreak h
  | cons d cs => rfl

/-- The reading goes along with the writing; the spaces before are what was read of them so far,
    after the character `x`. -/
theorem exists_readPlain_append (hcs : ∀ c ∈ cs, isPrintable c ∧ isBreak c = false)
    (hinside : marksInside (x :: cs) = false) (hgap : ∀ c ∈ gap, c = ' ')
    (hx : gap ≠ [] → x = ' ') (hlast : (gap ++ cs).getLast? ≠ some ' ') (hfloor : 0 < floor)
    (hrest : startsEntry rest) :
    ∃ m' : Mark, m'.column = 0 ∧ readPlain false floor gap m (cs ++ '\n' :: rest) =
      some (gap ++ cs, ⟨m', rest⟩) := by
  induction cs generalizing x gap m with
  | nil =>
    -- The text does not end with a space.
    have hnil : gap = [] := by
      refine List.eq_nil_iff_forall_not_mem.2 fun c hc => hlast ?_
      rw [List.append_nil, List.getLast?_eq_some_getLast (List.ne_nil_of_mem hc),
        hgap _ (List.getLast_mem _)]
    subst hnil
    exact ⟨m.after '\n', Mark.column_after_of_isBreak rfl m, readPlain_break hrest hfloor m⟩
  | cons c cs ih =>
    obtain ⟨⟨hprintable, hbreak⟩, hcs'⟩ := List.forall_mem_cons.1 hcs
    rw [marksInside, Bool.or_eq_false_iff, Bool.or_eq_false_iff] at hinside
    obtain ⟨⟨hcolon, hcomment⟩, hinside'⟩ := hinside
    by_cases hspace : c = ' '
    · subst hspace
      obtain ⟨m', hm', hread⟩ := ih hcs' hinside' (forall_mem_append_space hgap) (fun _ => rfl)
        (by rwa [List.append_assoc]) (m := m.after ' ')
      refine ⟨m', hm', ?_⟩
      rw [List.cons_append, readPlain_gap rfl (by decide), hread, List.append_assoc]
      rfl
    · have hc : isGap c = false := by
        rw [isGap_eq_of_isPrintable hprintable hbreak, beq_eq_false_iff_ne.2 hspace]
      have hbreaks : gap.any isBreak = false := by
        refine List.any_eq_false.2 fun d hd => ?_
        rw [hgap d hd]
        decide
      have hcomment' : gap = [] ∨ c ≠ '#' := by
        refine Decidable.or_iff_not_imp_left.2 fun hne => ?_
        rw [hx hne] at hcomment
        exact beq_eq_false_iff_ne.1 hcomment
      have hends : (c == ':' && endsWord (cs ++ '\n' :: rest)) = false := by
        rwa [endsWord_append_break rfl]
      have hlast' : ([] ++ cs).getLast? ≠ some ' ' := by
        cases cs with
        | nil => simp
        | cons d ds => simpa [List.getLast?_append] using hlast
      have hnil : ∀ c ∈ ([] : List Char), c = ' ' := nofun
      obtain ⟨m', hm', hread⟩ := ih hcs' hinside' hnil (absurd rfl) hlast' (m := m.after c)
      refine ⟨m', hm', ?_⟩
      rw [List.cons_append, readPlain_char hc hbreaks hcomment' hends, hread, foldGap_spaces hgap]
      rfl

/-- What was written plainly is read back. -/
theorem exists_readPlain (h : allowsPlain cs) (hfloor : 0 < floor) (hrest : startsEntry rest)
    (m : Mark) :
    ∃ m' : Mark, m'.column = 0 ∧ readPlain false floor [] m (cs ++ '\n' :: rest) =
      some (cs, ⟨m', rest⟩) := by
  simp only [allowsPlain, Bool.and_eq_true, Bool.not_eq_true', List.all_eq_true] at h
  obtain ⟨⟨⟨⟨⟨⟨hprintable, hbreaks⟩, -⟩, hlast⟩, hstart⟩, hinside⟩, -⟩ := h
  -- Before the first character there might be any letter: a colon there is no end of a word.
  have hinside' : marksInside ('a' :: cs) = false := by
    cases cs with
    | nil => rfl
    | cons c cs =>
      rw [marksStart, Bool.or_eq_false_iff] at hstart
      have hcolon : (c == ':' && endsWord cs) = false := by
        by_cases hc : c = ':'
        · subst hc
          simpa using hstart.2
        · rw [beq_eq_false_iff_ne.2 hc, Bool.false_and]
      rw [marksInside, hcolon, hinside]
      rfl
  refine exists_readPlain_append (x := 'a') (fun c hc => ⟨hprintable c hc, ?_⟩) hinside'
    (fun _ hc => absurd hc List.not_mem_nil) (absurd rfl) (fun heq => ?_) hfloor hrest
  · exact Bool.eq_false_iff.2 (List.any_eq_false.1 hbreaks c hc)
  · rw [List.nil_append] at heq
    simp [heq] at hlast

/-- A key is read up to its colon. -/
theorem readPlain_key (hkey : ∀ c ∈ cs, c.isLower ∨ c = '-') (hrest : endsWord rest) (m : Mark) :
    readPlain false floor [] m (cs ++ ':' :: rest) =
      some (cs, ⟨m.skip cs.length, ':' :: rest⟩) := by
  induction cs generalizing m with
  | nil => exact readPlain_colon hrest
  | cons c cs ih =>
    obtain ⟨hc, hcs⟩ := List.forall_mem_cons.1 hkey
    have hgap : isGap c = false := by
      rcases hc with hlower | rfl
      · have hentry : startsEntry [c] := by rw [startsEntry, hlower, Bool.true_or]
        exact isGap_of_startsEntry hentry
      · rfl
    have hcolon : c ≠ ':' := by
      rintro rfl
      exact absurd hc (by decide)
    rw [List.cons_append, readPlain_char hgap rfl (.inl rfl)
      (by rw [beq_eq_false_iff_ne.2 hcolon, Bool.false_and]), ih hcs,
      Mark.skip_after (isBreak_of_isGap_eq_false hgap)]
    rfl

end SymbolPaths.Yaml
