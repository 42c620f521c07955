import Mathlib.Data.List.TakeWhile

/-!
# Expressions

An expression tells which texts are meant, and names the parts of them that are wanted. At one
place of a text it may match in several ways, which are tried in a fixed order: a repetition
takes all the characters it can and gives them back one by one, and what can be left out is
left out last. A search takes the first way at the first place that has one.

* `mem_ways_one`, .., `mem_ways_stop`: what the ways of an expression are;
* `first?_many`, .., `first?_seq`: which of them is the first.

That an expression may match in several ways is what makes a search hard to speak of: a part that
was taken has to be given back where the rest does not match. So the ways are listed first,
without asking which of them is taken (`mem_ways_seq` and the like say what is in the list), and
only then the head of the list is looked at. Where the rest matches behind the first way of a part
nothing is given back (`first?_seq`), and that is how links are read.
-/

namespace SymbolPaths

/-- Expressions whose parts have names in `ν`. -/
inductive Expression (ν : Type) where
  /-- One character of a class. -/
  | one (ok : Char → Bool)
  /-- Any number of characters of a class. -/
  | many (ok : Char → Bool)
  /-- One expression after another. -/
  | seq (first second : Expression ν)
  /-- What may be left out. -/
  | optional (e : Expression ν)
  /-- An expression whose text is a part with a name. -/
  | named (name : ν) (e : Expression ν)
  /-- Nothing, and only at the end of the whole text. -/
  | stop

/-- A way to match an expression: what is matched, the named parts of it and what follows. -/
structure TextMatch (ν : Type) where
  /-- What is matched. -/
  text : List Char
  /-- The named parts, in the order in which they are matched. -/
  parts : List (ν × List Char)
  /-- What follows. -/
  rest : List Char

namespace TextMatch

variable {ν : Type}

/-- A match and another one in what follows it. -/
def append (m n : TextMatch ν) : TextMatch ν := ⟨m.text ++ n.text, m.parts ++ n.parts, n.rest⟩

/-- The part with a name, if it was matched and is not empty. -/
def part? [DecidableEq ν] (m : TextMatch ν) (name : ν) : Option (List Char) :=
  ((m.parts.find? (·.1 = name)).map (·.2)).filter (· ≠ [])

end TextMatch

namespace Expression

variable {ν : Type} {ok : Char → Bool} {a b e : Expression ν} {name : ν} {c : Char}
  {cs text rest : List Char} {m : TextMatch ν}

/-- The ways to match any number of characters, the longest first. -/
def waysOfMany (ok : Char → Bool) : List Char → List (TextMatch ν)
  | [] => [⟨[], [], []⟩]
  | c :: cs =>
    (if ok c then (waysOfMany ok cs).map fun m => { m with text := c :: m.text } else []) ++
      [⟨[], [], c :: cs⟩]

/-- The ways to match an expression at the beginning of a text, in the order in which they are
    tried. -/
def ways : Expression ν → List Char → List (TextMatch ν)
  | one ok, cs =>
    match cs with
    | [] => []
    | c :: rest => if ok c then [⟨[c], [], rest⟩] else []
  | many ok, cs => waysOfMany ok cs
  | seq a b, cs => (a.ways cs).flatMap fun m => (b.ways m.rest).map m.append
  | optional e, cs => e.ways cs ++ [⟨[], [], cs⟩]
  | named name e, cs => (e.ways cs).map fun m => { m with parts := (name, m.text) :: m.parts }
  | stop, cs => if cs = [] then [⟨[], [], []⟩] else []

/-- The way that is taken at the beginning of a text. -/
def first? (e : Expression ν) (cs : List Char) : Option (TextMatch ν) := (e.ways cs).head?

/-- The way that is taken at the first place of a text that has one. -/
def search? (e : Expression ν) : List Char → Option (TextMatch ν)
  | [] => e.first? []
  | c :: cs => (e.first? (c :: cs)).or (e.search? cs)

/-- A certain character. -/
def char (c : Char) : Expression ν := one (· == c)

/-- At least one character of a class. -/
def several (ok : Char → Bool) : Expression ν := seq (one ok) (many ok)

/-! ### All ways -/

/-- A class takes the next character, if that is in it, and there is no other way. -/
theorem mem_ways_one :
    m ∈ (one ok).ways cs ↔ ∃ c rest, ok c ∧ cs = c :: rest ∧ m = ⟨[c], [], rest⟩ := by
  cases cs with
  | nil => simp [ways]
  | cons c cs =>
    rw [ways]
    constructor
    · intro hm
      by_cases hc : ok c
      · rw [if_pos hc, List.mem_singleton] at hm
        exact ⟨c, cs, hc, rfl, hm⟩
      · rw [if_neg hc] at hm
        cases hm
    · rintro ⟨d, rest, hd, heq, rfl⟩
      obtain ⟨rfl, rfl⟩ := List.cons.inj heq
      rw [if_pos hd, List.mem_singleton]

theorem mem_ways_char :
    m ∈ (char c).ways cs ↔ ∃ rest, cs = c :: rest ∧ m = ⟨[c], [], rest⟩ := by
  simp [char, mem_ways_one]

/-- A repetition may end after any number of characters, as long as all of them are in the class. -/
theorem mem_ways_many :
    m ∈ (many ok).ways cs ↔
      ∃ text rest, (∀ c ∈ text, ok c) ∧ cs = text ++ rest ∧ m = ⟨text, [], rest⟩ := by
  rw [ways]
  -- The longer ways come first: those that take `c`, then the one that takes nothing.
  induction cs generalizing m with
  | nil =>
    simp only [waysOfMany, List.mem_singleton]
    constructor
    · rintro rfl
      exact ⟨[], [], by simp, rfl, rfl⟩
    · rintro ⟨text, rest, _, heq, rfl⟩
      obtain ⟨rfl, rfl⟩ := List.append_eq_nil_iff.1 heq.symm
      rfl
  | cons c cs ih =>
    rw [waysOfMany, List.mem_append, List.mem_singleton]
    constructor
    · rintro (hm | rfl)
      · by_cases hc : ok c
        · rw [if_pos hc, List.mem_map] at hm
          obtain ⟨n, hn, rfl⟩ := hm
          obtain ⟨text, rest, htext, rfl, rfl⟩ := ih.1 hn
          exact ⟨c :: text, rest, List.forall_mem_cons.2 ⟨hc, htext⟩, rfl, rfl⟩
        · rw [if_neg hc] at hm
          cases hm
      · exact ⟨[], c :: cs, by simp, rfl, rfl⟩
    · rintro ⟨text, rest, htext, heq, rfl⟩
      cases text with
      | nil => exact .inr (by rw [heq]; rfl)
      | cons d text =>
        obtain ⟨rfl, rfl⟩ := List.cons.inj heq
        obtain ⟨hc, htext⟩ := List.forall_mem_cons.1 htext
        rw [if_pos hc]
        exact .inl (List.mem_map.2 ⟨_, ih.2 ⟨text, rest, htext, rfl, rfl⟩, rfl⟩)

/-- What comes second is matched in what the first one leaves, whatever way that was matched. -/
theorem mem_ways_seq :
    m ∈ (seq a b).ways cs ↔ ∃ m₁ ∈ a.ways cs, ∃ m₂ ∈ b.ways m₁.rest, m = m₁.append m₂ := by
  simp only [ways, List.mem_flatMap, List.mem_map, eq_comm]

/-- A repetition that may not be empty may end anywhere but at its beginning. -/
theorem mem_ways_several :
    m ∈ (several ok).ways cs ↔
      ∃ text rest, text ≠ [] ∧ (∀ c ∈ text, ok c) ∧ cs = text ++ rest ∧ m = ⟨text, [], rest⟩ := by
  rw [several, mem_ways_seq]
  constructor
  · rintro ⟨m₁, h₁, m₂, h₂, rfl⟩
    obtain ⟨c, rest₁, hc, rfl, rfl⟩ := mem_ways_one.1 h₁
    obtain ⟨text, rest, htext, hrest, rfl⟩ := mem_ways_many.1 h₂
    exact ⟨c :: text, rest, List.cons_ne_nil c text, List.forall_mem_cons.2 ⟨hc, htext⟩,
      congrArg (c :: ·) hrest, rfl⟩
  · rintro ⟨text, rest, hne, htext, rfl, rfl⟩
    obtain ⟨c, text, rfl⟩ := List.exists_cons_of_ne_nil hne
    obtain ⟨hc, htext⟩ := List.forall_mem_cons.1 htext
    exact ⟨_, mem_ways_one.2 ⟨c, _, hc, rfl, rfl⟩, _, mem_ways_many.2 ⟨text, rest, htext, rfl, rfl⟩,
      rfl⟩

theorem mem_ways_optional : m ∈ (optional e).ways cs ↔ m ∈ e.ways cs ∨ m = ⟨[], [], cs⟩ := by
  rw [ways, List.mem_append, List.mem_singleton]

/-- A name is put on whatever is matched. -/
theorem mem_ways_named :
    m ∈ (named name e).ways cs ↔
      ∃ n ∈ e.ways cs, m = { n with parts := (name, n.text) :: n.parts } := by
  simp only [ways, List.mem_map, eq_comm]

/-- The end is matched where nothing follows. -/
theorem mem_ways_stop : m ∈ (stop : Expression ν).ways cs ↔ cs = [] ∧ m = ⟨[], [], []⟩ := by
  rw [ways]
  split <;> simp_all

/-- With a single character first, what is left is for the second. -/
theorem mem_ways_char_seq :
    m ∈ (seq (char c) b).ways cs ↔
      ∃ rest, cs = c :: rest ∧ ∃ n ∈ b.ways rest, m = ⟨c :: n.text, n.parts, n.rest⟩ := by
  rw [mem_ways_seq]
  constructor
  · rintro ⟨m₁, h₁, n, hn, rfl⟩
    obtain ⟨rest, rfl, rfl⟩ := mem_ways_char.1 h₁
    exact ⟨rest, rfl, n, hn, rfl⟩
  · rintro ⟨rest, rfl, n, hn, rfl⟩
    exact ⟨_, mem_ways_char.2 ⟨rest, rfl, rfl⟩, n, hn, rfl⟩

/-- A repetition that may not be empty has one named part, itself. -/
theorem mem_ways_named_several :
    m ∈ (named name (several ok)).ways cs ↔
      ∃ text rest, (text ≠ [] ∧ ∀ c ∈ text, ok c) ∧ cs = text ++ rest ∧
        m = ⟨text, [(name, text)], rest⟩ := by
  rw [mem_ways_named]
  constructor
  · rintro ⟨n, hn, rfl⟩
    obtain ⟨text, rest, hne, htext, rfl, rfl⟩ := mem_ways_several.1 hn
    exact ⟨text, rest, ⟨hne, htext⟩, rfl, rfl⟩
  · rintro ⟨text, rest, ⟨hne, htext⟩, rfl, rfl⟩
    exact ⟨_, mem_ways_several.2 ⟨text, rest, hne, htext, rfl, rfl⟩, rfl⟩

/-- With such a part first, any beginning of the class may be that part, and what is left is for the
    second. -/
theorem mem_ways_named_several_seq :
    m ∈ (seq (named name (several ok)) b).ways cs ↔
      ∃ text rest, (text ≠ [] ∧ ∀ c ∈ text, ok c) ∧ cs = text ++ rest ∧
        ∃ n ∈ b.ways rest, m = ⟨text ++ n.text, (name, text) :: n.parts, n.rest⟩ := by
  rw [mem_ways_seq]
  constructor
  · rintro ⟨m₁, h₁, n, hn, rfl⟩
    obtain ⟨text, rest, htext, rfl, rfl⟩ := mem_ways_named_several.1 h₁
    exact ⟨text, rest, htext, rfl, n, hn, rfl⟩
  · rintro ⟨text, rest, htext, rfl, n, hn, rfl⟩
    exact ⟨_, mem_ways_named_several.2 ⟨text, rest, htext, rfl, rfl⟩, n, hn, rfl⟩

/-- What can be left out is there before the second, or the second is all. -/
theorem mem_ways_optional_seq :
    m ∈ (seq (optional e) b).ways cs ↔ m ∈ (seq e b).ways cs ∨ m ∈ b.ways cs := by
  rw [mem_ways_seq, mem_ways_seq]
  constructor
  · rintro ⟨m₁, h₁, n, hn, rfl⟩
    rcases mem_ways_optional.1 h₁ with h₁ | rfl
    · exact .inl ⟨m₁, h₁, n, hn, rfl⟩
    · exact .inr hn
  · rintro (⟨m₁, h₁, n, hn, rfl⟩ | hm)
    · exact ⟨m₁, mem_ways_optional.2 (.inl h₁), n, hn, rfl⟩
    · exact ⟨_, mem_ways_optional.2 (.inr rfl), m, hm, rfl⟩

/-! ### The first way -/

/-- The first way of a class is its only one. -/
theorem first?_one_cons :
    (one ok : Expression ν).first? (c :: cs) = if ok c then some ⟨[c], [], cs⟩ else none := by
  rw [first?, ways]
  split <;> rfl

/-- As many characters as possible are taken. -/
theorem first?_many :
    (many ok : Expression ν).first? cs = some ⟨cs.takeWhile ok, [], cs.dropWhile ok⟩ := by
  rw [first?, ways]
  induction cs with
  | nil => rfl
  | cons c cs ih =>
    by_cases hc : ok c
    · rw [waysOfMany, if_pos hc, List.head?_append, List.head?_map, ih,
        List.takeWhile_cons_of_pos hc, List.dropWhile_cons_of_pos hc]
      rfl
    · rw [waysOfMany, if_neg hc, List.takeWhile_cons_of_neg hc, List.dropWhile_cons_of_neg hc]
      rfl

/-- What can be left out is left out only if it cannot be matched, so there always is a first
    way. -/
theorem first?_optional :
    (optional e).first? cs = some ((e.first? cs).getD ⟨[], [], cs⟩) := by
  rw [first?, ways, List.head?_append, first?]
  cases (e.ways cs).head? <;> rfl

/-- A name has no part in which way is the first. -/
theorem first?_named :
    (named name e).first? cs =
      (e.first? cs).map fun m => { m with parts := (name, m.text) :: m.parts } := by
  rw [first?, ways, List.head?_map, first?]

/-- If the second expression has a way after the first one's first way, nothing has to be given
    back. -/
theorem first?_seq {m n : TextMatch ν} (hm : a.first? cs = some m) (hn : b.first? m.rest = some n) :
    (seq a b).first? cs = some (m.append n) := by
  rw [first?, List.head?_eq_some_iff] at hm hn
  obtain ⟨ms, hm⟩ := hm
  obtain ⟨ns, hn⟩ := hn
  rw [first?, ways, hm, List.flatMap_cons, hn]
  rfl

/-- Without a way for the first there is none for both. -/
theorem first?_seq_of_eq_none (hm : a.first? cs = none) : (seq a b).first? cs = none := by
  rw [first?, List.head?_eq_none_iff] at hm
  rw [first?, ways, hm]
  rfl

/-- A single character has one way at most, so nothing has to be given back for the second. -/
theorem first?_char_seq :
    (seq (char c) b).first? cs =
      match cs with
      | [] => none
      | d :: rest =>
        if d = c then (b.first? rest).map fun n => ⟨c :: n.text, n.parts, n.rest⟩ else none := by
  cases cs with
  | nil => rfl
  | cons d rest =>
    by_cases hd : d = c
    · simp only [first?, ways, char, hd, beq_self_eq_true, if_true, List.flatMap_singleton,
        List.head?_map]
      rfl
    · simp only [first?, ways, char, beq_iff_eq, hd, if_false]
      rfl

/-- A repetition takes all the characters that it can, and fails if there are none. -/
theorem first?_several :
    (several ok : Expression ν).first? cs =
      if cs.takeWhile ok = [] then none else some ⟨cs.takeWhile ok, [], cs.dropWhile ok⟩ := by
  cases cs with
  | nil => rfl
  | cons c cs =>
    by_cases hc : ok c
    · rw [several, first?_seq (by rw [first?_one_cons, if_pos hc]) first?_many,
        List.takeWhile_cons_of_pos hc, List.dropWhile_cons_of_pos hc,
        if_neg (List.cons_ne_nil _ _)]
      rfl
    · rw [several, first?_seq_of_eq_none (by rw [first?_one_cons, if_neg hc]),
        List.takeWhile_cons_of_neg hc, if_pos rfl]

end Expression

end SymbolPaths
