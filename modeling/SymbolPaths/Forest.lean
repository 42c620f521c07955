/-!
# Ordered forests

Trees side by side, each a node over a forest. A forest is empty, or starts
with a node, what is below it, and the trees after it. Nodes are numbered in
preorder: a node before what is below it, and that before the trees after it.

* `length_preorder`: the preorder has one entry for each node;
* `lt_of_mem_enclosing`: what encloses a node comes before it.
-/

namespace SymbolPaths

/-- Trees side by side, with a value of `α` at every node. -/
inductive Forest (α : Type) where
  | nil
  | cons (value : α) (below after : Forest α)
  deriving DecidableEq, Repr, Inhabited

namespace Forest

variable {α β : Type}

/-- The number of nodes. -/
def size : Forest α → Nat
  | nil => 0
  | cons _ below after => 1 + below.size + after.size

/-- The values of the nodes in preorder. -/
def preorder : Forest α → List α
  | nil => []
  | cons a below after => a :: (below.preorder ++ after.preorder)

/-- The values of the outermost nodes, from left to right. -/
def roots : Forest α → List α
  | nil => []
  | cons a _ after => a :: after.roots

/-- The trees of `f` followed by those of `g`. -/
def append (f g : Forest α) : Forest α :=
  match f with
  | nil => g
  | cons a below after => cons a below (after.append g)

/-- The forest of one tree. -/
def tree (a : α) (children : List (Forest α)) : Forest α :=
  cons a (children.foldr append nil) nil

/-- The numbers of the nodes strictly above node `n`, outermost first, where the
    first node of the forest has number `start`. -/
def enclosing (start n : Nat) : Forest α → List Nat
  | nil => []
  | cons _ below after =>
    if n ≤ start then []
    else if n < start + 1 + below.size then start :: below.enclosing (start + 1) n
    else after.enclosing (start + 1 + below.size) n

/-! ### Forests from rows

A forest can be written as the list of its values in preorder, each with its
depth. Reading the rows from the last to the first, the forests that still lack
a node above them are kept, deepest first. -/

/-- Puts a node of depth `depth` before the pending forests: the deeper ones lie
    below it, and the one of its own depth comes after it. -/
def attach (depth : Nat) (a : α) (pending : List (Nat × Forest α)) : List (Nat × Forest α) :=
  let deeper := pending.takeWhile (depth < ·.1)
  let below := (deeper.getLast?.map (·.2)).getD nil
  match pending.dropWhile (depth < ·.1) with
  | [] => [(depth, cons a below nil)]
  | (d, f) :: rest => if d = depth then (depth, cons a below f) :: rest
    else (depth, cons a below nil) :: (d, f) :: rest

/-- The forest of a list of depths and values in preorder. -/
def ofRows (rows : List (Nat × α)) : Forest α :=
  match (rows.foldr (fun r pending => attach r.1 r.2 pending) []).getLast? with
  | none => nil
  | some (_, f) => f

@[simp] theorem length_preorder (f : Forest α) : f.preorder.length = f.size := by
  induction f with
  | nil => rfl
  | cons _ below after ihb iha => simp [preorder, size, ihb, iha]; omega

theorem lt_of_mem_enclosing {f : Forest α} {start n m : Nat}
    (h : m ∈ f.enclosing start n) : start ≤ m ∧ m < n := by
  induction f generalizing start with
  | nil => simp [enclosing] at h
  | cons _ below after ihb iha =>
    rw [enclosing] at h
    split at h
    · simp at h
    · split at h
      · rcases List.mem_cons.1 h with rfl | h
        · omega
        · have := ihb h; omega
      · have := iha h; omega

end Forest

end SymbolPaths
