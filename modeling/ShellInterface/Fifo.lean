import ShellInterface.Layout

namespace ShellInterface

-- A stream that holds at most `depth` items, oldest first. A stream without any room could never
-- be written, so a positive depth is part of the type, and so is the bound on its length: no
-- operation can break either.
structure Fifo (α : Type) where
  name : String
  depth : Nat
  items : List α
  depth_pos : 0 < depth
  length_le : items.length ≤ depth
deriving DecidableEq, Repr

namespace Fifo

variable {α : Type}

def create [Storable α] (name : String) (depth : Nat) : Except Halt (Fifo α) := do
  if h : 0 < depth then
    (layout α).reserve depth
    return { name, depth, items := [], depth_pos := h, length_le := Nat.zero_le _ }
  else
    throw (.zeroDepth name)

def length (s : Fifo α) : Nat :=
  s.items.length

def isEmpty (s : Fifo α) : Bool :=
  s.items.isEmpty

def isFull (s : Fifo α) : Bool :=
  decide (s.depth ≤ s.items.length)

def vacancy (s : Fifo α) : Nat :=
  s.depth - s.items.length

def peek? (s : Fifo α) : Option α :=
  s.items.head?

def tail (s : Fifo α) : Fifo α :=
  { s with
    items := s.items.tail
    length_le := Nat.le_trans (by simp) s.length_le }

def clear (s : Fifo α) : Fifo α :=
  { s with items := [], length_le := Nat.zero_le _ }

def read (s : Fifo α) : Except StreamError (α × Fifo α) :=
  match s.items.head? with
  | some a => .ok (a, s.tail)
  | none   => .error (.empty s.name)

def write (s : Fifo α) (a : α) : Except StreamError (Fifo α) :=
  if h : s.items.length < s.depth then
    .ok { s with items := s.items ++ [a], length_le := by rw [List.length_append]; exact h }
  else
    .error (.full s.name)

def fill (s : Fifo α) (as : List α) : Fifo α :=
  { s with
    items := s.items ++ as.take s.vacancy
    length_le := by
      have := s.length_le
      simp [vacancy]; omega }

theorem create_ok [Storable α] {name : String} {depth : Nat} {s : Fifo α}
    (h : create name depth = .ok s) : s.items = [] ∧ s.depth = depth := by
  unfold create at h
  split at h
  case isFalse => cases h
  case isTrue =>
    cases hr : (layout α).reserve depth <;> rw [hr] at h <;> cases h
    exact ⟨rfl, rfl⟩

theorem isFull_iff {s : Fifo α} : s.isFull = true ↔ s.items.length = s.depth := by
  have := s.length_le
  simp [isFull]; omega

theorem isFull_eq_false_iff {s : Fifo α} : s.isFull = false ↔ s.items.length < s.depth := by
  simp [isFull]

theorem isEmpty_iff {s : Fifo α} : s.isEmpty = true ↔ s.items = [] := by
  simp [isEmpty]

@[simp]
theorem tail_items (s : Fifo α) : s.tail.items = s.items.tail := rfl

@[simp]
theorem tail_depth (s : Fifo α) : s.tail.depth = s.depth := rfl

@[simp]
theorem tail_name (s : Fifo α) : s.tail.name = s.name := rfl

theorem read_of_items {s : Fifo α} {a : α} {as : List α} (h : s.items = a :: as) :
    s.read = .ok (a, s.tail) := by
  simp [read, h]

theorem read_of_empty {s : Fifo α} (h : s.items = []) : s.read = .error (.empty s.name) := by
  simp [read, h]

theorem read_eq_ok {s s' : Fifo α} {a : α} (h : s.read = .ok (a, s')) :
    ∃ as, s.items = a :: as ∧ s' = s.tail := by
  unfold read at h
  cases hi : s.items <;> simp [hi] at h
  case cons => simp [h]

theorem write_of_isFull {s : Fifo α} {a : α} (h : s.isFull = true) :
    s.write a = .error (.full s.name) := by
  simp [write, isFull_iff.mp h]

theorem write_ok {s s' : Fifo α} {a : α} (h : s.write a = .ok s') :
    s'.items = s.items ++ [a] ∧ s'.depth = s.depth ∧ s'.name = s.name := by
  unfold write at h
  split at h
  · cases h; exact ⟨rfl, rfl, rfl⟩
  · cases h

theorem write_of_not_isFull {s : Fifo α} {a : α} (h : s.isFull = false) :
    ∃ s', s.write a = .ok s' := by
  rw [isFull_eq_false_iff] at h
  exact ⟨_, dif_pos h⟩

end Fifo

end ShellInterface
