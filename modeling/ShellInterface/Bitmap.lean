import ShellInterface.Size

namespace ShellInterface

-- One bit per index below `size`, 64 of them to a word. The last word may have bits at or beyond
-- the size. They are never set, so the operations on whole words need not mask them.
structure Bitmap where
  size : Nat
  words : Array (BitVec 64)
  words_size : words.size = (size + 63) / 64
  size_lt : size + 64 < Size.limit
deriving DecidableEq, Repr

namespace Bitmap

def create (size : Nat) : Except Halt Bitmap :=
  match h : Size.units size 64 with
  | .ok count =>
    have size_lt := Size.lt_of_units_eq_ok h
    have count_eq := Size.units_eq_ok (by decide) h
    .ok { size, words := .replicate count 0, words_size := by simpa using count_eq, size_lt }
  | .error e => .error e

theorem div_lt_words {b : Bitmap} {i : Nat} (h : i < b.size) : i / 64 < b.words.size := by
  rw [b.words_size]; omega

def get (b : Bitmap) (i : Nat) : Bool :=
  if h : i < b.size then
    have hw := div_lt_words h
    b.words[i / 64].getLsbD (i % 64)
  else
    false

def set (b : Bitmap) (i : Nat) : Except Halt Bitmap :=
  if h : i < b.size then
    have hw := div_lt_words h
    .ok { b with
      words := b.words.set (i / 64) (b.words[i / 64] ||| .twoPow 64 (i % 64))
      words_size := by simp [b.words_size] }
  else
    .error (.bitOutOfRange i b.size)

def unset (b : Bitmap) (i : Nat) : Except Halt Bitmap :=
  if h : i < b.size then
    have hw := div_lt_words h
    .ok { b with
      words := b.words.set (i / 64) (b.words[i / 64] &&& ~~~(.twoPow 64 (i % 64)))
      words_size := by simp [b.words_size] }
  else
    .error (.bitOutOfRange i b.size)

def isEmpty (b : Bitmap) : Bool :=
  b.words.all (· == 0)

def count (b : Bitmap) : Nat :=
  b.words.foldl (fun n w => n + w.cpop.toNat) 0

def toList (b : Bitmap) : List Nat :=
  (List.range b.size).filter b.get

def wordAt (b : Bitmap) (k : Nat) : Except Halt (BitVec 64) :=
  if h : k < b.words.size then .ok b.words[k] else .error (.indexOutOfRange k b.words.size)

def nextWord (index : Nat) : Except Halt Nat := do
  Size.mul (← Size.add (index / 64) 1) 64

theorem nextWord_eq_ok {index next : Nat} (h : nextWord index = .ok next) :
    next = (index / 64 + 1) * 64 := by
  have ⟨k, hk, hn⟩ := exists_of_bind_eq_ok h
  rw [Size.mul_eq_ok hn, Size.add_eq_ok hk]

theorem lt_of_nextWord {index next : Nat} (h : nextWord index = .ok next) : index < next := by
  rw [nextWord_eq_ok h]; omega

-- The lowest set bit in `[index, stop)`, found word by word. The word of `stop` may have a set
-- bit beyond it, which does not count.
def firstIn (b : Bitmap) (index stop : Nat) : Except Halt (Option Nat) := do
  if index < stop then
    let word := (← b.wordAt (index / 64)) >>> (index % 64)
    if word = 0 then
      match h : nextWord index with
      | .ok next =>
        have := lt_of_nextWord h
        b.firstIn next stop
      | .error e => throw e
    else
      let found ← Size.add index word.ctz.toNat
      return if found < stop then some found else none
  else
    return none
termination_by stop - index

def nextFrom (b : Bitmap) (start : Nat) : Except Halt (Option Nat) := do
  if b.size = 0 then
    return none
  else
    let start := start % b.size
    match ← b.firstIn start b.size with
    | some i => return some i
    | none   => b.firstIn 0 start

theorem get_of_size_le {b : Bitmap} {i : Nat} (h : b.size ≤ i) : b.get i = false :=
  dif_neg (Nat.not_lt.mpr h)

theorem set_size {b b' : Bitmap} {i : Nat} (h : b.set i = .ok b') : b'.size = b.size := by
  unfold set at h
  split at h <;> cases h
  rfl

theorem unset_size {b b' : Bitmap} {i : Nat} (h : b.unset i = .ok b') : b'.size = b.size := by
  unfold unset at h
  split at h <;> cases h
  rfl

theorem set_eq_error_iff {b : Bitmap} {i : Nat} {e : Halt} :
    b.set i = .error e ↔ b.size ≤ i ∧ e = .bitOutOfRange i b.size := by
  unfold set
  split <;> simp [eq_comm] <;> omega

theorem unset_eq_error_iff {b : Bitmap} {i : Nat} {e : Halt} :
    b.unset i = .error e ↔ b.size ≤ i ∧ e = .bitOutOfRange i b.size := by
  unfold unset
  split <;> simp [eq_comm] <;> omega

end Bitmap

end ShellInterface
