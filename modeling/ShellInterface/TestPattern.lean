import ShellInterface.Size
import ShellInterface.Chunk

namespace ShellInterface

-- What is left of a test payload, and whether the second word comes next.
structure TestPattern where
  remaining : Nat
  second : Bool
deriving DecidableEq, Repr

namespace TestPattern

def firstWord : UInt64 := 0x48692066726f6d20

def secondWord : UInt64 := 0x464d4b553630210a

def create (length : Nat) : TestPattern :=
  ⟨length, false⟩

-- The next chunk, and what is left after it. The chunk that takes the last bytes is marked.
def next? (p : TestPattern) : Option (Chunk × TestPattern) :=
  if p.remaining = 0 then
    none
  else
    let n := min p.remaining Chunk.width
    let word := if p.second then secondWord else firstWord
    let rest := p.remaining - n
    some (.ofWord word (Chunk.keepMask n) (rest == 0), ⟨rest, !p.second⟩)

def chunkCount (p : TestPattern) : Except Halt Nat :=
  Size.units p.remaining Chunk.width

theorem remaining_lt {p q : TestPattern} {c : Chunk} (h : p.next? = some (c, q)) :
    q.remaining < p.remaining := by
  unfold next? at h
  split at h
  · cases h
  · simp only [Option.some.injEq, Prod.mk.injEq] at h
    obtain ⟨-, rfl⟩ := h
    simp [Chunk.width]; omega

def toList (p : TestPattern) : List Chunk :=
  match h : p.next? with
  | none        => []
  | some (c, q) =>
    have := remaining_lt h
    c :: q.toList
termination_by p.remaining

end TestPattern

end ShellInterface
