import ShellInterface.BigEndian
import ShellInterface.Layout

namespace ShellInterface

-- One transfer: eight bytes in transmission order, which of them are valid, and the end mark.
@[ext]
structure Chunk where
  data : List UInt8
  keep : BitVec 8
  last : Bool
  data_length : data.length = 8
deriving DecidableEq, Repr

instance : Storable Chunk :=
  ⟨.record [⟨8, 1⟩, .number 1, .number 1]⟩

namespace Chunk

def width : Nat := 8

def keepMask (n : Nat) : BitVec 8 :=
  (BitVec.allOnes (min n width)).setWidth 8

-- The chunk of up to eight bytes, filled up with zeros. Further bytes are ignored.
def ofBytes (bytes : List UInt8) (last : Bool) : Chunk where
  data := (bytes.take width).rightpad width 0
  keep := keepMask (bytes.take width).length
  last := last
  data_length := by simp only [List.length_rightpad, List.length_take, width]; omega

def length (c : Chunk) : Nat :=
  c.keep.cpop.toNat

def isEmpty (c : Chunk) : Bool :=
  c.keep == 0

def bytes (c : Chunk) : List UInt8 :=
  c.data.take c.length

def isContiguous (c : Chunk) : Bool :=
  c.keep == keepMask c.length

def clearUnused (c : Chunk) : Chunk where
  data := c.data.mapIdx fun i b => if c.keep.getLsbD i then b else 0
  keep := c.keep
  last := c.last
  data_length := by simp [c.data_length]

def ofWord (word : UInt64) (keep : BitVec 8) (last : Bool) : Chunk :=
  clearUnused {
    data := BigEndian.encode width word.toNat
    keep := keep
    last := last
    data_length := BigEndian.length_encode .. }

theorem length_le (c : Chunk) : c.length ≤ width := by
  have := BitVec.toNat_cpop_le c.keep
  exact this

theorem cpop_keepMask : ∀ n ≤ width, (keepMask n).cpop.toNat = n := by
  decide

theorem eq_keepMask_of_cpop :
    ∀ keep : BitVec 8, keep.cpop.toNat = width → keep = keepMask width := by
  decide +kernel

theorem of_length_eq_width {c : Chunk} (h : c.length = width) :
    c.isContiguous = true ∧ c.bytes = c.data := by
  refine ⟨?_, ?_⟩
  · rw [isContiguous, h, beq_iff_eq]
    exact eq_keepMask_of_cpop c.keep h
  · rw [bytes, h]
    exact List.take_of_length_le (Nat.le_of_eq c.data_length)

theorem length_bytes (c : Chunk) : c.bytes.length = c.length := by
  have := c.length_le
  simp only [bytes, List.length_take, c.data_length, width] at *
  omega

theorem length_ofBytes (bytes : List UInt8) (last : Bool) :
    (ofBytes bytes last).length = min width bytes.length := by
  have hle : (bytes.take width).length ≤ width := List.length_take_le ..
  simpa [length, ofBytes] using cpop_keepMask _ hle

theorem last_ofBytes (bytes : List UInt8) (last : Bool) : (ofBytes bytes last).last = last := rfl

end Chunk

end ShellInterface
