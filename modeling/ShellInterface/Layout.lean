import ShellInterface.Halt

namespace ShellInterface

-- The bytes that an item takes, and the number that divides its address.
structure Layout where
  size : Nat
  align : Nat
deriving DecidableEq, Repr

namespace Layout

def number (bytes : Nat) : Layout :=
  ⟨bytes, bytes⟩

-- A record of fields. The fields lie in the order of falling alignment, whatever their order here,
-- so there is no gap between them and only the end is filled up.
def record (fields : List Layout) : Layout :=
  let align := fields.foldl (fun a f => max a f.align) 1
  let size := fields.foldl (fun n f => n + f.size) 0
  ⟨(size + align - 1) / align * align, align⟩

def textReference : Layout :=
  record [number 8, number 8]

-- What a single buffer may take: half of the address space.
def limit : Nat := UInt64.size / 2

-- Reserves the room for `count` items, with the gap that the alignment of the first one may need.
-- Items that take no room may be as many as one likes.
def reserve (l : Layout) (count : Nat) : Except Halt Unit :=
  if count * l.size + l.align ≤ limit then .ok () else .error .capacityOverflow

end Layout

class Storable (α : Type) where
  layout : Layout

export Storable (layout)

open Layout

instance : Storable Unit := ⟨record []⟩
instance : Storable Bool := ⟨number 1⟩
instance : Storable UInt8 := ⟨number 1⟩
instance : Storable UInt16 := ⟨number 2⟩
instance : Storable UInt32 := ⟨number 4⟩

-- A text takes the room of its address, its length and the room that it has.
instance : Storable String := ⟨record [number 8, number 8, number 8]⟩

end ShellInterface
