import ShellInterface.Size
import ShellInterface.Fifo

namespace ShellInterface

structure SaturatingCounter where
  value : Nat
  max : Nat
  value_le : value ≤ max
deriving DecidableEq, Repr

namespace SaturatingCounter

def create (value max : Nat) : SaturatingCounter :=
  ⟨min value max, max, Nat.min_le_right ..⟩

def incr? (c : SaturatingCounter) : Option SaturatingCounter :=
  if h : c.value < c.max then some ⟨c.value + 1, c.max, h⟩ else none

def decr? (c : SaturatingCounter) : Option SaturatingCounter :=
  if c.value = 0 then
    none
  else
    some ⟨c.value - 1, c.max, Nat.le_trans (Nat.sub_le ..) c.value_le⟩

end SaturatingCounter

-- What the signals of a buffer can say that its occupancy excludes.
inductive OccupancyError
  | overflow
  | underflow (capacity : Nat)
deriving DecidableEq, Repr

-- A tag, and the capacity beside it.
instance : Storable OccupancyError :=
  ⟨.record [.number 8, .number 8]⟩

namespace OccupancyError

def kind : OccupancyError → String
  | overflow    => "Overflow"
  | underflow _ => "Underflow"

def message : OccupancyError → String
  | overflow    => "enqueue while the buffer has no free slot"
  | underflow n => s!"dequeue while the buffer holds no chunk (free = {n})"

end OccupancyError

-- The free slots of a buffer and the slots reserved among them. One slot fewer than the capacity
-- is counted as free at the start.
structure Occupancy where
  slots : SaturatingCounter
  reserved : Nat
deriving DecidableEq, Repr

namespace Occupancy

def create (capacity : Nat) : Except Halt Occupancy :=
  if capacity = 0 then
    .error .zeroCapacity
  else
    .ok ⟨.create (capacity - 1) capacity, 0⟩

def capacity (t : Occupancy) : Nat :=
  t.slots.max

def free (t : Occupancy) : Nat :=
  t.slots.value

def available (t : Occupancy) : Nat :=
  t.free - t.reserved

def reserve (t : Occupancy) (n : Nat) : Except Halt Occupancy := do
  return { t with reserved := ← Size.add t.reserved n }

-- The occupancy after at most one chunk entered and at most one left the buffer. A chunk that
-- enters uses up one reservation. Two events in one cycle cancel out.
def update (t : Occupancy) (entered left : Bool) : Occupancy × Option OccupancyError :=
  -- Data that nobody asked for enters without a reservation, hence the truncated subtraction.
  let t := if entered then { t with reserved := t.reserved - 1 } else t
  match entered, left with
  | true, false =>
    match t.slots.decr? with
    | some slots => ({ t with slots }, none)
    | none       => (t, some .overflow)
  | false, true =>
    match t.slots.incr? with
    | some slots => ({ t with slots }, none)
    | none       => (t, some (.underflow t.capacity))
  | _, _ => (t, none)

def tick (t : Occupancy) (enqueued dequeued : Fifo Unit) :
    (Occupancy × Option OccupancyError) × Fifo Unit × Fifo Unit :=
  (t.update (!enqueued.isEmpty) (!dequeued.isEmpty), enqueued.tail, dequeued.tail)

theorem free_le_capacity (t : Occupancy) : t.free ≤ t.capacity :=
  t.slots.value_le

theorem available_le_free (t : Occupancy) : t.available ≤ t.free :=
  Nat.sub_le ..

end Occupancy

end ShellInterface
