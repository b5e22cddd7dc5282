import ShellInterface.Occupancy

namespace ShellInterface

def slots (bytes : Nat) : Nat :=
  (bytes + 7) / 8

theorem Occupancy.create_ok {t : Occupancy} {capacity : Nat} (h : create capacity = .ok t) :
    0 < capacity ∧ t = ⟨.create (capacity - 1) capacity, 0⟩ := by
  unfold create at h
  split at h <;> cases h
  exact ⟨Nat.pos_of_ne_zero ‹_›, rfl⟩

theorem Occupancy.reserve_ok {t t' : Occupancy} {n : Nat} (h : t.reserve n = .ok t') :
    t' = { t with reserved := t.reserved + n } := by
  unfold reserve at h
  cases ha : Size.add t.reserved n <;> rw [ha] at h <;> cases h
  rw [Size.add_eq_ok ha]

theorem SaturatingCounter.decr?_eq_some {c c' : SaturatingCounter} (h : c.decr? = some c') :
    c'.max = c.max ∧ c'.value + 1 = c.value := by
  unfold decr? at h
  split at h <;> cases h
  exact ⟨rfl, by simp; omega⟩

theorem SaturatingCounter.decr?_eq_none {c : SaturatingCounter} (h : c.decr? = none) :
    c.value = 0 := by
  unfold decr? at h
  split at h <;> cases h
  assumption

theorem SaturatingCounter.incr?_eq_some {c c' : SaturatingCounter} (h : c.incr? = some c') :
    c'.max = c.max ∧ c'.value = c.value + 1 := by
  unfold incr? at h
  split at h <;> cases h
  exact ⟨rfl, rfl⟩

theorem SaturatingCounter.incr?_eq_none {c : SaturatingCounter} (h : c.incr? = none) :
    c.value = c.max := by
  have := c.value_le
  unfold incr? at h
  split at h <;> cases h
  omega

namespace Occupancy

variable {t t' : Occupancy} {error : Option OccupancyError} {enqueued enqueued' : Fifo Unit}
  {dequeued dequeued' : Fifo Unit}

inductive Step (t : Occupancy) : Bool → Bool → Occupancy → Option OccupancyError → Prop
  | rest : Step t false false t none
  | pass : Step t true true { t with reserved := t.reserved - 1 } none
  | enter {slots} (room : t.slots.decr? = some slots) :
      Step t true false { slots, reserved := t.reserved - 1 } none
  | overflow (full : t.slots.decr? = none) :
      Step t true false { t with reserved := t.reserved - 1 } (some .overflow)
  | leave {slots} (held : t.slots.incr? = some slots) : Step t false true { t with slots } none
  | underflow (empty : t.slots.incr? = none) :
      Step t false true t (some (.underflow t.capacity))

theorem step_of_update {entered left : Bool} (h : t.update entered left = (t', error)) :
    Step t entered left t' error := by
  cases entered <;> cases left <;> simp only [update, if_true, if_false, Bool.false_eq_true] at h
  case false.false => cases h; exact .rest
  case true.true   => cases h; exact .pass
  case true.false  =>
    cases hs : t.slots.decr? <;> simp only [hs] at h <;> cases h
    case none => exact .overflow hs
    case some => exact .enter hs
  case false.true =>
    cases hs : t.slots.incr? <;> simp only [hs] at h <;> cases h
    case none => exact .underflow hs
    case some => exact .leave hs

theorem Step.reserved_eq {entered left : Bool} (h : Step t entered left t' error) :
    t'.reserved = t.reserved - entered.toNat := by
  cases h <;> rfl

theorem tick_signals (h : t.tick enqueued dequeued = ((t', error), enqueued', dequeued')) :
    enqueued'.items.length ≤ enqueued.items.length ∧
      dequeued'.items.length ≤ dequeued.items.length := by
  simp only [tick, Prod.mk.injEq] at h
  obtain ⟨-, rfl, rfl⟩ := h
  simp

theorem tick_reserved (h : t.tick enqueued dequeued = ((t', error), enqueued', dequeued')) :
    t'.reserved = t.reserved - (enqueued.items.length - enqueued'.items.length) := by
  simp only [tick, Prod.mk.injEq] at h
  obtain ⟨hu, rfl, -⟩ := h
  rw [(step_of_update hu).reserved_eq]
  rcases hq : enqueued.items with _ | ⟨⟨⟩, es⟩ <;> simp [Fifo.isEmpty, hq]

-- The tracker keeps the balance of its signals and the free slots, but for an overflow, which no
-- slot is left for, and an underflow, which leaves more slots free than there are.
theorem tick_cases (h : t.tick enqueued dequeued = ((t', error), enqueued', dequeued')) :
    t'.capacity = t.capacity ∧
    (error = none ∧ t'.free + enqueued.items.length + dequeued'.items.length =
        t.free + enqueued'.items.length + dequeued.items.length ∨
      error = some .overflow ∧ t.free = 0 ∧ t'.free = 0 ∧
        enqueued.items.length = enqueued'.items.length + 1 ∧ dequeued.items.length = 0 ∨
      error = some (.underflow t.capacity) ∧ t.free = t.capacity ∧
        enqueued.items.length = 0 ∧ 0 < dequeued.items.length) := by
  simp only [tick, Prod.mk.injEq] at h
  obtain ⟨hu, rfl, rfl⟩ := h
  have step := step_of_update hu
  rcases hq : enqueued.items with _ | ⟨⟨⟩, es⟩ <;>
    rcases hp : dequeued.items with _ | ⟨⟨⟩, ds⟩ <;>
    simp only [Fifo.isEmpty, hq, hp, List.isEmpty_nil, List.isEmpty_cons, Bool.not_true,
      Bool.not_false] at step
  case nil.nil   =>
    cases step
    simp [hq, hp]
  case cons.cons =>
    cases step
    simp [hq, hp, capacity, free]
    omega
  case cons.nil  =>
    cases step
    case enter hs    =>
      obtain ⟨hm, hv⟩ := SaturatingCounter.decr?_eq_some hs
      simp [hq, hp, capacity, free, hm]
      omega
    case overflow hs =>
      simp [hq, hp, capacity, free, SaturatingCounter.decr?_eq_none hs]
  case nil.cons  =>
    cases step
    case leave hs     =>
      obtain ⟨hm, hv⟩ := SaturatingCounter.incr?_eq_some hs
      simp [hq, hp, capacity, free, hm]
      omega
    case underflow hs =>
      simp [hq, hp, capacity, free, SaturatingCounter.incr?_eq_none hs]

end Occupancy

end ShellInterface
