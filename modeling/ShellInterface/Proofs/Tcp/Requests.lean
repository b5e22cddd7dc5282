import ShellInterface.Proofs.Tcp.Exclusion

namespace ShellInterface.Tcp

namespace Scheduler

def fitting (bytes available : Nat) : Nat :=
  min (min bytes maxLength) (available * Chunk.width)

theorem slots_fitting_le (bytes available : Nat) : slots (fitting bytes available) ≤ available := by
  simp only [slots, fitting, Chunk.width]
  omega

theorem fitting_pos_iff {bytes available : Nat} (h : 0 < bytes) :
    0 < fitting bytes available ↔ 0 < available := by
  have hmax : 0 < maxLength := by decide
  simp only [fitting, Chunk.width]
  omega

theorem requestLength_le_fitting (bytes available : Nat) :
    (requestLength bytes (available * Chunk.width)).toNat ≤ fitting bytes available := by
  have := Nat.mod_le (available * Chunk.width) UInt32.size
  rw [requestLength_toNat, fitting]
  omega

-- Space that needs more than 32 bits does no harm if what is left of it is still enough.
theorem requestLength_eq_fitting_iff (bytes available : Nat) :
    (requestLength bytes (available * Chunk.width)).toNat = fitting bytes available ↔
      available * Chunk.width < UInt32.size ∨
        min bytes maxLength ≤ available * Chunk.width % UInt32.size := by
  rw [requestLength_toNat, fitting]
  generalize available * Chunk.width = space
  simp only [maxLength, UInt16.size, UInt32.size]
  omega

theorem requestLength_eq_zero_iff {bytes available : Nat} (h : 0 < bytes) :
    (requestLength bytes (available * Chunk.width)).toNat = 0 ↔
      available * Chunk.width % UInt32.size = 0 := by
  have hmax : 0 < maxLength := by decide
  rw [requestLength_toNat]
  omega

inductive Phase.Requests (session : SessionId) (n : Nat) : Phase → Prop
  | nothing (zero : n = 0) : Phase.Requests session n .idle
  | bytes (cmd : ForwardCommand) (pos : 0 < n) (session_eq : cmd.session = session)
      (length_eq : cmd.length.toNat = n) : Phase.Requests session n (.emit cmd.request cmd)

theorem Phase.Requests.eq_idle_iff {session : SessionId} {n : Nat} {phase : Phase}
    (h : phase.Requests session n) : phase = .idle ↔ n = 0 := by
  cases h
  case nothing zero => simp [zero]
  case bytes _ pos _ _ => simp [Nat.pos_iff_ne_zero.mp pos]

structure Takes (t : SessionTable) (o : Occupancy) (session : SessionId) (n : Nat)
    (s' : Scheduler) (t' : SessionTable) (o' : Occupancy) : Prop where
  bytes     : t'.bytes session + n = t.bytes session
  others    : ∀ s, s ≠ session → t'.entry? s = t.entry? s
  occupancy : o' = { o with reserved := o.reserved + slots n }
  requests  : s'.phase.Requests session n

variable {s s' : Scheduler} {t t' : SessionTable} {o o' : Occupancy} {l l' : Links}
  {ns : List Note} {session : SessionId}

theorem Step.takes (h : Step true t o l s ns s' t' o' l') (hq : s.phase = .query session) :
    Takes t o session (requestLength (t.bytes session) (o.available * Chunk.width)).toNat s' t'
      o' := by
  cases h
  case refuse refused => cases refused
  case release hp _ nothing =>
    have hz : requestLength (t.bytes session) (o.available * Chunk.width) = 0 := by
      cases hp.symm.trans hq
      -- A session without an entry has no bytes either.
      cases he : t.entry? session
      case none   => simp [SessionTable.bytes, he, ← UInt16.toNat_inj, requestLength_toNat]
      case some e => exact SessionTable.bytes_of_entry? he ▸ nothing e he
    rw [hz]
    exact ⟨rfl, fun _ _ => rfl, rfl, .nothing rfl⟩
  case take hp _ found length_eq length_ne consumed _ reserved =>
    cases hp.symm.trans hq
    obtain ⟨_, _, _, _, entries⟩ := SessionTable.consume_ok consumed
    have hb := SessionTable.bytes_of_entry? found
    have hle := length_eq ▸ requestLength_le ..
    have bytes := SessionTable.consume_bytes (s := session) consumed
    rw [if_pos rfl, hb] at bytes
    rw [hb, length_eq]
    refine ⟨by omega, fun s hs => by rw [entries, if_neg hs], reserved,
      .bytes ⟨_, _, _⟩ ?_ rfl rfl⟩
    exact UInt16.pos_iff_ne_zero.mpr length_ne
  all_goals simp_all

theorem space_lt_of_take (hb : 0 < t.bytes session)
    (h : s.take session t o = ⟨ns, .ok (s', t', o')⟩) :
    o.available * Chunk.width < Size.limit := by
  unfold take at h
  cases he : t.entry? session <;> simp only [he] at h
  case none => simp [SessionTable.bytes, he] at hb
  case some =>
    obtain ⟨_, hm, _⟩ := Traced.liftM_bind_eq_ok.mp h
    exact Size.lt_of_mul_eq_ok hm

theorem space_lt_of_tick (hb : 0 < t.bytes session) (hq : s.phase = .query session)
    (h : s.tick true t o l = ⟨ns, .ok (s', t', o', l')⟩) :
    o.available * Chunk.width < Size.limit := by
  simp only [tick, hq] at h
  obtain ⟨_, ⟨_, _, _⟩, _, ht, _, _⟩ := Traced.bind_eq_ok.mp h
  exact space_lt_of_take hb ht

end Scheduler

theorem Poster.Step.table_eq {p p' : Poster} {t t' : SessionTable} {s s' : Fifo Notification}
    {ns : List Note} (h : Step false t s p ns p' t' s') : t' = t := by
  obtain ⟨_, table⟩ | ⟨_, _, access, _⟩ := h.posted_cases
  case inl => exact table
  case inr => cases access

namespace Interrupts

open Scheduler

variable {x x' : Interrupts} {l l' : Links} {ns : List Note} {session : SessionId}

-- The scheduler takes as many bytes as fit, but for the truncation of the space.
theorem takes_of_tick (hq : x.scheduler.phase = .query session) (hg : x.granted = .low)
    (h : x.tick l = ⟨ns, .ok (x', l')⟩) :
    Takes x.table l.occupancy session
      (requestLength (x.table.bytes session) (l.occupancy.available * Chunk.width)).toNat
      x'.scheduler x'.table l'.occupancy := by
  have ⟨_, _, t, step⟩ := step_of_tick h
  have hp := step.poster
  have hs := step.scheduler
  rw [hg] at hp hs
  obtain rfl : t = x.table := hp.table_eq
  exact hs.takes hq

theorem space_lt_of_tick (hb : 0 < x.table.bytes session)
    (hq : x.scheduler.phase = .query session) (hg : x.granted = .low)
    (h : x.tick l = ⟨ns, .ok (x', l')⟩) :
    l.occupancy.available * Chunk.width < Size.limit := by
  unfold tick at h
  obtain ⟨_, ⟨_, t, _⟩, _, hp, hk, _⟩ := Traced.bind_eq_ok.mp h
  obtain ⟨_, ⟨_, _, _, _⟩, _, hs, _, _⟩ := Traced.bind_eq_ok.mp hk
  replace hg : x.grant.next x.poster.wantsTable x.scheduler.wantsTable = .low := hg
  rw [hg] at hp hs
  obtain rfl : t = x.table := (Poster.step_of_tick hp).table_eq
  exact Scheduler.space_lt_of_tick hb hq hs

section Query

variable (hx : x.Sound) (hb : 0 < x.table.bytes session) (hq : x.scheduler.phase = .query session)
  (hg : x.granted = .low) (capacity : l.occupancy.capacity < Size.limit)
include hx hb hq hg capacity

-- Counting the bytes of the available slots is all that can stop such a cycle.
theorem exists_tick_iff : (∃ ns x' l', x.tick l = ⟨ns, .ok (x', l')⟩) ↔
    l.occupancy.available * Chunk.width < Size.limit := by
  refine ⟨fun ⟨_, _, _, h⟩ => space_lt_of_tick hb hq hg h, fun space => ?_⟩
  have roomy : Roomy l.occupancy :=
    ⟨Nat.lt_of_le_of_lt l.occupancy.free_le_capacity capacity, space⟩
  have ⟨ns, (x', l'), h⟩ := (succeeds_tick hx roomy).exists_eq
  exact ⟨ns, x', l', h⟩

theorem exists_takes_iff (n : Nat) :
    (∃ ns x' l', x.tick l = ⟨ns, .ok (x', l')⟩ ∧
      Takes x.table l.occupancy session n x'.scheduler x'.table l'.occupancy) ↔
    l.occupancy.available * Chunk.width < Size.limit ∧
      (requestLength (x.table.bytes session)
        (l.occupancy.available * Chunk.width)).toNat = n := by
  rw [← exists_tick_iff hx hb hq hg capacity]
  constructor
  case mp =>
    rintro ⟨ns, x', l', h, takes⟩
    have bytes := (takes_of_tick hq hg h).bytes
    exact ⟨⟨ns, x', l', h⟩, Nat.add_left_cancel (bytes.trans takes.bytes.symm)⟩
  case mpr =>
    rintro ⟨⟨ns, x', l', h⟩, rfl⟩
    exact ⟨ns, x', l', h, takes_of_tick hq hg h⟩

theorem exists_idle_iff :
    (∃ ns x' l', x.tick l = ⟨ns, .ok (x', l')⟩ ∧ x'.scheduler.phase = .idle) ↔
    l.occupancy.available * Chunk.width < Size.limit ∧
      l.occupancy.available * Chunk.width % UInt32.size = 0 := by
  rw [← exists_tick_iff hx hb hq hg capacity, ← requestLength_eq_zero_iff hb]
  constructor
  case mp =>
    rintro ⟨ns, x', l', h, idle⟩
    exact ⟨⟨ns, x', l', h⟩, (takes_of_tick hq hg h).requests.eq_idle_iff.mp idle⟩
  case mpr =>
    rintro ⟨⟨ns, x', l', h⟩, zero⟩
    exact ⟨ns, x', l', h, (takes_of_tick hq hg h).requests.eq_idle_iff.mpr zero⟩

end Query

variable {cs : History} {sessions : Nat} {routes : RoutingTable} {x₀ : Interrupts}

-- All that fits is taken iff the space has 32 bits, or what is left of it when it is cut off is
-- still enough. More is never taken, and nothing at all iff nothing of the space is left.
theorem takes_fitting_iff (hc : create sessions routes = .ok x₀)
    (run : Run (fun x _ => x.tick) .any x₀ cs x) (hq : x.scheduler.phase = .query session)
    (hg : x.granted = .low) (capacity : l.occupancy.capacity < Size.limit) :
    let bytes := x.table.bytes session
    let available := l.occupancy.available
    let space := available * Chunk.width
    slots (fitting bytes available) ≤ available ∧
    (0 < fitting bytes available ↔ 0 < available) ∧
    ((∃ ns x' l', x.tick l = ⟨ns, .ok (x', l')⟩ ∧
      Takes x.table l.occupancy session (fitting bytes available) x'.scheduler x'.table
        l'.occupancy) ↔
      space < UInt32.size ∨
        space < Size.limit ∧ min bytes maxLength ≤ space % UInt32.size) ∧
    (∀ ns x' l', x.tick l = ⟨ns, .ok (x', l')⟩ → ∃ n ≤ fitting bytes available,
      Takes x.table l.occupancy session n x'.scheduler x'.table l'.occupancy) ∧
    ((∃ ns x' l', x.tick l = ⟨ns, .ok (x', l')⟩ ∧ x'.scheduler.phase = .idle) ↔
      space < Size.limit ∧ space % UInt32.size = 0) := by
  have hb : 0 < x.table.bytes session := (guarded_of_run hc run).queried session hq
  have sound := (sound_of_run hc run).left
  have hlimit : UInt32.size < Size.limit := by decide
  dsimp only
  refine ⟨slots_fitting_le .., fitting_pos_iff hb, ?taken, fun ns x' l' h =>
    ⟨_, requestLength_le_fitting .., takes_of_tick hq hg h⟩,
    exists_idle_iff sound hb hq hg capacity⟩
  case taken =>
    rw [exists_takes_iff sound hb hq hg capacity, requestLength_eq_fitting_iff]
    omega

def vacant (available : Nat) : Links :=
  ⟨⟨.single, .single⟩, .single, ⟨.create available (available + 1), 0⟩⟩

-- A session has 24 bytes, and two slots are available: sixteen bytes are taken.
theorem takes_fitting_of_two_slots :
    ∃ (x₀ x x' : Interrupts) (cs : History) (ns : List Note) (l' : Links),
      create 1 (.empty .forward) = .ok x₀ ∧ Run (fun x _ => x.tick) .any x₀ cs x ∧
      x.scheduler.phase = .query 0 ∧ x.granted = .low ∧
      (vacant 2).occupancy.capacity < Size.limit ∧ x.tick (vacant 2) = ⟨ns, .ok (x', l')⟩ ∧
      Takes x.table (vacant 2).occupancy 0 16 x'.scheduler x'.table l'.occupancy := by
  have ⟨x₀, cs, x, hc, run, hq, hg, hb⟩ :
      ∃ (x₀ : Interrupts) (cs : History) (x : Interrupts),
      create 1 (.empty .forward) = .ok x₀ ∧ Run (fun x _ => x.tick) .any x₀ cs x ∧
      x.scheduler.phase = .query 0 ∧ x.granted = .low ∧ x.table.bytes 0 = 24 :=
    Run.exists_of_create (arrivals [[⟨0, 24, 0, 0, 80⟩], [], []]) (by decide +kernel)
  have capacity : (vacant 2).occupancy.capacity < Size.limit := by decide
  have ⟨_, _, taken, _⟩ := takes_fitting_iff hc run hq hg capacity
  have ⟨ns, x', l', h, takes⟩ := taken.mpr (.inl (by decide))
  rw [hb] at takes
  exact ⟨x₀, x, x', cs, ns, l', hc, run, hq, hg, capacity, h, takes⟩

-- With 2 ^ 29 slots available, nothing is left of the space, and nothing is taken.
theorem nothing_taken_of_large_buffer :
    ¬ ∀ (sessions : Nat) (routes : RoutingTable) (x₀ x : Interrupts) (cs : History)
        (session : SessionId) (l : Links),
      create sessions routes = .ok x₀ → Run (fun x _ => x.tick) .any x₀ cs x →
      x.scheduler.phase = .query session → x.granted = .low →
      l.occupancy.capacity < Size.limit →
      ∃ ns x' l', x.tick l = ⟨ns, .ok (x', l')⟩ ∧
        Takes x.table l.occupancy session
          (fitting (x.table.bytes session) l.occupancy.available) x'.scheduler x'.table
          l'.occupancy := by
  intro h
  have ⟨x₀, cs, x, hc, run, hq, hg, hb⟩ :
      ∃ (x₀ : Interrupts) (cs : History) (x : Interrupts),
      create 1 (.empty .forward) = .ok x₀ ∧ Run (fun x _ => x.tick) .any x₀ cs x ∧
      x.scheduler.phase = .query 0 ∧ x.granted = .low ∧ x.table.bytes 0 = 8 :=
    Run.exists_of_create (arrivals [[⟨0, 8, 0, 0, 80⟩], [], []]) (by decide +kernel)
  have ⟨_, _, _, ticked, takes⟩ :=
    h 1 _ x₀ x cs 0 (vacant (2 ^ 29)) hc run hq hg (by decide)
  have bytes := takes.bytes.trans (takes_of_tick hq hg ticked).bytes.symm
  rw [hb] at bytes
  exact absurd (Nat.add_left_cancel bytes) (by decide)

end Interrupts

end ShellInterface.Tcp
