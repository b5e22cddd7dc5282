import ShellInterface.Proofs.Ledger
import ShellInterface.Proofs.Tcp.Delivery
import ShellInterface.Proofs.Tcp.Success

namespace ShellInterface.Tcp

open Tcp.Frame (Turn)
open Receiver (openLength)

namespace Config

theorem of_validate {c : Config} (h : c.validate = .ok ()) :
    0 < c.maxSessions ∧ c.maxSessions ≤ sessionLimit ∧ 0 < c.streamDepth ∧
      2 ≤ c.inputBufferChunks := by
  have ⟨_, hm, h⟩ := exists_of_bind_eq_ok h
  have ⟨_, hs, h⟩ := exists_of_bind_eq_ok h
  have ⟨_, _, h⟩ := exists_of_bind_eq_ok h
  dsimp only at h
  split at h
  case isTrue      => cases h
  case isFalse hle =>
    split at h
    case isTrue      => cases h
    case isFalse hlt =>
      exact ⟨requireNonZero_eq_ok hm, Nat.le_of_not_lt hle, requireNonZero_eq_ok hs,
        Nat.le_of_not_lt hlt⟩

end Config

section Creation

theorem SessionTable.affordable_create {sessions : Nat} (h : sessions ≤ Config.sessionLimit) :
    Affordable (SessionTable.create sessions) := by
  have hlimit : Config.sessionLimit + 64 < Size.limit := by decide
  have ⟨_, hb⟩ := Bitmap.exists_create (show sessions + 64 < Size.limit by omega)
  simp [SessionTable.create, hb]

theorem Inner.affordable_create {depth bufferChunks : Nat} (hd : 0 < depth)
    (hb : 0 < bufferChunks) : Affordable (Inner.create depth bufferChunks) := by
  simp [Inner.create, Fifo.affordable_create, hd, hb]

theorem Network.affordable_create {c : Config} (h : c.validate = .ok ()) :
    Affordable (Network.create c) := by
  have ⟨_, hs, hd, hb⟩ := Config.of_validate h
  have ho : Occupancy.create c.inputBufferChunks = .ok _ := if_neg (by omega)
  simp [Network.create, Interrupts.create, SessionTable.affordable_create hs, ho,
    Inner.affordable_create hd (show 0 < c.inputBufferChunks by omega)]

end Creation

namespace Frame

def received (ts : List Turn) : List Chunk :=
  consumed (·.before.net.inner.buffer) (·.after.net.inner.buffer) ts

@[simp]
theorem received_concat (ts : List Turn) (t : Turn) : received (ts ++ [t]) =
    received ts ++ t.before.net.inner.buffer.taken t.after.net.inner.buffer := by
  simp [received]

structure Sound (capacity : Nat) (ts : List Turn) (n : Network) : Prop where
  listener    : n.listener.Engaged
  interrupts  : n.interrupts.Sound
  receiver    : n.receiver.Engaged (received ts)
  transmitter : n.transmitter.Budgeted
  safe        : Safe capacity ts n

variable {enable : Bool} {capacity : Nat} {ts : List Turn} {f f' : Frame} {ns : List Note}

theorem Sound.start {c : Config} {n : Network} (h : Network.create c = .ok n) :
    Sound c.inputBufferChunks [] n := by
  have ⟨hx, _, _, hr, hl, _, ht⟩ := Network.create_ok h
  exact ⟨hl ▸ .create _ _ _, .create hx, hr ▸ .start, ht ▸ .create _, 0, (Credit.start h).left,
    rfl⟩

theorem Sound.turn (h : Sound capacity ts f.net) (step : Step enable f ns f') :
    Sound capacity (ts ++ [⟨f, ns, f'⟩]) f'.net := by
  have safe := h.safe.turn step
  obtain ⟨hl, hi, hr, ht, _⟩ := h
  cases step
  case listen ticked    =>
    exact ⟨hl.next (Listener.step_of_tick ticked), hi, by simpa using hr, ht, safe⟩
  case connect          => exact ⟨hl, hi, by simpa using hr, ht, safe⟩
  case interrupt ticked =>
    obtain ⟨_, _, _, step⟩ := Interrupts.step_of_tick ticked
    exact ⟨hl, hi.next step, by simpa [afterInterrupts] using hr, ht, safe⟩
  case buffer ticked    =>
    obtain ⟨_, _, _, hb, _⟩ := InputBuffer.moved_of_tick ticked
    have hb : f.net.inner.buffer.taken _ = [] := Fifo.taken_of_append hb
    exact ⟨hl, hi, by simpa [afterBuffer, hb] using hr, ht, safe⟩
  case track            => exact ⟨hl, hi, by simpa [afterTracker] using hr, ht, safe⟩
  case receive ticked   =>
    have hr := hr.next (Receiver.step_of_tick ticked)
    exact ⟨hl, hi, by simpa [afterReceiver, receiverLinks] using hr, ht, safe⟩
  case transmit ticked  =>
    exact ⟨hl, hi, by simpa using hr, ht.next (Transmitter.step_of_tick ticked), safe⟩

theorem Sound.roomy (h : Sound capacity ts f.net) (room : capacity * Chunk.width < Size.limit) :
    Interrupts.Roomy f.net.occupancy := by
  have ⟨_, credit, _⟩ := h.safe
  have hfree : f.net.occupancy.free ≤ capacity :=
    credit.capacity_eq ▸ f.net.occupancy.free_le_capacity
  have hspace : f.net.occupancy.available * Chunk.width < Size.limit :=
    Nat.lt_of_le_of_lt
      (Nat.mul_le_mul_right _ (Nat.le_trans f.net.occupancy.available_le_free hfree)) room
  refine ⟨?_, hspace⟩
  simp only [Chunk.width] at room
  omega

def arriving (enable : Bool) : List (Frame → Traced Frame) :=
  [listen enable, connect enable, interrupt, buffer, track]

theorem cycle_eq_arriving (enable : Bool) (f : Frame) :
    f.cycle enable = (arriving enable).foldlM (fun f act => act f) f >>= receive enable >>=
      transmit enable := by
  simp only [cycle, arriving, List.foldlM_cons, List.foldlM_nil, bind_pure, bind_assoc]

theorem mem_stages_of_arriving {act : Frame → Traced Frame} (h : act ∈ arriving enable) :
    act ∈ stages enable := by
  simp only [arriving, stages, List.mem_cons, List.not_mem_nil, or_false] at *
  grind

theorem succeeds_buffer (f : Frame) : f.buffer.Succeeds := by
  have ⟨_, hb⟩ := InputBuffer.exists_tick f.bufferLinks
  rw [bufferLinks] at hb
  simp [buffer, hb]

theorem succeeds_track (f : Frame) : f.track.Succeeds := by
  rcases ht : f.net.occupancy.tick f.net.inner.enqueued f.net.inner.dequeued with
    ⟨⟨_, _ | e⟩, _, _⟩ <;>
  simp [track, ht]

theorem Sound.succeeds_arriving {act : Frame → Traced Frame} (h : Sound capacity ts f.net)
    (room : capacity * Chunk.width < Size.limit) (hm : act ∈ arriving enable) :
    (act f).Succeeds := by
  have roomy := h.roomy room
  simp only [arriving, List.mem_cons, List.not_mem_nil, or_false] at hm
  obtain rfl | rfl | rfl | rfl | rfl := hm
  · simp [listen, Listener.succeeds_tick _ _ h.listener]
  · simp [connect, Connector.succeeds_tick]
  · have hi : (f.net.interrupts.tick f.interruptLinks).Succeeds :=
      Interrupts.succeeds_tick h.interrupts roomy
    rw [interruptLinks] at hi
    simp [interrupt, hi]
  · exact succeeds_buffer f
  · exact succeeds_track f

theorem receiver_eq_of_arriving {act : Frame → Traced Frame} (hm : act ∈ arriving enable)
    (h : act f = ⟨ns, .ok f'⟩) : f'.net.receiver = f.net.receiver := by
  simp only [arriving, List.mem_cons, List.not_mem_nil, or_false] at hm
  obtain rfl | rfl | rfl | rfl | rfl := hm
  case inr.inr.inr.inl =>
    have ⟨_, _, hk⟩ := Traced.liftM_stream_bind_eq_ok.mp h
    cases hk
    rfl
  case inr.inr.inr.inr =>
    rcases ht : f.net.occupancy.tick f.net.inner.enqueued f.net.inner.dequeued with
      ⟨⟨_, _ | e⟩, _, _⟩
    all_goals
      simp only [track, ht] at h
      cases h
      rfl
  all_goals
    obtain ⟨_, ⟨_, _⟩, _, _, hk, rfl⟩ := Traced.bind_eq_ok.mp h
    cases hk
    rfl

theorem Sound.succeeds_cycle (h : Sound capacity ts f.net)
    (room : capacity * Chunk.width < Size.limit)
    (open_lt : openLength (received ts) * Chunk.width + Chunk.width < Size.limit) :
    (f.cycle enable).Succeeds := by
  have ⟨_, f₁, arrived, ⟨ts₁, h₁⟩, hr⟩ := Traced.exists_foldlM
    (P := fun f' => (∃ ts, Sound capacity ts f'.net) ∧ f'.net.receiver = f.net.receiver) (a := f)
    (fun act (hm : act ∈ arriving enable) f ⟨⟨_, h⟩, _⟩ => h.succeeds_arriving room hm)
    (fun act hm _ _ _ ha ⟨⟨_, h⟩, hr⟩ =>
      ⟨⟨_, h.turn (step_of_mem_stages (mem_stages_of_arriving hm) ha)⟩,
        (receiver_eq_of_arriving hm ha).trans hr⟩)
    ⟨⟨ts, h⟩, rfl⟩
  have received : (f₁.receive enable).Succeeds := by
    have ticked := Receiver.succeeds_tick enable f₁.receiverLinks (hr ▸ h.receiver) open_lt
    rw [receiverLinks] at ticked
    simp [receive, ticked]
  obtain ⟨_, f₂, hf⟩ := received.exists_eq
  have h₂ := h₁.turn (step_of_receive hf)
  simp [cycle_eq_arriving, arrived, hf, transmit, Transmitter.succeeds_tick _ _ h₂.transmitter]

end Frame

namespace Interface

variable {c : Config} {x x₀ : Interface} {cs : History}

-- Nothing but the room in memory can be wanting for an interface that was configured properly.
theorem exists_create (valid : c.validate = .ok ())
    (afforded : create c ≠ .error (.halt .capacityOverflow)) : ∃ x₀, create c = .ok x₀ := by
  have hc : create c = (do return ⟨← (Network.create c).mapError .halt,
      ← (Ledger.create c.faultHistory).mapError .halt⟩) := by
    simp only [create, valid]
    rfl
  rw [hc] at afforded ⊢
  have ⟨net, ledger, hn, hl⟩ := exists_of_affordable (Network.affordable_create valid)
    (Ledger.affordable_create c.faultHistory) afforded
  exact ⟨⟨net, ledger⟩, by rw [hn, hl]; rfl⟩

theorem sound_of_run (hc : create c = .ok x₀) (run : Run tick .any x₀ cs x) :
    Frame.Sound c.inputBufferChunks (turns cs) x.net :=
  invariant_of_run (Q := fun _ ts f => Frame.Sound c.inputBufferChunks ts f.net) run
    (.start (network_of_create hc)) (fun _ h => h) (fun step h => h.turn step) (fun h => h)

theorem ledger_of_create (hc : create c = .ok x₀) : x₀.ledger.Tallied 0 0 := by
  have ⟨_, _, h⟩ := exists_of_bind_eq_ok hc
  have ⟨_, _, h⟩ := exists_of_bind_eq_ok h
  have ⟨_, hl, h⟩ := exists_of_bind_eq_ok h
  cases h
  exact .start (of_mapError_eq_ok hl)

theorem ledger_of_tick {x' : Interface} {enable : Bool} {l l' : Ingress × Egress} {ns : List Note}
    (h : x.tick enable l = ⟨ns, .ok (x', l')⟩) : x.ledger.close ns = .ok x'.ledger := by
  simp only [tick, step, Traced.mk.injEq] at h
  obtain ⟨rfl, h⟩ := h
  obtain ⟨_, _, h⟩ := exists_of_bind_eq_ok h
  obtain ⟨_, hl, h⟩ := exists_of_bind_eq_ok h
  cases h
  exact hl

theorem ledger_of_run (hc : create c = .ok x₀) (run : Run tick .any x₀ cs x)
    (cycles : cs.length < Size.limit) (reported : (faults cs).length < Size.limit) :
    x.ledger.Tallied cs.length (faults cs).length :=
  Ledger.tallied_of_run ledger_of_tick (ledger_of_create hc) run cycles reported

theorem exists_step_of_run (hc : create c = .ok x₀) (run : Run tick .any x₀ cs x)
    (enable : Bool) (i : Ingress) (o : Egress) (room : c.inputBufferChunks < 2 ^ 61)
    (cycles : cs.length + 1 < Size.limit)
    (reported : (faults cs).length + ((x.step enable i o).notes.filterMap Note.fault?).length <
      Size.limit)
    (open_lt : openLength (Frame.received (turns cs)) < 2 ^ 60) :
    (x.step enable i o).Succeeds := by
  have sound := sound_of_run hc run
  have cycle : (Frame.cycle enable ⟨x.net, i, o⟩).Succeeds :=
    Frame.Sound.succeeds_cycle (f := ⟨x.net, i, o⟩) sound
      (by simp only [Chunk.width, Size.limit, UInt64.size]; omega)
      (by simp only [Chunk.width, Size.limit, UInt64.size]; omega)
  obtain ⟨ns, f, hf⟩ := cycle.exists_eq
  simp only [step, hf] at reported ⊢
  have ledger := ledger_of_run hc run (by omega) (by omega)
  obtain ⟨_, hl, _⟩ := ledger.close cycles reported
  exact ⟨_, by rw [hl]; rfl⟩

end Interface

end ShellInterface.Tcp
