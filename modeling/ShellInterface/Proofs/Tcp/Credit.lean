import ShellInterface.Proofs.Occupancy
import ShellInterface.Proofs.Tcp.InputBuffer
import ShellInterface.Proofs.Tcp.Interrupts
import ShellInterface.Proofs.Tcp.Receiver
import ShellInterface.Proofs.Tcp.Reports
import ShellInterface.Proofs.Tcp.Turns

namespace ShellInterface

namespace Tcp

open Tcp.Frame (Turn)

structure Credit (capacity overflows : Nat) (n : Network) : Prop where
  capacity_eq : n.occupancy.capacity = capacity
  depth_eq    : n.inner.buffer.depth = capacity
  balance     : n.occupancy.free + n.inner.buffer.items.length + n.inner.dequeued.items.length + 1 =
    capacity + overflows + n.inner.enqueued.items.length
  once        : overflows ≤ 1
  reserved_le : n.occupancy.reserved ≤ n.occupancy.free

-- What a turn other than that of the tracker means for the credit: chunks enter and leave the
-- buffer with their signals, and only free slots are reserved.
structure Flow (n n' : Network) (reserved entered left : Nat) : Prop where
  slots    : n'.occupancy.slots = n.occupancy.slots
  depth    : n'.inner.buffer.depth = n.inner.buffer.depth
  buffer   : n'.inner.buffer.items.length + left = n.inner.buffer.items.length + entered
  enqueued : n'.inner.enqueued.items.length = n.inner.enqueued.items.length + entered
  dequeued : n'.inner.dequeued.items.length = n.inner.dequeued.items.length + left
  promised : n'.occupancy.reserved = n.occupancy.reserved + reserved
  room     : reserved ≤ n.occupancy.available

variable {n n' : Network} {capacity overflows reserved entered left : Nat}

namespace Flow

theorem idle (ho : n'.occupancy = n.occupancy) (hb : n'.inner.buffer = n.inner.buffer)
    (he : n'.inner.enqueued = n.inner.enqueued) (hd : n'.inner.dequeued = n.inner.dequeued) :
    Flow n n' 0 0 0 := by
  constructor <;> simp [ho, hb, he, hd]

theorem reserve
    (ho : n'.occupancy = { n.occupancy with reserved := n.occupancy.reserved + reserved })
    (hr : reserved ≤ n.occupancy.available) (hb : n'.inner.buffer = n.inner.buffer)
    (he : n'.inner.enqueued = n.inner.enqueued) (hd : n'.inner.dequeued = n.inner.dequeued) :
    Flow n n' reserved 0 0 := by
  constructor <;> simp [ho, hb, he, hd, hr]

theorem enter (ho : n'.occupancy = n.occupancy)
    (hs : n'.inner.buffer.depth = n.inner.buffer.depth)
    (hb : n'.inner.buffer.items.length = n.inner.buffer.items.length + entered)
    (he : n'.inner.enqueued.items.length = n.inner.enqueued.items.length + entered)
    (hd : n'.inner.dequeued = n.inner.dequeued) : Flow n n' 0 entered 0 := by
  constructor <;> simp [ho, hs, hb, he, hd]

theorem leave (ho : n'.occupancy = n.occupancy)
    (hs : n'.inner.buffer.depth = n.inner.buffer.depth)
    (hb : n'.inner.buffer.items.length + left = n.inner.buffer.items.length)
    (he : n'.inner.enqueued = n.inner.enqueued)
    (hd : n'.inner.dequeued.items.length = n.inner.dequeued.items.length + left) :
    Flow n n' 0 0 left := by
  constructor <;> simp [ho, hs, hb, he, hd]

end Flow

theorem Credit.flow (h : Credit capacity overflows n) (flow : Flow n n' reserved entered left) :
    Credit capacity overflows n' where
  capacity_eq := (congrArg SaturatingCounter.max flow.slots).trans h.capacity_eq
  depth_eq    := flow.depth.trans h.depth_eq
  once        := h.once
  balance     := by
    have := h.balance
    have := flow.buffer
    have := flow.enqueued
    have := flow.dequeued
    simp only [Occupancy.free, flow.slots] at *
    omega
  reserved_le := by
    have := h.reserved_le
    have := flow.promised
    have := flow.room
    simp only [Occupancy.free, Occupancy.available, flow.slots] at *
    omega

theorem Scheduler.Step.reserves {granted : Bool} {t t' : SessionTable} {o o' : Occupancy}
    {l l' : Links} {s s' : Scheduler} {ns : List Note}
    (h : Step granted t o l s ns s' t' o' l') :
    ∃ n ≤ o.available, o' = { o with reserved := o.reserved + n } := by
  cases h
  case take hl _ _ _ ho => exact ⟨_, hl ▸ Scheduler.slots_requestLength_le .., ho⟩
  all_goals exact ⟨0, Nat.zero_le _, rfl⟩

theorem Receiver.Step.leaves {enable : Bool} {r r' : Receiver} {l l' : Links} {ns : List Note}
    (h : Step enable r l ns r' l') : ∃ left ≤ 1, l'.data.depth = l.data.depth ∧
      l'.data.items.length + left = l.data.items.length ∧
      l'.dequeued.items.length = l.dequeued.items.length + left := by
  cases h
  case forwardData hr hs _ _       => exact ⟨1, by simp [hr, (Fifo.write_ok hs).left]⟩
  case sinkData hr hs _            => exact ⟨1, by simp [hr, (Fifo.write_ok hs).left]⟩
  case extractRecord hr hs _ _ _   => exact ⟨1, by simp [hr, (Fifo.write_ok hs).left]⟩
  case malformedRecord hr hs _ _   => exact ⟨1, by simp [hr, (Fifo.write_ok hs).left]⟩
  all_goals exact ⟨0, by simp⟩

theorem InputBuffer.Data.enters {s s' : Links} (h : Data s s') :
    ∃ entered ≤ 1, s'.buffer.depth = s.buffer.depth ∧
      s'.buffer.items.length = s.buffer.items.length + entered ∧
      s'.enqueued.items.length = s.enqueued.items.length + entered := by
  cases h
  case keep        => exact ⟨0, by simp⟩
  case move hw hs  =>
    have ⟨hi, hd, _⟩ := Fifo.write_ok hw
    exact ⟨1, by simp, hd, by simp [hi], by simp [(Fifo.write_ok hs).left]⟩

theorem InputBuffer.enters {s s' : Links} (h : tick s = .ok s') :
    ∃ entered ≤ 1, s'.buffer.depth = s.buffer.depth ∧
      s'.buffer.items.length = s.buffer.items.length + entered ∧
      s'.enqueued.items.length = s.enqueued.items.length + entered := by
  have ⟨t, hs, hd⟩ := moves_of_tick h
  cases hs <;> exact hd.enters

-- A turn of the tracker: an overflow makes up for the slot that was not counted.
theorem Credit.track {occupancy : Occupancy} {error : Option OccupancyError}
    {enqueued dequeued : Fifo Unit} (h : Credit capacity overflows n)
    (ticked : n.occupancy.tick n.inner.enqueued n.inner.dequeued =
      ((occupancy, error), enqueued, dequeued)) :
    (error = none ∧ Credit capacity overflows
        { n with occupancy, inner := { n.inner with enqueued, dequeued } }) ∨
    (error = some .overflow ∧ Credit capacity (overflows + 1)
        { n with occupancy, inner := { n.inner with enqueued, dequeued } }) := by
  have ⟨hcapacity, hcases⟩ := Occupancy.tick_cases ticked
  have hreserved := Occupancy.tick_reserved ticked
  have hsignals := Occupancy.tick_signals ticked
  have ⟨hc, hd, hb, ho, hr⟩ := h
  have hl := n.inner.buffer.length_le
  obtain ⟨he, hfree⟩ | ⟨he, hfull, hfull', hq, hp⟩ | ⟨_, hfree, hq, hp⟩ := hcases
  · exact .inl ⟨he, hcapacity.trans hc, hd, by dsimp only; omega, ho, by dsimp only; omega⟩
  · exact .inr ⟨he, hcapacity.trans hc, hd, by dsimp only; omega, by omega, by dsimp only; omega⟩
  · omega

theorem Credit.track_of_reserved {occupancy : Occupancy} {error : Option OccupancyError}
    {enqueued dequeued : Fifo Unit} (h : Credit capacity 0 n)
    (reserved : n.inner.enqueued.items.length ≤ n.occupancy.reserved)
    (ticked : n.occupancy.tick n.inner.enqueued n.inner.dequeued =
      ((occupancy, error), enqueued, dequeued)) :
    error = none ∧ Credit capacity 0
      { n with occupancy, inner := { n.inner with enqueued, dequeued } } := by
  have ⟨_, hcases⟩ := Occupancy.tick_cases ticked
  have hreserved := h.reserved_le
  obtain hc | ⟨rfl, _⟩ := h.track ticked
  case inl => exact hc
  case inr =>
    obtain ⟨he, _⟩ | ⟨_, hfull, _, hq, _⟩ | ⟨he, _⟩ := hcases
    case inl     => cases he
    case inr.inl => omega
    case inr.inr => cases he

theorem Interrupts.reserves {x x' : Interrupts} {l l' : Links} {ns : List Note}
    (h : x.tick l = ⟨ns, .ok (x', l')⟩) :
    ∃ n ≤ l.occupancy.available,
      l'.occupancy = { l.occupancy with reserved := l.occupancy.reserved + n } := by
  have ⟨_, _, _, step⟩ := step_of_tick h
  exact step.scheduler.reserves

def Safe (capacity : Nat) (ts : List Turn) (n : Network) : Prop :=
  ∃ overflows, Credit capacity overflows n ∧
    (Frame.faults ts).filter Reporter.buffer.reports =
      List.replicate overflows (.inputBuffer .overflow)

section Turns

variable {enable : Bool} {ts : List Turn} {f f' : Frame} {ns : List Note}

theorem Safe.flow (h : Safe capacity ts f.net) (flow : Flow f.net f'.net reserved entered left)
    (quiet : Reporter.buffer.faults ns = []) :
    Safe capacity (ts ++ [⟨f, ns, f'⟩]) f'.net := by
  have ⟨overflows, credit, hf⟩ := h
  refine ⟨overflows, credit.flow flow, ?_⟩
  rw [Frame.faults_concat, List.filter_append, hf]
  exact congrArg _ quiet |>.trans (List.append_nil _)

-- A turn is a flow, and nothing is wrong with the buffer, or it is the turn of the tracker.
theorem Frame.Step.flow_cases (step : Frame.Step enable f ns f') :
    (∃ reserved entered left, Flow f.net f'.net reserved entered left ∧
      Reporter.buffer.faults ns = []) ∨
    ∃ occupancy error enqueued dequeued,
      f.net.occupancy.tick f.net.inner.enqueued f.net.inner.dequeued =
        ((occupancy, error), enqueued, dequeued) ∧
      ns = error.toList.map (fun e => .fault InputBuffer.origin (.inputBuffer e)) ∧
      f' = f.afterTracker occupancy enqueued dequeued := by
  cases step
  case listen ticked   =>
    have only := (Listener.only_tick _ _ _).of_eq ticked
    exact .inl ⟨_, _, _, .idle rfl rfl rfl rfl, only.faults_of_ne nofun⟩
  case connect ticked  =>
    have only := (Connector.only_tick _ _ _).of_eq ticked
    exact .inl ⟨_, _, _, .idle rfl rfl rfl rfl, only.faults_of_ne nofun⟩
  case interrupt ticked =>
    have ⟨_, hn, ho⟩ := Interrupts.reserves ticked
    have only := (Interrupts.only_tick _ _).of_eq ticked
    exact .inl ⟨_, _, _, .reserve ho hn rfl rfl rfl, only.faults_of_ne nofun⟩
  case buffer ticked   =>
    have ⟨_, _, hd, hb, he⟩ := InputBuffer.enters ticked
    exact .inl ⟨_, _, _, .enter rfl hd hb he rfl, rfl⟩
  case track ticked    => exact .inr ⟨_, _, _, _, ticked, rfl, rfl⟩
  case receive ticked  =>
    have ⟨_, _, hd, hb, hs⟩ := (Receiver.step_of_tick ticked).leaves
    have only := (Receiver.only_tick _ _ _).of_eq ticked
    exact .inl ⟨_, _, _, .leave rfl hd hb rfl hs, only.faults_of_ne nofun⟩
  case transmit ticked =>
    have only := (Transmitter.only_tick _ _ _).of_eq ticked
    exact .inl ⟨_, _, _, .idle rfl rfl rfl rfl, only.faults_of_ne nofun⟩

theorem Credit.turn (step : Frame.Step enable f ns f') (h : Credit capacity 0 f.net)
    (reserved : f.net.inner.enqueued.items.length ≤ f.net.occupancy.reserved) :
    Credit capacity 0 f'.net := by
  obtain ⟨_, _, _, flow, _⟩ | ⟨_, _, _, _, ticked, _, rfl⟩ := step.flow_cases
  case inl => exact h.flow flow
  case inr => exact (h.track_of_reserved reserved ticked).right

theorem Safe.turn (step : Frame.Step enable f ns f') (h : Safe capacity ts f.net) :
    Safe capacity (ts ++ [⟨f, ns, f'⟩]) f'.net := by
  obtain ⟨_, _, _, flow, quiet⟩ | ⟨_, _, _, _, ticked, rfl, rfl⟩ := step.flow_cases
  case inl => exact h.flow flow quiet
  case inr =>
    have ⟨overflows, credit, hf⟩ := h
    obtain ⟨rfl, hc⟩ | ⟨rfl, hc⟩ := credit.track ticked
    case inl => exact ⟨overflows, hc, by simpa using hf⟩
    case inr =>
      refine ⟨overflows + 1, hc, ?_⟩
      rw [Frame.faults_concat, List.filter_append, hf, List.replicate_succ']
      rfl

end Turns

structure Settled (n : Network) : Prop where
  enqueued : n.inner.enqueued.items = []
  dequeued : n.inner.dequeued.items.length ≤ 1

namespace Frame

variable {enable : Bool} {f f' : Frame} {ns : List Note}

def signals (f : Frame) : Fifo Unit × Fifo Unit :=
  (f.net.inner.enqueued, f.net.inner.dequeued)

theorem listen_signals (h : f.listen enable = ⟨ns, .ok f'⟩) : f'.signals = f.signals := by
  obtain ⟨_, ⟨_, _⟩, _, _, hk, rfl⟩ := Traced.bind_eq_ok.mp h
  cases hk
  rfl

theorem connect_signals (h : f.connect enable = ⟨ns, .ok f'⟩) : f'.signals = f.signals := by
  obtain ⟨_, ⟨_, _⟩, _, _, hk, rfl⟩ := Traced.bind_eq_ok.mp h
  cases hk
  rfl

theorem interrupt_signals (h : f.interrupt = ⟨ns, .ok f'⟩) : f'.signals = f.signals := by
  obtain ⟨_, ⟨_, _⟩, _, _, hk, rfl⟩ := Traced.bind_eq_ok.mp h
  cases hk
  rfl

theorem transmit_signals (h : f.transmit enable = ⟨ns, .ok f'⟩) : f'.signals = f.signals := by
  obtain ⟨_, ⟨_, _⟩, _, _, hk, rfl⟩ := Traced.bind_eq_ok.mp h
  cases hk
  rfl

theorem buffer_signals (h : f.buffer = ⟨ns, .ok f'⟩) :
    f'.signals.1.items.length ≤ f.signals.1.items.length + 1 ∧ f'.signals.2 = f.signals.2 := by
  have ⟨_, ht, hk⟩ := Traced.liftM_stream_bind_eq_ok.mp h
  have ⟨n, hn, _, _, he⟩ := InputBuffer.enters ht
  cases hk
  exact ⟨by simp only [signals, he]; omega, rfl⟩

theorem track_signals (h : f.track = ⟨ns, .ok f'⟩) :
    f'.signals = (f.signals.1.tail, f.signals.2.tail) := by
  rcases ht : f.net.occupancy.tick f.net.inner.enqueued f.net.inner.dequeued with
    ⟨⟨_, _ | _⟩, enqueued, dequeued⟩
  all_goals
    simp only [track, ht] at h
    cases h
    simp only [Occupancy.tick, Prod.mk.injEq] at ht
    simp [signals, ht]

theorem receive_signals (h : f.receive enable = ⟨ns, .ok f'⟩) :
    f'.signals.1 = f.signals.1 ∧ f'.signals.2.items.length ≤ f.signals.2.items.length + 1 := by
  obtain ⟨_, ⟨_, _⟩, _, ht, hk, -⟩ := Traced.bind_eq_ok.mp h
  have ⟨n, hn, _, _, hs⟩ := (Receiver.step_of_tick ht).leaves
  cases hk
  exact ⟨rfl, by simp only [signals, hs]; omega⟩

theorem settled_of_cycle (h : f.cycle enable = ⟨ns, .ok f'⟩) (hf : Settled f.net) :
    Settled f'.net := by
  obtain ⟨_, f₆, _, h₆, transmit, -⟩ := Traced.bind_eq_ok.mp h
  obtain ⟨_, f₅, _, h₅, receive, -⟩ := Traced.bind_eq_ok.mp h₆
  obtain ⟨_, f₄, _, h₄, track, -⟩ := Traced.bind_eq_ok.mp h₅
  obtain ⟨_, f₃, _, h₃, buffer, -⟩ := Traced.bind_eq_ok.mp h₄
  obtain ⟨_, f₂, _, h₂, interrupt, -⟩ := Traced.bind_eq_ok.mp h₃
  obtain ⟨_, f₁, _, listen, connect, -⟩ := Traced.bind_eq_ok.mp h₂
  have h₃ : f₃.signals = f.signals := by
    rw [interrupt_signals interrupt, connect_signals connect, listen_signals listen]
  have ⟨he, hd⟩ : f₄.signals.1.items.length ≤ 1 ∧ f₄.signals.2.items.length ≤ 1 := by
    have ⟨he, hd⟩ := buffer_signals buffer
    rw [h₃] at he hd
    exact ⟨by simpa [signals, hf.enqueued] using he, hd ▸ hf.dequeued⟩
  have ⟨he, hd⟩ : f₅.signals.1.items = [] ∧ f₅.signals.2.items = [] := by
    rw [track_signals track]
    exact ⟨List.eq_nil_of_length_eq_zero (by simp; omega),
      List.eq_nil_of_length_eq_zero (by simp; omega)⟩
  have ⟨hs, hl⟩ := receive_signals receive
  have hx := transmit_signals transmit
  have hq : f'.signals.2.items.length ≤ 1 := by simpa [hx, hd] using hl
  exact ⟨(congrArg (·.1.items) hx).trans ((congrArg Fifo.items hs).trans he), hq⟩

end Frame

theorem Inner.create_ok {depth bufferChunks : Nat} {s : Inner}
    (h : create depth bufferChunks = .ok s) :
    s.buffer.depth = bufferChunks ∧ s.commands.items = [] ∧ s.sessions.items = [] ∧
      s.buffer.items = [] ∧ s.enqueued.items = [] ∧ s.dequeued.items = [] ∧
      s.records.items = [] := by
  have ⟨_, hc, h⟩ := exists_of_bind_eq_ok h
  have ⟨_, hs, h⟩ := exists_of_bind_eq_ok h
  have ⟨_, hb, h⟩ := exists_of_bind_eq_ok h
  have ⟨_, he, h⟩ := exists_of_bind_eq_ok h
  have ⟨_, hd, h⟩ := exists_of_bind_eq_ok h
  have ⟨_, hr, h⟩ := exists_of_bind_eq_ok h
  have ⟨_, _, h⟩ := exists_of_bind_eq_ok h
  cases h
  exact ⟨(Fifo.create_ok hb).right, (Fifo.create_ok hc).left, (Fifo.create_ok hs).left,
    (Fifo.create_ok hb).left, (Fifo.create_ok he).left, (Fifo.create_ok hd).left,
    (Fifo.create_ok hr).left⟩

theorem Network.create_ok {c : Config} (h : create c = .ok n) :
    Interrupts.create c.maxSessions c.routes = .ok n.interrupts ∧
      Occupancy.create c.inputBufferChunks = .ok n.occupancy ∧
      Inner.create c.streamDepth c.inputBufferChunks = .ok n.inner ∧ n.receiver = .start ∧
      n.listener = .create "TSIF/LSn" c.listenPorts.ports c.listenWatchdog ∧
      n.connector = .create c.connectWatchdog ∧ n.transmitter = .create c.sendRetries := by
  have ⟨_, hx, h⟩ := exists_of_bind_eq_ok h
  have ⟨_, ho, h⟩ := exists_of_bind_eq_ok h
  have ⟨_, hi, h⟩ := exists_of_bind_eq_ok h
  cases h
  exact ⟨hx, ho, hi, rfl, rfl, rfl, rfl⟩

theorem Credit.start {c : Config} (h : Network.create c = .ok n) :
    Credit c.inputBufferChunks 0 n ∧ Settled n := by
  have ⟨_, ho, hi, _⟩ := Network.create_ok h
  have ⟨hs, _, _, hb, he, hd, _⟩ := Inner.create_ok hi
  have ⟨hpos, ho⟩ := Occupancy.create_ok ho
  refine ⟨?_, he, by simp [hd]⟩
  constructor <;> simp [ho, hs, hb, he, hd, Occupancy.capacity, Occupancy.free,
    SaturatingCounter.create]
  omega

namespace Interface

variable {c : Config} {x x₀ : Interface} {cs : History}

theorem network_of_create (h : create c = .ok x₀) : Network.create c = .ok x₀.net := by
  have ⟨_, _, h⟩ := exists_of_bind_eq_ok h
  have ⟨_, hn, h⟩ := exists_of_bind_eq_ok h
  have ⟨_, _, h⟩ := exists_of_bind_eq_ok h
  cases h
  exact of_mapError_eq_ok hn

theorem settled_of_run (hc : create c = .ok x₀) (run : Run tick .any x₀ cs x) : Settled x.net := by
  induction run
  case start          => exact (Credit.start (network_of_create hc)).right
  case next ticked ih => exact Frame.settled_of_cycle (cycle_of_tick ticked) ih

theorem safe_of_run (hc : create c = .ok x₀) (run : Run tick .any x₀ cs x) :
    Safe c.inputBufferChunks (turns cs) x.net :=
  invariant_of_run (Q := fun _ ts f => Safe c.inputBufferChunks ts f.net) run
    ⟨0, (Credit.start (network_of_create hc)).left, rfl⟩ (fun _ h => h)
    (fun step h => h.turn step) (fun h => h)

theorem count_overflow_eq {fs : List Fault} {overflows : Nat}
    (h : fs.filter Reporter.buffer.reports = List.replicate overflows (.inputBuffer .overflow)) :
    fs.count (.inputBuffer .overflow) = overflows := by
  have hr : Reporter.buffer.reports (.inputBuffer .overflow) := rfl
  rw [← List.count_filter hr, h, List.count_replicate_self]

theorem underflow_not_mem {fs : List Fault} {overflows : Nat}
    (h : fs.filter Reporter.buffer.reports = List.replicate overflows (.inputBuffer .overflow))
    (k : Nat) :
    .inputBuffer (.underflow k) ∉ fs := by
  intro hm
  have hm := List.mem_filter.mpr ⟨hm, show Reporter.buffer.reports _ by rfl⟩
  rw [h] at hm
  cases List.eq_of_mem_replicate hm

-- Between any two cycles the tracker counts the slots of the buffer, up to the chunk that left it
-- last, one fewer than there are until an overflow is reported and exactly from then on. So there
-- is at most one overflow, and only slots that are free are promised to requests.
theorem credit_of_run (hc : create c = .ok x₀) (run : Run tick .any x₀ cs x) :
    x.net.inner.enqueued.items = [] ∧
    x.net.inner.dequeued.items.length ≤ 1 ∧
    x.net.occupancy.reserved ≤ x.net.occupancy.free ∧
    x.net.occupancy.free ≤ c.inputBufferChunks ∧
    c.inputBufferChunks - 1 ≤
      x.net.occupancy.free + x.bufferedChunks + x.net.inner.dequeued.items.length ∧
    x.net.occupancy.free + x.bufferedChunks + x.net.inner.dequeued.items.length ≤
      c.inputBufferChunks ∧
    x.net.occupancy.free + x.bufferedChunks + x.net.inner.dequeued.items.length + 1 =
      c.inputBufferChunks + (faults cs).count (.inputBuffer .overflow) ∧
    (faults cs).count (.inputBuffer .overflow) ≤ 1 ∧
    ∀ k, .inputBuffer (.underflow k) ∉ faults cs := by
  have ⟨he, hd⟩ := settled_of_run hc run
  have ⟨overflows, credit, hf⟩ := safe_of_run hc run
  rw [faults_eq_of_run run, count_overflow_eq hf]
  have balance : x.net.occupancy.free + x.bufferedChunks + x.net.inner.dequeued.items.length + 1 =
      c.inputBufferChunks + overflows := by
    simpa [he, bufferedChunks, Fifo.length] using credit.balance
  have once := credit.once
  exact ⟨he, hd, credit.reserved_le, credit.capacity_eq ▸ x.net.occupancy.free_le_capacity,
    by omega, by omega, balance, once, underflow_not_mem hf⟩

-- Both slots of a small buffer are filled with chunks that nobody asked for. The second one enters
-- although no slot counts as free.
theorem credit_of_two_chunks :
    ∃ x₀ cs x, create small = .ok x₀ ∧ Run tick .any x₀ cs x ∧
      faults cs = [.inputBuffer .overflow] ∧ x.net.inner.buffer.isFull ∧
      x.net.occupancy.free + x.bufferedChunks + x.net.inner.dequeued.items.length + 1 =
        small.inputBufferChunks + (faults cs).count (.inputBuffer .overflow) := by
  have ⟨x₀, cs, x, hc, run, hf, hx⟩ : ∃ x₀ cs x, create small = .ok x₀ ∧ Run tick .any x₀ cs x ∧
      faults cs = [.inputBuffer .overflow] ∧ x.net.inner.buffer.isFull :=
    Run.exists_of_create
      (arrivals [([], [.ofBytes [1] true], []), ([], [.ofBytes [2] true], [])])
      (by decide +kernel)
  have ⟨_, _, _, _, _, _, balance, _⟩ := credit_of_run hc run
  exact ⟨x₀, cs, x, hc, run, hf, hx, balance⟩

end Interface

end Tcp

end ShellInterface
