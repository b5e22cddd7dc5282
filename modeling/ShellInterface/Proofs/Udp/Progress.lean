import ShellInterface.Proofs.Ledger
import ShellInterface.Proofs.Success
import ShellInterface.Udp.Interface

namespace ShellInterface.Udp

namespace Closer

theorem succeeds_tick (c : Closer) (enable : Bool) (s : Links) : (c.tick enable s).Succeeds := by
  cases hp : c.phase <;> simp only [tick, hp]
  case idle    => simp +contextual [idle]
  case request => simp +contextual [request]
  case await   => simp +contextual [await]
  case done    => simp

end Closer

namespace Receiver

theorem succeeds_dispatch (r : Receiver) (enable : Bool) (sockets : SocketPair) :
    (r.dispatch enable sockets).Succeeds := by
  unfold dispatch
  cases enable
  case false => simp
  case true  => rcases r.routes.lookup sockets.dst.port with ⟨_ | _, _ | _⟩ <;> simp

theorem succeeds_tick (r : Receiver) (enable : Bool) (l : Links) : (r.tick enable l).Succeeds := by
  cases hp : r.phase <;> simp only [tick, hp]
  case readHeader    => simp +contextual [readHeader, succeeds_dispatch]
  case forwardHeader => simp +contextual [forwardHeader]
  case data          => simp +contextual [moveData, passOn]
  case extractLength => simp +contextual [extractLength, handOver]

end Receiver

namespace Transmitter

variable {enable : Bool} {l : Links}

theorem succeeds_startApp (sockets : l.appHeaders.isEmpty = false)
    (length : l.appLengths.isEmpty = false)
    (ready : enable = false ∨ l.headers.isFull = false ∧ l.lengths.isFull = false) :
    (startApp enable l).Succeeds := by
  cases enable <;> simp_all [startApp, writeHeader]

theorem succeeds_startTest (request : l.testRequests.isEmpty = false)
    (ready : enable = false ∨ l.headers.isFull = false ∧ l.lengths.isFull = false) :
    (startTest enable l).Succeeds := by
  cases enable <;> simp_all [startTest, writeHeader]

theorem succeeds_start (enable : Bool) (l : Links) : (start enable l).Succeeds := by
  simp only [start, Traced.succeeds_ite, Bool.and_eq_true, Bool.or_eq_true, Bool.not_eq_true']
  constructor
  case left =>
    rintro ⟨⟨sockets, length⟩, ready⟩
    exact succeeds_startApp sockets length ready
  case right =>
    refine fun _ => ⟨?_, fun _ => Traced.succeeds_ok _ _⟩
    rintro ⟨request, ready⟩
    exact succeeds_startTest request ready

theorem succeeds_sendTest (pattern : TestPattern) (l : Links) : (sendTest pattern l).Succeeds := by
  unfold sendTest
  cases pattern.next? <;> simp +contextual

theorem succeeds_tick (t : Transmitter) (enable : Bool) (l : Links) :
    (t.tick enable l).Succeeds := by
  cases t
  case idle         => exact succeeds_start enable l
  case app          => simp +contextual [tick, sendApp]
  case test pattern => exact succeeds_sendTest pattern l
  case discard      => simp +contextual [tick, drain]

end Transmitter

namespace Frame

def stages (enable : Bool) : List (Frame → Traced Frame) :=
  [listen enable, close enable, receive enable, transmit enable]

variable {enable : Bool} {f f' : Frame} {ns : List Note} {act : Frame → Traced Frame}

theorem cycle_eq_foldlM (enable : Bool) (f : Frame) :
    f.cycle enable = (stages enable).foldlM (fun f act => act f) f := by
  simp only [cycle, stages, List.foldlM_cons, List.foldlM_nil, bind_pure, bind_assoc]

theorem succeeds_of_mem_stages (hm : act ∈ stages enable) (h : f.net.listener.Engaged) :
    (act f).Succeeds := by
  simp only [stages, List.mem_cons, List.not_mem_nil, or_false] at hm
  obtain rfl | rfl | rfl | rfl := hm
  · simp [listen, Listener.succeeds_tick _ _ h]
  · simp [close, Closer.succeeds_tick]
  · simp [receive, Receiver.succeeds_tick]
  · simp [transmit, Transmitter.succeeds_tick]

theorem engaged_of_mem_stages (hm : act ∈ stages enable) (h : act f = ⟨ns, .ok f'⟩)
    (engaged : f.net.listener.Engaged) : f'.net.listener.Engaged := by
  simp only [stages, List.mem_cons, List.not_mem_nil, or_false] at hm
  obtain rfl | rfl | rfl | rfl := hm
  all_goals
    obtain ⟨_, ⟨_, _⟩, _, ticked, hk, rfl⟩ := Traced.bind_eq_ok.mp h
    cases hk
  case inl => exact engaged.next (Listener.step_of_tick ticked)
  all_goals exact engaged

theorem exists_cycle (enable : Bool) (h : f.net.listener.Engaged) :
    ∃ ns f', f.cycle enable = ⟨ns, .ok f'⟩ ∧ f'.net.listener.Engaged := by
  rw [cycle_eq_foldlM]
  exact Traced.exists_foldlM (P := (·.net.listener.Engaged))
    (fun _ hm _ => succeeds_of_mem_stages hm) (fun _ hm => engaged_of_mem_stages hm) h

theorem engaged_of_cycle (h : f.cycle enable = ⟨ns, .ok f'⟩) (engaged : f.net.listener.Engaged) :
    f'.net.listener.Engaged := by
  have ⟨_, _, he, engaged⟩ := exists_cycle enable engaged
  cases h.symm.trans he
  exact engaged

end Frame

namespace Interface

def tick (x : Interface) (enable : Bool) (l : Ingress × Egress) :
    Traced (Interface × Ingress × Egress) :=
  x.step enable l.1 l.2

abbrev History := List (Cycle Interface Bool (Ingress × Egress))

variable {c : Config} {x x' x₀ : Interface} {cs : History} {enable : Bool}
  {l l' : Ingress × Egress} {ns : List Note}

theorem cycle_of_tick (h : x.tick enable l = ⟨ns, .ok (x', l')⟩) :
    Frame.cycle enable ⟨x.net, l.1, l.2⟩ = ⟨ns, .ok ⟨x'.net, l'.1, l'.2⟩⟩ ∧
      x.ledger.close ns = .ok x'.ledger := by
  simp only [tick, step, Traced.mk.injEq] at h
  have ⟨hn, h⟩ := h
  have ⟨_, ho, h⟩ := exists_of_bind_eq_ok h
  have ⟨_, hl, h⟩ := exists_of_bind_eq_ok h
  cases h
  exact ⟨Traced.ext hn ho, hn ▸ hl⟩

theorem exists_create (valid : c.validate = .ok ())
    (afforded : create c ≠ .error (.halt .capacityOverflow)) : ∃ x₀, create c = .ok x₀ := by
  have ⟨_, hd, _⟩ := exists_of_bind_eq_ok valid
  have hn : Affordable (Network.create c) := by
    simp [Network.create, Fifo.affordable_create _ (requireNonZero_eq_ok hd)]
  have hc : create c = (do return ⟨← (Network.create c).mapError .halt,
      ← (Ledger.create c.faultHistory).mapError .halt⟩) := by
    simp only [create, valid]
    rfl
  rw [hc] at afforded ⊢
  have ⟨net, ledger, hn, hl⟩ :=
    exists_of_affordable hn (Ledger.affordable_create c.faultHistory) afforded
  exact ⟨⟨net, ledger⟩, by rw [hn, hl]; rfl⟩

theorem create_ok (h : create c = .ok x) : x.net.listener.Engaged ∧ x.ledger.Tallied 0 0 := by
  have ⟨_, _, h⟩ := exists_of_bind_eq_ok h
  have ⟨_, hn, h⟩ := exists_of_bind_eq_ok h
  have ⟨_, hl, h⟩ := exists_of_bind_eq_ok h
  cases h
  have ⟨_, _, hn⟩ := exists_of_bind_eq_ok (of_mapError_eq_ok hn)
  cases hn
  exact ⟨Listener.Engaged.create _ _ _, .start (of_mapError_eq_ok hl)⟩

theorem engaged_of_run (hc : create c = .ok x₀) (run : Run tick .any x₀ cs x) :
    x.net.listener.Engaged := by
  induction run
  case start          => exact (create_ok hc).left
  case next ticked ih => exact Frame.engaged_of_cycle (cycle_of_tick ticked).left ih

theorem exists_step_of_run (hc : create c = .ok x₀) (run : Run tick .any x₀ cs x)
    (enable : Bool) (i : Ingress) (o : Egress) (cycles : cs.length + 1 < Size.limit)
    (reported : (faults cs).length + ((x.step enable i o).notes.filterMap Note.fault?).length <
      Size.limit) : (x.step enable i o).Succeeds := by
  have ⟨_, _, he, _⟩ := Frame.exists_cycle enable (f := ⟨x.net, i, o⟩)
    (engaged_of_run hc run)
  simp only [step, he] at reported ⊢
  have ledger := Ledger.tallied_of_run (fun h => (cycle_of_tick h).right) (create_ok hc).right run
    (by omega) (by omega)
  have ⟨_, hl, _⟩ := ledger.close cycles reported
  exact ⟨_, by rw [hl]; rfl⟩

end Interface

end ShellInterface.Udp
