import ShellInterface.Proofs.Udp.Closer
import ShellInterface.Proofs.Udp.Framing
import ShellInterface.Proofs.Udp.Receptions

namespace ShellInterface.Udp

open Staging (Turn)
open Tcp (Ended Framed)

section Reports

variable {enable : Bool} {ns : List Note}

theorem Closer.Step.only {c c' : Closer} {s s' : Links} (h : Step enable c s ns c' s') :
    Reporter.closer.Only ns := by
  cases h <;> simp [Fault.reporter]

theorem Closer.Step.keeps {c c' : Closer} {s s' : Links} (h : Step enable c s ns c' s') :
    Reporter.closer.Keeps ns := by
  cases h <;> simp [Counter.keeper]

theorem Transmitter.Step.only {t t' : Transmitter} {l l' : Links} (h : Step enable l t ns t' l') :
    Reporter.transmitter.Only ns := by
  cases h <;> simp

theorem Transmitter.Step.keeps {t t' : Transmitter} {l l' : Links} (h : Step enable l t ns t' l') :
    Reporter.transmitter.Keeps ns := by
  cases h <;> simp [Counter.keeper]

end Reports

@[ext]
structure Intake where
  headers : List (Bool × SocketPair)
  data : List Chunk
deriving DecidableEq

def Intake.of (rs : List Reception) : Intake where
  headers := rs.map fun r => (r.enabled, r.sockets)
  data    := rs.flatMap Reception.data

-- The datagrams are known from what was taken in all, if each of them has come to its end but the
-- last one.
theorem Intake.eq_of_eq {rs qs : List Reception} (hr : ∀ r ∈ rs.dropLast, Ended r.data)
    (hq : ∀ q ∈ qs.dropLast, Ended q.data) (h : Intake.of rs = .of qs) : rs = qs := by
  simp only [Intake.of, Intake.mk.injEq] at h
  obtain ⟨headers, data⟩ := h
  have length : rs.length = qs.length := by simpa using congrArg List.length headers
  have data : rs.map Reception.data = qs.map Reception.data :=
    Ended.eq_of_flatten_eq (forall_dropLast_map hr) (forall_dropLast_map hq) (by simpa using length)
      (by simpa [List.flatMap_def] using data)
  have rebuild (rs : List Reception) : List.zipWith (fun h d => Reception.mk h.1 h.2 d)
      (rs.map fun r => (r.enabled, r.sockets)) (rs.map Reception.data) = rs := by
    simp
  rw [← rebuild rs, headers, data, rebuild qs]

namespace Frame

def intake (ts : List (Bool × Turn Frame)) : Intake where
  headers := ts.flatMap fun (enable, t) =>
    (t.before.i.headers.taken t.after.i.headers).map (enable, ·)
  data    := consumed (·.2.before.i.data) (·.2.after.i.data) ts

def effect (ts : List (Bool × Turn Frame)) : Effect where
  headers  := written (·.2.before.o.appHeaders) (·.2.after.o.appHeaders) ts
  data     := written (·.2.before.o.appData) (·.2.after.o.appData) ts
  requests := written (·.2.before.net.testRequests) (·.2.after.net.testRequests) ts
  faults   := Reporter.receiver.faults (ts.flatMap (·.2.notes))

def receptions (ts : List (Bool × Turn Frame)) : List Reception :=
  ts.foldl (fun rs (enable, t) => Reception.enter rs enable
    (t.before.i.headers.taken t.after.i.headers) (t.before.i.data.taken t.after.i.data)) []

-- Where the receive side has got to in a run. What was taken is in the books, and what went out is
-- what becomes of it, but for a header that is still to go out.
structure Dispatched (routes : RoutingTable) (ts : List (Bool × Turn Frame)) (n : Network) :
    Prop where
  booked : n.receiver.Booked routes (receptions ts)
  intake : intake ts = .of (receptions ts)
  effect : effect ts ++ n.receiver.phase.pending = Reception.effects routes (receptions ts)

structure Counted (ts : List (Bool × Turn Frame)) : Prop where
  forwardedStreams : tally .forwardedStreams (ts.flatMap (·.2.notes)) = (effect ts).headers.length
  forwardedChunks  : tally .forwardedChunks (ts.flatMap (·.2.notes)) = (effect ts).data.length
  droppedChunks    : (effect ts).data.length + tally .droppedChunks (ts.flatMap (·.2.notes)) =
    (intake ts).data.length
  controlRecords   : tally .controlRecords (ts.flatMap (·.2.notes)) = (effect ts).requests.length

structure Aside (f : Frame) (ns : List Note) (f' : Frame) : Prop where
  receiver : f'.net.receiver = f.net.receiver
  links    : f'.receiverLinks = { f.receiverLinks with testRequests := f'.net.testRequests }
  requests : f.net.testRequests.added f'.net.testRequests = []
  faults   : Reporter.receiver.faults ns = []
  counters : ∀ c : Counter, c.keeper = .receiver → tally c ns = 0

variable {routes : RoutingTable} {enable : Bool} {ts : List (Bool × Turn Frame)} {f f' : Frame}
  {ns : List Note} {n : Network}

theorem Aside.of_only {r : Reporter} (hr : r ≠ .receiver) (only : r.Only ns) (keeps : r.Keeps ns)
    (receiver : f'.net.receiver = f.net.receiver)
    (links : f'.receiverLinks = { f.receiverLinks with testRequests := f'.net.testRequests })
    (requests : f.net.testRequests.added f'.net.testRequests = []) : Aside f ns f' where
  receiver     := receiver
  links        := links
  requests     := requests
  faults       := only.faults_of_ne hr
  counters _ h := keeps.tally_eq_zero fun he => hr (he.symm.trans h)

theorem Step.aside_or_receive (step : Step enable f ns f') : Aside f ns f' ∨
    Receiver.Step enable f.net.receiver f.receiverLinks ns f'.net.receiver f'.receiverLinks := by
  cases step
  case listen ticked   =>
    exact .inl (.of_only (by decide) ((Listener.only_tick _ _ _).of_eq ticked)
      (Listener.step_of_tick ticked).keeps rfl rfl (Fifo.added_self _))
  case close ticked    =>
    have step := Closer.step_of_tick ticked
    exact .inl (.of_only (by decide) step.only step.keeps rfl rfl (Fifo.added_self _))
  case receive ticked  => exact .inr (Receiver.step_of_tick ticked)
  case transmit ticked =>
    have step := Transmitter.step_of_tick ticked
    exact .inl (.of_only (by decide) step.only step.keeps rfl rfl
      (Fifo.added_of_suffix step.takes.testRequests))

theorem Aside.moved_eq (h : Aside f ns f') :
    Receiver.moved f.receiverLinks ns f'.receiverLinks = .nothing := by
  have requests : f.receiverLinks.testRequests.added f'.net.testRequests = [] := h.requests
  rw [h.links]
  simp [Receiver.moved, requests, h.faults, Effect.nothing]

theorem Aside.tallied (h : Aside f ns f') :
    Receiver.Tallied f.receiverLinks ns f'.receiverLinks := by
  have requests : f.receiverLinks.testRequests.added f'.net.testRequests = [] := h.requests
  rw [h.links]
  constructor
  case forwardedStreams => simpa using h.counters .forwardedStreams rfl
  case forwardedChunks  => simpa using h.counters .forwardedChunks rfl
  case droppedChunks    => simpa using h.counters .droppedChunks rfl
  case controlRecords   => simpa [requests] using h.counters .controlRecords rfl

section Concat

variable (ts : List (Bool × Turn Frame)) (enable : Bool) (t : Turn Frame)

theorem receptions_concat : receptions (ts ++ [(enable, t)]) =
    Reception.enter (receptions ts) enable
      (t.before.receiverLinks.headers.taken t.after.receiverLinks.headers)
      (t.before.receiverLinks.data.taken t.after.receiverLinks.data) := by
  simp [receptions, receiverLinks]

theorem effect_concat : effect (ts ++ [(enable, t)]) =
    effect ts ++ Receiver.moved t.before.receiverLinks t.notes t.after.receiverLinks := by
  simp [effect, Receiver.moved, receiverLinks, Effect.append_eq]

theorem intake_concat : intake (ts ++ [(enable, t)]) =
    ⟨(intake ts).headers ++
        (t.before.receiverLinks.headers.taken t.after.receiverLinks.headers).map (enable, ·),
      (intake ts).data ++ t.before.receiverLinks.data.taken t.after.receiverLinks.data⟩ := by
  simp [intake, receiverLinks]

end Concat

theorem Counted.next (h : Counted ts)
    (tallied : Receiver.Tallied f.receiverLinks ns f'.receiverLinks) :
    Counted (ts ++ [(enable, ⟨f, ns, f'⟩)]) := by
  have dropped := h.droppedChunks
  have dropped' := tallied.droppedChunks
  constructor <;> rw [effect_concat]
  case forwardedStreams =>
    simp [h.forwardedStreams, tallied.forwardedStreams, Effect.append_eq, Receiver.moved]
  case forwardedChunks =>
    simp [h.forwardedChunks, tallied.forwardedChunks, Effect.append_eq, Receiver.moved]
  case droppedChunks =>
    rw [intake_concat]
    simp [Effect.append_eq, Receiver.moved]
    omega
  case controlRecords =>
    simp [h.controlRecords, tallied.controlRecords, Effect.append_eq, Receiver.moved]

theorem Counted.turn (h : Counted ts) (step : Step enable f ns f') :
    Counted (ts ++ [(enable, ⟨f, ns, f'⟩)]) := by
  obtain aside | step := step.aside_or_receive
  case inl => exact h.next aside.tallied
  case inr => exact h.next step.tallied

theorem Dispatched.turn (h : Dispatched routes ts f.net) (step : Step enable f ns f') :
    Dispatched routes (ts ++ [(enable, ⟨f, ns, f'⟩)]) f'.net := by
  have ⟨booked, intake, effect⟩ := h
  obtain aside | step := step.aside_or_receive
  case inl =>
    have same : receptions (ts ++ [(enable, ⟨f, ns, f'⟩)]) = receptions ts := by
      rw [receptions_concat, aside.links, Fifo.taken_self, Fifo.taken_self,
        Reception.enter_nothing]
    constructor
    case booked => rwa [same, aside.receiver]
    case intake =>
      rw [same, intake_concat, aside.links, ← intake]
      simp
    case effect =>
      rw [same, effect_concat, aside.moved_eq, aside.receiver, Effect.append_nothing, effect]
  case inr =>
    constructor
    case booked => exact receptions_concat ts _ _ ▸ booked.next step
    case intake =>
      have ⟨headers, data⟩ := booked.entered step
      rw [receptions_concat, intake_concat, intake]
      exact Intake.ext headers.symm data.symm
    case effect =>
      have ⟨gain, gained, moved⟩ := booked.gained step
      rw [receptions_concat, effect_concat, gained, Effect.append_assoc, moved,
        ← Effect.append_assoc, effect]

theorem Counted.dropped_eq (h : Counted ts) (dispatched : Dispatched routes ts n) :
    tally .droppedChunks (ts.flatMap (·.2.notes)) =
      ((receptions ts).flatMap (Reception.dropped routes)).length := by
  have split := Reception.effects_data_length routes (receptions ts)
  have counted := h.droppedChunks
  simp only [dispatched.intake, Intake.of] at counted
  rw [← dispatched.effect] at split
  simp only [Effect.append_eq, Receiver.Phase.pending_data, List.append_nil] at split
  omega

theorem Dispatched.start {c : Config} (h : Network.create c = .ok n) :
    Dispatched c.routes [] n := by
  have ⟨_, _, h⟩ := exists_of_bind_eq_ok h
  cases h
  exact ⟨.idle nofun, rfl, rfl⟩

end Frame

namespace Interface

variable {c : Config} {x x₀ : Interface} {cs : History}

theorem stats_of_create (hc : create c = .ok x₀) : x₀.ledger.stats = .zero := by
  have ⟨_, _, h⟩ := exists_of_bind_eq_ok hc
  have ⟨_, _, h⟩ := exists_of_bind_eq_ok h
  have ⟨_, hl, h⟩ := exists_of_bind_eq_ok h
  cases h
  exact Ledger.stats_of_create (of_mapError_eq_ok hl)

theorem dispatch_of_run (hc : create c = .ok x₀) (run : Run tick .any x₀ cs x) :
    Frame.Dispatched c.routes (staging.marked cs) x.net ∧ Frame.Counted (staging.marked cs) :=
  staging.invariant_of_run
    (P := fun ts x => Frame.Dispatched c.routes ts x.net ∧ Frame.Counted ts)
    (Q := fun ts f => Frame.Dispatched c.routes ts f.net ∧ Frame.Counted ts) run
    ⟨.start (network_of_create hc), rfl, rfl, rfl, rfl⟩ (fun _ h => h)
    (fun hm hs ⟨dispatched, counted⟩ =>
      have step := Frame.step_of_mem_stages hm hs
      ⟨dispatched.turn step, counted.turn step⟩) id

-- What becomes of a datagram is settled by its header, by whether the interface was enabled when
-- the header was taken, and by its chunks, which are those up to the next end mark. All of it has
-- gone out, in the order of the datagrams, but for a header that has just been taken, and that goes
-- out before a chunk of its datagram is taken. So it is the same in any two runs with the same
-- routes in which the same is taken. The counters agree.
theorem received_of_run (hc : create c = .ok x₀) (run : Run tick .any x₀ cs x) :
    let ts := staging.marked cs
    let rs := Frame.receptions ts
    let phase := x.net.receiver.phase
    let o := Frame.effect ts
    Frame.intake ts = .of rs ∧
    Framed Reception.data (phase = .readHeader) rs ∧
    o ++ phase.pending = Reception.effects c.routes rs ∧
    (∀ sockets, phase = .forwardHeader sockets → ∃ done, rs = done ++ [⟨true, sockets, []⟩]) ∧
    x.ledger.stats.get .forwardedStreams = .ofNat o.headers.length ∧
    x.ledger.stats.get .forwardedChunks = .ofNat o.data.length ∧
    x.ledger.stats.get .droppedChunks =
      .ofNat (rs.flatMap (Reception.dropped c.routes)).length ∧
    x.ledger.stats.get .controlRecords = .ofNat o.requests.length ∧
    ∀ (c' : Config) (x₀' x' : Interface) (cs' : History), c'.routes = c.routes →
      create c' = .ok x₀' → Run tick .any x₀' cs' x' →
      Frame.intake (staging.marked cs') = Frame.intake ts →
      Frame.effect (staging.marked cs') ++ x'.net.receiver.phase.pending = o ++ phase.pending := by
  intro ts rs phase o
  have ⟨dispatched, counted⟩ := dispatch_of_run hc run
  have ⟨booked, intake, effect⟩ := dispatched
  have stats := Ledger.stats_of_run (fun h => (cycle_of_tick h).right) (stats_of_create hc) run
  simp only [stats, staging.notes_eq_of_run run]
  refine ⟨intake, booked.framed, effect, ?pending,
    congrArg _ counted.forwardedStreams, congrArg _ counted.forwardedChunks, ?dropped,
    congrArg _ counted.controlRecords, fun c' x₀' x' cs' same hc' run' taken => ?alike⟩
  case pending =>
    intro sockets hp
    obtain ⟨done, he, _⟩ := booked.exists_header hp
    exact ⟨done, he⟩
  case dropped => exact congrArg _ (counted.dropped_eq dispatched)
  case alike =>
    have ⟨⟨booked', intake', effect'⟩, _⟩ := dispatch_of_run hc' run'
    have receptions := Intake.eq_of_eq booked'.framed.dropLast booked.framed.dropLast
      (intake'.symm.trans (taken.trans intake))
    rw [effect, effect', same, receptions]

-- A datagram of nine bytes is handed on, and another one asks for two bytes. In the second run the
-- chunks arrive later, when the interface is disabled already.
theorem received_of_late_chunks :
    let client : Socket := ⟨1, 7⟩
    let test : Socket := ⟨2, ListenPort.transmitTest⟩
    ∃ x₀ cs cs' x x', create { Config.standard with streamDepth := 1 } = .ok x₀ ∧
      Run tick .any x₀ cs x ∧ Run tick .any x₀ cs' x' ∧ cs.length = 6 ∧ cs'.length = 10 ∧
      Frame.effect (staging.marked cs') = Frame.effect (staging.marked cs) ∧
      (Frame.effect (staging.marked cs')).data = Chunk.splice (.replicate 9 1) ∧
      (Frame.effect (staging.marked cs')).requests = [⟨⟨test, client⟩, 2⟩] ∧
      x'.ledger.stats.get .controlRecords = 1 := by
  intro client test
  let server : Socket := ⟨2, 80⟩
  let intake : Intake := ⟨[(true, ⟨client, server⟩), (true, ⟨client, test⟩)],
    Chunk.splice (.replicate 9 1) ++ [.ofBytes [0, 2] true]⟩
  have ⟨x₀, cs, x, hc, run, length, hp, same, data, requests⟩ : ∃ x₀ cs x,
      create { Config.standard with streamDepth := 1 } = .ok x₀ ∧ Run tick .any x₀ cs x ∧
      cs.length = 6 ∧ x.net.receiver.phase = .readHeader ∧
      Frame.intake (staging.marked cs) = intake ∧
      (Frame.effect (staging.marked cs)).data = Chunk.splice (.replicate 9 1) ∧
      (Frame.effect (staging.marked cs)).requests = [⟨⟨test, client⟩, 2⟩] :=
    Run.exists_of_create
      (arrivals [{ headers := [⟨client, server⟩] }, {},
        { data := [.ofBytes (.replicate 8 1) false] }, { data := [.ofBytes [1] true] },
        { headers := [⟨client, test⟩] }, { data := [.ofBytes [0, 2] true] }])
      (by decide +kernel)
  have ⟨x₀', cs', x', hc', run', length', hp', same'⟩ : ∃ x₀ cs x,
      create { Config.standard with streamDepth := 1 } = .ok x₀ ∧ Run tick .any x₀ cs x ∧
      cs.length = 10 ∧ x.net.receiver.phase = .readHeader ∧
      Frame.intake (staging.marked cs) = intake :=
    Run.exists_of_create
      (arrivals [{ headers := [⟨client, server⟩] }, {}, {},
        { enable := false, data := [.ofBytes (.replicate 8 1) false] }, {},
        { enable := false, data := [.ofBytes [1] true] }, {}, { headers := [⟨client, test⟩] }, {},
        { enable := false, data := [.ofBytes [0, 2] true] }])
      (by decide +kernel)
  cases hc.symm.trans hc'
  have ⟨_, _, _, _, _, _, _, _, alike⟩ := received_of_run hc run
  have effect : Frame.effect (staging.marked cs') = Frame.effect (staging.marked cs) := by
    have := alike _ x₀ x' cs' rfl hc' run' (same'.trans same.symm)
    simpa [hp, hp', Receiver.Phase.pending] using this
  have ⟨_, _, _, _, _, _, _, counted, _⟩ := received_of_run hc' run'
  refine ⟨x₀, cs, cs', x, x', hc, run, run', length, length', effect, effect ▸ data,
    effect ▸ requests, ?_⟩
  rw [counted, effect, requests]
  rfl

end Interface

end ShellInterface.Udp
