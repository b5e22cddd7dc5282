import ShellInterface.Proofs.Tcp.Conservation
import ShellInterface.Proofs.Tcp.Credit
import ShellInterface.Proofs.Tcp.Streams

namespace ShellInterface

theorem Fault.misfit_of_reporter {f : Fault} (hr : f.reporter ≠ .receiver)
    (hb : f.reporter ≠ .buffer) : f.misfit = false := by
  cases f <;> simp_all [misfit, reporter]

theorem Fault.reporter_ne_buffer {f : Fault} (h : f.misfit = false) : f.reporter ≠ .buffer := by
  cases f <;> simp_all [misfit, reporter]

namespace Tcp

open Tcp.Frame (Turn)

-- An engine that answers each request, given how many there were before, with as many bytes as were
-- asked for.
structure Engine where
  answer : Nat → ReadRequest → List Chunk
  carries : ∀ k r, r.length ≠ 0 → Carries r.length.toNat (answer k r)

namespace Engine

def zeros : Engine where
  answer _ r  := Chunk.splice (List.replicate r.length.toNat 0)
  carries _ r hr := by
    have hpos : r.length.toNat ≠ 0 := fun h => hr (UInt16.toNat_inj.mp h)
    have hne : List.replicate r.length.toNat (0 : UInt8) ≠ [] := by simpa using hpos
    simpa using Carries.splice hne

variable (engine : Engine) (cmds : List ForwardCommand) (rs : List ReadRequest)

def answers : List Chunk :=
  (rs.mapIdx engine.answer).flatten

def streams : List Stream :=
  cmds.mapIdx fun k cmd => (cmd, engine.answer k cmd.request)

theorem answers_append (qs : List ReadRequest) :
    engine.answers rs <+: engine.answers (rs ++ qs) := by
  simp [answers, List.mapIdx_append]

theorem streams_fst : (engine.streams cmds).map Prod.fst = cmds := by
  simp [streams, List.mapIdx_eq_zipIdx_map, Function.comp_def]

theorem exists_streams_append (issued : List ForwardCommand) :
    ∃ more, engine.streams (cmds ++ issued) = engine.streams cmds ++ more ∧
      more.map Prod.fst = issued := by
  refine ⟨_, List.mapIdx_append, ?_⟩
  simp [List.mapIdx_eq_zipIdx_map, Function.comp_def]

theorem streams_chunks :
    (engine.streams cmds).flatMap Prod.snd = engine.answers (cmds.map ForwardCommand.request) := by
  simp [streams, answers, List.flatMap_def, List.mapIdx_eq_zipIdx_map, List.zipIdx_map,
    Function.comp_def]

theorem streams_sessions : (engine.streams cmds).map (·.1.session) = cmds.map (·.session) := by
  conv => rhs; rw [← streams_fst engine cmds, List.map_map]
  rfl

variable {engine cmds}

theorem streams_carries (h : ∀ cmd ∈ cmds, cmd.length ≠ 0) :
    ∀ s ∈ engine.streams cmds, Carries s.1.length.toNat s.2 := by
  intro s hs
  obtain ⟨k, hk, rfl⟩ := List.mem_mapIdx.mp hs
  exact engine.carries k cmds[k].request (h _ (List.getElem_mem hk))

theorem answers_length (h : ∀ cmd ∈ cmds, cmd.length ≠ 0) :
    (engine.answers (cmds.map ForwardCommand.request)).length =
      (cmds.map (slots ·.length.toNat)).sum := by
  have hslots : (engine.streams cmds).map (·.2.length) =
      (engine.streams cmds).map (slots ·.1.length.toNat) :=
    List.map_congr_left fun s hs => (streams_carries h s hs).length_eq
  rw [← streams_chunks, List.length_flatMap, hslots]
  conv => rhs; rw [← streams_fst engine cmds, List.map_map]
  rfl

end Engine

namespace Scheduler

variable {s s' : Scheduler} {granted : Bool} {t t' : SessionTable} {o o' : Occupancy}
  {l l' : Links} {ns : List Note}

theorem Step.issues (h : Step granted t o l s ns s' t' o' l') (ha : s.Aligned) :
    l'.commands.items = l.commands.items ++ l.commands.added l'.commands ∧
      ∀ cmd ∈ l.commands.added l'.commands, cmd.length ≠ 0 := by
  refine ⟨h.commands_written, ?_⟩
  cases h
  case emit hp _ hc => simp [Fifo.added_of_write hc, ha _ _ hp]
  all_goals simp

theorem Step.promises (h : Step granted t o l s ns s' t' o' l') :
    o'.reserved = o.reserved + ((s.phase.taken s'.phase).map (slots ·.length.toNat)).sum := by
  cases h
  case take hp _ _ _ _ _ _ ho => simp [hp, ho]
  all_goals simp_all

end Scheduler

theorem Receiver.Step.commands_added {enable : Bool} {r r' : Receiver} {l l' : Links}
    {ns : List Note} (h : Step enable r l ns r' l') : l.commands.added l'.commands = [] := by
  cases h <;> simp

namespace Frame

def requests (ts : List Turn) : List ReadRequest :=
  written (·.before.o.readRequests) (·.after.o.readRequests) ts

def commands (ts : List Turn) : List ForwardCommand :=
  written (·.before.net.inner.commands) (·.after.net.inner.commands) ts

def sessions (ts : List Turn) : List SessionId :=
  consumed (·.before.i.sessions) (·.after.i.sessions) ts

def chunks (ts : List Turn) : List Chunk :=
  consumed (·.before.i.data) (·.after.i.data) ts

def delivered (ts : List Turn) : List Delivery :=
  ts.flatMap fun t => Receiver.deliveries t.before.receiverLinks t.after.receiverLinks

section Concat

variable (ts : List Turn) (t : Turn)

@[simp]
theorem requests_concat : requests (ts ++ [t]) =
    requests ts ++ t.before.o.readRequests.added t.after.o.readRequests := by
  simp [requests]

@[simp]
theorem commands_concat : commands (ts ++ [t]) =
    commands ts ++ t.before.net.inner.commands.added t.after.net.inner.commands := by
  simp [commands]

@[simp]
theorem sessions_concat : sessions (ts ++ [t]) =
    sessions ts ++ t.before.i.sessions.taken t.after.i.sessions := by
  simp [sessions]

@[simp]
theorem chunks_concat : chunks (ts ++ [t]) =
    chunks ts ++ t.before.i.data.taken t.after.i.data := by
  simp [chunks]

@[simp]
theorem delivered_concat : delivered (ts ++ [t]) =
    delivered ts ++ Receiver.deliveries t.before.receiverLinks t.after.receiverLinks := by
  simp [delivered]

end Concat

-- What has arrived and what was taken in before is the first part of the answers to the requests.
structure Fed (answers : List ReadRequest → List Chunk) (ts : List Turn) (i : Ingress) : Prop where
  sessions : sessions ts ++ i.sessions.items <+: (requests ts).map ReadRequest.session
  chunks   : chunks ts ++ i.data.items <+: answers (requests ts)

instance (answers : List ReadRequest → List Chunk) (ts : List Turn) (i : Ingress) :
    Decidable (Fed answers ts i) :=
  decidable_of_iff (_ ∧ _) ⟨fun h => ⟨h.left, h.right⟩, fun h => ⟨h.sessions, h.chunks⟩⟩

-- Each request has its command, and slots are reserved for the chunks that are still to come.
structure Promised (ts : List Turn) (n : Network) : Prop where
  scheduler : n.interrupts.scheduler.Aligned
  requests  : requests ts = (commands ts).map ForwardCommand.request
  nonempty  : ∀ cmd ∈ commands ts, cmd.length ≠ 0
  promised  : n.occupancy.reserved + (chunks ts).length =
    ((commands ts ++ n.interrupts.scheduler.phase.held).map (slots ·.length.toNat)).sum +
      n.inner.enqueued.items.length

structure Served (engine : Engine) (ts : List Turn) (n : Network) : Prop extends Promised ts n where
  receiver : Receiver.Aligned (engine.streams (commands ts)) (sessions ts) (chunks ts)
    (delivered ts) n.receiver n.inner.commands.items n.inner.sessions.items n.inner.buffer.items

def path (f : Frame) :=
  (f.net.interrupts, f.net.occupancy, f.net.receiver, f.o.readRequests, f.i.sessions, f.i.data,
    f.net.inner.commands, f.net.inner.sessions, f.net.inner.buffer, f.net.inner.enqueued,
    f.o.appSessions, f.o.appLengths, f.o.appData)

variable {engine : Engine} {ts : List Turn} {f f' : Frame} {ns : List Note}

theorem Fed.turn {enable : Bool} {answers : List ReadRequest → List Chunk}
    (step : Step enable f ns f') (h : Fed answers ts f.i)
    (append : ∀ rs qs, answers rs <+: answers (rs ++ qs)) :
    Fed answers (ts ++ [⟨f, ns, f'⟩]) f'.i := by
  have ⟨hs, hd⟩ := h
  cases step
  case interrupt =>
    refine ⟨?_, ?_⟩
    · simpa [afterInterrupts] using hs.trans (List.prefix_append _ _)
    · simpa [afterInterrupts] using hd.trans (append _ _)
  case buffer ticked =>
    have ⟨hi, _, hj, _, _⟩ := InputBuffer.moved_of_tick ticked
    simp only [bufferLinks] at hi hj
    rw [hi, ← List.append_assoc] at hs
    rw [hj, ← List.append_assoc] at hd
    exact ⟨by simpa [afterBuffer] using hs, by simpa [afterBuffer] using hd⟩
  case track   => exact ⟨by simpa [afterTracker] using hs, by simpa [afterTracker] using hd⟩
  case receive => exact ⟨by simpa [afterReceiver] using hs, by simpa [afterReceiver] using hd⟩
  all_goals exact ⟨by simpa using hs, by simpa using hd⟩

namespace Promised

theorem pass (h : Promised ts f.net) (hx : f'.net.interrupts = f.net.interrupts)
    (ho : f'.net.occupancy = f.net.occupancy) (hq : f'.o.readRequests = f.o.readRequests)
    (hd : f'.i.data = f.i.data) (he : f'.net.inner.enqueued = f.net.inner.enqueued)
    (hc : f.net.inner.commands.added f'.net.inner.commands = []) :
    Promised (ts ++ [⟨f, ns, f'⟩]) f'.net where
  scheduler := hx ▸ h.scheduler
  requests  := by simpa [hq, hc] using h.requests
  nonempty  := by simpa [hc] using h.nonempty
  promised  := by simpa [hx, ho, hd, he, hc] using h.promised

-- The scheduler promises slots to a request together with its command, and holds both until it
-- issues them.
theorem interrupt {interrupts : Interrupts} {l : Interrupts.Links} (h : Promised ts f.net)
    (ticked : f.net.interrupts.tick f.interruptLinks = ⟨ns, .ok (interrupts, l)⟩) :
    Promised (ts ++ [⟨f, ns, f.afterInterrupts interrupts l⟩])
      (f.afterInterrupts interrupts l).net := by
  have ⟨_, _, _, step⟩ := Interrupts.step_of_tick ticked
  replace step := step.scheduler
  have hrequests := step.requests_added h.scheduler
  have ⟨_, hnonempty⟩ := step.issues h.scheduler
  have hheld := congrArg (fun cmds => (cmds.map (slots ·.length.toNat)).sum) step.held_append
  have hpromised := step.promises
  exact {
    scheduler := step.preserves_aligned h.scheduler
    requests  := by
      rw [requests_concat, commands_concat, List.map_append, ← h.requests]
      exact congrArg _ hrequests
    nonempty  := by
      rw [commands_concat]
      exact List.forall_mem_append.mpr ⟨h.nonempty, hnonempty⟩
    promised  := by
      have := h.promised
      simp [afterInterrupts, interruptLinks] at *
      omega
  }

theorem buffer {l : InputBuffer.Links} (h : Promised ts f.net)
    (ticked : InputBuffer.tick f.bufferLinks = .ok l) :
    Promised (ts ++ [⟨f, ns, f.afterBuffer l⟩]) (f.afterBuffer l).net := by
  have ⟨_, _, _, _, he⟩ := InputBuffer.moved_of_tick ticked
  simp only [bufferLinks] at he
  exact {
    scheduler := h.scheduler
    requests  := by simpa [afterBuffer] using h.requests
    nonempty  := by simpa [afterBuffer] using h.nonempty
    promised  := by
      have := h.promised
      simp [afterBuffer] at *
      omega
  }

theorem track {occupancy : Occupancy} {enqueued dequeued : Fifo Unit}
    {error : Option OccupancyError} (h : Promised ts f.net)
    (reserved : f.net.inner.enqueued.items.length ≤ f.net.occupancy.reserved)
    (ticked : f.net.occupancy.tick f.net.inner.enqueued f.net.inner.dequeued =
      ((occupancy, error), enqueued, dequeued)) :
    Promised (ts ++ [⟨f, ns, f.afterTracker occupancy enqueued dequeued⟩])
      (f.afterTracker occupancy enqueued dequeued).net := by
  have htick := Occupancy.tick_reserved ticked
  have hsignals := Occupancy.tick_signals ticked
  exact {
    scheduler := h.scheduler
    requests  := by simpa [afterTracker] using h.requests
    nonempty  := by simpa [afterTracker] using h.nonempty
    promised  := by
      have := h.promised
      simp [afterTracker] at *
      omega
  }

theorem turn {enable : Bool} (step : Step enable f ns f') (h : Promised ts f.net)
    (reserved : f.net.inner.enqueued.items.length ≤ f.net.occupancy.reserved) :
    Promised (ts ++ [⟨f, ns, f'⟩]) f'.net := by
  cases step
  case interrupt ticked => exact h.interrupt ticked
  case buffer ticked    => exact h.buffer ticked
  case track ticked     => exact h.track reserved ticked
  case receive ticked   =>
    exact h.pass rfl rfl rfl rfl rfl (Receiver.step_of_tick ticked).commands_added
  all_goals exact h.pass rfl rfl rfl rfl rfl (Fifo.added_self _)

theorem enqueued_le {answers : List ReadRequest → List Chunk} (h : Promised ts f.net)
    (fed : Fed answers ts f.i)
    (bounded : (answers (Frame.requests ts)).length ≤
      ((Frame.requests ts).map (slots ·.length.toNat)).sum) :
    f.net.inner.enqueued.items.length ≤ f.net.occupancy.reserved := by
  have hchunks := ((List.prefix_append _ _).trans fed.chunks).length_le.trans bounded
  rw [h.requests, List.map_map] at hchunks
  have := h.promised
  simp only [List.map_append, List.sum_append] at this
  simp only [Function.comp_def, ForwardCommand.request] at hchunks
  omega

theorem start {c : Config} {n : Network} (h : Network.create c = .ok n) : Promised [] n := by
  have ⟨hx, ho, hi, _⟩ := Network.create_ok h
  have ⟨_, _, _, _, he, _⟩ := Inner.create_ok hi
  have ⟨_, ho⟩ := Occupancy.create_ok ho
  have lockstep := (Interrupts.Inv.start hx).lockstep
  have hheld : [] = n.interrupts.scheduler.phase.held := lockstep.taken
  refine ⟨lockstep.aligned, rfl, nofun, ?_⟩
  rw [ho, he, ← hheld]
  rfl

end Promised

theorem Served.pass (h : Served engine ts f.net) (hp : f'.path = f.path) :
    Served engine (ts ++ [⟨f, ns, f'⟩]) f'.net := by
  simp only [path, Prod.mk.injEq] at hp
  obtain ⟨hx, ho, hr, hq, his, hid, hc, hs, hb, he, ha, hl, hd⟩ := hp
  have promised : Promised (ts ++ [⟨f, ns, f'⟩]) f'.net :=
    h.toPromised.pass hx ho hq hid he (by simp [hc])
  exact {
    promised with
    receiver := by
      simpa [Receiver.deliveries, receiverLinks, hr, his, hid, hc, hs, hb, ha, hl, hd]
        using h.receiver
  }

theorem Served.interrupt {interrupts : Interrupts} {l : Interrupts.Links}
    (h : Served engine ts f.net)
    (ticked : f.net.interrupts.tick f.interruptLinks = ⟨ns, .ok (interrupts, l)⟩) :
    Served engine (ts ++ [⟨f, ns, f.afterInterrupts interrupts l⟩])
      (f.afterInterrupts interrupts l).net := by
  have ⟨_, _, _, step⟩ := Interrupts.step_of_tick ticked
  have ⟨hitems, _⟩ := step.scheduler.issues h.scheduler
  have promised := h.toPromised.interrupt ticked
  exact {
    promised with
    receiver := by
      have ⟨more, hmore, hissued⟩ := engine.exists_streams_append (Frame.commands ts)
        (f.net.inner.commands.added l.commands)
      have := h.receiver.issue more
      rw [hissued] at this
      simpa [afterInterrupts, interruptLinks, Receiver.deliveries, receiverLinks, hmore, hitems]
        using this
  }

theorem Served.buffer {l : InputBuffer.Links} (h : Served engine ts f.net)
    (ticked : InputBuffer.tick f.bufferLinks = .ok l) :
    Served engine (ts ++ [⟨f, ns, f.afterBuffer l⟩]) (f.afterBuffer l).net := by
  have ⟨_, hs, _, hb, _⟩ := InputBuffer.moved_of_tick ticked
  simp only [bufferLinks] at hs hb
  have promised : Promised (ts ++ [⟨f, ns, _⟩]) _ := h.toPromised.buffer ticked
  exact {
    promised with
    receiver := by
      have := h.receiver.arrive (f.i.sessions.taken l.sessions) (f.i.data.taken l.data)
      simpa [afterBuffer, Receiver.deliveries, receiverLinks, hs, hb] using this
  }

theorem Served.received_le (h : Served engine ts f.net) (fed : Fed engine.answers ts f.i) :
    f.net.inner.enqueued.items.length ≤ f.net.occupancy.reserved := by
  refine h.toPromised.enqueued_le fed (Nat.le_of_eq ?_)
  rw [h.requests, Engine.answers_length h.nonempty, List.map_map]
  rfl

theorem Served.track {occupancy : Occupancy} {enqueued dequeued : Fifo Unit}
    {error : Option OccupancyError} {capacity : Nat} (h : Served engine ts f.net)
    (fed : Fed engine.answers ts f.i) (credit : Credit capacity 0 f.net)
    (ticked : f.net.occupancy.tick f.net.inner.enqueued f.net.inner.dequeued =
      ((occupancy, error), enqueued, dequeued)) :
    error = none ∧ Served engine (ts ++ [⟨f, ns, f.afterTracker occupancy enqueued dequeued⟩])
      (f.afterTracker occupancy enqueued dequeued).net := by
  have hreserved := h.received_le fed
  have promised : Promised (ts ++ [⟨f, ns, _⟩]) _ := h.toPromised.track hreserved ticked
  refine ⟨(credit.track_of_reserved hreserved ticked).left, ?_⟩
  exact {
    promised with
    receiver := by simpa [afterTracker, Receiver.deliveries, receiverLinks] using h.receiver
  }

theorem Served.receive {receiver : Receiver} {l : Receiver.Links} (h : Served engine ts f.net)
    (fed : Fed engine.answers ts f.i)
    (ticked : f.net.receiver.tick true f.receiverLinks = ⟨ns, .ok (receiver, l)⟩) :
    Fits ns ∧ Served engine (ts ++ [⟨f, ns, f.afterReceiver receiver l⟩])
      (f.afterReceiver receiver l).net := by
  have step := Receiver.step_of_tick ticked
  have hcommands : f.net.inner.commands.added l.commands = [] := step.commands_added
  have promised := h.toPromised.turn (.receive ticked) (h.received_le fed)
  have hsessions : Frame.sessions ts <+:
      (engine.streams (Frame.commands ts)).map (·.1.session) := by
    rw [Engine.streams_sessions]
    have := (List.prefix_append _ _).trans fed.sessions
    simpa [h.requests, Function.comp_def, ForwardCommand.request] using this
  have hchunks : Frame.chunks ts <+: (engine.streams (Frame.commands ts)).flatMap Prod.snd := by
    rw [Engine.streams_chunks, ← h.requests]
    exact (List.prefix_append _ _).trans fed.chunks
  obtain ⟨fits, aligned⟩ := Receiver.Aligned.receive (l := f.receiverLinks) h.receiver
    (Engine.streams_carries h.nonempty) hsessions hchunks step
  refine ⟨fits, ?_⟩
  exact {
    promised with
    receiver := by
      simpa [afterReceiver, hcommands, Receiver.deliveries, receiverLinks] using aligned
  }

theorem fits_of_only {r : Reporter} (h : r.Only ns) (hr : r ≠ .receiver) (hb : r ≠ .buffer) :
    Fits ns := by
  intro f hf
  obtain rfl := h f hf
  exact Fault.misfit_of_reporter hr hb

theorem Served.turn {capacity : Nat} (step : Step true f ns f') (h : Served engine ts f.net)
    (fed : Fed engine.answers ts f.i) (credit : Credit capacity 0 f.net) :
    Fits ns ∧ Served engine (ts ++ [⟨f, ns, f'⟩]) f'.net := by
  cases step
  case listen ticked    =>
    exact ⟨fits_of_only ((Listener.only_tick _ _ _).of_eq ticked) nofun nofun, h.pass rfl⟩
  case connect ticked   =>
    exact ⟨fits_of_only ((Connector.only_tick _ _ _).of_eq ticked) nofun nofun, h.pass rfl⟩
  case interrupt ticked =>
    exact ⟨fits_of_only ((Interrupts.only_tick _ _).of_eq ticked) nofun nofun, h.interrupt ticked⟩
  case buffer ticked    => exact ⟨nofun, h.buffer ticked⟩
  case track ticked     =>
    obtain ⟨rfl, served⟩ := h.track fed credit ticked
    exact ⟨nofun, served⟩
  case receive ticked   => exact h.receive fed ticked
  case transmit ticked  =>
    exact ⟨fits_of_only ((Transmitter.only_tick _ _ _).of_eq ticked) nofun nofun, h.pass rfl⟩

structure Projected (ts : List Turn) : Prop where
  sessions : (delivered ts).filterMap Delivery.session? =
    written (·.before.o.appSessions) (·.after.o.appSessions) ts
  lengths  : (delivered ts).filterMap Delivery.length? =
    written (·.before.o.appLengths) (·.after.o.appLengths) ts
  chunks   : (delivered ts).filterMap Delivery.chunk? =
    written (·.before.o.appData) (·.after.o.appData) ts

theorem Projected.turn {enable : Bool} (step : Step enable f ns f') (h : Projected ts) :
    Projected (ts ++ [⟨f, ns, f'⟩]) := by
  have ⟨hs, hl, hd⟩ := h
  cases step
  case receive ticked =>
    have ⟨hs', hl', hd'⟩ := (Receiver.step_of_tick ticked).deliveries_eq
    constructor
    · simpa [afterReceiver, Receiver.deliveries, receiverLinks, hs] using hs'
    · simpa [afterReceiver, Receiver.deliveries, receiverLinks, hl] using hl'
    · simpa [afterReceiver, Receiver.deliveries, receiverLinks, hd] using hd'
  all_goals
    constructor <;>
      simpa [Receiver.deliveries, receiverLinks, afterInterrupts, afterBuffer, afterTracker]

structure Underway (engine : Engine) (capacity : Nat) (ts : List Turn) (n : Network) : Prop where
  served    : Served engine ts n
  safe      : Safe capacity ts n
  projected : Projected ts
  fits      : ∀ t ∈ ts, Fits t.notes

theorem Underway.credit {capacity : Nat} {n : Network} (h : Underway engine capacity ts n) :
    Credit capacity 0 n := by
  obtain ⟨overflows, credit, hf⟩ := h.safe
  have hnone : (faults ts).filter Reporter.buffer.reports = [] := by
    rw [List.filter_eq_nil_iff]
    intro f hm
    obtain ⟨t, ht, hm⟩ := List.mem_flatMap.mp hm
    simpa [Reporter.reports] using Fault.reporter_ne_buffer (h.fits t ht f hm)
  rw [hnone, eq_comm, List.replicate_eq_nil_iff] at hf
  exact hf ▸ credit

theorem Underway.turn {capacity : Nat} (step : Step true f ns f')
    (h : Underway engine capacity ts f.net) (fed : Fed engine.answers ts f.i) :
    Underway engine capacity (ts ++ [⟨f, ns, f'⟩]) f'.net := by
  have ⟨fits, served⟩ := h.served.turn step fed h.credit
  exact {
    served    := served
    safe      := h.safe.turn step
    projected := h.projected.turn step
    fits      := by simpa [or_imp, forall_and] using ⟨h.fits, fits⟩
  }

theorem Served.start {c : Config} {n : Network} (h : Network.create c = .ok n) :
    Served engine [] n := by
  have ⟨_, _, hi, hr, _⟩ := Network.create_ok h
  have ⟨_, hc, hs, hb, _, _⟩ := Inner.create_ok hi
  refine { Promised.start h with receiver := ?_ }
  rw [hr, hc, hs, hb]
  exact .initial

theorem Underway.start {c : Config} {n : Network} (h : Network.create c = .ok n) :
    Underway engine c.inputBufferChunks [] n where
  served    := .start h
  safe      := ⟨0, (Credit.start h).left, rfl⟩
  projected := ⟨rfl, rfl, rfl⟩
  fits      := by simp

end Frame

namespace Interface

def serving (engine : Engine) : Surroundings Interface Bool (Ingress × Egress) :=
  fun cs enable l => enable = true ∧ Frame.Fed engine.answers (turns cs) l.1

instance (engine : Engine) (cs : History) (enable : Bool) (l : Ingress × Egress) :
    Decidable (serving engine cs enable l) :=
  inferInstanceAs (Decidable (enable = true ∧ Frame.Fed engine.answers (turns cs) l.1))

variable {c : Config} {x x₀ : Interface} {cs : History} {engine : Engine}

theorem underway_of_run (hc : create c = .ok x₀) (run : Run tick (serving engine) x₀ cs x) :
    Frame.Underway engine c.inputBufferChunks (turns cs) x.net := by
  refine invariant_of_run (P := Frame.Underway engine c.inputBufferChunks)
    (Q := fun enable ts f => enable = true ∧ Frame.Fed engine.answers ts f.i ∧
      Frame.Underway engine c.inputBufferChunks ts f.net)
    run (.start (network_of_create hc)) ?enter ?turn ?leave
  case enter =>
    intro _ _ _ _ ⟨enabled, fed⟩ underway
    exact ⟨enabled, fed, underway⟩
  case turn =>
    rintro _ _ _ _ _ step ⟨rfl, fed, underway⟩
    exact ⟨rfl, fed.turn step engine.answers_append, underway.turn step fed⟩
  case leave => exact fun ⟨_, _, underway⟩ => underway

-- Requests and commands are issued together. What has reached the application is the first part of
-- the answers to those requests whose commands keep them, each with its header, as far as their
-- sessions have arrived. A chunk that was taken in is still in the buffer, was handed on with its
-- stream, or was dropped with its stream. The receive side finds no fault with what arrives, and
-- the buffer has room for it.
theorem delivered_of_run (hc : create c = .ok x₀) (run : Run tick (serving engine) x₀ cs x) :
    Frame.requests (turns cs) = (Frame.commands (turns cs)).map ForwardCommand.request ∧
    Frame.delivered (turns cs) <+:
      ((engine.streams (Frame.commands (turns cs))).take
        (Frame.sessions (turns cs)).length).flatMap deliver ∧
    (∃ taken, taken <+: (engine.streams (Frame.commands (turns cs))).flatMap tagged ∧
      Frame.chunks (turns cs) = taken.map Prod.snd ++ x.net.inner.buffer.items ∧
      (Frame.delivered (turns cs)).filterMap Delivery.chunk? =
        (taken.filter (·.1.route.action = .keep)).map Prod.snd) ∧
    Frame.Projected (turns cs) ∧
    ∀ f ∈ faults cs, f.misfit = false := by
  have ⟨served, _, projected, fits⟩ := underway_of_run hc run
  refine ⟨served.requests, served.receiver.delivered_prefix, served.receiver.exists_taken,
    projected, fun f hf => ?_⟩
  rw [faults_eq_of_run run] at hf
  have ⟨t, ht, hf⟩ := List.mem_flatMap.mp hf
  exact fits t ht f hf

theorem delivered_of_one_answer :
    ∃ x₀ cs x, create small = .ok x₀ ∧ Run tick (serving .zeros) x₀ cs x ∧
      Frame.delivered (turns cs) = [.header 0 3, .chunk (.ofBytes [0, 0, 0] true)] ∧
      Frame.delivered (turns cs) <+:
        ((Engine.zeros.streams (Frame.commands (turns cs))).take
          (Frame.sessions (turns cs)).length).flatMap deliver := by
  have ⟨x₀, cs, x, hc, run, hd⟩ : ∃ x₀ cs x, create small = .ok x₀ ∧
      Run tick (serving .zeros) x₀ cs x ∧
      Frame.delivered (turns cs) = [.header 0 3, .chunk (.ofBytes [0, 0, 0] true)] :=
    Run.exists_of_create
      (arrivals [([⟨0, 3, 0, 0, 80⟩], [], []), ([], [], []), ([], [], []), ([], [], []),
        ([], [], []), ([], [], []), ([], [.ofBytes [0, 0, 0] true], [0]), ([], [], []),
        ([], [], [])])
      (by decide +kernel)
  exact ⟨x₀, cs, x, hc, run, hd, (delivered_of_run hc run).right.left⟩

end Interface

end Tcp

end ShellInterface
