import ShellInterface.Proofs.Run
import ShellInterface.Tcp.Interface

namespace ShellInterface.Tcp

namespace Frame

section Streams

variable (f : Frame)

def interruptLinks : Interrupts.Links where
  requests      := f.o.readRequests
  commands      := f.net.inner.commands
  notifications := f.i.notifications
  occupancy     := f.net.occupancy

def afterInterrupts (interrupts : Interrupts) (l : Interrupts.Links) : Frame where
  net := { f.net with
    interrupts
    occupancy := l.occupancy
    inner := { f.net.inner with commands := l.commands } }
  i := { f.i with notifications := l.notifications }
  o := { f.o with readRequests := l.requests }

def bufferLinks : InputBuffer.Links where
  data           := f.i.data
  sessions       := f.i.sessions
  buffer         := f.net.inner.buffer
  bufferSessions := f.net.inner.sessions
  enqueued       := f.net.inner.enqueued

def afterBuffer (l : InputBuffer.Links) : Frame :=
  { f with
    net := { f.net with
      inner := { f.net.inner with
        buffer := l.buffer
        sessions := l.bufferSessions
        enqueued := l.enqueued } }
    i := { f.i with data := l.data, sessions := l.sessions } }

def afterTracker (occupancy : Occupancy) (enqueued dequeued : Fifo Unit) : Frame :=
  { f with net := { f.net with occupancy, inner := { f.net.inner with enqueued, dequeued } } }

def receiverLinks : Receiver.Links where
  commands    := f.net.inner.commands
  sessions    := f.net.inner.sessions
  data        := f.net.inner.buffer
  appSessions := f.o.appSessions
  appLengths  := f.o.appLengths
  appData     := f.o.appData
  records     := f.net.inner.records
  dequeued    := f.net.inner.dequeued

def afterReceiver (receiver : Receiver) (l : Receiver.Links) : Frame :=
  { f with
    net := { f.net with
      receiver
      inner := { f.net.inner with
        commands := l.commands
        sessions := l.sessions
        buffer := l.data
        records := l.records
        dequeued := l.dequeued } }
    o := { f.o with
      appSessions := l.appSessions
      appLengths := l.appLengths
      appData := l.appData } }

end Streams

inductive Step (enable : Bool) (f : Frame) : List Note → Frame → Prop
  | listen {ns listener l}
      (ticked : f.net.listener.tick enable ⟨f.o.listenRequests, f.i.listenReplies⟩ =
        ⟨ns, .ok (listener, l)⟩) :
      Step enable f ns {
        net := { f.net with listener }
        i := { f.i with listenReplies := l.replies }
        o := { f.o with listenRequests := l.requests } }
  | connect {ns connector l}
      (ticked : f.net.connector.tick enable ⟨f.net.inner.records, f.i.openReplies,
        f.o.openRequests, f.o.closeRequests, f.net.inner.testRequests⟩ =
        ⟨ns, .ok (connector, l)⟩) :
      Step enable f ns {
        net := { f.net with
          connector
          inner := { f.net.inner with records := l.records, testRequests := l.testRequests } }
        i := { f.i with openReplies := l.openReplies }
        o := { f.o with openRequests := l.openRequests, closeRequests := l.closeRequests } }
  | interrupt {ns interrupts l}
      (ticked : f.net.interrupts.tick f.interruptLinks = ⟨ns, .ok (interrupts, l)⟩) :
      Step enable f ns (f.afterInterrupts interrupts l)
  | buffer {l} (ticked : InputBuffer.tick f.bufferLinks = .ok l) :
      Step enable f [] (f.afterBuffer l)
  | track {occupancy error enqueued dequeued}
      (ticked : f.net.occupancy.tick f.net.inner.enqueued f.net.inner.dequeued =
        ((occupancy, error), enqueued, dequeued)) :
      Step enable f (error.toList.map fun e => .fault InputBuffer.origin (.inputBuffer e))
        (f.afterTracker occupancy enqueued dequeued)
  | receive {ns receiver l}
      (ticked : f.net.receiver.tick enable f.receiverLinks = ⟨ns, .ok (receiver, l)⟩) :
      Step enable f ns (f.afterReceiver receiver l)
  | transmit {ns transmitter l}
      (ticked : f.net.transmitter.tick enable ⟨f.i.appRequests, f.i.appData,
        f.net.inner.testRequests, f.i.sendReplies, f.o.sendRequests, f.o.data⟩ =
        ⟨ns, .ok (transmitter, l)⟩) :
      Step enable f ns {
        net := { f.net with
          transmitter
          inner := { f.net.inner with testRequests := l.testRequests } }
        i := { f.i with
          appRequests := l.appRequests, appData := l.appData, sendReplies := l.replies }
        o := { f.o with sendRequests := l.requests, data := l.data } }

variable {enable : Bool} {f f' : Frame} {ns : List Note}

theorem step_of_listen (h : f.listen enable = ⟨ns, .ok f'⟩) : Step enable f ns f' := by
  obtain ⟨ms, ⟨_, _⟩, _, ht, hk, rfl⟩ := Traced.bind_eq_ok.mp h
  cases hk
  simpa using Step.listen ht

theorem step_of_connect (h : f.connect enable = ⟨ns, .ok f'⟩) : Step enable f ns f' := by
  obtain ⟨_, ⟨_, _⟩, _, ht, hk, rfl⟩ := Traced.bind_eq_ok.mp h
  cases hk
  simpa using Step.connect ht

theorem step_of_interrupt (h : f.interrupt = ⟨ns, .ok f'⟩) : Step enable f ns f' := by
  obtain ⟨_, ⟨_, _⟩, _, ht, hk, rfl⟩ := Traced.bind_eq_ok.mp h
  cases hk
  rw [List.append_nil]
  exact .interrupt ht

theorem step_of_buffer (h : f.buffer = ⟨ns, .ok f'⟩) : Step enable f ns f' := by
  have ⟨_, ht, hk⟩ := Traced.liftM_stream_bind_eq_ok.mp h
  cases hk
  exact .buffer ht

theorem step_of_track (h : f.track = ⟨ns, .ok f'⟩) : Step enable f ns f' := by
  rcases ht : f.net.occupancy.tick f.net.inner.enqueued f.net.inner.dequeued with
    ⟨⟨occupancy, _ | e⟩, enqueued, dequeued⟩
  all_goals
    simp only [track, ht] at h
    cases h
    exact .track ht

theorem step_of_receive (h : f.receive enable = ⟨ns, .ok f'⟩) : Step enable f ns f' := by
  obtain ⟨_, ⟨_, _⟩, _, ht, hk, rfl⟩ := Traced.bind_eq_ok.mp h
  cases hk
  rw [List.append_nil]
  exact .receive ht

theorem step_of_transmit (h : f.transmit enable = ⟨ns, .ok f'⟩) : Step enable f ns f' := by
  obtain ⟨_, ⟨_, _⟩, _, ht, hk, rfl⟩ := Traced.bind_eq_ok.mp h
  cases hk
  simpa using Step.transmit ht

def stages (enable : Bool) : List (Frame → Traced Frame) :=
  [listen enable, connect enable, interrupt, buffer, track, receive enable, transmit enable]

theorem step_of_mem_stages {act : Frame → Traced Frame} (hm : act ∈ stages enable)
    (h : act f = ⟨ns, .ok f'⟩) : Step enable f ns f' := by
  simp only [stages, List.mem_cons, List.not_mem_nil, or_false] at hm
  obtain rfl | rfl | rfl | rfl | rfl | rfl | rfl := hm
  · exact step_of_listen h
  · exact step_of_connect h
  · exact step_of_interrupt h
  · exact step_of_buffer h
  · exact step_of_track h
  · exact step_of_receive h
  · exact step_of_transmit h

structure Turn where
  before : Frame
  notes : List Note
  after : Frame

def faults (ts : List Turn) : List Fault :=
  ts.flatMap fun t => t.notes.filterMap Note.fault?

@[simp]
theorem faults_concat (ts : List Turn) (t : Turn) :
    faults (ts ++ [t]) = faults ts ++ t.notes.filterMap Note.fault? := by
  simp [faults]

def turns : List (Frame → Traced Frame) → Frame → List Turn
  | [],          _ => []
  | act :: acts, f =>
    match act f with
    | ⟨ns, .ok f'⟩   => ⟨f, ns, f'⟩ :: turns acts f'
    | ⟨_, .error _⟩  => []

theorem cycle_eq_foldlM (enable : Bool) (f : Frame) :
    f.cycle enable = (stages enable).foldlM (fun f act => act f) f := by
  simp only [cycle, stages, List.foldlM_cons, List.foldlM_nil, bind_pure, bind_assoc]

theorem turns_induction {acts : List (Frame → Traced Frame)} {P : List Turn → Frame → Prop}
    (step : ∀ act ∈ acts, ∀ {ts f ns f'}, act f = ⟨ns, .ok f'⟩ → P ts f →
      P (ts ++ [⟨f, ns, f'⟩]) f')
    {ts : List Turn} (h : acts.foldlM (fun f act => act f) f = ⟨ns, .ok f'⟩) (hp : P ts f) :
    P (ts ++ turns acts f) f' := by
  induction acts generalizing f ns ts
  case nil =>
    cases h
    simpa [turns] using hp
  case cons act acts ih =>
    obtain ⟨ms, f₁, ks, ha, hk, rfl⟩ := Traced.bind_eq_ok.mp h
    have hp := step act List.mem_cons_self ha hp
    simpa [turns, ha] using ih (fun act hm => step act (List.mem_cons_of_mem _ hm)) hk hp

theorem notes_eq_flatMap_turns {acts : List (Frame → Traced Frame)}
    (h : acts.foldlM (fun f act => act f) f = ⟨ns, .ok f'⟩) :
    ns = (turns acts f).flatMap Turn.notes := by
  induction acts generalizing f ns
  case nil =>
    cases h
    rfl
  case cons act acts ih =>
    obtain ⟨ms, f₁, ks, ha, hk, rfl⟩ := Traced.bind_eq_ok.mp h
    simp [turns, ha, ← ih hk]

end Frame

namespace Interface

def tick (x : Interface) (enable : Bool) (l : Ingress × Egress) :
    Traced (Interface × Ingress × Egress) :=
  x.step enable l.1 l.2

abbrev History := List (Cycle Interface Bool (Ingress × Egress))

def entry (c : Cycle Interface Bool (Ingress × Egress)) : Frame :=
  ⟨c.source.net, c.before.1, c.before.2⟩

def turns (cs : History) : List Frame.Turn :=
  cs.flatMap fun c => Frame.turns (Frame.stages c.input) (entry c)

theorem turns_append (cs ds : History) : turns (cs ++ ds) = turns cs ++ turns ds := by
  simp [turns]

theorem turns_concat (cs : History) (c : Cycle Interface Bool (Ingress × Egress)) :
    turns (cs ++ [c]) = turns cs ++ Frame.turns (Frame.stages c.input) (entry c) := by
  simp [turns]

variable {x x' : Interface} {enable : Bool} {l l' : Ingress × Egress} {ns : List Note}

theorem cycle_of_tick (h : x.tick enable l = ⟨ns, .ok (x', l')⟩) :
    Frame.cycle enable ⟨x.net, l.1, l.2⟩ = ⟨ns, .ok ⟨x'.net, l'.1, l'.2⟩⟩ := by
  simp only [tick, step, Traced.mk.injEq] at h
  rcases hc : Frame.cycle enable ⟨x.net, l.1, l.2⟩ with ⟨ms, _ | f⟩ <;> rw [hc] at h
  case error => cases h.right
  case ok =>
    obtain ⟨rfl, h⟩ := h
    cases hl : x.ledger.close ms <;> rw [hl] at h <;> cases h
    rfl

variable {env : Surroundings Interface Bool (Ingress × Egress)} {x₀ : Interface} {cs : History}

theorem faults_eq_of_run (run : Run tick env x₀ cs x) : faults cs = Frame.faults (turns cs) := by
  induction run
  case start => rfl
  case next ticked ih =>
    have h := cycle_of_tick ticked
    rw [Frame.cycle_eq_foldlM] at h
    simp [ih, turns_concat, Frame.faults, entry, Frame.notes_eq_flatMap_turns h,
      List.filterMap_flatMap]

theorem invariant_of_run {P : List Frame.Turn → Network → Prop}
    {Q : Bool → List Frame.Turn → Frame → Prop} (run : Run tick env x₀ cs x) (start : P [] x₀.net)
    (enter : ∀ {cs} {x : Interface} {enable l}, env cs enable l → P (turns cs) x.net →
      Q enable (turns cs) ⟨x.net, l.1, l.2⟩)
    (turn : ∀ {enable ts f ns f'}, Frame.Step enable f ns f' → Q enable ts f →
      Q enable (ts ++ [⟨f, ns, f'⟩]) f')
    (leave : ∀ {enable ts f}, Q enable ts f → P ts f.net) : P (turns cs) x.net := by
  induction run
  case start => exact start
  case next allowed ticked ih =>
    have h := cycle_of_tick ticked
    rw [Frame.cycle_eq_foldlM] at h
    rw [turns_concat]
    refine leave (Frame.turns_induction (fun act hm _ _ _ _ ha hq => ?_) h (enter allowed ih))
    exact turn (Frame.step_of_mem_stages hm ha) hq

def marked (cs : History) : List (Bool × Frame.Turn) :=
  cs.flatMap fun c => (Frame.turns (Frame.stages c.input) (entry c)).map (c.input, ·)

theorem marked_concat (cs : History) (c : Cycle Interface Bool (Ingress × Egress)) :
    marked (cs ++ [c]) =
      marked cs ++ (Frame.turns (Frame.stages c.input) (entry c)).map (c.input, ·) := by
  simp [marked]

theorem marked_map_snd (cs : History) : (marked cs).map Prod.snd = turns cs := by
  simp [marked, turns, List.map_flatMap, Function.comp_def]

theorem marked_invariant_of_run {P : List (Bool × Frame.Turn) → Network → Prop}
    (run : Run tick env x₀ cs x) (start : P [] x₀.net)
    (turn : ∀ {enable ts f ns f'}, Frame.Step enable f ns f' → P ts f.net →
      P (ts ++ [(enable, ⟨f, ns, f'⟩)]) f'.net) : P (marked cs) x.net := by
  induction run
  case start => exact start
  case next cs x enable _ _ _ _ _ _ ticked ih =>
    have h := cycle_of_tick ticked
    rw [Frame.cycle_eq_foldlM] at h
    have ih : P (marked cs ++ ([] : List Frame.Turn).map (enable, ·)) x.net := by simpa using ih
    have preserved := Frame.turns_induction
      (P := fun ts f => P (marked cs ++ ts.map (enable, ·)) f.net)
      (fun act hm _ _ _ _ ha hp => by
        simpa using turn (Frame.step_of_mem_stages hm ha) hp) h ih
    simpa [marked, entry] using preserved

def small : Config :=
  { Config.standard with
    maxSessions       := 1
    inputBufferChunks := 2
    streamDepth       := 1
    listenPorts       := ⟨[], by decide⟩ }

def arrivals (arrived : List (List Notification × List Chunk × List SessionId)) :
    List (Bool × Ingress × Egress) :=
  let stream {α : Type} : Fifo α := ⟨"stream", 1, [], Nat.zero_lt_one, Nat.zero_le _⟩
  arrived.map fun (notifications, chunks, sessions) =>
    (true,
      ⟨stream.fill notifications, stream.fill chunks, stream.fill sessions, stream, stream, stream,
        stream, stream⟩,
      ⟨stream, stream, stream, stream, stream, stream, stream, stream, stream⟩)

end Interface

end ShellInterface.Tcp
