import ShellInterface.Proofs.Supply
import ShellInterface.Proofs.Tcp.Progress
import ShellInterface.Proofs.Tcp.Protocol

namespace ShellInterface.Tcp

open Tcp.Frame (Turn)

namespace Receipt

def isForwarded (r : Receipt) : Bool :=
  r.gated.route.action = .keep ∧ r.session = some r.command.session

def forwarded (rs : List Receipt) : List Receipt :=
  rs.filter isForwarded

variable {r : Receipt} {enable : Bool} {session : SessionId} {cmd : ForwardCommand}

@[simp]
theorem command_start (enable : Bool) (cmd : ForwardCommand) :
    (start enable cmd).command = cmd := rfl

@[simp]
theorem gated_length (r : Receipt) : r.gated.length = r.command.length := by
  unfold gated
  split <;> rfl

@[simp]
theorem received_start (enable : Bool) (cmd : ForwardCommand) :
    (start enable cmd).received = [] := rfl

@[simp]
theorem received_add (sessions : List SessionId) (chunks : List Chunk) :
    (r.add enable sessions chunks).received = r.received ++ chunks := by
  simp [received]

theorem isForwarded_of_headless (h : r.session = none) : r.isForwarded = false := by
  simp [isForwarded, h]

theorem isForwarded_eq_phase (h : r.session.isSome) :
    r.isForwarded = decide (r.phase = .forwardData) := by
  have ⟨session, hs⟩ := Option.isSome_iff_exists.mp h
  simp only [isForwarded, phase, hs]
  grind

@[simp]
theorem isForwarded_add_chunks (chunks : List Chunk) :
    (r.add enable [] chunks).isForwarded = r.isForwarded := by
  simp [isForwarded]

@[simp]
theorem forwarded_concat (rs : List Receipt) (r : Receipt) :
    forwarded (rs ++ [r]) = forwarded rs ++ if r.isForwarded then [r] else [] := by
  cases h : r.isForwarded <;> simp [forwarded, h]

end Receipt

structure Passed (rs rs' : List Receipt) (sessions : List SessionId) (lengths : List UInt16)
    (chunks : List Chunk) : Prop where
  sessions : (Receipt.forwarded rs').map (·.command.session) =
    (Receipt.forwarded rs).map (·.command.session) ++ sessions
  lengths  : (Receipt.forwarded rs').map (·.command.length) =
    (Receipt.forwarded rs).map (·.command.length) ++ lengths
  chunks   : (Receipt.forwarded rs').flatMap Receipt.received =
    (Receipt.forwarded rs).flatMap Receipt.received ++ chunks

namespace Passed

variable {done : List Receipt} {r : Receipt} {enable : Bool}

variable {rs rs' rs'' : List Receipt} {sessions sessions' : List SessionId}
  {lengths lengths' : List UInt16} {chunks chunks' : List Chunk}

theorem trans (h : Passed rs rs' sessions lengths chunks)
    (h' : Passed rs' rs'' sessions' lengths' chunks') :
    Passed rs rs'' (sessions ++ sessions') (lengths ++ lengths') (chunks ++ chunks') where
  sessions := by rw [h'.sessions, h.sessions, List.append_assoc]
  lengths  := by rw [h'.lengths, h.lengths, List.append_assoc]
  chunks   := by rw [h'.chunks, h.chunks, List.append_assoc]

theorem nothing (h : Receipt.forwarded rs' = Receipt.forwarded rs) :
    Passed rs rs' [] [] [] := by
  constructor <;> simp [h]

theorem header (done : List Receipt) {phase : Receiver.Phase} {e : Bool} {cmd : ForwardCommand}
    {session : SessionId} (h : ((Receipt.start e cmd).add enable [session] []).phase = phase) :
    Passed (done ++ [.start e cmd]) (enter (done ++ [.start e cmd]) enable [] [session] [])
      (if phase = .forwardData then [cmd.session] else [])
      (if phase = .forwardData then [cmd.length] else []) [] := by
  have hs : (Receipt.start e cmd).isForwarded = false := Receipt.isForwarded_of_headless rfl
  have ha := Receipt.isForwarded_eq_phase
    (r := (Receipt.start e cmd).add enable [session] []) (by simp [Receipt.start])
  rw [h] at ha
  constructor <;> by_cases hp : phase = .forwardData <;> simp [hs, ha, hp]

theorem chunk (h : r.session.isSome) (c : Chunk) :
    Passed (done ++ [r]) (enter (done ++ [r]) enable [] [] [c]) [] []
      (if r.phase = .forwardData then [c] else []) := by
  have hr := Receipt.isForwarded_eq_phase h
  constructor <;> by_cases hp : r.phase = .forwardData <;> simp [hr, hp]

end Passed

namespace Receiver

variable {v v' : Receiver} {l l' : Links} {enable : Bool} {ns : List Note} {rs : List Receipt}

theorem sink_ne_forwardData (cmd : ForwardCommand) : sink cmd ≠ .forwardData := by
  unfold sink
  split <;> nofun

theorem Booked.passed_chunk {chunk : Chunk} (h : Booked v rs) (enable : Bool)
    (hp : v.phase = .forwardData ∨ v.phase = .sinkData ∨ v.phase = .extractRecord) :
    Passed rs (enter rs enable [] [] [chunk]) [] []
      (if v.phase = .forwardData then [chunk] else []) := by
  obtain ⟨done, r, rfl, _, _, rfl⟩ := h.exists_hand (by obtain hp | hp | hp := hp <;> simp [hp])
  exact .chunk (Receipt.session_isSome hp) chunk

theorem Booked.passed (h : Booked v rs) (step : Step enable v l ns v' l') :
    Passed rs (enter rs enable (l.commands.taken l'.commands) (l.sessions.taken l'.sessions)
      (l.data.taken l'.data)) (l.appSessions.added l'.appSessions)
      (l.appLengths.added l'.appLengths) (l.appData.added l'.appData) := by
  cases step
  case stall => simpa [enter_nothing] using Passed.nothing rfl
  case start cmd _ _ _ read _ =>
    have hs : (Receipt.start enable cmd).isForwarded = false := Receipt.isForwarded_of_headless rfl
    have passed : Passed rs (rs ++ [.start enable cmd]) [] [] [] := .nothing (by simp [hs])
    simpa [Fifo.taken_tail read] using passed
  case forwardHeader hp hc read session length =>
    obtain ⟨done, e, cmd, rfl, _, rfl⟩ := h.exists_headless (.inl hp)
    cases hc
    have passed := Passed.header done (Receipt.phase_of_forwardHeader hp enable)
    simpa [Fifo.taken_tail read, Fifo.added_of_write session, Fifo.added_of_write length]
      using passed
  case sinkHeader hp hc read =>
    obtain ⟨done, e, cmd, rfl, _, rfl⟩ := h.exists_headless (.inr hp)
    cases hc
    have passed := Passed.header done (Receipt.phase_of_sinkHeader hp enable)
    simpa [Fifo.taken_tail read, sink_ne_forwardData] using passed
  case mismatch session _ hp hc read hne =>
    obtain ⟨done, e, cmd, rfl, _, rfl⟩ := h.exists_headless hp
    cases hc
    have hne : session ≠ cmd.session := by simpa [Receipt.start] using hne
    have passed := Passed.header done (Receipt.phase_of_mismatch e hne enable)
    simpa [Fifo.taken_tail read] using passed
  case forwardData hp read _ write _ =>
    simpa [Fifo.taken_tail read, Fifo.added_of_write write, hp] using
      h.passed_chunk enable (by simp [hp])
  case sinkData hp read _ _ =>
    simpa [Fifo.taken_tail read, hp] using h.passed_chunk enable (by simp [hp])
  case extractRecord hp read _ _ _ _ =>
    simpa [Fifo.taken_tail read, hp] using h.passed_chunk enable (by simp [hp])
  case malformedRecord hp read _ _ _ =>
    simpa [Fifo.taken_tail read, hp] using h.passed_chunk enable (by simp [hp])

-- In a turn the header of a stream is handed on, or a chunk is handed on or dropped. The chunks are
-- counted.
structure Passing (l l' : Links) (ns : List Note) : Prop where
  header    : (l.appSessions.added l'.appSessions).length =
    (l.appLengths.added l'.appLengths).length
  chunk     : l.appData.added l'.appData = [] ∨ l.appData.added l'.appData = l.data.taken l'.data
  forwarded : ShellInterface.tally .forwardedChunks ns = (l.appData.added l'.appData).length
  dropped   : ShellInterface.tally .forwardedChunks ns + ShellInterface.tally .droppedChunks ns =
    (l.data.taken l'.data).length

theorem Advance.tally_eq_zero {chunk : Chunk} {next : Phase} (h : Advance v chunk next ns v')
    (c : Counter) : ShellInterface.tally c ns = 0 := by
  cases h <;> simp

theorem tally_of_gate {cmd gated : ForwardCommand} (h : gate cmd enable = ⟨ns, .ok gated⟩)
    (c : Counter) : ShellInterface.tally c ns = 0 := by
  unfold gate at h
  split at h <;> cases h <;> simp

theorem Step.passing (h : Step enable v l ns v' l') : Passing l l' ns := by
  cases h
  case start gate => constructor <;> simp [tally_of_gate gate]
  case forwardHeader session length =>
    constructor <;> simp [Fifo.added_of_write session, Fifo.added_of_write length]
  case forwardData chunk _ _ _ _ _ read _ write advance =>
    constructor <;> cases chunk.last <;>
      simp [Fifo.added_of_write write, Fifo.taken_tail read, advance.tally_eq_zero]
  case sinkData read _ advance =>
    constructor <;> simp [Fifo.taken_tail read, advance.tally_eq_zero]
  case extractRecord read _ _ _ advance =>
    constructor <;> simp [Fifo.taken_tail read, advance.tally_eq_zero]
  case malformedRecord read _ _ advance =>
    constructor <;> simp [Fifo.taken_tail read, advance.tally_eq_zero]
  all_goals constructor <;> simp

end Receiver

namespace Frame

def appSessions (ts : List Turn) : List SessionId :=
  written (·.before.o.appSessions) (·.after.o.appSessions) ts

def appLengths (ts : List Turn) : List UInt16 :=
  written (·.before.o.appLengths) (·.after.o.appLengths) ts

def appData (ts : List Turn) : List Chunk :=
  written (·.before.o.appData) (·.after.o.appData) ts

structure Aside (f : Frame) (ns : List Note) (f' : Frame) : Prop where
  receiver : f'.net.receiver = f.net.receiver
  commands : f.net.inner.commands.taken f'.net.inner.commands = []
  sessions : f.net.inner.sessions.taken f'.net.inner.sessions = []
  chunks   : f.net.inner.buffer.taken f'.net.inner.buffer = []
  headers  : f'.o.appSessions = f.o.appSessions ∧ f'.o.appLengths = f.o.appLengths
  data     : f'.o.appData = f.o.appData
  counters : ∀ c : Counter, c.keeper = .receiver → tally c ns = 0

structure Forwarded (ts : List (Bool × Turn)) : Prop where
  received : received (ts.map Prod.snd) = (receipts ts).flatMap Receipt.received
  passed   : Passed [] (receipts ts) (appSessions (ts.map Prod.snd)) (appLengths (ts.map Prod.snd))
    (appData (ts.map Prod.snd))
  passing  : ∀ t ∈ ts.map Prod.snd,
    Receiver.Passing t.before.receiverLinks t.after.receiverLinks t.notes

variable {enable : Bool} {ts : List (Bool × Turn)} {f f' : Frame} {ns : List Note} {n : Network}
  {t : Turn}

theorem tally_of_keeps {r : Reporter} (keeps : r.Keeps ns) (hr : r ≠ .receiver) (c : Counter)
    (hc : c.keeper = .receiver) : tally c ns = 0 :=
  keeps.tally_eq_zero fun he => hr (he.symm.trans hc)

theorem Step.aside_or_receive (step : Step enable f ns f') : Aside f ns f' ∨
    Receiver.Step enable f.net.receiver f.receiverLinks ns f'.net.receiver f'.receiverLinks := by
  cases step
  case listen ticked    =>
    exact .inl ⟨rfl, Fifo.taken_self _, Fifo.taken_self _, Fifo.taken_self _, ⟨rfl, rfl⟩, rfl,
      tally_of_keeps (Listener.step_of_tick ticked).keeps nofun⟩
  case connect ticked   =>
    exact .inl ⟨rfl, Fifo.taken_self _, Fifo.taken_self _, Fifo.taken_self _, ⟨rfl, rfl⟩, rfl,
      tally_of_keeps (Connector.step_of_tick ticked).keeps nofun⟩
  case interrupt ticked =>
    have ⟨_, _, _, step⟩ := Interrupts.step_of_tick ticked
    exact .inl ⟨rfl, Fifo.taken_of_append step.scheduler.commands_written, Fifo.taken_self _,
      Fifo.taken_self _, ⟨rfl, rfl⟩, rfl, tally_of_keeps step.keeps nofun⟩
  case buffer ticked    =>
    obtain ⟨_, hs, _, hb, _⟩ := InputBuffer.moved_of_tick ticked
    exact .inl ⟨rfl, Fifo.taken_self _, Fifo.taken_of_append hs, Fifo.taken_of_append hb,
      ⟨rfl, rfl⟩, rfl, fun _ _ => rfl⟩
  case track error _ _ _ =>
    exact .inl ⟨rfl, Fifo.taken_self _, Fifo.taken_self _, Fifo.taken_self _, ⟨rfl, rfl⟩, rfl,
      fun _ _ => by cases error <;> rfl⟩
  case receive ticked   => exact .inr (Receiver.step_of_tick ticked)
  case transmit ticked  =>
    exact .inl ⟨rfl, Fifo.taken_self _, Fifo.taken_self _, Fifo.taken_self _, ⟨rfl, rfl⟩, rfl,
      tally_of_keeps (Transmitter.step_of_tick ticked).keeps nofun⟩

theorem Aside.passing (h : Aside f ns f') :
    Receiver.Passing f.receiverLinks f'.receiverLinks ns := by
  have hf := h.counters .forwardedChunks rfl
  have hd := h.counters .droppedChunks rfl
  constructor <;> simp [receiverLinks, h.headers, h.data, h.chunks, hf, hd]

theorem Forwarded.next (h : Forwarded ts)
    (gained : (receipts (ts ++ [(enable, t)])).flatMap Receipt.received =
      (receipts ts).flatMap Receipt.received ++
        t.before.net.inner.buffer.taken t.after.net.inner.buffer)
    (passed : Passed (receipts ts) (receipts (ts ++ [(enable, t)]))
      (t.before.o.appSessions.added t.after.o.appSessions)
      (t.before.o.appLengths.added t.after.o.appLengths)
      (t.before.o.appData.added t.after.o.appData))
    (passing : Receiver.Passing t.before.receiverLinks t.after.receiverLinks t.notes) :
    Forwarded (ts ++ [(enable, t)]) where
  received := by rw [gained, ← h.received]; simp
  passed   := by simpa [appSessions, appLengths, appData] using h.passed.trans passed
  passing  := by
    rw [List.map_append]
    exact List.forall_mem_append.mpr ⟨h.passing, List.forall_mem_singleton.mpr passing⟩

theorem Forwarded.turn (h : Forwarded ts) (booked : f.net.receiver.Booked (receipts ts))
    (step : Step enable f ns f') : Forwarded (ts ++ [(enable, ⟨f, ns, f'⟩)]) := by
  obtain aside | step := step.aside_or_receive
  case inl =>
    have entered : receipts (ts ++ [(enable, ⟨f, ns, f'⟩)]) = receipts ts := by
      rw [receipts_concat, aside.commands, aside.sessions, aside.chunks, enter_nothing]
    refine h.next ?_ ?_ aside.passing <;> rw [entered]
    case refine_1 => rw [aside.chunks, List.append_nil]
    case refine_2 => simpa [aside.headers, aside.data] using Passed.nothing rfl
  case inr =>
    refine h.next ?_ ?_ step.passing <;> rw [receipts_concat]
    case refine_1 => exact (booked.gained step).chunks
    case refine_2 => exact booked.passed step

theorem Forwarded.start : Forwarded [] :=
  ⟨rfl, .nothing rfl, by simp⟩

theorem tally_of_passing {ts : List Turn}
    (h : ∀ t ∈ ts, Receiver.Passing t.before.receiverLinks t.after.receiverLinks t.notes) :
    tally .forwardedChunks (ts.flatMap Turn.notes) = (appData ts).length ∧
    tally .forwardedChunks (ts.flatMap Turn.notes) + tally .droppedChunks (ts.flatMap Turn.notes) =
      (received ts).length := by
  induction ts
  case nil => exact ⟨rfl, rfl⟩
  case cons t ts ih =>
    have ⟨⟨_, _, forwarded, dropped⟩, hts⟩ := List.forall_mem_cons.mp h
    have ⟨hf, hd⟩ := ih hts
    simp only [receiverLinks] at forwarded dropped
    simp only [appData, received, written_cons, consumed_cons, List.flatMap_cons, tally_append,
      List.length_append] at *
    omega

end Frame

namespace Receiver

variable {v : Receiver} {rs : List Receipt}

theorem Booked.framed (h : Booked v rs) (p : Receipt → Bool) :
    Framed Receipt.received (v.phase = .idle) (rs.filter p) := by
  cases h
  case idle finished =>
    rw [← List.append_nil rs]
    exact .filter (Nat.zero_le 1) (fun r hr _ => (finished r hr).ended) nofun nofun
  case hand done r finished unfinished state =>
    have hp : v.phase ≠ .idle := by rw [state]; exact Receipt.phase_ne_idle r
    refine .filter (Nat.le_refl 1) (fun r hr _ => (finished r hr).ended) (fun a ha _ => ?_)
      fun idle => absurd idle hp
    obtain rfl := List.mem_singleton.mp ha
    exact List.forall_mem_map.mpr unfinished.unmarked

end Receiver

namespace Interface

variable {c : Config} {x x₀ : Interface} {cs : History}

theorem forwarding_of_run (hc : create c = .ok x₀) (run : Run tick .any x₀ cs x) :
    Frame.Forwarded (marked cs) := by
  have ⟨_, _, _, hr, _⟩ := Network.create_ok (network_of_create hc)
  have ⟨_, forwarded⟩ := marked_invariant_of_run
    (P := fun ts n => Frame.Accounted ts n ∧ Frame.Forwarded ts) run ⟨.start hr, .start⟩
    fun step ⟨accounted, forwarded⟩ =>
      ⟨accounted.turn step, forwarded.turn accounted.booked step⟩
  exact forwarded

-- Every chunk that was taken in was taken by the receive side, or waits for it in the buffer. The
-- receive side hands it on as it is, or drops it, and counts it. The headers and the chunks that
-- were handed on are those of certain streams, one after the other and each of them as a whole, as
-- far as it has come.
theorem forwarded_of_run (hc : create c = .ok x₀) (run : Run tick .any x₀ cs x) :
    let rs := Frame.receipts (marked cs)
    let forwarded := Receipt.forwarded rs
    Frame.chunks (turns cs) = Frame.received (turns cs) ++ x.net.inner.buffer.items ∧
    Frame.received (turns cs) = rs.flatMap Receipt.received ∧
    Frame.appSessions (turns cs) = forwarded.map (·.command.session) ∧
    Frame.appLengths (turns cs) = forwarded.map (·.command.length) ∧
    Frame.appData (turns cs) = forwarded.flatMap Receipt.received ∧
    Framed Receipt.received (x.net.receiver.phase = .idle) rs ∧
    Framed Receipt.received (x.net.receiver.phase = .idle) forwarded ∧
    (∀ t ∈ turns cs, Receiver.Passing t.before.receiverLinks t.after.receiverLinks t.notes) ∧
    x.ledger.stats.get .forwardedChunks = .ofNat (Frame.appData (turns cs)).length ∧
    x.ledger.stats.get .forwardedChunks + x.ledger.stats.get .droppedChunks +
      .ofNat x.bufferedChunks = .ofNat (Frame.chunks (turns cs)).length := by
  intro rs forwarded
  have ⟨accounted, conserved⟩ := conserved_of_run hc run
  have ⟨received, passed, passing⟩ := forwarding_of_run hc run
  have chunks := conserved.chunks
  rw [marked_map_snd] at received passed passing chunks
  have ⟨forwardedChunks, droppedChunks⟩ := Frame.tally_of_passing passing
  have notes : cs.flatMap Cycle.notes = (turns cs).flatMap Frame.Turn.notes := by
    rw [notes_eq_of_run run, ← marked_map_snd, List.flatMap_map]
  have stats := Ledger.stats_of_run ledger_of_tick (stats_of_create hc) run
  refine ⟨by rw [received, chunks], received, passed.sessions.symm, passed.lengths.symm,
    passed.chunks.symm, by simpa using accounted.booked.framed fun _ => true,
    accounted.booked.framed _, passing, by rw [stats, notes, forwardedChunks], ?_⟩
  rw [stats, stats, notes, ← UInt64.ofNat_add, droppedChunks, ← UInt64.ofNat_add, ← chunks,
    ← received, List.length_append]
  rfl

-- The interface is disabled when one of two chunks was handed on. The other one follows, and the
-- next stream is dropped.
theorem forwarded_of_disabled :
    ∃ x₀ cs x, create { small with inputBufferChunks := 4 } = .ok x₀ ∧ Run tick .any x₀ cs x ∧
      Frame.appLengths (turns cs) = [12] ∧
      Frame.appData (turns cs) = [.ofBytes (.replicate 8 1) false, .ofBytes (.replicate 4 2) true] ∧
      x.ledger.stats.get .forwardedChunks = 2 ∧
      x.ledger.stats.get .forwardedChunks + x.ledger.stats.get .droppedChunks +
        .ofNat x.bufferedChunks = 3 := by
  let nothing : List Notification × List Chunk × List SessionId := ([], [], [])
  let enabled := arrivals [([⟨0, 12, 0, 0, 80⟩], [], []), nothing, nothing, nothing, nothing,
    ([], [], [0]), ([], [.ofBytes (.replicate 8 1) false], []), nothing]
  let disabled := arrivals [([⟨0, 3, 0, 0, 80⟩], [.ofBytes (.replicate 4 2) true], []), nothing,
    nothing, nothing, nothing, ([], [], [0]), ([], [.ofBytes (.replicate 3 3) true], [])]
  have ⟨x₀, cs, x, hc, run, lengths, data, chunks⟩ : ∃ x₀ cs x,
      create { small with inputBufferChunks := 4 } = .ok x₀ ∧ Run tick .any x₀ cs x ∧
      Frame.appLengths (turns cs) = [12] ∧
      Frame.appData (turns cs) = [.ofBytes (.replicate 8 1) false, .ofBytes (.replicate 4 2) true] ∧
      (Frame.chunks (turns cs)).length = 3 :=
    Run.exists_of_create (enabled ++ disabled.map fun (_, l) => (false, l)) (by decide +kernel)
  have ⟨_, _, _, _, _, _, _, _, forwardedChunks, all⟩ := forwarded_of_run hc run
  rw [data] at forwardedChunks
  rw [chunks] at all
  exact ⟨x₀, cs, x, hc, run, lengths, data, forwardedChunks, all⟩

end Interface

end ShellInterface.Tcp
