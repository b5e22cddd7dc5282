import Mathlib
import ShellInterface.Proofs.Tcp.Connector
import ShellInterface.Proofs.Tcp.InputBuffer
import ShellInterface.Proofs.Tcp.Interrupts
import ShellInterface.Proofs.Tcp.Reports
import ShellInterface.Proofs.Tcp.Streams
import ShellInterface.Proofs.Tcp.Turns

namespace ShellInterface

def Fault.malformed? : Fault → Option Nat
  | .malformedRecord bytes => some bytes
  | _                      => none

def recordless? (chunk : Chunk) : Option Nat :=
  if (ControlRecord.ofChunk? chunk).isNone then some chunk.length else none

def malformed (ns : List Note) : List Nat :=
  (ns.filterMap Note.fault?).filterMap Fault.malformed?

@[simp]
theorem malformed_nil : malformed [] = [] := rfl

@[simp]
theorem malformed_append (ns ms : List Note) :
    malformed (ns ++ ms) = malformed ns ++ malformed ms := by
  simp [malformed]

@[simp]
theorem malformed_remark (origin : String) (m : Remark) (ns : List Note) :
    malformed (.remark origin m :: ns) = malformed ns := rfl

@[simp]
theorem malformed_count (c : Counter) (k : UInt64) (ns : List Note) :
    malformed (.count c k :: ns) = malformed ns := rfl

@[simp]
theorem malformed_fault (origin : String) (f : Fault) (ns : List Note) :
    malformed (.fault origin f :: ns) = f.malformed?.toList ++ malformed ns := by
  cases h : f.malformed? <;> simp [malformed, Note.fault?, h]

theorem malformed_of_only {r : Reporter} {ns : List Note} (h : r.Only ns) (hr : r ≠ .receiver) :
    malformed ns = [] := by
  refine List.filterMap_eq_nil_iff.mpr fun f hf => ?_
  have := h f hf
  cases f <;> simp_all [Fault.malformed?, Fault.reporter]

namespace Tcp

open Tcp.Frame (Turn)

theorem Ended.of_unmarked {cs : List Chunk} {c : Chunk} (unmarked : ∀ c ∈ cs, c.last = false)
    (last : c.last = true) : Ended (cs ++ [c]) := by
  induction cs
  case nil        => exact .last last
  case cons cs ih =>
    have ⟨hc, hcs⟩ := List.forall_mem_cons.mp unmarked
    exact .more hc (ih hcs)

-- What was taken for a command. The command comes with whether the interface was enabled when it
-- was taken, and so does each chunk.
structure Receipt where
  enabled : Bool
  command : ForwardCommand
  session : Option SessionId
  chunks : List (Bool × Chunk)
deriving DecidableEq, Repr

namespace Receipt

def start (enable : Bool) (command : ForwardCommand) : Receipt :=
  ⟨enable, command, none, []⟩

def add (r : Receipt) (enable : Bool) (sessions : List SessionId) (chunks : List Chunk) : Receipt :=
  { r with
    session := r.session.or sessions.head?
    chunks := r.chunks ++ chunks.map (enable, ·) }

def gated (r : Receipt) : ForwardCommand :=
  if r.enabled then r.command else { r.command with route := .dump }

def tally (r : Receipt) : Nat :=
  (r.chunks.map (·.2.length)).sum

def phase (r : Receipt) : Receiver.Phase :=
  match r.session with
  | none => Receiver.header r.gated
  | some session =>
    if session ≠ r.command.session then
      .sinkData
    else if r.gated.route.action = .keep then
      .forwardData
    else if r.gated.route = .generate ∧ r.chunks = [] then
      .extractRecord
    else
      .sinkData

-- The chunk that is looked at for a record, with whether the interface was enabled then. It is the
-- first one.
def looked? (r : Receipt) : Option (Bool × Chunk) :=
  if r.gated.route = .generate ∧ r.session = some r.command.session then r.chunks.head? else none

def record? (r : Receipt) : Option (Bool × ControlRecord) :=
  r.looked?.bind fun (enable, chunk) => (ControlRecord.ofChunk? chunk).map (enable, ·)

def malformed? (r : Receipt) : Option Nat :=
  r.looked?.bind fun (_, chunk) => recordless? chunk

structure Finished (r : Receipt) : Prop where
  session : r.session.isSome
  ended   : Ended (r.chunks.map Prod.snd)

structure Unfinished (r : Receipt) : Prop where
  headless : r.session = none → r.chunks = []
  unmarked : ∀ c ∈ r.chunks, c.2.last = false

variable {r : Receipt} {enable : Bool} {chunk : Chunk} {session : SessionId}

@[simp]
theorem add_nothing (r : Receipt) (enable : Bool) : r.add enable [] [] = r := by
  simp [add]

@[simp]
theorem gated_session (r : Receipt) : r.gated.session = r.command.session := by
  unfold gated
  split <;> rfl

@[simp]
theorem command_add (sessions : List SessionId) (chunks : List Chunk) :
    (r.add enable sessions chunks).command = r.command := rfl

@[simp]
theorem session_add (sessions : List SessionId) (chunks : List Chunk) :
    (r.add enable sessions chunks).session = r.session.or sessions.head? := rfl

@[simp]
theorem chunks_add (sessions : List SessionId) (chunks : List Chunk) :
    (r.add enable sessions chunks).chunks = r.chunks ++ chunks.map (enable, ·) := rfl

@[simp]
theorem gated_add (sessions : List SessionId) (chunks : List Chunk) :
    (r.add enable sessions chunks).gated = r.gated := rfl

@[simp]
theorem tally_add (sessions : List SessionId) :
    (r.add enable sessions [chunk]).tally = r.tally + chunk.length := by
  simp [tally, add]

theorem phase_ne_idle (r : Receipt) : r.phase ≠ .idle := by
  simp only [phase, Receiver.header]
  grind

theorem session_eq_none (hp : r.phase = .forwardHeader ∨ r.phase = .sinkHeader) :
    r.session = none := by
  simp only [phase, Receiver.header] at hp
  grind

theorem session_isSome
    (hp : r.phase = .forwardData ∨ r.phase = .sinkData ∨ r.phase = .extractRecord) :
    r.session.isSome := by
  simp only [phase, Receiver.header] at hp
  grind

theorem Unfinished.eq_start (h : r.Unfinished)
    (hp : r.phase = .forwardHeader ∨ r.phase = .sinkHeader) : r = .start r.enabled r.command := by
  have hs := session_eq_none hp
  have hc := h.headless hs
  obtain ⟨e, c, _, _⟩ := r
  cases hs
  cases hc
  rfl

-- The first chunk of a stream is looked at if the command says so and the stream is the right one.
theorem phase_eq_extractRecord_iff : r.phase = .extractRecord ↔
    r.gated.route = .generate ∧ r.session = some r.command.session ∧ r.chunks = [] := by
  have hkeep : r.gated.route.action = .keep → r.gated.route ≠ .generate := by
    intro ha hr
    rw [hr] at ha
    cases ha
  simp only [phase, Receiver.header]
  grind

section Header

variable {cmd : ForwardCommand}

theorem phase_of_forwardHeader (h : (start enable cmd).phase = .forwardHeader) (e : Bool) :
    ((start enable cmd).add e [cmd.session] []).phase = .forwardData := by
  simp only [phase, start, Receiver.header] at h
  simp [phase, start]
  grind

theorem phase_of_sinkHeader (h : (start enable cmd).phase = .sinkHeader) (e : Bool) :
    ((start enable cmd).add e [cmd.session] []).phase = Receiver.sink (start enable cmd).gated := by
  simp only [phase, start, Receiver.header] at h
  simp [phase, start, Receiver.sink]
  rcases hr : (start enable cmd).gated.route with ⟨_ | _, _ | _⟩ <;>
    simp_all [start, Route.generate]

theorem phase_of_mismatch (enable : Bool) (h : session ≠ cmd.session) (e : Bool) :
    ((start enable cmd).add e [session] []).phase = .sinkData := by
  simp [phase, start, h]

end Header

theorem phase_add_chunk (h : r.session.isSome) : (r.add enable [] [chunk]).phase =
    if r.phase = .extractRecord then .sinkData else r.phase := by
  have ⟨session, hs⟩ := Option.isSome_iff_exists.mp h
  have hkeep : Route.generate.action ≠ .keep := nofun
  simp only [phase_eq_extractRecord_iff]
  simp [phase, hs]
  grind

theorem looked?_add_chunk (h : r.session.isSome) : (r.add enable [] [chunk]).looked? =
    if r.phase = .extractRecord then some (enable, chunk) else r.looked? := by
  have ⟨session, hs⟩ := Option.isSome_iff_exists.mp h
  simp only [phase_eq_extractRecord_iff]
  rcases hc : r.chunks with _ | ⟨c, cs⟩ <;> simp [looked?, hs, hc]

theorem looked?_of_chunks_eq_nil (h : r.chunks = []) : r.looked? = none := by
  simp [looked?, h]

theorem generate_of_record (r : Receipt) (h : r.record?.isSome) :
    r.enabled = true ∧ r.command.route = .generate := by
  have hr : r.gated.route = .generate := by
    unfold record? looked? at h
    split at h
    case isTrue hr => exact hr.left
    case isFalse   => cases h
  unfold gated at hr
  split at hr
  case isTrue he  => exact ⟨he, hr⟩
  case isFalse he => cases hr

theorem Unfinished.add_chunk (h : r.Unfinished) (hs : r.session.isSome)
    (last : chunk.last = false) : (r.add enable [] [chunk]).Unfinished where
  headless := by simp [Option.isSome_iff_ne_none.mp hs]
  unmarked := by simpa [or_imp, forall_and, last] using h.unmarked

theorem Unfinished.finish (h : r.Unfinished) (hs : r.session.isSome)
    (last : chunk.last = true) : (r.add enable [] [chunk]).Finished where
  session := by simp [hs]
  ended   := by
    rw [chunks_add, List.map_append]
    exact .of_unmarked (List.forall_mem_map.mpr h.unmarked) last

end Receipt

def enter (rs : List Receipt) (enable : Bool) (commands : List ForwardCommand)
    (sessions : List SessionId) (chunks : List Chunk) : List Receipt :=
  (rs ++ commands.map (Receipt.start enable)).modifyLast (·.add enable sessions chunks)

theorem enter_nothing (rs : List Receipt) (enable : Bool) : enter rs enable [] [] [] = rs := by
  obtain rfl | ⟨rs, r, rfl⟩ := rs.eq_nil_or_concat
  case inl => rfl
  case inr => simp [enter, List.modifyLast_concat]

@[simp]
theorem enter_command (rs : List Receipt) (enable : Bool) (cmd : ForwardCommand) :
    enter rs enable [cmd] [] [] = rs ++ [.start enable cmd] := by
  simp [enter, List.modifyLast_concat]

@[simp]
theorem enter_concat (rs : List Receipt) (r : Receipt) (enable : Bool) (sessions : List SessionId)
    (chunks : List Chunk) :
    enter (rs ++ [r]) enable [] sessions chunks = rs ++ [r.add enable sessions chunks] := by
  simp [enter, List.modifyLast_concat]

namespace Receiver

inductive Booked (v : Receiver) : List Receipt → Prop
  | idle {rs} (phase : v.phase = .idle) (finished : ∀ r ∈ rs, r.Finished) : Booked v rs
  | hand {rs r} (finished : ∀ r ∈ rs, r.Finished) (unfinished : r.Unfinished)
      (state : v = ⟨r.phase, some r.gated, r.tally⟩) : Booked v (rs ++ [r])

variable {v v' : Receiver} {l l' : Links} {enable : Bool} {ns : List Note} {rs : List Receipt}

theorem gated_of_gate {cmd gated : ForwardCommand} (h : gate cmd enable = ⟨ns, .ok gated⟩) :
    gated = (Receipt.start enable cmd).gated := by
  unfold gate at h
  cases enable <;> by_cases hr : cmd.route = .dump <;> simp [hr] at h
  all_goals simp [Receipt.gated, Receipt.start, ← h]
  rw [← hr]

theorem Booked.finished (h : Booked v rs) (hp : v.phase = .idle) : ∀ r ∈ rs, r.Finished := by
  cases h
  case idle finished => exact finished
  case hand state    =>
    cases state
    exact absurd hp (Receipt.phase_ne_idle _)

theorem Booked.exists_hand (h : Booked v rs) (hp : v.phase ≠ .idle) :
    ∃ done r, rs = done ++ [r] ∧ (∀ r ∈ done, r.Finished) ∧ r.Unfinished ∧
      v = ⟨r.phase, some r.gated, r.tally⟩ := by
  cases h
  case idle phase _                => exact absurd phase hp
  case hand finished unfinished state => exact ⟨_, _, rfl, finished, unfinished, state⟩

theorem Booked.exists_headless (h : Booked v rs)
    (hp : v.phase = .forwardHeader ∨ v.phase = .sinkHeader) :
    ∃ done e cmd, rs = done ++ [.start e cmd] ∧ (∀ r ∈ done, r.Finished) ∧
      v = ⟨(Receipt.start e cmd).phase, some (Receipt.start e cmd).gated, 0⟩ := by
  have ⟨done, r, he, finished, unfinished, hv⟩ :=
    h.exists_hand (by obtain hp | hp := hp <;> simp [hp])
  have hr := unfinished.eq_start (by simpa [hv] using hp)
  rw [hr] at he hv
  exact ⟨done, _, _, he, finished, hv⟩

theorem Booked.header {done : List Receipt} {e : Bool} {cmd : ForwardCommand} {phase : Phase}
    (finished : ∀ r ∈ done, r.Finished) (session : SessionId)
    (hp : ((Receipt.start e cmd).add enable [session] []).phase = phase) :
    Booked ⟨phase, some (Receipt.start e cmd).gated, 0⟩
      (done ++ [(Receipt.start e cmd).add enable [session] []]) :=
  .hand finished ⟨by simp [Receipt.start], by simp [Receipt.start]⟩ (by rw [hp]; rfl)

def Phase.following (phase : Phase) : Phase :=
  if phase = .extractRecord then .sinkData else phase

def examined (v : Receiver) (l l' : Links) : List Chunk :=
  if v.phase = .extractRecord then l.data.taken l'.data else []

theorem examined_of_kept (h : l.data.taken l'.data = []) : v.examined l l' = [] := by
  simp [examined, h]

theorem Booked.take {chunk : Chunk} (h : Booked v rs) (enable : Bool)
    (hp : v.phase = .forwardData ∨ v.phase = .sinkData ∨ v.phase = .extractRecord)
    (advance : Advance v chunk v.phase.following ns v') :
    Booked v' (enter rs enable [] [] [chunk]) ∧
      (enter rs enable [] [] [chunk]).filterMap Receipt.looked? = rs.filterMap Receipt.looked? ++
        if v.phase = .extractRecord then [(enable, chunk)] else [] := by
  obtain ⟨done, r, rfl, finished, unfinished, rfl⟩ :=
    h.exists_hand (by obtain hp | hp | hp := hp <;> simp [hp])
  have hs := Receipt.session_isSome hp
  rw [enter_concat]
  refine ⟨?_, ?_⟩
  · cases advance
    case more last =>
      refine .hand finished (unfinished.add_chunk hs last) ?_
      simp [Receipt.phase_add_chunk hs, Phase.following]
    all_goals
      refine .idle rfl (List.forall_mem_append.mpr ⟨finished, ?_⟩)
      simpa using unfinished.finish hs ‹_›
  · have hr : r.phase = .extractRecord → r.looked? = none := fun he =>
      Receipt.looked?_of_chunks_eq_nil (Receipt.phase_eq_extractRecord_iff.mp he).right.right
    by_cases he : r.phase = .extractRecord
    case pos => simp [Receipt.looked?_add_chunk hs, he, hr]
    case neg => simp [Receipt.looked?_add_chunk hs, he, List.filterMap_cons]

theorem Booked.next (h : Booked v rs) (step : Step enable v l ns v' l') :
    Booked v' (enter rs enable (l.commands.taken l'.commands) (l.sessions.taken l'.sessions)
      (l.data.taken l'.data)) ∧
    (enter rs enable (l.commands.taken l'.commands) (l.sessions.taken l'.sessions)
      (l.data.taken l'.data)).filterMap Receipt.looked? =
        rs.filterMap Receipt.looked? ++ (v.examined l l').map (enable, ·) := by
  cases step
  case stall => simpa [enter_nothing, examined] using h
  case start cmd _ _ hp read gate =>
    obtain rfl := gated_of_gate gate
    have booked : Booked ⟨Receiver.header _, _, 0⟩ (rs ++ [.start enable cmd]) :=
      .hand (h.finished hp) ⟨fun _ => rfl, by simp [Receipt.start]⟩ rfl
    simpa [Fifo.taken_tail read, Receipt.looked?_of_chunks_eq_nil, Receipt.start, examined]
      using booked
  case forwardHeader hp hc read session length =>
    obtain ⟨done, e, cmd, rfl, finished, rfl⟩ := h.exists_headless (.inl hp)
    cases hc
    have booked := Booked.header finished cmd.session (Receipt.phase_of_forwardHeader hp enable)
    simpa [Fifo.taken_tail read, Receipt.looked?_of_chunks_eq_nil, Receipt.start, examined]
      using booked
  case sinkHeader hp hc read =>
    obtain ⟨done, e, cmd, rfl, finished, rfl⟩ := h.exists_headless (.inr hp)
    cases hc
    have booked := Booked.header finished cmd.session (Receipt.phase_of_sinkHeader hp enable)
    simpa [Fifo.taken_tail read, Receipt.looked?_of_chunks_eq_nil, Receipt.start, examined]
      using booked
  case mismatch session _ hp hc read hne =>
    obtain ⟨done, e, cmd, rfl, finished, rfl⟩ := h.exists_headless hp
    cases hc
    have hne : session ≠ cmd.session := by simpa [Receipt.start] using hne
    have booked := Booked.header finished session (Receipt.phase_of_mismatch e hne enable)
    simpa [Fifo.taken_tail read, Receipt.looked?_of_chunks_eq_nil, Receipt.start, examined]
      using booked
  case forwardData hp read _ write advance =>
    have := h.take enable (by simp [hp]) (by simpa [Phase.following, hp] using advance)
    simpa [Fifo.taken_tail read, hp, examined] using this
  case sinkData hp read _ advance =>
    have := h.take enable (by simp [hp]) (by simpa [Phase.following, hp] using advance)
    simpa [Fifo.taken_tail read, hp, examined] using this
  case extractRecord hp read _ _ _ advance =>
    have := h.take enable (by simp [hp]) (by simpa [Phase.following, hp] using advance)
    simpa [Fifo.taken_tail read, hp, examined] using this
  case malformedRecord hp read _ _ advance =>
    have := h.take enable (by simp [hp]) (by simpa [Phase.following, hp] using advance)
    simpa [Fifo.taken_tail read, hp, examined] using this

theorem Advance.malformed_eq {chunk : Chunk} {next : Phase} (h : Advance v chunk next ns v') :
    malformed ns = [] := by
  cases h <;> rfl

theorem malformed_of_gate {cmd gated : ForwardCommand} (h : gate cmd enable = ⟨ns, .ok gated⟩) :
    malformed ns = [] :=
  malformed_of_only (Reporter.Only.of_eq (by simp [gate]) h) (r := .interrupts) nofun

-- The record in a chunk that is looked at is handed on, and a chunk without a record is reported.
theorem Step.examined_cases (h : Step enable v l ns v' l') :
    l.records.added l'.records = (v.examined l l').filterMap ControlRecord.ofChunk? ∧
      malformed ns = (v.examined l l').filterMap recordless? := by
  cases h
  case start gate => simp [examined, malformed_of_gate gate]
  case mismatch hp _ _ _ =>
    refine ⟨by simp [examined], ?_⟩
    obtain hp | hp := hp <;> simp [examined, hp, Fault.malformed?]
  case forwardData hp _ _ _ advance =>
    refine ⟨by simp [examined, hp], ?_⟩
    simp [examined, hp, advance.malformed_eq]
    split <;> rfl
  case sinkData hp _ _ advance => simp [examined, hp, advance.malformed_eq]
  case extractRecord hp read _ wellFormed write advance =>
    simp [examined, hp, Fifo.taken_tail read, Fifo.added_of_write write, wellFormed, recordless?,
      advance.malformed_eq]
  case malformedRecord hp read _ malformed advance =>
    simp [examined, hp, Fifo.taken_tail read, malformed, recordless?, Fault.malformed?,
      advance.malformed_eq]
  all_goals simp [examined]

end Receiver

theorem Connector.Step.records_added {enable : Bool} {c c' : Connector} {l l' : Links}
    {ns : List Note} (h : Step enable c l ns c' l') : l.records.added l'.records = [] := by
  cases h
  case clear stray forgotten => cases stray <;> cases forgotten <;> simp
  all_goals simp

namespace Frame

def receipts (ts : List (Bool × Turn)) : List Receipt :=
  ts.foldl (fun rs (enable, t) => enter rs enable
    (t.before.net.inner.commands.taken t.after.net.inner.commands)
    (t.before.net.inner.sessions.taken t.after.net.inner.sessions)
    (t.before.net.inner.buffer.taken t.after.net.inner.buffer)) []

def handed (ts : List (Bool × Turn)) : List (Bool × ControlRecord) :=
  ts.flatMap fun (enable, t) =>
    (t.before.net.inner.records.added t.after.net.inner.records).map (enable, ·)

def examined (ts : List (Bool × Turn)) : List (Bool × Chunk) :=
  ts.flatMap fun (enable, t) =>
    (t.before.net.receiver.examined t.before.receiverLinks t.after.receiverLinks).map (enable, ·)

section Concat

variable (ts : List (Bool × Turn)) (enable : Bool) (t : Turn)

@[simp]
theorem receipts_concat : receipts (ts ++ [(enable, t)]) = enter (receipts ts) enable
    (t.before.net.inner.commands.taken t.after.net.inner.commands)
    (t.before.net.inner.sessions.taken t.after.net.inner.sessions)
    (t.before.net.inner.buffer.taken t.after.net.inner.buffer) := by
  simp [receipts]

@[simp]
theorem handed_concat : handed (ts ++ [(enable, t)]) = handed ts ++
    (t.before.net.inner.records.added t.after.net.inner.records).map (enable, ·) := by
  simp [handed]

@[simp]
theorem examined_concat : examined (ts ++ [(enable, t)]) = examined ts ++
    (t.before.net.receiver.examined t.before.receiverLinks t.after.receiverLinks).map
      (enable, ·) := by
  simp [examined]

end Concat

structure Accounted (ts : List (Bool × Turn)) (n : Network) : Prop where
  booked  : n.receiver.Booked (receipts ts)
  looked  : (receipts ts).filterMap Receipt.looked? = examined ts
  records : handed ts =
    (examined ts).filterMap fun (enable, chunk) => (ControlRecord.ofChunk? chunk).map (enable, ·)
  faults  : (faults (ts.map Prod.snd)).filterMap Fault.malformed? =
    (examined ts).filterMap fun (_, chunk) => recordless? chunk

variable {enable : Bool} {ts : List (Bool × Turn)} {f f' : Frame} {ns : List Note} {n : Network}

theorem Accounted.handed (h : Accounted ts n) :
    handed ts = (receipts ts).filterMap Receipt.record? := by
  rw [h.records, ← h.looked, List.filterMap_filterMap]
  rfl

theorem Accounted.malformed (h : Accounted ts n) :
    (Frame.faults (ts.map Prod.snd)).filterMap Fault.malformed? =
      (receipts ts).filterMap Receipt.malformed? := by
  rw [h.faults, ← h.looked, List.filterMap_filterMap]
  rfl

theorem Accounted.pass (h : Accounted ts f.net) (hv : f'.net.receiver = f.net.receiver)
    (hc : f.net.inner.commands.taken f'.net.inner.commands = [])
    (hs : f.net.inner.sessions.taken f'.net.inner.sessions = [])
    (hb : f.net.inner.buffer.taken f'.net.inner.buffer = [])
    (hr : f.net.inner.records.added f'.net.inner.records = [])
    (hf : ShellInterface.malformed ns = []) :
    Accounted (ts ++ [(enable, ⟨f, ns, f'⟩)]) f'.net := by
  have hx : f.net.receiver.examined f.receiverLinks f'.receiverLinks = [] :=
    Receiver.examined_of_kept hb
  replace hf : (ns.filterMap Note.fault?).filterMap Fault.malformed? = [] := hf
  constructor
  case booked  => simpa [hv, hc, hs, hb, enter_nothing] using h.booked
  case looked  => simpa [hc, hs, hb, hx, enter_nothing] using h.looked
  case records => simpa [hr, hx] using h.records
  case faults  => simpa [hx, hf] using h.faults

theorem Accounted.receive {receiver : Receiver} {l : Receiver.Links} (h : Accounted ts f.net)
    (step : Receiver.Step enable f.net.receiver f.receiverLinks ns receiver l) :
    Accounted (ts ++ [(enable, ⟨f, ns, f.afterReceiver receiver l⟩)])
      (f.afterReceiver receiver l).net := by
  have ⟨booked, looked⟩ := h.booked.next step
  have ⟨records, faults⟩ := step.examined_cases
  have hr : f.net.inner.records.added (f.afterReceiver receiver l).net.inner.records = _ := records
  constructor
  case booked  =>
    rw [receipts_concat]
    exact booked
  case looked  =>
    rw [receipts_concat, examined_concat, ← h.looked]
    exact looked
  case records =>
    rw [handed_concat, examined_concat, List.filterMap_append, ← h.records, List.filterMap_map, hr,
      List.map_filterMap]
    rfl
  case faults  =>
    replace faults : (ns.filterMap Note.fault?).filterMap Fault.malformed? = _ := faults
    rw [List.map_append, List.map_singleton, faults_concat, List.filterMap_append, h.faults,
      examined_concat, List.filterMap_append, List.filterMap_map, faults]
    rfl

theorem Accounted.turn (h : Accounted ts f.net) (step : Step enable f ns f') :
    Accounted (ts ++ [(enable, ⟨f, ns, f'⟩)]) f'.net := by
  cases step
  case listen ticked    =>
    have only := (Listener.only_tick _ _ _).of_eq ticked
    exact h.pass rfl (by simp) (by simp) (by simp) (by simp) (malformed_of_only only (by decide))
  case connect ticked   =>
    have only := (Connector.only_tick _ _ _).of_eq ticked
    have hr := (Connector.step_of_tick ticked).records_added
    exact h.pass rfl (by simp) (by simp) (by simp) hr (malformed_of_only only (by decide))
  case interrupt ticked =>
    obtain ⟨_, _, _, step⟩ := Interrupts.step_of_tick ticked
    have only := (Interrupts.only_tick _ _).of_eq ticked
    have hc := Fifo.taken_of_append step.scheduler.commands_written
    exact h.pass rfl hc (by simp [afterInterrupts]) (by simp [afterInterrupts])
      (by simp [afterInterrupts]) (malformed_of_only only (by decide))
  case buffer ticked    =>
    obtain ⟨_, hs, _, hb, _⟩ := InputBuffer.moved_of_tick ticked
    exact h.pass rfl (by simp [afterBuffer]) (Fifo.taken_of_append hs) (Fifo.taken_of_append hb)
      (by simp [afterBuffer]) rfl
  case track error _ _ _ =>
    have only : Reporter.buffer.Only (error.toList.map fun e =>
        .fault InputBuffer.origin (.inputBuffer e)) := by
      cases error <;> simp [Fault.reporter]
    exact h.pass rfl (by simp [afterTracker]) (by simp [afterTracker]) (by simp [afterTracker])
      (by simp [afterTracker]) (malformed_of_only only (by decide))
  case receive ticked   => exact h.receive (Receiver.step_of_tick ticked)
  case transmit ticked  =>
    have only := (Transmitter.only_tick _ _ _).of_eq ticked
    exact h.pass rfl (by simp) (by simp) (by simp) (by simp) (malformed_of_only only (by decide))

theorem Accounted.start (h : n.receiver = .start) : Accounted [] n :=
  ⟨h ▸ .idle rfl nofun, rfl, rfl, rfl⟩

end Frame

end Tcp

end ShellInterface
