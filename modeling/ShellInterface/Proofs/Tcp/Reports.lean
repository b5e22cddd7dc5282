import ShellInterface.Proofs.Run
import ShellInterface.Tcp.Interface

namespace ShellInterface

inductive Reporter
  | listener
  | connector
  | interrupts
  | buffer
  | receiver
  | transmitter
  | closer
deriving DecidableEq, Repr

def Fault.reporter : Fault → Reporter
  | .zeroLengthNotification .. => .interrupts
  | .sessionOutOfRange ..      => .interrupts
  | .streamLengthMismatch ..   => .receiver
  | .sessionMismatch ..        => .receiver
  | .malformedRecord ..        => .receiver
  | .zeroLengthTestRequest ..  => .receiver
  | .socketMismatch ..         => .connector
  | .noOpenConnection ..       => .connector
  | .openFailed ..             => .connector
  | .openTimeout ..            => .connector
  | .unexpectedOpenReply ..    => .connector
  | .unknownSendReply ..       => .transmitter
  | .noConnection ..           => .transmitter
  | .sendRetriesExhausted ..   => .transmitter
  | .inputBuffer ..            => .buffer
  | .listenDenied ..           => .listener
  | .listenTimeout ..          => .listener
  | .closeDenied ..            => .closer
  | .unexpectedCloseReply      => .closer

def Reporter.Only (r : Reporter) (ns : List Note) : Prop :=
  ∀ f ∈ ns.filterMap Note.fault?, f.reporter = r

namespace Reporter

variable {α β : Type} {r : Reporter}

@[simp]
theorem only_nil : r.Only [] := nofun

@[simp]
theorem only_remark {origin : String} {m : Remark} {ns : List Note} :
    r.Only (.remark origin m :: ns) ↔ r.Only ns := by
  simp [Only, Note.fault?]

@[simp]
theorem only_count {c : Counter} {k : UInt64} {ns : List Note} :
    r.Only (.count c k :: ns) ↔ r.Only ns := by
  simp [Only, Note.fault?]

@[simp]
theorem only_fault {origin : String} {f : Fault} {ns : List Note} :
    r.Only (.fault origin f :: ns) ↔ f.reporter = r ∧ r.Only ns := by
  simp [Only, Note.fault?]

@[simp]
theorem only_append {ns ms : List Note} : r.Only (ns ++ ms) ↔ r.Only ns ∧ r.Only ms := by
  simp [Only, or_imp, forall_and]

@[simp]
theorem only_bind {x : Traced α} {f : α → Traced β} :
    r.Only (x >>= f).notes ↔ r.Only x.notes ∧ ∀ a, x.outcome = .ok a → r.Only (f a).notes := by
  rcases x with ⟨ns, _ | a⟩ <;> simp

theorem Only.of_eq {x : Traced α} {ns : List Note} {outcome : Except Halt α} (h : r.Only x.notes)
    (hx : x = ⟨ns, outcome⟩) : r.Only ns := by
  subst hx
  exact h

@[simp]
theorem notes_liftM (x : Except Halt α) : (liftM x : Traced α).notes = [] := rfl

@[simp]
theorem notes_liftM_stream (x : Except StreamError α) : (liftM x : Traced α).notes = [] := rfl

@[simp]
theorem only_ite {p : Prop} [Decidable p] {x y : Traced α} :
    r.Only (if p then x else y).notes ↔ (p → r.Only x.notes) ∧ (¬ p → r.Only y.notes) := by
  split <;> simp [*]

end Reporter

section Kinds

variable {p : Fault → Bool} {r : Reporter} {ns ms : List Note}

def Fault.among (p : Fault → Bool) (ns : List Note) : List Fault :=
  (ns.filterMap Note.fault?).filter p

def Reporter.reports (r : Reporter) (f : Fault) : Bool :=
  f.reporter = r

abbrev Reporter.faults (r : Reporter) (ns : List Note) : List Fault :=
  Fault.among r.reports ns

@[simp]
theorem Fault.among_nil : Fault.among p [] = [] := rfl

@[simp]
theorem Fault.among_append : Fault.among p (ns ++ ms) = Fault.among p ns ++ Fault.among p ms := by
  simp [among]

@[simp]
theorem Fault.among_remark {origin : String} {m : Remark} :
    Fault.among p (.remark origin m :: ns) = Fault.among p ns := rfl

@[simp]
theorem Fault.among_count {c : Counter} {k : UInt64} :
    Fault.among p (.count c k :: ns) = Fault.among p ns := rfl

@[simp]
theorem Fault.among_fault {origin : String} {f : Fault} : Fault.among p (.fault origin f :: ns) =
    (if p f then [f] else []) ++ Fault.among p ns := by
  by_cases h : p f <;> simp [among, Note.fault?, h]

theorem Reporter.Only.among_eq_nil (h : r.Only ns) (hp : ∀ f, p f = true → f.reporter ≠ r) :
    Fault.among p ns = [] :=
  List.filter_eq_nil_iff.mpr fun f hf hpf => hp f hpf (h f hf)

theorem Reporter.Only.faults_of_ne {r' : Reporter} (h : r.Only ns) (hr : r ≠ r') :
    r'.faults ns = [] :=
  h.among_eq_nil fun _ hf he => hr (he.symm.trans (of_decide_eq_true hf))

theorem Reporter.filter_faults (hp : ∀ f, p f = true → f.reporter = r) :
    (r.faults ns).filter p = Fault.among p ns := by
  rw [faults, Fault.among, Fault.among, List.filter_filter]
  refine List.filter_congr fun f _ => ?_
  cases h : p f
  case false => rfl
  case true  => simp [reports, hp f h]

end Kinds

namespace Listener

theorem only_request (l : Listener) (s : Links) : Reporter.listener.Only (l.request s).notes := by
  simp [request]

theorem only_await (l : Listener) (s : Links) : Reporter.listener.Only (l.await s).notes := by
  simp [await, Fault.reporter]

theorem only_tick (l : Listener) (enable : Bool) (s : Links) :
    Reporter.listener.Only (l.tick enable s).notes := by
  cases hp : l.phase <;> simp only [tick, hp]
  case idle    => simp
  case request => exact only_request l s
  case await   => exact only_await l s
  case done    => simp

end Listener

namespace Tcp

namespace Connector

theorem only_idle (c : Connector) (enable : Bool) (l : Links) :
    Reporter.connector.Only (c.idle enable l).notes := by
  simp [idle, closeStray, dropRecord, Fault.reporter]

theorem only_dispatch (c : Connector) (r : ControlRecord) :
    Reporter.connector.Only (c.dispatch r).notes := by
  unfold dispatch
  cases c.lastOpened <;> simp [Fault.reporter]

theorem only_serve (c : Connector) (enable : Bool) (l : Links) :
    Reporter.connector.Only (c.serve enable l).notes := by
  simp [serve, only_dispatch]

theorem only_openReply (c : Connector) (sock : Socket) (l : Links) :
    Reporter.connector.Only (c.openReply sock l).notes := by
  simp [openReply, Fault.reporter]

theorem only_tick (c : Connector) (enable : Bool) (l : Links) :
    Reporter.connector.Only (c.tick enable l).notes := by
  cases hp : c.phase <;> simp only [tick, hp]
  case idle           => exact only_idle c enable l
  case serve          => exact only_serve c enable l
  case openRequest    => simp [openRequest]
  case openReply sock => exact only_openReply c sock l
  case trigger        => simp [trigger]

end Connector

namespace Interrupts

theorem only_poster (p : Poster) (granted : Bool) (t : SessionTable) (s : Fifo Notification) :
    Reporter.interrupts.Only (p.tick granted t s).notes := by
  cases p <;> simp [Poster.tick, Poster.accept, Fault.reporter]

theorem only_take (s : Scheduler) (session : SessionId) (t : SessionTable) (o : Occupancy) :
    Reporter.interrupts.Only (s.take session t o).notes := by
  unfold Scheduler.take
  cases t.entry? session <;> simp

theorem only_scheduler (s : Scheduler) (granted : Bool) (t : SessionTable) (o : Occupancy)
    (l : Scheduler.Links) : Reporter.interrupts.Only (s.tick granted t o l).notes := by
  cases hp : s.phase <;> simp [Scheduler.tick, hp, only_take, Scheduler.emit]

theorem only_tick (x : Interrupts) (l : Links) : Reporter.interrupts.Only (x.tick l).notes := by
  simp [tick, only_poster, only_scheduler, Traced.lift]

end Interrupts

namespace Receiver

theorem only_consume (r : Receiver) (l : Links) :
    Reporter.receiver.Only (r.consume l).notes := by
  simp [consume]

theorem only_finish (r : Receiver) : Reporter.receiver.Only (r.finish).notes := by
  simp [finish, Fault.reporter]

theorem only_handOver (chunk : Chunk) (l : Links) :
    Reporter.receiver.Only (handOver chunk l).notes := by
  unfold handOver
  cases ControlRecord.ofChunk? chunk <;> simp [Fault.reporter]

theorem only_tick (r : Receiver) (enable : Bool) (l : Links) :
    Reporter.receiver.Only (r.tick enable l).notes := by
  cases hp : r.phase <;> simp only [tick, hp]
  case idle          => simp [idle, gate]
  case forwardHeader => simp [forwardHeader, Fault.reporter]
  case forwardData   => simp [forwardData, only_consume, only_finish]
  case sinkHeader    =>
    simp [sinkHeader, Fault.reporter]
    intros
    split <;> simp
  case sinkData      => simp [sinkData, only_consume, only_finish]
  case extractRecord => simp [extractRecord, only_consume, only_finish, only_handOver]

end Receiver

namespace Transmitter

theorem only_abandon {f : Fault} (t : Transmitter) (h : f.reporter = .transmitter) :
    Reporter.transmitter.Only (t.abandon f).notes := by
  unfold abandon
  cases t.requester <;> simp [h]

theorem only_follow (t : Transmitter) (reply : SendReply) :
    Reporter.transmitter.Only (t.follow reply).notes := by
  unfold follow
  split
  case h_1 => cases t.requester <;> simp
  case h_2 =>
    simp
    exact fun _ _ _ => only_abandon _ rfl
  case h_3 => exact only_abandon t rfl
  case h_4 => exact only_abandon t rfl

theorem only_sendTest (t : Transmitter) (pattern : TestPattern) (l : Links) :
    Reporter.transmitter.Only (t.sendTest pattern l).notes := by
  unfold sendTest
  cases pattern.next? <;> simp

theorem only_tick (t : Transmitter) (enable : Bool) (l : Links) :
    Reporter.transmitter.Only (t.tick enable l).notes := by
  cases hp : t.phase <;> simp only [tick, hp]
  case idle             => simp [idle, accept]
  case request          => simp [ask]
  case await            => simp [await, only_follow]
  case appData          => simp [sendApp]
  case testData pattern => exact only_sendTest t pattern l
  case drain            => simp [drain]

end Transmitter

end Tcp

end ShellInterface
