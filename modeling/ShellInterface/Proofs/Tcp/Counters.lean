import ShellInterface.Proofs.Counters
import ShellInterface.Proofs.Listener.Step
import ShellInterface.Proofs.Tcp.Connector
import ShellInterface.Proofs.Tcp.Interrupts
import ShellInterface.Proofs.Tcp.Receiver
import ShellInterface.Proofs.Tcp.Reports
import ShellInterface.Proofs.Tcp.Transmitter

namespace ShellInterface

def Counter.keeper : Counter → Reporter
  | notifications          => .interrupts
  | discardedNotifications => .interrupts
  | readRequests           => .interrupts
  | requestedBytes         => .interrupts
  | forwardedChunks        => .receiver
  | droppedChunks          => .receiver
  | forwardedStreams       => .receiver
  | controlRecords         => .receiver
  | connectionsOpened      => .connector
  | writeTriggers          => .connector
  | sendRequests           => .transmitter
  | sendRetries            => .transmitter
  | abandonedSends         => .transmitter
  | appChunks              => .transmitter
  | testBytes              => .transmitter
  | listenedPorts          => .listener
  | listenRetries          => .listener
  | closedPorts            => .closer

def Reporter.Keeps (r : Reporter) (ns : List Note) : Prop :=
  ∀ c n, .count c n ∈ ns → c.keeper = r

namespace Reporter

variable {r : Reporter} {ns ms : List Note}

@[simp]
theorem keeps_nil : r.Keeps [] := nofun

@[simp]
theorem keeps_remark {origin : String} {m : Remark} :
    r.Keeps (.remark origin m :: ns) ↔ r.Keeps ns := by
  simp [Keeps]

@[simp]
theorem keeps_fault {origin : String} {f : Fault} :
    r.Keeps (.fault origin f :: ns) ↔ r.Keeps ns := by
  simp [Keeps]

@[simp]
theorem keeps_count {c : Counter} {n : UInt64} :
    r.Keeps (.count c n :: ns) ↔ c.keeper = r ∧ r.Keeps ns := by
  simp [Keeps, or_imp, forall_and]

@[simp]
theorem keeps_append : r.Keeps (ns ++ ms) ↔ r.Keeps ns ∧ r.Keeps ms := by
  simp [Keeps, or_imp, forall_and]

theorem Keeps.tally_eq_zero {c : Counter} (h : r.Keeps ns) (hc : c.keeper ≠ r) :
    tally c ns = 0 := by
  induction ns
  case nil          => rfl
  case cons n ns ih =>
    cases n
    case remark => simpa using ih (by simpa using h)
    case fault  => simpa using ih (by simpa using h)
    case count d _ =>
      have ⟨hd, h⟩ := keeps_count.mp h
      have hne : d ≠ c := fun he => hc (he ▸ hd)
      rw [tally_count, if_neg hne, ih h]

end Reporter

theorem Listener.Step.keeps {enable : Bool} {l l' : Listener} {s s' : Links} {ns : List Note}
    (h : Step enable l s ns l' s') : Reporter.listener.Keeps ns := by
  cases h <;> simp [Counter.keeper]

namespace Tcp

theorem Connector.Step.keeps {enable : Bool} {c c' : Connector} {l l' : Links} {ns : List Note}
    (h : Step enable c l ns c' l') : Reporter.connector.Keeps ns := by
  cases h
  case clear stray forgotten => cases stray <;> cases forgotten <;> simp
  all_goals simp [Counter.keeper]

theorem Poster.Step.keeps {p p' : Poster} {granted : Bool} {t t' : SessionTable}
    {s s' : Fifo Notification} {ns : List Note} (h : Step granted t s p ns p' t' s') :
    Reporter.interrupts.Keeps ns := by
  cases h <;> simp [Counter.keeper]

theorem Scheduler.Step.keeps {s s' : Scheduler} {granted : Bool} {t t' : SessionTable}
    {o o' : Occupancy} {l l' : Links} {ns : List Note} (h : Step granted t o l s ns s' t' o' l') :
    Reporter.interrupts.Keeps ns := by
  cases h <;> simp [Counter.keeper]

theorem Interrupts.Step.keeps {x x' : Interrupts} {l l' : Links} {ns ms ks : List Note}
    {t : SessionTable} (h : Step x l ns x' l' ms ks t) : Reporter.interrupts.Keeps ns :=
  h.notes ▸ Reporter.keeps_append.mpr ⟨h.poster.keeps, h.scheduler.keeps⟩

namespace Receiver

variable {v v' : Receiver} {l l' : Links} {enable : Bool} {ns : List Note}

theorem keeps_gate {cmd gated : ForwardCommand} (h : gate cmd enable = ⟨ns, .ok gated⟩) :
    Reporter.receiver.Keeps ns := by
  unfold gate at h
  split at h <;> cases h <;> simp

theorem Advance.keeps {chunk : Chunk} {next : Phase} (h : Advance v chunk next ns v') :
    Reporter.receiver.Keeps ns := by
  cases h <;> simp

theorem Step.keeps (h : Step enable v l ns v' l') : Reporter.receiver.Keeps ns := by
  cases h
  case start gate => exact keeps_gate gate
  case forwardData chunk _ _ _ _ _ _ _ _ advance =>
    cases chunk.last <;> simp [Counter.keeper, advance.keeps]
  case sinkData advance        => simp [Counter.keeper, advance.keeps]
  case extractRecord advance   => simp [Counter.keeper, advance.keeps]
  case malformedRecord advance => simp [Counter.keeper, advance.keeps]
  all_goals simp

end Receiver

theorem Transmitter.Step.keeps {enable : Bool} {t t' : Transmitter} {l l' : Links} {ns : List Note}
    (h : Step enable t l ns t' l') : Reporter.transmitter.Keeps ns := by
  cases h
  case sendTest _ chunk _ _ _ _ _ => cases chunk.last <;> simp [Counter.keeper]
  all_goals simp [Counter.keeper]

end Tcp

end ShellInterface
