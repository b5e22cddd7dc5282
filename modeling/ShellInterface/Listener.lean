import ShellInterface.Fifo
import ShellInterface.Watchdog
import ShellInterface.Report.Traced

namespace ShellInterface

inductive Listener.Phase
  | idle
  | request
  | await
  | done
deriving DecidableEq, Repr

structure Listener where
  origin : String
  ports : List Port
  -- The number of ports that were confirmed, which is the index of the port in hand.
  opened : Nat
  phase : Listener.Phase
  watchdog : Watchdog
deriving DecidableEq, Repr

namespace Listener

structure Links where
  requests : Fifo Port
  replies : Fifo Bool
deriving DecidableEq, Repr

def create (origin : String) (ports : List Port) (watchdog : Nat) : Listener :=
  ⟨origin, ports, 0, .idle, .create watchdog⟩

def isDone (l : Listener) : Bool :=
  l.phase == .done

def port (l : Listener) : Except Halt Port :=
  match l.ports[l.opened]? with
  | some p => .ok p
  | none   => .error (.indexOutOfRange l.opened l.ports.length)

def proceed (l : Listener) : Listener :=
  { l with phase := if l.opened < l.ports.length then .request else .done }

def request (l : Listener) (s : Links) : Traced (Listener × Links) := do
  let port ← l.port
  if s.requests.isFull then
    .remark l.origin (.listenStalled port)
    return (l, s)
  else
    let requests ← s.requests.write port
    .remark l.origin (.listenRequested port)
    return ({ l with watchdog := l.watchdog.arm, phase := .await }, { s with requests })

-- Waits for the reply. A reply that comes in the cycle of the expiry still counts, and every
-- cycle of the wait counts as one of the watchdog, the last one too.
def await (l : Listener) (s : Links) : Traced (Listener × Links) := do
  let l := { l with watchdog := l.watchdog.tick }
  let port ← l.port
  if s.replies.isEmpty then
    if l.watchdog.isExpired then
      .fault l.origin (.listenTimeout port)
      .count .listenRetries
      return ({ l with phase := .request }, s)
    else
      return (l, s)
  else
    let (accepted, replies) ← s.replies.read
    if accepted then
      .remark l.origin (.listening port)
      .count .listenedPorts
      return ({ l with opened := l.opened + 1 }.proceed, { s with replies })
    else
      .fault l.origin (.listenDenied port)
      .count .listenRetries
      return ({ l with phase := .request }, { s with replies })

def tick (l : Listener) (enable : Bool) (s : Links) : Traced (Listener × Links) :=
  match l.phase with
  | .idle    => pure (if enable then l.proceed else l, s)
  | .request => l.request s
  | .await   => l.await s
  | .done    => pure (l, s)

end Listener

end ShellInterface
