import ShellInterface.Fifo
import ShellInterface.Report.Traced

namespace ShellInterface.Udp

inductive Closer.Phase
  | idle
  | request
  | await
  | done
deriving DecidableEq, Repr

structure Closer where
  port : Port
  phase : Closer.Phase
deriving DecidableEq, Repr

namespace Closer

-- The streams to and from the engine. A reply says whether the port is still open.
structure Links where
  requests : Fifo Port
  replies : Fifo Bool
deriving DecidableEq, Repr

def origin : String := "USIF/CLs"

def create (port : Port) : Closer :=
  ⟨port, .idle⟩

def isDone (c : Closer) : Bool :=
  c.phase == .done

-- Before the start, every reply is a stray one.
def idle (c : Closer) (enable : Bool) (s : Links) : Traced (Closer × Links) := do
  if enable then
    return ({ c with phase := .request }, s)
  else if s.replies.isEmpty then
    return (c, s)
  else
    let (_, replies) ← s.replies.read
    .fault origin .unexpectedCloseReply
    return (c, { s with replies })

def request (c : Closer) (s : Links) : Traced (Closer × Links) := do
  if s.requests.isFull then
    .remark origin (.closeStalled c.port)
    return (c, s)
  else
    let requests ← s.requests.write c.port
    .remark origin (.closeRequested c.port)
    return ({ c with phase := .await }, { s with requests })

def await (c : Closer) (s : Links) : Traced (Closer × Links) := do
  if s.replies.isEmpty then
    return (c, s)
  else
    let (stillOpen, replies) ← s.replies.read
    if stillOpen then
      .fault origin (.closeDenied c.port)
      return ({ c with phase := .request }, { s with replies })
    else
      .remark origin (.closed c.port)
      .count .closedPorts
      return ({ c with phase := .done }, { s with replies })

def tick (c : Closer) (enable : Bool) (s : Links) : Traced (Closer × Links) :=
  match c.phase with
  | .idle    => c.idle enable s
  | .request => c.request s
  | .await   => c.await s
  | .done    => pure (c, s)

end Closer

end ShellInterface.Udp
