import ShellInterface.ControlRecord
import ShellInterface.Fifo
import ShellInterface.Watchdog
import ShellInterface.Report.Traced

namespace ShellInterface.Tcp

inductive Connector.Phase
  | idle
  | serve
  | openRequest (sock : Socket)
  | openReply (sock : Socket)
  | trigger (request : SendRequest)
deriving DecidableEq, Repr

structure Connector where
  phase : Connector.Phase
  watchdog : Watchdog
  -- The connection opened last.
  lastOpened : Option (Socket × SessionId)
deriving DecidableEq, Repr

namespace Connector

structure Links where
  records : Fifo ControlRecord
  openReplies : Fifo OpenReply
  openRequests : Fifo Socket
  closeRequests : Fifo SessionId
  testRequests : Fifo SendRequest
deriving DecidableEq, Repr

def origin : String := "TSIF/COn"

def create (watchdog : Nat) : Connector :=
  ⟨.idle, .create watchdog, none⟩

def closeStray (l : Links) : Traced Links := do
  if l.openReplies.isEmpty || l.closeRequests.isFull then
    return l
  else
    let (reply, openReplies) ← l.openReplies.read
    .fault origin (.unexpectedOpenReply reply.session)
    return { l with openReplies, closeRequests := ← l.closeRequests.write reply.session }

def dropRecord (l : Links) : Traced Links := do
  if l.records.isEmpty then
    return l
  else
    let (record, records) ← l.records.read
    .remark origin (.recordIgnored record)
    return { l with records }

-- While the interface is disabled, replies and records of an earlier time are cleared away.
def idle (c : Connector) (enable : Bool) (l : Links) : Traced (Connector × Links) := do
  if enable then
    return ({ c with phase := .serve }, l)
  else
    return (c, ← dropRecord (← closeStray l))

def dispatch (c : Connector) (r : ControlRecord) : Traced Connector := do
  if r.length = 0 then
    return { c with phase := .openRequest r.sock }
  else
    match c.lastOpened with
    | some (sock, session) =>
      if sock = r.sock then
        return { c with phase := .trigger ⟨session, r.length⟩ }
      else
        .fault origin (.socketMismatch r.sock sock)
        return c
    | none =>
      .fault origin (.noOpenConnection r.sock)
      return c

def serve (c : Connector) (enable : Bool) (l : Links) : Traced (Connector × Links) := do
  if !enable then
    return ({ c with phase := .idle }, l)
  else if l.records.isEmpty then
    return (c, l)
  else
    let (record, records) ← l.records.read
    return (← c.dispatch record, { l with records })

def openRequest (c : Connector) (sock : Socket) (l : Links) : Traced (Connector × Links) := do
  if l.openRequests.isFull then
    return (c, l)
  else
    let openRequests ← l.openRequests.write sock
    .remark origin (.openRequested sock)
    let c := { c with watchdog := c.watchdog.arm, phase := .openReply sock }
    return (c, { l with openRequests })

-- Waits for the outcome of an open request. A reply that comes in the cycle of the expiry still
-- counts. The request is not repeated, so it stays the only one in flight.
def openReply (c : Connector) (sock : Socket) (l : Links) : Traced (Connector × Links) := do
  let c := { c with watchdog := c.watchdog.tick }
  if l.openReplies.isEmpty then
    if c.watchdog.isExpired then
      .fault origin (.openTimeout sock)
      return ({ c with watchdog := c.watchdog.arm }, l)
    else
      return (c, l)
  else
    let (reply, openReplies) ← l.openReplies.read
    let c := { c with phase := .serve }
    if reply.state = .established then
      .remark origin (.connected sock reply.session)
      .count .connectionsOpened
      return ({ c with lastOpened := some (sock, reply.session) }, { l with openReplies })
    else
      .fault origin (.openFailed sock reply.state)
      return (c, { l with openReplies })

def trigger (c : Connector) (request : SendRequest) (l : Links) : Traced (Connector × Links) := do
  if l.testRequests.isFull then
    .remark origin .triggerStalled
    return (c, l)
  else
    let testRequests ← l.testRequests.write request
    .remark origin (.triggered request.session request.length)
    .count .writeTriggers
    return ({ c with phase := .serve }, { l with testRequests })

def tick (c : Connector) (enable : Bool) (l : Links) : Traced (Connector × Links) :=
  match c.phase with
  | .idle             => c.idle enable l
  | .serve            => c.serve enable l
  | .openRequest sock => c.openRequest sock l
  | .openReply sock   => c.openReply sock l
  | .trigger request  => c.trigger request l

end Connector

end ShellInterface.Tcp
