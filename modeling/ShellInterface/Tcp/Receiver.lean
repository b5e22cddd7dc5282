import ShellInterface.Size
import ShellInterface.ControlRecord
import ShellInterface.Fifo
import ShellInterface.Report.Traced

namespace ShellInterface.Tcp

inductive Receiver.Phase
  | idle
  | forwardHeader
  | forwardData
  | sinkHeader
  | sinkData
  | extractRecord
deriving DecidableEq, Repr

structure Receiver where
  phase : Receiver.Phase
  -- The command in hand.
  command : Option ForwardCommand
  -- The bytes seen of the stream in hand.
  tally : Nat
deriving DecidableEq, Repr

namespace Receiver

structure Links where
  commands : Fifo ForwardCommand
  sessions : Fifo SessionId
  data : Fifo Chunk
  appSessions : Fifo SessionId
  appLengths : Fifo UInt16
  appData : Fifo Chunk
  records : Fifo ControlRecord
  dequeued : Fifo Unit
deriving DecidableEq, Repr

def origin : String := "TSIF/RDp"

def start : Receiver :=
  ⟨.idle, none, 0⟩

-- Any command but a plain discard is replaced by one while the interface is disabled.
def gate (command : ForwardCommand) (enable : Bool) : Traced ForwardCommand := do
  if !enable && command.route != .dump then
    .remark origin (.streamDiscarded command.session command.length)
    return { command with route := .dump }
  else
    return command

-- Takes the next command. What becomes of its stream is settled here once and for all, so that an
-- enable edge never cuts a stream in two.
def idle (r : Receiver) (enable : Bool) (l : Links) : Traced (Receiver × Links) := do
  if l.commands.isEmpty then
    return (r, l)
  else
    let (command, commands) ← l.commands.read
    let command ← gate command enable
    let phase : Phase :=
      match command.route.action with
      | .keep => .forwardHeader
      | .drop => .sinkHeader
    return (⟨phase, some command, 0⟩, { l with commands })

-- The command in hand. Without one, the stream of commands was misused.
def current (r : Receiver) : Except StreamError ForwardCommand :=
  match r.command with
  | some command => .ok command
  | none         => .error (.empty "fwd_cmd")

-- The header of a kept stream, unless the stream belongs to another session than expected: then
-- it is discarded as a whole.
def forwardHeader (r : Receiver) (l : Links) : Traced (Receiver × Links) := do
  if l.sessions.isEmpty || l.appSessions.isFull || l.appLengths.isFull then
    return (r, l)
  else
    let command ← r.current
    let (session, sessions) ← l.sessions.read
    if session = command.session then
      let appSessions ← l.appSessions.write session
      let appLengths ← l.appLengths.write command.length
      .remark origin (.forwarding session command.length)
      return ({ r with phase := .forwardData }, { l with sessions, appSessions, appLengths })
    else
      .fault origin (.sessionMismatch command.session session)
      return ({ r with phase := .sinkData }, { l with sessions })

def consume (r : Receiver) (l : Links) : Traced (Chunk × Receiver × Links) := do
  let (chunk, data) ← l.data.read
  let dequeued ← l.dequeued.write ()
  let tally ← Size.add r.tally chunk.length
  return (chunk, { r with tally }, { l with data, dequeued })

-- Checks the tally at the end of a stream.
def finish (r : Receiver) : Traced Receiver := do
  let command ← r.current
  if r.tally != command.length.toNat then
    .fault origin (.streamLengthMismatch command.session command.length r.tally)
  return { r with command := none, phase := .idle }

def forwardData (r : Receiver) (l : Links) : Traced (Receiver × Links) := do
  if l.data.isEmpty || l.appData.isFull || l.dequeued.isFull then
    return (r, l)
  else
    let (chunk, r, l) ← r.consume l
    let l := { l with appData := ← l.appData.write chunk }
    .count .forwardedChunks
    if chunk.last then
      .count .forwardedStreams
      return (← r.finish, l)
    else
      return (r, l)

-- The header of a dropped stream. A record is read only from a stream of the expected session.
def sinkHeader (r : Receiver) (l : Links) : Traced (Receiver × Links) := do
  if l.sessions.isEmpty then
    return (r, l)
  else
    let command ← r.current
    let (session, sessions) ← l.sessions.read
    let l := { l with sessions }
    if session = command.session then
      match command.route.dropCode with
      | .nop => return ({ r with phase := .sinkData }, l)
      | .gen => return ({ r with phase := .extractRecord }, l)
    else
      .fault origin (.sessionMismatch command.session session)
      return ({ r with phase := .sinkData }, l)

def sinkData (r : Receiver) (l : Links) : Traced (Receiver × Links) := do
  if l.data.isEmpty || l.dequeued.isFull then
    return (r, l)
  else
    let (chunk, r, l) ← r.consume l
    .count .droppedChunks
    if chunk.last then
      return (← r.finish, l)
    else
      return (r, l)

def handOver (chunk : Chunk) (l : Links) : Traced Links := do
  match ControlRecord.ofChunk? chunk with
  | some record =>
    .remark origin (.recordFound record)
    let records ← l.records.write record
    .count .controlRecords
    return { l with records }
  | none =>
    .fault origin (.malformedRecord chunk.length)
    return l

def extractRecord (r : Receiver) (l : Links) : Traced (Receiver × Links) := do
  if l.data.isEmpty || l.dequeued.isFull || l.records.isFull then
    return (r, l)
  else
    let (chunk, r, l) ← r.consume l
    .count .droppedChunks
    let l ← handOver chunk l
    if chunk.last then
      return (← r.finish, l)
    else
      return ({ r with phase := .sinkData }, l)

def tick (r : Receiver) (enable : Bool) (l : Links) : Traced (Receiver × Links) :=
  match r.phase with
  | .idle          => r.idle enable l
  | .forwardHeader => r.forwardHeader l
  | .forwardData   => r.forwardData l
  | .sinkHeader    => r.sinkHeader l
  | .sinkData      => r.sinkData l
  | .extractRecord => r.extractRecord l

end Receiver

end ShellInterface.Tcp
