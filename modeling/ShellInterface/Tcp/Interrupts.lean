import ShellInterface.Grant
import ShellInterface.RoundRobin
import ShellInterface.Occupancy
import ShellInterface.Report.Traced
import ShellInterface.Tcp.SessionTable

namespace ShellInterface.Tcp

-- The poster holds at most one notification that it has still to enter.
inductive Poster
  | idle
  | holding (n : Notification)
deriving DecidableEq, Repr

namespace Poster

def origin : String := "TSIF/RIt"

def wantsTable : Poster → Bool
  | idle      => false
  | holding _ => true

def accept (sessions : Nat) (n : Notification) : Traced Poster := do
  if n.length = 0 then
    .fault origin (.zeroLengthNotification n.session)
    .count .discardedNotifications
    return .idle
  else if sessions ≤ n.session.toNat then
    .fault origin (.sessionOutOfRange n.session sessions)
    .count .discardedNotifications
    return .idle
  else
    return .holding n

def tick (p : Poster) (granted : Bool) (table : SessionTable) (notifications : Fifo Notification) :
    Traced (Poster × SessionTable × Fifo Notification) := do
  match p with
  | .idle =>
    if notifications.isEmpty then
      return (.idle, table, notifications)
    else
      let (n, notifications) ← notifications.read
      return (← accept table.size n, table, notifications)
  | .holding n =>
    if granted then
      let table ← table.post n.session n.length n.localPort
      .remark origin (.posted n.session n.localPort n.length)
      .count .notifications
      return (.idle, table, notifications)
    else
      return (p, table, notifications)

end Poster

inductive Scheduler.Phase
  | idle
  | query (session : SessionId)
  | emit (request : ReadRequest) (command : ForwardCommand)
deriving DecidableEq, Repr

structure Scheduler where
  phase : Scheduler.Phase
  turn : RoundRobin
  routes : RoutingTable
deriving DecidableEq, Repr

namespace Scheduler

-- Read requests go to the engine, and a command for each of them to the receive side.
structure Links where
  requests : Fifo ReadRequest
  commands : Fifo ForwardCommand
deriving DecidableEq, Repr

def origin : String := "TSIF/RRh"

def maxLength : Nat := UInt16.size - 1

def create (routes : RoutingTable) : Scheduler :=
  ⟨.idle, .start, routes⟩

-- The table is needed to take bytes from it, not to see which sessions are pending.
def wantsTable (s : Scheduler) : Bool :=
  s.phase matches .query _

def select (s : Scheduler) (table : SessionTable) : Except Halt Scheduler := do
  match ← s.turn.select table.pending with
  | some session => return { s with phase := .query (.ofNat session) }
  | none         => return s

-- How much to request at once: all bytes of the session, as far as a request can name them and
-- `space` bytes of the buffer, counted in 32 bits, can take them.
def requestLength (bytes space : Nat) : UInt16 :=
  .ofNat (min (min bytes maxLength) (space % UInt32.size))

-- Takes bytes from a session and reserves the room for them. Without any room the table is
-- released again, so that notifications can still be posted. The route is that of the latest
-- notification.
def take (s : Scheduler) (session : SessionId) (table : SessionTable) (occupancy : Occupancy) :
    Traced (Scheduler × SessionTable × Occupancy) := do
  match table.entry? session with
  | none => return ({ s with phase := .idle }, table, occupancy)
  | some entry =>
    let space ← Size.mul occupancy.available Chunk.width
    let length := requestLength entry.bytes space
    if length = 0 then
      return ({ s with phase := .idle }, table, occupancy)
    else
      let (left, table) ← table.consume session length.toNat
      .remark origin (.taken session length left.bytes)
      let occupancy ← occupancy.reserve (← Size.units length.toNat Chunk.width)
      let turn ← RoundRobin.serviced session.toNat table.size
      let command := ⟨session, length, s.routes.lookup entry.port⟩
      return ({ s with phase := .emit ⟨session, length⟩ command, turn }, table, occupancy)

-- Writes a request and its command together, as soon as there is room for both: the commands stay
-- aligned with the answers of the engine.
def emit (s : Scheduler) (request : ReadRequest) (command : ForwardCommand) (l : Links) :
    Traced (Scheduler × Links) := do
  if l.requests.isFull || l.commands.isFull then
    return (s, l)
  else
    let requests ← l.requests.write request
    let commands ← l.commands.write command
    .remark origin (.requested request.session request.length command.route)
    .count .readRequests
    .add .requestedBytes (.ofNat request.length.toNat)
    return ({ s with phase := .idle }, { requests, commands })

def tick (s : Scheduler) (granted : Bool) (table : SessionTable) (occupancy : Occupancy)
    (l : Links) : Traced (Scheduler × SessionTable × Occupancy × Links) := do
  match s.phase with
  | .idle => return (← s.select table, table, occupancy, l)
  | .query session =>
    if granted then
      let (s, table, occupancy) ← s.take session table occupancy
      return (s, table, occupancy, l)
    else
      return (s, table, occupancy, l)
  | .emit request command =>
    let (s, l) ← s.emit request command l
    return (s, table, occupancy, l)

end Scheduler

structure Interrupts where
  table : SessionTable
  grant : Grant
  poster : Poster
  scheduler : Scheduler
deriving DecidableEq, Repr

namespace Interrupts

structure Links extends Scheduler.Links where
  notifications : Fifo Notification
  occupancy : Occupancy
deriving DecidableEq, Repr

def create (sessions : Nat) (routes : RoutingTable) : Except Halt Interrupts := do
  return ⟨← SessionTable.create sessions, .idle, .idle, .create routes⟩

-- One cycle of the arbitration, the poster and the scheduler. The grant of this cycle hangs on
-- what the two asked for at its start, and at most one of them changes the table.
def tick (x : Interrupts) (l : Links) : Traced (Interrupts × Links) := do
  let grant := x.grant.next x.poster.wantsTable x.scheduler.wantsTable
  let (poster, table, notifications) ← x.poster.tick (grant == .high) x.table l.notifications
  let (scheduler, table, occupancy, emitted) ←
    x.scheduler.tick (grant == .low) table l.occupancy l.toLinks
  if table.isConsistent then
    return ({ table, grant, poster, scheduler }, { emitted with notifications, occupancy })
  else
    .lift (.error .inconsistentTable)

end Interrupts

end ShellInterface.Tcp
