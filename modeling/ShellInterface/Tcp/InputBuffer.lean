import ShellInterface.Chunk
import ShellInterface.Fifo
import ShellInterface.Tcp.Message
import ShellInterface.Report.Traced

namespace ShellInterface.Tcp.InputBuffer

structure Links where
  data : Fifo Chunk
  sessions : Fifo SessionId
  buffer : Fifo Chunk
  bufferSessions : Fifo SessionId
  enqueued : Fifo Unit
deriving DecidableEq, Repr

def moveSession (s : Links) : Except StreamError Links := do
  if s.sessions.isEmpty || s.bufferSessions.isFull then
    return s
  else
    let (session, sessions) ← s.sessions.read
    return { s with sessions, bufferSessions := ← s.bufferSessions.write session }

def moveChunk (s : Links) : Except StreamError Links := do
  if s.data.isEmpty || s.buffer.isFull || s.enqueued.isFull then
    return s
  else
    let (chunk, data) ← s.data.read
    let buffer ← s.buffer.write chunk
    return { s with data, buffer, enqueued := ← s.enqueued.write () }

def tick (s : Links) : Except StreamError Links := do
  moveChunk (← moveSession s)

end ShellInterface.Tcp.InputBuffer
