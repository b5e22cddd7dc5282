namespace ShellInterface

inductive Counter
  | notifications
  | discardedNotifications
  | readRequests
  | requestedBytes
  | forwardedChunks
  | droppedChunks
  | forwardedStreams
  | controlRecords
  | connectionsOpened
  | writeTriggers
  | sendRequests
  | sendRetries
  | abandonedSends
  | appChunks
  | testBytes
  | listenedPorts
  | listenRetries
  | closedPorts
deriving DecidableEq, Repr

namespace Counter

def all : List Counter :=
  [notifications, discardedNotifications, readRequests, requestedBytes, forwardedChunks,
    droppedChunks, forwardedStreams, controlRecords, connectionsOpened, writeTriggers, sendRequests,
    sendRetries, abandonedSends, appChunks, testBytes, listenedPorts, listenRetries, closedPorts]

def name : Counter → String
  | notifications          => "notifications"
  | discardedNotifications => "discarded_notifications"
  | readRequests           => "read_requests"
  | requestedBytes         => "requested_bytes"
  | forwardedChunks        => "forwarded_chunks"
  | droppedChunks          => "dropped_chunks"
  | forwardedStreams       => "forwarded_streams"
  | controlRecords         => "control_records"
  | connectionsOpened      => "connections_opened"
  | writeTriggers          => "write_triggers"
  | sendRequests           => "send_requests"
  | sendRetries            => "send_retries"
  | abandonedSends         => "abandoned_sends"
  | appChunks              => "app_chunks"
  | testBytes              => "test_bytes"
  | listenedPorts          => "listened_ports"
  | listenRetries          => "listen_retries"
  | closedPorts            => "closed_ports"

-- The place of a counter in `all`.
def index : Counter → Fin 18
  | notifications          => 0
  | discardedNotifications => 1
  | readRequests           => 2
  | requestedBytes         => 3
  | forwardedChunks        => 4
  | droppedChunks          => 5
  | forwardedStreams       => 6
  | controlRecords         => 7
  | connectionsOpened      => 8
  | writeTriggers          => 9
  | sendRequests           => 10
  | sendRetries            => 11
  | abandonedSends         => 12
  | appChunks              => 13
  | testBytes              => 14
  | listenedPorts          => 15
  | listenRetries          => 16
  | closedPorts            => 17

theorem all_getElem_index (c : Counter) : all[c.index] = c := by
  cases c <;> rfl

theorem index_inj {c d : Counter} : c.index = d.index ↔ c = d := by
  refine ⟨fun h => ?_, congrArg index⟩
  rw [← all_getElem_index c, ← all_getElem_index d, h]

end Counter

structure Stats where
  values : Vector UInt64 18
deriving DecidableEq, Repr

namespace Stats

def zero : Stats :=
  ⟨.replicate 18 0⟩

def get (s : Stats) (c : Counter) : UInt64 :=
  s.values[c.index]

def add (s : Stats) (c : Counter) (n : UInt64) : Stats :=
  ⟨s.values.set c.index (s.values[c.index] + n)⟩

@[simp]
theorem get_zero (c : Counter) : zero.get c = 0 := by
  simp [get, zero]

theorem get_add (s : Stats) (c d : Counter) (n : UInt64) :
    (s.add c n).get d = if c = d then s.get d + n else s.get d := by
  unfold get add
  by_cases h : c = d
  · subst h; simp
  · have hi : (c.index : Nat) ≠ d.index := fun e => h (Counter.index_inj.mp (Fin.ext e))
    simp [h, Vector.getElem_set_ne, hi]

end Stats

end ShellInterface
