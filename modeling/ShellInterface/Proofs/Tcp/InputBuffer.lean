import ShellInterface.Proofs.Run
import ShellInterface.Tcp.InputBuffer

namespace ShellInterface.Tcp.InputBuffer

inductive Session (s : Links) : Links → Prop
  | keep (blocked : s.sessions.isEmpty = true ∨ s.bufferSessions.isFull = true) : Session s s
  | move {session rest bufferSessions} (read : s.sessions.items = session :: rest)
      (write : s.bufferSessions.write session = .ok bufferSessions) :
      Session s { s with sessions := s.sessions.tail, bufferSessions }

inductive Data (s : Links) : Links → Prop
  | keep (blocked : (s.data.isEmpty = true ∨ s.buffer.isFull = true) ∨ s.enqueued.isFull = true) :
      Data s s
  | move {chunk rest buffer enqueued} (read : s.data.items = chunk :: rest)
      (write : s.buffer.write chunk = .ok buffer) (signal : s.enqueued.write () = .ok enqueued) :
      Data s { s with data := s.data.tail, buffer, enqueued }

variable {s s' : Links}

theorem session_of_moveSession (h : moveSession s = .ok s') : Session s s' := by
  unfold moveSession at h
  split at h
  case isTrue hb =>
    cases h
    exact .keep (by simpa using hb)
  case isFalse hb =>
    simp only [Bool.or_eq_true, not_or, Bool.not_eq_true] at hb
    rcases hs : s.sessions.items with _ | ⟨session, rest⟩
    case nil => simp [Fifo.isEmpty, hs] at hb
    case cons =>
      obtain ⟨bufferSessions, hw⟩ := Fifo.write_of_not_isFull (a := session) hb.right
      simp only [Fifo.read_of_items hs, hw, bind, Except.bind] at h
      cases h
      exact .move hs hw

theorem data_of_moveChunk (h : moveChunk s = .ok s') : Data s s' := by
  unfold moveChunk at h
  split at h
  case isTrue hb =>
    cases h
    exact .keep (by simpa using hb)
  case isFalse hb =>
    simp only [Bool.or_eq_true, not_or, Bool.not_eq_true] at hb
    rcases hs : s.data.items with _ | ⟨chunk, rest⟩
    case nil => simp [Fifo.isEmpty, hs] at hb
    case cons =>
      obtain ⟨buffer, hw⟩ := Fifo.write_of_not_isFull (a := chunk) hb.left.right
      obtain ⟨enqueued, hv⟩ := Fifo.write_of_not_isFull (a := ()) hb.right
      simp only [Fifo.read_of_items hs, hw, hv, bind, Except.bind] at h
      cases h
      exact .move hs hw hv

theorem moves_of_tick (h : tick s = .ok s') : ∃ t, Session s t ∧ Data t s' := by
  unfold tick at h
  cases hs : moveSession s <;> rw [hs] at h
  case error => cases h
  case ok t => exact ⟨t, session_of_moveSession hs, data_of_moveChunk h⟩

theorem Session.moved (h : Session s s') :
    s'.data = s.data ∧ s'.buffer = s.buffer ∧ s'.enqueued = s.enqueued ∧
    s.sessions.items = s.sessions.taken s'.sessions ++ s'.sessions.items ∧
    s'.bufferSessions.items = s.bufferSessions.items ++ s.sessions.taken s'.sessions := by
  cases h
  case keep           => simp
  case move read write => simp [read, Fifo.taken_tail read, (Fifo.write_ok write).left]

theorem Data.moved (h : Data s s') :
    s'.sessions = s.sessions ∧ s'.bufferSessions = s.bufferSessions ∧
    s.data.items = s.data.taken s'.data ++ s'.data.items ∧
    s'.buffer.items = s.buffer.items ++ s.data.taken s'.data ∧
    s'.enqueued.items.length = s.enqueued.items.length + (s.data.taken s'.data).length := by
  cases h
  case keep => simp
  case move read write signal =>
    simp [read, Fifo.taken_tail read, (Fifo.write_ok write).left, (Fifo.write_ok signal).left]

theorem moved_of_tick (h : tick s = .ok s') :
    s.sessions.items = s.sessions.taken s'.sessions ++ s'.sessions.items ∧
    s'.bufferSessions.items = s.bufferSessions.items ++ s.sessions.taken s'.sessions ∧
    s.data.items = s.data.taken s'.data ++ s'.data.items ∧
    s'.buffer.items = s.buffer.items ++ s.data.taken s'.data ∧
    s'.enqueued.items.length = s.enqueued.items.length + (s.data.taken s'.data).length := by
  have ⟨t, session, data⟩ := moves_of_tick h
  have ⟨hd, hb, he, hi, ho⟩ := session.moved
  have ⟨hi', ho', hd', hb', he'⟩ := data.moved
  rw [hd] at hd' hb' he'
  rw [hb] at hb'
  rw [he] at he'
  rw [hi', ho']
  exact ⟨hi, ho, hd', hb', he'⟩

end ShellInterface.Tcp.InputBuffer
