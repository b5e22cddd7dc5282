import ShellInterface.Udp.Closer

namespace ShellInterface.Udp.Closer

inductive Step (enable : Bool) (c : Closer) (s : Links) : List Note → Closer → Links → Prop
  | sleep (phase : c.phase = .idle) (disabled : enable = false) (empty : s.replies.items = []) :
      Step enable c s [] c s
  | clear {reply rest} (phase : c.phase = .idle) (disabled : enable = false)
      (read : s.replies.items = reply :: rest) :
      Step enable c s [.fault origin .unexpectedCloseReply] c { s with replies := s.replies.tail }
  | wake (phase : c.phase = .idle) (enabled : enable = true) :
      Step enable c s [] { c with phase := .request } s
  | stall (phase : c.phase = .request) (full : s.requests.isFull = true) :
      Step enable c s [.remark origin (.closeStalled c.port)] c s
  | ask {requests} (phase : c.phase = .request) (write : s.requests.write c.port = .ok requests) :
      Step enable c s [.remark origin (.closeRequested c.port)] { c with phase := .await }
        { s with requests }
  | wait (phase : c.phase = .await) (empty : s.replies.items = []) : Step enable c s [] c s
  | deny {rest} (phase : c.phase = .await) (read : s.replies.items = true :: rest) :
      Step enable c s [.fault origin (.closeDenied c.port)] { c with phase := .request }
        { s with replies := s.replies.tail }
  | confirm {rest} (phase : c.phase = .await) (read : s.replies.items = false :: rest) :
      Step enable c s [.remark origin (.closed c.port), .count .closedPorts 1]
        { c with phase := .done } { s with replies := s.replies.tail }
  | rest (phase : c.phase = .done) : Step enable c s [] c s

variable {c c' : Closer} {s s' : Links} {enable : Bool} {ns : List Note}

theorem step_of_idle (hp : c.phase = .idle) (h : c.idle enable s = ⟨ns, .ok (c', s')⟩) :
    Step enable c s ns c' s' := by
  cases enable <;> simp only [idle, if_true, if_false, Bool.false_eq_true] at h
  case true =>
    cases h
    exact .wake hp rfl
  case false =>
    rcases hr : s.replies.items with _ | ⟨reply, rest⟩
    case nil =>
      simp [Fifo.isEmpty, hr] at h
      obtain ⟨rfl, rfl, rfl⟩ := h
      exact .sleep hp rfl hr
    case cons =>
      simp [Fifo.isEmpty, hr, Fifo.read_of_items hr] at h
      obtain ⟨rfl, rfl, rfl⟩ := h
      exact .clear hp rfl hr

theorem step_of_request (hp : c.phase = .request) (h : c.request s = ⟨ns, .ok (c', s')⟩) :
    Step enable c s ns c' s' := by
  cases hf : s.requests.isFull
  case true =>
    simp [request, hf] at h
    obtain ⟨rfl, rfl, rfl⟩ := h
    exact .stall hp hf
  case false =>
    have ⟨requests, hw⟩ := Fifo.write_of_not_isFull (a := c.port) hf
    simp [request, hf, hw] at h
    obtain ⟨rfl, rfl, rfl⟩ := h
    exact .ask hp hw

theorem step_of_await (hp : c.phase = .await) (h : c.await s = ⟨ns, .ok (c', s')⟩) :
    Step enable c s ns c' s' := by
  rcases hr : s.replies.items with _ | ⟨stillOpen, rest⟩
  case nil =>
    simp [await, Fifo.isEmpty, hr] at h
    obtain ⟨rfl, rfl, rfl⟩ := h
    exact .wait hp hr
  case cons =>
    cases stillOpen <;> simp [await, Fifo.isEmpty, hr, Fifo.read_of_items hr] at h <;>
      obtain ⟨rfl, rfl, rfl⟩ := h
    case false => exact .confirm hp hr
    case true  => exact .deny hp hr

theorem step_of_tick (h : c.tick enable s = ⟨ns, .ok (c', s')⟩) : Step enable c s ns c' s' := by
  cases hp : c.phase <;> simp only [tick, hp] at h
  case idle    => exact step_of_idle hp h
  case request => exact step_of_request hp h
  case await   => exact step_of_await hp h
  case done    =>
    cases h
    exact .rest hp

end ShellInterface.Udp.Closer
