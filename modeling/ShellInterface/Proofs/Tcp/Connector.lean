import ShellInterface.Tcp.Connector

namespace ShellInterface.Tcp.Connector

inductive Stray (l : Links) : List Note → Links → Prop
  | keep (blocked : l.openReplies.items = [] ∨ l.closeRequests.isFull = true) : Stray l [] l
  | close {reply rest closeRequests} (read : l.openReplies.items = reply :: rest)
      (write : l.closeRequests.write reply.session = .ok closeRequests) :
      Stray l [.fault origin (.unexpectedOpenReply reply.session)]
        { l with openReplies := l.openReplies.tail, closeRequests }

inductive Forgotten (l : Links) : List Note → Links → Prop
  | none (empty : l.records.items = []) : Forgotten l [] l
  | drop {record rest} (read : l.records.items = record :: rest) :
      Forgotten l [.remark origin (.recordIgnored record)] { l with records := l.records.tail }

def refusal (c : Connector) (r : ControlRecord) : Fault :=
  match c.lastOpened with
  | some (sock, _) => .socketMismatch r.sock sock
  | none           => .noOpenConnection r.sock

inductive Step (enable : Bool) (c : Connector) (l : Links) :
    List Note → Connector → Links → Prop
  | wake (phase : c.phase = .idle) (enabled : enable = true) :
      Step enable c l [] { c with phase := .serve } l
  | clear {ns ms l₁ l₂} (phase : c.phase = .idle) (disabled : enable = false)
      (stray : Stray l ns l₁) (forgotten : Forgotten l₁ ms l₂) : Step enable c l (ns ++ ms) c l₂
  | sleep (phase : c.phase = .serve) (disabled : enable = false) :
      Step enable c l [] { c with phase := .idle } l
  | rest (phase : c.phase = .serve) (enabled : enable = true) (empty : l.records.items = []) :
      Step enable c l [] c l
  | connect {record rest} (phase : c.phase = .serve) (enabled : enable = true)
      (read : l.records.items = record :: rest) (zero : record.length = 0) :
      Step enable c l [] { c with phase := .openRequest record.sock }
        { l with records := l.records.tail }
  | transmit {record rest session} (phase : c.phase = .serve) (enabled : enable = true)
      (read : l.records.items = record :: rest) (nonzero : record.length ≠ 0)
      (opened : c.lastOpened = some (record.sock, session)) :
      Step enable c l [] { c with phase := .trigger ⟨session, record.length⟩ }
        { l with records := l.records.tail }
  | refuse {record rest} (phase : c.phase = .serve) (enabled : enable = true)
      (read : l.records.items = record :: rest) (nonzero : record.length ≠ 0)
      (unopened : ∀ session, c.lastOpened ≠ some (record.sock, session)) :
      Step enable c l [.fault origin (c.refusal record)] c { l with records := l.records.tail }
  | stallOpen {sock} (phase : c.phase = .openRequest sock) (full : l.openRequests.isFull = true) :
      Step enable c l [] c l
  | ask {sock openRequests} (phase : c.phase = .openRequest sock)
      (write : l.openRequests.write sock = .ok openRequests) :
      Step enable c l [.remark origin (.openRequested sock)]
        { c with watchdog := c.watchdog.arm, phase := .openReply sock } { l with openRequests }
  | wait {sock} (phase : c.phase = .openReply sock) (empty : l.openReplies.items = [])
      (running : c.watchdog.tick.isExpired = false) :
      Step enable c l [] { c with watchdog := c.watchdog.tick } l
  | expire {sock} (phase : c.phase = .openReply sock) (empty : l.openReplies.items = [])
      (expired : c.watchdog.tick.isExpired = true) :
      Step enable c l [.fault origin (.openTimeout sock)]
        { c with watchdog := c.watchdog.tick.arm } l
  | establish {sock reply rest} (phase : c.phase = .openReply sock)
      (read : l.openReplies.items = reply :: rest) (established : reply.state = .established) :
      Step enable c l
        [.remark origin (.connected sock reply.session), .count .connectionsOpened 1]
        ⟨.serve, c.watchdog.tick, some (sock, reply.session)⟩
        { l with openReplies := l.openReplies.tail }
  | fail {sock reply rest} (phase : c.phase = .openReply sock)
      (read : l.openReplies.items = reply :: rest) (failed : reply.state ≠ .established) :
      Step enable c l [.fault origin (.openFailed sock reply.state)]
        { c with watchdog := c.watchdog.tick, phase := .serve }
        { l with openReplies := l.openReplies.tail }
  | stallTrigger {request} (phase : c.phase = .trigger request)
      (full : l.testRequests.isFull = true) :
      Step enable c l [.remark origin .triggerStalled] c l
  | trigger {request testRequests} (phase : c.phase = .trigger request)
      (write : l.testRequests.write request = .ok testRequests) :
      Step enable c l
        [.remark origin (.triggered request.session request.length), .count .writeTriggers 1]
        { c with phase := .serve } { l with testRequests }

variable {c c' : Connector} {l l' : Links} {enable : Bool} {ns : List Note}

theorem stray_of_closeStray (h : closeStray l = ⟨ns, .ok l'⟩) : Stray l ns l' := by
  rcases hr : l.openReplies.items with _ | ⟨reply, rest⟩
  case nil =>
    simp [closeStray, Fifo.isEmpty, hr] at h
    obtain ⟨rfl, rfl⟩ := h
    exact .keep (.inl hr)
  case cons =>
    cases hf : l.closeRequests.isFull
    case true =>
      simp [closeStray, hf] at h
      obtain ⟨rfl, rfl⟩ := h
      exact .keep (.inr hf)
    case false =>
      obtain ⟨closeRequests, hw⟩ := Fifo.write_of_not_isFull (a := reply.session) hf
      simp [closeStray, Fifo.isEmpty, hr, hf, Fifo.read_of_items hr, hw] at h
      obtain ⟨rfl, rfl⟩ := h
      exact .close hr hw

theorem forgotten_of_dropRecord (h : dropRecord l = ⟨ns, .ok l'⟩) : Forgotten l ns l' := by
  rcases hr : l.records.items with _ | ⟨record, rest⟩
  case nil =>
    simp [dropRecord, Fifo.isEmpty, hr] at h
    obtain ⟨rfl, rfl⟩ := h
    exact .none hr
  case cons =>
    simp [dropRecord, Fifo.isEmpty, hr, Fifo.read_of_items hr] at h
    obtain ⟨rfl, rfl⟩ := h
    exact .drop hr

theorem step_of_idle (hp : c.phase = .idle) (h : c.idle enable l = ⟨ns, .ok (c', l')⟩) :
    Step enable c l ns c' l' := by
  cases enable <;> simp only [idle, if_true, if_false, Bool.false_eq_true] at h
  case true =>
    cases h
    exact .wake hp rfl
  case false =>
    obtain ⟨_, _, _, hs, hl, rfl⟩ := Traced.bind_eq_ok.mp h
    obtain ⟨_, _, _, hd, hk, rfl⟩ := Traced.bind_eq_ok.mp hl
    cases hk
    simpa using Step.clear hp rfl (stray_of_closeStray hs) (forgotten_of_dropRecord hd)

theorem step_of_dispatch {record : ControlRecord} {rest : List ControlRecord}
    (hp : c.phase = .serve) (hr : l.records.items = record :: rest)
    (h : c.dispatch record = ⟨ns, .ok c'⟩) :
    Step true c l ns c' { l with records := l.records.tail } := by
  unfold dispatch at h
  split at h
  case isTrue hz =>
    cases h
    exact .connect hp rfl hr hz
  case isFalse hn =>
    split at h
    case h_1 sock session ho =>
      split at h
      case isTrue hs =>
        cases h
        exact .transmit hp rfl hr hn (hs ▸ ho)
      case isFalse hs =>
        cases h
        have step : Step true c l _ _ _ := .refuse hp rfl hr hn (by simp [ho, hs])
        simpa [refusal, ho] using step
    case h_2 ho =>
      cases h
      have step : Step true c l _ _ _ := .refuse hp rfl hr hn (by simp [ho])
      simpa [refusal, ho] using step

theorem step_of_serve (hp : c.phase = .serve) (h : c.serve enable l = ⟨ns, .ok (c', l')⟩) :
    Step enable c l ns c' l' := by
  cases enable
  case false =>
    cases h
    exact .sleep hp rfl
  case true =>
    rcases hr : l.records.items with _ | ⟨record, rest⟩
    case nil =>
      simp [serve, Fifo.isEmpty, hr] at h
      obtain ⟨rfl, rfl, rfl⟩ := h
      exact .rest hp rfl hr
    case cons =>
      simp only [serve, Fifo.isEmpty, hr, List.isEmpty_cons, Bool.not_true, Bool.false_eq_true,
        if_false, Fifo.read_of_items hr, Traced.liftM_stream_ok, Traced.bind_ok,
        List.nil_append] at h
      obtain ⟨_, _, _, hd, hk, rfl⟩ := Traced.bind_eq_ok.mp h
      cases hk
      simpa using step_of_dispatch hp hr hd

theorem step_of_openRequest {sock : Socket} (hp : c.phase = .openRequest sock)
    (h : c.openRequest sock l = ⟨ns, .ok (c', l')⟩) : Step enable c l ns c' l' := by
  cases hf : l.openRequests.isFull
  case true =>
    simp [openRequest, hf] at h
    obtain ⟨rfl, rfl, rfl⟩ := h
    exact .stallOpen hp hf
  case false =>
    have ⟨openRequests, hw⟩ := Fifo.write_of_not_isFull (a := sock) hf
    simp [openRequest, hf, hw] at h
    obtain ⟨rfl, rfl, rfl⟩ := h
    exact .ask hp hw

theorem step_of_openReply {sock : Socket} (hp : c.phase = .openReply sock)
    (h : c.openReply sock l = ⟨ns, .ok (c', l')⟩) : Step enable c l ns c' l' := by
  rcases hr : l.openReplies.items with _ | ⟨reply, rest⟩
  case nil =>
    cases he : c.watchdog.tick.isExpired <;> simp [openReply, Fifo.isEmpty, hr, he] at h <;>
      obtain ⟨rfl, rfl, rfl⟩ := h
    case false => exact .wait hp hr he
    case true  => exact .expire hp hr he
  case cons =>
    by_cases hs : reply.state = .established <;>
      simp [openReply, Fifo.isEmpty, hr, Fifo.read_of_items hr, hs] at h <;>
      obtain ⟨rfl, rfl, rfl⟩ := h
    case pos => exact .establish hp hr hs
    case neg => exact .fail hp hr hs

theorem step_of_trigger {request : SendRequest} (hp : c.phase = .trigger request)
    (h : c.trigger request l = ⟨ns, .ok (c', l')⟩) : Step enable c l ns c' l' := by
  cases hf : l.testRequests.isFull
  case true =>
    simp [Connector.trigger, hf] at h
    obtain ⟨rfl, rfl, rfl⟩ := h
    exact .stallTrigger hp hf
  case false =>
    have ⟨testRequests, hw⟩ := Fifo.write_of_not_isFull (a := request) hf
    simp [Connector.trigger, hf, hw] at h
    obtain ⟨rfl, rfl, rfl⟩ := h
    exact .trigger hp hw

theorem step_of_tick (h : c.tick enable l = ⟨ns, .ok (c', l')⟩) : Step enable c l ns c' l' := by
  cases hp : c.phase <;> simp only [tick, hp] at h
  case idle        => exact step_of_idle hp h
  case serve       => exact step_of_serve hp h
  case openRequest => exact step_of_openRequest hp h
  case openReply   => exact step_of_openReply hp h
  case trigger     => exact step_of_trigger hp h

end ShellInterface.Tcp.Connector
