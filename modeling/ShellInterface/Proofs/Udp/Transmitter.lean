import ShellInterface.Udp.Transmitter

namespace ShellInterface.Udp.Transmitter

def Ready (enable : Bool) (l : Links) : Prop :=
  enable = false ∨ l.headers.isFull = false ∧ l.lengths.isFull = false

inductive Step (enable : Bool) (l : Links) : Transmitter → List Note → Transmitter → Links → Prop
  | rest (app : l.appHeaders.items = [] ∨ l.appLengths.items = [] ∨ ¬Ready enable l)
      (test : l.testRequests.items = [] ∨ ¬Ready enable l) : Step enable l .idle [] .idle l
  | acceptApp {sockets length moreSockets moreLengths headers lengths}
      (readSockets : l.appHeaders.items = sockets :: moreSockets)
      (readLength : l.appLengths.items = length :: moreLengths) (enabled : enable = true)
      (writeSockets : l.headers.write sockets = .ok headers)
      (writeLength : l.lengths.write length = .ok lengths) :
      Step enable l .idle [.remark origin (.appDatagram length sockets)] .app
        { l with
          appHeaders := l.appHeaders.tail, appLengths := l.appLengths.tail, headers, lengths }
  | discardApp {sockets length moreSockets moreLengths}
      (readSockets : l.appHeaders.items = sockets :: moreSockets)
      (readLength : l.appLengths.items = length :: moreLengths) (disabled : enable = false) :
      Step enable l .idle [.remark origin (.appDatagramDiscarded length sockets.dst)] .discard
        { l with appHeaders := l.appHeaders.tail, appLengths := l.appLengths.tail }
  | acceptTest {request rest headers lengths}
      (app : l.appHeaders.items = [] ∨ l.appLengths.items = [])
      (read : l.testRequests.items = request :: rest) (enabled : enable = true)
      (writeSockets : l.headers.write request.sockets = .ok headers)
      (writeLength : l.lengths.write request.length = .ok lengths) :
      Step enable l .idle [.remark origin (.testDatagram request.length request.sockets)]
        (.test (.create request.length.toNat))
        { l with testRequests := l.testRequests.tail, headers, lengths }
  | ignoreTest {request rest} (app : l.appHeaders.items = [] ∨ l.appLengths.items = [])
      (read : l.testRequests.items = request :: rest) (disabled : enable = false) :
      Step enable l .idle [.remark origin (.testDatagramIgnored request.length)] .idle
        { l with testRequests := l.testRequests.tail }
  | stallApp (blocked : l.appData.items = [] ∨ l.data.isFull = true) : Step enable l .app [] .app l
  | sendApp {chunk rest data} (read : l.appData.items = chunk :: rest)
      (write : l.data.write chunk = .ok data) :
      Step enable l .app [.count .appChunks 1] (if chunk.last then .idle else .app)
        { l with appData := l.appData.tail, data }
  | stallTest {pattern} (full : l.data.isFull = true) :
      Step enable l (.test pattern) [] (.test pattern) l
  | sendTest {pattern chunk rest data} (next : pattern.next? = some (chunk, rest))
      (write : l.data.write chunk = .ok data) :
      Step enable l (.test pattern) [.count .testBytes (.ofNat chunk.length)]
        (if chunk.last then .idle else .test rest) { l with data }
  | endTest {pattern} (next : pattern.next? = none) (room : l.data.isFull = false) :
      Step enable l (.test pattern) [] .idle l
  | stallDiscard (empty : l.appData.items = []) : Step enable l .discard [] .discard l
  | discard {chunk rest} (read : l.appData.items = chunk :: rest) :
      Step enable l .discard [] (if chunk.last then .idle else .discard)
        { l with appData := l.appData.tail }

variable {enable : Bool} {t t' : Transmitter} {l l' : Links} {ns : List Note}
  {sockets : SocketPair} {length : UInt16}

theorem writeHeader_eq_ok (h : writeHeader sockets length l = ⟨ns, .ok l'⟩) :
    ∃ headers lengths, l.headers.write sockets = .ok headers ∧
      l.lengths.write length = .ok lengths ∧ l' = { l with headers, lengths } ∧ ns = [] := by
  have ⟨headers, hs, h⟩ := Traced.liftM_stream_bind_eq_ok.mp h
  have ⟨lengths, hl, h⟩ := Traced.liftM_stream_bind_eq_ok.mp h
  cases h
  exact ⟨headers, lengths, hs, hl, rfl, rfl⟩

theorem step_of_startApp (h : startApp enable l = ⟨ns, .ok (t', l')⟩) :
    Step enable l .idle ns t' l' := by
  have ⟨(sockets, _), hs, h⟩ := Traced.liftM_stream_bind_eq_ok.mp h
  have ⟨(length, _), hl, h⟩ := Traced.liftM_stream_bind_eq_ok.mp h
  obtain ⟨_, readSockets, rfl⟩ := Fifo.read_eq_ok hs
  obtain ⟨_, readLength, rfl⟩ := Fifo.read_eq_ok hl
  cases enable
  case false =>
    cases h
    exact .discardApp readSockets readLength rfl
  case true =>
    obtain ⟨_, hn, rfl⟩ := Traced.note_bind_eq_ok.mp h
    obtain ⟨_, _, _, hw, hk, rfl⟩ := Traced.bind_eq_ok.mp hn
    obtain ⟨_, _, writeSockets, writeLength, rfl, rfl⟩ := writeHeader_eq_ok hw
    cases hk
    exact .acceptApp readSockets readLength rfl writeSockets writeLength

theorem step_of_startTest (app : l.appHeaders.items = [] ∨ l.appLengths.items = [])
    (h : startTest enable l = ⟨ns, .ok (t', l')⟩) : Step enable l .idle ns t' l' := by
  have ⟨(request, _), hr, h⟩ := Traced.liftM_stream_bind_eq_ok.mp h
  obtain ⟨_, read, rfl⟩ := Fifo.read_eq_ok hr
  cases enable
  case false =>
    cases h
    exact .ignoreTest app read rfl
  case true =>
    obtain ⟨_, hn, rfl⟩ := Traced.note_bind_eq_ok.mp h
    obtain ⟨_, _, _, hw, hk, rfl⟩ := Traced.bind_eq_ok.mp hn
    obtain ⟨_, _, writeSockets, writeLength, rfl, rfl⟩ := writeHeader_eq_ok hw
    cases hk
    exact .acceptTest app read rfl writeSockets writeLength

theorem ready_iff :
    (!enable || (!l.headers.isFull && !l.lengths.isFull)) = true ↔ Ready enable l := by
  simp [Ready]

theorem step_of_start (h : start enable l = ⟨ns, .ok (t', l')⟩) : Step enable l .idle ns t' l' := by
  dsimp only [start] at h
  split at h
  case isTrue => exact step_of_startApp h
  case isFalse happ =>
    have happ : l.appHeaders.items = [] ∨ l.appLengths.items = [] ∨ ¬Ready enable l := by
      simpa [← ready_iff, Fifo.isEmpty, Decidable.or_iff_not_imp_left] using happ
    split at h
    case isTrue htest =>
      obtain ⟨_, ready⟩ : l.testRequests.items ≠ [] ∧ Ready enable l := by
        simpa [← ready_iff, Fifo.isEmpty] using htest
      exact step_of_startTest (happ.imp_right fun h => h.resolve_right (not_not_intro ready)) h
    case isFalse htest =>
      cases h
      refine .rest happ ?_
      simpa [← ready_iff, Fifo.isEmpty, Decidable.or_iff_not_imp_left] using htest

theorem step_of_sendApp (h : sendApp l = ⟨ns, .ok (t', l')⟩) : Step enable l .app ns t' l' := by
  rcases ha : l.appData.items with _ | ⟨chunk, rest⟩
  case nil =>
    simp [sendApp, Fifo.isEmpty, ha] at h
    obtain ⟨rfl, rfl, rfl⟩ := h
    exact .stallApp (.inl ha)
  case cons =>
    cases hf : l.data.isFull
    case true =>
      simp [sendApp, hf] at h
      obtain ⟨rfl, rfl, rfl⟩ := h
      exact .stallApp (.inr hf)
    case false =>
      obtain ⟨data, hw⟩ := Fifo.write_of_not_isFull (a := chunk) hf
      simp [sendApp, Fifo.isEmpty, ha, hf, Fifo.read_of_items ha, hw] at h
      obtain ⟨rfl, rfl, rfl⟩ := h
      exact .sendApp ha hw

theorem step_of_sendTest {pattern : TestPattern} (h : sendTest pattern l = ⟨ns, .ok (t', l')⟩) :
    Step enable l (.test pattern) ns t' l' := by
  cases hf : l.data.isFull <;> simp only [sendTest, hf, if_true, if_false, Bool.false_eq_true] at h
  case true =>
    cases h
    exact .stallTest hf
  case false =>
    rcases hn : pattern.next? with _ | ⟨chunk, rest⟩ <;> simp only [hn] at h
    case none =>
      cases h
      exact .endTest hn hf
    case some =>
      have ⟨data, hw⟩ := Fifo.write_of_not_isFull (a := chunk) hf
      simp [hw] at h
      obtain ⟨rfl, rfl, rfl⟩ := h
      exact .sendTest hn hw

theorem step_of_drain (h : drain l = ⟨ns, .ok (t', l')⟩) : Step enable l .discard ns t' l' := by
  rcases ha : l.appData.items with _ | ⟨chunk, rest⟩
  case nil =>
    simp [drain, Fifo.isEmpty, ha] at h
    obtain ⟨rfl, rfl, rfl⟩ := h
    exact .stallDiscard ha
  case cons =>
    simp [drain, Fifo.isEmpty, ha, Fifo.read_of_items ha] at h
    obtain ⟨rfl, rfl, rfl⟩ := h
    exact .discard ha

theorem step_of_tick (h : t.tick enable l = ⟨ns, .ok (t', l')⟩) : Step enable l t ns t' l' := by
  cases t
  case idle    => exact step_of_start h
  case app     => exact step_of_sendApp h
  case test    => exact step_of_sendTest h
  case discard => exact step_of_drain h

end ShellInterface.Udp.Transmitter
