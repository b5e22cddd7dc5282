import ShellInterface.Udp.Receiver

namespace ShellInterface.Udp.Receiver

def requested (chunk : Chunk) : UInt16 :=
  .ofNat (BigEndian.decode (chunk.data.take 2))

inductive HandsOver (sockets : SocketPair) (chunk : Chunk) (requests : Fifo TestRequest) :
    List Note → Fifo TestRequest → Prop
  | malformed (short : chunk.length < 2) :
      HandsOver sockets chunk requests [.fault origin (.malformedRecord chunk.length)] requests
  | empty (whole : 2 ≤ chunk.length) (zero : requested chunk = 0) :
      HandsOver sockets chunk requests [.fault origin (.zeroLengthTestRequest sockets.src)] requests
  | request {requests'} (whole : 2 ≤ chunk.length) (nonzero : requested chunk ≠ 0)
      (write : requests.write ⟨sockets.swapped, requested chunk⟩ = .ok requests') :
      HandsOver sockets chunk requests
        [.remark origin (.datagramRequested (requested chunk) sockets.src),
          .count .controlRecords 1] requests'

inductive Step (enable : Bool) (r : Receiver) (l : Links) : List Note → Receiver → Links → Prop
  | stall : Step enable r l [] r l
  | start {sockets rest ns phase} (idle : r.phase = .readHeader)
      (read : l.headers.items = sockets :: rest)
      (dispatch : r.dispatch enable sockets = ⟨ns, .ok phase⟩) :
      Step enable r l ns { r with phase } { l with headers := l.headers.tail }
  | forwardHeader {sockets appHeaders} (phase : r.phase = .forwardHeader sockets)
      (write : l.appHeaders.write sockets = .ok appHeaders) :
      Step enable r l [.count .forwardedStreams 1] { r with phase := .data true }
        { l with appHeaders }
  | forward {chunk rest appData} (phase : r.phase = .data true)
      (read : l.data.items = chunk :: rest) (write : l.appData.write chunk = .ok appData) :
      Step enable r l [.count .forwardedChunks 1]
        (if chunk.last then { r with phase := .readHeader } else r)
        { l with data := l.data.tail, appData }
  | drop {chunk rest} (phase : r.phase = .data false) (read : l.data.items = chunk :: rest) :
      Step enable r l [.count .droppedChunks 1]
        (if chunk.last then { r with phase := .readHeader } else r)
        { l with data := l.data.tail }
  | extract {sockets chunk rest ns testRequests} (phase : r.phase = .extractLength sockets)
      (read : l.data.items = chunk :: rest)
      (handsOver : HandsOver sockets chunk l.testRequests ns testRequests) :
      Step enable r l (.count .droppedChunks 1 :: ns)
        { r with phase := if chunk.last then .readHeader else .data false }
        { l with data := l.data.tail, testRequests }

variable {enable : Bool} {r r' : Receiver} {l l' : Links} {ns : List Note} {sockets : SocketPair}
  {chunk : Chunk}

theorem handsOver_of_eq (h : handOver sockets chunk l = ⟨ns, .ok l'⟩) :
    HandsOver sockets chunk l.testRequests ns l'.testRequests ∧
      l' = { l with testRequests := l'.testRequests } := by
  unfold handOver at h
  split at h
  case isTrue short =>
    cases h
    exact ⟨.malformed short, rfl⟩
  case isFalse whole =>
    dsimp only at h
    split at h
    case isTrue zero =>
      cases h
      exact ⟨.empty (Nat.le_of_not_lt whole) zero, rfl⟩
    case isFalse nonzero =>
      obtain ⟨_, hn, rfl⟩ := Traced.note_bind_eq_ok.mp h
      have ⟨_, hw, hn⟩ := Traced.liftM_stream_bind_eq_ok.mp hn
      cases hn
      exact ⟨.request (Nat.le_of_not_lt whole) nonzero hw, rfl⟩

theorem step_of_readHeader (hp : r.phase = .readHeader)
    (h : r.readHeader enable l = ⟨ns, .ok (r', l')⟩) : Step enable r l ns r' l' := by
  unfold readHeader at h
  split at h
  case isTrue =>
    cases h
    exact .stall
  case isFalse =>
    have ⟨(sockets, _), hr, h⟩ := Traced.liftM_stream_bind_eq_ok.mp h
    obtain ⟨_, read, rfl⟩ := Fifo.read_eq_ok hr
    obtain ⟨_, phase, _, hd, hk, rfl⟩ := Traced.bind_eq_ok.mp h
    cases hk
    rw [List.append_nil]
    exact .start hp read hd

theorem step_of_forwardHeader (hp : r.phase = .forwardHeader sockets)
    (h : r.forwardHeader sockets l = ⟨ns, .ok (r', l')⟩) : Step enable r l ns r' l' := by
  unfold forwardHeader at h
  split at h
  case isTrue =>
    cases h
    exact .stall
  case isFalse =>
    have ⟨_, hw, h⟩ := Traced.liftM_stream_bind_eq_ok.mp h
    cases h
    exact .forwardHeader hp hw

theorem step_of_moveData {keep : Bool} (hp : r.phase = .data keep)
    (h : r.moveData keep l = ⟨ns, .ok (r', l')⟩) : Step enable r l ns r' l' := by
  unfold moveData at h
  split at h
  case isTrue =>
    cases h
    exact .stall
  case isFalse =>
    have ⟨(chunk, _), hr, h⟩ := Traced.liftM_stream_bind_eq_ok.mp h
    obtain ⟨_, read, rfl⟩ := Fifo.read_eq_ok hr
    obtain ⟨_, _, _, hm, hk, rfl⟩ := Traced.bind_eq_ok.mp h
    cases hk
    rw [List.append_nil]
    cases keep
    case false =>
      cases hm
      exact .drop hp read
    case true =>
      have ⟨_, hw, hm⟩ := Traced.liftM_stream_bind_eq_ok.mp hm
      cases hm
      exact .forward hp read hw

theorem step_of_extractLength (hp : r.phase = .extractLength sockets)
    (h : r.extractLength sockets l = ⟨ns, .ok (r', l')⟩) : Step enable r l ns r' l' := by
  unfold extractLength at h
  split at h
  case isTrue =>
    cases h
    exact .stall
  case isFalse =>
    have ⟨(chunk, _), hr, h⟩ := Traced.liftM_stream_bind_eq_ok.mp h
    obtain ⟨_, read, rfl⟩ := Fifo.read_eq_ok hr
    obtain ⟨_, hn, rfl⟩ := Traced.note_bind_eq_ok.mp h
    obtain ⟨_, l₁, _, ho, hk, rfl⟩ := Traced.bind_eq_ok.mp hn
    cases hk
    have ⟨handsOver, hl⟩ := handsOver_of_eq ho
    rw [List.append_nil, hl]
    exact .extract hp read handsOver

theorem step_of_tick (h : r.tick enable l = ⟨ns, .ok (r', l')⟩) : Step enable r l ns r' l' := by
  cases hp : r.phase <;> simp only [tick, hp] at h
  case readHeader    => exact step_of_readHeader hp h
  case forwardHeader => exact step_of_forwardHeader hp h
  case data          => exact step_of_moveData hp h
  case extractLength => exact step_of_extractLength hp h

end ShellInterface.Udp.Receiver
