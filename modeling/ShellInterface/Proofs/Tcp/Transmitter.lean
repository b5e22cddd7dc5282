import ShellInterface.Tcp.Transmitter

namespace ShellInterface.Tcp.Transmitter

def transfer (t : Transmitter) : Phase :=
  match t.requester with
  | .app  => .appData
  | .test => .testData (.create t.request.length.toNat)

def rejected (t : Transmitter) : Phase :=
  match t.requester with
  | .app  => .drain
  | .test => .idle

inductive Step (enable : Bool) (t : Transmitter) (l : Links) :
    List Note → Transmitter → Links → Prop
  | rest (phase : t.phase = .idle) (app : l.appRequests.items = [])
      (test : l.testRequests.items = []) : Step enable t l [] t l
  | acceptApp {request rest} (phase : t.phase = .idle)
      (read : l.appRequests.items = request :: rest) (enabled : enable = true) :
      Step enable t l [.remark origin (.sendAccepted .app request.session request.length)]
        { t with request, requester := .app, retries := t.budget, phase := .request }
        { l with appRequests := l.appRequests.tail }
  | discardApp {request rest} (phase : t.phase = .idle)
      (read : l.appRequests.items = request :: rest) (disabled : enable = false) :
      Step enable t l [.remark origin (.streamDiscarded request.session request.length)]
        { t with request, requester := .app, phase := .drain }
        { l with appRequests := l.appRequests.tail }
  | acceptTest {request rest} (phase : t.phase = .idle) (app : l.appRequests.items = [])
      (read : l.testRequests.items = request :: rest) (enabled : enable = true) :
      Step enable t l [.remark origin (.sendAccepted .test request.session request.length)]
        { t with request, requester := .test, retries := t.budget, phase := .request }
        { l with testRequests := l.testRequests.tail }
  | ignoreTest {request rest} (phase : t.phase = .idle) (app : l.appRequests.items = [])
      (read : l.testRequests.items = request :: rest) (disabled : enable = false) :
      Step enable t l [.remark origin (.testIgnored request.session)]
        { t with request, requester := .test }
        { l with testRequests := l.testRequests.tail }
  | stall (phase : t.phase = .request) (full : l.requests.isFull = true) : Step enable t l [] t l
  | ask {requests} (phase : t.phase = .request)
      (write : l.requests.write t.request = .ok requests) :
      Step enable t l [.count .sendRequests 1] { t with phase := .await } { l with requests }
  | wait (phase : t.phase = .await) (empty : l.replies.items = []) : Step enable t l [] t l
  | grant {reply rest} (phase : t.phase = .await) (read : l.replies.items = reply :: rest)
      (verdict : SendVerdict.ofCode? reply.code = some .granted) :
      Step enable t l [] { t with phase := t.transfer } { l with replies := l.replies.tail }
  | retry {reply rest} (phase : t.phase = .await) (read : l.replies.items = reply :: rest)
      (verdict : SendVerdict.ofCode? reply.code = some .noSpace) (left : 1 < t.retries) :
      Step enable t l
        [.remark origin (.retrying reply.session reply.space), .count .sendRetries 1]
        { t with retries := t.retries - 1, phase := .request }
        { l with replies := l.replies.tail }
  | exhaust {reply rest} (phase : t.phase = .await) (read : l.replies.items = reply :: rest)
      (verdict : SendVerdict.ofCode? reply.code = some .noSpace) (last : t.retries = 1) :
      Step enable t l
        [.fault origin (.sendRetriesExhausted t.request.session t.budget), .count .abandonedSends 1]
        { t with retries := 0, phase := t.rejected } { l with replies := l.replies.tail }
  | disconnect {reply rest} (phase : t.phase = .await) (read : l.replies.items = reply :: rest)
      (verdict : SendVerdict.ofCode? reply.code = some .noConnection) :
      Step enable t l
        [.fault origin (.noConnection t.request.session), .count .abandonedSends 1]
        { t with phase := t.rejected } { l with replies := l.replies.tail }
  | misread {reply rest} (phase : t.phase = .await) (read : l.replies.items = reply :: rest)
      (verdict : SendVerdict.ofCode? reply.code = none) :
      Step enable t l
        [.fault origin (.unknownSendReply reply.session reply.code), .count .abandonedSends 1]
        { t with phase := t.rejected } { l with replies := l.replies.tail }
  | stallApp (phase : t.phase = .appData)
      (blocked : l.appData.items = [] ∨ l.data.isFull = true) : Step enable t l [] t l
  | sendApp {chunk rest data} (phase : t.phase = .appData) (read : l.appData.items = chunk :: rest)
      (write : l.data.write chunk = .ok data) :
      Step enable t l [.count .appChunks 1]
        (if chunk.last then { t with phase := .idle } else t)
        { l with appData := l.appData.tail, data }
  | stallTest {pattern} (phase : t.phase = .testData pattern) (full : l.data.isFull = true) :
      Step enable t l [] t l
  | sendTest {pattern chunk rest data} (phase : t.phase = .testData pattern)
      (next : pattern.next? = some (chunk, rest)) (write : l.data.write chunk = .ok data) :
      Step enable t l
        (.count .testBytes (.ofNat chunk.length) :: if chunk.last then
          [.remark origin (.testSent t.request.session t.request.length)] else [])
        { t with phase := if chunk.last then .idle else .testData rest } { l with data }
  | endTest {pattern} (phase : t.phase = .testData pattern) (next : pattern.next? = none)
      (room : l.data.isFull = false) : Step enable t l [] { t with phase := .idle } l
  | stallDrain (phase : t.phase = .drain) (empty : l.appData.items = []) : Step enable t l [] t l
  | drain {chunk rest} (phase : t.phase = .drain) (read : l.appData.items = chunk :: rest) :
      Step enable t l [] (if chunk.last then { t with phase := .idle } else t)
        { l with appData := l.appData.tail }

variable {t t' : Transmitter} {l l' : Links} {enable : Bool} {ns : List Note}

theorem step_of_idle (hp : t.phase = .idle) (h : t.idle enable l = ⟨ns, .ok (t', l')⟩) :
    Step enable t l ns t' l' := by
  rcases ha : l.appRequests.items with _ | ⟨request, rest⟩
  case cons =>
    cases enable <;> simp [idle, accept, Fifo.isEmpty, ha, Fifo.read_of_items ha] at h <;>
      obtain ⟨rfl, rfl, rfl⟩ := h
    case false => exact .discardApp hp ha rfl
    case true  => exact .acceptApp hp ha rfl
  case nil =>
    rcases ht : l.testRequests.items with _ | ⟨request, rest⟩
    case nil =>
      simp [idle, Fifo.isEmpty, ha, ht] at h
      obtain ⟨rfl, rfl, rfl⟩ := h
      exact .rest hp ha ht
    case cons =>
      cases enable <;> simp [idle, accept, Fifo.isEmpty, ha, ht, Fifo.read_of_items ht] at h <;>
        obtain ⟨rfl, rfl, rfl⟩ := h
      case false => exact .ignoreTest hp ha ht rfl
      case true  => exact .acceptTest hp ha ht rfl

theorem step_of_ask (hp : t.phase = .request) (h : t.ask l = ⟨ns, .ok (t', l')⟩) :
    Step enable t l ns t' l' := by
  cases hf : l.requests.isFull
  case true =>
    simp [ask, hf] at h
    obtain ⟨rfl, rfl, rfl⟩ := h
    exact .stall hp hf
  case false =>
    have ⟨requests, hw⟩ := Fifo.write_of_not_isFull (a := t.request) hf
    simp [ask, hf, hw] at h
    obtain ⟨rfl, rfl, rfl⟩ := h
    exact .ask hp hw

theorem abandon_eq (t : Transmitter) (f : Fault) : t.abandon f =
    ⟨[.fault origin f, .count .abandonedSends 1], .ok { t with phase := t.rejected }⟩ := by
  unfold abandon rejected
  cases t.requester <;> rfl

theorem step_of_follow {reply : SendReply} {rest : List SendReply} (hp : t.phase = .await)
    (hr : l.replies.items = reply :: rest) (h : t.follow reply = ⟨ns, .ok t'⟩) :
    Step enable t l ns t' { l with replies := l.replies.tail } := by
  unfold follow at h
  split at h
  case h_1 hv =>
    have step : Step enable t l _ _ _ := .grant hp hr hv
    cases hq : t.requester <;> simp only [hq] at h <;> cases h <;>
      simpa only [transfer, hq] using step
  case h_2 hv =>
    by_cases ht : 1 ≤ t.retries
    case neg => simp [Size.sub, ht] at h
    case pos =>
      simp only [Size.sub_of_le ht, Traced.liftM_ok, Traced.bind_ok, List.nil_append] at h
      split at h
      case isTrue hz =>
        rw [abandon_eq] at h
        cases h
        exact hz ▸ .exhaust hp hr hv (by omega)
      case isFalse hz =>
        cases h
        exact .retry hp hr hv (by omega)
  case h_3 hv =>
    rw [abandon_eq] at h
    cases h
    exact .disconnect hp hr hv
  case h_4 hv =>
    rw [abandon_eq] at h
    cases h
    exact .misread hp hr hv

theorem step_of_await (hp : t.phase = .await) (h : t.await l = ⟨ns, .ok (t', l')⟩) :
    Step enable t l ns t' l' := by
  rcases hr : l.replies.items with _ | ⟨reply, rest⟩
  case nil =>
    simp [await, Fifo.isEmpty, hr] at h
    obtain ⟨rfl, rfl, rfl⟩ := h
    exact .wait hp hr
  case cons =>
    have ha : t.await l =
        t.follow reply >>= fun t' => pure (t', { l with replies := l.replies.tail }) := by
      simp [await, Fifo.isEmpty, hr, Fifo.read_of_items hr]
    obtain ⟨_, _, _, hf, hk, rfl⟩ := Traced.bind_eq_ok.mp (ha ▸ h)
    cases hk
    rw [List.append_nil]
    exact step_of_follow hp hr hf

theorem step_of_sendApp (hp : t.phase = .appData) (h : t.sendApp l = ⟨ns, .ok (t', l')⟩) :
    Step enable t l ns t' l' := by
  rcases ha : l.appData.items with _ | ⟨chunk, rest⟩
  case nil =>
    simp [sendApp, Fifo.isEmpty, ha] at h
    obtain ⟨rfl, rfl, rfl⟩ := h
    exact .stallApp hp (.inl ha)
  case cons =>
    cases hf : l.data.isFull
    case true =>
      simp [sendApp, hf] at h
      obtain ⟨rfl, rfl, rfl⟩ := h
      exact .stallApp hp (.inr hf)
    case false =>
      obtain ⟨data, hw⟩ := Fifo.write_of_not_isFull (a := chunk) hf
      simp [sendApp, Fifo.isEmpty, ha, hf, Fifo.read_of_items ha, hw] at h
      obtain ⟨rfl, rfl, rfl⟩ := h
      exact .sendApp hp ha hw

theorem step_of_sendTest {pattern : TestPattern} (hp : t.phase = .testData pattern)
    (h : t.sendTest pattern l = ⟨ns, .ok (t', l')⟩) : Step enable t l ns t' l' := by
  cases hf : l.data.isFull <;> simp only [sendTest, hf, if_true, if_false, Bool.false_eq_true] at h
  case true =>
    cases h
    exact .stallTest hp hf
  case false =>
    rcases hn : pattern.next? with _ | ⟨chunk, rest⟩ <;> simp only [hn] at h
    case none =>
      cases h
      exact .endTest hp hn hf
    case some =>
      have ⟨data, hw⟩ := Fifo.write_of_not_isFull (a := chunk) hf
      have step : Step enable t l _ _ _ := .sendTest hp hn hw
      cases hl : chunk.last <;> simp [hw, hl] at h <;> obtain ⟨rfl, rfl, rfl⟩ := h <;>
        simpa [hl] using step

theorem step_of_drain (hp : t.phase = .drain) (h : t.drain l = ⟨ns, .ok (t', l')⟩) :
    Step enable t l ns t' l' := by
  rcases ha : l.appData.items with _ | ⟨chunk, rest⟩
  case nil =>
    simp [Transmitter.drain, Fifo.isEmpty, ha] at h
    obtain ⟨rfl, rfl, rfl⟩ := h
    exact .stallDrain hp ha
  case cons =>
    simp [Transmitter.drain, Fifo.isEmpty, ha, Fifo.read_of_items ha] at h
    obtain ⟨rfl, rfl, rfl⟩ := h
    exact .drain hp ha

theorem step_of_tick (h : t.tick enable l = ⟨ns, .ok (t', l')⟩) : Step enable t l ns t' l' := by
  cases hp : t.phase <;> simp only [tick, hp] at h
  case idle     => exact step_of_idle hp h
  case request  => exact step_of_ask hp h
  case await    => exact step_of_await hp h
  case appData  => exact step_of_sendApp hp h
  case testData => exact step_of_sendTest hp h
  case drain    => exact step_of_drain hp h

end ShellInterface.Tcp.Transmitter
