import ShellInterface.Proofs.Books
import ShellInterface.Proofs.TestPattern
import ShellInterface.Proofs.Tcp.Transmitter

namespace ShellInterface.Tcp

-- What was done for a request before the next one was taken. The request comes with whether the
-- interface was enabled when it was taken.
structure Transfer where
  enabled : Bool
  requester : Requester
  request : SendRequest
  -- How often the engine was asked for room, and for what.
  asked : List SendRequest
  replies : List SendReply
  -- The data of the application that was taken.
  taken : List Chunk
  sent : List Chunk
  faults : List Fault
deriving DecidableEq, Repr

namespace Transfer

def start (enable : Bool) (requester : Requester) (request : SendRequest) : Transfer :=
  ⟨enable, requester, request, [], [], [], [], []⟩

def add (r : Transfer) (l l' : Transmitter.Links) (ns : List Note) : Transfer :=
  { r with
    asked := r.asked ++ l.requests.added l'.requests
    replies := r.replies ++ l.replies.taken l'.replies
    taken := r.taken ++ l.appData.taken l'.appData
    sent := r.sent ++ l.data.added l'.data
    faults := r.faults ++ Reporter.transmitter.faults ns }

def begun (enable : Bool) (l l' : Transmitter.Links) : List Transfer :=
  (l.appRequests.taken l'.appRequests).map (start enable .app) ++
    (l.testRequests.taken l'.testRequests).map (start enable .test)

def enter (rs : List Transfer) (enable : Bool) (l l' : Transmitter.Links) (ns : List Note) :
    List Transfer :=
  Books.enter rs (begun enable l l') (·.add l l' ns)

def payload (r : Transfer) : List Chunk :=
  match r.requester with
  | .app  => r.taken
  | .test => (TestPattern.create r.request.length.toNat).toList

def Drained (r : Transfer) : Prop :=
  match r.requester with
  | .app  => Ended r.taken
  | .test => r.taken = []

def isGranted (r : Transfer) : Bool :=
  r.replies.any (SendVerdict.ofCode? ·.code = some .granted)

structure Refused (r : Transfer) (asks refusals : Nat) : Prop where
  enabled : r.enabled = true
  asked   : r.asked = .replicate asks r.request
  replies : r.replies.length = refusals
  noSpace : ∀ reply ∈ r.replies, SendVerdict.ofCode? reply.code = some .noSpace
  taken   : r.taken = []
  sent    : r.sent = []
  faults  : r.faults = []

-- The engine was asked once for each of its replies, and had no room up to the last one, which
-- decides the transfer.
structure Answered (budget : Nat) (r : Transfer) (reply : SendReply) : Prop where
  enabled : r.enabled = true
  asked   : r.asked = .replicate r.replies.length r.request
  decided : ∃ refusals, r.replies = refusals ++ [reply] ∧
    ∀ refusal ∈ refusals, SendVerdict.ofCode? refusal.code = some .noSpace
  within  : r.replies.length ≤ budget

structure Granted (budget : Nat) (r : Transfer) : Prop where
  answered : ∃ reply, r.Answered budget reply ∧ SendVerdict.ofCode? reply.code = some .granted
  faults   : r.faults = []

inductive Declined (budget : Nat) (r : Transfer) : Prop
  | disabled (disabled : r.enabled = false) (asked : r.asked = []) (replies : r.replies = [])
      (faults : r.faults = [])
  | exhausted {reply} (answered : r.Answered budget reply)
      (verdict : SendVerdict.ofCode? reply.code = some .noSpace)
      (spent : r.replies.length = budget)
      (faults : r.faults = [.sendRetriesExhausted r.request.session budget])
  | disconnected {reply} (answered : r.Answered budget reply)
      (verdict : SendVerdict.ofCode? reply.code = some .noConnection)
      (faults : r.faults = [.noConnection r.request.session])
  | misread {reply} (answered : r.Answered budget reply)
      (verdict : SendVerdict.ofCode? reply.code = none)
      (faults : r.faults = [.unknownSendReply reply.session reply.code])

inductive Finished (budget : Nat) (r : Transfer) : Prop
  | granted (granted : r.Granted budget) (ended : Ended r.sent) (sent : r.sent = r.payload)
      (drained : r.Drained)
  | declined (declined : r.Declined budget) (sent : r.sent = []) (drained : r.Drained)

inductive Unfinished (t : Transmitter) (r : Transfer) : Transmitter.Phase → Prop
  | request {n} (refused : r.Refused n n) (left : n + t.retries = t.budget)
      (again : 0 < t.retries) : Unfinished t r .request
  | await {n} (refused : r.Refused (n + 1) n) (left : n + t.retries = t.budget)
      (again : 0 < t.retries) : Unfinished t r .await
  | appData (app : r.requester = .app) (granted : r.Granted t.budget) (sent : r.sent = r.taken)
      (unmarked : ∀ c ∈ r.taken, c.last = false) : Unfinished t r .appData
  | testData {pattern} (test : r.requester = .test) (granted : r.Granted t.budget)
      (taken : r.taken = []) (underway : pattern.Underway r.request.length.toNat r.sent) :
      Unfinished t r (.testData pattern)
  | drain (app : r.requester = .app) (declined : r.Declined t.budget) (sent : r.sent = [])
      (unmarked : ∀ c ∈ r.taken, c.last = false) : Unfinished t r .drain

variable {r : Transfer} {budget n : Nat} {enable : Bool} {l l' : Transmitter.Links}
  {ns : List Note} {reply : SendReply} {chunk : Chunk}

@[simp]
theorem add_nothing (r : Transfer) (l : Transmitter.Links) : r.add l l [] = r := by
  simp [add]

@[simp]
theorem begun_nothing (enable : Bool) (l : Transmitter.Links) : begun enable l l = [] := by
  simp [begun]

theorem enter_nothing (rs : List Transfer) (enable : Bool) (l : Transmitter.Links) :
    enter rs enable l l [] = rs := by
  rw [enter, begun_nothing, Books.enter_nothing rs fun r => r.add_nothing l]

theorem enter_begun (rs : List Transfer) (h : begun enable l l' = [r]) (hr : r.add l l' ns = r) :
    enter rs enable l l' ns = rs ++ [r] := by
  rw [enter, h, Books.enter_opened rs hr]

theorem enter_concat (rs : List Transfer) (h : begun enable l l' = []) :
    enter (rs ++ [r]) enable l l' ns = rs ++ [r.add l l' ns] := by
  rw [enter, h, Books.enter_hand]

theorem enter_still {testRequests : Fifo SendRequest} (rs : List Transfer)
    (tests : l.testRequests.taken testRequests = [])
    (faults : Reporter.transmitter.faults ns = []) :
    enter rs enable l { l with testRequests } ns = rs := by
  have hb : begun enable l { l with testRequests } = [] := by simp [begun, tests]
  rw [enter, hb, Books.enter_nothing rs fun r => by simp [add, faults]]

structure Entered (rs rs' : List Transfer) (l l' : Transmitter.Links) (ns : List Note) : Prop where
  requests : (rs'.filter (·.requester = .app)).map request =
    (rs.filter (·.requester = .app)).map request ++ l.appRequests.taken l'.appRequests
  tests    : (rs'.filter (·.requester = .test)).map request =
    (rs.filter (·.requester = .test)).map request ++ l.testRequests.taken l'.testRequests
  asked    : rs'.flatMap asked = rs.flatMap asked ++ l.requests.added l'.requests
  replies  : rs'.flatMap replies = rs.flatMap replies ++ l.replies.taken l'.replies
  taken    : rs'.flatMap taken = rs.flatMap taken ++ l.appData.taken l'.appData
  sent     : rs'.flatMap sent = rs.flatMap sent ++ l.data.added l'.data
  faults   : rs'.flatMap faults = rs.flatMap faults ++ Reporter.transmitter.faults ns

theorem Entered.still {testRequests : Fifo SendRequest} (rs : List Transfer)
    (tests : l.testRequests.taken testRequests = [])
    (faults : Reporter.transmitter.faults ns = []) :
    Entered rs rs l { l with testRequests } ns := by
  constructor <;> simp [tests, faults]

theorem start_of_mem_begun (h : r ∈ begun enable l l') : ∃ e q s, r = start e q s := by
  simp only [begun, List.mem_append, List.mem_map] at h
  obtain ⟨s, _, rfl⟩ | ⟨s, _, rfl⟩ := h <;> exact ⟨_, _, _, rfl⟩

theorem flatMap_enter {α : Type} {rs : List Transfer} {g : Transfer → List α} {moved : List α}
    (hb : rs ++ begun enable l l' ≠ []) (hstart : ∀ e q s, g (start e q s) = [])
    (hadd : ∀ r : Transfer, g (r.add l l' ns) = g r ++ moved) :
    (enter rs enable l l' ns).flatMap g = rs.flatMap g ++ moved :=
  Books.flatMap_enter (fun he => absurd he hb) (fun r hr => by
    have ⟨_, _, _, he⟩ := start_of_mem_begun hr
    rw [he, hstart]) hadd

theorem map_request_enter (rs : List Transfer) (requester : Requester) :
    ((enter rs enable l l' ns).filter (·.requester = requester)).map request =
      (rs.filter (·.requester = requester)).map request ++
        ((begun enable l l').filter (·.requester = requester)).map request :=
  Books.map_filter_enter rs _ (fun _ => rfl) fun _ => rfl

theorem Entered.of_begun {rs : List Transfer} (hb : rs ++ begun enable l l' ≠ []) :
    Entered rs (enter rs enable l l' ns) l l' ns where
  requests := by simp [map_request_enter, begun, start, List.filter_map, Function.comp_def]
  tests    := by simp [map_request_enter, begun, start, List.filter_map, Function.comp_def]
  asked    := flatMap_enter hb (fun _ _ _ => rfl) fun _ => rfl
  replies  := flatMap_enter hb (fun _ _ _ => rfl) fun _ => rfl
  taken    := flatMap_enter hb (fun _ _ _ => rfl) fun _ => rfl
  sent     := flatMap_enter hb (fun _ _ _ => rfl) fun _ => rfl
  faults   := flatMap_enter hb (fun _ _ _ => rfl) fun _ => rfl

theorem Refused.start (requester : Requester) (request : SendRequest) :
    (start true requester request).Refused 0 0 :=
  ⟨rfl, rfl, rfl, nofun, rfl, rfl, rfl⟩

theorem Refused.ask (h : r.Refused n n) :
    { r with asked := r.asked ++ [r.request] }.Refused (n + 1) n :=
  { h with asked := by rw [h.asked, List.replicate_succ'] }

theorem Refused.refuse (h : r.Refused (n + 1) n)
    (verdict : SendVerdict.ofCode? reply.code = some .noSpace) :
    { r with replies := r.replies ++ [reply] }.Refused (n + 1) (n + 1) :=
  { h with
    replies := by rw [List.length_append, h.replies, List.length_singleton]
    noSpace := List.forall_mem_append.mpr ⟨h.noSpace, List.forall_mem_singleton.mpr verdict⟩ }

theorem Refused.answer (h : r.Refused (n + 1) n) (hn : n < budget) (reply : SendReply)
    (faults : List Fault) :
    { r with replies := r.replies ++ [reply], faults }.Answered budget reply where
  enabled := h.enabled
  asked   := by rw [h.asked, List.length_append, h.replies, List.length_singleton]
  decided := ⟨r.replies, rfl, h.noSpace⟩
  within  := by rw [List.length_append, h.replies, List.length_singleton]; exact hn

theorem add_abandoned {rest : List SendReply} {origin : String} {f : Fault}
    (read : l.replies.items = reply :: rest) (hf : f.reporter = .transmitter) :
    r.add l { l with replies := l.replies.tail } [.fault origin f, .count .abandonedSends 1] =
      { r with replies := r.replies ++ [reply], faults := r.faults ++ [f] } := by
  simp [add, Fifo.taken_tail read, Reporter.reports, hf]

theorem Answered.move (h : r.Answered budget reply) (taken sent : List Chunk) :
    { r with taken, sent }.Answered budget reply :=
  ⟨h.enabled, h.asked, h.decided, h.within⟩

theorem Granted.move (h : r.Granted budget) (taken sent : List Chunk) :
    { r with taken, sent }.Granted budget :=
  ⟨h.answered.imp fun _ ⟨answered, verdict⟩ => ⟨answered.move taken sent, verdict⟩, h.faults⟩

theorem Declined.move (h : r.Declined budget) (taken sent : List Chunk) :
    { r with taken, sent }.Declined budget := by
  cases h
  case disabled enabled asked replies faults => exact .disabled enabled asked replies faults
  case exhausted answered verdict spent faults =>
    exact .exhausted (answered.move taken sent) verdict spent faults
  case disconnected answered verdict faults =>
    exact .disconnected (answered.move taken sent) verdict faults
  case misread answered verdict faults =>
    exact .misread (answered.move taken sent) verdict faults

theorem Refused.not_granted {m : Nat} (h : r.Refused n m) : r.isGranted = false := by
  simp +contextual [isGranted, h.noSpace]

theorem Answered.isGranted_eq (h : r.Answered budget reply) :
    r.isGranted = decide (SendVerdict.ofCode? reply.code = some .granted) := by
  have ⟨refusals, hr, noSpace⟩ := h.decided
  have hn : refusals.any (SendVerdict.ofCode? ·.code = some .granted) = false := by
    simp +contextual [noSpace]
  rw [isGranted, hr, List.any_append, hn, Bool.false_or, List.any_cons, List.any_nil, Bool.or_false]

theorem Granted.isGranted (h : r.Granted budget) : r.isGranted = true := by
  have ⟨_, answered, verdict⟩ := h.answered
  simp [answered.isGranted_eq, verdict]

theorem Declined.not_granted (h : r.Declined budget) : r.isGranted = false := by
  cases h
  case disabled replies _             => simp [Transfer.isGranted, replies]
  case exhausted answered verdict _ _ => simp [answered.isGranted_eq, verdict]
  case disconnected answered hv _     => simp [answered.isGranted_eq, hv]
  case misread answered verdict _     => simp [answered.isGranted_eq, verdict]

theorem Finished.sent_eq (h : r.Finished budget) (app : r.requester = .app) :
    r.sent = if r.isGranted then r.taken else [] := by
  cases h
  case granted granted _ sent _   => simp [granted.isGranted, sent, payload, app]
  case declined declined sent _   => simp [declined.not_granted, sent]

theorem Unfinished.sent_eq {t : Transmitter} {phase : Transmitter.Phase}
    (h : r.Unfinished t phase) (app : r.requester = .app) :
    r.sent = if r.isGranted then r.taken else [] := by
  cases h
  case request refused _ _    => simp [refused.not_granted, refused.sent]
  case await refused _ _      => simp [refused.not_granted, refused.sent]
  case appData granted sent _ => simp [granted.isGranted, sent]
  case testData test _ _ _    => simp [app] at test
  case drain declined sent _  => simp [declined.not_granted, sent]

theorem Unfinished.taken_unmarked {t : Transmitter} {phase : Transmitter.Phase}
    (h : r.Unfinished t phase) : (∀ c ∈ r.taken, c.last = false) ∧
      (r.requester = .test → r.taken = []) := by
  cases h
  case request refused _ _     => simp [refused.taken]
  case await refused _ _       => simp [refused.taken]
  case appData app _ _ marks   => simpa [app] using marks
  case testData taken _        => simp [taken]
  case drain app _ _ marks     => simpa [app] using marks

theorem Finished.drained (h : r.Finished budget) : r.Drained := by
  cases h <;> assumption

theorem begun_app {request : SendRequest} {rest : List SendRequest}
    (read : l.appRequests.items = request :: rest) :
    begun enable l { l with appRequests := l.appRequests.tail } = [start enable .app request] := by
  simp [begun, Fifo.taken_tail read]

theorem begun_test {request : SendRequest} {rest : List SendRequest}
    (read : l.testRequests.items = request :: rest) :
    begun enable l { l with testRequests := l.testRequests.tail } =
      [start enable .test request] := by
  simp [begun, Fifo.taken_tail read]

end Transfer

namespace Transmitter

-- The request in hand is that of the transfer. A test is never empty.
structure Holds (t : Transmitter) (r : Transfer) : Prop where
  requester : t.requester = r.requester
  request   : t.request = r.request
  sized     : r.requester = .test → r.request.length ≠ 0

structure Busy (t : Transmitter) (r : Transfer) : Prop where
  holds      : t.Holds r
  unfinished : r.Unfinished t t.phase

inductive Serves (t : Transmitter) (r : Transfer) : Prop
  | busy (busy : t.Busy r)
  | done (phase : t.phase = .idle) (finished : r.Finished t.budget)

inductive Booked (t : Transmitter) : List Transfer → Prop
  | idle {rs} (phase : t.phase = .idle) (finished : ∀ r ∈ rs, r.Finished t.budget) : Booked t rs
  | hand {rs r} (finished : ∀ r ∈ rs, r.Finished t.budget) (busy : t.Busy r) : Booked t (rs ++ [r])

variable {t t' : Transmitter} {l l' : Links} {enable : Bool} {ns : List Note} {rs : List Transfer}
  {r : Transfer}

theorem Holds.grant (h : t.Holds r) (granted : r.Granted t.budget) (taken : r.taken = [])
    (sent : r.sent = []) (phase : t.phase = t.transfer) : t.Busy r := by
  have ⟨requester, request, sized⟩ := h
  refine ⟨h, ?_⟩
  rw [phase, transfer, requester, request]
  cases hq : r.requester
  case app  => exact .appData hq granted (by rw [sent, taken]) (by simp [taken])
  case test =>
    have hn : r.request.length.toNat ≠ 0 := fun h => sized hq (UInt16.toNat_inj.mp h)
    exact .testData hq granted taken (sent ▸ .start hn)

theorem Holds.reject (h : t.Holds r) (declined : r.Declined t.budget) (taken : r.taken = [])
    (sent : r.sent = []) (phase : t.phase = t.rejected) : t.Serves r := by
  have hp := phase
  rw [rejected, h.requester] at hp
  cases hq : r.requester <;> rw [hq] at hp
  case app  => exact .busy ⟨h, hp ▸ .drain hq declined sent (by simp [taken])⟩
  case test => exact .done hp (.declined declined sent (by simp [Transfer.Drained, hq, taken]))

namespace Busy

variable {reply : SendReply} {replies : List SendReply} {chunk : Chunk} {chunks : List Chunk}
  {requests : Fifo SendRequest} {data : Fifo Chunk} {f : Fault}

theorem not_idle (h : t.Busy r) : t.phase ≠ .idle := by
  intro hp
  have unfinished := hp ▸ h.unfinished
  cases unfinished

theorem refused (h : t.Busy r) (hp : t.phase = .await) :
    ∃ n, r.Refused (n + 1) n ∧ n + t.retries = t.budget ∧ n < t.budget := by
  have unfinished := hp ▸ h.unfinished
  cases unfinished
  case await n refused left again => exact ⟨n, refused, left, by omega⟩

theorem ask (h : t.Busy r) (hp : t.phase = .request)
    (write : l.requests.write t.request = .ok requests) :
    { t with phase := .await }.Busy (r.add l { l with requests } [.count .sendRequests 1]) := by
  have ⟨⟨requester, request, sized⟩, unfinished⟩ := h
  have hr : r.add l { l with requests } [.count .sendRequests 1] =
      { r with asked := r.asked ++ [r.request] } := by
    simp [Transfer.add, Fifo.added_of_write write, request]
  rw [hp] at unfinished
  cases unfinished
  case request refused left again =>
    rw [hr]
    exact ⟨⟨requester, request, sized⟩, .await refused.ask left again⟩

theorem grant (h : t.Busy r) (hp : t.phase = .await) (read : l.replies.items = reply :: replies)
    (verdict : SendVerdict.ofCode? reply.code = some .granted) :
    { t with phase := t.transfer }.Busy (r.add l { l with replies := l.replies.tail } []) := by
  have ⟨⟨requester, request, sized⟩, _⟩ := h
  have ⟨_, refused, _, hn⟩ := h.refused hp
  have granted : { r with replies := r.replies ++ [reply] }.Granted t.budget :=
    ⟨⟨reply, refused.answer hn reply r.faults, verdict⟩, refused.faults⟩
  have hr : r.add l { l with replies := l.replies.tail } [] =
      { r with replies := r.replies ++ [reply] } := by
    simp [Transfer.add, Fifo.taken_tail read]
  rw [hr]
  exact Holds.grant ⟨requester, request, sized⟩ granted refused.taken refused.sent rfl

theorem retry (h : t.Busy r) (hp : t.phase = .await) (read : l.replies.items = reply :: replies)
    (verdict : SendVerdict.ofCode? reply.code = some .noSpace) (left : 1 < t.retries) :
    { t with retries := t.retries - 1, phase := .request }.Busy
      (r.add l { l with replies := l.replies.tail }
        [.remark origin (.retrying reply.session reply.space), .count .sendRetries 1]) := by
  have ⟨⟨requester, request, sized⟩, _⟩ := h
  have ⟨n, refused, hleft, _⟩ := h.refused hp
  have hr : r.add l { l with replies := l.replies.tail }
      [.remark origin (.retrying reply.session reply.space), .count .sendRetries 1] =
      { r with replies := r.replies ++ [reply] } := by
    simp [Transfer.add, Fifo.taken_tail read]
  rw [hr]
  exact ⟨⟨requester, request, sized⟩,
    .request (refused.refuse verdict) (by dsimp only; omega) (Nat.sub_pos_of_lt left)⟩

theorem abandon (h : t.Busy r) (hp : t.phase = .await) (read : l.replies.items = reply :: replies)
    (hf : f.reporter = .transmitter) (retries : Nat)
    (declined : { r with replies := r.replies ++ [reply], faults := [f] }.Declined t.budget) :
    { t with retries, phase := t.rejected }.Serves
      (r.add l { l with replies := l.replies.tail }
        [.fault origin f, .count .abandonedSends 1]) := by
  have ⟨⟨requester, request, sized⟩, _⟩ := h
  have ⟨_, refused, _⟩ := h.refused hp
  rw [Transfer.add_abandoned read hf, refused.faults, List.nil_append]
  exact Holds.reject ⟨requester, request, sized⟩ declined refused.taken refused.sent rfl

theorem sendApp (h : t.Busy r) (hp : t.phase = .appData) (read : l.appData.items = chunk :: chunks)
    (write : l.data.write chunk = .ok data) :
    (if chunk.last then { t with phase := .idle } else t).Serves
      (r.add l { l with appData := l.appData.tail, data } [.count .appChunks 1]) := by
  have ⟨holds, unfinished⟩ := h
  have hr : r.add l { l with appData := l.appData.tail, data } [.count .appChunks 1] =
      { r with taken := r.taken ++ [chunk], sent := r.sent ++ [chunk] } := by
    simp [Transfer.add, Fifo.taken_tail read, Fifo.added_of_write write]
  rw [hp] at unfinished
  rw [hr]
  cases unfinished
  case appData app granted sent unmarked =>
    replace granted := granted.move (r.taken ++ [chunk]) (r.sent ++ [chunk])
    cases last : chunk.last
    case false =>
      refine .busy ⟨⟨holds.requester, holds.request, holds.sized⟩, ?_⟩
      refine hp ▸ .appData app granted (by rw [sent]) ?_
      exact List.forall_mem_append.mpr ⟨unmarked, List.forall_mem_singleton.mpr last⟩
    case true =>
      have ended := Ended.of_unmarked unmarked last
      refine .done rfl (.granted granted (sent ▸ ended) ?_ ?_)
      · simp [Transfer.payload, app, sent]
      · simp [Transfer.Drained, app, ended]

theorem sendTest {pattern rest : TestPattern} (h : t.Busy r) (hp : t.phase = .testData pattern)
    (next : pattern.next? = some (chunk, rest)) (write : l.data.write chunk = .ok data)
    (hn : Reporter.transmitter.faults ns = []) :
    { t with phase := if chunk.last then .idle else .testData rest }.Serves
      (r.add l { l with data } ns) := by
  have ⟨holds, unfinished⟩ := h
  have hr : r.add l { l with data } ns = { r with sent := r.sent ++ [chunk] } := by
    simp [Transfer.add, Fifo.added_of_write write, hn]
  rw [hp] at unfinished
  rw [hr]
  cases unfinished
  case testData test granted taken underway =>
    replace granted := granted.move r.taken (r.sent ++ [chunk])
    cases last : chunk.last
    case false =>
      refine .busy ⟨⟨holds.requester, holds.request, holds.sized⟩, ?_⟩
      exact .testData test granted taken (underway.more next last)
    case true =>
      have ⟨whole, ended⟩ := underway.finish next last
      refine .done rfl (.granted granted ended ?_ ?_)
      · simpa [Transfer.payload, test] using whole
      · simpa [Transfer.Drained, test] using taken

theorem drain (h : t.Busy r) (hp : t.phase = .drain) (read : l.appData.items = chunk :: chunks) :
    (if chunk.last then { t with phase := .idle } else t).Serves
      (r.add l { l with appData := l.appData.tail } []) := by
  have ⟨holds, unfinished⟩ := h
  have hr : r.add l { l with appData := l.appData.tail } [] =
      { r with taken := r.taken ++ [chunk] } := by
    simp [Transfer.add, Fifo.taken_tail read]
  rw [hp] at unfinished
  rw [hr]
  cases unfinished
  case drain app declined sent unmarked =>
    replace declined := declined.move (r.taken ++ [chunk]) r.sent
    cases last : chunk.last
    case false =>
      refine .busy ⟨⟨holds.requester, holds.request, holds.sized⟩, hp ▸ .drain app declined sent ?_⟩
      exact List.forall_mem_append.mpr ⟨unmarked, List.forall_mem_singleton.mpr last⟩
    case true =>
      have ended := Ended.of_unmarked unmarked last
      exact .done rfl (.declined declined sent (by simp [Transfer.Drained, app, ended]))

theorem next (h : t.Busy r) (step : Step enable t l ns t' l') : t'.Serves (r.add l l' ns) := by
  cases step
  case rest hp _ _         => exact absurd hp h.not_idle
  case acceptApp hp _ _    => exact absurd hp h.not_idle
  case discardApp hp _ _   => exact absurd hp h.not_idle
  case acceptTest hp _ _ _ => exact absurd hp h.not_idle
  case ignoreTest hp _ _ _ => exact absurd hp h.not_idle
  case ask hp write        => exact .busy (h.ask hp write)
  case grant hp read hv    => exact .busy (h.grant hp read hv)
  case retry hp read hv hl => exact .busy (h.retry hp read hv hl)
  case exhaust reply _ hp read verdict last =>
    have ⟨n, refused, left, hn⟩ := h.refused hp
    refine h.abandon hp read rfl 0 ?_
    refine .exhausted (refused.answer hn reply _) verdict ?_ (h.holds.request ▸ rfl)
    simp only [List.length_append, refused.replies, List.length_singleton]
    omega
  case disconnect reply _ hp read verdict =>
    have ⟨_, refused, _, hn⟩ := h.refused hp
    refine h.abandon hp read rfl t.retries ?_
    exact .disconnected (refused.answer hn reply _) verdict (h.holds.request ▸ rfl)
  case misread reply _ hp read verdict =>
    have ⟨_, refused, _, hn⟩ := h.refused hp
    refine h.abandon hp read rfl t.retries ?_
    exact .misread (refused.answer hn reply _) verdict rfl
  case sendApp hp read write       => exact h.sendApp hp read write
  case sendTest chunk _ _ hp hn hw => exact h.sendTest hp hn hw (by cases chunk.last <;> rfl)
  case drain hp read               => exact h.drain hp read
  case endTest hp next _ =>
    have unfinished := hp ▸ h.unfinished
    cases unfinished
    case testData underway => exact absurd (TestPattern.next?_eq_none_iff.mp next) underway.left
  all_goals exact .busy (by rwa [Transfer.add_nothing])

end Busy

theorem Booked.finished_or_busy (h : Booked t rs) (hr : r ∈ rs) :
    r.Finished t.budget ∨ t.Busy r := by
  cases h
  case idle finished      => exact .inl (finished r hr)
  case hand finished busy =>
    obtain hr | hr := List.mem_append.mp hr
    case inl => exact .inl (finished r hr)
    case inr => exact .inr (List.mem_singleton.mp hr ▸ busy)

theorem Booked.finished (h : Booked t rs) (hp : t.phase = .idle) :
    ∀ r ∈ rs, r.Finished t.budget := by
  cases h
  case idle finished => exact finished
  case hand busy     => exact absurd hp busy.not_idle

theorem Booked.exists_busy (h : Booked t rs) (hp : t.phase ≠ .idle) :
    ∃ done r, rs = done ++ [r] ∧ (∀ r ∈ done, r.Finished t.budget) ∧ t.Busy r := by
  cases h
  case idle phase _       => exact absurd phase hp
  case hand finished busy => exact ⟨_, _, rfl, finished, busy⟩

theorem Booked.idle_of_nil (h : Booked t []) : t.phase = .idle := by
  by_contra hp
  have ⟨_, _, he, _⟩ := h.exists_busy hp
  simp at he

theorem Booked.serve (finished : ∀ r ∈ rs, r.Finished t.budget) (serves : t.Serves r) :
    Booked t (rs ++ [r]) := by
  cases serves
  case busy busy => exact .hand finished busy
  case done hp finish =>
    exact .idle hp (List.forall_mem_append.mpr ⟨finished, List.forall_mem_singleton.mpr finish⟩)

theorem Step.preserves_budget (h : Step enable t l ns t' l') : t'.budget = t.budget := by
  cases h <;> (try split) <;> rfl

theorem Step.testRequests_subset (h : Step enable t l ns t' l') :
    l'.testRequests.items ⊆ l.testRequests.items := by
  cases h
  case acceptTest => exact List.tail_subset _
  case ignoreTest => exact List.tail_subset _
  all_goals exact List.Subset.refl _

theorem Step.begun_eq_nil (h : Step enable t l ns t' l') (hp : t.phase ≠ .idle) :
    Transfer.begun enable l l' = [] := by
  cases h
  case rest hi _ _         => exact absurd hi hp
  case acceptApp hi _ _    => exact absurd hi hp
  case discardApp hi _ _   => exact absurd hi hp
  case acceptTest hi _ _ _ => exact absurd hi hp
  case ignoreTest hi _ _ _ => exact absurd hi hp
  all_goals simp [Transfer.begun]

theorem Booked.begin (h : Booked t rs) (hp : t.phase = .idle) (budget : t'.budget = t.budget)
    (begun : Transfer.begun enable l l' = [r]) (hr : r.add l l' ns = r) (serves : t'.Serves r) :
    Booked t' (Transfer.enter rs enable l l' ns) := by
  rw [Transfer.enter_begun rs begun hr]
  exact .serve (budget ▸ h.finished hp) serves

theorem Booked.next (h : Booked t rs) (budget : 0 < t.budget)
    (sized : ∀ request ∈ l.testRequests.items, request.length ≠ 0)
    (step : Step enable t l ns t' l') : Booked t' (Transfer.enter rs enable l l' ns) := by
  by_cases hp : t.phase = .idle
  case neg =>
    obtain ⟨done, r, rfl, finished, busy⟩ := h.exists_busy hp
    rw [Transfer.enter_concat done (step.begun_eq_nil hp)]
    exact .serve (step.preserves_budget ▸ finished) (busy.next step)
  case pos =>
    cases step
    case rest => rwa [Transfer.enter_nothing]
    case acceptApp request _ _ read enabled =>
      subst enabled
      refine h.begin hp rfl (Transfer.begun_app read) (by simp [Transfer.add]) (.busy ?_)
      exact ⟨⟨rfl, rfl, nofun⟩, .request (.start .app request) (Nat.zero_add _) budget⟩
    case discardApp request _ _ read disabled =>
      subst disabled
      refine h.begin hp rfl (Transfer.begun_app read) (by simp [Transfer.add]) (.busy ?_)
      exact ⟨⟨rfl, rfl, nofun⟩, .drain rfl (.disabled rfl rfl rfl rfl) rfl nofun⟩
    case acceptTest request _ _ _ read enabled =>
      subst enabled
      have hn : request.length ≠ 0 := sized request (by simp [read])
      refine h.begin hp rfl (Transfer.begun_test read) (by simp [Transfer.add]) (.busy ?_)
      exact ⟨⟨rfl, rfl, fun _ => hn⟩, .request (.start .test request) (Nat.zero_add _) budget⟩
    case ignoreTest request _ _ _ read disabled =>
      subst disabled
      refine h.begin hp rfl (Transfer.begun_test read) (by simp [Transfer.add]) (.done hp ?_)
      exact .declined (.disabled rfl rfl rfl rfl) rfl rfl
    all_goals cases hp.symm.trans ‹t.phase = _›

theorem Booked.entered (booked : Booked t rs) (step : Step enable t l ns t' l') :
    Transfer.Entered rs (Transfer.enter rs enable l l' ns) l l' ns := by
  by_cases h : rs ++ Transfer.begun enable l l' = []
  case neg => exact .of_begun h
  case pos =>
    obtain ⟨rfl, hb⟩ := List.append_eq_nil_iff.mp h
    have hp : t.phase = .idle := booked.idle_of_nil
    clear h
    cases step
    case rest =>
      rw [Transfer.enter_nothing]
      exact .still [] (Fifo.taken_self _) rfl
    case acceptApp read _  => simp [Transfer.begun_app read] at hb
    case discardApp read _ => simp [Transfer.begun_app read] at hb
    case acceptTest read _ => simp [Transfer.begun_test read] at hb
    case ignoreTest read _ => simp [Transfer.begun_test read] at hb
    all_goals cases hp.symm.trans ‹t.phase = _›

end Transmitter

end ShellInterface.Tcp
