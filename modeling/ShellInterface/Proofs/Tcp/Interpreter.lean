import ShellInterface.Proofs.Tcp.Overdue
import ShellInterface.Proofs.Tcp.Protocol

namespace ShellInterface

def Fault.isOutcome : Fault → Bool
  | .socketMismatch ..   => true
  | .noOpenConnection .. => true
  | .openFailed ..       => true
  | _                    => false

theorem Fault.reporter_of_isOutcome {f : Fault} (h : f.isOutcome = true) :
    f.reporter = .connector := by
  cases f <;> simp_all [isOutcome, reporter]

namespace Tcp

open Tcp.Frame (Turn)

-- What came of the records so far: the requests, the connections that were established, the latest
-- one last, and the faults. Replies that are left wait for a request.
structure Course where
  openRequests : List Socket
  testRequests : List SendRequest
  connections : List (Socket × SessionId)
  faults : List Fault
  replies : List OpenReply
deriving DecidableEq

namespace Course

def start (replies : List OpenReply) : Course :=
  ⟨[], [], [], [], replies⟩

def answer (o : Course) (sock : Socket) (reply : OpenReply) : Course :=
  if reply.state = .established then
    { o with connections := o.connections ++ [(sock, reply.session)] }
  else
    { o with faults := o.faults ++ [.openFailed sock reply.state] }

-- Requests a connection. The next reply answers the request, if it has come.
def connect (o : Course) (sock : Socket) : Course :=
  let o := { o with openRequests := o.openRequests ++ [sock] }
  match o.replies with
  | []               => o
  | reply :: replies => { o with replies }.answer sock reply

def transmit (o : Course) (sock : Socket) (length : UInt16) : Course :=
  match o.connections.getLast? with
  | some (opened, session) =>
    if opened = sock then
      { o with testRequests := o.testRequests ++ [⟨session, length⟩] }
    else
      { o with faults := o.faults ++ [.socketMismatch sock opened] }
  | none => { o with faults := o.faults ++ [.noOpenConnection sock] }

def serve (o : Course) (r : ControlRecord) : Course :=
  if r.length = 0 then o.connect r.sock else o.transmit r.sock r.length

end Course

def interpret (records : List ControlRecord) (replies : List OpenReply) : Course :=
  records.foldl Course.serve (.start replies)

def opening (records : List ControlRecord) : List ControlRecord :=
  records.filter (·.length = 0)

namespace Course

variable {o : Course} {r : ControlRecord} {sock : Socket} {reply : OpenReply}

theorem serve_append (h : r.length = 0 → o.replies ≠ []) (more : List OpenReply) :
    { o with replies := o.replies ++ more }.serve r =
      { o.serve r with replies := (o.serve r).replies ++ more } := by
  unfold serve
  split
  case isTrue hz =>
    obtain ⟨reply, replies, hr⟩ := List.exists_cons_of_ne_nil (h hz)
    simp only [connect, hr, List.cons_append, answer]
    split <;> rfl
  case isFalse =>
    simp only [transmit]
    split
    case h_1 => split <;> rfl
    case h_2 => rfl

theorem serve_replies_length (h : r.length = 0 → o.replies ≠ []) :
    (o.serve r).replies.length + (opening [r]).length = o.replies.length := by
  unfold serve
  split
  case isTrue hz =>
    obtain ⟨reply, replies, hr⟩ := List.exists_cons_of_ne_nil (h hz)
    simp only [connect, hr, answer]
    split <;> simp [opening, hz]
  case isFalse hn =>
    simp only [transmit]
    split
    case h_1 => split <;> simp [opening, hn]
    case h_2 => simp [opening, hn]

end Course

variable {records : List ControlRecord} {replies : List OpenReply} {r : ControlRecord}

theorem interpret_concat (records : List ControlRecord) (r : ControlRecord)
    (replies : List OpenReply) :
    interpret (records ++ [r]) replies = (interpret records replies).serve r := by
  simp [interpret]

@[simp]
theorem opening_append (rs qs : List ControlRecord) :
    opening (rs ++ qs) = opening rs ++ opening qs := by
  simp [opening]

theorem interpret_append (enough : (opening records).length ≤ replies.length)
    (more : List OpenReply) :
    interpret records (replies ++ more) =
      { interpret records replies with replies := (interpret records replies).replies ++ more } ∧
    (interpret records replies).replies.length + (opening records).length = replies.length := by
  induction records using List.reverseRecOn
  case nil => exact ⟨rfl, rfl⟩
  case append_singleton records r ih =>
    rw [opening_append, List.length_append] at enough
    have ⟨he, hl⟩ := ih (by omega)
    have left : r.length = 0 → (interpret records replies).replies ≠ [] := by
      intro hz hn
      simp [hn, opening, hz] at hl enough
      omega
    rw [interpret_concat, interpret_concat, he, Course.serve_append left]
    have := Course.serve_replies_length left
    exact ⟨rfl, by rw [opening_append, List.length_append]; omega⟩

theorem Course.serve_connections_length (o : Course) (r : ControlRecord) :
    (o.serve r).connections.length + ((o.serve r).replies.filter (·.state = .established)).length =
      o.connections.length + (o.replies.filter (·.state = .established)).length := by
  unfold serve
  split
  case isTrue =>
    cases hr : o.replies
    case nil => simp [connect, hr]
    case cons reply replies =>
      by_cases hs : reply.state = .established
      case pos => simp [connect, hr, answer, hs]; omega
      case neg => simp [connect, hr, answer, hs]
  case isFalse =>
    simp only [transmit]
    split
    case h_1 => split <;> rfl
    case h_2 => rfl

theorem interpret_connections_length (records : List ControlRecord) (replies : List OpenReply) :
    (interpret records replies).connections.length +
      ((interpret records replies).replies.filter (·.state = .established)).length =
      (replies.filter (·.state = .established)).length := by
  induction records using List.reverseRecOn
  case nil => exact Nat.zero_add _
  case append_singleton records r ih =>
    rw [interpret_concat, Course.serve_connections_length, ih]

theorem Course.connect_of_replies_eq_nil {o : Course} {sock : Socket} (h : o.replies = []) :
    o.connect sock = { o with openRequests := o.openRequests ++ [sock] } := by
  simp [connect, h]

section Pending

variable (count : (opening records).length = replies.length)
include count

theorem replies_eq_nil : (interpret records replies).replies = [] := by
  have ⟨_, hl⟩ := interpret_append (Nat.le_of_eq count) []
  exact List.eq_nil_of_length_eq_zero (by omega)

theorem interpret_pending (zero : r.length = 0) : interpret (records ++ [r]) replies =
    { interpret records replies with
      openRequests := (interpret records replies).openRequests ++ [r.sock] } := by
  rw [interpret_concat, Course.serve, if_pos zero,
    Course.connect_of_replies_eq_nil (replies_eq_nil count)]

theorem interpret_answered (zero : r.length = 0) (reply : OpenReply) :
    interpret (records ++ [r]) (replies ++ [reply]) =
      (interpret (records ++ [r]) replies).answer r.sock reply := by
  have ⟨he, _⟩ := interpret_append (Nat.le_of_eq count) [reply]
  have left := replies_eq_nil count
  rw [interpret_pending count zero, interpret_concat, he, left, Course.serve, if_pos zero]
  simp [Course.connect, left]

end Pending

namespace Connector

def Phase.opening : Phase → List Socket
  | .openRequest sock => [sock]
  | .openReply sock   => [sock]
  | _                 => []

def Phase.unrequested : Phase → List Socket
  | .openRequest sock => [sock]
  | _                 => []

def Phase.untriggered : Phase → List SendRequest
  | .trigger request => [request]
  | _                => []

-- What the connector has done, and the record in hand, are as the records and the replies tell.
structure Interpreted (c : Connector) (records : List ControlRecord) (replies : List OpenReply)
    (openRequests : List Socket) (testRequests : List SendRequest) (faults : List Fault) :
    Prop where
  count        : (opening records).length = replies.length + c.phase.opening.length
  hand         : ∀ sock ∈ c.phase.opening,
    ∃ done r, records = done ++ [r] ∧ r.length = 0 ∧ r.sock = sock
  openRequests : openRequests ++ c.phase.unrequested = (interpret records replies).openRequests
  testRequests : testRequests ++ c.phase.untriggered = (interpret records replies).testRequests
  lastOpened   : c.lastOpened = (interpret records replies).connections.getLast?
  faults       : faults = (interpret records replies).faults

variable {c c' : Connector} {l l' : Links} {enable : Bool} {ns : List Note}
  {openRequests : List Socket} {testRequests : List SendRequest} {faults : List Fault}
  {sock : Socket} {reply : OpenReply} {request : SendRequest}

def served (c : Connector) (l l' : Links) : List ControlRecord :=
  if c.phase = .serve then l.records.taken l'.records else []

def answers (c : Connector) (l l' : Links) : List OpenReply :=
  if c.phase.awaited = [] then [] else l.openReplies.taken l'.openReplies

theorem isOutcome_refusal (c : Connector) (r : ControlRecord) : (c.refusal r).isOutcome = true := by
  unfold refusal
  split <;> rfl

namespace Interpreted

theorem pass (h : c.Interpreted records replies openRequests testRequests faults)
    (phase : c'.phase.opening = c.phase.opening ∧ c'.phase.unrequested = c.phase.unrequested ∧
      c'.phase.untriggered = c.phase.untriggered) (lastOpened : c'.lastOpened = c.lastOpened)
    (taken : c.served l l' = [] ∧ c.answers l l' = [])
    (written : l'.openRequests = l.openRequests ∧ l'.testRequests = l.testRequests)
    (silent : Fault.among Fault.isOutcome ns = []) :
    c'.Interpreted (records ++ c.served l l') (replies ++ c.answers l l')
      (openRequests ++ l.openRequests.added l'.openRequests)
      (testRequests ++ l.testRequests.added l'.testRequests)
      (faults ++ Fault.among Fault.isOutcome ns) := by
  obtain ⟨hopening, hunrequested, huntriggered⟩ := phase
  simp only [taken, written, silent, Fifo.added_self, List.append_nil]
  exact ⟨hopening ▸ h.count, hopening ▸ h.hand, hunrequested ▸ h.openRequests,
    huntriggered ▸ h.testRequests, lastOpened.trans h.lastOpened, h.faults⟩

theorem connect (h : c.Interpreted records replies openRequests testRequests faults)
    (hp : c.phase = .serve) (zero : r.length = 0) :
    { c with phase := .openRequest r.sock }.Interpreted (records ++ [r]) replies openRequests
      testRequests faults := by
  obtain ⟨count, _, requests, triggers, lastOpened, hfaults⟩ := h
  simp only [hp, Phase.opening, Phase.unrequested, Phase.untriggered, List.append_nil,
    List.length_nil, Nat.add_zero] at count requests triggers
  have pending := interpret_pending count zero
  constructor
  case count        => simp [opening, zero, Phase.opening] at *; omega
  case hand         => exact fun sock hs => ⟨records, r, rfl, zero, (List.mem_singleton.mp hs).symm⟩
  case openRequests => simp [Phase.unrequested, pending, requests]
  case testRequests => simp [Phase.untriggered, pending, triggers]
  case lastOpened   => rw [pending]; exact lastOpened
  case faults       => rw [pending]; exact hfaults

theorem transmit (h : c.Interpreted records replies openRequests testRequests faults)
    (hp : c.phase = .serve) (nonzero : r.length ≠ 0) {session : SessionId}
    (opened : c.lastOpened = some (r.sock, session)) :
    { c with phase := .trigger ⟨session, r.length⟩ }.Interpreted (records ++ [r]) replies
      openRequests testRequests faults := by
  obtain ⟨count, _, requests, triggers, lastOpened, hfaults⟩ := h
  simp only [hp, Phase.opening, Phase.unrequested, Phase.untriggered, List.append_nil,
    List.length_nil, Nat.add_zero] at count requests triggers
  have served : interpret (records ++ [r]) replies =
      { interpret records replies with
        testRequests := (interpret records replies).testRequests ++ [⟨session, r.length⟩] } := by
    rw [interpret_concat, Course.serve, if_neg nonzero, Course.transmit, ← lastOpened, opened]
    exact if_pos rfl
  constructor
  case count        => simpa [opening, nonzero, Phase.opening] using count
  case hand         => exact nofun
  case openRequests => simp [Phase.unrequested, served, requests]
  case testRequests => simp [Phase.untriggered, served, triggers]
  case lastOpened   => rw [served]; exact lastOpened
  case faults       => rw [served]; exact hfaults

theorem refuse (h : c.Interpreted records replies openRequests testRequests faults)
    (hp : c.phase = .serve) (nonzero : r.length ≠ 0)
    (unopened : ∀ session, c.lastOpened ≠ some (r.sock, session)) :
    c.Interpreted (records ++ [r]) replies openRequests testRequests
      (faults ++ [c.refusal r]) := by
  obtain ⟨count, _, requests, triggers, lastOpened, hfaults⟩ := h
  have served : interpret (records ++ [r]) replies =
      { interpret records replies with
        faults := (interpret records replies).faults ++ [c.refusal r] } := by
    rw [interpret_concat, Course.serve, if_neg nonzero, Course.transmit, ← lastOpened, refusal]
    rcases ho : c.lastOpened with _ | ⟨sock, session⟩
    case none => rfl
    case some =>
      have hne : sock ≠ r.sock := fun he => unopened session (he ▸ ho)
      simp [hne]
  constructor
  case count        => simpa [opening, nonzero, Phase.opening, hp] using count
  case hand         => simp [hp, Phase.opening]
  case openRequests => simpa [served] using requests
  case testRequests => simpa [served] using triggers
  case lastOpened   => rw [served]; exact lastOpened
  case faults       => rw [served, hfaults]

theorem ask (h : c.Interpreted records replies openRequests testRequests faults)
    (hp : c.phase = .openRequest sock) (w : Watchdog) :
    { c with watchdog := w, phase := .openReply sock }.Interpreted records replies
      (openRequests ++ [sock]) testRequests faults where
  count        := by simpa [hp, Phase.opening] using h.count
  hand         := by simpa [hp, Phase.opening] using h.hand
  openRequests := by simpa [hp, Phase.unrequested] using h.openRequests
  testRequests := by simpa [hp, Phase.untriggered] using h.testRequests
  lastOpened   := h.lastOpened
  faults       := h.faults

theorem answer (h : c.Interpreted records replies openRequests testRequests faults)
    (hp : c.phase = .openReply sock) (w : Watchdog) (reply : OpenReply) :
    Interpreted ⟨.serve, w, if reply.state = .established then some (sock, reply.session)
        else c.lastOpened⟩ records (replies ++ [reply]) openRequests testRequests
      (faults ++ if reply.state = .established then [] else [.openFailed sock reply.state]) := by
  obtain ⟨count, hand, requests, triggers, lastOpened, hfaults⟩ := h
  obtain ⟨done, r, rfl, zero, rfl⟩ := hand sock (by simp [hp, Phase.opening])
  have answered : interpret (done ++ [r]) (replies ++ [reply]) = _ :=
    interpret_answered (by simpa [hp, opening, zero, Phase.opening] using count) zero reply
  rw [Course.answer] at answered
  by_cases hs : reply.state = .established <;> simp only [hs, if_true, if_false] at *
  all_goals
    constructor
    case count        => simpa [hp, Phase.opening] using count
    case hand         => simp [Phase.opening]
    case openRequests => simpa [hp, Phase.unrequested, answered] using requests
    case testRequests => simpa [hp, Phase.untriggered, answered] using triggers
    case lastOpened   => simp [answered, lastOpened]
    case faults       => simp [answered, hfaults]

theorem trigger (h : c.Interpreted records replies openRequests testRequests faults)
    (hp : c.phase = .trigger request) :
    { c with phase := .serve }.Interpreted records replies openRequests (testRequests ++ [request])
      faults where
  count        := by simpa [hp, Phase.opening] using h.count
  hand         := nofun
  openRequests := by simpa [hp, Phase.unrequested] using h.openRequests
  testRequests := by simpa [hp, Phase.untriggered] using h.testRequests
  lastOpened   := h.lastOpened
  faults       := h.faults

theorem next (h : c.Interpreted records replies openRequests testRequests faults)
    (step : Step enable c l ns c' l') :
    c'.Interpreted (records ++ c.served l l') (replies ++ c.answers l l')
      (openRequests ++ l.openRequests.added l'.openRequests)
      (testRequests ++ l.testRequests.added l'.testRequests)
      (faults ++ Fault.among Fault.isOutcome ns) := by
  cases step
  case wake hp _ =>
    exact h.pass (by simp [hp, Phase.opening, Phase.unrequested, Phase.untriggered]) rfl
      (by simp [served, answers]) ⟨rfl, rfl⟩ rfl
  case clear hp _ stray forgotten =>
    refine h.pass ⟨rfl, rfl, rfl⟩ rfl (by simp [served, answers, hp, Phase.awaited]) ?_ ?_
    all_goals
      cases stray <;> cases forgotten <;> simp [Fault.isOutcome]
  case sleep hp _ =>
    exact h.pass (by simp [hp, Phase.opening, Phase.unrequested, Phase.untriggered]) rfl
      (by simp [served, answers]) ⟨rfl, rfl⟩ rfl
  case connect hp _ read zero =>
    simpa [served, answers, hp, Phase.awaited, Fifo.taken_tail read] using h.connect hp zero
  case transmit hp _ read nonzero opened =>
    simpa [served, answers, hp, Phase.awaited, Fifo.taken_tail read]
      using h.transmit hp nonzero opened
  case refuse hp _ read nonzero unopened =>
    simpa [served, answers, hp, Phase.awaited, Fifo.taken_tail read, isOutcome_refusal]
      using h.refuse hp nonzero unopened
  case ask hp write =>
    simpa [served, answers, hp, Phase.awaited, Fifo.added_of_write write] using h.ask hp _
  case establish reply _ hp read established =>
    simpa [served, answers, hp, Phase.awaited, Fifo.taken_tail read, established]
      using h.answer hp c.watchdog.tick reply
  case fail reply _ hp read failed =>
    simpa [served, answers, hp, Phase.awaited, Fifo.taken_tail read, failed, Fault.isOutcome]
      using h.answer hp c.watchdog.tick reply
  case trigger hp write =>
    simpa [served, answers, hp, Phase.awaited, Fifo.added_of_write write] using h.trigger hp
  all_goals
    exact h.pass ⟨rfl, rfl, rfl⟩ rfl (by simp [served, answers]) ⟨rfl, rfl⟩ rfl

end Interpreted

theorem Interpreted.replies_eq_nil
    (h : c.Interpreted records replies openRequests testRequests faults) :
    (interpret records replies).replies = [] := by
  have count := h.count
  cases he : c.phase.opening
  case nil => exact Tcp.replies_eq_nil (by simpa [he] using count)
  case cons sock rest =>
    obtain ⟨done, r, rfl, zero, _⟩ := h.hand sock (by simp [he])
    have short : rest = [] := by
      revert he
      cases c.phase <;> simp [Phase.opening]
    have count : (opening done).length = replies.length := by
      simpa [he, short, opening, zero] using count
    rw [interpret_pending count zero, Tcp.replies_eq_nil count]

theorem Step.tally_connectionsOpened (h : Step enable c l ns c' l') : tally .connectionsOpened ns =
    ((c.answers l l').filter (·.state = .established)).length := by
  cases h
  case clear hp _ stray forgotten =>
    cases stray <;> cases forgotten <;> simp [answers, hp, Phase.awaited]
  case establish hp read established =>
    simp [answers, hp, Phase.awaited, Fifo.taken_tail read, established]
  case fail hp read failed => simp [answers, hp, Phase.awaited, Fifo.taken_tail read, failed]
  all_goals simp [answers]

theorem Step.tally_writeTriggers (h : Step enable c l ns c' l') : tally .writeTriggers ns =
    (l.testRequests.added l'.testRequests).length := by
  cases h
  case clear stray forgotten => cases stray <;> cases forgotten <;> simp
  case trigger write         => simp [Fifo.added_of_write write]
  all_goals simp

-- In this turn a record is dropped, and nothing comes of it.
structure Drops (enable : Bool) (c : Connector) (l : Links) (ns : List Note) (c' : Connector)
    (l' : Links) : Prop where
  phase        : c.phase = .idle
  disabled     : enable = false
  connector    : c' = c
  openRequests : l'.openRequests = l.openRequests
  testRequests : l'.testRequests = l.testRequests
  outcomes     : Fault.among Fault.isOutcome ns = []
  counters     : ∀ k, tally k ns = 0

theorem Step.served_or_dropped (h : Step enable c l ns c' l')
    (taken : l.records.taken l'.records ≠ []) :
    c.phase = .serve ∧ enable = true ∨ c.Drops enable l ns c' l' := by
  cases h
  case clear hp hd stray forgotten =>
    refine .inr ⟨hp, hd, rfl, ?_, ?_, ?_, fun k => ?_⟩
    all_goals cases stray <;> cases forgotten <;> simp [Fault.isOutcome]
  case connect hp he _ _    => exact .inl ⟨hp, he⟩
  case transmit hp he _ _ _ => exact .inl ⟨hp, he⟩
  case refuse hp he _ _ _   => exact .inl ⟨hp, he⟩
  all_goals simp at taken

end Connector

namespace Frame

def served (ts : List Turn) : List ControlRecord :=
  ts.flatMap fun t =>
    t.before.net.connector.served t.before.connectorLinks t.after.connectorLinks

def answers (ts : List Turn) : List OpenReply :=
  ts.flatMap fun t =>
    t.before.net.connector.answers t.before.connectorLinks t.after.connectorLinks

def testRequests (ts : List Turn) : List SendRequest :=
  written (·.before.net.inner.testRequests) (·.after.net.inner.testRequests) ts

structure Interpreting (ts : List Turn) (n : Network) : Prop where
  interpreted : n.connector.Interpreted (served ts) (answers ts) (openRequests ts) (testRequests ts)
    (Fault.among Fault.isOutcome (ts.flatMap Turn.notes))
  opened      : tally .connectionsOpened (ts.flatMap Turn.notes) =
    ((answers ts).filter (·.state = .established)).length
  triggered   : tally .writeTriggers (ts.flatMap Turn.notes) = (testRequests ts).length

variable {enable : Bool} {ts : List Turn} {f f' : Frame} {ns : List Note} {n : Network}

theorem Uninvolved.outcomes (h : Uninvolved f ns f') : Fault.among Fault.isOutcome ns = [] := by
  rw [← Reporter.filter_faults fun _ => Fault.reporter_of_isOutcome, h.faults, List.filter_nil]

theorem Uninvolved.served_eq (h : Uninvolved f ns f') :
    f.net.connector.served f.connectorLinks f'.connectorLinks = [] := by
  have := h.records
  simp [Connector.served, connectorLinks, this]

theorem Uninvolved.answers_eq (h : Uninvolved f ns f') :
    f.net.connector.answers f.connectorLinks f'.connectorLinks = [] := by
  have := h.openReplies
  simp [Connector.answers, connectorLinks, this]

theorem Interpreting.next {served' : List ControlRecord} {answers' : List OpenReply}
    (h : Interpreting ts f.net)
    (hs : f.net.connector.served f.connectorLinks f'.connectorLinks = served')
    (ha : f.net.connector.answers f.connectorLinks f'.connectorLinks = answers')
    (interpreted : f'.net.connector.Interpreted (served ts ++ served') (answers ts ++ answers')
      (openRequests ts ++ f.o.openRequests.added f'.o.openRequests)
      (testRequests ts ++ f.net.inner.testRequests.added f'.net.inner.testRequests)
      (Fault.among Fault.isOutcome (ts.flatMap Turn.notes) ++ Fault.among Fault.isOutcome ns))
    (opened : tally .connectionsOpened ns = (answers'.filter (·.state = .established)).length)
    (triggered : tally .writeTriggers ns =
      (f.net.inner.testRequests.added f'.net.inner.testRequests).length) :
    Interpreting (ts ++ [⟨f, ns, f'⟩]) f'.net := by
  subst hs ha
  constructor
  case interpreted => simpa [served, answers, testRequests] using interpreted
  case opened      => simp [h.opened, opened, answers]
  case triggered   => simp [h.triggered, triggered, testRequests]

theorem Interpreting.turn (h : Interpreting ts f.net) (step : Step enable f ns f') :
    Interpreting (ts ++ [⟨f, ns, f'⟩]) f'.net := by
  obtain aside | step := step.uninvolved_or_connect
  case inr =>
    exact h.next rfl rfl (h.interpreted.next step) step.tally_connectionsOpened
      step.tally_writeTriggers
  case inl =>
    refine h.next aside.served_eq aside.answers_eq ?_ ?_ ?_
    case refine_1 =>
      simpa [aside.connector, aside.openRequests, aside.testRequests, aside.outcomes]
        using h.interpreted
    case refine_2 => simpa using aside.counters .connectionsOpened rfl
    case refine_3 => simpa [aside.testRequests] using aside.counters .writeTriggers rfl

theorem Interpreting.start {c : Config} (h : Network.create c = .ok n) : Interpreting [] n := by
  have ⟨_, _, _, _, _, hc, _⟩ := Network.create_ok h
  exact ⟨hc ▸ ⟨rfl, nofun, rfl, rfl, rfl, rfl⟩, rfl, rfl⟩

def Disposes (enable : Bool) (t : Turn) : Prop :=
  t.before.net.inner.records.taken t.after.net.inner.records ≠ [] →
    t.before.net.connector.phase = .serve ∧ enable = true ∨
    Connector.Drops enable t.before.net.connector t.before.connectorLinks t.notes
      t.after.net.connector t.after.connectorLinks

theorem Step.disposes (step : Step enable f ns f') : Disposes enable ⟨f, ns, f'⟩ := by
  intro taken
  obtain aside | step := step.uninvolved_or_connect
  case inl => exact absurd aside.records taken
  case inr => exact step.served_or_dropped taken

end Frame

namespace Interface

variable {c : Config} {x x₀ : Interface} {cs : History}

theorem interpreting_of_run (hc : create c = .ok x₀) (run : Run tick .any x₀ cs x) :
    Frame.Interpreting (turns cs) x.net :=
  invariant_of_run (P := Frame.Interpreting) (Q := fun _ ts f => Frame.Interpreting ts f.net) run
    (.start (network_of_create hc)) (fun _ h => h) (fun step h => h.turn step) fun h => h

theorem disposes_of_run (run : Run tick .any x₀ cs x) :
    ∀ t ∈ marked cs, Frame.Disposes t.1 t.2 := by
  refine marked_invariant_of_run (P := fun ts _ => ∀ t ∈ ts, Frame.Disposes t.1 t.2) run
    (List.forall_mem_nil _) ?_
  intro _ _ _ _ _ step ih
  exact List.forall_mem_append.mpr ⟨ih, List.forall_mem_singleton.mpr step.disposes⟩

-- The connector does what the records and the replies tell: it requests the connections and the
-- test bytes, knows which connection was opened last, and reports what went wrong. All that may be
-- missing is the request of the record in hand. Each request for a connection has taken one reply,
-- but for the one that is awaited, and each time when the countdown has gone by in vain, a timeout
-- is reported. Only served records matter, and a record that is dropped leaves no trace.
theorem interpreted_of_run (hc : create c = .ok x₀) (run : Run tick .any x₀ cs x) :
    let records := Frame.served (turns cs)
    let replies := Frame.answers (turns cs)
    let o := interpret records replies
    let phase := x.net.connector.phase
    Frame.openRequests (turns cs) ++ phase.unrequested = o.openRequests ∧
    Frame.testRequests (turns cs) ++ phase.untriggered = o.testRequests ∧
    x.net.connector.lastOpened = o.connections.getLast? ∧
    (faults cs).filter Fault.isOutcome = o.faults ∧
    x.ledger.stats.get .connectionsOpened = .ofNat o.connections.length ∧
    x.ledger.stats.get .writeTriggers = .ofNat (Frame.testRequests (turns cs)).length ∧
    (opening records).length = replies.length + phase.opening.length ∧
    (∀ t ∈ marked cs, Frame.Disposes t.1 t.2) ∧
    ∀ ds d rest, cs = ds ++ d :: rest →
      Fault.among Fault.isTimeout d.notes = timeouts (max 1 c.connectWatchdog) ds d := by
  intro records replies o phase
  have ⟨interpreted, opened, triggered⟩ := interpreting_of_run hc run
  have ⟨_, timeouts⟩ := countdown_of_run hc run
  have stats := Ledger.stats_of_run ledger_of_tick (stats_of_create hc) run
  have notes : cs.flatMap Cycle.notes = (turns cs).flatMap Frame.Turn.notes := by
    rw [notes_eq_of_run run, ← marked_map_snd, List.flatMap_map]
  rw [← notes] at opened triggered
  refine ⟨interpreted.openRequests, interpreted.testRequests, interpreted.lastOpened, ?faults,
    ?opened, ?triggered, interpreted.count, disposes_of_run run, timeouts⟩
  case faults =>
    rw [← interpreted.faults, faults_eq_of_run run, Fault.among, List.filterMap_flatMap]
    rfl
  case opened =>
    rw [stats, opened, ← interpret_connections_length records, interpreted.replies_eq_nil]
    rfl
  case triggered => rw [stats, triggered]

-- The reply to the first record comes late, and the second record asks for the connection that was
-- opened by it.
theorem interpreted_of_late_reply :
    ∃ x₀ cs x, create { small with connectWatchdog := 2 } = .ok x₀ ∧ Run tick .any x₀ cs x ∧
      Frame.served (turns cs) = [⟨⟨0x0a0cc899, 80⟩, 0⟩, ⟨⟨0x0a0cc899, 80⟩, 5⟩] ∧
      Frame.answers (turns cs) = [⟨3, .established⟩] ∧
      faults cs = [.openTimeout ⟨0x0a0cc899, 80⟩, .openTimeout ⟨0x0a0cc899, 80⟩] ∧
      Frame.testRequests (turns cs) = [⟨3, 5⟩] ∧
      x.ledger.stats.get .writeTriggers = 1 := by
  let nothing : List Notification × List Chunk × List SessionId := ([], [], [])
  let stream (r : ControlRecord) := [([⟨0, 8, 0, 0, ListenPort.transmitTest⟩], [], []), nothing,
    nothing, nothing, nothing, nothing, ([], [], [0]), ([], [r.toChunk true], []), nothing, nothing,
    nothing]
  let replied := (arrivals [nothing]).map fun (_, i, o) =>
    (true, { i with openReplies := .fill .single [⟨3, .established⟩] }, o)
  let opened := arrivals (stream ⟨⟨0x0a0cc899, 80⟩, 0⟩ ++ [nothing, nothing, nothing]) ++ replied
  let triggered := arrivals (stream ⟨⟨0x0a0cc899, 80⟩, 5⟩ ++ [nothing])
  have ⟨x₀, cs, x, hc, run, hp, records, replies, overdue⟩ : ∃ x₀ cs x,
      create { small with connectWatchdog := 2 } = .ok x₀ ∧ Run tick .any x₀ cs x ∧
      x.net.connector.phase = .serve ∧
      Frame.served (turns cs) = [⟨⟨0x0a0cc899, 80⟩, 0⟩, ⟨⟨0x0a0cc899, 80⟩, 5⟩] ∧
      Frame.answers (turns cs) = [⟨3, .established⟩] ∧
      faults cs = [.openTimeout ⟨0x0a0cc899, 80⟩, .openTimeout ⟨0x0a0cc899, 80⟩] :=
    Run.exists_of_create (opened ++ triggered) (by decide +kernel)
  have ⟨_, requests, _, _, _, triggers, _⟩ := interpreted_of_run hc run
  rw [records, replies, hp] at requests
  have written : Frame.testRequests (turns cs) = [⟨3, 5⟩] :=
    (List.append_nil _).symm.trans requests
  exact ⟨x₀, cs, x, hc, run, records, replies, overdue, written, by rw [triggers, written]; rfl⟩

end Interface

end Tcp

end ShellInterface
