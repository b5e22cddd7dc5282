import ShellInterface.Proofs.Tcp.Connector
import ShellInterface.Proofs.Tcp.Credit
import ShellInterface.Proofs.Tcp.Reports

namespace ShellInterface.Tcp

open Tcp.Frame (Turn)

namespace Connector

def Phase.awaited : Phase → List Socket
  | .openReply sock => [sock]
  | _               => []

theorem Phase.awaited_length_le (p : Phase) : p.awaited.length ≤ 1 := by
  cases p <;> simp [awaited]

-- The connections that were established by these replies to these requests, each reply answering
-- the request in its place.
def connections (requests : List Socket) (replies : List OpenReply) : List (Socket × SessionId) :=
  (requests.zip replies).filterMap fun (sock, reply) =>
    if reply.state = .established then some (sock, reply.session) else none

structure Matched (c : Connector) (requests : List Socket) (replies : List OpenReply) : Prop where
  answered   : ∃ answered, requests = answered ++ c.phase.awaited ∧
    answered.length = replies.length
  lastOpened : c.lastOpened = (connections requests replies).getLast?

variable {c c' : Connector} {l l' : Links} {enable : Bool} {ns : List Note}
  {requests answered : List Socket} {replies : List OpenReply} {sock : Socket} {reply : OpenReply}

theorem connections_of_request (h : requests.length = replies.length) (sock : Socket) :
    connections (requests ++ [sock]) replies = connections requests replies := by
  have hz : (requests ++ [sock]).zip (replies ++ []) = requests.zip replies ++ [sock].zip [] :=
    List.zip_append h
  rw [List.append_nil] at hz
  simp [connections, hz]

theorem connections_of_reply (h : answered.length = replies.length) (sock : Socket)
    (reply : OpenReply) : connections (answered ++ [sock]) (replies ++ [reply]) =
      connections (answered ++ [sock]) replies ++
        if reply.state = .established then [(sock, reply.session)] else [] := by
  rw [connections_of_request h, connections, List.zip_append h]
  by_cases hs : reply.state = .established <;> simp [connections, hs]

theorem Matched.length_eq (h : c.Matched requests replies) :
    requests.length = replies.length + c.phase.awaited.length := by
  obtain ⟨⟨answered, rfl, he⟩, _⟩ := h
  rw [List.length_append, he]

theorem Matched.items_eq_nil {α : Type} {items : List α} (h : c.Matched requests replies)
    (fed : replies.length + items.length ≤ requests.length) (unawaited : c.phase.awaited = []) :
    items = [] := by
  have := h.length_eq
  rw [unawaited, List.length_nil] at this
  exact List.eq_nil_of_length_eq_zero (by omega)

theorem Matched.pass (h : c.Matched requests replies)
    (phase : c'.phase.awaited = c.phase.awaited) (lastOpened : c'.lastOpened = c.lastOpened)
    (hq : l'.openRequests = l.openRequests) (hr : l'.openReplies = l.openReplies) :
    c'.Matched (requests ++ l.openRequests.added l'.openRequests)
      (replies ++ l.openReplies.taken l'.openReplies) := by
  rw [hq, hr, Fifo.added_self, Fifo.taken_self, List.append_nil, List.append_nil]
  exact ⟨phase ▸ h.answered, lastOpened.trans h.lastOpened⟩

theorem Matched.ask (h : c.Matched requests replies) (unawaited : c.phase.awaited = [])
    (awaited : c'.phase.awaited = [sock]) (lastOpened : c'.lastOpened = c.lastOpened) :
    c'.Matched (requests ++ [sock]) replies := by
  have hlength := h.length_eq
  rw [unawaited, List.length_nil, Nat.add_zero] at hlength
  exact ⟨⟨requests, by rw [awaited], hlength⟩,
    by rw [connections_of_request hlength, lastOpened, h.lastOpened]⟩

theorem Matched.answer (h : c.Matched requests replies) (hp : c.phase = .openReply sock)
    (unawaited : c'.phase.awaited = [])
    (lastOpened : c'.lastOpened =
      if reply.state = .established then some (sock, reply.session) else c.lastOpened) :
    c'.Matched requests (replies ++ [reply]) := by
  obtain ⟨⟨answered, rfl, he⟩, hlast⟩ := h
  have awaited : c.phase.awaited = [sock] := by rw [hp]; rfl
  rw [awaited] at hlast ⊢
  refine ⟨⟨answered ++ [sock], by rw [unawaited, List.append_nil], by simp [he]⟩, ?_⟩
  rw [lastOpened, connections_of_reply he, hlast]
  split <;> simp

theorem Matched.next (h : c.Matched requests replies)
    (fed : replies.length + l.openReplies.items.length ≤ requests.length)
    (step : Step enable c l ns c' l') :
    c'.Matched (requests ++ l.openRequests.added l'.openRequests)
      (replies ++ l.openReplies.taken l'.openReplies) := by
  cases step
  case wake hp _           => exact h.pass (by simp [Phase.awaited, hp]) rfl rfl rfl
  case clear hp _ stray forgotten =>
    -- A reply to clear away would be the second one to some request.
    have empty := h.items_eq_nil fed (by simp [Phase.awaited, hp])
    cases stray
    case close read _ => simp [empty] at read
    case keep         => cases forgotten <;> exact h.pass rfl rfl rfl rfl
  case sleep hp _          => exact h.pass (by simp [Phase.awaited, hp]) rfl rfl rfl
  case connect hp _ _ _    => exact h.pass (by simp [Phase.awaited, hp]) rfl rfl rfl
  case transmit hp _ _ _ _ => exact h.pass (by simp [Phase.awaited, hp]) rfl rfl rfl
  case ask hp write        =>
    rw [Fifo.added_of_write write, Fifo.taken_self, List.append_nil]
    exact h.ask (by simp [Phase.awaited, hp]) rfl rfl
  case establish hp read established =>
    rw [Fifo.taken_tail read, Fifo.added_self, List.append_nil]
    exact h.answer hp rfl (by simp [established])
  case fail hp read failed =>
    rw [Fifo.taken_tail read, Fifo.added_self, List.append_nil]
    exact h.answer hp rfl (by simp [failed])
  case trigger hp _        => exact h.pass (by simp [Phase.awaited, hp]) rfl rfl rfl
  all_goals exact h.pass rfl rfl rfl rfl

theorem Matched.quiet (h : c.Matched requests replies)
    (fed : replies.length + l.openReplies.items.length ≤ requests.length)
    (step : Step enable c l ns c' l') : l'.closeRequests = l.closeRequests ∧
      ∀ session, .unexpectedOpenReply session ∉ ns.filterMap Note.fault? := by
  cases step
  case clear hp _ stray forgotten =>
    have empty := h.items_eq_nil fed (by simp [Phase.awaited, hp])
    cases stray
    case close read _ => simp [empty] at read
    case keep         => cases forgotten <;> simp [Note.fault?]
  case refuse =>
    refine ⟨rfl, fun session => ?_⟩
    unfold refusal
    split <;> simp [Note.fault?]
  all_goals simp [Note.fault?]

theorem Step.openReplies_append (h : Step enable c l ns c' l') :
    l.openReplies.items = l.openReplies.taken l'.openReplies ++ l'.openReplies.items := by
  cases h
  case clear stray forgotten =>
    cases stray
    case keep         => cases forgotten <;> simp
    case close read _ => cases forgotten <;> simp [read, Fifo.taken_tail read]
  case establish read _ => simp [read, Fifo.taken_tail read]
  case fail read _      => simp [read, Fifo.taken_tail read]
  all_goals simp

end Connector

namespace Frame

def openRequests (ts : List Turn) : List Socket :=
  written (·.before.o.openRequests) (·.after.o.openRequests) ts

def openReplies (ts : List Turn) : List OpenReply :=
  consumed (·.before.i.openReplies) (·.after.i.openReplies) ts

def closeRequests (ts : List Turn) : List SessionId :=
  written (·.before.o.closeRequests) (·.after.o.closeRequests) ts

def Answered (ts : List Turn) (i : Ingress) : Prop :=
  (openReplies ts).length + i.openReplies.items.length ≤ (openRequests ts).length

instance (ts : List Turn) (i : Ingress) : Decidable (Answered ts i) :=
  Nat.decLe _ _

structure Attended (ts : List Turn) (n : Network) : Prop where
  matched       : n.connector.Matched (openRequests ts) (openReplies ts)
  closeRequests : closeRequests ts = []
  faults        : ∀ session, .unexpectedOpenReply session ∉ faults ts

def connectorLinks (f : Frame) : Connector.Links where
  records       := f.net.inner.records
  openReplies   := f.i.openReplies
  openRequests  := f.o.openRequests
  closeRequests := f.o.closeRequests
  testRequests  := f.net.inner.testRequests

structure Elsewhere (f : Frame) (ns : List Note) (f' : Frame) : Prop where
  connector     : f'.net.connector = f.net.connector
  openReplies   : f'.i.openReplies = f.i.openReplies
  openRequests  : f'.o.openRequests = f.o.openRequests
  closeRequests : f'.o.closeRequests = f.o.closeRequests
  faults        : ∀ session, .unexpectedOpenReply session ∉ ns.filterMap Note.fault?

variable {enable : Bool} {ts : List Turn} {f f' : Frame} {ns : List Note} {n : Network}

theorem Elsewhere.of_only {r : Reporter} (hc : f'.net.connector = f.net.connector)
    (hl : f'.i.openReplies = f.i.openReplies ∧ f'.o.openRequests = f.o.openRequests ∧
      f'.o.closeRequests = f.o.closeRequests) (only : r.Only ns) (hr : r ≠ .connector) :
    Elsewhere f ns f' :=
  ⟨hc, hl.1, hl.2.1, hl.2.2, fun _ hf => hr (only _ hf).symm⟩

theorem Step.elsewhere_or_connect (step : Step enable f ns f') : Elsewhere f ns f' ∨
    Connector.Step enable f.net.connector f.connectorLinks ns f'.net.connector
      f'.connectorLinks := by
  cases step
  case listen ticked    =>
    exact .inl (.of_only rfl ⟨rfl, rfl, rfl⟩ ((Listener.only_tick _ _ _).of_eq ticked) (by decide))
  case connect ticked   => exact .inr (Connector.step_of_tick ticked)
  case interrupt ticked =>
    exact .inl (.of_only rfl ⟨rfl, rfl, rfl⟩ ((Interrupts.only_tick _ _).of_eq ticked) (by decide))
  case buffer           => exact .inl ⟨rfl, rfl, rfl, rfl, by simp⟩
  case track error _ _ _ =>
    exact .inl ⟨rfl, rfl, rfl, rfl, fun _ => by cases error <;> simp [Note.fault?]⟩
  case receive ticked   =>
    exact .inl (.of_only rfl ⟨rfl, rfl, rfl⟩ ((Receiver.only_tick _ _ _).of_eq ticked) (by decide))
  case transmit ticked  =>
    exact .inl (.of_only rfl ⟨rfl, rfl, rfl⟩ ((Transmitter.only_tick _ _ _).of_eq ticked)
      (by decide))

section Concat

variable (ts : List Turn) (t : Turn)

@[simp]
theorem openRequests_concat : openRequests (ts ++ [t]) =
    openRequests ts ++ t.before.o.openRequests.added t.after.o.openRequests := by
  simp [openRequests]

@[simp]
theorem openReplies_concat : openReplies (ts ++ [t]) =
    openReplies ts ++ t.before.i.openReplies.taken t.after.i.openReplies := by
  simp [openReplies]

@[simp]
theorem closeRequests_concat : closeRequests (ts ++ [t]) =
    closeRequests ts ++ t.before.o.closeRequests.added t.after.o.closeRequests := by
  simp [closeRequests]

end Concat

theorem Attended.next (h : Attended ts f.net)
    (matched : f'.net.connector.Matched
      (openRequests ts ++ f.o.openRequests.added f'.o.openRequests)
      (openReplies ts ++ f.i.openReplies.taken f'.i.openReplies))
    (closed : f'.o.closeRequests = f.o.closeRequests)
    (expected : ∀ session, .unexpectedOpenReply session ∉ ns.filterMap Note.fault?) :
    Attended (ts ++ [⟨f, ns, f'⟩]) f'.net where
  matched       := by
    rw [openRequests_concat, openReplies_concat]
    exact matched
  closeRequests := by
    rw [closeRequests_concat, h.closeRequests, closed, Fifo.added_self, List.append_nil]
  faults        := fun session hf => by
    rw [faults_concat] at hf
    exact (List.mem_append.mp hf).elim (h.faults session) (expected session)

theorem Answered.next (h : Answered ts f.i) (replies : f.i.openReplies.items =
      f.i.openReplies.taken f'.i.openReplies ++ f'.i.openReplies.items) :
    Answered (ts ++ [⟨f, ns, f'⟩]) f'.i := by
  have := congrArg List.length replies
  simp only [Answered, openReplies_concat, openRequests_concat, List.length_append] at *
  omega

theorem Attended.turn (h : Attended ts f.net) (answered : Answered ts f.i)
    (step : Step enable f ns f') :
    Attended (ts ++ [⟨f, ns, f'⟩]) f'.net ∧ Answered (ts ++ [⟨f, ns, f'⟩]) f'.i := by
  obtain ⟨connector, replies, requests, closed, expected⟩ | step := step.elsewhere_or_connect
  case inl =>
    refine ⟨h.next ?_ closed expected, answered.next (by simp [replies])⟩
    simpa [connector, replies, requests] using h.matched
  case inr =>
    have ⟨closed, expected⟩ := h.matched.quiet (l := f.connectorLinks) answered step
    have matched := h.matched.next (l := f.connectorLinks) answered step
    exact ⟨h.next matched closed expected, answered.next step.openReplies_append⟩

theorem Attended.start {c : Config} (h : Network.create c = .ok n) : Attended [] n := by
  have ⟨_, _, _, _, _, hc, _⟩ := Network.create_ok h
  exact ⟨hc ▸ ⟨⟨[], rfl, rfl⟩, rfl⟩, rfl, fun _ => List.not_mem_nil⟩

theorem Attended.openReplies_eq_nil {i : Ingress} (h : Attended ts n) (answered : Answered ts i)
    (unawaited : n.connector.phase.awaited = []) : i.openReplies.items = [] :=
  h.matched.items_eq_nil answered unawaited

end Frame

namespace Interface

-- Surroundings in which the engine answers each open request once, one after the other, and sends
-- no other open reply. When it answers, and what, is up to the engine.
def connecting : Surroundings Interface Bool (Ingress × Egress) :=
  fun cs _ l => Frame.Answered (turns cs) l.1

instance (cs : History) (enable : Bool) (l : Ingress × Egress) :
    Decidable (connecting cs enable l) :=
  inferInstanceAs (Decidable (Frame.Answered (turns cs) l.1))

variable {c : Config} {x x₀ : Interface} {cs : History}

theorem attended_of_run (hc : create c = .ok x₀) (run : Run tick connecting x₀ cs x) :
    Frame.Attended (turns cs) x.net ∧ ∀ c ∈ cs,
      (c.source.net.connector.phase.awaited = [] → c.before.1.openReplies.items = []) ∧
      (c.target.net.connector.phase.awaited = [] → c.after.1.openReplies.items = []) := by
  induction run
  case start => exact ⟨.start (network_of_create hc), List.forall_mem_nil _⟩
  case next allowed ticked ih =>
    have ⟨attended, quiet⟩ := ih
    -- What the engine may do is known before the cycle. Its turns only write requests and read
    -- replies, and so it is still known after each of them.
    have h := cycle_of_tick ticked
    rw [Frame.cycle_eq_foldlM] at h
    have ⟨attended', answered'⟩ := Frame.turns_induction
      (P := fun ts f => Frame.Attended ts f.net ∧ Frame.Answered ts f.i)
      (fun act hm _ _ _ _ ha ⟨attended, answered⟩ =>
        attended.turn answered (Frame.step_of_mem_stages hm ha)) h ⟨attended, allowed⟩
    rw [turns_concat]
    refine ⟨attended', List.forall_mem_append.mpr ⟨quiet, List.forall_mem_singleton.mpr ⟨?_, ?_⟩⟩⟩
    case refine_1 => exact attended.openReplies_eq_nil allowed
    case refine_2 => exact attended'.openReplies_eq_nil answered'

-- All open requests but the one in flight were answered, and this one is awaited. No reply waits
-- that is not awaited, and so none is unexpected and no connection is closed. The connection opened
-- last is that of the last reply by which one was established, and of the request that this reply
-- answers.
theorem opened_of_run (hc : create c = .ok x₀) (run : Run tick connecting x₀ cs x) :
    let requests := Frame.openRequests (turns cs)
    let replies := Frame.openReplies (turns cs)
    (∃ answered, requests = answered ++ x.net.connector.phase.awaited ∧
      answered.length = replies.length) ∧
    requests.length ≤ replies.length + 1 ∧
    (∀ c ∈ cs,
      (c.source.net.connector.phase.awaited = [] → c.before.1.openReplies.items = []) ∧
      (c.target.net.connector.phase.awaited = [] → c.after.1.openReplies.items = [])) ∧
    (∀ session, .unexpectedOpenReply session ∉ faults cs) ∧
    Frame.closeRequests (turns cs) = [] ∧
    x.net.connector.lastOpened = (Connector.connections requests replies).getLast? := by
  intro requests replies
  have ⟨⟨matched, closed, expected⟩, quiet⟩ := attended_of_run hc run
  refine ⟨matched.answered, ?_, quiet, faults_eq_of_run run ▸ expected, closed, matched.lastOpened⟩
  rw [matched.length_eq]
  exact Nat.add_le_add_left (Connector.Phase.awaited_length_le _) _

-- The reply is overdue twice, and the interface is disabled before it comes.
theorem opened_of_late_reply :
    ∃ x₀ cs x, create { small with connectWatchdog := 2 } = .ok x₀ ∧
      Run tick connecting x₀ cs x ∧
      faults cs = [.openTimeout ⟨0x0a0cc899, 80⟩, .openTimeout ⟨0x0a0cc899, 80⟩] ∧
      Frame.closeRequests (turns cs) = [] ∧
      x.net.connector.lastOpened = some (⟨0x0a0cc899, 80⟩, 3) := by
  let nothing : List Notification × List Chunk × List SessionId := ([], [], [])
  let record := ControlRecord.toChunk ⟨⟨0x0a0cc899, 80⟩, 0⟩ true
  let enabled := arrivals [([⟨0, 8, 0, 0, ListenPort.transmitTest⟩], [], []), nothing, nothing,
    nothing, nothing, nothing, ([], [], [0]), ([], [record], []), nothing, nothing, nothing,
    nothing]
  let disabled := (arrivals [nothing, nothing, nothing]).map fun (_, l) => (false, l)
  let replied := (arrivals [nothing]).map fun (_, i, o) =>
    (false, { i with openReplies := .fill .single [⟨3, .established⟩] }, o)
  have ⟨x₀, cs, x, hc, run, timeouts, requests, replies⟩ : ∃ x₀ cs x,
      create { small with connectWatchdog := 2 } = .ok x₀ ∧ Run tick connecting x₀ cs x ∧
      faults cs = [.openTimeout ⟨0x0a0cc899, 80⟩, .openTimeout ⟨0x0a0cc899, 80⟩] ∧
      Frame.openRequests (turns cs) = [⟨0x0a0cc899, 80⟩] ∧
      Frame.openReplies (turns cs) = [⟨3, .established⟩] :=
    Run.exists_of_create (enabled ++ disabled ++ replied) (by decide +kernel)
  have ⟨_, _, _, _, closed, lastOpened⟩ := opened_of_run hc run
  rw [requests, replies] at lastOpened
  exact ⟨x₀, cs, x, hc, run, timeouts, closed, lastOpened⟩

end Interface

end ShellInterface.Tcp
