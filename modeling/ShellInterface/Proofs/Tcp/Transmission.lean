import ShellInterface.Proofs.Tcp.Counters
import ShellInterface.Proofs.Tcp.Progress
import ShellInterface.Proofs.Tcp.Transfers

namespace ShellInterface.Tcp

open Tcp.Frame (Turn)

namespace Transfer

def refusals (r : Transfer) : Nat :=
  r.replies.countP (SendVerdict.ofCode? ·.code = some .noSpace)

theorem Refused.refusals_eq {r : Transfer} {n m : Nat} (h : r.Refused n m) : r.refusals = m := by
  rw [refusals, List.countP_eq_length.mpr fun q hq => decide_eq_true (h.noSpace q hq), h.replies]

theorem refusals_add {r : Transfer} {l : Transmitter.Links} {reply : SendReply}
    {replies : List SendReply} (read : l.replies.items = reply :: replies) (ns : List Note) :
    (r.add l { l with replies := l.replies.tail } ns).refusals = r.refusals +
      if SendVerdict.ofCode? reply.code = some .noSpace then 1 else 0 := by
  simp [refusals, add, Fifo.taken_tail read, List.countP_append, List.countP_singleton]

end Transfer

namespace Transmitter

variable {t t' : Transmitter} {l l' : Links} {enable : Bool} {ns : List Note} {rs : List Transfer}
  {r : Transfer}

def bytes (chunks : List Chunk) : Nat :=
  (chunks.map Chunk.length).sum

theorem Step.tally_sendRequests (h : Step enable t l ns t' l') :
    tally .sendRequests ns = (l.requests.added l'.requests).length := by
  cases h
  case ask write                => simp [Fifo.added_of_write write]
  case sendTest chunk _ _ _ _ _ => cases chunk.last <;> simp
  all_goals simp

theorem Step.tally_abandonedSends (h : Step enable t l ns t' l') :
    tally .abandonedSends ns = (Reporter.transmitter.faults ns).length := by
  cases h
  case exhaust                  => simp [Reporter.reports, Fault.reporter]
  case disconnect               => simp [Reporter.reports, Fault.reporter]
  case misread                  => simp [Reporter.reports, Fault.reporter]
  case sendTest chunk _ _ _ _ _ => cases chunk.last <;> simp
  all_goals simp

theorem Busy.tally_data (h : t.Busy r) (step : Step enable t l ns t' l') :
    tally .appChunks ns = (if r.requester = .app then l.data.added l'.data else []).length ∧
      tally .testBytes ns = bytes (if r.requester = .test then l.data.added l'.data else []) := by
  have unfinished := h.unfinished
  cases step
  case sendApp hp _ write =>
    rw [hp] at unfinished
    cases unfinished
    case appData app _ _ _ => simp [app, Fifo.added_of_write write, bytes]
  case sendTest chunk _ _ hp _ write =>
    rw [hp] at unfinished
    have hlt : chunk.length < UInt64.size := Nat.lt_of_le_of_lt chunk.length_le (by decide)
    cases unfinished
    case testData test _ _ _ =>
      cases chunk.last <;>
        simp [test, Fifo.added_of_write write, bytes, UInt64.toNat_ofNat_of_lt' hlt]
  all_goals simp [bytes]

-- A retry is counted each time that the engine has no room, but for the last time that it is asked.
theorem Busy.tally_sendRetries (h : t.Busy r) (step : Step enable t l ns t' l') :
    min (r.add l l' ns).refusals (t.budget - 1) =
      min r.refusals (t.budget - 1) + tally .sendRetries ns := by
  cases step
  case grant hp read verdict =>
    simp [Transfer.refusals_add read, verdict]
  case disconnect hp read verdict =>
    simp [Transfer.refusals_add read, verdict]
  case misread hp read verdict =>
    simp [Transfer.refusals_add read, verdict]
  case retry hp read verdict left =>
    have ⟨n, refused, hleft, _⟩ := h.refused hp
    simp [Transfer.refusals_add read, verdict, refused.refusals_eq]
    omega
  case exhaust hp read verdict last =>
    have ⟨n, refused, hleft, _⟩ := h.refused hp
    simp [Transfer.refusals_add read, verdict, refused.refusals_eq]
    omega
  case sendTest chunk _ _ _ _ _ => cases chunk.last <;> simp [Transfer.refusals, Transfer.add]
  all_goals simp [Transfer.refusals, Transfer.add]

theorem Step.enter_of_idle (h : Step enable t l ns t' l') (hp : t.phase = .idle)
    (rs : List Transfer) :
    Transfer.enter rs enable l l' ns = rs ++ Transfer.begun enable l l' ∧ ∀ c, tally c ns = 0 := by
  have begin {r : Transfer} {l' : Links} {ns : List Note} (hb : Transfer.begun enable l l' = [r])
      (hr : r.add l l' ns = r) :
      Transfer.enter rs enable l l' ns = rs ++ Transfer.begun enable l l' := by
    rw [hb, Transfer.enter_begun rs hb hr]
  cases h
  case rest => simp [Transfer.enter_nothing]
  case acceptApp read _  => simp [begin (Transfer.begun_app read), Transfer.add]
  case discardApp read _ => simp [begin (Transfer.begun_app read), Transfer.add]
  case acceptTest read _ => simp [begin (Transfer.begun_test read), Transfer.add]
  case ignoreTest read _ => simp [begin (Transfer.begun_test read), Transfer.add]
  all_goals cases hp.symm.trans ‹t.phase = _›

theorem Booked.sum_enter {weight : Transfer → Nat} {c : Counter} (h : Booked t rs)
    (step : Step enable t l ns t' l') (start : ∀ e q s, weight (.start e q s) = 0)
    (busy : ∀ r, t.Busy r → weight (r.add l l' ns) = weight r + tally c ns) :
    ((Transfer.enter rs enable l l' ns).map weight).sum = (rs.map weight).sum + tally c ns := by
  by_cases hp : t.phase = .idle
  case neg =>
    obtain ⟨done, r, rfl, _, hbusy⟩ := h.exists_busy hp
    rw [Transfer.enter_concat done (step.begun_eq_nil hp)]
    simp [busy r hbusy, Nat.add_assoc]
  case pos =>
    have ⟨enter, tally⟩ := step.enter_of_idle hp rs
    simp [enter, tally, Transfer.begun, start, Function.comp_def]

end Transmitter

namespace Connector

variable {c c' : Connector} {l l' : Links} {enable : Bool} {ns : List Note}

theorem Step.testRequests_written (h : Step enable c l ns c' l') :
    l'.testRequests.items = l.testRequests.items ++ l.testRequests.added l'.testRequests := by
  cases h
  case clear stray forgotten => cases stray <;> cases forgotten <;> simp
  case trigger write         => simp [Fifo.added_of_write write, (Fifo.write_ok write).left]
  all_goals simp

def Sized (c : Connector) : Prop :=
  ∀ request, c.phase = .trigger request → request.length ≠ 0

theorem Sized.next (h : c.Sized) (step : Step enable c l ns c' l') :
    c'.Sized ∧ ∀ request ∈ l.testRequests.added l'.testRequests, request.length ≠ 0 := by
  cases step
  case trigger hp write =>
    exact ⟨nofun, by simpa [Fifo.added_of_write write] using h _ hp⟩
  case clear stray forgotten => exact ⟨h, by cases stray <;> cases forgotten <;> simp⟩
  case transmit nonzero _ =>
    refine ⟨fun _ hp => ?_, by simp⟩
    cases hp
    exact nonzero
  all_goals exact ⟨by simp_all [Sized], by simp⟩

end Connector

theorem Inner.testRequests_of_create {depth bufferChunks : Nat} {s : Inner}
    (h : create depth bufferChunks = .ok s) : s.testRequests.items = [] := by
  have ⟨_, _, h⟩ := exists_of_bind_eq_ok h
  have ⟨_, _, h⟩ := exists_of_bind_eq_ok h
  have ⟨_, _, h⟩ := exists_of_bind_eq_ok h
  have ⟨_, _, h⟩ := exists_of_bind_eq_ok h
  have ⟨_, _, h⟩ := exists_of_bind_eq_ok h
  have ⟨_, _, h⟩ := exists_of_bind_eq_ok h
  have ⟨_, ht, h⟩ := exists_of_bind_eq_ok h
  cases h
  exact (Fifo.create_ok ht).left

namespace Frame

def transmitterLinks (f : Frame) : Transmitter.Links where
  appRequests  := f.i.appRequests
  appData      := f.i.appData
  testRequests := f.net.inner.testRequests
  replies      := f.i.sendReplies
  requests     := f.o.sendRequests
  data         := f.o.data

def transfers (ts : List (Bool × Turn)) : List Transfer :=
  ts.foldl (fun rs (enable, t) => Transfer.enter rs enable t.before.transmitterLinks
    t.after.transmitterLinks t.notes) []

theorem transfers_concat (ts : List (Bool × Turn)) (enable : Bool) (t : Turn) :
    transfers (ts ++ [(enable, t)]) = Transfer.enter (transfers ts) enable t.before.transmitterLinks
      t.after.transmitterLinks t.notes := by
  simp [transfers]

structure Recorded (ts : List (Bool × Turn)) : Prop where
  requests : ((transfers ts).filter (·.requester = .app)).map Transfer.request =
    consumed (·.before.i.appRequests) (·.after.i.appRequests) (ts.map Prod.snd)
  tests    : ((transfers ts).filter (·.requester = .test)).map Transfer.request =
    consumed (·.before.net.inner.testRequests) (·.after.net.inner.testRequests) (ts.map Prod.snd)
  asked    : (transfers ts).flatMap Transfer.asked =
    written (·.before.o.sendRequests) (·.after.o.sendRequests) (ts.map Prod.snd)
  replies  : (transfers ts).flatMap Transfer.replies =
    consumed (·.before.i.sendReplies) (·.after.i.sendReplies) (ts.map Prod.snd)
  taken    : (transfers ts).flatMap Transfer.taken =
    consumed (·.before.i.appData) (·.after.i.appData) (ts.map Prod.snd)
  sent     : (transfers ts).flatMap Transfer.sent =
    written (·.before.o.data) (·.after.o.data) (ts.map Prod.snd)
  faults   : (transfers ts).flatMap Transfer.faults =
    (faults (ts.map Prod.snd)).filter (·.reporter = .transmitter)

structure Counted (budget : Nat) (ts : List (Bool × Turn)) : Prop where
  sendRequests   : tally .sendRequests (ts.flatMap (·.2.notes)) =
    ((transfers ts).map fun r => r.asked.length).sum
  sendRetries    : tally .sendRetries (ts.flatMap (·.2.notes)) =
    ((transfers ts).map fun r => min r.refusals (budget - 1)).sum
  abandonedSends : tally .abandonedSends (ts.flatMap (·.2.notes)) =
    ((transfers ts).map fun r => r.faults.length).sum
  appChunks      : tally .appChunks (ts.flatMap (·.2.notes)) =
    ((transfers ts).map fun r => (if r.requester = .app then r.sent else []).length).sum
  testBytes      : tally .testBytes (ts.flatMap (·.2.notes)) =
    ((transfers ts).map fun r => Transmitter.bytes (if r.requester = .test then r.sent else [])).sum

structure Apart (f : Frame) (ns : List Note) (f' : Frame) : Prop where
  transmitter : f'.net.transmitter = f.net.transmitter
  links       : f'.transmitterLinks =
    { f.transmitterLinks with testRequests := f'.net.inner.testRequests }
  tests       : f.net.inner.testRequests.taken f'.net.inner.testRequests = []
  faults      : Reporter.transmitter.faults ns = []
  counters    : ∀ c : Counter, c.keeper = .transmitter → tally c ns = 0

structure Sized (n : Network) : Prop where
  pending : n.connector.Sized
  waiting : ∀ request ∈ n.inner.testRequests.items, request.length ≠ 0

structure Transacted (budget : Nat) (ts : List (Bool × Turn)) (n : Network) : Prop where
  booked   : n.transmitter.Booked (transfers ts)
  recorded : Recorded ts
  counted  : Counted budget ts
  budget   : n.transmitter.budget = budget
  sized    : Sized n
  tests    : ∀ request ∈ consumed (·.before.net.inner.testRequests)
    (·.after.net.inner.testRequests) (ts.map Prod.snd), request.length ≠ 0

variable {enable : Bool} {ts : List (Bool × Turn)} {f f' : Frame} {ns : List Note} {n : Network}
  {budget : Nat} {t : Turn} {transmitter : Transmitter} {l : Transmitter.Links}

theorem Apart.of_only {r : Reporter} (ht : f'.net.transmitter = f.net.transmitter)
    (hl : f'.transmitterLinks =
      { f.transmitterLinks with testRequests := f'.net.inner.testRequests })
    (tests : f.net.inner.testRequests.taken f'.net.inner.testRequests = []) (only : r.Only ns)
    (keeps : r.Keeps ns) (hr : r ≠ .transmitter) : Apart f ns f' :=
  ⟨ht, hl, tests, only.faults_of_ne hr, fun _ hc =>
    keeps.tally_eq_zero fun he => hr (he.symm.trans hc)⟩

theorem Step.apart_or_transmit (step : Step enable f ns f') : Apart f ns f' ∨
    Transmitter.Step enable f.net.transmitter f.transmitterLinks ns f'.net.transmitter
      f'.transmitterLinks := by
  cases step
  case listen ticked    =>
    exact .inl (.of_only rfl rfl (Fifo.taken_self _) ((Listener.only_tick _ _ _).of_eq ticked)
      (Listener.step_of_tick ticked).keeps nofun)
  case connect ticked   =>
    have step := Connector.step_of_tick ticked
    exact .inl (.of_only rfl rfl (Fifo.taken_of_append step.testRequests_written)
      ((Connector.only_tick _ _ _).of_eq ticked) step.keeps nofun)
  case interrupt ticked =>
    have ⟨_, _, _, step⟩ := Interrupts.step_of_tick ticked
    exact .inl (.of_only rfl rfl (Fifo.taken_self _) ((Interrupts.only_tick _ _).of_eq ticked)
      step.keeps nofun)
  case buffer           => exact .inl ⟨rfl, rfl, Fifo.taken_self _, rfl, fun _ _ => rfl⟩
  case track error _ _ _ =>
    refine .inl ⟨rfl, rfl, Fifo.taken_self _, ?_, fun _ _ => ?_⟩ <;> cases error <;> rfl
  case receive ticked   =>
    exact .inl (.of_only rfl rfl (Fifo.taken_self _) ((Receiver.only_tick _ _ _).of_eq ticked)
      (Receiver.step_of_tick ticked).keeps nofun)
  case transmit ticked  => exact .inr (Transmitter.step_of_tick ticked)

theorem Sized.turn (h : Sized f.net) (step : Step enable f ns f') : Sized f'.net := by
  cases step
  case connect ticked  =>
    have step := Connector.step_of_tick ticked
    have hw : _ = f.net.inner.testRequests.items ++ _ := step.testRequests_written
    have ⟨pending, added⟩ := h.pending.next step
    exact ⟨pending, hw ▸ List.forall_mem_append.mpr ⟨h.waiting, added⟩⟩
  case transmit ticked =>
    have step := Transmitter.step_of_tick ticked
    exact ⟨h.pending, fun request hr => h.waiting request (step.testRequests_subset hr)⟩
  all_goals exact ⟨h.pending, h.waiting⟩

theorem Apart.transfers_eq (h : Apart f ns f') (enable : Bool) (ts : List (Bool × Turn)) :
    transfers (ts ++ [(enable, ⟨f, ns, f'⟩)]) = transfers ts := by
  rw [transfers_concat, h.links]
  exact Transfer.enter_still _ h.tests h.faults

theorem Recorded.next (h : Recorded ts)
    (entered : Transfer.Entered (transfers ts) (transfers (ts ++ [(enable, t)]))
      t.before.transmitterLinks t.after.transmitterLinks t.notes) :
    Recorded (ts ++ [(enable, t)]) := by
  constructor
  case requests => rw [entered.requests, h.requests]; simp [transmitterLinks]
  case tests    => rw [entered.tests, h.tests]; simp [transmitterLinks]
  case asked    => rw [entered.asked, h.asked]; simp [transmitterLinks]
  case replies  => rw [entered.replies, h.replies]; simp [transmitterLinks]
  case taken    => rw [entered.taken, h.taken]; simp [transmitterLinks]
  case sent     => rw [entered.sent, h.sent]; simp [transmitterLinks]
  case faults   =>
    rw [entered.faults, h.faults, List.map_append, List.map_singleton, faults_concat,
      List.filter_append]
    rfl

theorem Counted.transmit (h : Counted budget ts) (booked : f.net.transmitter.Booked (transfers ts))
    (hb : f.net.transmitter.budget = budget)
    (step : Transmitter.Step enable f.net.transmitter f.transmitterLinks ns transmitter
      f'.transmitterLinks) : Counted budget (ts ++ [(enable, ⟨f, ns, f'⟩)]) := by
  have notes (c : Counter) :
      tally c ((ts ++ [(enable, (⟨f, ns, f'⟩ : Turn))]).flatMap (·.2.notes)) =
      tally c (ts.flatMap (·.2.notes)) + tally c ns := by simp
  constructor <;> rw [notes, transfers_concat]
  case sendRequests   =>
    rw [h.sendRequests, booked.sum_enter step (fun _ _ _ => rfl) fun r _ => ?_]
    rw [step.tally_sendRequests]
    simp [Transfer.add]
  case sendRetries    =>
    rw [h.sendRetries, booked.sum_enter step (fun _ _ _ => rfl) fun r busy => ?_]
    exact hb ▸ busy.tally_sendRetries step
  case abandonedSends =>
    rw [h.abandonedSends, booked.sum_enter step (fun _ _ _ => rfl) fun r _ => ?_]
    rw [step.tally_abandonedSends]
    simp [Transfer.add]
  case appChunks      =>
    rw [h.appChunks, booked.sum_enter step (fun _ q _ => by cases q <;> rfl) fun r busy => ?_]
    rw [(busy.tally_data step).left]
    cases hq : r.requester <;> simp [Transfer.add, hq]
  case testBytes      =>
    rw [h.testBytes, booked.sum_enter step (fun _ q _ => by cases q <;> rfl) fun r busy => ?_]
    rw [(busy.tally_data step).right]
    cases hq : r.requester <;> simp [Transfer.add, hq, Transmitter.bytes]

theorem Counted.pass (h : Counted budget ts) (apart : Apart f ns f') :
    Counted budget (ts ++ [(enable, ⟨f, ns, f'⟩)]) := by
  constructor <;> rw [apart.transfers_eq, List.flatMap_append, tally_append, List.flatMap_singleton]
  case sendRequests   => rw [apart.counters _ rfl, h.sendRequests]; rfl
  case sendRetries    => rw [apart.counters _ rfl, h.sendRetries]; rfl
  case abandonedSends => rw [apart.counters _ rfl, h.abandonedSends]; rfl
  case appChunks      => rw [apart.counters _ rfl, h.appChunks]; rfl
  case testBytes      => rw [apart.counters _ rfl, h.testBytes]; rfl

theorem Transacted.turn (h : Transacted budget ts f.net) (pos : 0 < budget)
    (step : Step enable f ns f') :
    Transacted budget (ts ++ [(enable, ⟨f, ns, f'⟩)]) f'.net := by
  have sized := h.sized.turn step
  have tests : ∀ request ∈ consumed (·.before.net.inner.testRequests)
      (·.after.net.inner.testRequests) ((ts ++ [(enable, (⟨f, ns, f'⟩ : Turn))]).map Prod.snd),
      request.length ≠ 0 := by
    rw [List.map_append, consumed_append]
    refine List.forall_mem_append.mpr ⟨h.tests, fun request hr => h.sized.waiting request ?_⟩
    simp only [List.map_cons, List.map_nil, consumed_cons, consumed_nil, List.append_nil] at hr
    exact List.take_subset _ _ hr
  obtain apart | step := step.apart_or_transmit
  case inl =>
    refine ⟨?_, h.recorded.next ?_, h.counted.pass apart, apart.transmitter ▸ h.budget, sized,
      tests⟩
    · rw [apart.transfers_eq, apart.transmitter]
      exact h.booked
    · rw [apart.transfers_eq, apart.links]
      exact .still _ apart.tests apart.faults
  case inr =>
    refine ⟨?_, h.recorded.next ?_, h.counted.transmit h.booked h.budget step,
      step.preserves_budget.trans h.budget, sized, tests⟩
    · rw [transfers_concat]
      exact h.booked.next (h.budget ▸ pos) h.sized.waiting step
    · rw [transfers_concat]
      exact h.booked.entered step

theorem Transacted.start {c : Config} (h : Network.create c = .ok n) :
    Transacted (max 1 c.sendRetries) [] n := by
  have ⟨_, _, hi, _, _, hc, ht⟩ := Network.create_ok h
  exact {
    booked   := ht ▸ .idle rfl nofun
    recorded := ⟨rfl, rfl, rfl, rfl, rfl, rfl, rfl⟩
    counted  := ⟨rfl, rfl, rfl, rfl, rfl⟩
    budget   := ht ▸ rfl
    sized    := ⟨hc ▸ nofun, by simp [Inner.testRequests_of_create hi]⟩
    tests    := nofun
  }

end Frame

namespace Interface

variable {c : Config} {x x₀ : Interface} {cs : History}
  {env : Surroundings Interface Bool (Ingress × Egress)}

theorem transacted_of_run (hn : Network.create c = .ok x₀.net) (run : Run tick env x₀ cs x) :
    Frame.Transacted (max 1 c.sendRetries) (marked cs) x.net :=
  marked_invariant_of_run run (.start hn) fun step h => h.turn (Nat.le_max_left 1 _) step

structure Arrival where
  notifications : List Notification := []
  chunks : List Chunk := []
  sessions : List SessionId := []
  opened : List OpenReply := []
  replies : List SendReply := []
  requests : List SendRequest := []
  data : List Chunk := []

def transmissions (arrived : List Arrival) : List (Bool × Ingress × Egress) :=
  arrived.map fun a =>
    (true,
      ⟨.fill .single a.notifications, .fill .single a.chunks, .fill .single a.sessions, .single,
        .fill .single a.opened, .fill .single a.replies, .fill .single a.requests,
        .fill .single a.data⟩,
      ⟨.single, .single, .single, .single, .single, .single, .single, .single, .single⟩)

end Interface

end ShellInterface.Tcp
