import ShellInterface.Proofs.Tcp.Connections
import ShellInterface.Proofs.Tcp.Counters
import ShellInterface.Proofs.Tcp.Records

namespace ShellInterface

def Fault.isTimeout : Fault → Bool
  | .openTimeout .. => true
  | _               => false

theorem Fault.reporter_of_isTimeout {f : Fault} (h : f.isTimeout = true) :
    f.reporter = .connector := by
  cases f <;> simp_all [isTimeout, reporter]

namespace Tcp

namespace Connector

def waits (c : Connector) (openReplies : Fifo OpenReply) : Bool :=
  !c.phase.awaited.isEmpty && openReplies.isEmpty

-- The countdown has its length, and while a reply is awaited it runs out when the cycles make up a
-- multiple of that.
structure Countdown (c : Connector) (length waited : Nat) : Prop where
  reload  : c.watchdog.reload = length
  aligned : c.phase.awaited ≠ [] → length ∣ waited + c.watchdog.remaining
  running : c.phase.awaited ≠ [] → 0 < c.watchdog.remaining ∧ c.watchdog.remaining ≤ length

variable {c c' : Connector} {l l' : Links} {enable : Bool} {ns : List Note} {length waited : Nat}
  {sock : Socket}

theorem waits_of_empty (hp : c.phase = .openReply sock) (empty : l.openReplies.items = []) :
    c.waits l.openReplies = true := by
  simp [waits, hp, Phase.awaited, Fifo.isEmpty, empty]

theorem waits_of_unawaited (unawaited : c.phase.awaited = []) :
    c.waits l.openReplies = false := by
  simp [waits, unawaited]

theorem waits_of_items {reply : OpenReply} {rest : List OpenReply}
    (read : l.openReplies.items = reply :: rest) : c.waits l.openReplies = false := by
  simp [waits, Fifo.isEmpty, read]

namespace Countdown

theorem idle (h : c.Countdown length waited) (unawaited : c'.phase.awaited = [])
    (same : c'.watchdog.reload = c.watchdog.reload) {n : Nat} : c'.Countdown length n :=
  ⟨same.trans h.reload, (absurd unawaited ·), (absurd unawaited ·)⟩

theorem arm (reload : c.watchdog.reload = length) (pos : 0 < length) (multiple : length ∣ waited)
    (phase : Phase) : { c with watchdog := c.watchdog.arm, phase }.Countdown length waited where
  reload    := reload
  aligned _ := by simpa [reload] using multiple
  running _ := by simp [reload, pos]

theorem multiple_of_isExpired (h : c.Countdown length waited) (awaited : c.phase.awaited ≠ [])
    (expired : c.watchdog.tick.isExpired = true) : length ∣ waited + 1 := by
  have aligned := h.aligned awaited
  have running := h.running awaited
  have last : c.watchdog.remaining = 1 := by
    simp only [Watchdog.isExpired, Watchdog.tick_remaining, beq_iff_eq] at expired
    omega
  rwa [last] at aligned

theorem tick (h : c.Countdown length waited) (awaited : c.phase.awaited ≠ [])
    (running : c.watchdog.tick.isExpired = false) :
    { c with watchdog := c.watchdog.tick }.Countdown length (waited + 1) ∧
      ¬ length ∣ waited + 1 := by
  have aligned := h.aligned awaited
  have ⟨_, hle⟩ := h.running awaited
  have left : 0 < c.watchdog.remaining - 1 := by
    simp only [Watchdog.isExpired, Watchdog.tick_remaining, beq_eq_false_iff_ne] at running
    omega
  have split : waited + c.watchdog.remaining = waited + 1 + (c.watchdog.remaining - 1) := by omega
  rw [split] at aligned
  refine ⟨⟨h.reload, fun _ => aligned, fun _ => ⟨left, Nat.le_trans (Nat.sub_le _ 1) hle⟩⟩, ?_⟩
  -- Two multiples of the length are not that near to each other.
  intro multiple
  have := Nat.le_of_dvd left ((Nat.dvd_add_right multiple).mp aligned)
  omega

theorem next (h : c.Countdown length waited) (pos : 0 < length) (step : Step enable c l ns c' l') :
    c'.Countdown length (if c.waits l.openReplies then waited + 1 else 0) ∧
    Fault.among Fault.isTimeout ns =
      if c.waits l.openReplies ∧ length ∣ waited + 1 then c.phase.awaited.map .openTimeout
      else [] := by
  cases step
  case clear hp _ stray forgotten =>
    refine ⟨h.idle (by simp [hp, Phase.awaited]) (by rfl), ?_⟩
    rw [waits_of_unawaited (by simp [hp, Phase.awaited])]
    cases stray <;> cases forgotten <;> simp [Fault.isTimeout]
  case ask hp _ =>
    rw [waits_of_unawaited (by simp [hp, Phase.awaited])]
    exact ⟨arm h.reload pos (Nat.dvd_zero length) _, rfl⟩
  case wait hp empty running =>
    have awaited : c.phase.awaited ≠ [] := by simp [hp, Phase.awaited]
    obtain ⟨countdown, unfinished⟩ := h.tick awaited running
    simp only [waits_of_empty hp empty, unfinished]
    exact ⟨countdown, rfl⟩
  case expire hp empty expired =>
    have awaited : c.phase.awaited ≠ [] := by simp [hp, Phase.awaited]
    have multiple := h.multiple_of_isExpired awaited expired
    refine ⟨?_, ?_⟩
    case refine_1 =>
      rw [waits_of_empty hp empty]
      exact arm h.reload pos multiple c.phase
    case refine_2 =>
      simp [waits_of_empty hp empty, multiple, hp, Phase.awaited, Fault.isTimeout]
  case establish hp read _ =>
    rw [waits_of_items read]
    exact ⟨h.idle (by rfl) (by rfl), rfl⟩
  case fail hp read _ =>
    rw [waits_of_items read]
    exact ⟨h.idle (by rfl) (by rfl), rfl⟩
  case refuse hp _ _ _ _ =>
    refine ⟨h.idle (by simp [hp, Phase.awaited]) (by rfl), ?_⟩
    rw [waits_of_unawaited (by simp [hp, Phase.awaited])]
    unfold refusal
    split <;> rfl
  all_goals
    refine ⟨h.idle (by simp [*, Phase.awaited]) (by rfl), ?_⟩
    rw [waits_of_unawaited (by simp [*, Phase.awaited])]
    rfl

end Countdown

end Connector

namespace Frame

-- A turn in which the connector has no part: nothing that it reads is taken, and nothing that it
-- writes is added.
structure Uninvolved (f : Frame) (ns : List Note) (f' : Frame) : Prop where
  connector    : f'.net.connector = f.net.connector
  openReplies  : f'.i.openReplies = f.i.openReplies
  openRequests : f'.o.openRequests = f.o.openRequests
  records      : f.net.inner.records.taken f'.net.inner.records = []
  testRequests : f.net.inner.testRequests.added f'.net.inner.testRequests = []
  faults       : Reporter.connector.faults ns = []
  counters     : ∀ c : Counter, c.keeper = .connector → tally c ns = 0

variable {enable : Bool} {f f' : Frame} {ns : List Note} {act : Frame → Traced Frame}

theorem Uninvolved.of_only {r : Reporter} (hr : r ≠ .connector) (only : r.Only ns)
    (keeps : r.Keeps ns)
    (same : f'.net.connector = f.net.connector ∧ f'.i.openReplies = f.i.openReplies ∧
      f'.o.openRequests = f.o.openRequests)
    (records : f.net.inner.records.taken f'.net.inner.records = [])
    (testRequests : f.net.inner.testRequests.added f'.net.inner.testRequests = []) :
    Uninvolved f ns f' where
  connector    := same.1
  openReplies  := same.2.1
  openRequests := same.2.2
  records      := records
  testRequests := testRequests
  faults       := only.faults_of_ne hr
  counters _ h := keeps.tally_eq_zero fun he => hr (he.symm.trans h)

def others (enable : Bool) : List (Frame → Traced Frame) :=
  [listen enable, interrupt, buffer, track, receive enable, transmit enable]

theorem uninvolved_of_mem_others (hm : act ∈ others enable) (h : act f = ⟨ns, .ok f'⟩) :
    Uninvolved f ns f' := by
  simp only [others, List.mem_cons, List.not_mem_nil, or_false] at hm
  obtain rfl | rfl | rfl | rfl | rfl | rfl := hm
  case inl =>
    obtain ⟨_, _, _, ticked, hk, rfl⟩ := Traced.bind_eq_ok.mp h
    cases hk
    rw [List.append_nil]
    exact .of_only (by decide) ((Listener.only_tick _ _ _).of_eq ticked)
      (Listener.step_of_tick ticked).keeps ⟨rfl, rfl, rfl⟩ (Fifo.taken_self _) (Fifo.added_self _)
  case inr.inl =>
    obtain ⟨_, _, _, ticked, hk, rfl⟩ := Traced.bind_eq_ok.mp h
    cases hk
    obtain ⟨_, _, _, step⟩ := Interrupts.step_of_tick ticked
    rw [List.append_nil]
    exact .of_only (by decide) ((Interrupts.only_tick _ _).of_eq ticked) step.keeps ⟨rfl, rfl, rfl⟩
      (Fifo.taken_self _) (Fifo.added_self _)
  case inr.inr.inl =>
    have ⟨_, _, hk⟩ := Traced.liftM_stream_bind_eq_ok.mp h
    cases hk
    exact ⟨rfl, rfl, rfl, Fifo.taken_self _, Fifo.added_self _, rfl, fun _ _ => rfl⟩
  case inr.inr.inr.inl =>
    rcases ht : f.net.occupancy.tick f.net.inner.enqueued f.net.inner.dequeued with
      ⟨⟨occupancy, _ | e⟩, enqueued, dequeued⟩
    all_goals
      simp only [track, ht] at h
      cases h
      exact ⟨rfl, rfl, rfl, Fifo.taken_self _, Fifo.added_self _, rfl, fun _ _ => rfl⟩
  case inr.inr.inr.inr.inl =>
    obtain ⟨_, _, _, ticked, hk, rfl⟩ := Traced.bind_eq_ok.mp h
    cases hk
    have step := Receiver.step_of_tick ticked
    rw [List.append_nil]
    exact .of_only (by decide) ((Receiver.only_tick _ _ _).of_eq ticked) step.keeps ⟨rfl, rfl, rfl⟩
      (Fifo.taken_of_append step.records_written) (Fifo.added_self _)
  case inr.inr.inr.inr.inr =>
    obtain ⟨_, _, _, ticked, hk, rfl⟩ := Traced.bind_eq_ok.mp h
    cases hk
    have step := Transmitter.step_of_tick ticked
    rw [List.append_nil]
    exact .of_only (by decide) ((Transmitter.only_tick _ _ _).of_eq ticked) step.keeps
      ⟨rfl, rfl, rfl⟩ (Fifo.taken_self _) step.testRequests_added

theorem Step.exists_stage (step : Step enable f ns f') :
    ∃ act ∈ stages enable, act f = ⟨ns, .ok f'⟩ := by
  cases step
  case listen ticked    =>
    exact ⟨Frame.listen enable, by simp [stages],
      Traced.bind_eq_ok.mpr ⟨_, _, _, ticked, rfl, List.append_nil _⟩⟩
  case connect ticked   =>
    exact ⟨Frame.connect enable, by simp [stages],
      Traced.bind_eq_ok.mpr ⟨_, _, _, ticked, rfl, List.append_nil _⟩⟩
  case interrupt ticked =>
    exact ⟨Frame.interrupt, by simp [stages],
      Traced.bind_eq_ok.mpr ⟨_, _, _, ticked, rfl, List.append_nil _⟩⟩
  case buffer ticked    =>
    exact ⟨Frame.buffer, by simp [stages],
      Traced.liftM_stream_bind_eq_ok.mpr ⟨_, ticked, rfl⟩⟩
  case track error _ _ ticked =>
    refine ⟨Frame.track, by simp [stages], ?_⟩
    cases error <;> simp only [Frame.track, ticked] <;> rfl
  case receive ticked   =>
    exact ⟨Frame.receive enable, by simp [stages],
      Traced.bind_eq_ok.mpr ⟨_, _, _, ticked, rfl, List.append_nil _⟩⟩
  case transmit ticked  =>
    exact ⟨Frame.transmit enable, by simp [stages],
      Traced.bind_eq_ok.mpr ⟨_, _, _, ticked, rfl, List.append_nil _⟩⟩

theorem connector_step_of_connect (h : f.connect enable = ⟨ns, .ok f'⟩) :
    Connector.Step enable f.net.connector f.connectorLinks ns f'.net.connector
      f'.connectorLinks := by
  obtain ⟨_, _, _, ticked, hk, rfl⟩ := Traced.bind_eq_ok.mp h
  cases hk
  rw [List.append_nil]
  exact Connector.step_of_tick ticked

theorem Step.uninvolved_or_connect (step : Step enable f ns f') : Uninvolved f ns f' ∨
    Connector.Step enable f.net.connector f.connectorLinks ns f'.net.connector
      f'.connectorLinks := by
  have ⟨act, hm, h⟩ := step.exists_stage
  by_cases hc : act = Frame.connect enable
  case pos =>
    subst hc
    exact .inr (connector_step_of_connect h)
  case neg => exact .inl (uninvolved_of_mem_others (by simpa [stages, others, hc] using hm) h)

theorem uninvolved_of_others {acts : List (Frame → Traced Frame)}
    (hm : ∀ act ∈ acts, act ∈ others enable)
    (h : acts.foldlM (fun f act => act f) f = ⟨ns, .ok f'⟩) :
    f'.net.connector = f.net.connector ∧ Reporter.connector.faults ns = [] := by
  induction acts generalizing f ns
  case nil =>
    cases h
    exact ⟨rfl, rfl⟩
  case cons act acts ih =>
    obtain ⟨_, _, _, ha, hk, rfl⟩ := Traced.bind_eq_ok.mp h
    have ⟨hact, hacts⟩ := List.forall_mem_cons.mp hm
    have first := uninvolved_of_mem_others hact ha
    have ⟨connector, silent⟩ := ih hacts hk
    exact ⟨connector.trans first.connector, by simp [first.faults, silent]⟩

theorem connect_of_cycle (h : f.cycle enable = ⟨ns, .ok f'⟩) : ∃ l ms l',
    Connector.Step enable f.net.connector l ms f'.net.connector l' ∧
    l.openReplies = f.i.openReplies ∧
    Reporter.connector.faults ns = Reporter.connector.faults ms := by
  rw [cycle_eq_foldlM, stages, List.foldlM_cons] at h
  obtain ⟨_, f₁, _, listened, h₁, rfl⟩ := Traced.bind_eq_ok.mp h
  rw [List.foldlM_cons] at h₁
  obtain ⟨ms, f₂, _, connected, h₂, rfl⟩ := Traced.bind_eq_ok.mp h₁
  have first : listen enable ∈ others enable := List.mem_cons_self
  have rest : ∀ act ∈ [interrupt, buffer, track, receive enable, transmit enable],
      act ∈ others enable := fun _ => List.mem_cons_of_mem _
  have before := uninvolved_of_mem_others first listened
  obtain ⟨connector, silent⟩ := uninvolved_of_others rest h₂
  refine ⟨f₁.connectorLinks, ms, f₂.connectorLinks, ?_, before.openReplies,
    by simp [before.faults, silent]⟩
  rw [← before.connector, connector]
  exact connector_step_of_connect connected

end Frame

namespace Interface

def waits (c : Cycle Interface Bool (Ingress × Egress)) : Bool :=
  c.source.net.connector.waits c.before.1.openReplies

-- For how many cycles a reply has been awaited.
def waited (cs : History) : Nat :=
  (cs.reverse.takeWhile waits).length

theorem waited_concat (cs : History) (c : Cycle Interface Bool (Ingress × Egress)) :
    waited (cs ++ [c]) = if waits c then waited cs + 1 else 0 := by
  by_cases h : waits c <;> simp [waited, h]

-- The timeouts that the next cycle reports, which is the last one of those that have been waited.
def timeouts (length : Nat) (cs : History) (c : Cycle Interface Bool (Ingress × Egress)) :
    List Fault :=
  if waits c ∧ length ∣ waited cs + 1 then
    c.source.net.connector.phase.awaited.map .openTimeout
  else
    []

variable {c : Config} {x x₀ : Interface} {cs : History}
  {env : Surroundings Interface Bool (Ingress × Egress)}

theorem countdown_of_run (hc : create c = .ok x₀) (run : Run tick env x₀ cs x) :
    x.net.connector.Countdown (max 1 c.connectWatchdog) (waited cs) ∧
    ∀ ds d rest, cs = ds ++ d :: rest →
      Fault.among Fault.isTimeout d.notes = timeouts (max 1 c.connectWatchdog) ds d := by
  induction run
  case start =>
    have ⟨_, _, _, _, _, hc, _⟩ := Network.create_ok (network_of_create hc)
    rw [hc]
    exact ⟨⟨rfl, nofun, nofun⟩, by simp⟩
  case next ticked ih =>
    have ⟨countdown, reported⟩ := ih
    have ⟨_, _, _, step, replies, faults⟩ := Frame.connect_of_cycle (cycle_of_tick ticked)
    have ⟨countdown, overdue⟩ :=
      countdown.next (Nat.lt_of_lt_of_le Nat.one_pos (Nat.le_max_left _ _)) step
    rw [replies] at countdown overdue
    refine ⟨waited_concat _ _ ▸ countdown, forall_split_concat reported ?_⟩
    rw [← Reporter.filter_faults fun _ => Fault.reporter_of_isTimeout, faults,
      Reporter.filter_faults fun _ => Fault.reporter_of_isTimeout, overdue]
    rfl

end Interface

end Tcp

end ShellInterface
