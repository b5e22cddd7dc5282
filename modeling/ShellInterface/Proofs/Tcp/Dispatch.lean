import ShellInterface.Proofs.Tcp.Forwarding

namespace ShellInterface.Tcp

open Tcp.Frame (Turn)

-- What goes out for a stream, or for several of them one after the other: the headers and the
-- chunks for the application, the records for the connector, the faults, and a signal for each
-- chunk that left the buffer.
@[ext]
structure Effect where
  sessions : List SessionId
  lengths : List UInt16
  data : List Chunk
  records : List ControlRecord
  faults : List Fault
  signals : List Unit
deriving DecidableEq

def Effect.join (es : List Effect) : Effect where
  sessions := es.flatMap sessions
  lengths  := es.flatMap lengths
  data     := es.flatMap data
  records  := es.flatMap records
  faults   := es.flatMap faults
  signals  := es.flatMap signals

namespace Receipt

def isKept (r : Receipt) : Bool :=
  r.enabled ∧ r.command.route.action = .keep ∧ r.session = some r.command.session

def isAsked (r : Receipt) : Bool :=
  r.enabled ∧ r.command.route = .generate ∧ r.session = some r.command.session

def misled (r : Receipt) : List Fault :=
  match r.session with
  | none         => []
  | some session =>
    if session = r.command.session then [] else [.sessionMismatch r.command.session session]

def uneven (r : Receipt) : List Fault :=
  let bytes := (r.received.map Chunk.length).sum
  if r.received.any Chunk.last ∧ bytes ≠ r.command.length.toNat then
    [.streamLengthMismatch r.command.session r.command.length bytes]
  else
    []

def effect (r : Receipt) : Effect where
  sessions := if r.isKept then [r.command.session] else []
  lengths  := if r.isKept then [r.command.length] else []
  data     := if r.isKept then r.received else []
  records  := if r.isAsked then r.received.head?.toList.filterMap ControlRecord.ofChunk? else []
  faults   :=
    r.misled ++
    (if r.isAsked then (r.received.head?.toList.filterMap recordless?).map .malformedRecord else [])
    ++ r.uneven
  signals  := r.received.map fun _ => ()

variable {r : Receipt} {enable : Bool} {chunk : Chunk}

theorem isKept_eq (r : Receipt) : r.isKept = r.isForwarded := by
  unfold isKept isForwarded gated
  cases r.enabled <;> simp [Route.dump]

theorem isAsked_iff : r.isAsked = true ↔
    r.gated.route = .generate ∧ r.session = some r.command.session := by
  unfold isAsked gated
  cases r.enabled <;> simp [Route.dump, Route.generate]

theorem looked?_eq (r : Receipt) :
    r.looked?.toList.map Prod.snd = if r.isAsked then r.received.head?.toList else [] := by
  by_cases h : r.isAsked
  case pos =>
    rw [looked?, if_pos (isAsked_iff.mp h), if_pos h, received]
    cases r.chunks <;> rfl
  case neg =>
    rw [looked?, if_neg (fun hg => h (isAsked_iff.mpr hg)), if_neg h]
    rfl

theorem effect_records (r : Receipt) : r.effect.records = r.record?.toList.map Prod.snd := by
  have hr : r.record?.toList.map Prod.snd =
      (r.looked?.toList.map Prod.snd).filterMap ControlRecord.ofChunk? := by
    unfold record?
    rcases r.looked? with _ | ⟨enable, chunk⟩
    case none => rfl
    case some => cases h : ControlRecord.ofChunk? chunk <;> simp [h]
  rw [hr, looked?_eq, effect]
  cases r.isAsked <;> rfl

theorem effect_faults (r : Receipt) : r.effect.faults =
    r.misled ++ ((r.looked?.toList.map Prod.snd).filterMap recordless?).map .malformedRecord ++
      r.uneven := by
  rw [looked?_eq, effect]
  cases r.isAsked <;> rfl

theorem Unfinished.uneven_eq (h : r.Unfinished) : r.uneven = [] := by
  have marked : ¬ r.received.any Chunk.last = true := by
    simpa [received] using h.unmarked
  rw [uneven, if_neg fun hm => marked hm.left]

theorem Unfinished.uneven_add (h : r.Unfinished) (enable : Bool) (chunk : Chunk) :
    (r.add enable [] [chunk]).uneven =
      if chunk.last ∧ r.tally + chunk.length ≠ r.command.length.toNat then
        [.streamLengthMismatch r.command.session r.command.length (r.tally + chunk.length)]
      else
        [] := by
  have marked : r.received.any Chunk.last = false := by
    simpa [received] using h.unmarked
  simp [uneven, marked, tally_eq]

@[simp]
theorem faults_start (enable : Bool) (cmd : ForwardCommand) :
    (start enable cmd).effect.faults = [] := by
  simp [effect, misled, uneven, start, received]

@[simp]
theorem faults_header (e : Bool) (cmd : ForwardCommand) (session : SessionId) :
    ((start e cmd).add enable [session] []).effect.faults =
      if session = cmd.session then [] else [.sessionMismatch cmd.session session] := by
  by_cases h : session = cmd.session <;> simp [effect, misled, uneven, start, received, h]

theorem Unfinished.faults_add (h : r.Unfinished) (hs : r.session.isSome) :
    (r.add enable [] [chunk]).effect.faults = r.effect.faults ++
      (if r.phase = .extractRecord then (recordless? chunk).toList.map .malformedRecord else []) ++
      (r.add enable [] [chunk]).uneven := by
  have hm : (r.add enable [] [chunk]).misled = r.misled := by
    rw [misled, misled, session_add, List.head?_nil, Option.or_none]
    rfl
  rw [effect_faults, effect_faults, h.uneven_eq, hm, looked?_add_chunk hs]
  by_cases hp : r.phase = .extractRecord
  case pos =>
    have hl := looked?_of_chunks_eq_nil (phase_eq_extractRecord_iff.mp hp).right.right
    cases hc : recordless? chunk <;> simp [hp, hl, hc]
  case neg => simp [hp]

end Receipt

theorem Receipt.map_enter {α : Type} {g : Receipt → α} {enable : Bool} (rs : List Receipt)
    (commands : List ForwardCommand) (sessions : List SessionId) (chunks : List Chunk)
    (hg : ∀ r, g (r.add enable sessions chunks) = g r) :
    (enter rs enable commands sessions chunks).map g =
      rs.map g ++ commands.map fun cmd => g (.start enable cmd) := by
  have h := Books.map_filter_enter (p := fun _ => true) rs (commands.map (start enable))
    (fun _ => rfl) hg
  simpa [Books.enter, enter, Function.comp_def] using h

namespace Receiver

variable {v v' : Receiver} {l l' : Links} {enable : Bool} {ns : List Note} {rs : List Receipt}
  {r : Receipt} {chunk : Chunk}

theorem faults_of_gate {cmd gated : ForwardCommand} (h : gate cmd enable = ⟨ns, .ok gated⟩) :
    Reporter.receiver.faults ns = [] := by
  unfold gate at h
  split at h <;> cases h <;> rfl

theorem Advance.faults_eq {next : Phase} (h : Advance v chunk next ns v')
    (unfinished : r.Unfinished)
    (state : v = ⟨r.phase, some r.gated, r.tally⟩) :
    Reporter.receiver.faults ns = (r.add enable [] [chunk]).uneven := by
  subst state
  rw [unfinished.uneven_add]
  cases h
  case more last                => simp [last]
  case finish last hand exact   =>
    cases hand
    simpa [last] using exact
  case mismatch last hand inexact =>
    cases hand
    simp_all [Reporter.reports, Fault.reporter]

theorem Booked.reported_chunk (h : Booked v rs) (enable : Bool)
    (hp : v.phase = .forwardData ∨ v.phase = .sinkData ∨ v.phase = .extractRecord) {next : Phase}
    (advance : Advance v chunk next ns v') :
    (enter rs enable [] [] [chunk]).flatMap (·.effect.faults) =
      rs.flatMap (·.effect.faults) ++
        (if v.phase = .extractRecord then
          (recordless? chunk).toList.map .malformedRecord
        else
          []) ++ Reporter.receiver.faults ns := by
  obtain ⟨done, r, rfl, _, unfinished, state⟩ :=
    h.exists_hand (by obtain hp | hp | hp := hp <;> simp [hp])
  have hs := Receipt.session_isSome (r := r) (by simpa [state] using hp)
  have hphase : v.phase = r.phase := by rw [state]
  rw [enter_concat, List.flatMap_append, List.flatMap_append, List.flatMap_singleton,
    List.flatMap_singleton, unfinished.faults_add hs, ← advance.faults_eq unfinished state, hphase]
  simp only [List.append_assoc]

theorem Booked.reported (h : Booked v rs) (step : Step enable v l ns v' l') :
    (enter rs enable (l.commands.taken l'.commands) (l.sessions.taken l'.sessions)
      (l.data.taken l'.data)).flatMap (·.effect.faults) =
        rs.flatMap (·.effect.faults) ++ Reporter.receiver.faults ns := by
  cases step
  case stall => simp [enter_nothing]
  case start cmd _ _ _ read gate => simp [Fifo.taken_tail read, faults_of_gate gate]
  case forwardHeader hp hc read _ _ =>
    obtain ⟨done, e, cmd, rfl, _, rfl⟩ := h.exists_headless (.inl hp)
    cases hc
    simp [Fifo.taken_tail read]
  case sinkHeader hp hc read =>
    obtain ⟨done, e, cmd, rfl, _, rfl⟩ := h.exists_headless (.inr hp)
    cases hc
    simp [Fifo.taken_tail read]
  case mismatch session _ hp hc read hne =>
    obtain ⟨done, e, cmd, rfl, _, rfl⟩ := h.exists_headless hp
    cases hc
    have hne : session ≠ cmd.session := by simpa [Receipt.start] using hne
    simp [Fifo.taken_tail read, hne, Reporter.reports, Fault.reporter]
  case forwardData chunk _ _ _ _ hp read _ _ advance =>
    have := h.reported_chunk enable (.inl hp) advance
    cases hl : chunk.last <;> simpa [Fifo.taken_tail read, hp, hl] using this
  case sinkData hp read _ advance =>
    simpa [Fifo.taken_tail read, hp] using h.reported_chunk enable (.inr (.inl hp)) advance
  case extractRecord hp read _ wellFormed _ advance =>
    have := h.reported_chunk enable (.inr (.inr hp)) advance
    simpa [Fifo.taken_tail read, hp, recordless?, wellFormed] using this
  case malformedRecord hp read _ malformed advance =>
    have := h.reported_chunk enable (.inr (.inr hp)) advance
    simpa [Fifo.taken_tail read, hp, recordless?, malformed, Reporter.reports, Fault.reporter]
      using this

theorem Step.signals (h : Step enable v l ns v' l') :
    l.dequeued.added l'.dequeued = (l.data.taken l'.data).map fun _ => () := by
  cases h
  case forwardData read signal _ _       => simp [Fifo.taken_tail read, Fifo.added_of_write signal]
  case sinkData read signal _            => simp [Fifo.taken_tail read, Fifo.added_of_write signal]
  case extractRecord read signal _ _ _   => simp [Fifo.taken_tail read, Fifo.added_of_write signal]
  case malformedRecord read signal _ _   => simp [Fifo.taken_tail read, Fifo.added_of_write signal]
  all_goals simp

end Receiver

structure Intake where
  commands : List (Bool × ForwardCommand)
  sessions : List SessionId
  chunks : List Chunk
deriving DecidableEq

def Intake.of (rs : List Receipt) : Intake where
  commands := rs.map fun r => (r.enabled, r.command)
  sessions := rs.filterMap Receipt.session
  chunks   := rs.flatMap Receipt.received

theorem Receipt.effects_eq {rs qs : List Receipt}
    (commands : rs.map (fun r => (r.enabled, r.command)) = qs.map fun q => (q.enabled, q.command))
    (sessions : rs.map Receipt.session = qs.map Receipt.session)
    (received : rs.map Receipt.received = qs.map Receipt.received) :
    rs.map Receipt.effect = qs.map Receipt.effect := by
  induction rs generalizing qs <;> cases qs
  case nil.nil => rfl
  case cons.cons ih _ _ =>
    simp only [List.map_cons, List.cons.injEq] at commands sessions received ⊢
    refine ⟨?_, ih commands.right sessions.right received.right⟩
    simp_all [effect, isKept, isAsked, misled, uneven]
  all_goals cases commands

-- What was taken for each command is known from what was taken in all, if the receive side is
-- through with all of them but the last one.
theorem Intake.effects_eq {rs qs : List Receipt} (hr : ∀ r ∈ rs.dropLast, r.Finished)
    (hq : ∀ q ∈ qs.dropLast, q.Finished) (h : Intake.of rs = .of qs) :
    rs.map Receipt.effect = qs.map Receipt.effect := by
  simp only [Intake.of, Intake.mk.injEq] at h
  obtain ⟨commands, sessions, chunks⟩ := h
  have length : rs.length = qs.length := by simpa using congrArg List.length commands
  refine Receipt.effects_eq commands ?sessions ?received
  case sessions =>
    exact eq_of_filterMap_eq (forall_dropLast_map fun r hm => (hr r hm).session)
      (forall_dropLast_map fun q hm => (hq q hm).session) (by simpa using length)
      (by simpa [List.filterMap_map] using sessions)
  case received =>
    exact Ended.eq_of_flatten_eq (forall_dropLast_map fun r hm => (hr r hm).ended)
      (forall_dropLast_map fun q hm => (hq q hm).ended) (by simpa using length)
      (by simpa [List.flatMap_def] using chunks)

namespace Frame

def intake (ts : List (Bool × Turn)) : Intake where
  commands := ts.flatMap fun (enable, t) =>
    (t.before.net.inner.commands.taken t.after.net.inner.commands).map (enable, ·)
  sessions := consumed (·.before.net.inner.sessions) (·.after.net.inner.sessions) (ts.map Prod.snd)
  chunks   := received (ts.map Prod.snd)

def effect (ts : List Turn) : Effect where
  sessions := appSessions ts
  lengths  := appLengths ts
  data     := appData ts
  records  := written (·.before.net.inner.records) (·.after.net.inner.records) ts
  faults   := Reporter.receiver.faults (ts.flatMap Turn.notes)
  signals  := written (·.before.net.inner.dequeued) (·.after.net.inner.dequeued) ts

theorem flatMap_forwarded {β : Type} {g e : Receipt → List β} (rs : List Receipt)
    (hg : ∀ r : Receipt, e r = if r.isKept then g r else []) :
    (Receipt.forwarded rs).flatMap g = rs.flatMap e := by
  induction rs
  case nil => rfl
  case cons r rs ih =>
    rw [Receipt.forwarded] at ih ⊢
    rw [List.flatMap_cons, hg, Receipt.isKept_eq, List.filter_cons, ← ih]
    split <;> simp

structure Dispatched (ts : List (Bool × Turn)) : Prop where
  commands : (intake ts).commands = (receipts ts).map fun r => (r.enabled, r.command)
  sessions : (intake ts).sessions = (receipts ts).filterMap Receipt.session
  faults   : (effect (ts.map Prod.snd)).faults = (receipts ts).flatMap (·.effect.faults)
  signals  : (effect (ts.map Prod.snd)).signals = (intake ts).chunks.map fun _ => ()

variable {enable : Bool} {ts : List (Bool × Turn)} {f f' : Frame} {ns : List Note} {n : Network}
  {t : Turn}

theorem Step.silent_or_receive (step : Step enable f ns f') :
    Aside f ns f' ∧ f.net.inner.dequeued.added f'.net.inner.dequeued = [] ∧
      Reporter.receiver.faults ns = [] ∨
    Receiver.Step enable f.net.receiver f.receiverLinks ns f'.net.receiver f'.receiverLinks := by
  obtain aside | step := step.aside_or_receive
  case inr => exact .inr step
  case inl =>
    cases step
    case listen ticked    =>
      have only := (Listener.only_tick _ _ _).of_eq ticked
      exact .inl ⟨aside, Fifo.added_self _, only.faults_of_ne nofun⟩
    case connect ticked   =>
      have only := (Connector.only_tick _ _ _).of_eq ticked
      exact .inl ⟨aside, Fifo.added_self _, only.faults_of_ne nofun⟩
    case interrupt ticked =>
      have only := (Interrupts.only_tick _ _).of_eq ticked
      exact .inl ⟨aside, Fifo.added_self _, only.faults_of_ne nofun⟩
    case buffer           => exact .inl ⟨aside, Fifo.added_self _, rfl⟩
    case track error _ _ ticked =>
      have ⟨_, hlength⟩ := Occupancy.tick_signals ticked
      exact .inl ⟨aside, List.drop_eq_nil_of_le hlength, by cases error <;> rfl⟩
    case receive ticked   => exact .inr (Receiver.step_of_tick ticked)
    case transmit ticked  =>
      have only := (Transmitter.only_tick _ _ _).of_eq ticked
      exact .inl ⟨aside, Fifo.added_self _, only.faults_of_ne nofun⟩

theorem Dispatched.next (h : Dispatched ts)
    (gained : Gained (receipts ts) (receipts (ts ++ [(enable, t)]))
      (t.before.net.inner.commands.taken t.after.net.inner.commands)
      (t.before.net.inner.sessions.taken t.after.net.inner.sessions)
      (t.before.net.inner.buffer.taken t.after.net.inner.buffer))
    (reported : (receipts (ts ++ [(enable, t)])).flatMap (·.effect.faults) =
      (receipts ts).flatMap (·.effect.faults) ++ Reporter.receiver.faults t.notes)
    (signals : t.before.net.inner.dequeued.added t.after.net.inner.dequeued =
      (t.before.net.inner.buffer.taken t.after.net.inner.buffer).map fun _ => ()) :
    Dispatched (ts ++ [(enable, t)]) where
  commands := by
    have := h.commands
    rw [receipts_concat, Receipt.map_enter _ _ _ _ fun _ => rfl]
    simp [intake, ← this, Receipt.start]
  sessions := by
    have := h.sessions
    rw [gained.sessions, ← h.sessions]
    simp [intake]
  faults := by
    rw [reported, ← h.faults]
    simp [effect]
  signals := by
    have := h.signals
    simp_all [intake, effect, received]

theorem Dispatched.turn (h : Dispatched ts) (booked : f.net.receiver.Booked (receipts ts))
    (step : Step enable f ns f') : Dispatched (ts ++ [(enable, ⟨f, ns, f'⟩)]) := by
  obtain ⟨aside, signals, faults⟩ | step := step.silent_or_receive
  case inl =>
    have entered : receipts (ts ++ [(enable, ⟨f, ns, f'⟩)]) = receipts ts := by
      rw [receipts_concat, aside.commands, aside.sessions, aside.chunks, enter_nothing]
    refine h.next ?_ ?_ ?_
    case refine_1 =>
      rw [entered, aside.commands, aside.sessions, aside.chunks]
      constructor <;> simp
    case refine_2 => rw [entered, faults, List.append_nil]
    case refine_3 => rw [signals, aside.chunks, List.map_nil]
  case inr =>
    refine h.next ?_ ?_ step.signals <;> rw [receipts_concat]
    case refine_1 => exact booked.gained step
    case refine_2 => exact booked.reported step

theorem Dispatched.start : Dispatched [] :=
  ⟨rfl, rfl, rfl, rfl⟩

theorem Dispatched.intake_eq (h : Dispatched ts) (forwarded : Forwarded ts) :
    intake ts = .of (receipts ts) := by
  have := h.commands
  have := h.sessions
  have := forwarded.received
  simp_all [intake, Intake.of]

theorem Dispatched.effect_eq (h : Dispatched ts) (accounted : Accounted ts n)
    (forwarded : Forwarded ts) :
    effect (ts.map Prod.snd) = .join ((receipts ts).map Receipt.effect) := by
  have ⟨sessions, lengths, data⟩ := forwarded.passed
  apply Effect.ext <;> simp only [Effect.join, List.flatMap_map]
  case sessions =>
    rw [List.map_eq_flatMap, flatMap_forwarded (e := (·.effect.sessions)) _ fun _ => rfl]
      at sessions
    exact sessions.symm
  case lengths =>
    rw [List.map_eq_flatMap, flatMap_forwarded (e := (·.effect.lengths)) _ fun _ => rfl]
      at lengths
    exact lengths.symm
  case data =>
    rw [flatMap_forwarded (e := (·.effect.data)) _ fun _ => rfl] at data
    exact data.symm
  case records =>
    have hr : (effect (ts.map Prod.snd)).records = (handed ts).map Prod.snd := by
      simp [effect, handed, written, List.flatMap_map, List.map_flatMap, Function.comp_def]
    rw [hr, accounted.handed, List.filterMap_eq_flatMap_toList, List.map_flatMap]
    simp only [Receipt.effect_records]
  case faults => exact h.faults
  case signals =>
    have received := forwarded.received
    rw [h.signals, intake, received, List.map_flatMap]
    rfl

end Frame

namespace Receiver

variable {v : Receiver} {rs : List Receipt}

theorem Booked.dropLast (h : Booked v rs) : ∀ r ∈ rs.dropLast, r.Finished := by
  cases h
  case idle finished => exact fun r hr => finished r (List.mem_of_mem_dropLast hr)
  case hand finished _ _ => rwa [List.dropLast_concat]

theorem Booked.getLast (h : Booked v rs) (hp : v.phase ≠ .idle) :
    ∀ r ∈ rs.getLast?, r.Unfinished := by
  obtain ⟨done, r, rfl, _, unfinished, _⟩ := h.exists_hand hp
  simpa using unfinished

end Receiver

namespace Interface

variable {c : Config} {x x₀ : Interface} {cs : History}

theorem effect_of_run (hc : create c = .ok x₀) (run : Run tick .any x₀ cs x) :
    x.net.receiver.Booked (Frame.receipts (marked cs)) ∧
    Frame.intake (marked cs) = .of (Frame.receipts (marked cs)) ∧
    Frame.effect (turns cs) = .join ((Frame.receipts (marked cs)).map Receipt.effect) := by
  have ⟨_, _, _, hr, _⟩ := Network.create_ok (network_of_create hc)
  have ⟨accounted, dispatched⟩ := marked_invariant_of_run
    (P := fun ts n => Frame.Accounted ts n ∧ Frame.Dispatched ts) run ⟨.start hr, .start⟩
    fun step ⟨accounted, dispatched⟩ =>
      ⟨accounted.turn step, dispatched.turn accounted.booked step⟩
  have forwarded := forwarding_of_run hc run
  refine ⟨accounted.booked, dispatched.intake_eq forwarded, ?_⟩
  rw [← marked_map_snd]
  exact dispatched.effect_eq accounted forwarded

-- What the receive side does with each of its commands is settled by what it took for it, for the
-- last one as far as that has come. So it does the same in any two runs in which it takes the same.
theorem dispatched_of_run (hc : create c = .ok x₀) (run : Run tick .any x₀ cs x) :
    let rs := Frame.receipts (marked cs)
    Frame.intake (marked cs) = .of rs ∧
    (∀ r ∈ rs.dropLast, r.Finished) ∧
    (x.net.receiver.phase = .idle → ∀ r ∈ rs, r.Finished) ∧
    (x.net.receiver.phase ≠ .idle → ∀ r ∈ rs.getLast?, r.Unfinished) ∧
    Frame.effect (turns cs) = .join (rs.map Receipt.effect) ∧
    ∀ (c' : Config) (x₀' x' : Interface) (cs' : History), create c' = .ok x₀' →
      Run tick .any x₀' cs' x' → Frame.intake (marked cs') = Frame.intake (marked cs) →
      Frame.effect (turns cs') = Frame.effect (turns cs) := by
  intro rs
  obtain ⟨booked, intake, effect⟩ := effect_of_run hc run
  refine ⟨intake, booked.dropLast, booked.finished, booked.getLast, effect,
    fun c' x₀' x' cs' hc' run' same => ?_⟩
  obtain ⟨booked', intake', effect'⟩ := effect_of_run hc' run'
  rw [effect, effect', Intake.effects_eq booked'.dropLast booked.dropLast
    (intake' ▸ intake ▸ same)]

-- A stream of eleven bytes is handed on although twelve were announced, and then a record is handed
-- over. In the second run there is less room in the buffer, and the chunks arrive later, when the
-- interface is disabled already.
theorem dispatched_of_late_chunks :
    ∃ x₀ x₀' cs cs' x x', create { small with inputBufferChunks := 4 } = .ok x₀ ∧
      create { small with inputBufferChunks := 3 } = .ok x₀' ∧
      Run tick .any x₀ cs x ∧ Run tick .any x₀' cs' x' ∧ cs.length = 17 ∧ cs'.length = 20 ∧
      Frame.effect (turns cs') = Frame.effect (turns cs) ∧
      (Frame.effect (turns cs')).lengths = [12] ∧
      (Frame.effect (turns cs')).records = [⟨⟨0x0a0cc899, 80⟩, 0⟩] ∧
      (Frame.effect (turns cs')).faults = [.streamLengthMismatch 0 12 11] := by
  let nothing : List Notification × List Chunk × List SessionId := ([], [], [])
  let record : ControlRecord := ⟨⟨0x0a0cc899, 80⟩, 0⟩
  let command := [([⟨0, 12, 0, 0, 80⟩], [], []), nothing, nothing, nothing, nothing]
  let stream := [([], [], [0]), ([], [Chunk.ofBytes (.replicate 8 1) false], []),
    ([], [.ofBytes (.replicate 3 2) true], []), nothing]
  let control := [([⟨0, 8, 0, 0, ListenPort.transmitTest⟩], [], []), nothing, nothing, nothing,
    nothing]
  let recorded := [([], [record.toChunk true], [0]), nothing, nothing]
  let disabled (arrived) := (arrivals arrived).map fun (_, l) => (false, l)
  let intake : Intake := ⟨[(true, ⟨0, 12, .forward⟩), (true, ⟨0, 8, .generate⟩)], [0, 0],
    [.ofBytes (.replicate 8 1) false, .ofBytes (.replicate 3 2) true, record.toChunk true]⟩
  have ⟨x₀, cs, x, hc, run, length, same, faults, lengths, records⟩ : ∃ x₀ cs x,
      create { small with inputBufferChunks := 4 } = .ok x₀ ∧ Run tick .any x₀ cs x ∧
      cs.length = 17 ∧ Frame.intake (marked cs) = intake ∧
      (Frame.effect (turns cs)).faults = [.streamLengthMismatch 0 12 11] ∧
      (Frame.effect (turns cs)).lengths = [12] ∧
      (Frame.effect (turns cs)).records = [record] :=
    Run.exists_of_create (arrivals (command ++ stream ++ control ++ recorded)) (by decide +kernel)
  have ⟨x₀', cs', x', hc', run', length', same'⟩ : ∃ x₀ cs x,
      create { small with inputBufferChunks := 3 } = .ok x₀ ∧ Run tick .any x₀ cs x ∧
      cs.length = 20 ∧ Frame.intake (marked cs) = intake :=
    Run.exists_of_create (arrivals command ++
      disabled ([nothing, nothing] ++ stream ++ [nothing]) ++ arrivals control ++
        disabled recorded) (by decide +kernel)
  have ⟨_, _, _, _, _, alike⟩ := dispatched_of_run hc run
  have effect := alike _ x₀' x' cs' hc' run' (same'.trans same.symm)
  exact ⟨x₀, x₀', cs, cs', x, x', hc, hc', run, run', length, length', effect, effect ▸ lengths,
    effect ▸ records, effect ▸ faults⟩

end Interface

end ShellInterface.Tcp
