import ShellInterface.Proofs.Tcp.Credit
import ShellInterface.Proofs.Tcp.Receipts
import ShellInterface.Proofs.Tcp.Transmitter

namespace ShellInterface.Tcp

open Tcp.Frame (Turn)

inductive Order
  | connect (sock : Socket)
  | transmit (request : SendRequest)
deriving DecidableEq, Repr

def Asks (r : ControlRecord) : Order → Prop
  | .connect sock     => r.length = 0 ∧ sock = r.sock
  | .transmit request => r.length ≠ 0 ∧ request.length = r.length

instance (r : ControlRecord) (o : Order) : Decidable (Asks r o) := by
  cases o <;> exact instDecidableAnd

structure Service where
  enabled : Bool
  record : ControlRecord
  orders : List Order
deriving DecidableEq, Repr

namespace Service

def start (enable : Bool) (record : ControlRecord) : Service :=
  ⟨enable, record, []⟩

def add (s : Service) (orders : List Order) : Service :=
  { s with orders := s.orders ++ orders }

-- The connector is through with the record: it was served as it asked, or it was dropped or
-- refused. Only a record that asks for bytes is refused.
inductive Settled (s : Service) : Prop
  | served {o} (orders : s.orders = [o]) (enabled : s.enabled = true) (asks : Asks s.record o)
  | unserved (orders : s.orders = []) (refused : s.enabled = true → s.record.length ≠ 0)

def enter (ss : List Service) (enable : Bool) (records : List ControlRecord)
    (orders : List Order) : List Service :=
  (ss ++ records.map (start enable)).modifyLast (·.add orders)

theorem enter_nothing (ss : List Service) (enable : Bool) : enter ss enable [] [] = ss := by
  obtain rfl | ⟨ss, s, rfl⟩ := ss.eq_nil_or_concat
  case inl => rfl
  case inr => simp [enter, List.modifyLast_concat, add]

@[simp]
theorem enter_record (ss : List Service) (enable : Bool) (r : ControlRecord) :
    enter ss enable [r] [] = ss ++ [.start enable r] := by
  simp [enter, List.modifyLast_concat, add]

@[simp]
theorem enter_concat (ss : List Service) (s : Service) (enable : Bool) (orders : List Order) :
    enter (ss ++ [s]) enable [] orders = ss ++ [s.add orders] := by
  simp [enter, List.modifyLast_concat]

theorem enter_map_record (ss : List Service) (enable : Bool) (records : List ControlRecord)
    (orders : List Order) :
    (enter ss enable records orders).map record = ss.map record ++ records := by
  obtain he | ⟨ts, t, he⟩ := (ss ++ records.map (start enable)).eq_nil_or_concat
  case inl =>
    obtain ⟨rfl, rfl⟩ : ss = [] ∧ records = [] := by simpa using he
    rfl
  case inr =>
    have := congrArg (List.map record) he
    simp [Function.comp_def, start] at this
    simp [enter, he, List.modifyLast_concat, add, this]

end Service

namespace Connector

def pending? (c : Connector) : Option Order :=
  match c.phase with
  | .openRequest sock => some (.connect sock)
  | .trigger request  => some (.transmit request)
  | _                 => none

def orders (l l' : Links) : List Order :=
  (l.openRequests.added l'.openRequests).map .connect ++
    (l.testRequests.added l'.testRequests).map .transmit

inductive Booked (c : Connector) : List Service → Prop
  | rest {ss} (idle : c.pending? = none) (settled : ∀ s ∈ ss, s.Settled) : Booked c ss
  | hand {ss s o} (settled : ∀ s ∈ ss, s.Settled) (pending : c.pending? = some o)
      (orders : s.orders = []) (enabled : s.enabled = true) (asks : Asks s.record o) :
      Booked c (ss ++ [s])

variable {c c' : Connector} {l l' : Links} {enable : Bool} {ns : List Note} {ss : List Service}

theorem Booked.settled (h : Booked c ss) (idle : c.pending? = none) : ∀ s ∈ ss, s.Settled := by
  cases h
  case rest settled   => exact settled
  case hand hp _ _ _  => exact absurd hp (by simp [idle])

theorem Booked.drop (h : Booked c ss) (idle : c.pending? = none) (enable : Bool)
    (r : ControlRecord) (refused : enable = true → r.length ≠ 0) :
    Booked c (ss ++ [.start enable r]) := by
  refine .rest idle (List.forall_mem_append.mpr ⟨h.settled idle, ?_⟩)
  simpa using .unserved rfl refused

theorem Booked.order {o : Order} (h : Booked c ss) (pending : c.pending? = some o)
    (idle : c'.pending? = none) (enable : Bool) :
    Booked c' (Service.enter ss enable [] [o]) ∧
      (Service.enter ss enable [] [o]).flatMap Service.orders =
        ss.flatMap Service.orders ++ [o] := by
  cases h
  case rest hn _ => exact absurd hn (by simp [pending])
  case hand settled hp orders enabled asks =>
    obtain rfl : _ = o := Option.some.inj (hp.symm.trans pending)
    rw [Service.enter_concat]
    refine ⟨.rest idle (List.forall_mem_append.mpr ⟨settled, ?_⟩), ?_⟩
    · simpa using .served (by simp [Service.add, orders]) enabled asks
    · simp [Service.add]

theorem phase_of_pending {sock : Socket} (h : c.pending? = some (.connect sock)) :
    c.phase = .openRequest sock := by
  unfold pending? at h
  split at h <;> cases h
  assumption

-- What is ordered for a record, and that a record which asks for a connection is not forgotten.
theorem Booked.served {s : Service} (h : Booked c ss) (hs : s ∈ ss) :
    (∀ o ∈ s.orders, s.enabled = true ∧ Asks s.record o) ∧ s.orders.length ≤ 1 ∧
      (s.enabled = true → s.record.length = 0 →
        s.orders = [.connect s.record.sock] ∨ c.phase = .openRequest s.record.sock) := by
  have settled (h : s.Settled) : (∀ o ∈ s.orders, s.enabled = true ∧ Asks s.record o) ∧
      s.orders.length ≤ 1 ∧ (s.enabled = true → s.record.length = 0 →
        s.orders = [.connect s.record.sock]) := by
    cases h
    case unserved orders refused =>
      exact ⟨by simp [orders], by simp [orders], fun he hz => absurd hz (refused he)⟩
    case served o orders enabled asks =>
      refine ⟨by simp [orders, enabled, asks], by simp [orders], fun _ hz => ?_⟩
      cases o
      case connect  => rw [orders, asks.right]
      case transmit => exact absurd hz asks.left
  cases h
  case rest all =>
    have ⟨ho, hl, hc⟩ := settled (all s hs)
    exact ⟨ho, hl, fun he hz => .inl (hc he hz)⟩
  case hand ss t o all pending orders enabled asks =>
    obtain hs | rfl := List.mem_append.mp hs |>.imp_right List.mem_singleton.mp
    case inl =>
      have ⟨ho, hl, hc⟩ := settled (all s hs)
      exact ⟨ho, hl, fun he hz => .inl (hc he hz)⟩
    case inr =>
      refine ⟨by simp [orders], by simp [orders], fun _ hz => .inr ?_⟩
      cases o
      case connect  => exact asks.right ▸ phase_of_pending pending
      case transmit => exact absurd hz asks.left

theorem Booked.pass (h : Booked c ss) (hp : c'.pending? = c.pending?) : Booked c' ss := by
  cases h
  case rest idle settled                     => exact .rest (hp.trans idle) settled
  case hand settled pending orders enabled asks =>
    exact .hand settled (hp.trans pending) orders enabled asks

theorem Booked.next (h : Booked c ss) (step : Step enable c l ns c' l') :
    Booked c' (Service.enter ss enable (l.records.taken l'.records) (orders l l')) ∧
      (Service.enter ss enable (l.records.taken l'.records) (orders l l')).flatMap Service.orders =
        ss.flatMap Service.orders ++ orders l l' := by
  cases step
  case clear hp disabled stray forgotten =>
    have idle : c.pending? = none := by simp [pending?, hp]
    cases stray <;> cases forgotten
    case keep.none           => simpa [orders, Service.enter_nothing] using h
    case close.none          => simpa [orders, Service.enter_nothing] using h
    case keep.drop r _ read  =>
      have hr : l.records.taken l.records.tail = [r] := Fifo.taken_tail read
      simpa [orders, hr, Service.start] using h.drop idle enable r (by simp [disabled])
    case close.drop r _ read =>
      have hr : l.records.taken l.records.tail = [r] := Fifo.taken_tail read
      simpa [orders, hr, Service.start] using h.drop idle enable r (by simp [disabled])
  case connect r _ hp enabled read zero =>
    have booked : Booked { c with phase := .openRequest r.sock } (ss ++ [.start enable r]) :=
      .hand (h.settled (by simp [pending?, hp])) rfl rfl enabled ⟨zero, rfl⟩
    simpa [orders, Fifo.taken_tail read, Service.start] using booked
  case transmit r _ session hp enabled read nonzero _ =>
    have booked : Booked { c with phase := .trigger ⟨session, r.length⟩ }
        (ss ++ [.start enable r]) :=
      .hand (h.settled (by simp [pending?, hp])) rfl rfl enabled ⟨nonzero, rfl⟩
    simpa [orders, Fifo.taken_tail read, Service.start] using booked
  case refuse r _ hp _ read nonzero _ =>
    have booked := h.drop (by simp [pending?, hp]) enable r fun _ => nonzero
    simpa [orders, Fifo.taken_tail read, Service.start] using booked
  case ask sock _ hp write =>
    have booked : Booked ⟨.openReply sock, c.watchdog.arm, c.lastOpened⟩ _ ∧ _ :=
      h.order (o := .connect sock) (by simp [pending?, hp]) rfl enable
    simpa [orders, Fifo.added_of_write write] using booked
  case trigger request _ hp write =>
    have booked : Booked { c with phase := .serve } _ ∧ _ :=
      h.order (o := .transmit request) (by simp [pending?, hp]) rfl enable
    simpa [orders, Fifo.added_of_write write] using booked
  all_goals simpa [orders, Service.enter_nothing] using h.pass (by simp [pending?, *])

theorem Step.records_taken (h : Step enable c l ns c' l') :
    l.records.items = l.records.taken l'.records ++ l'.records.items := by
  cases h
  case clear stray forgotten =>
    cases stray <;> cases forgotten
    case keep.drop read  => simp [read, Fifo.taken_tail read]
    case close.drop read =>
      replace read : l.records.items = _ := read
      simp [read, Fifo.taken_tail read]
    all_goals simp
  case connect read _    => simp [read, Fifo.taken_tail read]
  case transmit read _ _ => simp [read, Fifo.taken_tail read]
  case refuse read _ _   => simp [read, Fifo.taken_tail read]
  all_goals simp

end Connector

theorem Receiver.Step.records_written {enable : Bool} {r r' : Receiver} {l l' : Links}
    {ns : List Note} (h : Step enable r l ns r' l') :
    l'.records.items = l.records.items ++ l.records.added l'.records := by
  cases h
  case extractRecord write _ => simp [Fifo.added_of_write write, (Fifo.write_ok write).left]
  all_goals simp

theorem Transmitter.Step.testRequests_added {enable : Bool} {t t' : Transmitter} {l l' : Links}
    {ns : List Note} (h : Step enable t l ns t' l') :
    l.testRequests.added l'.testRequests = [] := by
  cases h <;> simp

namespace Frame

def services (ts : List (Bool × Turn)) : List Service :=
  ts.foldl (fun ss (enable, t) => Service.enter ss enable
    (t.before.net.inner.records.taken t.after.net.inner.records)
    ((t.before.o.openRequests.added t.after.o.openRequests).map .connect ++
      (t.before.net.inner.testRequests.added t.after.net.inner.testRequests).map .transmit)) []

def orders (ts : List Turn) : List Order :=
  ts.flatMap fun t => (t.before.o.openRequests.added t.after.o.openRequests).map .connect ++
    (t.before.net.inner.testRequests.added t.after.net.inner.testRequests).map .transmit

section Concat

variable (ts : List (Bool × Turn)) (us : List Turn) (enable : Bool) (t : Turn)

@[simp]
theorem services_concat : services (ts ++ [(enable, t)]) = Service.enter (services ts) enable
    (t.before.net.inner.records.taken t.after.net.inner.records)
    ((t.before.o.openRequests.added t.after.o.openRequests).map .connect ++
      (t.before.net.inner.testRequests.added t.after.net.inner.testRequests).map .transmit) := by
  simp [services]

@[simp]
theorem orders_concat : orders (us ++ [t]) = orders us ++
    ((t.before.o.openRequests.added t.after.o.openRequests).map .connect ++
      (t.before.net.inner.testRequests.added t.after.net.inner.testRequests).map .transmit) := by
  simp [orders]

end Concat

structure Executed (ts : List (Bool × Turn)) (n : Network) : Prop where
  booked  : n.connector.Booked (services ts)
  orders  : (services ts).flatMap Service.orders = orders (ts.map Prod.snd)
  records : (handed ts).map Prod.snd =
    (services ts).map Service.record ++ n.inner.records.items

variable {enable : Bool} {ts : List (Bool × Turn)} {f f' : Frame} {ns : List Note}

theorem Executed.pass (h : Executed ts f.net) (hc : f'.net.connector = f.net.connector)
    (hr : f'.net.inner.records = f.net.inner.records) (ho : f'.o.openRequests = f.o.openRequests)
    (ht : f.net.inner.testRequests.added f'.net.inner.testRequests = []) :
    Executed (ts ++ [(enable, ⟨f, ns, f'⟩)]) f'.net where
  booked  := by simpa [hc, hr, ho, ht, Service.enter_nothing] using h.booked
  orders  := by simpa [hr, ho, ht, Service.enter_nothing] using h.orders
  records := by simpa [hr, ho, ht, Service.enter_nothing] using h.records

theorem Executed.turn (h : Executed ts f.net) (step : Step enable f ns f') :
    Executed (ts ++ [(enable, ⟨f, ns, f'⟩)]) f'.net := by
  cases step
  case connect ticked =>
    have step := Connector.step_of_tick ticked
    have ⟨booked, orders⟩ := h.booked.next step
    have hadded : f.net.inner.records.added _ = [] := step.records_added
    have htaken := step.records_taken
    refine ⟨?_, ?_, ?_⟩
    · simpa [Connector.orders] using booked
    · simpa [Connector.orders, h.orders] using orders
    · simpa [hadded, h.records, Service.enter_map_record] using htaken
  case receive ticked =>
    have hwritten : _ = f.net.inner.records.items ++ _ :=
      (Receiver.step_of_tick ticked).records_written
    have htaken : f.net.inner.records.taken _ = [] := Fifo.taken_of_append hwritten
    refine ⟨?_, ?_, ?_⟩
    · simpa [afterReceiver, htaken, Service.enter_nothing] using h.booked
    · simpa [afterReceiver, htaken, Service.enter_nothing] using h.orders
    · simpa [afterReceiver, receiverLinks, htaken, h.records, Service.enter_nothing,
        Function.comp_def] using hwritten.symm
  case transmit ticked =>
    exact h.pass rfl rfl rfl (Transmitter.step_of_tick ticked).testRequests_added
  all_goals exact h.pass rfl rfl rfl (Fifo.added_self _)

theorem Executed.start {c : Config} {n : Network} (h : Network.create c = .ok n) :
    Executed [] n := by
  have ⟨_, _, hi, _, _, hc, _⟩ := Network.create_ok h
  have ⟨_, _, _, _, _, _, hr⟩ := Inner.create_ok hi
  exact ⟨hc ▸ .rest rfl nofun, rfl, hr.symm⟩

end Frame

namespace Interface

variable {c : Config} {x x₀ : Interface} {cs : History}

theorem executed_of_run (hc : create c = .ok x₀) (run : Run tick .any x₀ cs x) :
    Frame.Accounted (marked cs) x.net ∧ Frame.Executed (marked cs) x.net := by
  have hn := network_of_create hc
  have ⟨_, _, _, hr, _⟩ := Network.create_ok hn
  exact marked_invariant_of_run
    (P := fun ts n => Frame.Accounted ts n ∧ Frame.Executed ts n) run
    ⟨.start hr, .start hn⟩ fun step ⟨accounted, executed⟩ =>
      ⟨accounted.turn step, executed.turn step⟩

-- The records that are handed over are those in the first chunks of certain streams, and only of
-- streams whose command was taken while the interface was enabled. They are served in their order.
-- All that is ever ordered is what a record asks for, at most once, and only if the interface is
-- enabled when the connector takes the record. A record that asks for a connection and is taken
-- then gets it.
theorem orders_of_run (hc : create c = .ok x₀) (run : Run tick .any x₀ cs x) :
    Frame.handed (marked cs) = (Frame.receipts (marked cs)).filterMap Receipt.record? ∧
    (∀ r ∈ Frame.receipts (marked cs), r.record?.isSome →
      r.enabled = true ∧ r.command.route = .generate) ∧
    (Frame.handed (marked cs)).map Prod.snd =
      (Frame.services (marked cs)).map Service.record ++ x.net.inner.records.items ∧
    Frame.orders (turns cs) = (Frame.services (marked cs)).flatMap Service.orders ∧
    ∀ s ∈ Frame.services (marked cs),
      (∀ o ∈ s.orders, s.enabled = true ∧ Asks s.record o) ∧ s.orders.length ≤ 1 ∧
      (s.enabled = true → s.record.length = 0 →
        s.orders = [.connect s.record.sock] ∨
          x.net.connector.phase = .openRequest s.record.sock) := by
  have ⟨accounted, executed⟩ := executed_of_run hc run
  refine ⟨accounted.handed, fun r _ => r.generate_of_record, executed.records, ?_, ?_⟩
  · rw [executed.orders, marked_map_snd]
  · exact fun s hs => executed.booked.served hs

-- The interface is disabled in the eighth cycle only. In this cycle the chunk of a stream arrives
-- that was taken up before, with a record that asks for a connection.
theorem exists_run_of_interruption :
    ∃ x₀ cs x, create small = .ok x₀ ∧ Run tick .any x₀ cs x ∧
      Frame.handed (marked cs) = [(false, ⟨⟨0x0a0cc899, 80⟩, 0⟩)] ∧
      Frame.services (marked cs) =
        [⟨true, ⟨⟨0x0a0cc899, 80⟩, 0⟩, [.connect ⟨0x0a0cc899, 80⟩]⟩] :=
  Run.exists_of_create
    ((arrivals [([⟨0, 8, 0, 0, ListenPort.transmitTest⟩], [], []), ([], [], []), ([], [], []),
      ([], [], []), ([], [], []), ([], [], []), ([], [], [0]),
      ([], [ControlRecord.toChunk ⟨⟨0x0a0cc899, 80⟩, 0⟩ true], []), ([], [], []), ([], [], []),
      ([], [], [])]).modify 7 fun (_, l) => (false, l))
    (by decide +kernel)

theorem orders_of_interruption :
    ∃ x₀ cs x, create small = .ok x₀ ∧ Run tick .any x₀ cs x ∧
      (∃ r ∈ Frame.receipts (marked cs), r.enabled = true ∧
        r.record? = some (false, ⟨⟨0x0a0cc899, 80⟩, 0⟩)) ∧
      Frame.orders (turns cs) = [.connect ⟨0x0a0cc899, 80⟩] := by
  have ⟨x₀, cs, x, hc, run, handed, services⟩ := exists_run_of_interruption
  have ⟨hrecords, hgenerate, _, horders, _⟩ := orders_of_run hc run
  have ⟨r, hr, hrecord⟩ : ∃ r ∈ Frame.receipts (marked cs),
      r.record? = some (false, ⟨⟨0x0a0cc899, 80⟩, 0⟩) := by
    rw [handed] at hrecords
    exact List.mem_filterMap.mp (hrecords ▸ List.mem_singleton.mpr rfl)
  have ⟨enabled, _⟩ := hgenerate r hr (by rw [hrecord]; rfl)
  exact ⟨x₀, cs, x, hc, run, ⟨r, hr, enabled, hrecord⟩, by rw [horders, services]; rfl⟩

-- So a record may lead to a request although its chunk was taken while the interface was disabled.
theorem disabled_record_executed :
    ¬ ∀ (c : Config) x₀ cs x, create c = .ok x₀ → Run tick .any x₀ cs x →
      ∀ (k : Nat) (r : ControlRecord) (s : Service),
        (Frame.handed (marked cs))[k]? = some (false, r) →
        (Frame.services (marked cs))[k]? = some s → s.orders = [] := by
  intro h
  have ⟨x₀, cs, x, hc, run, handed, services⟩ := exists_run_of_interruption
  have unserved :=
    h small x₀ cs x hc run 0 _ _ (congrArg (·[0]?) handed) (congrArg (·[0]?) services)
  cases unserved

end Interface

end ShellInterface.Tcp
