import ShellInterface.Proofs.Bitmap.Search
import ShellInterface.Proofs.Success
import ShellInterface.Proofs.Tcp.InputBuffer
import ShellInterface.Proofs.Tcp.Interrupts
import ShellInterface.Proofs.Tcp.Receiver
import ShellInterface.Proofs.Tcp.SessionTable
import ShellInterface.Proofs.Tcp.Transmitter
import ShellInterface.Tcp.Connector

namespace ShellInterface.Tcp

namespace Connector

theorem succeeds_dispatch (c : Connector) (r : ControlRecord) : (c.dispatch r).Succeeds := by
  unfold dispatch
  cases c.lastOpened <;> simp

theorem succeeds_tick (c : Connector) (enable : Bool) (l : Links) : (c.tick enable l).Succeeds := by
  cases hp : c.phase <;> simp only [tick, hp]
  case idle        => simp +contextual [idle, closeStray, dropRecord]
  case serve       => simp +contextual [serve, succeeds_dispatch]
  case openRequest => simp +contextual [openRequest]
  case openReply   => simp +contextual [openReply]
  case trigger     => simp +contextual [trigger]

end Connector

namespace Transmitter

structure Budgeted (t : Transmitter) : Prop where
  budget  : 0 < t.budget
  retries : t.phase = .request ∨ t.phase = .await → 0 < t.retries

variable {t t' : Transmitter} {l l' : Links} {enable : Bool} {ns : List Note}

theorem Budgeted.create (budget : Nat) : (create budget).Budgeted :=
  ⟨Nat.le_max_left 1 budget, nofun⟩

theorem transfer_ne (t : Transmitter) : t.transfer ≠ .request ∧ t.transfer ≠ .await := by
  unfold transfer
  split <;> simp

theorem rejected_ne (t : Transmitter) : t.rejected ≠ .request ∧ t.rejected ≠ .await := by
  unfold rejected
  split <;> simp

theorem Budgeted.next (h : t.Budgeted) (step : Step enable t l ns t' l') : t'.Budgeted := by
  have ⟨hb, hr⟩ := h
  cases step
  case acceptApp         => exact ⟨hb, fun _ => hb⟩
  case acceptTest        => exact ⟨hb, fun _ => hb⟩
  case discardApp        => exact ⟨hb, nofun⟩
  case ignoreTest hp _ _ _ => exact ⟨hb, by simp [hp]⟩
  case ask hp _          => exact ⟨hb, fun _ => hr (.inl hp)⟩
  case retry             => exact ⟨hb, fun _ => by dsimp only; omega⟩
  case grant             => exact ⟨hb, by simp [transfer_ne]⟩
  case exhaust           => exact ⟨hb, by simp [rejected_ne]⟩
  case disconnect        => exact ⟨hb, by simp [rejected_ne]⟩
  case misread           => exact ⟨hb, by simp [rejected_ne]⟩
  case sendApp hp _ _    => split <;> exact ⟨hb, by simp [hp]⟩
  case sendTest          => exact ⟨hb, by dsimp only; split <;> simp⟩
  case endTest           => exact ⟨hb, nofun⟩
  case drain hp _        => split <;> exact ⟨hb, by simp [hp]⟩
  all_goals exact h

theorem succeeds_follow {reply : SendReply} (h : 0 < t.retries) : (t.follow reply).Succeeds := by
  unfold follow
  split
  case h_1 => cases t.requester <;> simp
  case h_2 => simp [Size.sub_of_le h, abandon_eq]
  case h_3 => simp [abandon_eq]
  case h_4 => simp [abandon_eq]

theorem succeeds_sendTest (t : Transmitter) (pattern : TestPattern) (l : Links) :
    (t.sendTest pattern l).Succeeds := by
  unfold Transmitter.sendTest
  cases pattern.next? <;> simp +contextual

theorem succeeds_tick (enable : Bool) (l : Links) (h : t.Budgeted) :
    (t.tick enable l).Succeeds := by
  cases hp : t.phase <;> simp only [tick, hp]
  case idle     => simp +contextual [idle, accept]
  case request  => simp +contextual [Transmitter.ask]
  case await    =>
    have hr := h.retries (.inr hp)
    simp +contextual [await, succeeds_follow hr]
  case appData  => simp +contextual [Transmitter.sendApp]
  case testData pattern => exact succeeds_sendTest t pattern l
  case drain    => simp +contextual [Transmitter.drain]

end Transmitter

namespace Interrupts

structure Sound (x : Interrupts) : Prop where
  table  : x.table.Sound
  poster : ∀ n, x.poster = .holding n → n.session.toNat < x.table.size

structure Roomy (o : Occupancy) : Prop where
  free_lt  : o.free < Size.limit
  space_lt : o.available * Chunk.width < Size.limit

variable {x x' : Interrupts} {l l' : Links} {ns : List Note} {t t' : SessionTable}
  {o : Occupancy}

theorem session_lt_of_rejection {sessions : Nat} {n : Notification}
    (h : Poster.rejection sessions n = none) : n.session.toNat < sessions := by
  unfold Poster.rejection at h
  split at h <;> try cases h
  split at h <;> try cases h
  omega

theorem Sound.create {sessions : Nat} {routes : RoutingTable}
    (h : create sessions routes = .ok x) : x.Sound := by
  have ⟨_, ht, h⟩ := exists_of_bind_eq_ok h
  cases h
  exact ⟨.create ht, nofun⟩

theorem sound_of_poster {p p' : Poster} {granted : Bool} {s s' : Fifo Notification}
    (h : Poster.Step granted t s p ns p' t' s') (ht : t.Sound)
    (hp : ∀ n, p = .holding n → n.session.toNat < t.size) :
    t'.Sound ∧ t'.size = t.size ∧ ∀ n, p' = .holding n → n.session.toNat < t.size := by
  cases h
  case wait          => exact ⟨ht, rfl, nofun⟩
  case accept hv     =>
    refine ⟨ht, rfl, fun n hn => ?_⟩
    cases hn
    exact session_lt_of_rejection hv
  case discard       => exact ⟨ht, rfl, nofun⟩
  case hold          => exact ⟨ht, rfl, hp⟩
  case post h        => exact ⟨ht.post h, (SessionTable.post_ok h).left, nofun⟩

theorem sound_of_scheduler {s s' : Scheduler} {granted : Bool} {o' : Occupancy}
    {e e' : Scheduler.Links} (h : Scheduler.Step granted t o e s ns s' t' o' e') (ht : t.Sound) :
    t'.Sound ∧ t'.size = t.size := by
  cases h
  case take h _ _ => exact ⟨ht.consume h, (SessionTable.consume_ok h).left⟩
  all_goals exact ⟨ht, rfl⟩

theorem Sound.next {ms ks : List Note} (h : x.Sound) (step : Step x l ns x' l' ms ks t) :
    x'.Sound := by
  have ⟨ht, hsize, hp⟩ := sound_of_poster step.poster h.table h.poster
  have ⟨ht', hsize'⟩ := sound_of_scheduler step.scheduler ht
  exact ⟨ht', fun n hn => by rw [hsize', hsize]; exact hp n hn⟩

theorem succeeds_poster {p : Poster} (granted : Bool) (s : Fifo Notification) (ht : t.Sound)
    (hp : ∀ n, p = .holding n → n.session.toNat < t.size) : (p.tick granted t s).Succeeds := by
  cases p
  case idle => simp +contextual [Poster.tick, Poster.accept]
  case holding n =>
    obtain ⟨_, h, _⟩ := ht.exists_post (hp n rfl) n.length n.localPort
    simp [Poster.tick, h]

theorem exists_reserve (length : UInt16) (room : o.reserved + slots length.toNat < Size.limit) :
    ∃ n o', Size.units length.toNat Chunk.width = .ok n ∧ o.reserve n = .ok o' := by
  have hl : length.toNat + Chunk.width < Size.limit :=
    Nat.lt_trans (Nat.add_lt_add_right length.toNat_lt _) (by decide)
  have hu : Size.units length.toNat Chunk.width = .ok (slots length.toNat) :=
    Size.units_eq (by decide) hl
  have hr : o.reserve (slots length.toNat) = .ok _ := congrArg (· >>= _) (Size.add_of_lt room)
  exact ⟨_, _, hu, hr⟩

theorem exists_serviced (session : SessionId) (size : Nat) :
    ∃ turn, RoundRobin.serviced session.toNat size = .ok turn := by
  have hlimit : UInt16.size < Size.limit := by decide
  have hsession : session.toNat < UInt16.size := session.toNat_lt
  unfold RoundRobin.serviced
  split
  case isTrue  => exact ⟨_, rfl⟩
  case isFalse =>
    rw [Size.add_of_lt (by omega)]
    exact ⟨_, rfl⟩

theorem Roomy.reserved_lt (h : Roomy o) {length : UInt16} (hne : length ≠ 0)
    (hle : slots length.toNat ≤ o.available) : o.reserved + slots length.toNat < Size.limit := by
  have hfree := h.free_lt
  have hpos : length.toNat ≠ 0 := fun hz => hne (UInt16.toNat_inj.mp hz)
  simp only [slots, Occupancy.available] at *
  omega

theorem succeeds_take (s : Scheduler) (session : SessionId) (ht : t.Sound) (ho : Roomy o) :
    (s.take session t o).Succeeds := by
  unfold Scheduler.take
  split
  case h_1 => simp
  case h_2 entry he =>
    simp only [Size.mul_of_lt ho.space_lt, Traced.liftM_ok, Traced.bind_ok, List.nil_append]
    have hi : session.toNat < t.size := (Array.getElem?_eq_some_iff.mp he).1
    have hle := Scheduler.slots_requestLength_le entry.bytes o.available
    generalize Scheduler.requestLength entry.bytes (o.available * Chunk.width) = length at hle
    by_cases hz : length = 0
    case pos => simp [hz]
    case neg =>
      have ⟨_, t', hc, _⟩ := ht.exists_consume hi length.toNat
      have ⟨_, _, hn, hr⟩ := exists_reserve length (ho.reserved_lt hz hle)
      have ⟨_, hs⟩ := exists_serviced session t'.size
      simp [hz, hc, hn, hr, hs]

theorem exists_select (s : Scheduler) (t : SessionTable) : ∃ s', s.select t = .ok s' := by
  have ⟨found, h⟩ := t.pending.exists_nextFrom s.turn.next
  rw [Scheduler.select, RoundRobin.select, h]
  cases found
  case none => exact ⟨_, rfl⟩
  case some => exact ⟨_, rfl⟩

theorem succeeds_scheduler (s : Scheduler) (granted : Bool) (e : Scheduler.Links) (ht : t.Sound)
    (ho : Roomy o) : (s.tick granted t o e).Succeeds := by
  cases hp : s.phase <;> simp only [Scheduler.tick, hp]
  case idle  =>
    obtain ⟨_, hs⟩ := exists_select s t
    simp [hs]
  case query => simp [succeeds_take s _ ht ho]
  case emit  => simp +contextual [Scheduler.emit]

theorem succeeds_tick (h : x.Sound) (ho : Roomy l.occupancy) : (x.tick l).Succeeds := by
  refine Traced.succeeds_bind.mpr ⟨succeeds_poster _ _ h.table h.poster, fun (p, t, n) hp => ?_⟩
  have ⟨ht, _⟩ := sound_of_poster (Poster.step_of_tick (Traced.ext rfl hp)) h.table h.poster
  refine Traced.succeeds_bind.mpr ⟨succeeds_scheduler _ _ _ ht ho, fun (s, t', o, e) hs => ?_⟩
  have ⟨ht', _⟩ := sound_of_scheduler (Scheduler.step_of_tick (Traced.ext rfl hs)) ht
  simp [ht'.isConsistent]

end Interrupts

namespace InputBuffer

theorem exists_moveSession (s : Links) : ∃ s', moveSession s = .ok s' := by
  unfold moveSession
  split
  case isTrue  => exact ⟨s, rfl⟩
  case isFalse h =>
    simp only [Bool.or_eq_true, not_or, Bool.not_eq_true] at h
    have ⟨session, hr⟩ := Fifo.read_of_not_isEmpty h.left
    have ⟨_, hw⟩ := Fifo.write_of_not_isFull (a := session) h.right
    simp [hr, hw, bind, Except.bind, pure, Except.pure]

theorem exists_moveChunk (s : Links) : ∃ s', moveChunk s = .ok s' := by
  unfold moveChunk
  split
  case isTrue  => exact ⟨s, rfl⟩
  case isFalse h =>
    simp only [Bool.or_eq_true, not_or, Bool.not_eq_true] at h
    have ⟨chunk, hr⟩ := Fifo.read_of_not_isEmpty h.left.left
    have ⟨_, hw⟩ := Fifo.write_of_not_isFull (a := chunk) h.left.right
    have ⟨_, he⟩ := Fifo.write_of_not_isFull (a := ()) h.right
    simp [hr, hw, he, bind, Except.bind, pure, Except.pure]

theorem exists_tick (s : Links) : ∃ s', tick s = .ok s' := by
  have ⟨t, hs⟩ := exists_moveSession s
  rw [tick, hs]
  exact exists_moveChunk t

end InputBuffer

namespace Receiver

def openLength (chunks : List Chunk) : Nat :=
  (chunks.reverse.takeWhile (!·.last)).length

@[simp]
theorem openLength_concat (chunks : List Chunk) (chunk : Chunk) :
    openLength (chunks ++ [chunk]) = if chunk.last then 0 else openLength chunks + 1 := by
  cases h : chunk.last <;> simp [openLength, h]

-- With a stream in hand there is a command in hand, and the tally is that of the chunks since the
-- last end mark.
structure Engaged (chunks : List Chunk) (r : Receiver) : Prop where
  command  : r.phase ≠ .idle → r.command.isSome
  tally_le : r.phase ≠ .idle → r.tally ≤ openLength chunks * Chunk.width

variable {chunks : List Chunk} {r r' : Receiver} {l l' : Links} {enable : Bool} {ns : List Note}

theorem Engaged.start : Engaged [] .start :=
  ⟨by simp [Receiver.start], by simp [Receiver.start]⟩

theorem Engaged.advance {chunk : Chunk} {next : Phase} (h : r.Engaged chunks)
    (hp : r.phase ≠ .idle) (step : Advance r chunk next ns r') :
    r'.Engaged (chunks ++ [chunk]) := by
  cases step
  case more hl =>
    refine ⟨fun _ => h.command hp, fun _ => ?_⟩
    have htally := h.tally_le hp
    have hlength := chunk.length_le
    simp only [openLength_concat, hl, Bool.false_eq_true, if_false, Nat.add_mul]
    omega
  case finish   => exact ⟨by simp, by simp⟩
  case mismatch => exact ⟨by simp, by simp⟩

theorem Engaged.next (h : r.Engaged chunks) (step : Step enable r l ns r' l') :
    r'.Engaged (chunks ++ l.data.taken l'.data) := by
  have ⟨hc, ht⟩ := h
  cases step
  case stall => simpa using h
  case start => exact ⟨fun _ => rfl, fun _ => Nat.zero_le _⟩
  case forwardHeader hp _ _ _ _ =>
    have hne : r.phase ≠ .idle := by simp [hp]
    simpa using ⟨fun _ => hc hne, fun _ => ht hne⟩
  case sinkHeader hp _ _ =>
    have hne : r.phase ≠ .idle := by simp [hp]
    simpa using ⟨fun _ => hc hne, fun _ => ht hne⟩
  case mismatch hp _ _ _ =>
    have hne : r.phase ≠ .idle := by obtain hp | hp := hp <;> simp [hp]
    simpa using ⟨fun _ => hc hne, fun _ => ht hne⟩
  case forwardData hp hr _ _ advance     =>
    exact Fifo.taken_tail hr ▸ h.advance (by simp [hp]) advance
  case sinkData hp hr _ advance          =>
    exact Fifo.taken_tail hr ▸ h.advance (by simp [hp]) advance
  case extractRecord hp hr _ _ _ advance =>
    exact Fifo.taken_tail hr ▸ h.advance (by simp [hp]) advance
  case malformedRecord hp hr _ _ advance =>
    exact Fifo.taken_tail hr ▸ h.advance (by simp [hp]) advance

theorem succeeds_consume_bind {α : Type} {f : Chunk × Receiver × Links → Traced α}
    (data : l.data.isEmpty = false) (signal : l.dequeued.isFull = false)
    (room : r.tally + Chunk.width < Size.limit)
    (next : ∀ chunk dequeued, (f (chunk, { r with tally := r.tally + chunk.length },
      { l with data := l.data.tail, dequeued })).Succeeds) :
    (r.consume l >>= f).Succeeds := by
  have ⟨chunk, hr⟩ := Fifo.read_of_not_isEmpty data
  have ⟨dequeued, hw⟩ := Fifo.write_of_not_isFull (a := ()) signal
  have hlength := chunk.length_le
  have ht : Size.add r.tally chunk.length = .ok (r.tally + chunk.length) :=
    Size.add_of_lt (by omega)
  have hc : r.consume l = ⟨[], .ok (chunk, { r with tally := r.tally + chunk.length },
      { l with data := l.data.tail, dequeued })⟩ := by
    simp [consume, hr, hw, ht]
  simp [hc, next chunk dequeued]

theorem succeeds_finish (h : r.command.isSome) : r.finish.Succeeds := by
  have ⟨cmd, hc⟩ := Option.isSome_iff_exists.mp h
  simp [finish, current_eq_ok_iff.mpr hc]

theorem succeeds_handOver (chunk : Chunk) (h : l.records.isFull = false) :
    (handOver chunk l).Succeeds := by
  unfold handOver
  cases ControlRecord.ofChunk? chunk <;> simp [h]

section Data

variable (command : r.command.isSome) (room : r.tally + Chunk.width < Size.limit)
include command room

theorem succeeds_forwardData : (r.forwardData l).Succeeds := by
  simp only [Receiver.forwardData, Traced.succeeds_ite, Bool.or_eq_true, not_or,
    Bool.not_eq_true]
  refine ⟨fun _ => Traced.succeeds_ok _ _, ?_⟩
  rintro ⟨⟨data, forward⟩, signal⟩
  exact succeeds_consume_bind data signal room fun chunk _ => by
    simp [forward, succeeds_finish, command]

theorem succeeds_sinkData : (r.sinkData l).Succeeds := by
  simp only [Receiver.sinkData, Traced.succeeds_ite, Bool.or_eq_true, not_or, Bool.not_eq_true]
  refine ⟨fun _ => Traced.succeeds_ok _ _, ?_⟩
  rintro ⟨data, signal⟩
  exact succeeds_consume_bind data signal room fun chunk _ => by
    simp [succeeds_finish, command]

theorem succeeds_extractRecord : (r.extractRecord l).Succeeds := by
  simp only [Receiver.extractRecord, Traced.succeeds_ite, Bool.or_eq_true, not_or,
    Bool.not_eq_true]
  refine ⟨fun _ => Traced.succeeds_ok _ _, ?_⟩
  rintro ⟨⟨data, signal⟩, records⟩
  exact succeeds_consume_bind data signal room fun chunk _ => by
    simp [succeeds_finish, succeeds_handOver, records, command]

end Data

theorem succeeds_tick (enable : Bool) (l : Links) (h : r.Engaged chunks)
    (room : openLength chunks * Chunk.width + Chunk.width < Size.limit) :
    (r.tick enable l).Succeeds := by
  cases hp : r.phase <;> simp only [tick, hp]
  case idle => simp +contextual [idle, gate]
  all_goals
    have command := h.command (by simp [hp])
    obtain ⟨cmd, hc⟩ := Option.isSome_iff_exists.mp command
    replace room : r.tally + Chunk.width < Size.limit :=
      Nat.lt_of_le_of_lt (Nat.add_le_add_right (h.tally_le (by simp [hp])) _) room
  case forwardHeader => simp +contextual [Receiver.forwardHeader, current_eq_ok_iff.mpr hc]
  case forwardData   => exact succeeds_forwardData command room
  case sinkHeader    =>
    simp +contextual [Receiver.sinkHeader, current_eq_ok_iff.mpr hc]
    intro _ session _ _ _
    split <;> simp
  case sinkData      => exact succeeds_sinkData command room
  case extractRecord => exact succeeds_extractRecord command room

end Receiver

end ShellInterface.Tcp
