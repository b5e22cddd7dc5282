import ShellInterface.Proofs.Tcp.Transmission

namespace ShellInterface.Tcp

theorem Config.sendRetries_pos {c : Config} (h : c.validate = .ok ()) : 0 < c.sendRetries := by
  have ⟨_, _, h⟩ := exists_of_bind_eq_ok h
  have ⟨_, _, h⟩ := exists_of_bind_eq_ok h
  have ⟨_, hr, _⟩ := exists_of_bind_eq_ok h
  exact requireNonZero_eq_ok hr

namespace Transfer

variable {r : Transfer} {budget : Nat} {reply : SendReply}

-- What the last reply decides: the whole payload is sent, up to its end mark, or nothing is sent
-- and one fault is reported.
def Settled (budget : Nat) (r : Transfer) (reply : SendReply) : Prop :=
  match SendVerdict.ofCode? reply.code with
  | some .granted =>
    Ended r.sent ∧ r.sent = r.payload ∧ r.Drained ∧ r.faults = []
  | some .noSpace =>
    r.sent = [] ∧ r.replies.length = budget ∧
      r.faults = [.sendRetriesExhausted r.request.session budget]
  | some .noConnection =>
    r.sent = [] ∧ r.faults = [.noConnection r.request.session]
  | none =>
    r.sent = [] ∧ r.faults = [.unknownSendReply reply.session reply.code]

theorem Finished.exists_settled (h : r.Finished budget) (enabled : r.enabled = true) :
    ∃ reply, r.Answered budget reply ∧ r.Settled budget reply := by
  cases h
  case granted granted ended sent drained =>
    have ⟨reply, answered, verdict⟩ := granted.answered
    refine ⟨reply, answered, ?_⟩
    simp only [Settled, verdict]
    exact ⟨ended, sent, drained, granted.faults⟩
  case declined declined sent _ =>
    cases declined
    case disabled disabled _ _ _ => simp [enabled] at disabled
    case exhausted reply answered verdict spent faults =>
      exact ⟨reply, answered, by simp only [Settled, verdict]; exact ⟨sent, spent, faults⟩⟩
    case disconnected reply answered verdict faults =>
      exact ⟨reply, answered, by simp only [Settled, verdict]; exact ⟨sent, faults⟩⟩
    case misread reply answered verdict faults =>
      exact ⟨reply, answered, by simp only [Settled, verdict]; exact ⟨sent, faults⟩⟩

theorem Answered.exists_refusals (h : r.Answered budget reply) : ∃ n refusals, 1 ≤ n ∧ n ≤ budget ∧
    r.asked = .replicate n r.request ∧ r.replies = refusals ++ [reply] ∧ refusals.length + 1 = n ∧
    ∀ refusal ∈ refusals, SendVerdict.ofCode? refusal.code = some .noSpace := by
  have ⟨refusals, hr, noSpace⟩ := h.decided
  have hn : r.replies.length = refusals.length + 1 := by rw [hr, List.length_append]; rfl
  exact ⟨r.replies.length, refusals, by omega, h.within, h.asked, hr, hn.symm, noSpace⟩

theorem Answered.not_disabled (h : r.Answered budget reply) : r.enabled ≠ false := by
  simp [h.enabled]

theorem Granted.not_disabled (h : r.Granted budget) : r.enabled ≠ false :=
  have ⟨_, answered, _⟩ := h.answered
  answered.not_disabled

theorem Declined.of_disabled (h : r.Declined budget) (disabled : r.enabled = false) :
    r.asked = [] ∧ r.faults = [] := by
  cases h
  case disabled asked _ faults   => exact ⟨asked, faults⟩
  case exhausted answered _ _ _  => exact absurd disabled answered.not_disabled
  case disconnected answered _ _ => exact absurd disabled answered.not_disabled
  case misread answered _ _      => exact absurd disabled answered.not_disabled

end Transfer

namespace Transmitter

variable {t : Transmitter} {rs : List Transfer} {r : Transfer}

theorem Booked.finished_of_mem (h : Booked t rs)
    (hr : r ∈ if t.phase = .idle then rs else rs.dropLast) : r.Finished t.budget := by
  split at hr
  case isTrue hp  => exact h.finished hp r hr
  case isFalse hp =>
    obtain ⟨done, _, rfl, finished, _⟩ := h.exists_busy hp
    exact finished r (by simpa using hr)

theorem Booked.of_disabled (h : Booked t rs) (hr : r ∈ rs) (disabled : r.enabled = false) :
    r.asked = [] ∧ r.sent = [] ∧ r.faults = [] := by
  have declined (h : r.Declined t.budget) (sent : r.sent = []) :
      r.asked = [] ∧ r.sent = [] ∧ r.faults = [] :=
    have ⟨asked, faults⟩ := h.of_disabled disabled
    ⟨asked, sent, faults⟩
  obtain finished | busy := h.finished_or_busy hr
  case inl =>
    cases finished
    case granted granted _ _ _    => exact absurd disabled granted.not_disabled
    case declined refused sent _  => exact declined refused sent
  case inr =>
    have unfinished := busy.unfinished
    generalize t.phase = phase at unfinished
    cases unfinished
    case request refused _ _      => simp [refused.enabled] at disabled
    case await refused _ _        => simp [refused.enabled] at disabled
    case appData granted _ _      => exact absurd disabled granted.not_disabled
    case testData granted _ _     => exact absurd disabled granted.not_disabled
    case drain refused sent _     => exact declined refused sent

theorem Booked.granted_of_sent (h : Booked t rs) (hr : r ∈ rs) (sent : r.sent ≠ []) :
    r.enabled = true ∧ r.isGranted = true := by
  have granted (h : r.Granted t.budget) : r.enabled = true ∧ r.isGranted = true :=
    ⟨Bool.eq_true_of_not_eq_false h.not_disabled, h.isGranted⟩
  obtain finished | busy := h.finished_or_busy hr
  case inl =>
    cases finished
    case granted grant _ _ _   => exact granted grant
    case declined nothing _    => exact absurd nothing sent
  case inr =>
    have unfinished := busy.unfinished
    generalize t.phase = phase at unfinished
    cases unfinished
    case request refused _ _   => exact absurd refused.sent sent
    case await refused _ _     => exact absurd refused.sent sent
    case appData grant _ _     => exact granted grant
    case testData grant _ _    => exact granted grant
    case drain nothing _       => exact absurd nothing sent

end Transmitter

namespace Interface

variable {c : Config} {x x₀ : Interface} {cs : History}

theorem validate_of_create (hc : create c = .ok x₀) : c.validate = .ok () := by
  have ⟨_, hv, _⟩ := exists_of_bind_eq_ok hc
  exact of_mapError_eq_ok hv

theorem stats_of_create (hc : create c = .ok x₀) : x₀.ledger.stats = .zero := by
  have ⟨_, _, h⟩ := exists_of_bind_eq_ok hc
  have ⟨_, _, h⟩ := exists_of_bind_eq_ok h
  have ⟨_, hl, h⟩ := exists_of_bind_eq_ok h
  cases h
  exact Ledger.stats_of_create (of_mapError_eq_ok hl)

theorem notes_eq_of_run {env : Surroundings Interface Bool (Ingress × Egress)}
    (run : Run tick env x₀ cs x) : cs.flatMap Cycle.notes = (marked cs).flatMap (·.2.notes) := by
  induction run
  case start => rfl
  case next ticked ih =>
    have h := cycle_of_tick ticked
    rw [Frame.cycle_eq_foldlM] at h
    rw [List.flatMap_append, ih, marked_concat, List.flatMap_append, List.flatMap_map,
      List.flatMap_singleton, Frame.notes_eq_flatMap_turns h]
    rfl

-- A transfer that was accepted asks for its request, and for nothing else, as often as the engine
-- has no room, and the last reply settles it. Nothing is sent that does not belong to a transfer
-- that was accepted and granted. The counters agree.
theorem transferred_of_run (hc : create c = .ok x₀) (run : Run tick .any x₀ cs x) :
    let rs := Frame.transfers (marked cs)
    Frame.Recorded (marked cs) ∧
    (∀ r ∈ if x.net.transmitter.phase = .idle then rs else rs.dropLast, r.enabled = true →
      ∃ n refusals reply, 1 ≤ n ∧ n ≤ c.sendRetries ∧ r.asked = .replicate n r.request ∧
        r.replies = refusals ++ [reply] ∧ refusals.length + 1 = n ∧
        (∀ refusal ∈ refusals, SendVerdict.ofCode? refusal.code = some .noSpace) ∧
        r.Settled c.sendRetries reply) ∧
    (∀ r ∈ rs, r.requester = .test → r.request.length ≠ 0) ∧
    (∀ r ∈ rs, r.sent ≠ [] → r.enabled = true ∧ r.isGranted = true) ∧
    (∀ r ∈ rs, r.enabled = false → r.asked = [] ∧ r.sent = [] ∧ r.faults = []) ∧
    x.ledger.stats.get .sendRequests = .ofNat (rs.map fun r => r.asked.length).sum ∧
    x.ledger.stats.get .sendRetries =
      .ofNat (rs.map fun r => min r.refusals (c.sendRetries - 1)).sum ∧
    x.ledger.stats.get .abandonedSends = .ofNat (rs.map fun r => r.faults.length).sum ∧
    x.ledger.stats.get .appChunks =
      .ofNat (rs.map fun r => (if r.requester = .app then r.sent else []).length).sum ∧
    x.ledger.stats.get .testBytes =
      .ofNat (rs.map fun r =>
        Transmitter.bytes (if r.requester = .test then r.sent else [])).sum := by
  intro rs
  have ⟨booked, recorded, counted, budget, _, tests⟩ := transacted_of_run (network_of_create hc) run
  have hmax : max 1 c.sendRetries = c.sendRetries :=
    Nat.max_eq_right (Config.sendRetries_pos (validate_of_create hc))
  rw [hmax] at counted budget
  have stats := Ledger.stats_of_run ledger_of_tick (stats_of_create hc) run
  simp only [stats, notes_eq_of_run run, counted.sendRequests, counted.sendRetries,
    counted.abandonedSends, counted.appChunks, counted.testBytes]
  refine ⟨recorded, fun r hr enabled => ?settled, fun r hr test => ?sized,
    fun r => booked.granted_of_sent, fun r => booked.of_disabled, rfl, rfl, rfl, rfl, rfl⟩
  case settled =>
    have ⟨reply, answered, settled⟩ := (booked.finished_of_mem hr).exists_settled enabled
    have ⟨n, refusals, pos, within, asked, replies, length, noSpace⟩ := answered.exists_refusals
    rw [budget] at within settled
    exact ⟨n, refusals, reply, pos, within, asked, replies, length, noSpace, settled⟩
  case sized =>
    rw [← recorded.tests] at tests
    exact tests _ (List.mem_map_of_mem (List.mem_filter.mpr ⟨hr, decide_eq_true test⟩))

-- The engine has no room at first for the application, and then it has. Of the two records that
-- arrive meanwhile, the first one opens a connection and the second one orders a test on it.
theorem transferred_of_one_retry :
    ∃ x₀ cs x, create { small with sendRetries := 2 } = .ok x₀ ∧ Run tick .any x₀ cs x ∧
      (∃ r ∈ Frame.transfers (marked cs), r.requester = .app ∧ r.asked = [⟨0, 1⟩, ⟨0, 1⟩] ∧
        r.sent = Chunk.splice [7] ∧ ∃ reply, r.Settled 2 reply) ∧
      (∃ r ∈ Frame.transfers (marked cs), r.requester = .test ∧ r.asked = [⟨3, 12⟩] ∧
        r.sent = Chunk.splice
          [0x48, 0x69, 0x20, 0x66, 0x72, 0x6f, 0x6d, 0x20, 0x46, 0x4d, 0x4b, 0x55] ∧
        ∃ reply, r.Settled 2 reply) ∧
      x.ledger.stats.get .sendRetries = 1 ∧ x.ledger.stats.get .testBytes = 12 := by
  let announced : Notification := ⟨0, 8, 0, 0, ListenPort.transmitTest⟩
  let record (length : UInt16) := ControlRecord.toChunk ⟨⟨0x0a0cc899, 80⟩, length⟩ true
  have ⟨x₀, cs, x, hc, run, hp, ⟨r, hr, enabled, app, asked, sent⟩,
      ⟨r', hr', enabled', test, asked', sent'⟩, retries, bytes⟩ :
      ∃ x₀ cs x, create { small with sendRetries := 2 } = .ok x₀ ∧ Run tick .any x₀ cs x ∧
      x.net.transmitter.phase = .idle ∧
      (∃ r ∈ Frame.transfers (marked cs), r.enabled = true ∧ r.requester = .app ∧
        r.asked = [⟨0, 1⟩, ⟨0, 1⟩] ∧ r.sent = Chunk.splice [7]) ∧
      (∃ r ∈ Frame.transfers (marked cs), r.enabled = true ∧ r.requester = .test ∧
        r.asked = [⟨3, 12⟩] ∧ r.sent = Chunk.splice
          [0x48, 0x69, 0x20, 0x66, 0x72, 0x6f, 0x6d, 0x20, 0x46, 0x4d, 0x4b, 0x55]) ∧
      ((Frame.transfers (marked cs)).map fun r => min r.refusals (2 - 1)).sum = 1 ∧
      ((Frame.transfers (marked cs)).map fun r =>
        Transmitter.bytes (if r.requester = .test then r.sent else [])).sum = 12 :=
    Run.exists_of_create
      (transmissions [{ notifications := [announced], requests := [⟨0, 1⟩] }, {},
        { replies := [⟨0, 1, 0, 1⟩] }, {}, { replies := [⟨0, 1, 9, 0⟩] },
        { sessions := [0], chunks := [record 0], data := [.ofBytes [7] true] }, {}, {}, {},
        { opened := [⟨3, .established⟩] }, { notifications := [announced] }, {}, {}, {}, {},
        { sessions := [0], chunks := [record 12] }, {}, {}, {}, {},
        { replies := [⟨3, 12, 20, 0⟩] }, {}, {}])
      (by decide +kernel)
  have ⟨_, transferred, _, _, _, _, counted, _, _, sized⟩ := transferred_of_run hc run
  rw [if_pos hp] at transferred
  have ⟨_, _, reply, _, _, _, _, _, _, settled⟩ := transferred r hr enabled
  have ⟨_, _, reply', _, _, _, _, _, _, settled'⟩ := transferred r' hr' enabled'
  exact ⟨x₀, cs, x, hc, run, ⟨r, hr, app, asked, sent, reply, settled⟩,
    ⟨r', hr', test, asked', sent', reply', settled'⟩, counted.trans (congrArg _ retries),
    sized.trans (congrArg _ bytes)⟩

end Interface

end ShellInterface.Tcp
