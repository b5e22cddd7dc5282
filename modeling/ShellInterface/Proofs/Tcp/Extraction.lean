import ShellInterface.Proofs.Tcp.Parts
import ShellInterface.Proofs.Tcp.Payload

namespace ShellInterface.Tcp

theorem Carries.sum_length {n : Nat} {cs : List Chunk} (h : Carries n cs) :
    (cs.map Chunk.length).sum = n := by
  induction h
  case last length _       => simpa using length
  case more length _ _ ih => rw [List.map_cons, List.sum_cons, length, ih, Nat.add_comm]

theorem Carries.exists_head {n : Nat} {cs : List Chunk} (h : Carries n cs)
    (full : Chunk.width ≤ n) : ∃ c rest, cs = c :: rest ∧ c.length = Chunk.width := by
  cases h
  case last _ le length => exact ⟨_, _, rfl, length.trans (Nat.le_antisymm le full)⟩
  case more length _ _  => exact ⟨_, _, rfl, length⟩

namespace Receipt

variable {r : Receipt} {s : Stream} {rs : List Receipt} {ss : List Stream}

theorem Of.tally_le (h : r.Of s) (carries : Carries s.1.length.toNat s.2) :
    r.tally ≤ s.1.length.toNat := by
  obtain ⟨rest, hr⟩ := h.received
  rw [← carries.sum_length, ← hr, List.map_append, List.sum_append, ← tally_eq]
  exact Nat.le_add_right _ _

theorem Of.exists_looked (h : r.Of s) (enabled : r.Enabled) (route : r.command.route = .generate)
    (taken : r.tally ≠ 0) : ∃ c rest, s.2 = c :: rest ∧ r.looked? = some (true, c) := by
  rcases hc : r.chunks with _ | ⟨⟨enable, c⟩, chunks⟩
  case nil => exact absurd (by simp [tally, hc]) taken
  case cons =>
    obtain rfl : enable = true := enabled.chunks (enable, c) (by simp [hc])
    have hr := h.received
    rw [Receipt.received, hc, List.map_cons] at hr
    obtain ⟨rest, hr⟩ := hr
    refine ⟨c, _, hr.symm, ?_⟩
    have hs : r.session = some r.command.session := by
      cases hs : r.session
      case none => simp [h.headless hs] at hc
      case some => rw [h.session _ hs, h.command]
    simp [looked?, gated, enabled.command, route, hs, hc]

theorem map_command_eq (h : List.Forall₂ Of rs ss) : rs.map command = ss.map Prod.fst := by
  induction h
  case nil            => rfl
  case cons h _ ih => rw [List.map_cons, List.map_cons, h.command, ih]

theorem tally_sum (h : List.Forall₂ Of rs ss)
    (carries : ∀ s ∈ ss, Carries s.1.length.toNat s.2) :
    (rs.map tally).sum ≤ (ss.map (·.1.length.toNat)).sum ∧
      ((rs.map tally).sum = (ss.map (·.1.length.toNat)).sum →
        ∀ r ∈ rs, r.tally = r.command.length.toNat) := by
  induction h
  case nil => simp
  case cons h _ ih =>
    have ⟨hs, carries⟩ := List.forall_mem_cons.mp carries
    have hle := h.tally_le hs
    have ⟨hsum, heq⟩ := ih carries
    simp only [List.map_cons, List.sum_cons, List.forall_mem_cons]
    refine ⟨by omega, fun he => ⟨by rw [h.command]; omega, heq (by omega)⟩⟩

theorem looked?_cases (h : r.looked?.isSome) : r.record?.isSome ∧ r.malformed? = none ∨
    r.record? = none ∧ r.malformed?.isSome := by
  obtain ⟨⟨enable, chunk⟩, hl⟩ := Option.isSome_iff_exists.mp h
  cases hc : ControlRecord.ofChunk? chunk <;> simp [record?, malformed?, recordless?, hl, hc]

theorem records_add_malformed (h : ∀ r ∈ rs, r.looked?.isSome) :
    (rs.filterMap record?).length + (rs.filterMap malformed?).length = rs.length := by
  induction rs
  case nil => rfl
  case cons r rs ih =>
    have ⟨hr, hrs⟩ := List.forall_mem_cons.mp h
    have := ih hrs
    obtain ⟨hs, hn⟩ | ⟨hn, hs⟩ := looked?_cases hr
    all_goals
      obtain ⟨_, hs⟩ := Option.isSome_iff_exists.mp hs
      simp only [List.filterMap_cons, hn, hs, List.length_cons]
      omega

end Receipt

theorem Split.complete {n left : Nat} {pieces : List (ForwardCommand × Nat)} {rs : List Receipt}
    {ss : List Stream} (split : Split n pieces left) (parts : List.Forall₂ Receipt.Of rs ss)
    (carries : ∀ s ∈ ss, Carries s.1.length.toNat s.2)
    (commands : ss.map Prod.fst <+: pieces.map Prod.fst)
    (consumed : (rs.map Receipt.tally).sum = n) :
    left = 0 ∧ rs.map Receipt.command = pieces.map Prod.fst ∧
      ∀ r ∈ rs, r.tally = r.command.length.toNat := by
  have ⟨hle, htally⟩ := Receipt.tally_sum parts carries
  have hsum := split.sum
  obtain ⟨rest, hrest⟩ := commands
  have hpieces : (pieces.map (·.1.length.toNat)).sum =
      (ss.map (·.1.length.toNat)).sum + (rest.map (·.length.toNat)).sum := by
    have := congrArg (fun cmds => (cmds.map (·.length.toNat)).sum) hrest
    simpa [Function.comp_def] using this.symm
  have hnil : rest = [] := by
    refine List.eq_nil_iff_forall_not_mem.mpr fun cmd hm => ?_
    have hz : cmd.length.toNat = 0 :=
      List.sum_eq_zero_iff.mp (by omega) _ (List.mem_map_of_mem (f := (·.length.toNat)) hm)
    obtain ⟨p, hp, rfl⟩ := List.mem_map.mp (hrest ▸ List.mem_append_right _ hm)
    exact split.length_ne p hp (UInt16.toNat_inj.mp hz)
  rw [hnil, List.append_nil] at hrest
  exact ⟨by omega, (Receipt.map_command_eq parts).trans hrest, htally (by omega)⟩

theorem bytes_length {ss : List Stream} (carries : ∀ s ∈ ss, Carries s.1.length.toNat s.2) :
    ((ss.flatMap Prod.snd).flatMap Chunk.bytes).length = (ss.map (·.1.length.toNat)).sum := by
  induction ss
  case nil => rfl
  case cons s ss ih =>
    have ⟨hs, hss⟩ := List.forall_mem_cons.mp carries
    have hlength : (s.2.flatMap Chunk.bytes).length = s.1.length.toNat := by
      rw [List.length_flatMap, ← hs.sum_length]
      simp [Chunk.length_bytes]
    rw [List.flatMap_cons, List.flatMap_append, List.length_append, hlength, ih hss, List.map_cons,
      List.sum_cons]

theorem exists_record_chunk {s : Stream} {ss : List Stream} {record : ControlRecord}
    {padding : List UInt8} (carries : Carries s.1.length.toNat s.2)
    (full : Chunk.width ≤ s.1.length.toNat)
    (payload : ((s :: ss).flatMap Prod.snd).flatMap Chunk.bytes =
      (record.toChunk true).data ++ padding) :
    ∃ c rest, s.2 = c :: rest ∧ ControlRecord.ofChunk? c = some record := by
  obtain ⟨c, rest, hc, length⟩ := carries.exists_head full
  have ⟨_, hbytes⟩ := Chunk.of_length_eq_width length
  rw [List.flatMap_cons, hc, List.cons_append, List.flatMap_cons, hbytes] at payload
  have ⟨data, _⟩ :=
    List.append_inj payload (c.data_length.trans (record.toChunk true).data_length.symm)
  exact ⟨c, rest, hc, ControlRecord.ofChunk?_eq_some length data⟩

namespace Receipt

theorem forall_looked {rs : List Receipt} {ss : List Stream} (parts : List.Forall₂ Of rs ss)
    (enabled : ∀ r ∈ rs, r.Enabled) (route : ∀ r ∈ rs, r.command.route = .generate)
    (taken : ∀ r ∈ rs, r.tally ≠ 0) :
    ∀ r ∈ rs, r.looked?.isSome := by
  induction parts
  case nil => exact nofun
  case cons h _ ih =>
    simp only [List.forall_mem_cons] at *
    have ⟨_, _, _, hl⟩ := h.exists_looked enabled.left route.left taken.left
    exact ⟨by rw [hl]; rfl, ih enabled.right route.right taken.right⟩

end Receipt

section Issued

variable {n left : Nat} {pieces : List (ForwardCommand × Nat)} {rs : List Receipt}
  {ss : List Stream} {record : ControlRecord} {padding : List UInt8}

theorem Split.taken_ne (split : Split n pieces left)
    (issued : rs.map Receipt.command = pieces.map Prod.fst)
    (tally : ∀ r ∈ rs, r.tally = r.command.length.toNat) : ∀ r ∈ rs, r.tally ≠ 0 := by
  intro r hr hz
  obtain ⟨p, hp, he⟩ := List.mem_map.mp (issued ▸ List.mem_map_of_mem hr)
  exact split.length_ne p hp (UInt16.toNat_inj.mp (he ▸ (tally r hr).symm.trans hz))

theorem Receipt.route_of_issued {route : Route}
    (issued : rs.map Receipt.command = pieces.map Prod.fst)
    (h : ∀ p ∈ pieces, p.1.route = route) : ∀ r ∈ rs, r.command.route = route := by
  intro r hr
  obtain ⟨p, hp, he⟩ := List.mem_map.mp (issued ▸ List.mem_map_of_mem hr)
  exact he ▸ h p hp

theorem Split.payload_length (split : Split n pieces 0) (parts : List.Forall₂ Receipt.Of rs ss)
    (carries : ∀ s ∈ ss, Carries s.1.length.toNat s.2)
    (issued : rs.map Receipt.command = pieces.map Prod.fst) :
    ((ss.flatMap Prod.snd).flatMap Chunk.bytes).length = n := by
  have hcommands := congrArg (fun cmds => (cmds.map (·.length.toNat)).sum)
    ((Receipt.map_command_eq parts).symm.trans issued)
  simp only [List.map_map, Function.comp_def] at hcommands
  rw [bytes_length carries, hcommands]
  exact split.sum

theorem Receipt.Of.record_of_head {r : Receipt} {s : Stream} (h : r.Of s)
    (carries : Carries s.1.length.toNat s.2) (enabled : r.Enabled)
    (route : r.command.route = .generate) (full : Chunk.width ≤ s.1.length.toNat)
    (taken : r.tally ≠ 0)
    (payload : ((s :: ss).flatMap Prod.snd).flatMap Chunk.bytes =
      (record.toChunk true).data ++ padding) :
    r.record? = some (true, record) ∧ r.malformed? = none := by
  have ⟨c, _, hc, hrecord⟩ := exists_record_chunk carries full payload
  have ⟨c', _, hc', hl⟩ := h.exists_looked enabled route taken
  obtain ⟨rfl, _⟩ := List.cons.inj (hc.symm.trans hc')
  exact ⟨by simp [Receipt.record?, hl, hrecord],
    by simp [Receipt.malformed?, recordless?, hl, hrecord]⟩

theorem Split.records (split : Split n pieces 0) (parts : List.Forall₂ Receipt.Of rs ss)
    (carries : ∀ s ∈ ss, Carries s.1.length.toNat s.2)
    (issued : rs.map Receipt.command = pieces.map Prod.fst)
    (tally : ∀ r ∈ rs, r.tally = r.command.length.toNat) (enabled : ∀ r ∈ rs, r.Enabled)
    (route : ∀ p ∈ pieces, p.1.route = .generate)
    (payload : (ss.flatMap Prod.snd).flatMap Chunk.bytes =
      (record.toChunk true).data ++ padding) :
    (rs.filterMap Receipt.record?).head? = some (true, record) ∧
    (rs.filterMap Receipt.record?).length + (rs.filterMap Receipt.malformed?).length = rs.length ∧
    (rs.filterMap Receipt.record? = [(true, record)] ∧ rs.filterMap Receipt.malformed? = [] ↔
      ∃ piece ∈ pieces.head?, n ≤ piece.2 * Chunk.width) := by
  have taken := split.taken_ne issued tally
  have route := Receipt.route_of_issued issued route
  have count := Receipt.records_add_malformed (Receipt.forall_looked parts enabled route taken)
  have hn : n = Chunk.width + padding.length := by
    have hlength := split.payload_length parts carries issued
    rw [payload, List.length_append, (record.toChunk true).data_length] at hlength
    exact hlength.symm
  obtain ⟨cmd, available, rest, rfl, full⟩ :=
    split.exists_head (by simp only [hn, Chunk.width]; omega)
  obtain ⟨r, rs, rfl, hcommand, hrest⟩ := List.map_eq_cons_iff.mp issued
  obtain ⟨s, ss, hr, parts, rfl⟩ := List.forall₂_cons_left_iff.mp parts
  have hs : s.1 = cmd := hr.command.symm.trans hcommand
  have ⟨found, formed⟩ := hr.record_of_head (carries s List.mem_cons_self)
    (enabled r List.mem_cons_self) (route r List.mem_cons_self)
    (by simp only [hs, hn, Chunk.width] at *; omega) (taken r List.mem_cons_self) payload
  have hlength : rs.length = rest.length := by simpa using congrArg List.length hrest
  simp only [List.filterMap_cons, found, formed, List.length_cons, List.head?_cons] at count ⊢
  refine ⟨trivial, count, ?_⟩
  simp only [Option.mem_def, Option.some.injEq, exists_eq_left', ← split.rest_eq_nil_iff]
  constructor
  case mp =>
    intro ⟨hone, hnone⟩
    rw [(List.cons.inj hone).right, hnone] at count
    refine List.eq_nil_of_length_eq_zero ?_
    simp only [List.length_nil] at count
    omega
  case mpr =>
    rintro rfl
    obtain rfl : rs = [] := List.eq_nil_of_length_eq_zero hlength
    exact ⟨rfl, rfl⟩

end Issued

-- Of a list with an item for each command, the items of a session, if the first ones are left out
-- and no more than `count` of the others are looked at.
def ofSession {α : Type} (session : SessionId) (command : α → ForwardCommand) (first count : Nat)
    (as : List α) : List α :=
  ((as.drop first).take count).filter fun a => (command a).session = session

section OfSession

variable {α : Type} {session : SessionId} {command : α → ForwardCommand} {first count : Nat}

theorem ofSession_map (as : List α) : (ofSession session command first count as).map command =
    ofSession session id first count (as.map command) := by
  rw [ofSession, ofSession, ← List.map_drop, ← List.map_take, List.filter_map]
  rfl

theorem ofSession_prefix {as bs : List α} (h : as <+: bs) :
    ofSession session command first count as <+: ofSession session command first count bs :=
  ((h.drop first).take count).filter _

theorem ofSession_forall₂ {rs : List Receipt} {ss : List Stream}
    (h : List.Forall₂ Receipt.Of rs ss) :
    List.Forall₂ Receipt.Of (ofSession session Receipt.command first count rs)
      (ofSession session Prod.fst first count ss) :=
  List.rel_filter (fun _ _ h => by simp [h.command])
    (List.forall₂_take count (List.forall₂_drop first h))

theorem mem_of_mem_ofSession {a : α} {as : List α}
    (h : a ∈ ofSession session command first count as) : a ∈ as :=
  List.mem_of_mem_drop (List.mem_of_mem_take (List.mem_of_mem_filter h))

end OfSession

namespace Interface

variable {c : Config} {x x₀ x₁ x₂ x₃ : Interface} {cs cs₁ cs₂ cs₃ : History} {engine : Engine}
  {session : SessionId}

def receiptsOf (session : SessionId) (cs₁ cs₂ cs : History) : List Receipt :=
  ofSession session Receipt.command (Frame.taken (turns cs₁)).length
    (Frame.taken (turns cs₂)).length (Frame.receipts (marked cs))

def streamsOf (engine : Engine) (session : SessionId) (cs₁ cs₂ cs : History) : List Stream :=
  ofSession session Prod.fst (Frame.taken (turns cs₁)).length (Frame.taken (turns cs₂)).length
    (engine.streams (Frame.commands (turns cs)))

theorem streamsOf_commands (session : SessionId) (hc : create c = .ok x₀)
    (run : Run tick (serving engine) x₀ cs x) (whole : cs = cs₁ ++ cs₂ ++ cs₃) :
    (streamsOf engine session cs₁ cs₂ cs).map Prod.fst <+:
      (Frame.takenFor session (turns cs₂)).map Prod.fst := by
  have ⟨_, _, taken⟩ := settings_of_run hc run
  have started : Frame.commands (turns cs) <+: (Frame.taken (turns cs)).map Prod.fst :=
    taken ▸ List.prefix_append _ _
  have hsplit : Frame.taken (turns cs) =
      Frame.taken (turns cs₁) ++ Frame.taken (turns cs₂) ++ Frame.taken (turns cs₃) := by
    simp [whole, turns_append, Frame.taken]
  have hof : ofSession session id (Frame.taken (turns cs₁)).length (Frame.taken (turns cs₂)).length
      ((Frame.taken (turns cs)).map Prod.fst) =
        (Frame.takenFor session (turns cs₂)).map Prod.fst := by
    rw [← ofSession_map, hsplit, List.append_assoc, ofSession, List.drop_left, List.take_left]
    rfl
  rw [streamsOf, ofSession_map, Engine.streams_fst, ← hof]
  exact ofSession_prefix started

-- A payload of which all bytes were taken was requested and answered piece by piece.
theorem parts_of_payload {a : Notification} (hc : create c = .ok x₀)
    (small : c.inputBufferChunks < 2 ^ 29) (run₁ : Run tick (serving engine) x₀ cs₁ x₁)
    (run₂ : Run tick ((serving engine).after cs₁) x₁ cs₂ x₂)
    (run : Run tick (serving engine) x₀ cs x) (whole : cs = cs₁ ++ cs₂ ++ cs₃)
    (clear : x₁.net.interrupts.table.bytes session = 0)
    (announced : Frame.postedFor session (turns cs₂) = [a])
    (consumed : ((receiptsOf session cs₁ cs₂ cs).map Receipt.tally).sum = a.length.toNat) :
    Split a.length.toNat (Frame.takenFor session (turns cs₂)) 0 ∧
    (∀ p ∈ Frame.takenFor session (turns cs₂), p.1.route = c.routes.lookup a.localPort) ∧
    List.Forall₂ Receipt.Of (receiptsOf session cs₁ cs₂ cs) (streamsOf engine session cs₁ cs₂ cs) ∧
    (receiptsOf session cs₁ cs₂ cs).map Receipt.command =
      (Frame.takenFor session (turns cs₂)).map Prod.fst ∧
    ∀ r ∈ receiptsOf session cs₁ cs₂ cs, r.tally = r.command.length.toNat := by
  have ⟨routes, capacity, _⟩ := settings_of_run hc run₁
  have room : c.inputBufferChunks * Chunk.width < UInt32.size := by
    simp only [Chunk.width, UInt32.size]
    omega
  cases asked_of_run run₂.forget routes capacity room clear announced
  case after e found port split route =>
    have parts := parts_of_run hc run
    have started := List.take_prefix (Frame.receipts (marked cs)).length
      (engine.streams (Frame.commands (turns cs)))
    generalize List.take _ _ = taken at parts started
    replace parts : List.Forall₂ Receipt.Of (receiptsOf session cs₁ cs₂ cs)
      (ofSession session Prod.fst _ _ taken) := ofSession_forall₂ parts
    replace started : ofSession session Prod.fst _ _ taken <+:
        streamsOf engine session cs₁ cs₂ cs := ofSession_prefix started
    generalize ofSession session Prod.fst _ _ taken = ss at parts started
    have hcommands := streamsOf_commands session hc run whole
    have carries : ∀ s ∈ ss, Carries s.1.length.toNat s.2 := fun s hs =>
      Engine.streams_carries (underway_of_run hc run).served.nonempty s
        (mem_of_mem_ofSession (started.subset hs))
    have ⟨hleft, hissued, htally⟩ :=
      split.complete parts carries ((started.map Prod.fst).trans hcommands) consumed
    -- Each command was taken with its stream, so no stream is left.
    have hlength : (streamsOf engine session cs₁ cs₂ cs).length ≤ ss.length := by
      have := hcommands.length_le
      have := congrArg List.length hissued
      have := parts.length_eq
      simp only [List.length_map] at *
      omega
    obtain rfl := started.eq_of_length_le hlength
    exact ⟨hleft ▸ split, route, parts, hissued, htally⟩

-- A session of which all bytes are requested is announced one payload for the transmit test, which
-- is a record and some padding. When all of the payload was taken, the record was found, and each
-- further request that it took to get the payload led to another record, or to a chunk that was
-- reported to have none. So the record is all there is if the buffer had room for the whole payload
-- when it was requested first, and only then.
theorem one_record_iff {a : Notification} {record : ControlRecord} {padding : List UInt8}
    (hc : create c = .ok x₀) (small : c.inputBufferChunks < 2 ^ 29)
    (run₁ : Run tick (serving engine) x₀ cs₁ x₁)
    (run₂ : Run tick ((serving engine).after cs₁) x₁ cs₂ x₂)
    (run₃ : Run tick ((serving engine).after (cs₁ ++ cs₂)) x₂ cs₃ x₃)
    (whole : cs = cs₁ ++ cs₂ ++ cs₃) (clear : x₁.net.interrupts.table.bytes session = 0)
    (announced : Frame.postedFor session (turns cs₂) = [a])
    (route : c.routes.lookup a.localPort = .generate)
    (payload : ((streamsOf engine session cs₁ cs₂ cs).flatMap Prod.snd).flatMap Chunk.bytes =
      (record.toChunk true).data ++ padding)
    (consumed : ((receiptsOf session cs₁ cs₂ cs).map Receipt.tally).sum = a.length.toNat) :
    Frame.handed (marked cs) = (Frame.receipts (marked cs)).filterMap Receipt.record? ∧
    (faults cs).filterMap Fault.malformed? =
      (Frame.receipts (marked cs)).filterMap Receipt.malformed? ∧
    Split a.length.toNat (Frame.takenFor session (turns cs₂)) 0 ∧
    (receiptsOf session cs₁ cs₂ cs).map Receipt.command =
      (Frame.takenFor session (turns cs₂)).map Prod.fst ∧
    ((receiptsOf session cs₁ cs₂ cs).filterMap Receipt.record?).head? = some (true, record) ∧
    ((receiptsOf session cs₁ cs₂ cs).filterMap Receipt.record?).length +
        ((receiptsOf session cs₁ cs₂ cs).filterMap Receipt.malformed?).length =
      (receiptsOf session cs₁ cs₂ cs).length ∧
    ((receiptsOf session cs₁ cs₂ cs).filterMap Receipt.record? = [(true, record)] ∧
        (receiptsOf session cs₁ cs₂ cs).filterMap Receipt.malformed? = [] ↔
      ∃ piece ∈ (Frame.takenFor session (turns cs₂)).head?,
        a.length.toNat ≤ piece.2 * Chunk.width) := by
  have run : Run tick (serving engine) x₀ cs x₃ := whole ▸ (run₁.append run₂).append run₃
  have ⟨accounted, _⟩ := conserved_of_run hc run.forget
  have hfaults := accounted.malformed
  rw [marked_map_snd, ← faults_eq_of_run run] at hfaults
  have ⟨split, routes, parts, issued, tally⟩ :=
    parts_of_payload hc small run₁ run₂ run whole clear announced consumed
  have carries : ∀ s ∈ streamsOf engine session cs₁ cs₂ cs, Carries s.1.length.toNat s.2 :=
    fun s hs =>
      Engine.streams_carries (underway_of_run hc run).served.nonempty s (mem_of_mem_ofSession hs)
  have enabled : ∀ r ∈ receiptsOf session cs₁ cs₂ cs, r.Enabled := fun r hr =>
    Frame.enabled_receipts (marked_enabled run) r (mem_of_mem_ofSession hr)
  exact ⟨accounted.handed, hfaults, split, issued, split.records parts carries issued tally enabled
    (fun p hp => (routes p hp).trans route) payload⟩

theorem bytes_of_create (hc : create c = .ok x₀) (session : SessionId) :
    x₀.net.interrupts.table.bytes session = 0 := by
  have ⟨hx, _⟩ := Network.create_ok (network_of_create hc)
  have balanced := (Interrupts.Inv.start hx).balanced fun _ h => absurd h List.not_mem_nil
  have : 0 = x₀.net.interrupts.table.bytes session + 0 := balanced.bytes session
  omega

def zeros : Notification :=
  ⟨0, 16, 0, 0, ListenPort.transmitTest⟩

def zeroChunk (last : Bool) : Chunk :=
  .ofBytes (List.replicate 8 0) last

-- There is room for both chunks, and they are requested at once.
theorem exists_run_of_room :
    ∃ x₀ cs x, create { small with inputBufferChunks := 3 } = .ok x₀ ∧
      Run tick (serving .zeros) x₀ cs x ∧ Frame.postedFor 0 (turns cs) = [zeros] ∧
      ((streamsOf .zeros 0 [] cs cs).flatMap Prod.snd).flatMap Chunk.bytes =
        (ControlRecord.toChunk ⟨⟨0, 0⟩, 0⟩ true).data ++ List.replicate 8 0 ∧
      ((receiptsOf 0 [] cs cs).map Receipt.tally).sum = zeros.length.toNat ∧
      (Frame.takenFor 0 (turns cs)).head? = some (⟨0, 16, .generate⟩, 2) :=
  Run.exists_of_create
    (arrivals [([zeros], [], []), ([], [], []), ([], [], []), ([], [], []), ([], [], []),
      ([], [], []), ([], [zeroChunk false], [0]), ([], [zeroChunk true], []), ([], [], []),
      ([], [], []), ([], [], []), ([], [], [])])
    (by decide +kernel)

theorem one_record_of_room :
    ∃ x₀ cs x, create { small with inputBufferChunks := 3 } = .ok x₀ ∧
      Run tick (serving .zeros) x₀ cs x ∧ Frame.postedFor 0 (turns cs) = [zeros] ∧
      (receiptsOf 0 [] cs cs).filterMap Receipt.record? = [(true, ⟨⟨0, 0⟩, 0⟩)] ∧
      (receiptsOf 0 [] cs cs).filterMap Receipt.malformed? = [] := by
  have ⟨x₀, cs, x, hc, run, announced, payload, consumed, hp⟩ := exists_run_of_room
  have run₁ : Run tick (serving .zeros) x₀ [] x₀ := .start
  have run₃ : Run tick ((serving .zeros).after ([] ++ cs)) x [] x := .start
  have ⟨_, _, _, _, _, _, one⟩ := one_record_iff hc (by decide) run₁ run run₃ (by simp)
    (bytes_of_create hc 0) announced (by decide) payload consumed
  have ⟨records, malformed⟩ := one.mpr ⟨_, hp, by decide⟩
  exact ⟨x₀, cs, x, hc, run, announced, records, malformed⟩

-- There is room for one chunk only, so the second one comes in a stream of its own.
theorem exists_run_of_shortage :
    ∃ x₀ cs x, create small = .ok x₀ ∧
      Run tick (serving .zeros) x₀ cs x ∧ Frame.postedFor 0 (turns cs) = [zeros] ∧
      ((streamsOf .zeros 0 [] cs cs).flatMap Prod.snd).flatMap Chunk.bytes =
        (ControlRecord.toChunk ⟨⟨0, 0⟩, 0⟩ true).data ++ List.replicate 8 0 ∧
      ((receiptsOf 0 [] cs cs).map Receipt.tally).sum = zeros.length.toNat ∧
      (receiptsOf 0 [] cs cs).filterMap Receipt.record? =
        [(true, ⟨⟨0, 0⟩, 0⟩), (true, ⟨⟨0, 0⟩, 0⟩)] :=
  Run.exists_of_create
    (arrivals [([zeros], [], []), ([], [], []), ([], [], []), ([], [], []), ([], [], []),
      ([], [], []), ([], [zeroChunk true], [0]), ([], [], []), ([], [], []), ([], [], []),
      ([], [], []), ([], [], []), ([], [], []), ([], [], []), ([], [zeroChunk true], [0]),
      ([], [], []), ([], [], []), ([], [], [])])
    (by decide +kernel)

-- So the padding of a payload may be taken for a record.
theorem padding_read_as_record :
    ¬ ∀ (c : Config) (engine : Engine) (session : SessionId) (a : Notification)
      (record : ControlRecord) (padding : List UInt8) x₀ x₁ x₂ x₃ cs₁ cs₂ cs₃ cs,
      create c = .ok x₀ → c.inputBufferChunks < 2 ^ 29 → Run tick (serving engine) x₀ cs₁ x₁ →
      Run tick ((serving engine).after cs₁) x₁ cs₂ x₂ →
      Run tick ((serving engine).after (cs₁ ++ cs₂)) x₂ cs₃ x₃ → cs = cs₁ ++ cs₂ ++ cs₃ →
      x₁.net.interrupts.table.bytes session = 0 → Frame.postedFor session (turns cs₂) = [a] →
      c.routes.lookup a.localPort = .generate →
      ((streamsOf engine session cs₁ cs₂ cs).flatMap Prod.snd).flatMap Chunk.bytes =
        (record.toChunk true).data ++ padding →
      ((receiptsOf session cs₁ cs₂ cs).map Receipt.tally).sum = a.length.toNat →
      (receiptsOf session cs₁ cs₂ cs).filterMap Receipt.record? = [(true, record)] ∧
        (receiptsOf session cs₁ cs₂ cs).filterMap Receipt.malformed? = [] := by
  intro h
  have ⟨x₀, cs, x, hc, run, announced, payload, consumed, records⟩ := exists_run_of_shortage
  have ⟨one, _⟩ := h small .zeros 0 zeros ⟨⟨0, 0⟩, 0⟩ (List.replicate 8 0) x₀ x₀ x x [] cs [] cs hc
    (by decide) .start run .start (by simp) (bytes_of_create hc 0) announced (by decide) payload
    consumed
  rw [one] at records
  cases records

end Interface

end ShellInterface.Tcp
