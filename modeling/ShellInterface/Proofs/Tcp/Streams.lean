import ShellInterface.Chunk.Splice
import ShellInterface.Proofs.Occupancy
import ShellInterface.Proofs.Run
import ShellInterface.Proofs.Tcp.Receiver

namespace ShellInterface

def Fault.misfit : Fault → Bool
  | .sessionMismatch ..      => true
  | .streamLengthMismatch .. => true
  | .inputBuffer ..          => true
  | _                        => false

def Fits (ns : List Note) : Prop :=
  ∀ f ∈ ns.filterMap Note.fault?, f.misfit = false

namespace Tcp

-- The chunks that so many bytes come in: only the last one has the end mark, and all others are
-- full.
inductive Carries : Nat → List Chunk → Prop
  | last {n c} (pos : 0 < n) (le : n ≤ Chunk.width) (length : c.length = n) (last : c.last = true) :
      Carries n [c]
  | more {n c cs} (length : c.length = Chunk.width) (last : c.last = false) (rest : Carries n cs) :
      Carries (n + Chunk.width) (c :: cs)

inductive Ended : List Chunk → Prop
  | last {c} (last : c.last = true) : Ended [c]
  | more {c cs} (last : c.last = false) (rest : Ended cs) : Ended (c :: cs)

theorem Carries.ended {n : Nat} {cs : List Chunk} (h : Carries n cs) : Ended cs := by
  induction h
  case last last        => exact .last last
  case more last _ rest => exact .more last rest

theorem Carries.length_eq {n : Nat} {cs : List Chunk} (h : Carries n cs) : cs.length = slots n := by
  unfold slots
  induction h
  case last pos le _ _ =>
    simp [Chunk.width] at *
    omega
  case more ih =>
    simp [Chunk.width, ih]
    omega

theorem Carries.splice {bytes : List UInt8} (h : bytes ≠ []) :
    Carries bytes.length (Chunk.splice bytes) := by
  induction hn : bytes.length using Nat.strongRecOn generalizing bytes
  case ind n ih =>
    have hpos := List.length_pos_iff.mpr h
    have hdrop : (bytes.drop Chunk.width).length = n - Chunk.width := by rw [List.length_drop, hn]
    rw [Chunk.splice_of_ne_nil h]
    by_cases hr : bytes.drop Chunk.width = []
    case pos =>
      have hle : n ≤ Chunk.width := hn ▸ List.drop_eq_nil_iff.mp hr
      rw [hr, Chunk.splice_nil]
      exact .last (hn ▸ hpos) hle (by rw [Chunk.length_ofBytes]; omega) rfl
    case neg =>
      have hlt : Chunk.width < n := hn ▸ Nat.lt_of_not_le fun h => hr (List.drop_eq_nil_iff.mpr h)
      have rest := ih (n - Chunk.width) (by simp only [Chunk.width] at *; omega) hr hdrop
      have more := Carries.more (c := Chunk.ofBytes bytes (bytes.drop Chunk.width).isEmpty)
        (by rw [Chunk.length_ofBytes]; omega) (by simpa [Chunk.last_ofBytes] using hr) rest
      rwa [Nat.sub_add_cancel (Nat.le_of_lt hlt)] at more

abbrev Stream := ForwardCommand × List Chunk

inductive Delivery
  | header (session : SessionId) (length : UInt16)
  | chunk (chunk : Chunk)
deriving DecidableEq, Repr

def Delivery.session? : Delivery → Option SessionId
  | header session _ => some session
  | chunk _          => none

def Delivery.length? : Delivery → Option UInt16
  | header _ length => some length
  | chunk _         => none

def Delivery.chunk? : Delivery → Option Chunk
  | header _ _ => none
  | chunk c    => some c

def deliver (s : Stream) : List Delivery :=
  match s.1.route.action with
  | .keep => .header s.1.session s.1.length :: s.2.map .chunk
  | .drop => []

theorem deliver_append (cmd : ForwardCommand) (cs ds : List Chunk) :
    deliver (cmd, cs ++ ds) = deliver (cmd, cs) ++
      if cmd.route.action = .keep then ds.map .chunk else [] := by
  cases h : cmd.route.action <;> simp [deliver, h]

def tagged (s : Stream) : List (ForwardCommand × Chunk) :=
  s.2.map (s.1, ·)

theorem tagged_map_snd (s : Stream) : (tagged s).map Prod.snd = s.2 := by
  simp [tagged, Function.comp_def]

theorem deliver_chunks (s : Stream) : (deliver s).filterMap Delivery.chunk? =
    ((tagged s).filter (·.1.route.action = .keep)).map Prod.snd := by
  cases h : s.1.route.action
  case keep =>
    simp [deliver, tagged, h, List.filterMap_cons, Function.comp_def, Delivery.chunk?,
      List.filter_eq_self.mpr]
  case drop => simp [deliver, tagged, h]

namespace Receiver

def Taking (cmd : ForwardCommand) (phase : Phase) : Prop :=
  match cmd.route.action with
  | .keep => phase = .forwardData
  | .drop => phase = .sinkData ∨ phase = .extractRecord

-- Where a receiver stands in the stream in hand: what it has taken of the sessions and of the
-- chunks for it, and what the application got of it.
inductive Position : Receiver → List Stream → List SessionId → List Chunk → List Delivery → Prop
  | idle {tally} : Position ⟨.idle, none, tally⟩ [] [] [] []
  | header {cmd chunks} : Position ⟨header cmd, some cmd, 0⟩ [(cmd, chunks)] [] [] []
  | chunks {cmd left phase tally rest} (taken) (taking : Taking cmd phase)
      (total : tally + rest = cmd.length.toNat) (carries : Carries rest left) :
      Position ⟨phase, some cmd, tally⟩ [(cmd, taken ++ left)] [cmd.session] taken
        (deliver (cmd, taken))

-- The streams that a receiver is through with, that in hand, and those that wait, against all
-- streams, what was read and what was delivered in all, and what waits on each of the three ways.
inductive Aligned (streams : List Stream) (sessions : List SessionId) (chunks : List Chunk)
    (delivered : List Delivery) (r : Receiver) (commands : List ForwardCommand)
    (headers : List SessionId) (buffer : List Chunk) : Prop
  | intro {hand session taken part} (done queue : List Stream)
      (position : Position r hand session taken part)
      (streams_eq : streams = done ++ hand ++ queue)
      (commands_eq : commands = queue.map Prod.fst)
      (sessions_eq : sessions = done.map (·.1.session) ++ session ++ headers)
      (chunks_eq : chunks = done.flatMap Prod.snd ++ taken ++ buffer)
      (delivered_eq : delivered = done.flatMap deliver ++ part)

def deliveries (l l' : Links) : List Delivery :=
  List.zipWith .header (l.appSessions.added l'.appSessions) (l.appLengths.added l'.appLengths) ++
    (l.appData.added l'.appData).map .chunk

variable {streams : List Stream} {sessions : List SessionId} {chunks : List Chunk}
  {delivered : List Delivery} {r r' : Receiver} {commands : List ForwardCommand}
  {headers : List SessionId} {buffer : List Chunk} {cmd : ForwardCommand} {ns : List Note}

theorem Advance.position {taken left : List Chunk} {chunk : Chunk}
    {phase next : Phase} {tally rest : Nat} (h : Advance ⟨phase, some cmd, tally⟩ chunk next ns r')
    (total : tally + rest = cmd.length.toNat) (carries : Carries rest (chunk :: left))
    (taking : Taking cmd next) :
    ns = [] ∧ (left = [] ∧ r' = ⟨.idle, none, tally + chunk.length⟩ ∨
      Position r' [(cmd, taken ++ chunk :: left)] [cmd.session] (taken ++ [chunk])
        (deliver (cmd, taken ++ [chunk]))) := by
  cases carries
  case last _ _ ht hl =>
    cases h
    case more last         => simp [ht] at last
    case finish            => exact ⟨rfl, .inl ⟨rfl, rfl⟩⟩
    case mismatch hand hne =>
      cases hand
      exact absurd total (hl ▸ hne)
  case more n hl hf carries =>
    cases h
    case more =>
      rw [List.append_cons]
      exact ⟨rfl, .inr (.chunks _ taking (by simp; omega) carries)⟩
    case finish last _ _   => simp [hf] at last
    case mismatch last _ _ => simp [hf] at last

theorem head_eq_of_prefix {done taken left rest later : List Chunk} {chunk : Chunk} {n : Nat}
    (carries : Carries n left)
    (h : done ++ taken ++ chunk :: rest <+: done ++ (taken ++ left ++ later)) :
    ∃ left', left = chunk :: left' := by
  rw [List.append_assoc, List.append_assoc, List.prefix_append_right_inj,
    List.prefix_append_right_inj] at h
  cases carries
  all_goals
    obtain ⟨rfl, _⟩ := List.cons_prefix_cons.mp h
    exact ⟨_, rfl⟩

inductive Takes (chunk : Chunk) : Phase → Phase → List Chunk → Prop
  | forward : Takes chunk .forwardData .forwardData [chunk]
  | sink : Takes chunk .sinkData .sinkData []
  | extract : Takes chunk .extractRecord .sinkData []

theorem Takes.phase_ne_header {chunk : Chunk} {phase next : Phase}
    {out : List Chunk} (h : Takes chunk phase next out) : phase ≠ header cmd := by
  unfold header
  cases h <;> split <;> nofun

theorem Takes.taking {cmd : ForwardCommand} {chunk : Chunk} {phase next : Phase}
    {out : List Chunk} (h : Takes chunk phase next out) (taking : Taking cmd phase) :
    Taking cmd next ∧
      out.map Delivery.chunk = if cmd.route.action = .keep then [.chunk chunk] else [] := by
  unfold Taking at *
  cases h <;> cases ha : cmd.route.action <;> simp_all

theorem Aligned.take {next : Phase} {chunk : Chunk} {out : List Chunk}
    (h : Aligned streams sessions chunks delivered r commands headers (chunk :: buffer))
    (takes : Takes chunk r.phase next out) (hd : chunks <+: streams.flatMap Prod.snd)
    (advance : Advance r chunk next ns r') :
    ns = [] ∧ Aligned streams sessions chunks (delivered ++ out.map .chunk) r' commands headers
      buffer := by
  obtain @⟨hand, session, taken, part, done, queue, position, streams_eq, commands_eq,
    sessions_eq, chunks_eq, delivered_eq⟩ := h
  cases position
  case idle   => cases takes
  case header => exact absurd rfl takes.phase_ne_header
  case chunks cmd left phase tally _ taking total carries =>
    have hd : done.flatMap Prod.snd ++ taken ++ chunk :: buffer <+:
        done.flatMap Prod.snd ++ (taken ++ left ++ queue.flatMap Prod.snd) := by
      simpa [chunks_eq, streams_eq] using hd
    obtain ⟨left', rfl⟩ := head_eq_of_prefix carries hd
    have ⟨taking, hout⟩ := takes.taking taking
    have hdeliver : deliver (cmd, taken ++ [chunk]) = deliver (cmd, taken) ++ out.map .chunk := by
      rw [deliver_append, hout]
      rfl
    obtain ⟨rfl, ⟨rfl, rfl⟩ | position⟩ := advance.position total carries taking
    case inl =>
      refine ⟨rfl, .intro (done ++ [(cmd, taken ++ [chunk])]) queue .idle ?_ commands_eq ?_ ?_ ?_⟩
      · simp [streams_eq]
      · simp [sessions_eq]
      · simp [chunks_eq]
      · simp [delivered_eq, hdeliver]
    case inr =>
      refine ⟨rfl, .intro done queue position streams_eq commands_eq sessions_eq ?_ ?_⟩
      · simp [chunks_eq]
      · simp [delivered_eq, hdeliver]

theorem taking_forwardData (h : header cmd = .forwardHeader) :
    Taking cmd .forwardData ∧ deliver (cmd, []) = [.header cmd.session cmd.length] := by
  cases ha : cmd.route.action <;> simp_all [header, Taking, deliver]

theorem taking_sink (h : header cmd = .sinkHeader) :
    Taking cmd (sink cmd) ∧ deliver (cmd, []) = [] := by
  cases ha : cmd.route.action <;> cases hd : cmd.route.dropCode <;>
    simp_all [header, Taking, deliver, sink]

theorem header_ne_idle (cmd : ForwardCommand) : Receiver.header cmd ≠ .idle := by
  unfold Receiver.header
  split <;> nofun

theorem Taking.phase_ne {phase : Phase} (h : Taking cmd phase) :
    phase ≠ .idle ∧ phase ≠ .forwardHeader ∧ phase ≠ .sinkHeader := by
  unfold Taking at h
  split at h
  case h_1 => simp [h]
  case h_2 => obtain rfl | rfl := h <;> simp

theorem Position.of_idle {hand : List Stream} {session : List SessionId} {taken : List Chunk}
    {part : List Delivery} (h : Position r hand session taken part) (hp : r.phase = .idle) :
    hand = [] ∧ session = [] ∧ taken = [] ∧ part = [] := by
  cases h
  case idle                 => exact ⟨rfl, rfl, rfl, rfl⟩
  case header               => exact absurd hp (header_ne_idle _)
  case chunks taking _ _    => exact absurd hp taking.phase_ne.left

theorem Position.of_header {hand : List Stream} {session : List SessionId} {taken : List Chunk}
    {part : List Delivery} {cmd : ForwardCommand} (h : Position r hand session taken part)
    (hp : r.phase = .forwardHeader ∨ r.phase = .sinkHeader) (hc : r.command = some cmd) :
    r = ⟨Receiver.header cmd, some cmd, 0⟩ ∧ session = [] ∧ taken = [] ∧ part = [] ∧
      ∃ chunks, hand = [(cmd, chunks)] := by
  cases h
  case idle => cases hc
  case header =>
    cases hc
    exact ⟨rfl, rfl, rfl, rfl, _, rfl⟩
  case chunks taking _ _ =>
    have ⟨_, hf, hs⟩ := taking.phase_ne
    obtain hp | hp := hp
    case inl => exact absurd hp hf
    case inr => exact absurd hp hs

theorem Aligned.session_eq {session : SessionId}
    (h : Aligned streams sessions chunks delivered r commands (session :: headers) buffer)
    (hs : sessions <+: streams.map (·.1.session))
    (hp : r.phase = .forwardHeader ∨ r.phase = .sinkHeader) (hc : r.command = some cmd) :
    session = cmd.session := by
  obtain ⟨done, queue, position, streams_eq, _, sessions_eq, _, _⟩ := h
  obtain ⟨_, rfl, rfl, rfl, chunks, rfl⟩ := position.of_header hp hc
  rw [sessions_eq, streams_eq] at hs
  simp only [List.map_append, List.append_assoc, List.nil_append, List.prefix_append_right_inj,
    List.map_cons, List.singleton_append, List.cons_prefix_cons] at hs
  exact hs.left

theorem Aligned.takeHeader {phase : Phase}
    (h : Aligned streams sessions chunks delivered r commands (cmd.session :: headers) buffer)
    (wellFormed : ∀ s ∈ streams, Carries s.1.length.toNat s.2)
    (hp : r.phase = .forwardHeader ∨ r.phase = .sinkHeader) (hc : r.command = some cmd)
    (taking : Receiver.header cmd = r.phase → Taking cmd phase) :
    Receiver.header cmd = r.phase ∧
      Aligned streams sessions chunks (delivered ++ deliver (cmd, [])) { r with phase } commands
        headers buffer := by
  obtain @⟨_, _, _, _, done, queue, position, streams_eq, commands_eq, sessions_eq, chunks_eq,
    delivered_eq⟩ := h
  obtain ⟨rfl, rfl, rfl, rfl, left, rfl⟩ := position.of_header hp hc
  have carries : Carries cmd.length.toNat left := wellFormed (cmd, left) (by simp [streams_eq])
  have position : Position ⟨phase, some cmd, 0⟩ [(cmd, left)] [cmd.session] []
      (deliver (cmd, [])) := .chunks [] (taking rfl) (Nat.zero_add _) carries
  refine ⟨rfl, .intro done queue position streams_eq commands_eq ?_ chunks_eq ?_⟩
  · simp [sessions_eq]
  · simp [delivered_eq]

theorem Aligned.initial : Aligned [] [] [] [] .start [] [] [] :=
  .intro [] [] .idle rfl rfl rfl rfl rfl

theorem Aligned.start
    (h : Aligned streams sessions chunks delivered r (cmd :: commands) headers buffer)
    (hp : r.phase = .idle) :
    Aligned streams sessions chunks delivered ⟨Receiver.header cmd, some cmd, 0⟩ commands headers
      buffer := by
  obtain @⟨_, _, _, _, done, queue, position, streams_eq, commands_eq, sessions_eq, chunks_eq,
    delivered_eq⟩ := h
  obtain ⟨rfl, rfl, rfl, rfl⟩ := position.of_idle hp
  obtain ⟨⟨_, left⟩, queue, rfl, rfl, rfl⟩ := List.map_eq_cons_iff.mp commands_eq.symm
  exact .intro done queue .header (by simpa using streams_eq) rfl sessions_eq chunks_eq delivered_eq

theorem Aligned.receive {l l' : Links}
    (h : Aligned streams sessions chunks delivered r l.commands.items l.sessions.items l.data.items)
    (wellFormed : ∀ s ∈ streams, Carries s.1.length.toNat s.2)
    (hs : sessions <+: streams.map (·.1.session)) (hd : chunks <+: streams.flatMap Prod.snd)
    (step : Step true r l ns r' l') :
    Fits ns ∧ Aligned streams sessions chunks (delivered ++ deliveries l l') r' l'.commands.items
      l'.sessions.items l'.data.items := by
  cases step
  case stall => simpa [deliveries, Fits] using h
  case start hp read gate =>
    cases gate
    rw [read] at h
    simpa [deliveries, Fits, read] using h.start hp
  case forwardHeader hp hc read session length =>
    rw [read] at h
    have ⟨he, h⟩ := h.takeHeader wellFormed (.inl hp) hc
      fun h => (taking_forwardData (h.trans hp)).left
    rw [(taking_forwardData (he.trans hp)).right] at h
    simpa [deliveries, Fits, Note.fault?, read, Fifo.added_of_write session,
      Fifo.added_of_write length] using h
  case sinkHeader hp hc read =>
    rw [read] at h
    have ⟨he, h⟩ := h.takeHeader wellFormed (.inr hp) hc fun h => (taking_sink (h.trans hp)).left
    rw [(taking_sink (he.trans hp)).right] at h
    simpa [deliveries, Fits, read] using h
  case mismatch hp hc read hne =>
    rw [read] at h
    exact absurd (h.session_eq hs hp hc) hne
  case forwardData chunk _ _ _ _ hp read _ write advance =>
    rw [read] at h
    obtain ⟨rfl, h⟩ := h.take (by rw [hp]; exact .forward) hd advance
    refine ⟨?_, by simpa [deliveries, read, Fifo.added_of_write write] using h⟩
    cases hl : chunk.last <;> simp [Fits, Note.fault?, Fault.misfit]
  case sinkData hp read _ advance =>
    rw [read] at h
    obtain ⟨rfl, h⟩ := h.take (by rw [hp]; exact .sink) hd advance
    simpa [deliveries, Fits, Note.fault?, Fault.misfit, read] using h
  case extractRecord hp read _ _ _ advance =>
    rw [read] at h
    obtain ⟨rfl, h⟩ := h.take (by rw [hp]; exact .extract) hd advance
    simpa [deliveries, Fits, Note.fault?, Fault.misfit, read] using h
  case malformedRecord hp read _ _ advance =>
    rw [read] at h
    obtain ⟨rfl, h⟩ := h.take (by rw [hp]; exact .extract) hd advance
    simpa [deliveries, Fits, Note.fault?, Fault.misfit, read] using h

theorem Aligned.issue (h : Aligned streams sessions chunks delivered r commands headers buffer)
    (issued : List Stream) :
    Aligned (streams ++ issued) sessions chunks delivered r (commands ++ issued.map Prod.fst)
      headers buffer := by
  obtain @⟨hand, _, _, _, done, queue, position, streams_eq, commands_eq, sessions_eq, chunks_eq,
    delivered_eq⟩ := h
  refine .intro done (queue ++ issued) position ?_ ?_ sessions_eq chunks_eq delivered_eq
  · simp [streams_eq]
  · simp [commands_eq]

theorem Aligned.arrive (h : Aligned streams sessions chunks delivered r commands headers buffer)
    (session : List SessionId) (chunk : List Chunk) :
    Aligned streams (sessions ++ session) (chunks ++ chunk) delivered r commands
      (headers ++ session) (buffer ++ chunk) := by
  obtain ⟨done, queue, position, streams_eq, commands_eq, sessions_eq, chunks_eq, delivered_eq⟩ := h
  refine .intro done queue position streams_eq commands_eq ?_ ?_ delivered_eq
  · simp [sessions_eq]
  · simp [chunks_eq]

-- The application has got the first deliveries of the streams whose session has arrived.
theorem Aligned.delivered_prefix
    (h : Aligned streams sessions chunks delivered r commands headers buffer) :
    delivered <+: (streams.take sessions.length).flatMap deliver := by
  obtain @⟨hand, session, taken, part, done, queue, position, rfl, _, rfl, _, rfl⟩ := h
  have hpart : part <+: (hand.take session.length).flatMap deliver := by
    cases position
    case chunks => simp [deliver_append]
    all_goals simp
  have ⟨rest, hstarted⟩ : done ++ hand.take session.length <+:
      (done ++ hand ++ queue).take (done.map (·.1.session) ++ session ++ headers).length := by
    rw [List.append_assoc done, List.prefix_take_iff, List.prefix_append_right_inj]
    have hle := List.length_take_le session.length hand
    refine ⟨(List.take_prefix _ _).trans (List.prefix_append _ _), ?_⟩
    simp only [List.length_append, List.length_map]
    omega
  rw [← hstarted, List.flatMap_append, List.flatMap_append, List.append_assoc,
    List.prefix_append_right_inj]
  exact hpart.trans (List.prefix_append _ _)

-- The chunks that were read have been taken or wait in the buffer, and those of the kept streams
-- among the taken ones were delivered.
theorem Aligned.exists_taken
    (h : Aligned streams sessions chunks delivered r commands headers buffer) :
    ∃ taken, taken <+: streams.flatMap tagged ∧ chunks = taken.map Prod.snd ++ buffer ∧
      delivered.filterMap Delivery.chunk? =
        (taken.filter (·.1.route.action = .keep)).map Prod.snd := by
  obtain @⟨hand, _, taken, part, done, queue, position, rfl, _, _, rfl, rfl⟩ := h
  have ⟨tag, hprefix, htaken, hpart⟩ : ∃ tag, tag <+: hand.flatMap tagged ∧
      tag.map Prod.snd = taken ∧
      part.filterMap Delivery.chunk? = (tag.filter (·.1.route.action = .keep)).map Prod.snd := by
    cases position
    case chunks cmd _ _ _ _ _ _ _ _ =>
      exact ⟨tagged (cmd, taken), by simp [tagged], tagged_map_snd _, deliver_chunks _⟩
    all_goals exact ⟨[], by simp⟩
  refine ⟨done.flatMap tagged ++ tag, ?_, ?_, ?_⟩
  · rw [List.flatMap_append, List.flatMap_append, List.append_assoc, List.prefix_append_right_inj]
    exact hprefix.trans (List.prefix_append _ _)
  · simp [htaken, List.map_flatMap, tagged_map_snd]
  · simp [hpart, List.filterMap_flatMap, List.filter_flatMap, List.map_flatMap, deliver_chunks]

theorem Step.deliveries_eq {enable : Bool} {l l' : Links} (h : Step enable r l ns r' l') :
    (deliveries l l').filterMap Delivery.session? = l.appSessions.added l'.appSessions ∧
    (deliveries l l').filterMap Delivery.length? = l.appLengths.added l'.appLengths ∧
    (deliveries l l').filterMap Delivery.chunk? = l.appData.added l'.appData := by
  cases h
  case forwardHeader session length =>
    simp [deliveries, Fifo.added_of_write session, Fifo.added_of_write length, Delivery.session?,
      Delivery.length?, Delivery.chunk?]
  case forwardData write _ =>
    simp [deliveries, Fifo.added_of_write write, Delivery.session?, Delivery.length?,
      Delivery.chunk?]
  all_goals simp [deliveries]

end Receiver

end Tcp

end ShellInterface
