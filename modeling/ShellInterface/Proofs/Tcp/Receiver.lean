import ShellInterface.Tcp.Receiver

namespace ShellInterface.Tcp.Receiver

inductive Advance (r : Receiver) (chunk : Chunk) (next : Phase) : List Note → Receiver → Prop
  | more (last : chunk.last = false) :
      Advance r chunk next [] { r with tally := r.tally + chunk.length, phase := next }
  | finish {cmd} (last : chunk.last = true) (hand : r.command = some cmd)
      (exact : r.tally + chunk.length = cmd.length.toNat) :
      Advance r chunk next [] ⟨.idle, none, r.tally + chunk.length⟩
  | mismatch {cmd} (last : chunk.last = true) (hand : r.command = some cmd)
      (inexact : r.tally + chunk.length ≠ cmd.length.toNat) :
      Advance r chunk next
        [.fault origin (.streamLengthMismatch cmd.session cmd.length (r.tally + chunk.length))]
        ⟨.idle, none, r.tally + chunk.length⟩

def header (cmd : ForwardCommand) : Phase :=
  match cmd.route.action with
  | .keep => .forwardHeader
  | .drop => .sinkHeader

def sink (cmd : ForwardCommand) : Phase :=
  match cmd.route.dropCode with
  | .nop => .sinkData
  | .gen => .extractRecord

inductive Step (enable : Bool) (r : Receiver) (l : Links) : List Note → Receiver → Links → Prop
  | stall : Step enable r l [] r l
  | start {cmd rest ns gated} (phase : r.phase = .idle) (read : l.commands.items = cmd :: rest)
      (gate : gate cmd enable = ⟨ns, .ok gated⟩) :
      Step enable r l ns ⟨header gated, some gated, 0⟩ { l with commands := l.commands.tail }
  | forwardHeader {cmd rest appSessions appLengths} (phase : r.phase = .forwardHeader)
      (hand : r.command = some cmd) (read : l.sessions.items = cmd.session :: rest)
      (session : l.appSessions.write cmd.session = .ok appSessions)
      (length : l.appLengths.write cmd.length = .ok appLengths) :
      Step enable r l [.remark origin (.forwarding cmd.session cmd.length)]
        { r with phase := .forwardData }
        { l with sessions := l.sessions.tail, appSessions, appLengths }
  | sinkHeader {cmd rest} (phase : r.phase = .sinkHeader) (hand : r.command = some cmd)
      (read : l.sessions.items = cmd.session :: rest) :
      Step enable r l [] { r with phase := sink cmd } { l with sessions := l.sessions.tail }
  | mismatch {cmd session rest} (phase : r.phase = .forwardHeader ∨ r.phase = .sinkHeader)
      (hand : r.command = some cmd) (read : l.sessions.items = session :: rest)
      (ne : session ≠ cmd.session) :
      Step enable r l [.fault origin (.sessionMismatch cmd.session session)]
        { r with phase := .sinkData } { l with sessions := l.sessions.tail }
  | forwardData {chunk rest dequeued appData ns r'} (phase : r.phase = .forwardData)
      (read : l.data.items = chunk :: rest) (signal : l.dequeued.write () = .ok dequeued)
      (write : l.appData.write chunk = .ok appData)
      (advance : Advance r chunk .forwardData ns r') :
      Step enable r l
        (.count .forwardedChunks 1 ::
          (if chunk.last then [.count .forwardedStreams 1] else []) ++ ns)
        r' { l with data := l.data.tail, dequeued, appData }
  | sinkData {chunk rest dequeued ns r'} (phase : r.phase = .sinkData)
      (read : l.data.items = chunk :: rest) (signal : l.dequeued.write () = .ok dequeued)
      (advance : Advance r chunk .sinkData ns r') :
      Step enable r l (.count .droppedChunks 1 :: ns) r'
        { l with data := l.data.tail, dequeued }
  | extractRecord {chunk rest dequeued ns r' record records} (phase : r.phase = .extractRecord)
      (read : l.data.items = chunk :: rest) (signal : l.dequeued.write () = .ok dequeued)
      (wellFormed : ControlRecord.ofChunk? chunk = some record)
      (write : l.records.write record = .ok records) (advance : Advance r chunk .sinkData ns r') :
      Step enable r l
        ([.count .droppedChunks 1, .remark origin (.recordFound record), .count .controlRecords 1]
          ++ ns)
        r' { l with data := l.data.tail, dequeued, records }
  | malformedRecord {chunk rest dequeued ns r'} (phase : r.phase = .extractRecord)
      (read : l.data.items = chunk :: rest) (signal : l.dequeued.write () = .ok dequeued)
      (malformed : ControlRecord.ofChunk? chunk = none)
      (advance : Advance r chunk .sinkData ns r') :
      Step enable r l
        ([.count .droppedChunks 1, .fault origin (.malformedRecord chunk.length)] ++ ns) r'
        { l with data := l.data.tail, dequeued }

variable {r r' : Receiver} {l l' : Links} {enable : Bool} {ns : List Note} {chunk : Chunk}

theorem current_eq_ok_iff {cmd : ForwardCommand} :
    r.current = .ok cmd ↔ r.command = some cmd := by
  unfold current
  cases r.command <;> simp

theorem consume_eq_ok (h : r.consume l = ⟨ns, .ok (chunk, r', l')⟩) :
    ∃ rest dequeued, l.data.items = chunk :: rest ∧ l.dequeued.write () = .ok dequeued ∧
      r' = { r with tally := r.tally + chunk.length } ∧
      l' = { l with data := l.data.tail, dequeued } ∧ ns = [] := by
  unfold consume at h
  have ⟨(_, data), hr, h⟩ := Traced.liftM_stream_bind_eq_ok.mp h
  have ⟨dequeued, hw, h⟩ := Traced.liftM_stream_bind_eq_ok.mp h
  have ⟨tally, ht, h⟩ := Traced.liftM_bind_eq_ok.mp h
  cases h
  obtain ⟨rest, hi, rfl⟩ := Fifo.read_eq_ok hr
  obtain rfl := Size.add_eq_ok ht
  exact ⟨rest, dequeued, hi, hw, rfl, rfl, rfl⟩

theorem advance_of_finish {next : Phase} (last : chunk.last = true)
    (h : finish { r with tally := r.tally + chunk.length } = ⟨ns, .ok r'⟩) :
    Advance r chunk next ns r' := by
  unfold finish at h
  have ⟨cmd, hc, h⟩ := Traced.liftM_stream_bind_eq_ok.mp h
  replace hc := current_eq_ok_iff.mp hc
  by_cases ht : r.tally + chunk.length = cmd.length.toNat
  · simp [ht] at h
    obtain ⟨rfl, rfl⟩ := h
    exact ht ▸ .finish last hc ht
  · simp [ht] at h
    obtain ⟨rfl, rfl⟩ := h
    exact .mismatch last hc ht

theorem step_of_idle (hp : r.phase = .idle) (h : r.idle enable l = ⟨ns, .ok (r', l')⟩) :
    Step enable r l ns r' l' := by
  unfold idle at h
  split at h
  case isTrue =>
    cases h
    exact .stall
  case isFalse =>
    have ⟨(cmd, commands), hr, h⟩ := Traced.liftM_stream_bind_eq_ok.mp h
    obtain ⟨rest, hi, rfl⟩ := Fifo.read_eq_ok hr
    obtain ⟨ms, gated, ks, hg, hk, rfl⟩ := Traced.bind_eq_ok.mp h
    cases hk
    simpa using .start hp hi hg

theorem step_of_forwardHeader (hp : r.phase = .forwardHeader)
    (h : r.forwardHeader l = ⟨ns, .ok (r', l')⟩) : Step enable r l ns r' l' := by
  unfold forwardHeader at h
  split at h
  case isTrue =>
    cases h
    exact .stall
  case isFalse =>
    have ⟨cmd, hc, h⟩ := Traced.liftM_stream_bind_eq_ok.mp h
    have ⟨(session, _), hr, h⟩ := Traced.liftM_stream_bind_eq_ok.mp h
    replace hc := current_eq_ok_iff.mp hc
    obtain ⟨rest, hi, rfl⟩ := Fifo.read_eq_ok hr
    dsimp only at h
    split at h
    case isTrue hs =>
      obtain rfl : session = cmd.session := hs
      have ⟨appSessions, hw, h⟩ := Traced.liftM_stream_bind_eq_ok.mp h
      have ⟨appLengths, hv, h⟩ := Traced.liftM_stream_bind_eq_ok.mp h
      cases h
      exact .forwardHeader hp hc hi hw hv
    case isFalse hs =>
      cases h
      exact .mismatch (.inl hp) hc hi hs

theorem step_of_sinkHeader (hp : r.phase = .sinkHeader)
    (h : r.sinkHeader l = ⟨ns, .ok (r', l')⟩) : Step enable r l ns r' l' := by
  unfold sinkHeader at h
  split at h
  case isTrue =>
    cases h
    exact .stall
  case isFalse =>
    have ⟨cmd, hc, h⟩ := Traced.liftM_stream_bind_eq_ok.mp h
    have ⟨(session, _), hr, h⟩ := Traced.liftM_stream_bind_eq_ok.mp h
    replace hc := current_eq_ok_iff.mp hc
    obtain ⟨rest, hi, rfl⟩ := Fifo.read_eq_ok hr
    dsimp only at h
    split at h
    case isTrue hs =>
      obtain rfl : session = cmd.session := hs
      have step : Step enable r l [] _ _ := .sinkHeader hp hc hi
      cases hd : cmd.route.dropCode <;> simp only [hd] at h <;> cases h <;>
        simpa only [sink, hd] using step
    case isFalse hs =>
      cases h
      exact .mismatch (.inr hp) hc hi hs

theorem step_of_forwardData (hp : r.phase = .forwardData)
    (h : r.forwardData l = ⟨ns, .ok (r', l')⟩) : Step enable r l ns r' l' := by
  unfold forwardData at h
  split at h
  case isTrue =>
    cases h
    exact .stall
  case isFalse =>
    obtain ⟨_, ⟨chunk, _, _⟩, ks, hc, hk, rfl⟩ := Traced.bind_eq_ok.mp h
    obtain ⟨rest, dequeued, hi, hw, rfl, rfl, rfl⟩ := consume_eq_ok hc
    have ⟨appData, hv, hk⟩ := Traced.liftM_stream_bind_eq_ok.mp hk
    obtain ⟨ms, hm, rfl⟩ := Traced.note_bind_eq_ok.mp hk
    cases hl : chunk.last <;> simp only [hl, if_true, if_false, Bool.false_eq_true] at hm
    case false =>
      cases hm
      have step : Step enable r l _ _ _ := .forwardData hp hi hw hv (.more hl)
      simpa [hl, hp] using step
    case true =>
      obtain ⟨_, hn, rfl⟩ := Traced.note_bind_eq_ok.mp hm
      obtain ⟨_, _, _, hf, he, rfl⟩ := Traced.bind_eq_ok.mp hn
      cases he
      have step : Step enable r l _ _ _ := .forwardData hp hi hw hv (advance_of_finish hl hf)
      simpa [hl] using step

theorem step_of_sinkData (hp : r.phase = .sinkData)
    (h : r.sinkData l = ⟨ns, .ok (r', l')⟩) : Step enable r l ns r' l' := by
  unfold sinkData at h
  split at h
  case isTrue =>
    cases h
    exact .stall
  case isFalse =>
    obtain ⟨_, ⟨chunk, _, _⟩, ks, hc, hk, rfl⟩ := Traced.bind_eq_ok.mp h
    obtain ⟨rest, dequeued, hi, hw, rfl, rfl, rfl⟩ := consume_eq_ok hc
    obtain ⟨ms, hm, rfl⟩ := Traced.note_bind_eq_ok.mp hk
    cases hl : chunk.last <;> simp only [hl, if_true, if_false, Bool.false_eq_true] at hm
    case false =>
      cases hm
      have step : Step enable r l _ _ _ := .sinkData hp hi hw (.more hl)
      simpa [hp] using step
    case true =>
      obtain ⟨_, _, _, hf, hn, rfl⟩ := Traced.bind_eq_ok.mp hm
      cases hn
      have step : Step enable r l _ _ _ := .sinkData hp hi hw (advance_of_finish hl hf)
      simpa using step

theorem step_of_extractRecord (hp : r.phase = .extractRecord)
    (h : r.extractRecord l = ⟨ns, .ok (r', l')⟩) : Step enable r l ns r' l' := by
  unfold extractRecord at h
  split at h
  case isTrue =>
    cases h
    exact .stall
  case isFalse =>
    obtain ⟨_, ⟨chunk, r₁, _⟩, _, hc, hk, rfl⟩ := Traced.bind_eq_ok.mp h
    obtain ⟨rest, dequeued, hi, hw, hr, rfl, rfl⟩ := consume_eq_ok hc
    obtain ⟨ns, hm, rfl⟩ := Traced.note_bind_eq_ok.mp hk
    obtain ⟨ms, l₁, ks, ho, ha, rfl⟩ := Traced.bind_eq_ok.mp hm
    have advance : Advance r chunk .sinkData ks r' ∧ l' = l₁ := by
      subst hr
      cases hl : chunk.last <;> simp only [hl, if_true, if_false, Bool.false_eq_true] at ha
      case false =>
        cases ha
        exact ⟨.more hl, rfl⟩
      case true =>
        obtain ⟨_, _, _, hf, hn, rfl⟩ := Traced.bind_eq_ok.mp ha
        cases hn
        exact ⟨by simpa using advance_of_finish hl hf, rfl⟩
    obtain ⟨advance, rfl⟩ := advance
    unfold handOver at ho
    cases hx : ControlRecord.ofChunk? chunk <;> simp only [hx] at ho
    case none =>
      cases ho
      exact .malformedRecord hp hi hw hx advance
    case some record =>
      obtain ⟨_, hv, rfl⟩ := Traced.note_bind_eq_ok.mp ho
      have ⟨records, hw', hn⟩ := Traced.liftM_stream_bind_eq_ok.mp hv
      cases hn
      exact .extractRecord hp hi hw hx hw' advance

theorem step_of_tick (h : r.tick enable l = ⟨ns, .ok (r', l')⟩) : Step enable r l ns r' l' := by
  cases hp : r.phase <;> simp only [tick, hp] at h
  case idle          => exact step_of_idle hp h
  case forwardHeader => exact step_of_forwardHeader hp h
  case forwardData   => exact step_of_forwardData hp h
  case sinkHeader    => exact step_of_sinkHeader hp h
  case sinkData      => exact step_of_sinkData hp h
  case extractRecord => exact step_of_extractRecord hp h

end ShellInterface.Tcp.Receiver
