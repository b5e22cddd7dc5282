import ShellInterface.Proofs.Books
import ShellInterface.Proofs.Supply
import ShellInterface.Proofs.Tcp.Counters
import ShellInterface.Proofs.Udp.Receiver

namespace ShellInterface.Udp

open Tcp (Ended Framed)

structure Reception where
  enabled : Bool
  sockets : SocketPair
  data : List Chunk
deriving DecidableEq, Repr

@[ext]
structure Effect where
  headers : List SocketPair
  data : List Chunk
  requests : List TestRequest
  faults : List Fault
deriving DecidableEq

namespace Effect

def nothing : Effect :=
  ⟨[], [], [], []⟩

instance : Append Effect where
  append e e' :=
    ⟨e.headers ++ e'.headers, e.data ++ e'.data, e.requests ++ e'.requests,
      e.faults ++ e'.faults⟩

def join (es : List Effect) : Effect :=
  es.foldr (· ++ ·) nothing

variable (e e' e'' : Effect) (es : List Effect)

theorem append_eq : e ++ e' =
    ⟨e.headers ++ e'.headers, e.data ++ e'.data, e.requests ++ e'.requests,
      e.faults ++ e'.faults⟩ := rfl

theorem append_assoc : e ++ e' ++ e'' = e ++ (e' ++ e'') := by
  simp [append_eq]

@[simp]
theorem append_nothing : e ++ nothing = e := by
  simp [append_eq, nothing]

@[simp]
theorem nothing_append : nothing ++ e = e := by
  simp [append_eq, nothing]

theorem join_concat : join (es ++ [e]) = join es ++ e := by
  induction es
  case nil => simp [join]
  case cons e' es ih =>
    rw [List.cons_append, join, List.foldr_cons, ← join, ih, ← append_assoc]
    rfl

end Effect

namespace Reception

def start (enable : Bool) (sockets : SocketPair) : Reception :=
  ⟨enable, sockets, []⟩

def add (r : Reception) (chunks : List Chunk) : Reception :=
  { r with data := r.data ++ chunks }

def enter (rs : List Reception) (enable : Bool) (headers : List SocketPair) (chunks : List Chunk) :
    List Reception :=
  Books.enter rs (headers.map (start enable)) (·.add chunks)

section Effects

variable (routes : RoutingTable) (r : Reception)

def isKept : Bool :=
  r.enabled ∧ (routes.lookup r.sockets.dst.port).action = .keep

def isAsked : Bool :=
  r.enabled ∧ routes.lookup r.sockets.dst.port = .generate

-- What comes of the first chunk of a datagram that asks for another one. The length that it asks
-- for is in the first two bytes.
def answer (sockets : SocketPair) (first : Chunk) : Effect :=
  let length := UInt16.ofNat (BigEndian.decode (first.bytes.take 2))
  if first.length < 2 then
    { Effect.nothing with faults := [.malformedRecord first.length] }
  else if length = 0 then
    { Effect.nothing with faults := [.zeroLengthTestRequest sockets.src] }
  else
    { Effect.nothing with requests := [⟨sockets.swapped, length⟩] }

def effect : Effect :=
  if r.isKept routes then
    ⟨[r.sockets], r.data, [], []⟩
  else if r.isAsked routes then
    match r.data with
    | []         => .nothing
    | first :: _ => answer r.sockets first
  else
    .nothing

def effects (rs : List Reception) : Effect :=
  .join (rs.map (·.effect routes))

def dropped : List Chunk :=
  if r.isKept routes then [] else r.data

inductive Unfinished : Receiver.Phase → Prop
  | header (kept : r.isKept routes = true) (untouched : r.data = []) :
      Unfinished (.forwardHeader r.sockets)
  | keep (kept : r.isKept routes = true) (unmarked : ∀ c ∈ r.data, c.last = false) :
      Unfinished (.data true)
  | extract (asked : r.isAsked routes = true) (untouched : r.data = []) :
      Unfinished (.extractLength r.sockets)
  | drop (unkept : r.isKept routes = false) (begun : r.isAsked routes = true → r.data ≠ [])
      (unmarked : ∀ c ∈ r.data, c.last = false) : Unfinished (.data false)

end Effects

variable {routes : RoutingTable} {r : Reception} {rs : List Reception} {enable : Bool}
  {sockets : SocketPair} {chunk : Chunk} {phase : Receiver.Phase}

theorem enter_nothing (rs : List Reception) (enable : Bool) : enter rs enable [] [] = rs :=
  Books.enter_nothing rs fun r => by simp [add]

@[simp]
theorem enter_header (rs : List Reception) (enable : Bool) (sockets : SocketPair) :
    enter rs enable [sockets] [] = rs ++ [.start enable sockets] :=
  Books.enter_opened rs (by simp [add, start])

@[simp]
theorem enter_concat (rs : List Reception) (r : Reception) (enable : Bool) (chunks : List Chunk) :
    enter (rs ++ [r]) enable [] chunks = rs ++ [r.add chunks] :=
  Books.enter_hand rs r _

@[simp]
theorem isKept_add (r : Reception) (chunks : List Chunk) :
    (r.add chunks).isKept routes = r.isKept routes := rfl

@[simp]
theorem isAsked_add (r : Reception) (chunks : List Chunk) :
    (r.add chunks).isAsked routes = r.isAsked routes := rfl

theorem effects_concat (routes : RoutingTable) (rs : List Reception) (r : Reception) :
    effects routes (rs ++ [r]) = effects routes rs ++ r.effect routes := by
  simp [effects, Effect.join_concat]

theorem isKept_of_isAsked (h : r.isAsked routes = true) : r.isKept routes = false := by
  obtain ⟨_, asked⟩ := of_decide_eq_true h
  simp [isKept, asked, Route.generate]

theorem effect_of_isKept (h : r.isKept routes = true) :
    r.effect routes = ⟨[r.sockets], r.data, [], []⟩ := by
  rw [effect, if_pos h]

theorem effect_of_untouched (h : r.isKept routes = false) (untouched : r.data = []) :
    r.effect routes = .nothing := by
  simp [effect, h, untouched]

theorem effect_data (routes : RoutingTable) (r : Reception) :
    (r.effect routes).data = if r.isKept routes then r.data else [] := by
  cases h : r.isKept routes
  case true  => simp [effect_of_isKept h]
  case false =>
    cases asked : r.isAsked routes
    case false => simp [effect, h, asked, Effect.nothing]
    case true  =>
      cases hd : r.data
      case nil  => simp [effect, h, hd, Effect.nothing]
      case cons =>
        simp only [effect, h, asked, hd, answer, Bool.false_eq_true, if_false, if_true]
        split
        case isTrue  => rfl
        case isFalse => split <;> rfl

theorem effects_data_length (routes : RoutingTable) (rs : List Reception) :
    (effects routes rs).data.length + (rs.flatMap (dropped routes)).length =
      (rs.flatMap data).length := by
  induction rs using List.reverseRecOn
  case nil => rfl
  case append_singleton rs r ih =>
    have split : (r.effect routes).data.length + (r.dropped routes).length = r.data.length := by
      rw [effect_data, dropped]
      split <;> simp
    simp only [effects_concat, Effect.append_eq, List.flatMap_append, List.flatMap_singleton,
      List.length_append]
    omega

theorem effect_add_of_isKept (h : r.isKept routes = true) (chunks : List Chunk) :
    (r.add chunks).effect routes = r.effect routes ++ ⟨[], chunks, [], []⟩ := by
  rw [effect_of_isKept h, effect_of_isKept (by rwa [isKept_add])]
  simp [Effect.append_eq, add]

theorem effect_add_first (h : r.isAsked routes = true) (untouched : r.data = []) (chunk : Chunk) :
    (r.add [chunk]).effect routes = r.effect routes ++ answer r.sockets chunk := by
  have unkept := isKept_of_isAsked h
  rw [effect_of_untouched unkept untouched, Effect.nothing_append]
  simp [effect, h, unkept]
  simp [add, untouched]

theorem effect_add_of_begun (h : r.isKept routes = false)
    (begun : r.isAsked routes = true → r.data ≠ []) (chunks : List Chunk) :
    (r.add chunks).effect routes = r.effect routes := by
  by_cases asked : r.isAsked routes
  case neg => simp [effect, h, asked]
  case pos =>
    obtain ⟨first, rest, hd⟩ := List.exists_cons_of_ne_nil (begun asked)
    simp [effect, h, asked]
    simp [add, hd]

theorem Unfinished.unmarked (h : r.Unfinished routes phase) : ∀ c ∈ r.data, c.last = false := by
  cases h
  case header untouched  => simp [untouched]
  case keep unmarked     => exact unmarked
  case extract untouched => simp [untouched]
  case drop unmarked     => exact unmarked

theorem Unfinished.ne_readHeader (h : r.Unfinished routes phase) : phase ≠ .readHeader := by
  rintro rfl
  cases h

end Reception

namespace Receiver

open Reception (enter answer effects)

def Phase.pending : Phase → Effect
  | .forwardHeader sockets => { Effect.nothing with headers := [sockets] }
  | _                      => .nothing

@[simp]
theorem Phase.pending_data (p : Phase) : p.pending.data = [] := by
  cases p <;> rfl

def moved (l : Links) (ns : List Note) (l' : Links) : Effect where
  headers  := l.appHeaders.added l'.appHeaders
  data     := l.appData.added l'.appData
  requests := l.testRequests.added l'.testRequests
  faults   := Reporter.receiver.faults ns

inductive Booked (routes : RoutingTable) : Receiver → List Reception → Prop
  | idle {rs} (finished : ∀ r ∈ rs, Ended r.data) : Booked routes ⟨.readHeader, routes⟩ rs
  | hand {phase done r} (finished : ∀ r ∈ done, Ended r.data)
      (unfinished : r.Unfinished routes phase) : Booked routes ⟨phase, routes⟩ (done ++ [r])

variable {routes : RoutingTable} {v v' : Receiver} {l l' : Links} {enable : Bool} {ns : List Note}
  {rs done : List Reception} {r : Reception} {sockets : SocketPair} {chunk : Chunk} {phase : Phase}
  {requests requests' : Fifo TestRequest}

theorem Booked.routes_eq (h : Booked routes v rs) : v.routes = routes := by
  cases h <;> rfl

theorem Booked.exists_hand (h : Booked routes v rs) (hp : v.phase ≠ .readHeader) :
    ∃ done r, rs = done ++ [r] ∧ (∀ r ∈ done, Ended r.data) ∧ r.Unfinished routes v.phase := by
  cases h
  case idle                     => exact absurd rfl hp
  case hand finished unfinished => exact ⟨_, _, rfl, finished, unfinished⟩

theorem Booked.finished (h : Booked routes v rs) (hp : v.phase = .readHeader) :
    ∀ r ∈ rs, Ended r.data := by
  cases h
  case idle finished => exact finished
  case hand unfinished =>
    subst hp
    cases unfinished

theorem Booked.framed (h : Booked routes v rs) :
    Framed Reception.data (v.phase = .readHeader) rs := by
  cases h
  case idle finished =>
    exact ⟨rs, [], (List.append_nil rs).symm, Nat.zero_le 1, finished, nofun, fun _ => rfl⟩
  case hand done r finished unfinished =>
    refine ⟨done, [r], rfl, Nat.le_refl 1, finished, ?_, ?_⟩
    case refine_1 => exact List.forall_mem_singleton.mpr unfinished.unmarked
    case refine_2 => exact fun hp => absurd hp unfinished.ne_readHeader

-- The datagram in hand, phase by phase. A header goes out before the first chunk is taken.
theorem Booked.exists_header (h : Booked routes v rs) (hp : v.phase = .forwardHeader sockets) :
    ∃ done, rs = done ++ [.start true sockets] ∧ (∀ r ∈ done, Ended r.data) ∧
      (Reception.start true sockets).isKept routes = true := by
  obtain ⟨done, r, rfl, finished, unfinished⟩ := h.exists_hand (by simp [hp])
  rw [hp] at unfinished
  cases unfinished
  case header kept untouched =>
    obtain ⟨_, _, _⟩ := r
    obtain ⟨enabled, _⟩ := of_decide_eq_true kept
    obtain rfl : _ = true := enabled
    obtain rfl : _ = [] := untouched
    exact ⟨done, rfl, finished, kept⟩

theorem Booked.exists_kept (h : Booked routes v rs) (hp : v.phase = .data true) :
    ∃ done r, rs = done ++ [r] ∧ (∀ r ∈ done, Ended r.data) ∧ r.isKept routes = true ∧
      ∀ c ∈ r.data, c.last = false := by
  obtain ⟨done, r, rfl, finished, unfinished⟩ := h.exists_hand (by simp [hp])
  rw [hp] at unfinished
  cases unfinished
  case keep kept unmarked => exact ⟨done, r, rfl, finished, kept, unmarked⟩

theorem Booked.exists_dropped (h : Booked routes v rs) (hp : v.phase = .data false) :
    ∃ done r, rs = done ++ [r] ∧ (∀ r ∈ done, Ended r.data) ∧ r.isKept routes = false ∧
      (r.isAsked routes = true → r.data ≠ []) ∧ ∀ c ∈ r.data, c.last = false := by
  obtain ⟨done, r, rfl, finished, unfinished⟩ := h.exists_hand (by simp [hp])
  rw [hp] at unfinished
  cases unfinished
  case drop unkept begun unmarked => exact ⟨done, r, rfl, finished, unkept, begun, unmarked⟩

theorem Booked.exists_asked (h : Booked routes v rs) (hp : v.phase = .extractLength sockets) :
    ∃ done r, rs = done ++ [r] ∧ (∀ r ∈ done, Ended r.data) ∧ r.sockets = sockets ∧
      r.isAsked routes = true ∧ r.data = [] := by
  obtain ⟨done, r, rfl, finished, unfinished⟩ := h.exists_hand (by simp [hp])
  rw [hp] at unfinished
  cases unfinished
  case extract asked untouched => exact ⟨done, r, rfl, finished, rfl, asked, untouched⟩

theorem unfinished_of_dispatch (h : v.dispatch enable sockets = ⟨ns, .ok phase⟩) :
    (Reception.start enable sockets).Unfinished v.routes phase ∧
      (Reception.start enable sockets).effect v.routes = phase.pending ∧
      Reporter.receiver.faults ns = [] ∧ ∀ c, tally c ns = 0 := by
  have untouched : (Reception.start enable sockets).data = [] := rfl
  have unmarked : ∀ c ∈ (Reception.start enable sockets).data, c.last = false :=
    List.forall_mem_nil _
  unfold dispatch at h
  cases enable
  case false =>
    cases h
    have unkept : (Reception.start false sockets).isKept v.routes = false := by
      simp [Reception.isKept, Reception.start]
    exact ⟨.drop unkept (by simp [Reception.isAsked, Reception.start]) unmarked,
      Reception.effect_of_untouched unkept untouched, rfl, fun _ => rfl⟩
  case true =>
    rcases hr : v.routes.lookup sockets.dst.port with ⟨_ | _, code⟩ <;>
      simp only [hr, Bool.not_true, Bool.false_eq_true, if_false] at h
    case keep =>
      cases h
      have kept : (Reception.start true sockets).isKept v.routes = true := by
        simp [Reception.isKept, Reception.start, hr]
      exact ⟨.header kept untouched, Reception.effect_of_isKept kept, rfl, fun _ => rfl⟩
    case drop =>
      have unkept : (Reception.start true sockets).isKept v.routes = false := by
        simp [Reception.isKept, Reception.start, hr]
      cases code <;> cases h
      case nop =>
        have unasked : (Reception.start true sockets).isAsked v.routes = false := by
          simp [Reception.isAsked, Reception.start, hr, Route.generate]
        exact ⟨.drop unkept (by simp [unasked]) unmarked,
          Reception.effect_of_untouched unkept untouched, rfl, fun _ => rfl⟩
      case gen =>
        have asked : (Reception.start true sockets).isAsked v.routes = true := by
          simp [Reception.isAsked, Reception.start, hr, Route.generate]
        exact ⟨.extract asked untouched, Reception.effect_of_untouched unkept untouched, rfl,
          fun _ => rfl⟩

theorem Booked.advance (finished : ∀ r ∈ done, Ended r.data)
    (unmarked : ∀ c ∈ r.data, c.last = false) (hr : v.routes = routes)
    (hp : v.phase = if chunk.last then .readHeader else phase)
    (unfinished : (∀ c ∈ (r.add [chunk]).data, c.last = false) →
      (r.add [chunk]).Unfinished routes phase) : Booked routes v (done ++ [r.add [chunk]]) := by
  obtain ⟨_, _⟩ := v
  subst hp hr
  cases last : chunk.last
  case true =>
    have ended : Ended (r.add [chunk]).data := Ended.of_unmarked unmarked last
    exact .idle (List.forall_mem_append.mpr ⟨finished, List.forall_mem_singleton.mpr ended⟩)
  case false =>
    refine .hand finished (unfinished ?_)
    exact List.forall_mem_append.mpr ⟨unmarked, List.forall_mem_singleton.mpr last⟩

theorem Booked.next (h : Booked routes v rs) (step : Step enable v l ns v' l') :
    Booked routes v' (enter rs enable (l.headers.taken l'.headers) (l.data.taken l'.data)) := by
  have hr := h.routes_eq
  cases step
  case stall => simpa [Reception.enter_nothing] using h
  case start idle read dispatch =>
    subst hr
    have ⟨unfinished, _⟩ := unfinished_of_dispatch dispatch
    simpa [Fifo.taken_tail read] using Booked.hand (h.finished idle) unfinished
  case forwardHeader hp _ =>
    subst hr
    obtain ⟨done, rfl, finished, kept⟩ := h.exists_header hp
    simpa [Reception.enter_nothing] using Booked.hand finished (.keep kept (List.forall_mem_nil _))
  case forward chunk _ _ hp read _ =>
    obtain ⟨done, r, rfl, finished, kept, unmarked⟩ := h.exists_kept hp
    have booked : Booked routes (if chunk.last then { v with phase := .readHeader } else v)
        (done ++ [r.add [chunk]]) :=
      .advance finished unmarked (by split <;> exact hr) (by split <;> simp [*]) (.keep kept ·)
    simpa [Fifo.taken_tail read] using booked
  case drop chunk _ hp read =>
    obtain ⟨done, r, rfl, finished, unkept, _, unmarked⟩ := h.exists_dropped hp
    have booked : Booked routes (if chunk.last then { v with phase := .readHeader } else v)
        (done ++ [r.add [chunk]]) :=
      .advance finished unmarked (by split <;> exact hr) (by split <;> simp [*])
        (.drop unkept (fun _ => by simp [Reception.add]) ·)
    simpa [Fifo.taken_tail read] using booked
  case extract chunk _ _ _ hp read _ =>
    obtain ⟨done, r, rfl, finished, _, asked, untouched⟩ := h.exists_asked hp
    have booked : Booked routes { v with phase := if chunk.last then .readHeader else .data false }
        (done ++ [r.add [chunk]]) :=
      .advance finished (by simp [untouched]) hr rfl
        (.drop (Reception.isKept_of_isAsked asked) (fun _ => by simp [Reception.add]) ·)
    simpa [Fifo.taken_tail read] using booked

theorem HandsOver.answer_eq (h : HandsOver sockets chunk requests ns requests') :
    answer sockets chunk = ⟨[], [], requests.added requests', Reporter.receiver.faults ns⟩ := by
  have first (whole : 2 ≤ chunk.length) : chunk.bytes.take 2 = chunk.data.take 2 := by
    rw [Chunk.bytes, List.take_take, Nat.min_eq_left whole]
  cases h
  case malformed short => simp [answer, short, Effect.nothing, Reporter.reports, Fault.reporter]
  case empty whole zero =>
    rw [requested, ← first whole] at zero
    simp [answer, Nat.not_lt.mpr whole, zero, Effect.nothing, Reporter.reports, Fault.reporter]
  case request whole nonzero write =>
    rw [requested, ← first whole] at nonzero write
    simp [answer, Nat.not_lt.mpr whole, nonzero, Effect.nothing, Fifo.added_of_write write]

theorem effects_enter_chunk {gain : Effect} (enable : Bool) (done : List Reception)
    (h : (r.add [chunk]).effect routes = r.effect routes ++ gain) :
    effects routes (enter (done ++ [r]) enable [] [chunk]) =
      effects routes (done ++ [r]) ++ gain := by
  rw [Reception.enter_concat, Reception.effects_concat, Reception.effects_concat, h,
    Effect.append_assoc]

-- In a turn goes out what it adds to the books, but for a header that is still to go out.
theorem Booked.gained (h : Booked routes v rs) (step : Step enable v l ns v' l') : ∃ gain,
    effects routes (enter rs enable (l.headers.taken l'.headers) (l.data.taken l'.data)) =
      effects routes rs ++ gain ∧
    moved l ns l' ++ v'.phase.pending = v.phase.pending ++ gain := by
  have hr := h.routes_eq
  cases step
  case stall =>
    refine ⟨.nothing, by simp [Reception.enter_nothing], ?_⟩
    simp [moved, Effect.append_eq, Effect.nothing]
  case start phase idle read dispatch =>
    subst hr
    have ⟨_, effect, silent, _⟩ := unfinished_of_dispatch dispatch
    refine ⟨phase.pending, by simp [Fifo.taken_tail read, Reception.effects_concat, effect], ?_⟩
    simp [moved, idle, silent, Phase.pending, Effect.append_eq, Effect.nothing]
  case forwardHeader hp write =>
    refine ⟨.nothing, by simp [Reception.enter_nothing], ?_⟩
    simp [moved, hp, Phase.pending, Fifo.added_of_write write, Effect.append_eq, Effect.nothing]
  case forward chunk _ _ hp read write =>
    obtain ⟨done, r, rfl, _, kept, _⟩ := h.exists_kept hp
    have gain := effects_enter_chunk enable done (Reception.effect_add_of_isKept kept [chunk])
    refine ⟨_, by simpa [Fifo.taken_tail read] using gain, ?_⟩
    cases chunk.last <;> simp [moved, hp, Phase.pending, Fifo.added_of_write write,
      Effect.append_eq, Effect.nothing]
  case drop chunk _ hp read =>
    obtain ⟨done, r, rfl, _, unkept, begun, _⟩ := h.exists_dropped hp
    have same := Reception.effect_add_of_begun unkept begun [chunk]
    refine ⟨.nothing, by simp [Fifo.taken_tail read, Reception.effects_concat, same], ?_⟩
    cases chunk.last <;> simp [moved, hp, Phase.pending, Effect.append_eq, Effect.nothing]
  case extract chunk _ _ _ hp read handsOver =>
    obtain ⟨done, r, rfl, _, rfl, asked, untouched⟩ := h.exists_asked hp
    have gain := effects_enter_chunk enable done (Reception.effect_add_first asked untouched chunk)
    refine ⟨_, by simpa [Fifo.taken_tail read] using gain, ?_⟩
    rw [handsOver.answer_eq]
    cases chunk.last <;> simp [moved, hp, Phase.pending, Effect.append_eq, Effect.nothing]

structure Entered (rs rs' : List Reception) (enable : Bool) (l l' : Links) : Prop where
  headers : rs'.map (fun r => (r.enabled, r.sockets)) =
    rs.map (fun r => (r.enabled, r.sockets)) ++ (l.headers.taken l'.headers).map (enable, ·)
  data    : rs'.flatMap Reception.data = rs.flatMap Reception.data ++ l.data.taken l'.data

theorem Booked.enter_chunk (h : Booked routes v rs) (hp : v.phase ≠ .readHeader) (enable : Bool)
    (chunk : Chunk) :
    (enter rs enable [] [chunk]).map (fun r => (r.enabled, r.sockets)) =
      rs.map (fun r => (r.enabled, r.sockets)) ∧
    (enter rs enable [] [chunk]).flatMap Reception.data =
      rs.flatMap Reception.data ++ [chunk] := by
  obtain ⟨done, r, rfl, _⟩ := h.exists_hand hp
  simp [Reception.add]

theorem Booked.entered (h : Booked routes v rs) (step : Step enable v l ns v' l') :
    Entered rs (enter rs enable (l.headers.taken l'.headers) (l.data.taken l'.data)) enable l
      l' := by
  cases step
  case stall         => constructor <;> simp [Reception.enter_nothing]
  case start read _  => constructor <;> simp [Fifo.taken_tail read, Reception.start]
  case forwardHeader => constructor <;> simp [Reception.enter_nothing]
  case forward chunk _ _ hp read _ =>
    have ⟨headers, data⟩ := h.enter_chunk (by simp [hp]) enable chunk
    constructor <;> simp [Fifo.taken_tail read, headers, data]
  case drop chunk _ hp read =>
    have ⟨headers, data⟩ := h.enter_chunk (by simp [hp]) enable chunk
    constructor <;> simp [Fifo.taken_tail read, headers, data]
  case extract chunk _ _ _ hp read _ =>
    have ⟨headers, data⟩ := h.enter_chunk (by simp [hp]) enable chunk
    constructor <;> simp [Fifo.taken_tail read, headers, data]

structure Tallied (l : Links) (ns : List Note) (l' : Links) : Prop where
  forwardedStreams : tally .forwardedStreams ns = (l.appHeaders.added l'.appHeaders).length
  forwardedChunks  : tally .forwardedChunks ns = (l.appData.added l'.appData).length
  -- A chunk that is taken either goes to the application, or it is dropped.
  droppedChunks    : (l.appData.added l'.appData).length + tally .droppedChunks ns =
    (l.data.taken l'.data).length
  controlRecords   : tally .controlRecords ns = (l.testRequests.added l'.testRequests).length

theorem HandsOver.tally (h : HandsOver sockets chunk requests ns requests') (c : Counter) :
    tally c ns = if c = .controlRecords then (requests.added requests').length else 0 := by
  cases h
  case request write => simp [Fifo.added_of_write write, eq_comm]
  all_goals simp

theorem Step.tallied (h : Step enable v l ns v' l') : Tallied l ns l' := by
  cases h
  case stall => constructor <;> simp
  case start read dispatch =>
    have ⟨_, _, _, uncounted⟩ := unfinished_of_dispatch dispatch
    constructor <;> simp [uncounted]
  case forwardHeader write => constructor <;> simp [Fifo.added_of_write write]
  case forward read write =>
    constructor <;> simp [Fifo.added_of_write write, Fifo.taken_tail read]
  case drop read => constructor <;> simp [Fifo.taken_tail read]
  case extract read handsOver =>
    constructor <;> simp [Fifo.taken_tail read, handsOver.tally]

end Receiver

end ShellInterface.Udp
