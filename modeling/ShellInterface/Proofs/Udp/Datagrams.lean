import ShellInterface.Proofs.Books
import ShellInterface.Proofs.TestPattern
import ShellInterface.Proofs.Udp.Transmitter

namespace ShellInterface.Udp

open Tcp (Ended)

structure Datagram where
  enabled : Bool
  requester : Requester
  sockets : SocketPair
  length : UInt16
  -- The data of the application that was taken.
  taken : List Chunk
  sent : List Chunk
deriving DecidableEq, Repr

namespace Datagram

def start (enable : Bool) (requester : Requester) (sockets : SocketPair) (length : UInt16) :
    Datagram :=
  ⟨enable, requester, sockets, length, [], []⟩

def add (d : Datagram) (l l' : Transmitter.Links) : Datagram :=
  { d with
    taken := d.taken ++ l.appData.taken l'.appData
    sent := d.sent ++ l.data.added l'.data }

def begun (enable : Bool) (l l' : Transmitter.Links) : List Datagram :=
  ((l.appHeaders.taken l'.appHeaders).zip (l.appLengths.taken l'.appLengths)).map
      (fun (sockets, length) => start enable .app sockets length) ++
    (l.testRequests.taken l'.testRequests).map fun q => start enable .test q.sockets q.length

def enter (ds : List Datagram) (enable : Bool) (l l' : Transmitter.Links) : List Datagram :=
  Books.enter ds (begun enable l l') (·.add l l')

def ofApp (ds : List Datagram) : List Datagram :=
  ds.filter (·.requester = .app)

def ofTest (ds : List Datagram) : List Datagram :=
  ds.filter (·.requester = .test)

def accepted (ds : List Datagram) : List Datagram :=
  ds.filter (·.enabled)

def request (d : Datagram) : TestRequest :=
  ⟨d.sockets, d.length⟩

def payload (d : Datagram) : List Chunk :=
  match d.requester with
  | .app  => d.taken
  | .test => (TestPattern.create d.length.toNat).toList

def Drained (d : Datagram) : Prop :=
  match d.requester with
  | .app  => Ended d.taken
  | .test => d.taken = []

inductive Finished (d : Datagram) : Prop
  | sent (enabled : d.enabled = true) (ended : Ended d.sent) (whole : d.sent = d.payload)
      (drained : d.Drained)
  | discarded (disabled : d.enabled = false) (sent : d.sent = []) (drained : d.Drained)

inductive Unfinished (d : Datagram) : Transmitter → Prop
  | app (app : d.requester = .app) (enabled : d.enabled = true) (sent : d.sent = d.taken)
      (unmarked : ∀ c ∈ d.taken, c.last = false) : Unfinished d .app
  | test {pattern} (test : d.requester = .test) (enabled : d.enabled = true) (taken : d.taken = [])
      (underway : pattern.Underway d.length.toNat d.sent) : Unfinished d (.test pattern)
  | discard (app : d.requester = .app) (disabled : d.enabled = false) (sent : d.sent = [])
      (unmarked : ∀ c ∈ d.taken, c.last = false) : Unfinished d .discard

variable {d : Datagram} {ds : List Datagram} {enable : Bool} {l l' : Transmitter.Links}

structure Entered (ds ds' : List Datagram) (l l' : Transmitter.Links) : Prop where
  appHeaders   : (ofApp ds').map sockets =
    (ofApp ds).map sockets ++ l.appHeaders.taken l'.appHeaders
  appLengths   : (ofApp ds').map length =
    (ofApp ds).map length ++ l.appLengths.taken l'.appLengths
  testRequests : (ofTest ds').map request =
    (ofTest ds).map request ++ l.testRequests.taken l'.testRequests
  headers      : (accepted ds').map sockets =
    (accepted ds).map sockets ++ l.headers.added l'.headers
  lengths      : (accepted ds').map length =
    (accepted ds).map length ++ l.lengths.added l'.lengths
  taken        : ds'.flatMap taken = ds.flatMap taken ++ l.appData.taken l'.appData
  sent         : ds'.flatMap sent = ds.flatMap sent ++ l.data.added l'.data

theorem begun_nothing (enable : Bool) (l : Transmitter.Links) : begun enable l l = [] := by
  simp [begun]

theorem add_nothing (d : Datagram) (l : Transmitter.Links) : d.add l l = d := by
  simp [add]

theorem enter_nothing (ds : List Datagram) (enable : Bool) (l : Transmitter.Links) :
    enter ds enable l l = ds := by
  rw [enter, begun_nothing, Books.enter_nothing ds fun d => d.add_nothing l]

theorem enter_begun (ds : List Datagram) (h : begun enable l l' = [d]) (hd : d.add l l' = d) :
    enter ds enable l l' = ds ++ [d] := by
  rw [enter, h, Books.enter_opened ds hd]

theorem enter_hand (ds : List Datagram) (h : begun enable l l' = []) :
    enter (ds ++ [d]) enable l l' = ds ++ [d.add l l'] := by
  rw [enter, h, Books.enter_hand]

theorem enter_still {testRequests : Fifo TestRequest} (ds : List Datagram)
    (tests : l.testRequests.taken testRequests = []) :
    enter ds enable l { l with testRequests } = ds := by
  have hb : begun enable l { l with testRequests } = [] := by simp [begun, tests]
  rw [enter, hb, Books.enter_nothing ds fun d => by simp [add]]

theorem Entered.still {testRequests : Fifo TestRequest} (ds : List Datagram)
    (tests : l.testRequests.taken testRequests = []) :
    Entered ds ds l { l with testRequests } := by
  constructor <;> simp [tests]

theorem begun_app {sockets : SocketPair} {length : UInt16} {moreSockets : List SocketPair}
    {moreLengths : List UInt16} (readSockets : l.appHeaders.items = sockets :: moreSockets)
    (readLength : l.appLengths.items = length :: moreLengths) (headers : Fifo SocketPair)
    (lengths : Fifo UInt16) :
    begun enable l { l with
      appHeaders := l.appHeaders.tail, appLengths := l.appLengths.tail, headers, lengths } =
      [start enable .app sockets length] := by
  simp [begun, Fifo.taken_tail readSockets, Fifo.taken_tail readLength]

theorem begun_test {request : TestRequest} {rest : List TestRequest}
    (read : l.testRequests.items = request :: rest) (headers : Fifo SocketPair)
    (lengths : Fifo UInt16) :
    begun enable l { l with testRequests := l.testRequests.tail, headers, lengths } =
      [start enable .test request.sockets request.length] := by
  simp [begun, Fifo.taken_tail read]

end Datagram

namespace Transmitter

open Datagram

inductive Serves (t : Transmitter) (d : Datagram) : Prop
  | busy (busy : d.Unfinished t)
  | done (idle : t = .idle) (finished : d.Finished)

inductive Booked : Transmitter → List Datagram → Prop
  | idle {ds} (finished : ∀ d ∈ ds, d.Finished) : Booked .idle ds
  | hand {t ds d} (finished : ∀ d ∈ ds, d.Finished) (busy : d.Unfinished t) : Booked t (ds ++ [d])

end Transmitter

namespace Datagram.Unfinished

variable {t t' : Transmitter} {l l' : Transmitter.Links} {enable : Bool} {ns : List Note}
  {d : Datagram} {chunk : Chunk} {chunks : List Chunk} {data : Fifo Chunk}

theorem sendApp (h : d.Unfinished .app) (read : l.appData.items = chunk :: chunks)
    (write : l.data.write chunk = .ok data) :
    (if chunk.last then Transmitter.idle else .app).Serves
      (d.add l { l with appData := l.appData.tail, data }) := by
  have hd : d.add l { l with appData := l.appData.tail, data } =
      { d with taken := d.taken ++ [chunk], sent := d.sent ++ [chunk] } := by
    simp [add, Fifo.taken_tail read, Fifo.added_of_write write]
  rw [hd]
  cases h
  case app app enabled sent unmarked =>
    cases last : chunk.last
    case false =>
      refine .busy (.app app enabled (by rw [sent]) ?_)
      exact List.forall_mem_append.mpr ⟨unmarked, List.forall_mem_singleton.mpr last⟩
    case true =>
      have ended := Ended.of_unmarked unmarked last
      exact .done rfl (.sent enabled (sent ▸ ended) (by simp [payload, app, sent])
        (by simp [Drained, app, ended]))

theorem sendTest {pattern rest : TestPattern} (h : d.Unfinished (.test pattern))
    (next : pattern.next? = some (chunk, rest)) (write : l.data.write chunk = .ok data) :
    (if chunk.last then Transmitter.idle else .test rest).Serves (d.add l { l with data }) := by
  have hd : d.add l { l with data } = { d with sent := d.sent ++ [chunk] } := by
    simp [add, Fifo.added_of_write write]
  rw [hd]
  cases h
  case test test enabled taken underway =>
    cases last : chunk.last
    case false => exact .busy (.test test enabled taken (underway.more next last))
    case true =>
      have ⟨whole, ended⟩ := underway.finish next last
      exact .done rfl (.sent enabled ended (by simpa [payload, test] using whole)
        (by simpa [Drained, test] using taken))

theorem discardChunk (h : d.Unfinished .discard) (read : l.appData.items = chunk :: chunks) :
    (if chunk.last then Transmitter.idle else .discard).Serves
      (d.add l { l with appData := l.appData.tail }) := by
  have hd : d.add l { l with appData := l.appData.tail } =
      { d with taken := d.taken ++ [chunk] } := by
    simp [add, Fifo.taken_tail read]
  rw [hd]
  cases h
  case discard app disabled sent unmarked =>
    cases last : chunk.last
    case false =>
      refine .busy (.discard app disabled sent ?_)
      exact List.forall_mem_append.mpr ⟨unmarked, List.forall_mem_singleton.mpr last⟩
    case true =>
      have ended := Ended.of_unmarked unmarked last
      exact .done rfl (.discarded disabled sent (by simp [Drained, app, ended]))

theorem ne_idle (h : d.Unfinished t) : t ≠ .idle := by
  rintro rfl
  cases h

theorem next (h : d.Unfinished t) (step : Transmitter.Step enable l t ns t' l') :
    t'.Serves (d.add l l') := by
  cases step
  case rest               => exact absurd rfl h.ne_idle
  case acceptApp          => exact absurd rfl h.ne_idle
  case discardApp         => exact absurd rfl h.ne_idle
  case acceptTest         => exact absurd rfl h.ne_idle
  case ignoreTest         => exact absurd rfl h.ne_idle
  case sendApp read write => exact h.sendApp read write
  case sendTest hn write  => exact h.sendTest hn write
  case discard read       => exact h.discardChunk read
  case endTest next _     =>
    cases h
    case test underway => exact absurd (TestPattern.next?_eq_none_iff.mp next) underway.left
  all_goals exact .busy (by rwa [add_nothing])

end Datagram.Unfinished

namespace Transmitter

open Datagram

variable {t t' : Transmitter} {l l' : Links} {enable : Bool} {ns : List Note} {d : Datagram}
  {ds : List Datagram}

theorem Booked.finished_or_busy (h : Booked t ds) (hd : d ∈ ds) : d.Finished ∨ d.Unfinished t := by
  cases h
  case idle finished      => exact .inl (finished d hd)
  case hand finished busy =>
    obtain hd | hd := List.mem_append.mp hd
    case inl => exact .inl (finished d hd)
    case inr => exact .inr (List.mem_singleton.mp hd ▸ busy)

theorem Booked.idle_of_nil (h : Booked t []) : t = .idle := by
  generalize he : ([] : List Datagram) = ds at h
  cases h
  case idle => rfl
  case hand => simp at he

theorem Booked.serve (finished : ∀ d ∈ ds, d.Finished) (serves : t.Serves d) :
    Booked t (ds ++ [d]) := by
  cases serves
  case busy busy        => exact .hand finished busy
  case done idle finish =>
    subst idle
    exact .idle (List.forall_mem_append.mpr ⟨finished, List.forall_mem_singleton.mpr finish⟩)

theorem Step.begun_eq_nil (h : Step enable l t ns t' l') (ht : t ≠ .idle) :
    begun enable l l' = [] := by
  cases h
  case rest       => exact absurd rfl ht
  case acceptApp  => exact absurd rfl ht
  case discardApp => exact absurd rfl ht
  case acceptTest => exact absurd rfl ht
  case ignoreTest => exact absurd rfl ht
  all_goals simp [begun]

theorem Booked.next (h : Booked t ds) (sized : ∀ request ∈ l.testRequests.items, request.length ≠ 0)
    (step : Step enable l t ns t' l') : Booked t' (enter ds enable l l') := by
  cases h
  case hand ds d finished busy =>
    rw [enter_hand ds (step.begun_eq_nil busy.ne_idle)]
    exact .serve finished (busy.next step)
  case idle finished =>
    cases step
    case rest =>
      rw [enter_nothing]
      exact .idle finished
    case acceptApp readSockets readLength enabled _ _ =>
      subst enabled
      rw [enter_begun ds (begun_app readSockets readLength _ _) (by simp [add])]
      exact .hand finished (.app rfl rfl rfl nofun)
    case discardApp readSockets readLength disabled =>
      subst disabled
      rw [enter_begun ds (begun_app readSockets readLength _ _) (by simp [add])]
      exact .hand finished (.discard rfl rfl rfl nofun)
    case acceptTest request _ _ _ _ read enabled _ _ =>
      subst enabled
      have hn : request.length.toNat ≠ 0 := fun h =>
        sized request (by simp [read]) (UInt16.toNat_inj.mp h)
      rw [enter_begun ds (begun_test read _ _) (by simp [add])]
      exact .hand finished (.test rfl rfl rfl (.start hn))
    case ignoreTest read disabled =>
      subst disabled
      rw [enter_begun ds (begun_test read _ _) (by simp [add])]
      exact .serve finished (.done rfl (.discarded rfl rfl rfl))

theorem Step.begun_eq (h : Step enable l t ns t' l') :
    (ofApp (begun enable l l')).map sockets = l.appHeaders.taken l'.appHeaders ∧
      (ofApp (begun enable l l')).map Datagram.length = l.appLengths.taken l'.appLengths ∧
      (ofTest (begun enable l l')).map request = l.testRequests.taken l'.testRequests ∧
      (accepted (begun enable l l')).map sockets = l.headers.added l'.headers ∧
      (accepted (begun enable l l')).map Datagram.length = l.lengths.added l'.lengths := by
  cases h
  case acceptApp readSockets readLength enabled writeSockets writeLength =>
    simp [begun_app readSockets readLength, Fifo.taken_tail readSockets, Fifo.taken_tail readLength,
      Fifo.added_of_write writeSockets, Fifo.added_of_write writeLength, enabled, ofApp, ofTest,
      accepted, Datagram.start]
  case discardApp readSockets readLength disabled =>
    simp [begun_app readSockets readLength l.headers l.lengths, Fifo.taken_tail readSockets,
      Fifo.taken_tail readLength, disabled, ofApp, ofTest, accepted,
      Datagram.start]
  case acceptTest read enabled writeSockets writeLength =>
    simp [begun_test read, Fifo.taken_tail read, Fifo.added_of_write writeSockets,
      Fifo.added_of_write writeLength, enabled, ofApp, ofTest, accepted, Datagram.start, request]
  case ignoreTest read disabled =>
    simp [begun_test read l.headers l.lengths, Fifo.taken_tail read, disabled, ofApp, ofTest,
      accepted, Datagram.start, request]
  all_goals simp [begun, ofApp, ofTest, accepted]

theorem Booked.entered (booked : Booked t ds) (step : Step enable l t ns t' l') :
    Entered ds (enter ds enable l l') l l' := by
  have ⟨appHeaders, appLengths, testRequests, headers, lengths⟩ := step.begun_eq
  have still (h : ds ++ begun enable l l' = []) :
      l.appData.taken l'.appData = [] ∧ l.data.added l'.data = [] := by
    obtain ⟨rfl, _⟩ := List.append_eq_nil_iff.mp h
    obtain rfl := booked.idle_of_nil
    cases step <;> simp
  have new {d : Datagram} (hd : d ∈ begun enable l l') : d.taken = [] ∧ d.sent = [] := by
    obtain ⟨_, _, rfl⟩ | ⟨_, _, rfl⟩ := (List.mem_append.mp hd).imp List.mem_map.mp List.mem_map.mp
    all_goals exact ⟨rfl, rfl⟩
  constructor
  case appHeaders   => exact appHeaders ▸ Books.map_filter_enter ds _ (fun _ => rfl) fun _ => rfl
  case appLengths   => exact appLengths ▸ Books.map_filter_enter ds _ (fun _ => rfl) fun _ => rfl
  case testRequests => exact testRequests ▸ Books.map_filter_enter ds _ (fun _ => rfl) fun _ => rfl
  case headers      => exact headers ▸ Books.map_filter_enter ds _ (fun _ => rfl) fun _ => rfl
  case lengths      => exact lengths ▸ Books.map_filter_enter ds _ (fun _ => rfl) fun _ => rfl
  case taken        =>
    exact Books.flatMap_enter (fun h => (still h).left) (fun _ hd => (new hd).left) fun _ => rfl
  case sent         =>
    exact Books.flatMap_enter (fun h => (still h).right) (fun _ hd => (new hd).right) fun _ => rfl

end Transmitter

end ShellInterface.Udp
