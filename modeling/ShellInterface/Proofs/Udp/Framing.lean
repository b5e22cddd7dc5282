import ShellInterface.Proofs.Supply
import ShellInterface.Proofs.Udp.Transmission

namespace ShellInterface.Udp

open Tcp (Ended Framed)
open Datagram (ofApp ofTest accepted)
open Staging (Turn)

structure AppDatagram where
  sockets : SocketPair
  length : UInt16
  data : List Chunk
deriving DecidableEq, Repr

abbrev Application := List AppDatagram

namespace Datagram

-- The datagrams that were taken up are the first ones of the application. The data that was taken
-- for each is its own, all of it unless the datagram is the last one, and it was sent if the
-- interface was enabled when the datagram was taken up. Else nothing was sent.
def Aligned (app : Application) (ds : List Datagram) (ended : Prop) : Prop :=
  ∀ (j : Nat) d, ds[j]? = some d → ∃ s, app[j]? = some s ∧ d.sockets = s.sockets ∧
    d.length = s.length ∧ d.taken <+: s.data ∧ (j + 1 < ds.length ∨ ended → d.taken = s.data) ∧
    d.sent = if d.enabled then d.taken else []

-- A test is never empty. What was sent of it is the beginning of its payload, and all of it once
-- the stream has ended.
structure IsTest (d : Datagram) : Prop where
  sized    : d.length ≠ 0
  taken    : d.taken = []
  sent     : d.sent <+: (TestPattern.create d.length.toNat).toList
  whole    : Ended d.sent → d.sent = (TestPattern.create d.length.toNat).toList
  disabled : d.enabled = false → d.sent = []

variable {d : Datagram} {t : Transmitter}

theorem Unfinished.sent_unmarked (h : d.Unfinished t) : ∀ c ∈ d.sent, c.last = false := by
  cases h
  case app sent unmarked     => exact sent ▸ unmarked
  case test taken underway   => exact underway.unmarked
  case discard sent unmarked => simp [sent]

theorem Unfinished.taken_unmarked (h : d.Unfinished t) : ∀ c ∈ d.taken, c.last = false := by
  cases h
  case app unmarked     => exact unmarked
  case test taken _     => simp [taken]
  case discard unmarked => exact unmarked

theorem Unfinished.sent_eq (h : d.Unfinished t) (app : d.requester = .app) :
    d.sent = if d.enabled then d.taken else [] := by
  cases h
  case app enabled sent _      => simp [enabled, sent]
  case test test _ _ _         => cases app.symm.trans test
  case discard disabled sent _ => simp [disabled, sent]

theorem Finished.sent_eq (h : d.Finished) (app : d.requester = .app) :
    d.sent = if d.enabled then d.taken else [] := by
  cases h
  case sent enabled _ whole _    => simp [enabled, whole, payload, app]
  case discarded disabled sent _ => simp [disabled, sent]

theorem Finished.drained (h : d.Finished) : d.Drained := by
  cases h <;> assumption

theorem Finished.isTest (h : d.Finished) (test : d.requester = .test) (sized : d.length ≠ 0) :
    d.IsTest := by
  have taken : d.taken = [] := by simpa [Drained, test] using h.drained
  cases h
  case sent enabled _ whole _ =>
    have whole : d.sent = (TestPattern.create d.length.toNat).toList := by
      simpa [payload, test] using whole
    exact ⟨sized, taken, whole ▸ List.prefix_rfl, fun _ => whole, by simp [enabled]⟩
  case discarded sent _ =>
    refine ⟨sized, taken, sent ▸ List.nil_prefix, fun ended => ?_, fun _ => sent⟩
    exact absurd sent ended.ne_nil

theorem Unfinished.isTest (h : d.Unfinished t) (test : d.requester = .test) (sized : d.length ≠ 0) :
    d.IsTest := by
  have unmarked := h.sent_unmarked
  cases h
  case app app _ _ _     => cases test.symm.trans app
  case discard app _ _ _ => cases test.symm.trans app
  case test pattern _ enabled taken underway =>
    refine ⟨sized, taken, ⟨pattern.toList, underway.whole⟩, fun ended => ?_, by simp [enabled]⟩
    have ⟨c, hc, marked⟩ := ended.exists_marked
    simp [unmarked c hc] at marked

end Datagram

namespace Transmitter

variable {t : Transmitter} {ds : List Datagram} {app : Application}

theorem Booked.exists_split (h : Booked t ds) : ∃ done current, ds = done ++ current ∧
    current.length ≤ 1 ∧ (∀ d ∈ done, d.Finished) ∧ ∀ d ∈ current, d.Unfinished t := by
  cases h
  case idle finished =>
    exact ⟨ds, [], (List.append_nil ds).symm, Nat.zero_le 1, finished, nofun⟩
  case hand done d finished busy =>
    exact ⟨done, [d], rfl, Nat.le_refl 1, finished, List.forall_mem_singleton.mpr busy⟩

theorem Booked.framed_taken (h : Booked t ds) :
    Framed Datagram.taken (t ≠ .app ∧ t ≠ .discard) (ofApp ds) := by
  obtain ⟨done, current, rfl, single, finished, unfinished⟩ := h.exists_split
  refine .filter single (fun d hd hq => ?finished) (fun d hd _ => ?unmarked)
    fun ended d hd => ?off
  case finished =>
    simpa [Datagram.Drained, of_decide_eq_true hq] using (finished d hd).drained
  case unmarked => exact (unfinished d hd).taken_unmarked
  case off =>
    cases unfinished d hd
    case app             => exact absurd rfl ended.left
    case test _ hq _ _ _ => simp [hq]
    case discard         => exact absurd rfl ended.right

theorem Booked.framed_sent (h : Booked t ds) :
    Framed Datagram.sent (t = .idle ∨ t = .discard) (accepted ds) := by
  obtain ⟨done, current, rfl, single, finished, unfinished⟩ := h.exists_split
  refine .filter single (fun d hd enabled => ?finished) (fun d hd _ => ?unmarked)
    fun ended d hd => ?off
  case finished =>
    cases finished d hd
    case sent ended _ _         => exact ended
    case discarded disabled _ _ => cases disabled.symm.trans enabled
  case unmarked => exact (unfinished d hd).sent_unmarked
  case off =>
    cases unfinished d hd
    case app                  => simp at ended
    case test                 => simp at ended
    case discard disabled _ _ => exact disabled

theorem Booked.flatMap_sent (h : Booked t ds) :
    (accepted ds).flatMap Datagram.sent = ds.flatMap Datagram.sent := by
  refine flatMap_filter fun d hd disabled => ?_
  obtain finished | busy := h.finished_or_busy hd
  case inl =>
    cases finished
    case sent enabled _ _ _ => cases disabled.symm.trans enabled
    case discarded sent _   => exact sent
  case inr =>
    cases busy
    case app enabled _ _  => cases disabled.symm.trans enabled
    case test enabled _ _ => cases disabled.symm.trans enabled
    case discard sent _   => exact sent

theorem Booked.isTest (h : Booked t ds) (sized : ∀ d ∈ ofTest ds, d.length ≠ 0) :
    ∀ d ∈ ofTest ds, d.IsTest := by
  intro d hd
  have ⟨hds, hq⟩ := List.mem_filter.mp hd
  obtain finished | busy := h.finished_or_busy hds
  case inl => exact finished.isTest (of_decide_eq_true hq) (sized d hd)
  case inr => exact busy.isTest (of_decide_eq_true hq) (sized d hd)

theorem Booked.flatMap_taken (h : Booked t ds) (sized : ∀ d ∈ ofTest ds, d.length ≠ 0) :
    (ofApp ds).flatMap Datagram.taken = ds.flatMap Datagram.taken := by
  refine flatMap_filter fun d hd hq => (h.isTest sized d (List.mem_filter.mpr ⟨hd, ?_⟩)).taken
  cases hr : d.requester <;> simp_all

theorem Booked.sent_eq (h : Booked t ds) :
    ∀ d ∈ ofApp ds, d.sent = if d.enabled then d.taken else [] := by
  intro d hd
  have ⟨hd, hq⟩ := List.mem_filter.mp hd
  obtain finished | busy := h.finished_or_busy hd
  case inl => exact finished.sent_eq (of_decide_eq_true hq)
  case inr => exact busy.sent_eq (of_decide_eq_true hq)

theorem Booked.aligned (h : Booked t ds) (ended : ∀ s ∈ app, Ended s.data)
    (sockets : (ofApp ds).map Datagram.sockets <+: app.map AppDatagram.sockets)
    (lengths : (ofApp ds).map Datagram.length <+: app.map AppDatagram.length)
    (taken : (ofApp ds).flatMap Datagram.taken <+: app.flatMap AppDatagram.data) :
    Datagram.Aligned app (ofApp ds) (t ≠ .app ∧ t ≠ .discard) := by
  intro j d hj
  obtain ⟨s, hs, key, part, whole⟩ := h.framed_taken.aligned ended sockets taken hj
  have length := getElem?_of_prefix lengths (by rw [List.getElem?_map, hj]; rfl)
  have length : d.length = s.length := by
    simpa [List.getElem?_map, hs, eq_comm] using length
  exact ⟨s, hs, key, length, part, whole, h.sent_eq d (List.mem_of_getElem? hj)⟩

end Transmitter

namespace Frame

structure Offered (app : Application) (ts : List (Bool × Turn Frame)) (i : Ingress) : Prop where
  headers : consumed (·.2.before.i.appHeaders) (·.2.after.i.appHeaders) ts ++ i.appHeaders.items <+:
    app.map AppDatagram.sockets
  lengths : consumed (·.2.before.i.appLengths) (·.2.after.i.appLengths) ts ++ i.appLengths.items <+:
    app.map AppDatagram.length
  data    : consumed (·.2.before.i.appData) (·.2.after.i.appData) ts ++ i.appData.items <+:
    app.flatMap AppDatagram.data

variable {app : Application} {enable : Bool} {ts : List (Bool × Turn Frame)} {f f' : Frame}
  {ns : List Note}

instance (app : Application) (ts : List (Bool × Turn Frame)) (i : Ingress) :
    Decidable (Offered app ts i) :=
  decidable_of_iff (_ ∧ _ ∧ _) ⟨fun ⟨hh, hl, hd⟩ => ⟨hh, hl, hd⟩, fun ⟨hh, hl, hd⟩ => ⟨hh, hl, hd⟩⟩

theorem Offered.turn (h : Offered app ts f.i) (step : Step enable f ns f') :
    Offered app (ts ++ [(enable, ⟨f, ns, f'⟩)]) f'.i := by
  have ⟨headers, lengths, data⟩ := h
  cases step
  case transmit ticked =>
    have takes := (Transmitter.step_of_tick ticked).takes
    have hh : f.i.appHeaders.items = _ := takes.appHeaders
    have hl : f.i.appLengths.items = _ := takes.appLengths
    have hd : f.i.appData.items = _ := takes.appData
    rw [hh] at headers
    rw [hl] at lengths
    rw [hd] at data
    constructor <;> simpa [transmitterLinks, afterTransmitter]
  all_goals constructor <;> simpa [afterReceiver]

end Frame

namespace Interface

def supplying (app : Application) : Surroundings Interface Bool (Ingress × Egress) :=
  fun cs _ l => Frame.Offered app (staging.marked cs) l.1

instance (app : Application) (cs : History) (enable : Bool) (l : Ingress × Egress) :
    Decidable (supplying app cs enable l) :=
  inferInstanceAs (Decidable (Frame.Offered app (staging.marked cs) l.1))

variable {c : Config} {x x₀ : Interface} {cs : History} {app : Application}

structure Supplied (app : Application) (ts : List (Bool × Turn Frame)) : Prop where
  headers : consumed (·.2.before.i.appHeaders) (·.2.after.i.appHeaders) ts <+:
    app.map AppDatagram.sockets
  lengths : consumed (·.2.before.i.appLengths) (·.2.after.i.appLengths) ts <+:
    app.map AppDatagram.length
  data    : consumed (·.2.before.i.appData) (·.2.after.i.appData) ts <+:
    app.flatMap AppDatagram.data

theorem supplied_of_run (run : Run tick (supplying app) x₀ cs x) :
    Supplied app (staging.marked cs) :=
  staging.invariant_of_run (P := fun ts _ => Supplied app ts)
    (Q := fun ts f => Frame.Offered app ts f.i) run
    ⟨List.nil_prefix, List.nil_prefix, List.nil_prefix⟩ (fun offered _ => offered)
    (fun hm hs offered => offered.turn (Frame.step_of_mem_stages hm hs))
    fun ⟨headers, lengths, data⟩ => ⟨(List.prefix_append _ _).trans headers,
      (List.prefix_append _ _).trans lengths, (List.prefix_append _ _).trans data⟩

-- The engine gets a header, a length and a stream of data for each datagram that was taken up while
-- the interface was enabled. The datagrams of the application are taken up in their order, each
-- with its own data, and so are the test requests as the receive side made them. Those that are
-- taken up while the interface is disabled leave no trace.
theorem framed_of_run (hc : create c = .ok x₀) (ended : ∀ s ∈ app, Ended s.data)
    (run : Run tick (supplying app) x₀ cs x) :
    let ts := staging.marked cs
    let ds := Frame.datagrams ts
    (written (·.2.before.o.headers) (·.2.after.o.headers) ts).length =
        (written (·.2.before.o.lengths) (·.2.after.o.lengths) ts).length ∧
      written (·.2.before.o.headers) (·.2.after.o.headers) ts =
        (accepted ds).map Datagram.sockets ∧
      written (·.2.before.o.lengths) (·.2.after.o.lengths) ts =
        (accepted ds).map Datagram.length ∧
      written (·.2.before.o.data) (·.2.after.o.data) ts =
        (accepted ds).flatMap Datagram.sent ∧
      Framed Datagram.sent (x.net.transmitter = .idle ∨ x.net.transmitter = .discard)
        (accepted ds) ∧
      consumed (·.2.before.i.appHeaders) (·.2.after.i.appHeaders) ts =
        (ofApp ds).map Datagram.sockets ∧
      consumed (·.2.before.i.appLengths) (·.2.after.i.appLengths) ts =
        (ofApp ds).map Datagram.length ∧
      consumed (·.2.before.i.appData) (·.2.after.i.appData) ts =
        (ofApp ds).flatMap Datagram.taken ∧
      Datagram.Aligned app (ofApp ds)
        (x.net.transmitter ≠ .app ∧ x.net.transmitter ≠ .discard) ∧
      written (·.2.before.net.testRequests) (·.2.after.net.testRequests) ts =
        (ofTest ds).map Datagram.request ++ x.net.testRequests.items ∧
      ∀ d ∈ ofTest ds, d.IsTest := by
  intro ts ds
  have ⟨booked, recorded, requested⟩ := transmitted_of_run hc run
  have ⟨headers, lengths, data⟩ := supplied_of_run run
  have sized : ∀ d ∈ ofTest ds, d.length ≠ 0 := fun d hd => by
    refine requested.sized d.request ?_
    rw [requested.kept, ← recorded.testRequests]
    exact List.mem_append_left _ (List.mem_map_of_mem hd)
  have taken := booked.flatMap_taken sized
  rw [← recorded.appHeaders] at headers
  rw [← recorded.appLengths] at lengths
  rw [← recorded.taken, ← taken] at data
  refine ⟨?counts, recorded.headers.symm, recorded.lengths.symm, ?sent, booked.framed_sent,
    recorded.appHeaders.symm, recorded.appLengths.symm, ?taken,
    booked.aligned ended headers lengths data, ?tests, booked.isTest sized⟩
  case counts => rw [← recorded.headers, ← recorded.lengths, List.length_map, List.length_map]
  case sent   => rw [booked.flatMap_sent, recorded.sent]
  case taken  => rw [taken, recorded.taken]
  case tests  => rw [requested.kept, recorded.testRequests]

structure Arrival where
  enable : Bool := true
  headers : List SocketPair := []
  data : List Chunk := []
  appHeaders : List SocketPair := []
  appLengths : List UInt16 := []
  appData : List Chunk := []

def arrivals (arrived : List Arrival) : List (Bool × Ingress × Egress) :=
  arrived.map fun a =>
    (a.enable,
      ⟨.single, .single, .fill .single a.data, .fill .single a.headers, .fill .single a.appData,
        .fill .single a.appHeaders, .fill .single a.appLengths⟩,
      ⟨.single, .single, .single, .single, .single, .single, .single⟩)

-- A datagram of the application and a test are sent. The interface is disabled when another
-- datagram of the application is taken up.
theorem framed_of_three_datagrams :
    let client : Socket := ⟨1, 7⟩
    let server : Socket := ⟨2, ListenPort.transmitTest⟩
    let app : Application :=
      [⟨⟨server, client⟩, 3, Chunk.splice [1, 2, 3]⟩,
        ⟨⟨client, server⟩, 9, Chunk.splice (.replicate 9 0)⟩]
    ∃ x₀ cs x, create { Config.standard with streamDepth := 1 } = .ok x₀ ∧
      Run tick (supplying app) x₀ cs x ∧
      written (·.2.before.o.lengths) (·.2.after.o.lengths) (staging.marked cs) = [3, 10] ∧
      written (·.2.before.o.data) (·.2.after.o.data) (staging.marked cs) =
        Chunk.splice [1, 2, 3] ++
          Chunk.splice [0x48, 0x69, 0x20, 0x66, 0x72, 0x6f, 0x6d, 0x20, 0x46, 0x4d] ∧
      consumed (·.2.before.i.appData) (·.2.after.i.appData) (staging.marked cs) =
        app.flatMap AppDatagram.data ∧
      (∃ d ∈ ofTest (Frame.datagrams (staging.marked cs)), d.length = 10 ∧ d.IsTest) ∧
      Framed Datagram.sent (x.net.transmitter = .idle ∨ x.net.transmitter = .discard)
        (accepted (Frame.datagrams (staging.marked cs))) ∧
      Datagram.Aligned app (ofApp (Frame.datagrams (staging.marked cs)))
        (x.net.transmitter ≠ .app ∧ x.net.transmitter ≠ .discard) := by
  intro client server app
  have ⟨x₀, cs, x, hc, run, hlengths, hdata, hconsumed, d, hd, hten⟩ :
      ∃ x₀ cs x, create { Config.standard with streamDepth := 1 } = .ok x₀ ∧
      Run tick (supplying app) x₀ cs x ∧
      written (·.2.before.o.lengths) (·.2.after.o.lengths) (staging.marked cs) = [3, 10] ∧
      written (·.2.before.o.data) (·.2.after.o.data) (staging.marked cs) =
        Chunk.splice [1, 2, 3] ++
          Chunk.splice [0x48, 0x69, 0x20, 0x66, 0x72, 0x6f, 0x6d, 0x20, 0x46, 0x4d] ∧
      consumed (·.2.before.i.appData) (·.2.after.i.appData) (staging.marked cs) =
        app.flatMap AppDatagram.data ∧
      ∃ d ∈ ofTest (Frame.datagrams (staging.marked cs)), d.length = 10 :=
    Run.exists_of_create
      (arrivals [
        { headers := [⟨client, server⟩], appHeaders := [⟨server, client⟩], appLengths := [3] },
        { data := [.ofBytes [0, 10] true], appData := [.ofBytes [1, 2, 3] true] }, {}, {}, {},
        { enable := false, appHeaders := [⟨client, server⟩], appLengths := [9] },
        { enable := false, appData := [.ofBytes (.replicate 8 0) false] },
        { appData := [.ofBytes [0] true] }])
      (by decide +kernel)
  have ended : ∀ s ∈ app, Ended s.data := by
    have h (bytes : List UInt8) (hne : bytes ≠ []) := (Tcp.Carries.splice hne).ended
    simp [app, h]
  have ⟨_, _, _, _, framed, _, _, _, aligned, _, tests⟩ := framed_of_run hc ended run
  exact ⟨x₀, cs, x, hc, run, hlengths, hdata, hconsumed, ⟨d, hd, hten, tests d hd⟩, framed, aligned⟩

end Interface

end ShellInterface.Udp
