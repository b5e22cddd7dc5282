import ShellInterface.Proofs.Udp.Datagrams
import ShellInterface.Proofs.Udp.Receiver
import ShellInterface.Proofs.Udp.Turns

namespace ShellInterface.Udp

open Datagram (ofApp ofTest accepted)
open Staging (Turn)

namespace Receiver

variable {r r' : Receiver} {l l' : Links} {enable : Bool} {ns : List Note}

theorem HandsOver.written {sockets : SocketPair} {chunk : Chunk}
    {requests requests' : Fifo TestRequest} (h : HandsOver sockets chunk requests ns requests') :
    requests'.items = requests.items ++ requests.added requests' ∧
      ∀ request ∈ requests.added requests', request.length ≠ 0 := by
  cases h
  case request nonzero write =>
    simpa [Fifo.added_of_write write, (Fifo.write_ok write).left] using nonzero
  all_goals simp

theorem Step.written (h : Step enable r l ns r' l') :
    l'.testRequests.items = l.testRequests.items ++ l.testRequests.added l'.testRequests ∧
      ∀ request ∈ l.testRequests.added l'.testRequests, request.length ≠ 0 := by
  cases h
  case extract handsOver => exact handsOver.written
  all_goals simp

end Receiver

namespace Transmitter

variable {t t' : Transmitter} {l l' : Links} {enable : Bool} {ns : List Note}

structure Takes (l l' : Links) : Prop where
  appHeaders   : l.appHeaders.items = l.appHeaders.taken l'.appHeaders ++ l'.appHeaders.items
  appLengths   : l.appLengths.items = l.appLengths.taken l'.appLengths ++ l'.appLengths.items
  appData      : l.appData.items = l.appData.taken l'.appData ++ l'.appData.items
  testRequests : l.testRequests.items =
    l.testRequests.taken l'.testRequests ++ l'.testRequests.items

theorem Step.takes (h : Step enable l t ns t' l') : Takes l l' := by
  cases h
  case acceptApp readSockets readLength _ _ _ =>
    constructor <;> simp [readSockets, readLength, Fifo.taken_tail readSockets,
      Fifo.taken_tail readLength]
  case discardApp readSockets readLength _ =>
    constructor <;> simp [readSockets, readLength, Fifo.taken_tail readSockets,
      Fifo.taken_tail readLength]
  case acceptTest read _ _ _ => constructor <;> simp [read, Fifo.taken_tail read]
  case ignoreTest read _     => constructor <;> simp [read, Fifo.taken_tail read]
  case sendApp read _        => constructor <;> simp [read, Fifo.taken_tail read]
  case discard read          => constructor <;> simp [read, Fifo.taken_tail read]
  all_goals constructor <;> simp

end Transmitter

namespace Frame

def datagrams (ts : List (Bool × Turn Frame)) : List Datagram :=
  ts.foldl (fun ds (enable, t) =>
    Datagram.enter ds enable t.before.transmitterLinks t.after.transmitterLinks) []

theorem datagrams_concat (ts : List (Bool × Turn Frame)) (enable : Bool) (t : Turn Frame) :
    datagrams (ts ++ [(enable, t)]) = Datagram.enter (datagrams ts) enable
      t.before.transmitterLinks t.after.transmitterLinks := by
  simp [datagrams]

structure Recorded (ts : List (Bool × Turn Frame)) : Prop where
  appHeaders   : (ofApp (datagrams ts)).map Datagram.sockets =
    consumed (·.2.before.i.appHeaders) (·.2.after.i.appHeaders) ts
  appLengths   : (ofApp (datagrams ts)).map Datagram.length =
    consumed (·.2.before.i.appLengths) (·.2.after.i.appLengths) ts
  testRequests : (ofTest (datagrams ts)).map Datagram.request =
    consumed (·.2.before.net.testRequests) (·.2.after.net.testRequests) ts
  headers      : (accepted (datagrams ts)).map Datagram.sockets =
    written (·.2.before.o.headers) (·.2.after.o.headers) ts
  lengths      : (accepted (datagrams ts)).map Datagram.length =
    written (·.2.before.o.lengths) (·.2.after.o.lengths) ts
  taken        : (datagrams ts).flatMap Datagram.taken =
    consumed (·.2.before.i.appData) (·.2.after.i.appData) ts
  sent         : (datagrams ts).flatMap Datagram.sent =
    written (·.2.before.o.data) (·.2.after.o.data) ts

-- The test requests that were made are those that were taken up and those that wait. None of them
-- is for an empty datagram.
structure Requested (ts : List (Bool × Turn Frame)) (n : Network) : Prop where
  kept  : written (·.2.before.net.testRequests) (·.2.after.net.testRequests) ts =
    consumed (·.2.before.net.testRequests) (·.2.after.net.testRequests) ts ++ n.testRequests.items
  sized : ∀ request ∈ written (·.2.before.net.testRequests) (·.2.after.net.testRequests) ts,
    request.length ≠ 0

structure Transmitted (ts : List (Bool × Turn Frame)) (n : Network) : Prop where
  booked    : n.transmitter.Booked (datagrams ts)
  recorded  : Recorded ts
  requested : Requested ts n

structure Apart (f f' : Frame) : Prop where
  transmitter : f'.net.transmitter = f.net.transmitter
  links       : f'.transmitterLinks =
    { f.transmitterLinks with testRequests := f'.net.testRequests }
  tests       : f'.net.testRequests.items =
    f.net.testRequests.items ++ f.net.testRequests.added f'.net.testRequests
  sized       : ∀ request ∈ f.net.testRequests.added f'.net.testRequests, request.length ≠ 0

variable {enable : Bool} {ts : List (Bool × Turn Frame)} {f f' : Frame} {ns : List Note}
  {n : Network} {t : Turn Frame}

theorem Step.apart_or_transmit (step : Step enable f ns f') : Apart f f' ∨
    Transmitter.Step enable f.transmitterLinks f.net.transmitter ns f'.net.transmitter
      f'.transmitterLinks := by
  cases step
  case listen          => exact .inl ⟨rfl, rfl, by simp, by simp⟩
  case close           => exact .inl ⟨rfl, rfl, by simp, by simp⟩
  case receive ticked  =>
    have ⟨written, sized⟩ := (Receiver.step_of_tick ticked).written
    exact .inl ⟨rfl, rfl, written, sized⟩
  case transmit ticked => exact .inr (Transmitter.step_of_tick ticked)

theorem Recorded.next (h : Recorded ts)
    (entered : Datagram.Entered (datagrams ts) (datagrams (ts ++ [(enable, t)]))
      t.before.transmitterLinks t.after.transmitterLinks) : Recorded (ts ++ [(enable, t)]) := by
  constructor
  case appHeaders   => rw [entered.appHeaders, h.appHeaders]; simp [transmitterLinks]
  case appLengths   => rw [entered.appLengths, h.appLengths]; simp [transmitterLinks]
  case testRequests => rw [entered.testRequests, h.testRequests]; simp [transmitterLinks]
  case headers      => rw [entered.headers, h.headers]; simp [transmitterLinks]
  case lengths      => rw [entered.lengths, h.lengths]; simp [transmitterLinks]
  case taken        => rw [entered.taken, h.taken]; simp [transmitterLinks]
  case sent         => rw [entered.sent, h.sent]; simp [transmitterLinks]

theorem Requested.make (h : Requested ts f.net) (apart : Apart f f') :
    Requested (ts ++ [(enable, ⟨f, ns, f'⟩)]) f'.net where
  kept  := by simp [h.kept, apart.tests, Fifo.taken_of_append apart.tests]
  sized := by
    simp only [written_append, written_cons, written_nil, List.append_nil]
    exact List.forall_mem_append.mpr ⟨h.sized, apart.sized⟩

theorem Requested.take (h : Requested ts f.net)
    (takes : Transmitter.Takes f.transmitterLinks f'.transmitterLinks) :
    Requested (ts ++ [(enable, ⟨f, ns, f'⟩)]) f'.net := by
  have tests : f.net.testRequests.items =
      f.net.testRequests.taken f'.net.testRequests ++ f'.net.testRequests.items :=
    takes.testRequests
  have added := Fifo.added_of_suffix tests
  constructor
  case kept  => simp [h.kept, added, tests]
  case sized => simpa [added] using h.sized

theorem Requested.waiting (h : Requested ts n) :
    ∀ request ∈ n.testRequests.items, request.length ≠ 0 :=
  fun request hr => h.sized request (h.kept ▸ List.mem_append_right _ hr)

theorem Transmitted.turn (h : Transmitted ts f.net) (step : Step enable f ns f') :
    Transmitted (ts ++ [(enable, ⟨f, ns, f'⟩)]) f'.net := by
  obtain apart | step := step.apart_or_transmit
  case inl =>
    have still : datagrams (ts ++ [(enable, ⟨f, ns, f'⟩)]) = datagrams ts := by
      rw [datagrams_concat, apart.links]
      exact Datagram.enter_still _ (Fifo.taken_of_append apart.tests)
    refine ⟨?_, h.recorded.next ?_, h.requested.make apart⟩
    · rw [still, apart.transmitter]
      exact h.booked
    · rw [still, apart.links]
      exact .still _ (Fifo.taken_of_append apart.tests)
  case inr =>
    refine ⟨?_, h.recorded.next ?_, h.requested.take step.takes⟩
    · rw [datagrams_concat]
      exact h.booked.next h.requested.waiting step
    · rw [datagrams_concat]
      exact h.booked.entered step

theorem Transmitted.start {c : Config} (h : Network.create c = .ok n) : Transmitted [] n := by
  have ⟨_, ht, h⟩ := exists_of_bind_eq_ok h
  cases h
  have recorded : Recorded [] := ⟨rfl, rfl, rfl, rfl, rfl, rfl, rfl⟩
  exact ⟨.idle nofun, recorded, by simp [(Fifo.create_ok ht).left], nofun⟩

end Frame

namespace Interface

variable {c : Config} {x x₀ : Interface} {cs : History}
  {env : Surroundings Interface Bool (Ingress × Egress)}

theorem network_of_create (h : create c = .ok x₀) : Network.create c = .ok x₀.net := by
  have ⟨_, _, h⟩ := exists_of_bind_eq_ok h
  have ⟨_, hn, h⟩ := exists_of_bind_eq_ok h
  have ⟨_, _, h⟩ := exists_of_bind_eq_ok h
  cases h
  exact of_mapError_eq_ok hn

theorem transmitted_of_run (hc : create c = .ok x₀) (run : Run tick env x₀ cs x) :
    Frame.Transmitted (staging.marked cs) x.net :=
  staging.invariant_of_run (P := fun ts x => Frame.Transmitted ts x.net)
    (Q := fun ts f => Frame.Transmitted ts f.net) run (.start (network_of_create hc))
    (fun _ h => h) (fun hm hs h => h.turn (Frame.step_of_mem_stages hm hs)) id

end Interface

end ShellInterface.Udp
