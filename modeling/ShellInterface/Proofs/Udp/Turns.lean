import ShellInterface.Proofs.Staging
import ShellInterface.Proofs.Udp.Progress

namespace ShellInterface.Udp

namespace Frame

section Streams

variable (f : Frame)

def receiverLinks : Receiver.Links where
  headers      := f.i.headers
  data         := f.i.data
  appHeaders   := f.o.appHeaders
  appData      := f.o.appData
  testRequests := f.net.testRequests

def afterReceiver (receiver : Receiver) (l : Receiver.Links) : Frame where
  net := { f.net with receiver, testRequests := l.testRequests }
  i := { f.i with headers := l.headers, data := l.data }
  o := { f.o with appHeaders := l.appHeaders, appData := l.appData }

def transmitterLinks : Transmitter.Links where
  appHeaders   := f.i.appHeaders
  appLengths   := f.i.appLengths
  appData      := f.i.appData
  testRequests := f.net.testRequests
  headers      := f.o.headers
  lengths      := f.o.lengths
  data         := f.o.data

def afterTransmitter (transmitter : Transmitter) (l : Transmitter.Links) : Frame where
  net := { f.net with transmitter, testRequests := l.testRequests }
  i := { f.i with
    appHeaders := l.appHeaders
    appLengths := l.appLengths
    appData := l.appData }
  o := { f.o with headers := l.headers, lengths := l.lengths, data := l.data }

end Streams

inductive Step (enable : Bool) (f : Frame) : List Note → Frame → Prop
  | listen {ns listener l}
      (ticked : f.net.listener.tick enable ⟨f.o.listenRequests, f.i.listenReplies⟩ =
        ⟨ns, .ok (listener, l)⟩) :
      Step enable f ns {
        net := { f.net with listener }
        i := { f.i with listenReplies := l.replies }
        o := { f.o with listenRequests := l.requests } }
  | close {ns closer l}
      (ticked : f.net.closer.tick enable ⟨f.o.closeRequests, f.i.closeReplies⟩ =
        ⟨ns, .ok (closer, l)⟩) :
      Step enable f ns {
        net := { f.net with closer }
        i := { f.i with closeReplies := l.replies }
        o := { f.o with closeRequests := l.requests } }
  | receive {ns receiver l}
      (ticked : f.net.receiver.tick enable f.receiverLinks = ⟨ns, .ok (receiver, l)⟩) :
      Step enable f ns (f.afterReceiver receiver l)
  | transmit {ns transmitter l}
      (ticked : f.net.transmitter.tick enable f.transmitterLinks = ⟨ns, .ok (transmitter, l)⟩) :
      Step enable f ns (f.afterTransmitter transmitter l)

theorem step_of_mem_stages {enable : Bool} {f f' : Frame} {ns : List Note}
    {stage : Frame → Traced Frame} (hm : stage ∈ stages enable) (h : stage f = ⟨ns, .ok f'⟩) :
    Step enable f ns f' := by
  simp only [stages, List.mem_cons, List.not_mem_nil, or_false] at hm
  obtain rfl | rfl | rfl | rfl := hm
  all_goals
    obtain ⟨_, ⟨_, _⟩, _, ht, hk, rfl⟩ := Traced.bind_eq_ok.mp h
    cases hk
    rw [List.append_nil]
  · exact .listen ht
  · exact .close ht
  · exact .receive ht
  · exact .transmit ht

end Frame

namespace Interface

def staging : Staging tick Frame where
  stages      := Frame.stages
  entry x l   := ⟨x.net, l.1, l.2⟩
  cycle ticked := by
    rw [← Frame.cycle_eq_foldlM]
    exact (cycle_of_tick ticked).left

end Interface

end ShellInterface.Udp
