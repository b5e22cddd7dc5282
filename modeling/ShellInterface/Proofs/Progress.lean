import ShellInterface.Proofs.Counters
import ShellInterface.Proofs.Tcp.Progress
import ShellInterface.Proofs.Udp.Framing
import ShellInterface.Proofs.Udp.Progress

namespace ShellInterface

-- An interface that was configured properly can be built, and whatever the engine and the
-- application did in a run, the next cycle goes through, whatever they do next.
theorem interfaces_never_stop :
    (∀ c : Tcp.Config, c.validate = .ok () → c.inputBufferChunks < 2 ^ 61 →
      Tcp.Interface.create c ≠ .error (.halt .capacityOverflow) →
      ∃ x₀, Tcp.Interface.create c = .ok x₀ ∧
        ∀ cs x, Run Tcp.Interface.tick .any x₀ cs x → ∀ enable i o,
          cs.length + 1 < Size.limit →
          (faults cs).length + ((x.step enable i o).notes.filterMap Note.fault?).length <
            Size.limit →
          Tcp.Receiver.openLength (Tcp.Frame.received (Tcp.Interface.turns cs)) < 2 ^ 60 →
          ∃ y, (x.step enable i o).outcome = .ok y) ∧
    (∀ c : Udp.Config, c.validate = .ok () →
      Udp.Interface.create c ≠ .error (.halt .capacityOverflow) →
      ∃ x₀, Udp.Interface.create c = .ok x₀ ∧
        ∀ cs x, Run Udp.Interface.tick .any x₀ cs x → ∀ enable i o,
          cs.length + 1 < Size.limit →
          (faults cs).length + ((x.step enable i o).notes.filterMap Note.fault?).length <
            Size.limit →
          ∃ y, (x.step enable i o).outcome = .ok y) := by
  constructor
  case left =>
    intro c valid room afforded
    have ⟨x₀, hc⟩ := Tcp.Interface.exists_create valid afforded
    refine ⟨x₀, hc, ?_⟩
    intro _ _ run enable i o cycles reported open_lt
    exact Tcp.Interface.exists_step_of_run hc run enable i o room cycles reported open_lt
  case right =>
    intro c valid afforded
    have ⟨x₀, hc⟩ := Udp.Interface.exists_create valid afforded
    refine ⟨x₀, hc, ?_⟩
    intro _ _ run enable i o cycles reported
    exact Udp.Interface.exists_step_of_run hc run enable i o cycles reported

-- A notification without any bytes is reported, and the cycle in which a chunk comes that nobody
-- asked for goes through. So does the cycle in which the other interface is disabled while it hands
-- on a datagram, after it has sent one and has reported a test of no bytes.
theorem interfaces_never_stop_of_small :
    (∃ x₀ cs x, Tcp.Interface.create Tcp.Interface.small = .ok x₀ ∧
      Run Tcp.Interface.tick .any x₀ cs x ∧ faults cs = [.zeroLengthNotification 0] ∧
      ∀ choice ∈ Tcp.Interface.arrivals [([], [.ofBytes [1] true], [])],
        ∃ y, (x.step choice.1 choice.2.1 choice.2.2).outcome = .ok y) ∧
    (∃ x₀ cs x, Udp.Interface.create { Udp.Config.standard with streamDepth := 1 } = .ok x₀ ∧
      Run Udp.Interface.tick .any x₀ cs x ∧ faults cs = [.zeroLengthTestRequest ⟨1, 7⟩] ∧
      tally .appChunks (cs.flatMap Cycle.notes) = 1 ∧ x.net.receiver.phase = .data true ∧
      ∀ choice ∈ Udp.Interface.arrivals [{ enable := false, data := [.ofBytes [9] true] }],
        ∃ y, (x.step choice.1 choice.2.1 choice.2.2).outcome = .ok y) := by
  have ⟨tcp, udp⟩ := interfaces_never_stop
  constructor
  case left =>
    have ⟨x₀, hc, steps⟩ := tcp Tcp.Interface.small (by decide) (by decide) (by decide +kernel)
    have ⟨x₀', cs, x, hc', run, reported, cycles, hfaults, open_lt⟩ :
        ∃ x₀ cs x, Tcp.Interface.create Tcp.Interface.small = .ok x₀ ∧
          Run Tcp.Interface.tick .any x₀ cs x ∧ faults cs = [.zeroLengthNotification 0] ∧
          cs.length + 1 < Size.limit ∧
          (∀ choice ∈ Tcp.Interface.arrivals [([], [.ofBytes [1] true], [])],
            (faults cs).length + ((x.step choice.1 choice.2.1 choice.2.2).notes.filterMap
              Note.fault?).length < Size.limit) ∧
          Tcp.Receiver.openLength (Tcp.Frame.received (Tcp.Interface.turns cs)) < 2 ^ 60 :=
      Run.exists_of_create (Tcp.Interface.arrivals [([⟨0, 0, 0, 0, 80⟩], [], [])])
        (by decide +kernel)
    cases hc.symm.trans hc'
    refine ⟨x₀, cs, x, hc, run, reported, fun choice hm => ?_⟩
    exact steps cs x run _ _ _ cycles (hfaults choice hm) open_lt
  case right =>
    have ⟨x₀, hc, steps⟩ := udp { Udp.Config.standard with streamDepth := 1 } (by decide)
      (by decide +kernel)
    have ⟨x₀', cs, x, hc', run, reported, sent, forwarding, cycles, hfaults⟩ :
        ∃ x₀ cs x, Udp.Interface.create { Udp.Config.standard with streamDepth := 1 } = .ok x₀ ∧
          Run Udp.Interface.tick .any x₀ cs x ∧ faults cs = [.zeroLengthTestRequest ⟨1, 7⟩] ∧
          tally .appChunks (cs.flatMap Cycle.notes) = 1 ∧ x.net.receiver.phase = .data true ∧
          cs.length + 1 < Size.limit ∧
          ∀ choice ∈ Udp.Interface.arrivals [{ enable := false, data := [.ofBytes [9] true] }],
            (faults cs).length + ((x.step choice.1 choice.2.1 choice.2.2).notes.filterMap
              Note.fault?).length < Size.limit :=
      Run.exists_of_create
        (Udp.Interface.arrivals [
          { headers := [⟨⟨1, 7⟩, ⟨2, ListenPort.transmitTest⟩⟩],
            appHeaders := [⟨⟨2, 80⟩, ⟨1, 7⟩⟩], appLengths := [3] },
          { data := [.ofBytes [0, 0] true], appData := [.ofBytes [1, 2, 3] true] },
          { headers := [⟨⟨1, 7⟩, ⟨2, 80⟩⟩] }, { data := [.ofBytes (.replicate 8 0) false] }])
        (by decide +kernel)
    cases hc.symm.trans hc'
    refine ⟨x₀, cs, x, hc, run, reported, sent, forwarding, fun choice hm => ?_⟩
    exact steps cs x run _ _ _ cycles (hfaults choice hm)

end ShellInterface
