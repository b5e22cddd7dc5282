import ShellInterface.Proofs.Tcp.Delivery

namespace ShellInterface.Tcp

open Tcp.Frame (Turn)

-- An engine that answers each request, given how many there were before, with one stream, which may
-- be shorter than what was asked for.
structure Responder where
  answer : Nat → ReadRequest → List Chunk
  ended : ∀ k r, r.length ≠ 0 → Ended (answer k r)
  length_le : ∀ k r, r.length ≠ 0 → (answer k r).length ≤ slots r.length.toNat

namespace Responder

theorem slots_pos {r : ReadRequest} (h : r.length ≠ 0) : 1 ≤ slots r.length.toNat := by
  have hpos : r.length.toNat ≠ 0 := fun hz => h (UInt16.toNat_inj.mp hz)
  simp only [slots]
  omega

def short : Responder where
  answer _ r := [.ofBytes (List.replicate r.length.toNat 0) true]
  ended _ _ _ := .last rfl
  length_le _ _ hr := slots_pos hr

variable (responder : Responder) (rs : List ReadRequest)

def answers : List Chunk :=
  (rs.mapIdx responder.answer).flatten

-- The chunks that the answers to these requests have less than slots were reserved for.
def shortfall : Nat :=
  (rs.mapIdx fun k r => slots r.length.toNat - (responder.answer k r).length).sum

theorem answers_append (qs : List ReadRequest) :
    responder.answers rs <+: responder.answers (rs ++ qs) := by
  simp [answers, List.mapIdx_append]

variable {responder rs}

theorem answers_length (h : ∀ r ∈ rs, r.length ≠ 0) :
    (responder.answers rs).length + responder.shortfall rs =
      (rs.map (slots ·.length.toNat)).sum := by
  induction rs using List.reverseRecOn
  case nil => rfl
  case append_singleton rs r ih =>
    have hle := responder.length_le rs.length r (h r (by simp))
    have := ih fun q hq => h q (by simp [hq])
    simp [answers, shortfall, List.mapIdx_append] at *
    omega

theorem shortfall_eq_zero_iff (h : ∀ r ∈ rs, r.length ≠ 0) : responder.shortfall rs = 0 ↔
    ∀ k r, rs[k]? = some r → (responder.answer k r).length = slots r.length.toNat := by
  simp only [shortfall, List.sum_eq_zero_iff, List.mem_mapIdx, forall_exists_index]
  constructor
  case mp =>
    intro hz k r hk
    have ⟨hlt, he⟩ := List.getElem?_eq_some_iff.mp hk
    have hle := responder.length_le k r (h r (List.mem_of_getElem? hk))
    have := hz _ k hlt rfl
    rw [he] at this
    omega
  case mpr =>
    rintro hfull _ k hlt rfl
    have := hfull k rs[k] (List.getElem?_eq_getElem hlt)
    omega

end Responder

namespace Frame

variable {responder : Responder} {capacity : Nat} {ts : List Turn} {f f' : Frame} {ns : List Note}

structure Covered (responder : Responder) (capacity : Nat) (ts : List Turn) (n : Network) :
    Prop where
  promise : Promised ts n
  credit  : Credit capacity 0 n

theorem Covered.turn {enable : Bool} (step : Step enable f ns f')
    (h : Covered responder capacity ts f.net) (fed : Fed responder.answers ts f.i) :
    Covered responder capacity (ts ++ [⟨f, ns, f'⟩]) f'.net := by
  have nonempty : ∀ r ∈ requests ts, r.length ≠ 0 := by
    rw [h.promise.requests]
    exact List.forall_mem_map.mpr h.promise.nonempty
  have hsum : (responder.answers (requests ts)).length + responder.shortfall (requests ts) = _ :=
    Responder.answers_length nonempty
  have reserved := h.promise.enqueued_le fed (Nat.le.intro hsum)
  exact ⟨h.promise.turn step reserved, h.credit.turn step reserved⟩

end Frame

namespace Interface

def answering (responder : Responder) : Surroundings Interface Bool (Ingress × Egress) :=
  fun cs _ l => Frame.Fed responder.answers (turns cs) l.1

instance (responder : Responder) (cs : History) (enable : Bool) (l : Ingress × Egress) :
    Decidable (answering responder cs enable l) :=
  inferInstanceAs (Decidable (Frame.Fed responder.answers (turns cs) l.1))

variable {c : Config} {x x₀ : Interface} {cs : History} {responder : Responder}

theorem covered_of_run (hc : create c = .ok x₀) (run : Run tick (answering responder) x₀ cs x) :
    Frame.Covered responder c.inputBufferChunks (turns cs) x.net := by
  have hn := network_of_create hc
  refine invariant_of_run (P := Frame.Covered responder c.inputBufferChunks)
    (Q := fun _ ts f => Frame.Fed responder.answers ts f.i ∧
      Frame.Covered responder c.inputBufferChunks ts f.net)
    run ⟨.start hn, (Credit.start hn).left⟩ ?enter ?turn ?leave
  case enter => exact fun fed covered => ⟨fed, covered⟩
  case turn  =>
    intro _ _ _ _ _ step ⟨fed, covered⟩
    exact ⟨fed.turn step responder.answers_append, covered.turn step fed⟩
  case leave => exact fun ⟨_, covered⟩ => covered

-- Once every request is answered and every chunk of the answers has left the buffer, all slots but
-- one are free again. The reservations that are left over are those of the chunks which the streams
-- were short of. So the credit of the buffer is whole again only if every stream had a chunk for
-- each slot that was reserved for it.
theorem reserved_eq_shortfall (hc : create c = .ok x₀)
    (run : Run tick (answering responder) x₀ cs x)
    (answered : Frame.chunks (turns cs) = responder.answers (Frame.requests (turns cs)))
    (unheld : x.net.interrupts.scheduler.phase.held = []) (emptied : x.bufferedChunks = 0)
    (signalled : x.net.inner.dequeued.items = []) :
    x.net.occupancy.free + 1 = c.inputBufferChunks ∧
    x.net.occupancy.reserved = responder.shortfall (Frame.requests (turns cs)) ∧
    x.net.occupancy.available + 1 + responder.shortfall (Frame.requests (turns cs)) =
      c.inputBufferChunks ∧
    (x.net.occupancy.reserved = 0 ↔ ∀ k r, (Frame.requests (turns cs))[k]? = some r →
      (responder.answer k r).length = slots r.length.toNat) := by
  have ⟨promise, credit⟩ := covered_of_run hc run
  have ⟨he, _⟩ := settled_of_run hc run.forget
  have nonempty : ∀ r ∈ Frame.requests (turns cs), r.length ≠ 0 := by
    rw [promise.requests]
    exact List.forall_mem_map.mpr promise.nonempty
  have free : x.net.occupancy.free + 1 = c.inputBufferChunks := by
    have := credit.balance
    simp only [bufferedChunks, Fifo.length] at emptied
    simpa [he, emptied, signalled] using this
  have reserved : x.net.occupancy.reserved =
      responder.shortfall (Frame.requests (turns cs)) := by
    have hsum : (responder.answers _).length + responder.shortfall _ = _ :=
      Responder.answers_length nonempty
    have hpromised := promise.promised
    rw [← answered, promise.requests, List.map_map] at hsum
    rw [promise.requests]
    simp only [he, unheld, List.append_nil, List.length_nil] at hpromised
    simp only [Function.comp_def, ForwardCommand.request] at hsum
    omega
  refine ⟨free, reserved, ?_, reserved ▸ Responder.shortfall_eq_zero_iff nonempty⟩
  have := credit.reserved_le
  simp only [Occupancy.available]
  omega

-- Sixteen bytes are requested, and eight of them come. The run ends when they have left the buffer.
theorem exists_run_of_short_stream :
    ∃ x₀ cs x, create { small with inputBufferChunks := 3 } = .ok x₀ ∧
      Run tick (answering .short) x₀ cs x ∧
      Frame.requests (turns cs) = [⟨0, 16⟩] ∧
      Frame.chunks (turns cs) = Responder.short.answers (Frame.requests (turns cs)) ∧
      x.net.interrupts.scheduler.phase.held = [] ∧ x.bufferedChunks = 0 ∧
      x.net.inner.dequeued.items = [] ∧ x.net.occupancy.reserved = 1 :=
  Run.exists_of_create
    (arrivals [([⟨0, 16, 0, 0, 80⟩], [], []), ([], [], []), ([], [], []), ([], [], []),
      ([], [], []), ([], [], []), ([], [.ofBytes [0, 0, 0, 0, 0, 0, 0, 0] true], [0]),
      ([], [], []), ([], [], []), ([], [], [])])
    (by decide +kernel)

theorem reserved_eq_shortfall_of_short_stream :
    ∃ x₀ cs x, create { small with inputBufferChunks := 3 } = .ok x₀ ∧
      Run tick (answering .short) x₀ cs x ∧
      Frame.chunks (turns cs) = Responder.short.answers (Frame.requests (turns cs)) ∧
      x.net.interrupts.scheduler.phase.held = [] ∧ x.bufferedChunks = 0 ∧
      x.net.inner.dequeued.items = [] ∧
      x.net.occupancy.free + 1 = 3 ∧ x.net.occupancy.available = 1 ∧
      x.net.occupancy.reserved = Responder.short.shortfall [⟨0, 16⟩] := by
  have ⟨x₀, cs, x, hc, run, hr, answered, unheld, emptied, signalled, _⟩ :=
    exists_run_of_short_stream
  have ⟨free, reserved, available, _⟩ :=
    reserved_eq_shortfall hc run answered unheld emptied signalled
  rw [hr] at reserved available
  exact ⟨x₀, cs, x, hc, run, answered, unheld, emptied, signalled, free,
    by simpa [Responder.shortfall, Responder.short, slots] using available, reserved⟩

-- So the reservations are not all given back, although nothing is under way any more.
theorem reserved_not_returned :
    ¬ ∀ (c : Config) (responder : Responder) x₀ cs x, c.inputBufferChunks < 2 ^ 61 →
      create c = .ok x₀ → Run tick (answering responder) x₀ cs x →
      Frame.chunks (turns cs) = responder.answers (Frame.requests (turns cs)) →
      x.net.interrupts.scheduler.phase.held = [] → x.bufferedChunks = 0 →
      x.net.inner.dequeued.items = [] →
      x.net.occupancy.reserved = 0 ∧ x.net.occupancy.free + 1 = c.inputBufferChunks := by
  intro h
  have ⟨x₀, cs, x, hc, run, _, answered, unheld, emptied, signalled, reserved⟩ :=
    exists_run_of_short_stream
  have ⟨returned, _⟩ := h _ _ x₀ cs x (by decide) hc run answered unheld emptied signalled
  rw [reserved] at returned
  cases returned

end Interface

end ShellInterface.Tcp
