import ShellInterface.Proofs.Supply
import ShellInterface.Proofs.Tcp.Transmission

namespace ShellInterface.Tcp

open Tcp.Frame (Turn)

abbrev Application := List (SendRequest × List Chunk)

namespace Transfer

def ofApp (rs : List Transfer) : List Transfer :=
  rs.filter (·.requester = .app)

theorem flatMap_taken_ofApp {rs : List Transfer}
    (h : ∀ r ∈ rs, r.requester = .test → r.taken = []) :
    (ofApp rs).flatMap taken = rs.flatMap taken :=
  flatMap_filter fun r hr hq => h r hr (by cases hr : r.requester <;> simp_all)

-- The requests that were taken are the first ones, and the data that was taken for each is its own,
-- all of it unless the request is the last one.
def Aligned (app : Application) (rs : List Transfer) (ended : Prop) : Prop :=
  ∀ (j : Nat) r, rs[j]? = some r → ∃ s, app[j]? = some s ∧ r.request = s.1 ∧
    r.taken <+: s.2 ∧ (j + 1 < rs.length ∨ ended → r.taken = s.2)

end Transfer

namespace Transmitter

variable {t : Transmitter} {rs : List Transfer} {app : Application}

theorem Booked.taken_of_test (h : Booked t rs) :
    ∀ r ∈ rs, r.requester = .test → r.taken = [] := by
  intro r hr hq
  obtain finished | busy := h.finished_or_busy hr
  case inl => simpa [Transfer.Drained, hq] using finished.drained
  case inr => exact busy.unfinished.taken_unmarked.right hq

theorem Booked.exists_split (h : Booked t rs) : ∃ done current, rs = done ++ current ∧
    current.length ≤ 1 ∧ (∀ r ∈ done, r.Finished t.budget) ∧ ∀ r ∈ current, t.Busy r := by
  cases h
  case idle finished =>
    exact ⟨rs, [], (List.append_nil rs).symm, Nat.zero_le 1, finished, nofun⟩
  case hand done r finished busy =>
    exact ⟨done, [r], rfl, Nat.le_refl 1, finished, List.forall_mem_singleton.mpr busy⟩

theorem Booked.framed (h : Booked t rs) :
    Framed Transfer.taken (t.phase = .idle ∨ t.requester = .test) (Transfer.ofApp rs) := by
  obtain ⟨done, current, rfl, single, finished, busy⟩ := h.exists_split
  refine .filter single (fun r hr hq => ?finished) (fun r hr _ => ?unmarked)
    fun ended r hr => ?off
  case finished =>
    simpa [Transfer.Drained, of_decide_eq_true hq] using (finished r hr).drained
  case unmarked => exact (busy r hr).unfinished.taken_unmarked.left
  case off =>
    have hr := busy r hr
    simp [← hr.holds.requester, ended.resolve_left hr.not_idle]

theorem Booked.sent_eq (h : Booked t rs) : ∀ r ∈ Transfer.ofApp rs,
    r.sent = if r.isGranted then r.taken else [] := by
  intro r hr
  have ⟨hr, hq⟩ := List.mem_filter.mp hr
  obtain finished | busy := h.finished_or_busy hr
  case inl => exact finished.sent_eq (of_decide_eq_true hq)
  case inr => exact busy.unfinished.sent_eq (of_decide_eq_true hq)

theorem Step.taken_append {t' : Transmitter} {l l' : Links} {enable : Bool} {ns : List Note}
    (h : Step enable t l ns t' l') :
    l.appRequests.items = l.appRequests.taken l'.appRequests ++ l'.appRequests.items ∧
      l.appData.items = l.appData.taken l'.appData ++ l'.appData.items := by
  cases h
  case acceptApp read _  => simp [read, Fifo.taken_tail read]
  case discardApp read _ => simp [read, Fifo.taken_tail read]
  case sendApp read _    => simp [read, Fifo.taken_tail read]
  case drain read        => simp [read, Fifo.taken_tail read]
  all_goals simp

end Transmitter

namespace Frame

-- What the application has written: requests and data in their order, neither waiting for the
-- other.
structure Offered (app : Application) (ts : List Turn) (i : Ingress) : Prop where
  requests : consumed (·.before.i.appRequests) (·.after.i.appRequests) ts ++ i.appRequests.items <+:
    app.map Prod.fst
  data     : consumed (·.before.i.appData) (·.after.i.appData) ts ++ i.appData.items <+:
    app.flatMap Prod.snd

variable {app : Application} {enable : Bool} {ts : List Turn} {f f' : Frame} {ns : List Note}

instance (app : Application) (ts : List Turn) (i : Ingress) : Decidable (Offered app ts i) :=
  decidable_of_iff (_ ∧ _) ⟨fun ⟨hr, hd⟩ => ⟨hr, hd⟩, fun ⟨hr, hd⟩ => ⟨hr, hd⟩⟩

theorem Offered.turn (h : Offered app ts f.i) (step : Step enable f ns f') :
    Offered app (ts ++ [⟨f, ns, f'⟩]) f'.i := by
  have ⟨requests, data⟩ := h
  cases step
  case transmit ticked =>
    have ⟨hr, hd⟩ := (Transmitter.step_of_tick ticked).taken_append
    replace hr : f.i.appRequests.items = _ := hr
    replace hd : f.i.appData.items = _ := hd
    rw [hr] at requests
    rw [hd] at data
    exact ⟨by simpa using requests, by simpa using data⟩
  all_goals
    constructor <;> simpa [afterInterrupts, afterBuffer, afterTracker, afterReceiver]

end Frame

namespace Interface

def supplying (app : Application) : Surroundings Interface Bool (Ingress × Egress) :=
  fun cs _ l => Frame.Offered app (turns cs) l.1

instance (app : Application) (cs : History) (enable : Bool) (l : Ingress × Egress) :
    Decidable (supplying app cs enable l) :=
  inferInstanceAs (Decidable (Frame.Offered app (turns cs) l.1))

variable {c : Config} {x x₀ : Interface} {cs : History} {app : Application}

theorem offered_of_run (run : Run tick (supplying app) x₀ cs x) :
    consumed (·.before.i.appRequests) (·.after.i.appRequests) (turns cs) <+: app.map Prod.fst ∧
      consumed (·.before.i.appData) (·.after.i.appData) (turns cs) <+: app.flatMap Prod.snd := by
  refine invariant_of_run
    (P := fun ts _ =>
      consumed (·.before.i.appRequests) (·.after.i.appRequests) ts <+: app.map Prod.fst ∧
      consumed (·.before.i.appData) (·.after.i.appData) ts <+: app.flatMap Prod.snd)
    (Q := fun _ ts f => Frame.Offered app ts f.i) run ⟨List.nil_prefix, List.nil_prefix⟩ ?enter
    ?turn ?leave
  case enter => exact fun offered _ => offered
  case turn  => exact fun step offered => offered.turn step
  case leave =>
    exact fun ⟨requests, data⟩ =>
      ⟨(List.prefix_append _ _).trans requests, (List.prefix_append _ _).trans data⟩

-- The requests of the application are taken in their order, each with its own stream of data,
-- whatever the engine replies and whatever else is transmitted. The data of a granted request is
-- sent as it is taken, and all that was sent is the data of one transfer after the other.
theorem aligned_of_run (hn : Network.create c = .ok x₀.net) (ended : ∀ s ∈ app, Ended s.2)
    (run : Run tick (supplying app) x₀ cs x) :
    let rs := Frame.transfers (marked cs)
    consumed (·.before.i.appRequests) (·.after.i.appRequests) (turns cs) =
        (Transfer.ofApp rs).map Transfer.request ∧
      consumed (·.before.i.appData) (·.after.i.appData) (turns cs) =
        (Transfer.ofApp rs).flatMap Transfer.taken ∧
      written (·.before.o.data) (·.after.o.data) (turns cs) = rs.flatMap Transfer.sent ∧
      Transfer.Aligned app (Transfer.ofApp rs)
        (x.net.transmitter.phase = .idle ∨ x.net.transmitter.requester = .test) ∧
      ∀ r ∈ Transfer.ofApp rs, r.sent = if r.isGranted then r.taken else [] := by
  have ⟨booked, recorded, _, _, _, _⟩ := transacted_of_run hn run
  have ⟨requests, data⟩ := offered_of_run run
  rw [← marked_map_snd] at requests data ⊢
  rw [← recorded.requests] at requests ⊢
  rw [← recorded.taken, ← Transfer.flatMap_taken_ofApp booked.taken_of_test] at data ⊢
  exact ⟨rfl, rfl, recorded.sent.symm, fun _ _ => booked.framed.aligned ended requests data,
    booked.sent_eq⟩

-- There is no room for the first request, and the second one is granted.
theorem aligned_of_two_requests :
    let app : Application := [(⟨0, 9⟩, Chunk.splice (.replicate 9 0)), (⟨1, 1⟩, Chunk.splice [7])]
    ∃ x₀ cs x, Network.create { small with sendRetries := 1 } = .ok x₀.net ∧
      Run tick (supplying app) x₀ cs x ∧
      consumed (·.before.i.appData) (·.after.i.appData) (turns cs) = app.flatMap Prod.snd ∧
      written (·.before.o.data) (·.after.o.data) (turns cs) = Chunk.splice [7] ∧
      Transfer.Aligned app (Transfer.ofApp (Frame.transfers (marked cs)))
        (x.net.transmitter.phase = .idle ∨ x.net.transmitter.requester = .test) := by
  intro app
  have ⟨x₀, cs, x, hc, run, hconsumed, hwritten⟩ :
      ∃ x₀ cs x, create { small with sendRetries := 1 } = .ok x₀ ∧
      Run tick (supplying app) x₀ cs x ∧
      consumed (·.before.i.appData) (·.after.i.appData) (turns cs) = app.flatMap Prod.snd ∧
      written (·.before.o.data) (·.after.o.data) (turns cs) = Chunk.splice [7] :=
    Run.exists_of_create
      (transmissions [{ requests := [⟨0, 9⟩] }, {}, { replies := [⟨0, 9, 0, 1⟩] },
        { data := [.ofBytes (.replicate 8 0) false] }, { data := [.ofBytes [0] true] },
        { requests := [⟨1, 1⟩] }, {}, { replies := [⟨1, 1, 9, 0⟩] },
        { data := [.ofBytes [7] true] }])
      (by decide +kernel)
  have ended : ∀ s ∈ app, Ended s.2 := by
    have h (bytes : List UInt8) (hne : bytes ≠ []) := (Carries.splice hne).ended
    simp [app, h]
  have ⟨_, _, _, aligned, _⟩ := aligned_of_run (network_of_create hc) ended run
  exact ⟨x₀, cs, x, network_of_create hc, run, hconsumed, hwritten, aligned⟩

end Interface

end ShellInterface.Tcp
