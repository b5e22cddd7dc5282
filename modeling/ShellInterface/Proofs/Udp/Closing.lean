import ShellInterface.Proofs.Counters
import ShellInterface.Proofs.Udp.Closer

namespace ShellInterface.Udp.Closer

abbrev History := List (Cycle Closer Bool Links)

def requests (cs : History) : List Port :=
  written (·.before.requests) (·.after.requests) cs

def replies (cs : History) : List Bool :=
  consumed (·.before.replies) (·.after.replies) cs

-- An engine that answers each request once and in its turn, and takes any time it likes. What it
-- sent stays in the stream until it is read.
structure Answering (cs : History) (_enable : Bool) (s : Links) : Prop where
  owed : (replies cs).length + s.replies.items.length ≤ (requests cs).length
  kept : ∀ c ∈ cs.getLast?, c.after.replies.items <+: s.replies.items

instance (cs : History) (enable : Bool) (s : Links) : Decidable (Answering cs enable s) :=
  decidable_of_iff
    ((replies cs).length + s.replies.items.length ≤ (requests cs).length ∧
      ∀ c ∈ cs.getLast?, c.after.replies.items <+: s.replies.items)
    ⟨fun ⟨owed, kept⟩ => ⟨owed, kept⟩, fun ⟨owed, kept⟩ => ⟨owed, kept⟩⟩

def awaited (c : Closer) : Nat :=
  if c.phase = .await then 1 else 0

def ending (c : Closer) : List Bool :=
  if c.phase = .done then [false] else []

structure Account (c c' : Closer) (asked : List Port) (read : List Bool) (ns : List Note)
    (m n : Nat) : Prop where
  port_eq : c'.port = c.port
  asked   : asked = .replicate m c.port
  awaited : m + c.awaited = read.length + c'.awaited
  read    : c.ending ++ read = .replicate n true ++ c'.ending
  faults  : ns.filterMap Note.fault? = .replicate n (.closeDenied c.port)
  closed  : c.ending.length + tally .closedPorts ns = c'.ending.length

-- So many replies said that the port was open. One of them or the last reply came of each request,
-- unless its reply is still awaited.
structure Accounted (port : Port) (cs : History) (c : Closer) (n : Nat) : Prop where
  port_eq  : c.port = port
  requests : requests cs = .replicate ((replies cs).length + c.awaited) port
  replies  : replies cs = .replicate n true ++ c.ending
  faults   : faults cs = .replicate n (.closeDenied port)
  closed   : tally .closedPorts (cs.flatMap Cycle.notes) = c.ending.length

variable {port : Port} {c c' : Closer} {s s' : Links} {enable : Bool} {ns : List Note}
  {cs ds : History} {x : Cycle Closer Bool Links} {n : Nat}

theorem requests_concat (x : Cycle Closer Bool Links) :
    requests (cs ++ [x]) = requests cs ++ x.before.requests.added x.after.requests := by
  simp [requests]

theorem replies_concat (x : Cycle Closer Bool Links) :
    replies (cs ++ [x]) = replies cs ++ x.before.replies.taken x.after.replies := by
  simp [replies]

theorem Step.account (h : Step enable c s ns c' s')
    (expected : c.phase = .idle → s.replies.items = []) : ∃ m n,
      Account c c' (s.requests.added s'.requests) (s.replies.taken s'.replies) ns m n := by
  cases h
  case clear phase _ read => simp [expected phase] at read
  case ask phase write    =>
    exact ⟨1, 0, rfl, Fifo.added_of_write write, by simp [awaited, phase],
      by simp [ending, phase], rfl, by simp [ending, phase]⟩
  case deny phase read    =>
    exact ⟨0, 1, rfl, by simp, by simp [awaited, phase, Fifo.taken_tail read],
      by simp [ending, phase, Fifo.taken_tail read], rfl, by simp [ending, phase]⟩
  case confirm phase read =>
    exact ⟨0, 0, rfl, by simp, by simp [awaited, phase, Fifo.taken_tail read],
      by simp [ending, phase, Fifo.taken_tail read], rfl, by simp [ending, phase]⟩
  case wake phase _       =>
    exact ⟨0, 0, rfl, by simp, by simp [awaited, phase], by simp [ending, phase], rfl,
      by simp [ending, phase]⟩
  all_goals exact ⟨0, 0, rfl, by simp, by simp, by simp, rfl, by simp⟩

theorem Step.faults_length_le (h : Step enable c s ns c' s') :
    (ns.filterMap Note.fault?).length ≤ 1 := by
  cases h
  case clear => exact Nat.le_refl 1
  case deny  => exact Nat.le_refl 1
  all_goals exact Nat.zero_le 1

theorem Accounted.length_eq (h : Accounted port cs c n) :
    (Closer.requests cs).length = (Closer.replies cs).length + c.awaited := by
  rw [h.requests, List.length_replicate]

theorem Accounted.items_eq_nil (h : Accounted port cs c n) (allowed : Answering cs enable s)
    (phase : c.phase ≠ .await) : s.replies.items = [] := by
  have owed := allowed.owed
  rw [h.length_eq, awaited, if_neg phase] at owed
  exact List.eq_nil_of_length_eq_zero (by omega)

theorem Accounted.start : Accounted port [] (create port) 0 :=
  ⟨rfl, rfl, rfl, rfl, rfl⟩

theorem Accounted.next (h : Accounted port cs x.source n)
    (allowed : Answering cs enable x.before)
    (step : Step enable x.source x.before x.notes x.target x.after) :
    ∃ n, Accounted port (cs ++ [x]) x.target n := by
  have ⟨m, k, port_eq, asked, awaited, read, faults, closed⟩ :=
    step.account fun phase => h.items_eq_nil allowed (by simp [phase])
  refine ⟨n + k, port_eq.trans h.port_eq, ?requests, ?replies, ?faults, ?closed⟩
  case requests =>
    rw [requests_concat, replies_concat, asked, h.requests, h.port_eq, List.length_append,
      List.replicate_append_replicate]
    congr 1
    omega
  case replies =>
    rw [replies_concat, h.replies, List.append_assoc, read, ← List.append_assoc,
      List.replicate_append_replicate]
  case faults =>
    rw [faults_append, h.faults, faults_cons, faults_nil, List.append_nil, faults, h.port_eq,
      List.replicate_append_replicate]
  case closed =>
    rw [List.flatMap_append, tally_append, h.closed, List.flatMap_singleton, closed]

theorem accounted_of_run (run : Run tick Answering (create port) cs c) :
    ∃ n, Accounted port cs c n := by
  induction run
  case start => exact ⟨0, .start⟩
  case next allowed ticked ih =>
    have ⟨_, h⟩ := ih
    exact h.next allowed (step_of_tick ticked)

theorem Accounted.isDone_iff (h : Accounted port cs c n) (allowed : Answering cs enable s) :
    c.isDone ↔ (Closer.replies cs ++ s.replies.items).getLast? = some false ∧
      s.replies.items = [] := by
  rw [isDone, beq_iff_eq]
  constructor
  case mp =>
    intro phase
    have empty := h.items_eq_nil allowed (by simp [phase])
    exact ⟨by simp [empty, h.replies, ending, phase], empty⟩
  case mpr =>
    rintro ⟨last, empty⟩
    by_cases phase : c.phase = .done
    case pos => exact phase
    case neg =>
      rw [empty, List.append_nil, h.replies, ending, if_neg phase, List.append_nil] at last
      simp [List.getLast?_replicate] at last

theorem rest_of_run (done : c.phase = .done) (run : Run tick .any c ds c') :
    c' = c ∧ ∀ d ∈ ds, d.after = d.before := by
  induction run
  case start => exact ⟨rfl, nofun⟩
  case next ticked ih =>
    obtain ⟨rfl, rest⟩ := ih
    simp only [tick, done] at ticked
    cases ticked
    exact ⟨rfl, List.forall_mem_append.mpr ⟨rest, List.forall_mem_singleton.mpr rfl⟩⟩

theorem Accounted.count_false (h : Accounted port cs c n) :
    (Closer.replies cs).count false = c.ending.length := by
  by_cases phase : c.phase = .done <;> simp [h.replies, ending, phase, List.count_replicate]

theorem Accounted.count_true (h : Accounted port cs c n) :
    (Closer.replies cs).count true = n := by
  by_cases phase : c.phase = .done <;> simp [h.replies, ending, phase]

theorem length_ending (c : Closer) : c.ending.length = if c.isDone then 1 else 0 := by
  by_cases phase : c.phase = .done <;> simp [ending, isDone, phase]

theorem Accounted.stats_of_follow {history : Nat} {g : Ledger} (h : Accounted port cs c n)
    (kept : (Ledger.empty history).follow cs = .ok g) :
    (g.stats.get .closedPorts).toNat = c.ending.length := by
  have hle : c.ending.length ≤ 1 := by
    rw [ending]
    split <;> decide
  have hzero : (Ledger.empty history).stats.get .closedPorts = 0 := Stats.get_zero _
  rw [Ledger.stats_of_follow kept, hzero, UInt64.zero_add, h.closed]
  exact UInt64.toNat_ofNat_of_lt' (Nat.lt_of_le_of_lt hle (by decide))

-- Nothing but the port is requested to be closed, and not again before the reply is read. The
-- closer is done if and only if the last reply of the engine said that the port is closed, and was
-- read. Then it stays done, and no stream is touched. Each reply before said that the port was
-- still open, and there are no other faults than these.
theorem closed_of_run (run : Run tick Answering (create port) cs c) :
    (∀ p ∈ requests cs, p = port) ∧
    ((requests cs).length = (replies cs).length + (if c.phase = .await then 1 else 0) ∧
      (requests cs).length ≤ (replies cs).length + 1) ∧
    (∀ enable s, Answering cs enable s →
      (c.isDone ↔ (replies cs ++ s.replies.items).getLast? = some false ∧ s.replies.items = [])) ∧
    (replies cs).count false = (if c.isDone then 1 else 0) ∧
    tally .closedPorts (cs.flatMap Cycle.notes) = (if c.isDone then 1 else 0) ∧
    (∀ history, ((∃ g, (Ledger.empty history).follow cs = .ok g) ↔ cs.length < Size.limit) ∧
      ∀ g, (Ledger.empty history).follow cs = .ok g →
        (g.stats.get .closedPorts).toNat = if c.isDone then 1 else 0) ∧
    (c.isDone → ∀ ds y, Run tick .any c ds y → y = c ∧ ∀ d ∈ ds, d.after = d.before) ∧
    faults cs = .replicate ((replies cs).count true) (.closeDenied port) := by
  have ⟨n, accounted⟩ := accounted_of_run run
  have length_eq := accounted.length_eq
  rw [← length_ending]
  refine ⟨fun p hp => ?_, ⟨length_eq, ?_⟩, fun enable s => accounted.isDone_iff,
    accounted.count_false, accounted.closed,
    fun history => ⟨?_, fun g => accounted.stats_of_follow⟩,
    fun done ds y => rest_of_run (beq_iff_eq.mp done), ?_⟩
  case refine_1 =>
    rw [accounted.requests] at hp
    exact List.eq_of_mem_replicate hp
  case refine_2 =>
    rw [awaited] at length_eq
    split at length_eq <;> omega
  case refine_3 =>
    exact Ledger.exists_follow_iff_of_run (fun ticked => (step_of_tick ticked).faults_length_le) run
      history
  case refine_4 => rw [accounted.count_true, accounted.faults]

def links (pending : List Port) (replies : List Bool) : Links :=
  ⟨.fill .single pending, .fill .single replies⟩

-- The first request is denied, and there is no room for the second one yet.
theorem closed_of_denied_request :
    ∃ cs c g, Run tick Answering (create 57005) cs c ∧ c.isDone ∧ requests cs = [57005, 57005] ∧
      faults cs = [.closeDenied 57005] ∧ (Ledger.empty 4).follow cs = .ok g ∧
      (g.stats.get .closedPorts).toNat = 1 := by
  have ⟨cs, c, run, hrequests, hreplies, allowed, length_lt⟩ : ∃ cs c,
      Run tick Answering (create 57005) cs c ∧ requests cs = [57005, 57005] ∧
      replies cs = [true, false] ∧ Answering cs true (links [] []) ∧ cs.length < Size.limit :=
    Run.exists_of_execute [(false, links [] []), (true, links [] []), (true, links [80] []),
      (true, links [] []), (true, links [] []), (false, links [] [true]), (true, links [57005] []),
      (true, links [] []), (true, links [] [false]), (true, links [] [])] (by decide)
  have ⟨_, _, isDone_iff, _, _, counters, _, hfaults⟩ := closed_of_run run
  rw [hreplies] at isDone_iff hfaults
  have done := (isDone_iff true (links [] []) allowed).mpr ⟨rfl, rfl⟩
  have ⟨exists_follow, closed⟩ := counters 4
  have ⟨g, kept⟩ := exists_follow.mpr length_lt
  exact ⟨cs, c, g, run, done, hrequests, hfaults, kept, (closed g kept).trans (if_pos done)⟩

end ShellInterface.Udp.Closer
