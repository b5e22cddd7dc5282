import ShellInterface.Proofs.Counters
import ShellInterface.Proofs.Listener.Grants

namespace ShellInterface.Listener

def repeated (ports : List Port) (ks : List Nat) : List Port :=
  (ports.zip ks).flatMap fun (p, k) => List.replicate k p

def Unanswered (p : Port) (n : Nat) (cs : History) : Prop :=
  ∃ as q ws, cs = as ++ q :: ws ∧ requests [q] = [p] ∧ ws.length = n ∧
    ∀ d ∈ ws, d.source.phase = .await ∧ d.before.replies.items = []

theorem repeated_concat {ports : List Port} {ks : List Nat} {p : Port}
    (h : ports[ks.length]? = some p) (k : Nat) :
    repeated ports (ks ++ [k]) = repeated ports ks ++ List.replicate k p := by
  induction ks generalizing ports <;> cases ports
  case nil.nil   => cases h
  case cons.nil  => cases h
  case nil.cons  =>
    cases h
    simp [repeated]
  case cons.cons ih _ _ =>
    simp only [repeated, List.cons_append, List.zip_cons_cons, List.flatMap_cons,
      List.append_assoc] at ih ⊢
    rw [ih h]

theorem repeated_concat_zero (ports : List Port) (ks : List Nat) :
    repeated ports (ks ++ [0]) = repeated ports ks := by
  induction ks generalizing ports <;> cases ports
  case nil.cons  => simp [repeated]
  case cons.cons ih _ _ =>
    simp only [repeated, List.cons_append, List.zip_cons_cons, List.flatMap_cons] at ih ⊢
    rw [ih]
  all_goals rfl

section Unanswered

variable {p : Port} {n : Nat} {cs : History} {c : Cycle Listener Bool Links}

theorem unanswered_concat_iff : Unanswered p n (cs ++ [c]) ↔
    n = 0 ∧ requests [c] = [p] ∨
    ∃ m, n = m + 1 ∧ Unanswered p m cs ∧ c.source.phase = .await ∧
      c.before.replies.items = [] := by
  constructor
  case mp =>
    rintro ⟨as, q, ws, he, hq, rfl, hws⟩
    obtain rfl | ⟨vs, d, rfl⟩ := ws.eq_nil_or_concat
    case inl =>
      obtain ⟨_, hc⟩ := List.append_inj' he rfl
      cases hc
      exact .inl ⟨rfl, hq⟩
    case inr =>
      rw [List.concat_eq_append, ← List.cons_append, ← List.append_assoc] at he
      obtain ⟨hcs, hc⟩ := List.append_inj' he rfl
      cases hc
      simp only [List.concat_eq_append, List.forall_mem_append, List.forall_mem_singleton] at hws
      exact .inr ⟨vs.length, by simp, ⟨as, q, vs, hcs, hq, rfl, hws.left⟩, hws.right⟩
  case mpr =>
    rintro (⟨rfl, hc⟩ | ⟨m, rfl, ⟨as, q, ws, rfl, hq, rfl, hws⟩, hc⟩)
    case inl => exact ⟨cs, c, [], rfl, hc, rfl, nofun⟩
    case inr =>
      refine ⟨as, q, ws ++ [c], by simp, hq, by simp, ?_⟩
      exact List.forall_mem_append.mpr ⟨hws, List.forall_mem_singleton.mpr hc⟩

end Unanswered

variable {l l' y : Listener} {s s' : Links} {enable : Bool} {ns : List Note} {ports : List Port}
  {watchdog : Nat} {asked : List Port} {read : List Bool} {cs ds : History}
  {c : Cycle Listener Bool Links}

theorem Step.reload_eq (h : Step enable l s ns l' s') :
    l'.watchdog.reload = l.watchdog.reload := by
  cases h <;> rfl

theorem proceed_phase_ne_idle (l : Listener) : l.proceed.phase ≠ .idle := by
  unfold proceed
  split <;> nofun

theorem Step.idle_iff (h : Step enable l s ns l' s') :
    l'.phase = .idle ↔ l.phase = .idle ∧ enable = false := by
  cases h
  case wake enabled => simp [proceed_phase_ne_idle, enabled]
  case confirm      => simp_all [proceed_phase_ne_idle]
  all_goals simp_all

theorem Step.opened_le (h : Step enable l s ns l' s') (hl : l.opened ≤ l.ports.length) :
    l'.opened ≤ l'.ports.length := by
  cases h
  case confirm inHand _ => exact (List.getElem?_eq_some_iff.mp inHand).1
  all_goals exact hl

theorem Step.links_eq (h : Step enable l s ns l' s') (hp : l.phase = .idle ∨ l.phase = .done) :
    s' = s := by
  cases h
  case sleep => rfl
  case wake  => rfl
  case rest  => rfl
  all_goals simp_all

theorem Step.eq_of_done (h : Step enable l s ns l' s') (hp : l.phase = .done) : l' = l := by
  cases h
  case rest => rfl
  all_goals simp_all

structure Walked (ports asked : List Port) (l : Listener) (ks : List Nat) (k : Nat) : Prop where
  length_eq   : ks.length = l.opened
  pos         : ∀ n ∈ ks, 0 < n
  requests_eq : asked = repeated ports (ks ++ [k])
  await       : l.phase = .await → 0 < k

theorem Walked.next {ks : List Nat} {k : Nat} {new : List Port} {denied expired : Bool}
    (h : Walked ports asked l ks k) (hp : l.ports = ports)
    (he : Effect l l' new read denied expired) :
    ∃ ks k, Walked ports (asked ++ new) l' ks k := by
  have ⟨length_eq, pos, requests_eq, await⟩ := h
  cases he
  case quiet opened phase =>
    exact ⟨ks, k, length_eq.trans opened.symm, pos, by simpa using requests_eq,
      fun ha => await (phase.mp ha)⟩
  case ask port inHand opened _ _ =>
    rw [hp, ← length_eq] at inHand
    refine ⟨ks, k + 1, length_eq.trans opened.symm, pos, ?_, fun _ => Nat.succ_pos k⟩
    rw [requests_eq, repeated_concat inHand, repeated_concat inHand, List.append_assoc,
      List.replicate_succ']
  case expire opened _ after =>
    exact ⟨ks, k, length_eq.trans opened.symm, pos, by simpa using requests_eq,
      fun ha => absurd ha after⟩
  case deny opened _ after =>
    exact ⟨ks, k, length_eq.trans opened.symm, pos, by simpa using requests_eq,
      fun ha => absurd ha after⟩
  case grant opened before after =>
    -- The next port is in hand, which was not requested yet.
    refine ⟨ks ++ [k], 0, by rw [List.length_append, length_eq, opened]; rfl,
      List.forall_mem_append.mpr ⟨pos, List.forall_mem_singleton.mpr (await before)⟩, ?_,
      fun ha => absurd ha after⟩
    rw [repeated_concat_zero, List.append_nil, requests_eq]

def awaited (l : Listener) : Nat :=
  if l.phase = .await then 1 else 0

theorem awaited_eq_one (h : l.phase = .await) : l.awaited = 1 :=
  if_pos h

theorem awaited_eq_zero (h : l.phase ≠ .await) : l.awaited = 0 :=
  if_neg h

theorem awaited_proceed (l : Listener) : l.proceed.awaited = 0 :=
  awaited_eq_zero (proceed_phase_ne_await l)

structure Account (l l' : Listener) (asked : List Port) (read : List Bool) (ns : List Note)
    (m n : Nat) : Prop where
  opened   : l'.opened = l.opened + m
  granted  : read.count true = m
  listened : tally .listenedPorts ns = m
  retried  : tally .listenRetries ns = n
  requests : asked.length + l.awaited = m + n + l'.awaited
  le_one   : m + n ≤ 1

theorem Step.account (h : Step enable l s ns l' s') : ∃ m n,
    Account l l' (s.requests.added s'.requests) (s.replies.taken s'.replies) ns m n := by
  cases h
  case wake hp _ =>
    have := awaited_eq_zero (l := l) (by simp [hp])
    exact ⟨0, 0, rfl, by simp, rfl, rfl, by simp [awaited_proceed, this], by decide⟩
  case ask hp _ write =>
    exact ⟨0, 0, rfl, by simp, rfl, rfl, by simp [Fifo.added_of_write write, awaited, hp],
      by decide⟩
  case wait hp _ _ =>
    exact ⟨0, 0, rfl, by simp, rfl, rfl, by simp [awaited], by decide⟩
  case expire hp _ _ _ =>
    exact ⟨0, 1, rfl, by simp, rfl, rfl, by simp [awaited, hp], by decide⟩
  case confirm hp _ reply =>
    exact ⟨1, 0, rfl, by simp [Fifo.taken_tail reply], rfl, rfl,
      by simp [awaited_proceed, awaited_eq_one hp], by decide⟩
  case deny hp _ reply =>
    exact ⟨0, 1, rfl, by simp [Fifo.taken_tail reply], rfl, rfl, by simp [awaited, hp], by decide⟩
  all_goals exact ⟨0, 0, rfl, by simp, rfl, rfl, by simp, by decide⟩

-- Each reply that was read opened a port or led to a retry, and so did each expiry. One of these
-- came of each request, unless its reply is still awaited.
structure Accounted (cs : History) (l : Listener) : Prop where
  granted  : (replies cs).count true = l.opened
  listened : tally .listenedPorts (cs.flatMap Cycle.notes) = l.opened
  requests : (requests cs).length =
    l.opened + tally .listenRetries (cs.flatMap Cycle.notes) + l.awaited
  le_length : l.opened + tally .listenRetries (cs.flatMap Cycle.notes) ≤ cs.length

theorem Accounted.next (h : Accounted cs c.source)
    (step : Step enable c.source c.before c.notes c.target c.after) :
    Accounted (cs ++ [c]) c.target := by
  have ⟨granted, listened, requests, le_length⟩ := h
  have ⟨_, _, opened, granted', listened', retried, requests', le_one⟩ := step.account
  constructor <;>
    simp only [replies_concat, requests_concat, List.flatMap_append, List.flatMap_singleton,
      tally_append, List.count_append, List.length_append, List.length_singleton] <;>
    omega

section Waiting

variable {p : Port} {n : Nat}

structure Waiting (watchdog : Nat) (l : Listener) (p : Port) (n : Nat) : Prop where
  phase     : l.phase = .await
  inHand    : l.ports[l.opened]? = some p
  countdown : n + l.watchdog.remaining = max 1 watchdog
  running   : 0 < l.watchdog.remaining

theorem Step.waiting_of_added (h : Step enable l s ns l' s')
    (reload_eq : l.watchdog.reload = max 1 watchdog) (asked : s.requests.added s'.requests = [p]) :
    Waiting watchdog l' p 0 := by
  cases h
  case ask inHand write =>
    rw [Fifo.added_of_write write] at asked
    cases asked
    exact ⟨rfl, inHand, by simpa using reload_eq, by simp only [Watchdog.arm_remaining]; omega⟩
  all_goals simp at asked

theorem Waiting.next (h : Waiting watchdog l p n) (step : Step enable l s ns l' s')
    (empty : s.replies.items = []) (early : n + 1 < max 1 watchdog) :
    Waiting watchdog l' p (n + 1) := by
  have ⟨phase, inHand, countdown, running⟩ := h
  cases step
  case wait => exact ⟨phase, inHand, by simp only [Watchdog.tick_remaining]; omega,
    by simp only [Watchdog.tick_remaining]; omega⟩
  case expire expired =>
    simp [Watchdog.isExpired] at expired
    omega
  all_goals simp_all

theorem Step.of_await (h : Step enable l s ns l' s') (hp : l'.phase = .await) :
    (∃ p, s.requests.added s'.requests = [p]) ∨
    l.phase = .await ∧ s.replies.items = [] ∧ 1 < l.watchdog.remaining := by
  cases h
  case wake      => exact absurd hp (proceed_phase_ne_await _)
  case confirm   => exact absurd hp (proceed_phase_ne_await _)
  case ask write => exact .inl ⟨_, Fifo.added_of_write write⟩
  case wait phase empty running =>
    simp [Watchdog.isExpired] at running
    exact .inr ⟨phase, empty, by omega⟩
  all_goals simp_all

theorem Step.timeout_iff (h : Step enable l s ns l' s')
    (waiting : l.phase = .await → ∃ q m, Waiting watchdog l q m) :
    .listenTimeout p ∈ ns.filterMap Note.fault? ↔
      ∃ m, Waiting watchdog l p m ∧ m + 1 = max 1 watchdog ∧ s.replies.items = [] := by
  constructor
  case mp =>
    intro hm
    cases h
    case expire port phase inHand empty expired =>
      obtain rfl : p = port := by simpa [Note.fault?] using hm
      obtain ⟨q, m, w⟩ := waiting phase
      obtain rfl : p = q := Option.some.inj (inHand.symm.trans w.inHand)
      have := w.countdown
      have := w.running
      simp [Watchdog.isExpired] at expired
      exact ⟨m, w, by omega, empty⟩
    all_goals simp [Note.fault?] at hm
  case mpr =>
    rintro ⟨m, ⟨phase, inHand, countdown, running⟩, hm, empty⟩
    cases h
    case wait hrun =>
      simp [Watchdog.isExpired] at hrun
      omega
    case expire inHand' _ _ =>
      cases inHand'.symm.trans inHand
      simp [Note.fault?]
    all_goals simp_all

theorem Step.faults_length_le (h : Step enable l s ns l' s') :
    (ns.filterMap Note.fault?).length ≤ 1 := by
  cases h
  case expire => exact Nat.le_refl 1
  case deny   => exact Nat.le_refl 1
  all_goals exact Nat.zero_le 1

end Waiting

section Run

variable {origin : String}

structure Journey (ports : List Port) (watchdog : Nat) (cs : History) (l : Listener) : Prop where
  ports_eq  : l.ports = ports
  reload_eq : l.watchdog.reload = max 1 watchdog
  opened_le : l.opened ≤ l.ports.length
  engaged   : l.Engaged
  done      : l.phase = .done → l.ports.length ≤ l.opened
  asleep    : l.phase = .idle ↔ ∀ c ∈ cs, c.input = false
  accounted : Accounted cs l
  walked    : ∃ ks k, Walked ports (requests cs) l ks k
  waiting   : l.phase = .await → ∃ p n, Waiting watchdog l p n ∧ Unanswered p n cs

theorem Journey.start : Journey ports watchdog [] (create origin ports watchdog) where
  ports_eq  := rfl
  reload_eq := rfl
  opened_le := Nat.zero_le _
  engaged   := .create origin ports watchdog
  done      := nofun
  asleep    := by simp [create]
  accounted := ⟨rfl, rfl, rfl, Nat.le_refl _⟩
  walked    := ⟨[], 0, rfl, nofun, by rw [repeated_concat_zero]; simp [requests, repeated], nofun⟩
  waiting   := nofun

theorem Journey.next (h : Journey ports watchdog cs c.source)
    (step : Step c.input c.source c.before c.notes c.target c.after) :
    Journey ports watchdog (cs ++ [c]) c.target where
  ports_eq  := step.preserves_ports.trans h.ports_eq
  reload_eq := step.reload_eq.trans h.reload_eq
  opened_le := step.opened_le h.opened_le
  engaged   := h.engaged.next step
  done      := step.preserves_done h.done
  asleep    := by
    rw [step.idle_iff, h.asleep, List.forall_mem_append, List.forall_mem_singleton]
  accounted := h.accounted.next step
  walked    := by
    obtain ⟨_, _, w⟩ := h.walked
    rw [requests_concat]
    exact w.next h.ports_eq step.effect
  waiting   := by
    intro hp
    obtain ⟨p, asked⟩ | ⟨phase, empty, early⟩ := step.of_await hp
    case inl =>
      exact ⟨p, 0, step.waiting_of_added h.reload_eq asked,
        unanswered_concat_iff.mpr (.inl ⟨rfl, by simpa [requests] using asked⟩)⟩
    case inr =>
      obtain ⟨p, n, w, unanswered⟩ := h.waiting phase
      have := w.countdown
      exact ⟨p, n + 1, w.next step empty (by omega),
        unanswered_concat_iff.mpr (.inr ⟨n, rfl, unanswered, phase, empty⟩)⟩

theorem journey_of_run (run : Run tick .any (create origin ports watchdog) cs l) :
    Journey ports watchdog cs l := by
  induction run
  case start             => exact .start
  case next _ ticked ih  => exact ih.next (c := ⟨_, _, _, _, _, _⟩) (step_of_tick ticked)

theorem waiting_of_unanswered {p : Port} {n : Nat}
    (run : Run tick .any (create origin ports watchdog) cs l) (h : Unanswered p n cs)
    (early : n < max 1 watchdog) : Waiting watchdog l p n := by
  induction run generalizing n
  case start =>
    obtain ⟨_, _, _, he, _⟩ := h
    simp at he
  case next run _ ticked ih =>
    have step := step_of_tick ticked
    obtain ⟨rfl, asked⟩ | ⟨m, rfl, unanswered, _, empty⟩ := unanswered_concat_iff.mp h
    case inl =>
      exact step.waiting_of_added (journey_of_run run).reload_eq (by simpa [requests] using asked)
    case inr => exact (ih unanswered (by omega)).next step empty early

theorem timeout_iff_of_run {p : Port}
    (run : Run tick .any (create origin ports watchdog) cs c.source)
    (step : Step c.input c.source c.before c.notes c.target c.after) :
    .listenTimeout p ∈ faults [c] ↔ Unanswered p (max 1 watchdog) (cs ++ [c]) := by
  have waiting := (journey_of_run run).waiting
  rw [faults_cons, faults_nil, List.append_nil, unanswered_concat_iff,
    step.timeout_iff fun hp => (waiting hp).imp fun _ ⟨n, w, _⟩ => ⟨n, w⟩]
  constructor
  case mp =>
    rintro ⟨m, w, hm, empty⟩
    have ⟨q, n, w', unanswered⟩ := waiting w.phase
    obtain rfl : q = p := Option.some.inj (w'.inHand.symm.trans w.inHand)
    obtain rfl : n = m := Nat.add_right_cancel (w'.countdown.trans w.countdown.symm)
    exact .inr ⟨n, hm.symm, unanswered, w.phase, empty⟩
  case mpr =>
    rintro (⟨hz, _⟩ | ⟨m, hm, unanswered, _, empty⟩)
    case inl => omega
    case inr => exact ⟨m, waiting_of_unanswered run unanswered (by omega), hm.symm, empty⟩

-- What is known of each cycle: it reports one fault at most, a timeout exactly when the time has
-- run out, and touches no stream unless one of the cycles before was enabled.
theorem cycle_of_run (run : Run tick .any (create origin ports watchdog) cs l) :
    ∀ ys c zs, cs = ys ++ c :: zs →
      (faults [c]).length ≤ 1 ∧
      (∀ p, .listenTimeout p ∈ faults [c] ↔ Unanswered p (max 1 watchdog) (ys ++ [c])) ∧
      ((∀ d ∈ ys, d.input = false) → c.after = c.before) := by
  induction run
  case start => simp
  case next run _ ticked ih =>
    have step := step_of_tick ticked
    refine forall_split_concat ih ⟨?_, fun p => timeout_iff_of_run run step, fun disabled => ?_⟩
    case refine_1 => simpa using step.faults_length_le
    case refine_2 => exact step.links_eq (.inl ((journey_of_run run).asleep.mpr disabled))

theorem rest_of_run (done : l.phase = .done) (run : Run tick .any l ds y) :
    y = l ∧ ∀ d ∈ ds, d.after = d.before := by
  induction run
  case start => exact ⟨rfl, nofun⟩
  case next ticked ih =>
    obtain ⟨rfl, rest⟩ := ih
    have step := step_of_tick ticked
    exact ⟨step.eq_of_done done, List.forall_mem_append.mpr
      ⟨rest, List.forall_mem_singleton.mpr (step.links_eq (.inr done))⟩⟩

theorem Journey.isDone_iff (h : Journey ports watchdog cs l) :
    l.isDone ↔ l.opened = ports.length ∧ ∃ c ∈ cs, c.input = true := by
  have hle := h.opened_le
  have hdone := h.done
  have hengaged := h.engaged
  have hasleep := not_congr h.asleep
  rw [h.ports_eq] at hle hdone
  rw [Engaged, h.ports_eq] at hengaged
  simp only [Classical.not_forall, Bool.not_eq_false, exists_prop] at hasleep
  rw [← hasleep, isDone, beq_iff_eq]
  cases hp : l.phase
  case idle    => simp
  case request => simp [Nat.ne_of_lt (hengaged (.inl hp))]
  case await   => simp [Nat.ne_of_lt (hengaged (.inr hp))]
  case done    => simp [Nat.le_antisymm hle (hdone hp)]

theorem Accounted.stats_of_follow {history : Nat} {g : Ledger} (h : Accounted cs l)
    (kept : (Ledger.empty history).follow cs = .ok g) :
    (g.stats.get .listenedPorts).toNat = l.opened ∧
      (g.stats.get .listenRetries).toNat = tally .listenRetries (cs.flatMap Cycle.notes) := by
  have hle := h.le_length
  have hzero : (Ledger.empty history).monitor.cycle = 0 := rfl
  have hlt := Ledger.length_of_follow kept (hzero ▸ by decide)
  have hstats (counter : Counter) : (Ledger.empty history).stats.get counter = 0 :=
    Stats.get_zero counter
  simp only [Ledger.stats_of_follow kept, hstats, UInt64.zero_add, h.listened]
  rw [hzero, Size.limit] at hlt
  exact ⟨UInt64.toNat_ofNat_of_lt' (by omega), UInt64.toNat_ofNat_of_lt' (by omega)⟩

-- The ports are requested in the order of the table, each of them once at least before the next
-- one, and the port in hand any number of times. The ports that were opened, the positive replies
-- that were read and the counter are the same number, and each request opened a port, was retried,
-- or is the one whose reply is awaited. A reply is overdue after as many cycles as the watchdog
-- counts, at least one. Before the listener is enabled and after it is done, no stream is touched.
theorem walked_of_run (run : Run tick .any (create origin ports watchdog) cs l) :
    let listened := tally .listenedPorts (cs.flatMap Cycle.notes)
    let retried := tally .listenRetries (cs.flatMap Cycle.notes)
    (l.opened ≤ ports.length ∧ ∃ ks k, ks.length = l.opened ∧ (∀ n ∈ ks, 0 < n) ∧
      requests cs = repeated ports (ks ++ [k])) ∧
    (l.opened = (replies cs).count true ∧ l.opened = listened ∧
      (requests cs).length = listened + retried + if l.phase = .await then 1 else 0) ∧
    (∀ history, ((∃ g, (Ledger.empty history).follow cs = .ok g) ↔ cs.length < Size.limit) ∧
      ∀ g, (Ledger.empty history).follow cs = .ok g →
        (g.stats.get .listenedPorts).toNat = listened ∧
        (g.stats.get .listenRetries).toNat = retried) ∧
    (∀ ys c zs, cs = ys ++ c :: zs →
      (faults [c]).length ≤ 1 ∧
      (∀ p, .listenTimeout p ∈ faults [c] ↔ Unanswered p (max 1 watchdog) (ys ++ [c])) ∧
      ((∀ d ∈ ys, d.input = false) → c.after = c.before)) ∧
    (l.isDone ↔ l.opened = ports.length ∧ ∃ c ∈ cs, c.input = true) ∧
    (l.isDone → ∀ ds y, Run tick .any l ds y → y = l ∧ ∀ d ∈ ds, d.after = d.before) ∧
    ∀ enable s, ∃ ns l' s', l.tick enable s = ⟨ns, .ok (l', s')⟩ := by
  have journey := journey_of_run run
  have ⟨granted, listened, hrequests, _⟩ := journey.accounted
  have ⟨ks, k, length_eq, pos, requests_eq, _⟩ := journey.walked
  refine ⟨⟨journey.ports_eq ▸ journey.opened_le, ks, k, length_eq, pos, requests_eq⟩,
    ⟨granted.symm, listened.symm, listened.symm ▸ hrequests⟩, fun history => ⟨?_, fun g kept => ?_⟩,
    cycle_of_run run, journey.isDone_iff, fun done ds y more => ?_, fun enable s => ?_⟩
  case refine_1 =>
    exact Ledger.exists_follow_iff_of_run (fun ticked => (step_of_tick ticked).faults_length_le) run
      history
  case refine_2 => exact listened.symm ▸ journey.accounted.stats_of_follow kept
  case refine_3 => exact rest_of_run (beq_iff_eq.mp done) more
  case refine_4 =>
    have ⟨ns, (l', s'), h⟩ := (succeeds_tick enable s journey.engaged).exists_eq
    exact ⟨ns, l', s', h⟩

end Run

-- The reply to the first request is overdue after one cycle, as the watchdog counts one at least,
-- and the second request is denied.
theorem walked_of_retried_port :
    ∃ cs l g, Run tick .any (create "listener" [8800, 8803] 0) cs l ∧
      requests cs = [8800, 8800, 8800, 8803] ∧ (replies cs).count true = 1 ∧
      (Ledger.empty 4).follow cs = .ok g ∧ (g.stats.get .listenedPorts).toNat = 1 ∧
      (g.stats.get .listenRetries).toNat = 2 := by
  have ⟨cs, l, run, hrequests, hopened, hphase, length_lt⟩ : ∃ cs l, Run tick .any
      (create "listener" [8800, 8803] 0) cs l ∧ requests cs = [8800, 8800, 8800, 8803] ∧
      l.opened = 1 ∧ l.phase = .await ∧ cs.length < Size.limit :=
    Run.exists_of_execute (cycles [[], [], [], [], [false], [], [true], []]) (by decide +kernel)
  have ⟨_, ⟨granted, listened, length⟩, counters, _⟩ := walked_of_run run
  have ⟨exists_follow, stats⟩ := counters 4
  have ⟨g, kept⟩ := exists_follow.mpr length_lt
  have ⟨hlistened, hretried⟩ := stats g kept
  rw [hrequests, ← listened, hopened, if_pos hphase] at length
  refine ⟨cs, l, g, run, hrequests, granted ▸ hopened, kept, ?_, ?_⟩
  case refine_1 => rw [hlistened, ← listened, hopened]
  case refine_2 =>
    rw [hretried]
    simp at length
    omega

end ShellInterface.Listener
