import Mathlib
import ShellInterface.Proofs.Run
import ShellInterface.Proofs.Tcp.Interrupts

namespace ShellInterface.Tcp

def ForwardCommand.request (cmd : ForwardCommand) : ReadRequest :=
  ⟨cmd.session, cmd.length⟩

def Poster.held : Poster → List Notification
  | .idle      => []
  | .holding n => [n]

def Poster.posted : Poster → Poster → List Notification
  | .holding n, .idle => [n]
  | _,          _     => []

def Scheduler.Phase.held : Scheduler.Phase → List ForwardCommand
  | .emit _ cmd => [cmd]
  | _           => []

def Scheduler.Phase.taken : Scheduler.Phase → Scheduler.Phase → List ForwardCommand
  | .query _, .emit _ cmd => [cmd]
  | _,        _           => []

namespace Scheduler.Phase

variable {session : SessionId} {r : ReadRequest} {cmd : ForwardCommand} {p : Phase}

@[simp]
theorem held_idle : held .idle = [] := rfl

@[simp]
theorem held_query : held (.query session) = [] := rfl

@[simp]
theorem held_emit : held (.emit r cmd) = [cmd] := rfl

@[simp]
theorem taken_idle : taken .idle p = [] := rfl

@[simp]
theorem taken_emit : taken (.emit r cmd) p = [] := rfl

@[simp]
theorem taken_query_idle : taken (.query session) .idle = [] := rfl

@[simp]
theorem taken_query_emit : taken (.query session) (.emit r cmd) = [cmd] := rfl

@[simp]
theorem taken_self : taken p p = [] := by
  cases p <;> rfl

end Scheduler.Phase

theorem SessionTable.post_bytes {t t' : SessionTable} {session s : SessionId} {length : UInt16}
    {port : Port} (h : t.post session length port = .ok t') :
    t'.bytes s = if s = session then min (t.bytes s + length.toNat) maxBytes else t.bytes s := by
  have ⟨_, e, he, hs⟩ := post_ok h
  by_cases hi : s = session
  · subst hi
    simp [bytes, hs, he]
  · simp [bytes, hs, hi]

theorem SessionTable.consume_bytes {t t' : SessionTable} {session s : SessionId} {length : Nat}
    {left : SessionEntry} (h : t.consume session length = .ok (left, t')) :
    t'.bytes s = if s = session then t.bytes s - length else t.bytes s := by
  have ⟨_, e, he, hl, hs⟩ := consume_ok h
  by_cases hi : s = session
  · subst hi
    simp [bytes, hs, he, hl]
  · simp [bytes, hs, hi]

namespace Scheduler

def Aligned (s : Scheduler) : Prop :=
  ∀ r cmd, s.phase = .emit r cmd → r = cmd.request ∧ cmd.length ≠ 0

variable {s s' : Scheduler} {granted : Bool} {t t' : SessionTable} {o o' : Occupancy}
  {l l' : Links} {ns : List Note}

theorem Step.preserves_routes (h : Step granted t o l s ns s' t' o' l') :
    s'.routes = s.routes := by
  cases h <;> simp

theorem Step.preserves_aligned (h : Step granted t o l s ns s' t' o' l') (ha : s.Aligned) :
    s'.Aligned := by
  intro r cmd hp
  cases h
  case select       => cases hp
  case rest         => exact ha r cmd hp
  case refuse       => exact ha r cmd hp
  case release      => cases hp
  case take hne _ _ _ => cases hp; exact ⟨rfl, hne⟩
  case stall        => exact ha r cmd hp
  case emit         => cases hp

theorem Step.held_append (h : Step granted t o l s ns s' t' o' l') :
    s.phase.held ++ s.phase.taken s'.phase =
      l.commands.added l'.commands ++ s'.phase.held := by
  cases h
  case emit hp _ hc => simp [hp, Fifo.added_of_write hc]
  all_goals simp_all

theorem Step.taken_cases (h : Step granted t o l s ns s' t' o' l') :
    s.phase.taken s'.phase = [] ∧ t' = t ∨
    ∃ cmd left e, s.phase.taken s'.phase = [cmd] ∧ granted = true ∧
      t.entry? cmd.session = some e ∧ t.consume cmd.session cmd.length.toNat = .ok (left, t') ∧
      cmd.length ≠ 0 ∧ cmd.length.toNat ≤ e.bytes ∧ cmd.route = s.routes.lookup e.port := by
  cases h
  case take hp hg he hl hne hc _ _ =>
    exact .inr ⟨_, _, _, by rw [hp]; rfl, hg, he, hc, hne, hl ▸ requestLength_le .., rfl⟩
  all_goals simp_all

theorem Step.requests_added (h : Step granted t o l s ns s' t' o' l') (ha : s.Aligned) :
    l.requests.added l'.requests =
      (l.commands.added l'.commands).map ForwardCommand.request := by
  cases h
  case emit hp hr hc => simp [Fifo.added_of_write hr, Fifo.added_of_write hc, ha _ _ hp]
  all_goals simp

theorem Step.no_fault (h : Step granted t o l s ns s' t' o' l') :
    ns.filterMap Note.fault? = [] := by
  cases h <;> rfl

end Scheduler

namespace Poster

variable {p p' : Poster} {granted : Bool} {t t' : SessionTable} {s s' : Fifo Notification}
  {ns : List Note}

theorem Step.held_append (h : Step granted t s p ns p' t' s') :
    p.held ++ (s.taken s').filter (rejection t.size · = none) = p.posted p' ++ p'.held := by
  cases h
  case wait             => simp [held, posted]
  case accept hr hv     => simp [held, posted, Fifo.taken_tail hr, hv]
  case discard hr hv    => simp [held, posted, Fifo.taken_tail hr, hv]
  case hold             => simp [held, posted]
  case post             => simp [held, posted]

theorem Step.posted_cases (h : Step granted t s p ns p' t' s') :
    p.posted p' = [] ∧ t' = t ∨
    ∃ n, p.posted p' = [n] ∧ granted = true ∧ t.post n.session n.length n.localPort = .ok t' := by
  cases h
  case post hg hp => exact .inr ⟨_, rfl, hg, hp⟩
  all_goals exact .inl ⟨rfl, rfl⟩

theorem Step.faults (h : Step granted t s p ns p' t' s') :
    ns.filterMap Note.fault? = (s.taken s').filterMap (rejection t.size) := by
  cases h
  case accept hr hv  => simp [Fifo.taken_tail hr, hv]
  case discard hr hv => simp [Fifo.taken_tail hr, hv, Note.fault?]
  all_goals simp [Note.fault?]

end Poster

namespace Interrupts

-- What a cycle means for the table: it stays as it is, a notification is entered, or bytes are
-- taken, and their route is that of the entry.
inductive Change (x x' : Interrupts) : List Notification → List ForwardCommand → Prop
  | keep (table : x'.table = x.table) : Change x x' [] []
  | post {n} (posted : x.table.post n.session n.length n.localPort = .ok x'.table) :
      Change x x' [n] []
  | take {cmd left e} (found : x.table.entry? cmd.session = some e)
      (consumed : x.table.consume cmd.session cmd.length.toNat = .ok (left, x'.table))
      (length_ne : cmd.length ≠ 0) (length_le : cmd.length.toNat ≤ e.bytes)
      (route : cmd.route = x.scheduler.routes.lookup e.port) : Change x x' [] [cmd]

variable {x x' : Interrupts} {l l' : Links} {ns ms ks : List Note} {t : SessionTable}

theorem Step.not_posted_of_taken (h : Step x l ns x' l' ms ks t) {cmd : ForwardCommand}
    (taken : cmd ∈ x.scheduler.phase.taken x'.scheduler.phase) :
    x.poster.posted x'.poster = [] ∧ t = x.table := by
  obtain hp | ⟨_, _, high, _⟩ := h.poster.posted_cases
  case inl => exact hp
  case inr =>
    obtain ⟨hs, _⟩ | ⟨_, _, _, _, low, _⟩ := h.scheduler.taken_cases
    case inl => simp [hs] at taken
    case inr => exact absurd ((beq_iff_eq.mp high).symm.trans (beq_iff_eq.mp low)) nofun

theorem Step.change (h : Step x l ns x' l' ms ks t) :
    Change x x' (x.poster.posted x'.poster) (x.scheduler.phase.taken x'.scheduler.phase) := by
  obtain ⟨hs, hx⟩ | ⟨cmd, left, e, hs, _, he, hc, hne, hle, hr⟩ := h.scheduler.taken_cases
  case inl =>
    rw [hs]
    obtain ⟨hp, rfl⟩ | ⟨n, hp, _, ht⟩ := h.poster.posted_cases <;> rw [hp]
    case inl => exact .keep hx
    case inr => exact .post (hx ▸ ht)
  case inr =>
    obtain ⟨hp, rfl⟩ := h.not_posted_of_taken (hs ▸ List.mem_singleton_self cmd)
    rw [hs, hp]
    exact .take he hc hne hle hr

abbrev History := List (Cycle Interrupts Unit Links)

def read (cs : History) : List Notification :=
  consumed (·.before.notifications) (·.after.notifications) cs

def requests (cs : History) : List ReadRequest :=
  written (·.before.requests) (·.after.requests) cs

def commands (cs : History) : List ForwardCommand :=
  written (·.before.commands) (·.after.commands) cs

def posted (cs : History) : List Notification :=
  cs.flatMap fun c => c.source.poster.posted c.target.poster

def taken (cs : History) : List ForwardCommand :=
  cs.flatMap fun c => c.source.scheduler.phase.taken c.target.scheduler.phase

def latest? (session : SessionId) (ns : List Notification) : Option Notification :=
  ns.reverse.find? (·.session == session)

def announced (session : SessionId) (ns : List Notification) : Nat :=
  (ns.map fun n => if n.session = session then n.length.toNat else 0).sum

def requested (session : SessionId) (rs : List ReadRequest) : Nat :=
  (rs.map fun r => if r.session = session then r.length.toNat else 0).sum

def Unsaturated (cs : History) : Prop :=
  ∀ c ∈ cs, ∀ n ∈ posted [c],
    c.source.table.bytes n.session + n.length.toNat ≤ SessionTable.maxBytes

instance (cs : History) : Decidable (Unsaturated cs) :=
  inferInstanceAs (Decidable (∀ c ∈ cs, ∀ n ∈ posted [c],
    c.source.table.bytes n.session + n.length.toNat ≤ SessionTable.maxBytes))

variable {cs : History} {c : Cycle Interrupts Unit Links} {sessions : Nat}
  {routes : RoutingTable}

section Concat

variable (cs c)

theorem posted_concat : posted (cs ++ [c]) =
    posted cs ++ c.source.poster.posted c.target.poster := by
  simp [posted]

theorem taken_concat : taken (cs ++ [c]) =
    taken cs ++ c.source.scheduler.phase.taken c.target.scheduler.phase := by
  simp [taken]

theorem commands_concat : commands (cs ++ [c]) =
    commands cs ++ c.before.commands.added c.after.commands := by
  simp [commands]

theorem requests_concat : requests (cs ++ [c]) =
    requests cs ++ c.before.requests.added c.after.requests := by
  simp [requests]

theorem read_concat : read (cs ++ [c]) =
    read cs ++ c.before.notifications.taken c.after.notifications := by
  simp [read]

end Concat

section Sums

variable (session : SessionId)

@[simp]
theorem announced_nil : announced session [] = 0 := rfl

@[simp]
theorem announced_singleton (n : Notification) :
    announced session [n] = if n.session = session then n.length.toNat else 0 := by
  simp [announced]

@[simp]
theorem announced_append (ns ms : List Notification) :
    announced session (ns ++ ms) = announced session ns + announced session ms := by
  simp [announced]

@[simp]
theorem requested_nil : requested session [] = 0 := rfl

@[simp]
theorem requested_singleton (r : ReadRequest) :
    requested session [r] = if r.session = session then r.length.toNat else 0 := by
  simp [requested]

@[simp]
theorem requested_append (rs qs : List ReadRequest) :
    requested session (rs ++ qs) = requested session rs + requested session qs := by
  simp [requested]

end Sums

structure Balanced (cs : History) (x : Interrupts) : Prop where
  bytes : ∀ s, announced s (posted cs) =
    x.table.bytes s + requested s ((taken cs).map ForwardCommand.request)

structure Latest (cs : History) (x : Interrupts) : Prop where
  port : ∀ s e, x.table.entry? s = some e → 0 < e.bytes →
    ∃ n, latest? s (posted cs) = some n ∧ e.port = n.localPort

theorem Balanced.next (h : Balanced cs c.source) {posted taken}
    (change : Change c.source c.target posted taken)
    (hp : c.source.poster.posted c.target.poster = posted)
    (ht : c.source.scheduler.phase.taken c.target.scheduler.phase = taken)
    (unsaturated : ∀ n ∈ posted,
      c.source.table.bytes n.session + n.length.toNat ≤ SessionTable.maxBytes) :
    Balanced (cs ++ [c]) c.target := by
  refine ⟨fun s => ?_⟩
  have hb := h.bytes s
  rw [posted_concat, taken_concat, hp, ht, List.map_append, announced_append, requested_append]
  cases change
  case keep table => simpa [table] using hb
  case post n hn =>
    have := unsaturated n (List.mem_singleton_self n)
    rw [SessionTable.post_bytes hn, announced_singleton]
    by_cases hs : n.session = s
    · subst hs
      simp
      omega
    · simp [hs, Ne.symm hs, hb]
  case take cmd _ e he hc _ hle _ =>
    rw [SessionTable.consume_bytes hc, List.map_singleton, requested_singleton]
    by_cases hs : cmd.session = s
    · subst hs
      have : c.source.table.bytes cmd.session = e.bytes := by simp [SessionTable.bytes, he]
      simp [ForwardCommand.request]
      omega
    · simp [ForwardCommand.request, hs, Ne.symm hs, hb]

@[simp]
theorem latest?_concat (session : SessionId) (ns : List Notification) (n : Notification) :
    latest? session (ns ++ [n]) = if n.session = session then some n else latest? session ns := by
  by_cases h : n.session = session <;> simp [latest?, h]

theorem Latest.next (h : Latest cs c.source) {posted taken}
    (change : Change c.source c.target posted taken)
    (hp : c.source.poster.posted c.target.poster = posted) : Latest (cs ++ [c]) c.target := by
  refine ⟨fun s e he hb => ?_⟩
  rw [posted_concat, hp]
  cases change
  case keep table =>
    rw [List.append_nil]
    exact h.port s e (table ▸ he) hb
  case post n hn =>
    have ⟨_, _, _, hs⟩ := SessionTable.post_ok hn
    rw [hs] at he
    split at he
    case isTrue hi =>
      cases he
      exact ⟨n, by simp [hi], rfl⟩
    case isFalse hi => simpa [Ne.symm hi] using h.port s e he hb
  case take hc _ _ _ =>
    have ⟨_, entry, hf, hl, hs⟩ := SessionTable.consume_ok hc
    rw [List.append_nil]
    rw [hs] at he
    split at he
    case isTrue hi =>
      subst hi hl
      cases he
      exact h.port _ entry hf (Nat.lt_of_lt_of_le hb (Nat.sub_le ..))
    case isFalse => exact h.port s e he hb

-- The route of a command is that of the notification which was the latest one of its session when
-- its bytes were taken.
def Routed (routes : RoutingTable) (cs : History) (c : Cycle Interrupts Unit Links) : Prop :=
  ∀ cmd ∈ taken [c], cmd.length ≠ 0 ∧
    ∃ n, latest? cmd.session (posted cs) = some n ∧ cmd.route = routes.lookup n.localPort

theorem Latest.routed (h : Latest cs c.source) {posted taken}
    (change : Change c.source c.target posted taken) (hr : c.source.scheduler.routes = routes)
    (ht : c.source.scheduler.phase.taken c.target.scheduler.phase = taken) :
    Routed routes cs c := by
  intro cmd hm
  simp only [Interrupts.taken, List.flatMap_singleton, ht] at hm
  cases change
  case take he _ hne hle route =>
    obtain rfl := List.mem_singleton.mp hm
    have hpos : cmd.length.toNat ≠ 0 := fun h => hne (UInt16.toNat_inj.mp h)
    have ⟨n, hn, hp⟩ := h.port _ _ he (by omega)
    exact ⟨hne, n, hn, by rw [route, hp, hr]⟩
  all_goals cases hm

structure Lockstep (sessions : Nat) (cs : History) (x : Interrupts) : Prop where
  aligned  : x.scheduler.Aligned
  taken    : taken cs = commands cs ++ x.scheduler.phase.held
  requests : requests cs = (commands cs).map ForwardCommand.request
  read     : (read cs).filter (Poster.rejection sessions · = none) = posted cs ++ x.poster.held
  faults   : faults cs = (Interrupts.read cs).filterMap (Poster.rejection sessions)

theorem Lockstep.next (h : Lockstep sessions cs c.source) (hs : c.source.table.size = sessions)
    (step : Step c.source c.before c.notes c.target c.after ms ks t) :
    Lockstep sessions (cs ++ [c]) c.target where
  aligned  := step.scheduler.preserves_aligned h.aligned
  taken    := by
    rw [taken_concat, commands_concat, h.taken, List.append_assoc, List.append_assoc,
      step.scheduler.held_append]
  requests := by
    rw [requests_concat, commands_concat, h.requests, List.map_append,
      step.scheduler.requests_added h.aligned]
  read     := by
    rw [read_concat, posted_concat, List.filter_append, h.read, List.append_assoc,
      List.append_assoc, ← hs, step.poster.held_append]
  faults   := by
    have := step.poster.faults
    simp [h.faults, read_concat, ← step.notes, step.scheduler.no_fault, this, hs]

structure Inv (sessions : Nat) (routes : RoutingTable) (cs : History) (x : Interrupts) : Prop where
  size_eq   : x.table.size = sessions
  routes_eq : x.scheduler.routes = routes
  lockstep  : Lockstep sessions cs x
  latest    : Latest cs x
  routed    : ∀ ds c es, cs = ds ++ c :: es → Routed routes ds c
  balanced  : Unsaturated cs → Balanced cs x
  changes   : ∀ c ∈ cs, Change c.source c.target (posted [c]) (Interrupts.taken [c])

theorem Change.preserves_size {posted taken} (change : Change x x' posted taken) :
    x'.table.size = x.table.size := by
  cases change
  case keep h       => rw [h]
  case post h       => exact (SessionTable.post_ok h).left
  case take h _ _ _ => exact (SessionTable.consume_ok h).left

theorem Inv.next (inv : Inv sessions routes cs c.source)
    (step : Step c.source c.before c.notes c.target c.after ms ks t) :
    Inv sessions routes (cs ++ [c]) c.target where
  size_eq   := step.change.preserves_size.trans inv.size_eq
  routes_eq := step.scheduler.preserves_routes.trans inv.routes_eq
  lockstep  := inv.lockstep.next inv.size_eq step
  latest    := inv.latest.next step.change rfl
  routed    := forall_split_concat inv.routed (inv.latest.routed step.change inv.routes_eq rfl)
  balanced  := by
    intro unsaturated
    have hb := inv.balanced fun d hd => unsaturated d (List.mem_append_left _ hd)
    refine hb.next step.change rfl rfl fun n hn => ?_
    exact unsaturated c (by simp) n (by simpa [posted] using hn)
  changes   := by
    intro d hd
    obtain hd | hd := List.mem_append.mp hd
    case inl => exact inv.changes d hd
    case inr =>
      obtain rfl := List.mem_singleton.mp hd
      simpa [posted, Interrupts.taken] using step.change

theorem Inv.start {x₀ : Interrupts} (h : create sessions routes = .ok x₀) :
    Inv sessions routes [] x₀ := by
  unfold create at h
  cases ht : SessionTable.create sessions <;> rw [ht] at h <;> cases h
  have ⟨hs, hb⟩ := SessionTable.create_ok ht
  exact {
    size_eq   := hs
    routes_eq := rfl
    lockstep  := ⟨fun _ _ h => (nomatch h), rfl, rfl, rfl, rfl⟩
    latest    := by
      refine ⟨fun s e he hpos => ?_⟩
      rw [← SessionTable.bytes_of_entry? he, hb] at hpos
      cases hpos
    routed    := by simp
    balanced  := fun _ => ⟨fun s => by simp [hb, posted, Interrupts.taken]⟩
    changes   := by simp
  }

theorem inv_of_run {x₀ : Interrupts} (hc : create sessions routes = .ok x₀)
    (run : Run (fun x _ => x.tick) .any x₀ cs x) : Inv sessions routes cs x := by
  induction run
  case start => exact .start hc
  case next ticked inv =>
    have ⟨_, _, _, step⟩ := step_of_tick ticked
    exact inv.next step

theorem taken_length_le (c : Cycle Interrupts Unit Links) :
    (c.source.scheduler.phase.taken c.target.scheduler.phase).length ≤ 1 := by
  unfold Scheduler.Phase.taken
  split <;> simp

-- What was announced for a session waits in the table, waits to be requested or was requested.
-- Requests and commands are written together. The command has the route that the table had for
-- its session when it took the bytes. A notification that was read is entered or discarded.
theorem announced_eq_and_lockstep {x₀ : Interrupts} (hc : create sessions routes = .ok x₀)
    (run : Run (fun x _ => x.tick) .any x₀ cs x) :
    (Unsaturated cs → ∀ s, announced s (posted cs) =
      x.table.bytes s + requested s (requests cs) +
        requested s (x.scheduler.phase.held.map ForwardCommand.request)) ∧
    (requests cs = (commands cs).map ForwardCommand.request ∧
      ∀ i cmd, (commands cs)[i]? = some cmd → cmd.length ≠ 0 ∧
        ∃ ds c es n, cs = ds ++ c :: es ∧ (taken ds).length = i ∧ taken [c] = [cmd] ∧
          latest? cmd.session (posted ds) = some n ∧ cmd.route = routes.lookup n.localPort) ∧
    ((read cs).filter (Poster.rejection sessions · = none) = posted cs ++ x.poster.held ∧
      faults cs = (read cs).filterMap (Poster.rejection sessions)) ∧
    ∀ c ∈ cs, Change c.source c.target (posted [c]) (taken [c]) := by
  have inv := inv_of_run hc run
  have ⟨_, htaken, hrequests, hread, hfaults⟩ := inv.lockstep
  refine ⟨fun unsaturated s => ?_, ⟨hrequests, fun i cmd hi => ?_⟩, ⟨hread, hfaults⟩, inv.changes⟩
  case refine_1 =>
    rw [(inv.balanced unsaturated).bytes, htaken, hrequests, List.map_append, requested_append,
      Nat.add_assoc]
  case refine_2 =>
    have hi : (taken cs)[i]? = some cmd := by
      rw [htaken, List.getElem?_append_left (List.getElem?_eq_some_iff.mp hi).1, hi]
    have ⟨ds, c, es, he, hl, hc⟩ := exists_split_of_getElem? (fun c _ => taken_length_le c) hi
    replace hc : taken [c] = [cmd] := by simpa [Interrupts.taken] using hc
    have ⟨hne, n, hn, hr⟩ := inv.routed ds c es he cmd (by simp [hc])
    exact ⟨hne, ds, c, es, n, he, hl, hc, hn, hr⟩

def arrivals (notifications : List (List Notification)) : List (Unit × Links) :=
  notifications.map fun ns =>
    ((), {
      requests      := ⟨"requests", 1, [], by decide, by decide⟩
      commands      := ⟨"commands", 1, [], by decide, by decide⟩
      notifications := .fill ⟨"notifications", 1, [], by decide, by decide⟩ ns
      occupancy     := ⟨.create 15 16, 0⟩
    })

-- Twelve bytes are announced for a port with a route of its own, and five for another one. The
-- third notification is discarded.
theorem announced_eq_of_two_requests :
    let routes := (RoutingTable.empty .forward).insert 80 .dump
    ∃ x₀ cs x, create 2 routes = .ok x₀ ∧ Run (fun x _ => x.tick) .any x₀ cs x ∧
      Unsaturated cs ∧ commands cs = [⟨1, 12, .dump⟩, ⟨0, 5, .forward⟩] ∧
      requests cs = [⟨1, 12⟩, ⟨0, 5⟩] ∧ faults cs = [.zeroLengthNotification 2] ∧
      announced 1 (posted cs) = x.table.bytes 1 + 12 +
        requested 1 (x.scheduler.phase.held.map ForwardCommand.request) ∧
      ∃ ds n, latest? 1 (posted ds) = some n ∧ .dump = routes.lookup n.localPort := by
  intro routes
  have ⟨x₀, cs, x, hc, run, unsaturated, hcommands, hfaults⟩ : ∃ x₀ cs x,
      create 2 routes = .ok x₀ ∧ Run (fun x _ => x.tick) .any x₀ cs x ∧ Unsaturated cs ∧
      commands cs = [⟨1, 12, .dump⟩, ⟨0, 5, .forward⟩] ∧ faults cs = [.zeroLengthNotification 2] :=
    Run.exists_of_create (arrivals [[⟨1, 12, 0, 7, 80⟩], [], [⟨2, 0, 0, 7, 80⟩], [], [],
      [⟨0, 5, 0, 7, 81⟩], [], [], [], []]) (by decide +kernel)
  have ⟨balance, ⟨lockstep, routed⟩, _, _⟩ := announced_eq_and_lockstep hc run
  have hrequests : requests cs = [⟨1, 12⟩, ⟨0, 5⟩] := by rw [lockstep, hcommands]; rfl
  have hrequested : requested 1 (requests cs) = 12 := by rw [hrequests]; rfl
  have ⟨_, ds, _, _, n, _, _, _, hn, hroute⟩ := routed 0 ⟨1, 12, .dump⟩ (by rw [hcommands]; rfl)
  exact ⟨x₀, cs, x, hc, run, unsaturated, hcommands, hrequests, hfaults,
    hrequested ▸ balance unsaturated 1, ds, n, hn, hroute⟩

end Interrupts

end ShellInterface.Tcp
