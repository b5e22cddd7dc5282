import ShellInterface.Proofs.Tcp.Drainage
import ShellInterface.Proofs.Tcp.Requests

namespace ShellInterface.Tcp

namespace Poster

variable {p p' : Poster} {granted : Bool} {t t' : SessionTable} {s s' : Fifo Notification}
  {ns : List Note}

theorem Step.notifications_eq (h : Step granted t s p ns p' t' s') (empty : s.items = []) :
    s' = s := by
  cases h
  case accept read _  => simp [empty] at read
  case discard read _ => simp [empty] at read
  all_goals rfl

theorem Step.get_pending (h : Step granted t s p ns p' t' s') (ht : t.Sound) (ht' : t'.Sound)
    (ha : t.Addressed) {i : Nat} (pending : t.pending.get i = true) :
    t'.pending.get i = true := by
  have hi : (UInt16.ofNat i).toNat = i := UInt16.toNat_ofNat_of_lt' (ha i pending)
  rw [← hi, ht.get_eq_true_iff] at pending
  rw [← hi, ht'.get_eq_true_iff]
  exact h.bytes_pos pending

end Poster

namespace Scheduler

variable {s s' : Scheduler} {t t' : SessionTable} {o o' : Occupancy} {l l' : Links}
  {ns : List Note} {granted : Bool}

structure Spacious (o : Occupancy) : Prop where
  pos : 0 < o.available
  lt  : o.available * Chunk.width < UInt32.size

theorem Spacious.requestLength_ne (h : Spacious o) {bytes : Nat} (hb : 0 < bytes) :
    requestLength bytes (o.available * Chunk.width) ≠ 0 := by
  intro hz
  have := (requestLength_eq_zero_iff hb).mp (UInt16.toNat_inj.mpr hz)
  rw [Nat.mod_eq_of_lt h.lt] at this
  have := h.pos
  simp only [Chunk.width] at *
  omega

theorem Step.exists_emit (h : Step true t o l s ns s' t' o' l') (hq : s.phase = .query session)
    (hb : 0 < t.bytes session) (space : Spacious o) :
    ∃ r cmd, s'.phase = .emit r cmd ∧ l' = l := by
  cases h
  case refuse refused => cases refused
  case release hp _ nothing =>
    cases hp.symm.trans hq
    obtain ⟨e, he⟩ : ∃ e, t.entry? session = some e :=
      Option.ne_none_iff_exists'.mp fun hn => by simp [SessionTable.bytes, hn] at hb
    rw [SessionTable.bytes_of_entry? he] at hb
    exact absurd (nothing e he) (space.requestLength_ne hb)
  case take => exact ⟨_, _, rfl, rfl⟩
  all_goals simp_all

theorem Step.eq_of_refused (h : Step false t o l s ns s' t' o' l') (hq : s.phase = .query session) :
    s' = s ∧ o' = o ∧ l' = l := by
  cases h
  case refuse => exact ⟨rfl, rfl, rfl⟩
  all_goals simp_all

theorem Step.exists_query (h : Step granted t o l s ns s' t' o' l') (hp : s.phase = .idle) {i : Nat}
    (pending : t.pending.get i = true) : (∃ q, s'.phase = .query q) ∧ o' = o ∧ l' = l := by
  cases h
  case select => exact ⟨⟨_, rfl⟩, rfl, rfl⟩
  case rest nothing =>
    have ⟨j, hj⟩ := s.turn.exists_select pending
    cases nothing.symm.trans hj
  all_goals simp_all

theorem Step.added_of_emit (h : Step granted t o l s ns s' t' o' l') {r : ReadRequest}
    {cmd : ForwardCommand} (hp : s.phase = .emit r cmd) (requests : l.requests.isFull = false)
    (commands : l.commands.isFull = false) :
    l.requests.added l'.requests = [r] ∧ l.commands.added l'.commands = [cmd] := by
  cases h
  case stall full => simp [requests, commands] at full
  case emit hp' hr hc =>
    cases hp'.symm.trans hp
    exact ⟨Fifo.added_of_write hr, Fifo.added_of_write hc⟩
  all_goals simp_all

theorem Step.available_le (h : Step granted t o l s ns s' t' o' l') :
    o'.free = o.free ∧ o'.available ≤ o.available := by
  cases h
  case take reserved =>
    subst reserved
    exact ⟨rfl, Nat.sub_le_sub_left (Nat.le_add_right ..) _⟩
  all_goals exact ⟨rfl, Nat.le_refl _⟩

end Scheduler

namespace Interrupts

open Scheduler

def release (x : Interrupts) : Nat :=
  match x.poster, x.grant with
  | .idle,      .idle => 0
  | .idle,      _     => 1
  | .holding _, .low  => 3
  | .holding _, _     => 2

-- How many cycles it takes at most until a request is written. While the table becomes free, a
-- session is selected.
def distance (x : Interrupts) : Nat :=
  match x.scheduler.phase with
  | .idle     => max 1 x.release + 2
  | .query _  => x.release + 2
  | .emit _ _ => 1

variable {x x' y x₀ : Interrupts} {l l' : Links} {ns ms ks : List Note} {t : SessionTable}
  {cs ds : History} {sessions : Nat} {routes : RoutingTable} {session : SessionId} {i : Nat}

theorem release_le (x : Interrupts) : x.release ≤ 3 := by
  unfold release
  split <;> omega

theorem distance_pos (x : Interrupts) : 0 < x.distance := by
  unfold distance
  split <;> omega

theorem distance_le (x : Interrupts) : x.distance ≤ 5 := by
  have := x.release_le
  unfold distance
  split <;> omega

theorem Guarded.granted_eq_low_iff (h : x.Guarded) :
    x.granted = .low ↔ x.release = 0 ∧ x.scheduler.wantsTable = true := by
  cases hg : x.grant
  case idle =>
    cases hp : x.poster <;> simp [granted, release, hg, hp, Grant.next, Poster.wantsTable]
  case high => simp [h.granted_of_high hg, release, hg, h.high hg]
  case low  => cases hp : x.poster <;> simp [h.granted_of_low hg, release, hg, hp]

theorem Step.release_eq (step : Step x l ns x' l' ms ks t) (hx : x.Guarded)
    (empty : l.notifications.items = []) (other : x.granted ≠ .low) :
    x'.release = x.release - 1 := by
  have grant := step.grant
  have hs := step.poster
  generalize hp : x.poster = p at hs
  generalize hp' : x'.poster = p' at hs
  generalize l'.notifications = s at hs
  cases hs
  case wait =>
    cases hg : x.grant
    case idle =>
      have hfree : x.granted = .idle := by
        cases hw : x.scheduler.wantsTable <;>
          simp_all [granted, Grant.next, Poster.wantsTable]
      simp [release, hp, hp', hg, grant.trans hfree]
    case high => simp [release, hp, hp', hg, grant.trans (hx.granted_of_high hg)]
    case low  => simp [release, hp, hp', hg, grant.trans (hx.granted_of_low hg)]
  case accept read _  => simp [empty] at read
  case discard read _ => simp [empty] at read
  case hold n refused =>
    cases hg : x.grant
    case idle => simp [granted_of_idle hp hg] at refused
    case high => simp [hx.high hg] at hp
    case low  => simp [release, hp, hp', hg, grant.trans (hx.granted_of_low hg)]
  case post n access _ =>
    cases hg : x.grant
    case idle => simp [release, hp, hp', hg, grant.trans (granted_of_idle hp hg)]
    case high => simp [hx.high hg] at hp
    case low  => simp [hx.granted_of_low hg] at access

-- What a request needs to be written soon. As long as a session has still to be selected, one must
-- be pending, and as long as bytes have still to be taken, there must be room for them.
structure Poised (x : Interrupts) (l : Links) : Prop where
  empty    : l.notifications.items = []
  pending  : x.scheduler.phase = .idle → ∃ i, x.table.pending.get i = true
  space    : x.scheduler.phase.held = [] → Spacious l.occupancy
  requests : l.requests.isFull = false
  commands : l.commands.isFull = false

structure Closer (x : Interrupts) (l : Links) (x' : Interrupts) (l' : Links) : Prop where
  links       : l'.toLinks = l.toLinks
  poised      : Poised x' l'
  distance_lt : x'.distance < x.distance

theorem Poised.closer_of_idle (h : Poised x l) (step : Step x l ns x' l' ms ks t) (hx : x.Guarded)
    (sound : x.Sound) (hp : x.scheduler.phase = .idle) : Closer x l x' l' := by
  obtain ⟨i, hi⟩ := h.pending hp
  have pending := step.poster.get_pending sound.table (step.sizes sound).left hx.addressed hi
  obtain ⟨⟨session, hq⟩, ho, hl⟩ := step.scheduler.exists_query hp pending
  have other : x.granted ≠ .low := fun hg => by
    simp [hx.granted_eq_low_iff, wantsTable, hp] at hg
  constructor
  case links => exact hl
  case poised =>
    exact {
      empty      := step.poster.notifications_eq h.empty ▸ h.empty
      pending hi := by simp [hq] at hi
      space _    := ho ▸ h.space (by simp [hp])
      requests   := hl ▸ h.requests
      commands   := hl ▸ h.commands
    }
  case distance_lt =>
    simp only [distance, hp, hq, step.release_eq hx h.empty other]
    omega

theorem Poised.closer_of_query (h : Poised x l) (step : Step x l ns x' l' ms ks t) (hx : x.Guarded)
    (hp : x.scheduler.phase = .query session) : Closer x l x' l' := by
  have empty := step.poster.notifications_eq h.empty ▸ h.empty
  have space := h.space (by simp [hp])
  have hs := step.scheduler
  by_cases hg : x.granted = .low
  case pos =>
    rw [hg] at hs
    obtain ⟨r, cmd, he, hl⟩ :=
      hs.exists_emit hp (step.poster.bytes_pos (hx.queried session hp)) space
    refine ⟨hl, ⟨empty, by simp [he], by simp [he], hl ▸ h.requests, hl ▸ h.commands⟩, ?_⟩
    simp only [distance, hp, he]
    omega
  case neg =>
    rw [beq_eq_false_iff_ne.mpr hg] at hs
    obtain ⟨hs, ho, hl⟩ := hs.eq_of_refused hp
    have hpos : x.release ≠ 0 := fun hz =>
      hg (hx.granted_eq_low_iff.mpr ⟨hz, by simp [wantsTable, hp]⟩)
    refine ⟨hl, ⟨empty, by simp [hs, hp], fun _ => ho ▸ space, hl ▸ h.requests,
      hl ▸ h.commands⟩, ?_⟩
    simp only [distance, hs, hp, step.release_eq hx h.empty hg]
    omega

theorem Poised.added_or_closer (h : Poised x l) (step : Step x l ns x' l' ms ks t)
    (hx : x.Guarded) (sound : x.Sound) (aligned : x.scheduler.Aligned) :
    (∃ cmd, l.requests.added l'.requests = [cmd.request] ∧
      l.commands.added l'.commands = [cmd]) ∨ Closer x l x' l' := by
  cases hp : x.scheduler.phase
  case idle          => exact .inr (h.closer_of_idle step hx sound hp)
  case query session => exact .inr (h.closer_of_query step hx hp)
  case emit r cmd    =>
    obtain ⟨hr, hc⟩ := step.scheduler.added_of_emit hp h.requests h.commands
    exact .inl ⟨cmd, (aligned r cmd hp).left ▸ hr, hc⟩

-- What the surroundings may do to the streams and the buffer between two cycles, if no notification
-- comes in, and nothing enters the buffer or leaves it. Requests and commands may be read.
structure Quiet (l l' : Links) : Prop where
  notifications : l'.notifications.items = l.notifications.items
  occupancy     : l'.occupancy = l.occupancy
  requests      : l.requests.isFull = false → l'.requests.isFull = false
  commands      : l.commands.isFull = false → l'.commands.isFull = false

instance (l l' : Links) : Decidable (Quiet l l') :=
  decidable_of_iff (l'.notifications.items = l.notifications.items ∧ l'.occupancy = l.occupancy ∧
      (l.requests.isFull = false → l'.requests.isFull = false) ∧
      (l.commands.isFull = false → l'.commands.isFull = false))
    ⟨fun ⟨hn, ho, hr, hc⟩ => ⟨hn, ho, hr, hc⟩, fun ⟨hn, ho, hr, hc⟩ => ⟨hn, ho, hr, hc⟩⟩

theorem Poised.of_quiet (h : Poised x l) (quiet : Quiet l l') : Poised x l' where
  empty       := quiet.notifications.trans h.empty
  pending     := h.pending
  space hheld := quiet.occupancy ▸ h.space hheld
  requests    := quiet.requests h.requests
  commands    := quiet.commands h.commands

def outcome (l : Links) (ds : History) : Links :=
  ds.getLast?.elim l (·.after)

@[simp]
theorem outcome_concat (l : Links) (ds : History) (c : Cycle Interrupts Unit Links) :
    outcome l (ds ++ [c]) = c.after := by
  simp [outcome]

def undisturbed (l : Links) : Surroundings Interrupts Unit Links :=
  fun ds _ l' => Quiet (outcome l ds) l'

instance (l : Links) (ds : History) (e : Unit) (l' : Links) : Decidable (undisturbed l ds e l') :=
  inferInstanceAs (Decidable (Quiet (outcome l ds) l'))

def Prompt (ds : History) : Prop :=
  ∃ es c cmd, es ++ [c] <+: ds ∧ es.length < 5 ∧ requests es = [] ∧ commands es = [] ∧
    requests [c] = [ForwardCommand.request cmd] ∧ commands [c] = [cmd]

structure Imminent (l : Links) (ds : History) (y : Interrupts) : Prop where
  poised   : Poised y (outcome l ds)
  pace     : ds.length + y.distance ≤ 5
  requests : requests ds = []
  commands : commands ds = []

theorem Imminent.next {c : Cycle Interrupts Unit Links} (h : Imminent l ds c.source)
    (hx : c.source.Guarded) (sound : c.source.Sound) (aligned : c.source.scheduler.Aligned)
    (allowed : undisturbed l ds c.input c.before)
    (step : Step c.source c.before c.notes c.target c.after ms ks t) :
    Prompt (ds ++ [c]) ∨ Imminent l (ds ++ [c]) c.target := by
  have pace := h.pace
  obtain ⟨cmd, hr, hc⟩ | ⟨hl, poised, hlt⟩ :=
    (h.poised.of_quiet allowed).added_or_closer step hx sound aligned
  case inl =>
    have := c.source.distance_pos
    exact .inl ⟨ds, c, cmd, List.prefix_rfl, by omega, h.requests, h.commands,
      by simpa [Interrupts.requests] using hr, by simpa [Interrupts.commands] using hc⟩
  case inr =>
    refine .inr ⟨by simpa using poised, ?_, ?_, ?_⟩
    case refine_1 =>
      rw [List.length_append, List.length_singleton]
      omega
    case refine_2 => simp [requests_concat, h.requests, hl]
    case refine_3 => simp [commands_concat, h.commands, hl]

theorem Step.roomy (step : Step x l ns x' l' ms ks t) (h : Roomy l.occupancy) :
    Roomy l'.occupancy where
  free_lt  := step.scheduler.available_le.left ▸ h.free_lt
  space_lt := Nat.lt_of_le_of_lt (Nat.mul_le_mul_right _ step.scheduler.available_le.right)
    h.space_lt

theorem roomy_of_run (run : Run (fun x _ => x.tick) (undisturbed l) x ds y)
    (h : Roomy l.occupancy) : Roomy (outcome l ds).occupancy := by
  induction run
  case start => exact h
  case next allowed ticked ih =>
    have ⟨_, _, _, step⟩ := step_of_tick ticked
    rw [outcome_concat]
    exact step.roomy (allowed.occupancy ▸ ih)

section Further

variable (hc : create sessions routes = .ok x₀) (run : Run (fun x _ => x.tick) .any x₀ cs x)
include hc run

theorem prompt_or_imminent_of_run (more : Run (fun x _ => x.tick) (undisturbed l) x ds y)
    (poised : Poised x l) : Prompt ds ∨ Imminent l ds y := by
  induction more
  case start => exact .inr ⟨poised, by simpa using x.distance_le, rfl, rfl⟩
  case next more allowed ticked ih =>
    obtain ⟨es, c, cmd, hpre, hprompt⟩ | imminent := ih
    case inl => exact .inl ⟨es, c, cmd, hpre.trans (List.prefix_append ..), hprompt⟩
    case inr =>
      have ⟨_, _, _, step⟩ := step_of_tick ticked
      have reached := run.append more.forget
      exact imminent.next (c := ⟨_, _, _, _, _, _⟩) (guarded_of_run hc reached)
        (sound_of_run hc reached).left (inv_of_run hc reached).lockstep.aligned allowed step

end Further

-- When a session is pending, some of the buffer is available, but not so much that its space needs
-- more than 32 bits, and there is room for a request and a command, then both are written together
-- in one of the next five cycles, wherever the two processes stand. No cycle on the way stops.
theorem prompt_of_run {i : Nat} (hc : create sessions routes = .ok x₀)
    (run : Run (fun x _ => x.tick) .any x₀ cs x) (empty : l.notifications.items = [])
    (pending : x.table.pending.get i = true) (available : 0 < l.occupancy.available)
    (narrow : l.occupancy.available < 2 ^ 29) (requests_room : l.requests.isFull = false)
    (commands_room : l.commands.isFull = false)
    (more : Run (fun x _ => x.tick) (undisturbed l) x ds y) :
    (5 ≤ ds.length → ∃ es c cmd, es ++ [c] <+: ds ∧ es.length < 5 ∧ requests es = [] ∧
      commands es = [] ∧ requests [c] = [ForwardCommand.request cmd] ∧ commands [c] = [cmd]) ∧
    (l.occupancy.capacity < Size.limit →
      ∀ l', Quiet (outcome l ds) l' → ∃ ns z l'', y.tick l' = ⟨ns, .ok (z, l'')⟩) := by
  have space : l.occupancy.available * Chunk.width < UInt32.size := by
    simp only [Chunk.width, UInt32.size]
    omega
  constructor
  case left =>
    intro long
    have poised : Poised x l :=
      ⟨empty, fun _ => ⟨i, pending⟩, fun _ => ⟨available, space⟩, requests_room, commands_room⟩
    obtain prompt | imminent := prompt_or_imminent_of_run hc run more poised
    case inl => exact prompt
    case inr =>
      have := imminent.pace
      have := y.distance_pos
      omega
  case right =>
    intro capacity l' quiet
    have roomy : Roomy l.occupancy :=
      ⟨Nat.lt_of_le_of_lt l.occupancy.free_le_capacity capacity, Nat.lt_trans space (by decide)⟩
    have sound := (sound_of_run hc (run.append more.forget)).left
    have ⟨ns, (z, l''), h⟩ :=
      (succeeds_tick sound (quiet.occupancy ▸ roomy_of_run more roomy)).exists_eq
    exact ⟨ns, z, l'', h⟩

-- The scheduler has just let go of the table, since the buffer was full, and the poster holds a
-- notification: five cycles go by until the request is written, and four would not do.
theorem prompt_of_held_notification :
    ∃ (x₀ x y : Interrupts) (cs ds : History) (cmd : ForwardCommand) (l : Links),
      create 3 (.empty .forward) = .ok x₀ ∧ Run (fun x _ => x.tick) .any x₀ cs x ∧
      x.table.pending.get 0 = true ∧ l.occupancy.available = 2 ∧
      Run (fun x _ => x.tick) (undisturbed l) x ds y ∧ ds.length = 5 ∧
      requests (ds.take 4) = [] ∧ ∃ es c, es ++ [c] <+: ds ∧ es.length < 5 ∧
        requests [c] = [ForwardCommand.request cmd] ∧ commands [c] = [cmd] := by
  let n (session : SessionId) : Notification := ⟨session, 12, 0, 7, 80⟩
  let full (ns : List Notification) : Unit × Links :=
    ((), { vacant 0 with notifications := .fill .single ns })
  let free (reserved : Nat) : Unit × Links :=
    ((), { vacant 2 with occupancy := ⟨.create 2 3, reserved⟩ })
  have ⟨x₀, cs, x, hc, run, pending, more⟩ :
      ∃ (x₀ : Interrupts) (cs : History) (x : Interrupts),
      create 3 (.empty .forward) = .ok x₀ ∧ Run (fun x _ => x.tick) .any x₀ cs x ∧
      x.table.pending.get 0 = true ∧
      (execute (fun (x : Interrupts) _ => x.tick) (undisturbed (vacant 2)) [] x
        [free 0, free 0, free 0, free 0, free 2]).any
        (fun (ds, _) => ds.length = 5 ∧ requests (ds.take 4) = []) = true :=
    Run.exists_of_create [full [n 0], full [], full [], full [n 1]] (by decide +kernel)
  have ⟨ds, y, run', long, early⟩ := Run.exists_of_execute
    (p := fun (ds : History) _ => ds.length = 5 ∧ requests (ds.take 4) = []) _ more
  have ⟨prompt, _⟩ := prompt_of_run hc run rfl pending (by decide) (by decide) (by decide)
    (by decide) run'
  have ⟨es, c, cmd, hpre, hlt, _, _, hr, hcmd⟩ := prompt (by simp [long])
  exact ⟨x₀, x, y, cs, ds, cmd, vacant 2, hc, run, pending, rfl, run', long, early, es, c, hpre,
    hlt, hr, hcmd⟩

end Interrupts

end ShellInterface.Tcp
