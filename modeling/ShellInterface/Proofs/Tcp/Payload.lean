import ShellInterface.Proofs.Tcp.Delivery

namespace ShellInterface.Tcp

open Tcp.Frame (Turn)

-- The commands that so many bytes are requested with, each with the slots that were available when
-- it was issued, and the bytes that are still left.
inductive Split (n : Nat) : List (ForwardCommand × Nat) → Nat → Prop
  | start : Split n [] n
  | take {pieces left cmd available} (split : Split n pieces left) (length_ne : cmd.length ≠ 0)
      (length_eq : cmd.length.toNat = min left (available * Chunk.width)) :
      Split n (pieces ++ [(cmd, available)]) (left - cmd.length.toNat)

namespace Split

variable {n left : Nat} {pieces rest : List (ForwardCommand × Nat)} {cmd : ForwardCommand}
  {available : Nat}

theorem sum (h : Split n pieces left) : (pieces.map (·.1.length.toNat)).sum + left = n := by
  induction h
  case start => simp
  case take length_eq ih =>
    simp only [List.map_append, List.sum_append, List.map_singleton, List.sum_singleton]
    omega

theorem length_ne (h : Split n pieces left) : ∀ p ∈ pieces, p.1.length ≠ 0 := by
  induction h
  case start           => exact nofun
  case take hne _ ih => exact List.forall_mem_append.mpr ⟨ih, by simpa using hne⟩

theorem head_length (h : Split n ((cmd, available) :: rest) left) :
    cmd.length.toNat = min n (available * Chunk.width) := by
  generalize hp : (cmd, available) :: rest = pieces at h
  induction h generalizing rest
  case start => cases hp
  case take pieces left _ _ split _ length_eq ih =>
    cases pieces
    case nil =>
      cases hp
      have := split.sum
      simp only [List.map_nil, List.sum_nil, Nat.zero_add] at this
      rwa [← this]
    case cons =>
      cases hp
      exact ih rfl

theorem rest_eq_nil_iff (h : Split n ((cmd, available) :: rest) 0) :
    rest = [] ↔ n ≤ available * Chunk.width := by
  have hsum := h.sum
  have hhead := h.head_length
  simp only [List.map_cons, List.sum_cons, Nat.add_zero] at hsum
  constructor
  case mp =>
    rintro rfl
    simp only [List.map_nil, List.sum_nil] at hsum
    omega
  case mpr =>
    intro hle
    refine List.eq_nil_iff_forall_not_mem.mpr fun p hp => ?_
    have hz : p.1.length.toNat = 0 :=
      List.sum_eq_zero_iff.mp (by omega) _ (List.mem_map_of_mem (f := (·.1.length.toNat)) hp)
    exact h.length_ne p (List.mem_cons_of_mem _ hp) (UInt16.toNat_inj.mp hz)

theorem exists_head (h : Split n pieces 0) (pos : 0 < n) :
    ∃ cmd available rest, pieces = (cmd, available) :: rest ∧
      min n Chunk.width ≤ cmd.length.toNat := by
  rcases pieces with _ | ⟨⟨cmd, available⟩, rest⟩
  case nil =>
    have : 0 = n := h.sum
    omega
  case cons =>
    have hne : cmd.length.toNat ≠ 0 := fun hz =>
      h.length_ne _ List.mem_cons_self (UInt16.toNat_inj.mp hz)
    have := h.head_length
    refine ⟨cmd, available, rest, rfl, ?_⟩
    simp only [Chunk.width] at *
    omega

end Split

theorem Scheduler.Step.length_of_taken {granted : Bool} {t t' : SessionTable} {o o' : Occupancy}
    {l l' : Links} {s s' : Scheduler} {ns : List Note} (h : Step granted t o l s ns s' t' o' l') :
    ∀ cmd ∈ s.phase.taken s'.phase, ∀ e ∈ t.entry? cmd.session,
      cmd.length = requestLength e.bytes (o.available * Chunk.width) := by
  cases h
  case take hp _ he hl _ _ _ _ =>
    intro cmd hm e hf
    obtain rfl : cmd = _ := by simpa [hp] using hm
    obtain rfl := Option.some.inj (he.symm.trans hf)
    exact hl.symm
  all_goals simp_all

namespace Frame

def posted (ts : List Turn) : List Notification :=
  ts.flatMap fun t => t.before.net.interrupts.poster.posted t.after.net.interrupts.poster

def taken (ts : List Turn) : List (ForwardCommand × Nat) :=
  ts.flatMap fun t => (t.before.net.interrupts.scheduler.phase.taken
    t.after.net.interrupts.scheduler.phase).map (·, t.before.net.occupancy.available)

section Concat

variable (ts : List Turn) (t : Turn)

@[simp]
theorem posted_concat : posted (ts ++ [t]) =
    posted ts ++ t.before.net.interrupts.poster.posted t.after.net.interrupts.poster := by
  simp [posted]

@[simp]
theorem taken_concat : taken (ts ++ [t]) =
    taken ts ++ (t.before.net.interrupts.scheduler.phase.taken
      t.after.net.interrupts.scheduler.phase).map (·, t.before.net.occupancy.available) := by
  simp [taken]

end Concat

variable {enable : Bool} {ts : List Turn} {f f' : Frame} {ns : List Note}

theorem Step.interrupts_cases (step : Step enable f ns f') :
    f'.net.interrupts = f.net.interrupts ∧
      f.net.inner.commands.added f'.net.inner.commands = [] ∨
    ∃ ms ks t, Interrupts.Step f.net.interrupts f.interruptLinks ns f'.net.interrupts
      f'.interruptLinks ms ks t := by
  cases step
  case interrupt ticked =>
    have ⟨ms, ks, t, step⟩ := Interrupts.step_of_tick ticked
    exact .inr ⟨ms, ks, t, step⟩
  case receive ticked => exact .inl ⟨rfl, (Receiver.step_of_tick ticked).commands_added⟩
  all_goals exact .inl ⟨rfl, Fifo.added_self _⟩

@[simp]
theorem posted_self (p : Poster) : p.posted p = [] := by
  cases p <;> rfl

theorem Step.change (step : Step enable f ns f') :
    Interrupts.Change f.net.interrupts f'.net.interrupts
      (f.net.interrupts.poster.posted f'.net.interrupts.poster)
      (f.net.interrupts.scheduler.phase.taken f'.net.interrupts.scheduler.phase) := by
  obtain ⟨hx, _⟩ | ⟨_, _, _, step⟩ := step.interrupts_cases
  case inl => simpa [hx] using .keep rfl
  case inr => exact step.change

theorem Step.preserves_routes (step : Step enable f ns f') :
    f'.net.interrupts.scheduler.routes = f.net.interrupts.scheduler.routes := by
  obtain ⟨hx, _⟩ | ⟨_, _, _, step⟩ := step.interrupts_cases
  case inl => rw [hx]
  case inr => exact step.scheduler.preserves_routes

theorem Step.preserves_capacity (step : Step enable f ns f') :
    f'.net.occupancy.capacity = f.net.occupancy.capacity := by
  obtain ⟨_, _, _, flow, _⟩ | ⟨_, _, _, _, ticked, _, rfl⟩ := step.flow_cases
  case inl => exact congrArg SaturatingCounter.max flow.slots
  case inr => exact (Occupancy.tick_cases ticked).left

theorem Step.length_of_taken (step : Step enable f ns f') :
    ∀ cmd ∈ f.net.interrupts.scheduler.phase.taken f'.net.interrupts.scheduler.phase,
      ∀ e ∈ f.net.interrupts.table.entry? cmd.session,
        cmd.length = Scheduler.requestLength e.bytes (f.net.occupancy.available * Chunk.width) := by
  intro cmd hm e found
  obtain ⟨hx, _⟩ | ⟨_, _, t, step⟩ := step.interrupts_cases
  case inl => simp [hx] at hm
  case inr =>
    obtain ⟨_, rfl⟩ := step.not_posted_of_taken hm
    exact step.scheduler.length_of_taken cmd hm e found

theorem taken_turn (step : Step enable f ns f')
    (h : (taken ts).map Prod.fst = commands ts ++ f.net.interrupts.scheduler.phase.held) :
    (taken (ts ++ [⟨f, ns, f'⟩])).map Prod.fst =
      commands (ts ++ [⟨f, ns, f'⟩]) ++ f'.net.interrupts.scheduler.phase.held := by
  obtain ⟨hx, hc⟩ | ⟨_, _, _, step⟩ := step.interrupts_cases
  case inl => simpa [hx, hc] using h
  case inr =>
    have := step.scheduler.held_append
    simp only [interruptLinks] at this
    simp [h, Function.comp_def, this]

end Frame

-- How a session is asked for the only payload that it is announced, which is not at all before the
-- announcement.
inductive Asked (routes : RoutingTable) (session : SessionId) (a : Notification)
    (t : SessionTable) : List Notification → List (ForwardCommand × Nat) → Prop
  | before (bytes : t.bytes session = 0) : Asked routes session a t [] []
  | after {e pieces} (found : t.entry? session = some e) (port : e.port = a.localPort)
      (split : Split a.length.toNat pieces e.bytes)
      (route : ∀ p ∈ pieces, p.1.route = routes.lookup a.localPort) :
      Asked routes session a t [a] pieces

namespace Asked

variable {routes : RoutingTable} {session : SessionId} {a : Notification} {t t' : SessionTable}
  {posted : List Notification} {pieces : List (ForwardCommand × Nat)}

theorem of_entry?_eq (h : Asked routes session a t posted pieces)
    (ht : t'.entry? session = t.entry? session) : Asked routes session a t' posted pieces := by
  cases h
  case before bytes =>
    exact .before (by simpa [SessionTable.bytes, ht] using bytes)
  case after found port split route =>
    exact .after (ht.trans found) port split route

theorem post (h : Asked routes session a t posted pieces) {n : Notification}
    (ht : t.post n.session n.length n.localPort = .ok t')
    (single : posted ++ [n].filter (·.session = session) <+: [a]) :
    Asked routes session a t' (posted ++ [n].filter (·.session = session)) pieces := by
  have ⟨_, e, he, hs⟩ := SessionTable.post_ok ht
  by_cases hn : n.session = session
  case neg => simpa [hn] using h.of_entry?_eq (by simp [hs, Ne.symm hn])
  case pos =>
    rw [List.filter_singleton, decide_eq_true hn, cond_true] at single ⊢
    cases h
    case before bytes =>
      obtain rfl : n = a := by simpa using single
      have hz : e.bytes = 0 := by rwa [← hn, SessionTable.bytes_of_entry? he] at bytes
      have hle : n.length.toNat ≤ SessionTable.maxBytes :=
        Nat.le_trans (Nat.le_of_lt n.length.toNat_lt) (by decide)
      have hmin : min (e.bytes + n.length.toNat) SessionTable.maxBytes = n.length.toNat := by omega
      have split :
          Split n.length.toNat [] (min (e.bytes + n.length.toNat) SessionTable.maxBytes) := by
        rw [hmin]
        exact .start
      exact .after ((hs session).trans (if_pos hn.symm)) rfl split nofun
    case after => simp at single

theorem take (h : Asked routes session a t posted pieces) {cmd : ForwardCommand}
    {left e : SessionEntry} {o : Occupancy} (room : o.capacity * Chunk.width < UInt32.size)
    (found : t.entry? cmd.session = some e)
    (consumed : t.consume cmd.session cmd.length.toNat = .ok (left, t'))
    (length_ne : cmd.length ≠ 0)
    (length_eq : cmd.length = Scheduler.requestLength e.bytes (o.available * Chunk.width))
    (route : cmd.route = routes.lookup e.port) :
    Asked routes session a t' posted
      (pieces ++ [(cmd, o.available)].filter (·.1.session = session)) := by
  have ⟨_, e', he, hl, hs⟩ := SessionTable.consume_ok consumed
  obtain rfl := Option.some.inj (found.symm.trans he)
  by_cases hc : cmd.session = session
  case neg => simpa [hc] using h.of_entry?_eq (by simp [hs, Ne.symm hc])
  case pos =>
    subst hc
    rw [List.filter_singleton, decide_eq_true rfl, cond_true]
    have hbytes := SessionTable.bytes_of_entry? found
    have hlength := congrArg UInt16.toNat length_eq
    have havailable : o.available * Chunk.width < UInt32.size :=
      Nat.lt_of_le_of_lt
        (Nat.mul_le_mul_right _ (Nat.le_trans o.available_le_free o.free_le_capacity)) room
    rw [Scheduler.requestLength_toNat, Nat.mod_eq_of_lt havailable] at hlength
    cases h
    case before bytes =>
      have hz : cmd.length.toNat ≠ 0 := fun h => length_ne (UInt16.toNat_inj.mp h)
      omega
    case after found' port split hroute =>
      obtain rfl := Option.some.inj (found.symm.trans found')
      have hle : e.bytes ≤ Scheduler.maxLength := by
        have := split.sum
        have := a.length.toNat_lt
        simp only [Scheduler.maxLength, UInt16.size]
        omega
      rw [Nat.min_eq_left hle] at hlength
      have htable : t'.entry? cmd.session = some left := (hs _).trans (if_pos rfl)
      have hsplit := split.take length_ne hlength
      refine .after htable (hl ▸ port) (by simpa [hl] using hsplit) ?_
      exact List.forall_mem_append.mpr ⟨hroute, by simpa using port ▸ route⟩

end Asked

namespace Frame

def postedFor (session : SessionId) (ts : List Turn) : List Notification :=
  (posted ts).filter (·.session = session)

def takenFor (session : SessionId) (ts : List Turn) : List (ForwardCommand × Nat) :=
  (taken ts).filter (·.1.session = session)

theorem postedFor_concat (session : SessionId) (ts : List Turn) (t : Turn) :
    postedFor session (ts ++ [t]) = postedFor session ts ++
      (t.before.net.interrupts.poster.posted t.after.net.interrupts.poster).filter
        (·.session = session) := by
  simp [postedFor]

theorem takenFor_concat (session : SessionId) (ts : List Turn) (t : Turn) :
    takenFor session (ts ++ [t]) = takenFor session ts ++
      ((t.before.net.interrupts.scheduler.phase.taken t.after.net.interrupts.scheduler.phase).map
        (·, t.before.net.occupancy.available)).filter (·.1.session = session) := by
  simp [takenFor]

structure Asking (c : Config) (session : SessionId) (a : Notification) (ts : List Turn)
    (n : Network) : Prop where
  routes   : n.interrupts.scheduler.routes = c.routes
  capacity : n.occupancy.capacity = c.inputBufferChunks
  asked    : postedFor session ts <+: [a] → Asked c.routes session a n.interrupts.table
    (postedFor session ts) (takenFor session ts)

theorem Asking.turn {c : Config} {session : SessionId} {a : Notification} {enable : Bool}
    {ts : List Turn} {f f' : Frame} {ns : List Note} (h : Asking c session a ts f.net)
    (room : c.inputBufferChunks * Chunk.width < UInt32.size) (step : Step enable f ns f') :
    Asking c session a (ts ++ [⟨f, ns, f'⟩]) f'.net where
  routes   := step.preserves_routes.trans h.routes
  capacity := step.preserves_capacity.trans h.capacity
  asked    := by
    intro single
    rw [takenFor_concat]
    rw [postedFor_concat] at single ⊢
    dsimp only at single ⊢
    have asked := h.asked ((List.prefix_append _ _).trans single)
    have length := step.length_of_taken
    have change := step.change
    generalize f.net.interrupts.poster.posted f'.net.interrupts.poster = ps at *
    generalize f.net.interrupts.scheduler.phase.taken f'.net.interrupts.scheduler.phase = cmds at *
    cases change
    case keep table => simpa [table] using asked
    case post n ht  => simpa using asked.post ht single
    case take cmd left e found consumed hne _ route =>
      rw [List.filter_nil, List.append_nil]
      exact asked.take (h.capacity ▸ room) found consumed hne
        (length cmd List.mem_cons_self e found) (h.routes ▸ route)

end Frame

namespace Interface

variable {c : Config} {x x₀ : Interface} {cs : History}
  {env : Surroundings Interface Bool (Ingress × Egress)}

theorem settings_of_run (hc : create c = .ok x₀) (run : Run tick env x₀ cs x) :
    x.net.interrupts.scheduler.routes = c.routes ∧
      x.net.occupancy.capacity = c.inputBufferChunks ∧
      (Frame.taken (turns cs)).map Prod.fst =
        Frame.commands (turns cs) ++ x.net.interrupts.scheduler.phase.held := by
  have ⟨hx, _, _, _⟩ := Network.create_ok (network_of_create hc)
  have credit := (Credit.start (network_of_create hc)).left
  have inv := Interrupts.Inv.start hx
  have held : [] = x₀.net.interrupts.scheduler.phase.held := inv.lockstep.taken
  exact invariant_of_run
    (P := fun ts n => n.interrupts.scheduler.routes = c.routes ∧
      n.occupancy.capacity = c.inputBufferChunks ∧
      (Frame.taken ts).map Prod.fst = Frame.commands ts ++ n.interrupts.scheduler.phase.held)
    (Q := fun _ ts f => f.net.interrupts.scheduler.routes = c.routes ∧
      f.net.occupancy.capacity = c.inputBufferChunks ∧
      (Frame.taken ts).map Prod.fst = Frame.commands ts ++ f.net.interrupts.scheduler.phase.held)
    run ⟨inv.routes_eq, credit.capacity_eq, held⟩ (fun _ h => h)
    (fun step ⟨routes, capacity, taken⟩ => ⟨step.preserves_routes.trans routes,
      step.preserves_capacity.trans capacity, Frame.taken_turn step taken⟩)
    (fun h => h)

-- A session without bytes is announced one payload.
theorem asked_of_run {c : Config} {session : SessionId} {a : Notification}
    (run : Run tick env x₀ cs x) (routes : x₀.net.interrupts.scheduler.routes = c.routes)
    (capacity : x₀.net.occupancy.capacity = c.inputBufferChunks)
    (room : c.inputBufferChunks * Chunk.width < UInt32.size)
    (bytes : x₀.net.interrupts.table.bytes session = 0)
    (announced : Frame.postedFor session (turns cs) = [a]) :
    Asked c.routes session a x.net.interrupts.table [a] (Frame.takenFor session (turns cs)) := by
  have asking : Frame.Asking c session a (turns cs) x.net :=
    invariant_of_run (Q := fun _ ts f => Frame.Asking c session a ts f.net) run
      ⟨routes, capacity, fun _ => .before bytes⟩ (fun _ h => h) (fun step h => h.turn room step)
      (fun h => h)
  have asked := asking.asked (by rw [announced])
  rwa [announced] at asked

end Interface

end ShellInterface.Tcp
