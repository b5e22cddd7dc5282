import ShellInterface.Proofs.RoundRobin
import ShellInterface.Proofs.Tcp.Conservation
import ShellInterface.Proofs.Tcp.Success

namespace ShellInterface.Tcp

namespace SessionTable

variable {t t' : SessionTable} {session : SessionId}

theorem Sound.get_eq_true_iff (h : t.Sound) :
    t.pending.get session.toNat = true ↔ 0 < t.bytes session := by
  by_cases hi : session.toNat < t.entries.size
  case pos => simp [bytes, entry?, hi, h.pending]
  case neg =>
    have hz : t.bytes session = 0 := by simp [bytes, entry?, hi]
    simp [hz, Bitmap.get_of_size_le (h.size_eq ▸ Nat.le_of_not_lt hi)]

theorem lt_size_of_bytes (h : 0 < t.bytes session) : session.toNat < t.size := by
  by_contra hi
  simp [bytes, entry?, size] at h hi
  simp [hi] at h

end SessionTable

theorem Poster.Step.bytes_pos {p p' : Poster} {granted : Bool} {t t' : SessionTable}
    {s s' : Fifo Notification} {ns : List Note} (h : Step granted t s p ns p' t' s')
    {session : SessionId} (hb : 0 < t.bytes session) : 0 < t'.bytes session := by
  cases h
  case post hp =>
    have hmax : 0 < SessionTable.maxBytes := by decide
    rw [SessionTable.post_bytes hp]
    split <;> omega
  all_goals exact hb

namespace Scheduler

variable {s s' : Scheduler} {granted : Bool} {t t' : SessionTable} {o o' : Occupancy}
  {l l' : Links} {ns : List Note} {session : SessionId}

-- The session that is selected is the pending one whose turn comes first.
theorem wait_le_of_select (ht : t.Sound) (hsize : t.size ≤ UInt16.size)
    (hn : s.turn.next < t.size) {i : Nat} (h : s.turn.select t.pending = .ok (some i))
    {other : SessionId} (pending : 0 < t.bytes other) :
    s.turn.wait t.size (UInt16.ofNat i).toNat ≤ s.turn.wait t.size other.toNat := by
  have hpending : t.pending.size = t.size := ht.size_eq
  rw [← hpending] at hn hsize ⊢
  have ⟨hlt, hfirst⟩ := RoundRobin.select_eq_some hn h
  rw [UInt16.toNat_ofNat_of_lt' (by omega)]
  exact hfirst _ (ht.get_eq_true_iff.mpr pending)

theorem Step.turn_cases (h : Step granted t o l s ns s' t' o' l') :
    s.phase.taken s'.phase = [] ∧ t' = t ∧ s'.turn = s.turn ∧
      (∀ q, s'.phase = .query q →
        s.phase = .query q ∨ ∃ i, s.turn.select t.pending = .ok (some i) ∧ .ofNat i = q) ∨
    ∃ cmd left, s.phase.taken s'.phase = [cmd] ∧ s.phase = .query cmd.session ∧
      cmd.session.toNat < t.size ∧ t.consume cmd.session cmd.length.toNat = .ok (left, t') ∧
      RoundRobin.serviced cmd.session.toNat t'.size = .ok s'.turn ∧
      ∀ q, s'.phase ≠ .query q := by
  cases h
  case select i hp found =>
    exact .inl ⟨by simp [hp], rfl, rfl, fun _ hq => .inr ⟨i, found, Phase.query.inj hq⟩⟩
  case rest           => exact .inl ⟨by simp, rfl, rfl, fun _ hq => .inl hq⟩
  case refuse hp _    => exact .inl ⟨by simp, rfl, rfl, fun _ hq => .inl hq⟩
  case release hp _ _ => exact .inl ⟨by simp [hp], rfl, rfl, nofun⟩
  case take hp _ found _ _ consumed serviced _ =>
    have hlt := (Array.getElem?_eq_some_iff.mp found).1
    exact .inr ⟨_, _, by rw [hp]; rfl, hp, hlt, consumed, serviced, nofun⟩
  case stall          => exact .inl ⟨by simp, rfl, rfl, fun _ hq => .inl hq⟩
  case emit hp _ _    => exact .inl ⟨by simp [hp], rfl, rfl, nofun⟩

end Scheduler

namespace Interrupts

def served (cs : History) : List SessionId :=
  (taken cs).map ForwardCommand.session

def wait (x : Interrupts) (session : SessionId) : Nat :=
  x.scheduler.turn.wait x.table.size session.toNat

-- Bytes of `p` have waited while the sessions `ss` were served. Those go behind `p`, and so the
-- next one is none of them. Only the first one may have been selected before there were bytes of
-- `p`.
structure Waiting (p : SessionId) (ss : List SessionId) (x : Interrupts) : Prop where
  bytes    : 0 < x.table.bytes p
  ahead    : ∀ q ∈ ss, x.wait p < x.wait q
  selected : ∀ q, x.scheduler.phase = .query q → ss ≠ [] → x.wait q ≤ x.wait p
  nodup    : ss.Nodup
  in_table : ∀ q ∈ ss, q.toNat < x.table.size

variable {x x' : Interrupts} {l l' : Links} {ns ms ks : List Note} {t : SessionTable}
  {p : SessionId} {ss : List SessionId}

def Turning (x : Interrupts) : Prop :=
  0 < x.table.size → x.scheduler.turn.next < x.table.size

theorem Step.sizes (h : Step x l ns x' l' ms ks t) (hx : x.Sound) :
    t.Sound ∧ t.size = x.table.size ∧ x'.table.size = x.table.size := by
  have ⟨ht, hsize, _⟩ := sound_of_poster h.poster hx.table hx.poster
  have ⟨_, hsize'⟩ := sound_of_scheduler h.scheduler ht
  exact ⟨ht, hsize, hsize'.trans hsize⟩

theorem Turning.next (h : x.Turning) (hx : x.Sound) (step : Step x l ns x' l' ms ks t) :
    x'.Turning := by
  have ⟨_, hsize, hsize'⟩ := step.sizes hx
  intro hpos
  obtain ⟨_, _, turn, _⟩ | ⟨_, _, _, _, hlt, _, serviced, _⟩ := step.scheduler.turn_cases
  case inl =>
    rw [turn, hsize']
    exact h (hsize' ▸ hpos)
  case inr =>
    rw [hsize, ← hsize'] at hlt
    exact RoundRobin.next_lt_of_serviced serviced hlt

theorem Waiting.take {session : SessionId} (h : x.Waiting p ss) (ht : x.Turning)
    (hp : x.scheduler.phase = .query session) (hne : session ≠ p)
    (hlt : session.toNat < x.table.size) (size : x'.table.size = x.table.size)
    (bytes : 0 < x'.table.bytes p)
    (serviced : RoundRobin.serviced session.toNat x.table.size = .ok x'.scheduler.turn)
    (phase : ∀ q, x'.scheduler.phase ≠ .query q) : x'.Waiting p (ss ++ [session]) := by
  have hpos : p.toNat < x.table.size := SessionTable.lt_size_of_bytes h.bytes
  have hn : x.scheduler.turn.next < x.table.size := ht (Nat.zero_lt_of_lt hpos)
  have hne' : p.toNat ≠ session.toNat := fun he => hne (UInt16.toNat_inj.mp he).symm
  constructor
  case bytes    => exact bytes
  case ahead    =>
    intro q hq
    rw [wait, wait, size]
    obtain hq | rfl := List.mem_append.mp hq |>.imp_right List.mem_singleton.mp
    case inl =>
      exact RoundRobin.wait_lt_of_wait_lt serviced hn hlt hpos (h.in_table q hq) hne'
        (h.selected session hp (List.ne_nil_of_mem hq)) (h.ahead q hq)
    case inr => exact RoundRobin.wait_lt_of_serviced serviced hlt hpos hne'
  case selected => exact fun q hq => absurd hq (phase q)
  case nodup    =>
    have hnew : session ∉ ss := fun hs =>
      Nat.not_lt.mpr (h.selected session hp (List.ne_nil_of_mem hs)) (h.ahead session hs)
    rw [← List.concat_eq_append, List.nodup_concat]
    exact ⟨hnew, h.nodup⟩
  case in_table =>
    rw [size]
    exact List.forall_mem_append.mpr ⟨h.in_table, List.forall_mem_singleton.mpr hlt⟩

theorem Waiting.next (h : x.Waiting p ss) (hx : x.Sound) (ht : x.Turning)
    (hsize : x.table.size ≤ UInt16.size) (step : Step x l ns x' l' ms ks t)
    (unserved : ∀ cmd ∈ x.scheduler.phase.taken x'.scheduler.phase, cmd.session ≠ p) :
    x'.Waiting p (ss ++
      (x.scheduler.phase.taken x'.scheduler.phase).map ForwardCommand.session) := by
  have ⟨hs, size, size'⟩ := step.sizes hx
  have bytes := step.poster.bytes_pos h.bytes
  obtain ⟨taken, table, turn, phase⟩ | ⟨cmd, left, taken, hp, hlt, consumed, serviced, phase⟩ :=
    step.scheduler.turn_cases <;> rw [taken] at unserved ⊢
  case inl =>
    have wait_eq (q : SessionId) : x'.wait q = x.wait q := by rw [wait, wait, turn, size']
    rw [List.map_nil, List.append_nil]
    refine ⟨table ▸ bytes, by simpa [wait_eq] using h.ahead, fun q hq hne => ?_, h.nodup,
      size' ▸ h.in_table⟩
    rw [wait_eq, wait_eq]
    obtain hq' | ⟨i, found, rfl⟩ := phase q hq
    case inl => exact h.selected q hq' hne
    case inr =>
      have hn := ht (Nat.zero_lt_of_lt (SessionTable.lt_size_of_bytes h.bytes))
      rw [← size] at hn hsize
      rw [wait, wait, ← size]
      exact Scheduler.wait_le_of_select hs hsize hn found bytes
  case inr =>
    have hne : cmd.session ≠ p := unserved cmd (List.mem_singleton_self cmd)
    rw [size'] at serviced
    refine h.take ht hp hne (size ▸ hlt) size' ?_ serviced phase
    rw [SessionTable.consume_bytes consumed, if_neg hne.symm]
    exact bytes

variable {cs cs₁ cs₂ : History} {sessions : Nat} {routes : RoutingTable} {x₀ x₁ x₂ : Interrupts}

theorem sound_of_run (hc : create sessions routes = .ok x₀)
    (run : Run (fun x _ => x.tick) .any x₀ cs x) : x.Sound ∧ x.Turning := by
  induction run
  case start =>
    refine ⟨.create hc, ?_⟩
    have ⟨_, _, h⟩ := exists_of_bind_eq_ok hc
    cases h
    exact id
  case next ticked ih =>
    have ⟨_, _, _, step⟩ := step_of_tick ticked
    exact ⟨ih.left.next step, ih.right.next ih.left step⟩

theorem waiting_of_run (hc : create sessions routes = .ok x₀) (hs : sessions ≤ UInt16.size)
    (run₁ : Run (fun x _ => x.tick) .any x₀ cs₁ x₁) (run₂ : Run (fun x _ => x.tick) .any x₁ cs₂ x₂)
    (bytes : 0 < x₁.table.bytes p) (unserved : p ∉ served cs₂) :
    x₂.Waiting p (served cs₂) := by
  induction run₂
  case start => exact ⟨bytes, nofun, fun _ _ h => absurd rfl h, List.nodup_nil, nofun⟩
  case next run _ ticked ih =>
    have ⟨_, _, _, step⟩ := step_of_tick ticked
    have reached := run₁.append run
    have ⟨sound, turning⟩ := sound_of_run hc reached
    have size := (inv_of_run hc reached).size_eq
    simp only [served, taken_concat, List.map_append, List.mem_append, not_or] at unserved ih ⊢
    exact (ih unserved.left).next sound turning (size ▸ hs) step fun cmd hm he =>
      unserved.right (List.mem_map.mpr ⟨cmd, hm, he⟩)

theorem Waiting.length_lt (h : x.Waiting p ss) : ss.length < x.table.size := by
  have hp : p.toNat < x.table.size := SessionTable.lt_size_of_bytes h.bytes
  have nodup : (ss.map UInt16.toNat).Nodup := h.nodup.map fun _ _ => UInt16.toNat_inj.mp
  have others : ss.map UInt16.toNat ⊆ (List.range x.table.size).erase p.toNat := by
    refine List.forall_mem_map.mpr fun q hq => ?_
    have hne : q ≠ p := fun he => Nat.lt_irrefl _ (h.ahead p (he ▸ hq))
    have hr := List.mem_range.mpr (h.in_table q hq)
    exact (List.mem_erase_of_ne fun he => hne (UInt16.toNat_inj.mp he)).mpr hr
  have := (nodup.subperm others).length_le
  rw [List.length_map, List.length_erase_of_mem (List.mem_range.mpr hp), List.length_range] at this
  omega

-- While bytes of `p` wait and none of them are taken, bytes of each other session are taken once at
-- most, however many more are announced, and wherever the scheduler stood when the wait began.
theorem served_once_of_run (hc : create sessions routes = .ok x₀) (hs : sessions ≤ UInt16.size)
    (run₁ : Run (fun x _ => x.tick) .any x₀ cs₁ x₁) (run₂ : Run (fun x _ => x.tick) .any x₁ cs₂ x₂)
    (pending : x₁.table.pending.get p.toNat = true) (unserved : p ∉ served cs₂) :
    x₂.table.pending.get p.toNat = true ∧ (∀ q, (served cs₂).count q ≤ 1) ∧
      (served cs₂).length ≤ sessions - 1 ∧
      ∀ c ∈ cs₂, Change c.source c.target (posted [c]) (taken [c]) := by
  have ⟨sound₁, _⟩ := sound_of_run hc run₁
  have ⟨sound₂, _⟩ := sound_of_run hc (run₁.append run₂)
  have inv := inv_of_run hc (run₁.append run₂)
  have waiting := waiting_of_run hc hs run₁ run₂ (sound₁.table.get_eq_true_iff.mp pending) unserved
  refine ⟨sound₂.table.get_eq_true_iff.mpr waiting.bytes,
    List.nodup_iff_count_le_one.mp waiting.nodup, ?_,
    fun c hm => inv.changes c (List.mem_append_right _ hm)⟩
  exact Nat.le_sub_one_of_lt (inv.size_eq ▸ waiting.length_lt)

-- The first session waits for both others. One of them was selected already when the wait began.
theorem served_once_of_two_others :
    ∃ (x₀ x₁ x₂ : Interrupts) (cs₁ cs₂ : History), create 3 (.empty .forward) = .ok x₀ ∧
      Run (fun x _ => x.tick) .any x₀ cs₁ x₁ ∧ Run (fun x _ => x.tick) .any x₁ cs₂ x₂ ∧
      x₁.scheduler.phase = .query 1 ∧ x₁.table.pending.get 0 = true ∧ served cs₂ = [1, 2] ∧
      x₂.table.pending.get 0 = true ∧ (∀ q, (served cs₂).count q ≤ 1) := by
  let n (session : SessionId) : Notification := ⟨session, 12, 0, 7, 80⟩
  let choices := arrivals [[n 2], [n 2], [], [], [], [], [], [], []]
  have ⟨x₀, cs₁, x₁, hc, run₁, hq, pending, more⟩ :
      ∃ (x₀ : Interrupts) (cs₁ : History) (x₁ : Interrupts),
      create 3 (.empty .forward) = .ok x₀ ∧ Run (fun x _ => x.tick) .any x₀ cs₁ x₁ ∧
      x₁.scheduler.phase = .query 1 ∧ x₁.table.pending.get 0 = true ∧
      (execute (fun (x : Interrupts) _ => x.tick) .any [] x₁ choices).any
        (fun (cs₂, _) => served cs₂ = [1, 2]) = true :=
    Run.exists_of_create (arrivals [[n 0], [], [], [n 1], [n 1], [n 0], [n 0], []])
      (by decide +kernel)
  have ⟨cs₂, x₂, run₂, hserved⟩ :=
    Run.exists_of_execute (p := fun cs₂ _ => served cs₂ = [1, 2]) choices more
  have ⟨waits, once, _⟩ :=
    served_once_of_run (p := 0) hc (by decide) run₁ run₂ pending (by rw [hserved]; decide)
  exact ⟨x₀, x₁, x₂, cs₁, cs₂, hc, run₁, run₂, hq, pending, hserved, waits, once⟩

end Interrupts

end ShellInterface.Tcp
