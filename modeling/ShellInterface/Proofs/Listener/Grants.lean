import ShellInterface.Proofs.Listener.Step

namespace ShellInterface.Listener

abbrev History := List (Cycle Listener Bool Links)

def requests (cs : History) : List Port :=
  written (·.before.requests) (·.after.requests) cs

def replies (cs : History) : List Bool :=
  consumed (·.before.replies) (·.after.replies) cs

-- An engine that answers each request once and in its turn, and takes any time it likes. What it
-- sent stays in the stream until it is read.
structure Answering (cs : History) (_enable : Bool) (s : Links) : Prop where
  owed : (replies cs).length + s.replies.items.length ≤ (requests cs).length
  kept : ∀ c ∈ cs.getLast?, c.after.replies.items <+: s.replies.items

instance (cs : History) (enable : Bool) (s : Links) : Decidable (Answering cs enable s) :=
  decidable_of_iff
    ((replies cs).length + s.replies.items.length ≤ (requests cs).length ∧
      ∀ c ∈ cs.getLast?, c.after.replies.items <+: s.replies.items)
    ⟨fun ⟨owed, kept⟩ => ⟨owed, kept⟩, fun ⟨owed, kept⟩ => ⟨owed, kept⟩⟩

def Acknowledged (cs : History) (p : Port) : Prop :=
  (p, true) ∈ (requests cs).zip (replies cs)

instance (cs : History) (p : Port) : Decidable (Acknowledged cs p) :=
  inferInstanceAs (Decidable (_ ∈ _))

def denials (cs : History) (i : Nat) : Nat :=
  cs.countP fun c => c.notes.any denies && c.source.opened == i

def expiries (cs : History) : Nat :=
  cs.countP fun c => c.notes.any expires

def expiriesBefore (cs : History) (i : Nat) : Nat :=
  cs.countP fun c => c.notes.any expires && decide (c.source.opened < i)

-- No overdue reply opens one of the first `n` ports, as each of them was denied at least as often
-- as a reply was overdue before. The replies it was denied by are the overdue ones then.
def InStep (cs : History) (n : Nat) : Prop :=
  ∀ k < n, expiriesBefore cs k ≤ denials cs k

instance (cs : History) (n : Nat) : Decidable (InStep cs n) :=
  inferInstanceAs (Decidable (∀ k < n, expiriesBefore cs k ≤ denials cs k))

def indices (cs : History) : List Nat :=
  cs.flatMap fun c => (c.before.requests.added c.after.requests).map fun _ => c.source.opened

def granted (cs : History) : List Nat :=
  ((indices cs).zip (replies cs)).filterMap fun (i, accepted) => if accepted then some i else none

variable {l : Listener} {cs : History} {c : Cycle Listener Bool Links} {i n : Nat}

section Concat

variable (c i)

theorem requests_concat :
    requests (cs ++ [c]) = requests cs ++ c.before.requests.added c.after.requests := by
  simp [requests]

theorem replies_concat :
    replies (cs ++ [c]) = replies cs ++ c.before.replies.taken c.after.replies := by
  simp [replies]

theorem indices_concat : indices (cs ++ [c]) =
    indices cs ++ (c.before.requests.added c.after.requests).map fun _ => c.source.opened := by
  simp [indices]

theorem denials_concat : denials (cs ++ [c]) i =
    denials cs i + if c.notes.any denies ∧ c.source.opened = i then 1 else 0 := by
  simp [denials]

theorem expiries_concat :
    expiries (cs ++ [c]) = expiries cs + if c.notes.any expires then 1 else 0 := by
  simp [expiries]

theorem expiriesBefore_concat : expiriesBefore (cs ++ [c]) i =
    expiriesBefore cs i + if c.notes.any expires ∧ c.source.opened < i then 1 else 0 := by
  simp [expiriesBefore]

end Concat

theorem denials_eq_zero (h : ∀ c ∈ cs, c.source.opened < i) : denials cs i = 0 := by
  rw [denials, List.countP_eq_zero]
  intro c hc
  simp [Nat.ne_of_lt (h c hc)]

theorem expiriesBefore_eq (h : ∀ c ∈ cs, c.source.opened < i) :
    expiriesBefore cs i = expiries cs := by
  apply List.countP_congr
  intro c hc
  simp [h c hc]

theorem mem_granted_iff : i ∈ granted cs ↔ (i, true) ∈ (indices cs).zip (replies cs) := by
  simp [granted]

theorem zip_append_of_length_le {α β : Type} {as cs : List α} {bs : List β}
    (h : bs.length ≤ as.length) : (as ++ cs).zip bs = as.zip bs := by
  induction as generalizing bs <;> cases bs <;> simp_all

theorem zip_concat_of_length_lt {α β : Type} {as : List α} {bs : List β} {b : β}
    (h : bs.length < as.length) : as.zip (bs ++ [b]) = as.zip bs ++ [(as[bs.length], b)] := by
  induction as generalizing bs
  case nil => cases h
  case cons a as ih =>
    cases bs
    case nil  => simp
    case cons => simpa using ih (by simpa using h)

theorem granted_of_nothing_read (h : (replies cs).length ≤ (indices cs).length)
    (hr : c.before.replies.taken c.after.replies = []) : granted (cs ++ [c]) = granted cs := by
  simp [granted, indices_concat, replies_concat, hr, zip_append_of_length_le h]

theorem granted_of_read {accepted : Bool} (h : (replies cs).length < (indices cs).length)
    (ha : c.before.requests.added c.after.requests = [])
    (hr : c.before.replies.taken c.after.replies = [accepted]) :
    granted (cs ++ [c]) =
      granted cs ++ if accepted then [(indices cs)[(replies cs).length]] else [] := by
  cases accepted <;>
    simp [granted, indices_concat, replies_concat, ha, hr, zip_concat_of_length_lt h]

structure Walk (ports : List Port) (cs : History) (l : Listener) : Prop where
  ports_eq  : l.ports = ports
  done      : l.phase = .done → l.ports.length ≤ l.opened
  source_le : ∀ c ∈ cs, c.source.opened ≤ l.opened

structure Requested (ports : List Port) (cs : History) (l : Listener) : Prop where
  requests_eq : (requests cs).map some = (indices cs).map (ports[·]?)
  sorted      : (indices cs).Pairwise (· ≤ ·)
  indices_le  : ∀ i ∈ indices cs, i ≤ l.opened

-- Where the replies stand: `total` counts the requests without a reply, `inHand` those for the
-- port in hand. Each overdue reply leaves one request behind, and each denial takes one along.
structure Balanced (cs : History) (l : Listener) : Prop where
  total : (indices cs).length =
    (replies cs).length + expiries cs + if l.phase = .await then 1 else 0
  inHand : (indices cs).count l.opened + expiriesBefore cs l.opened =
    denials cs l.opened + expiries cs + if l.phase = .await then 1 else 0

-- The reply that opened a port never answers a later request, and it answers a request for the
-- port itself if and only if enough stale replies were taken for denials.
structure Granted (cs : History) (l : Listener) : Prop where
  length_eq : (granted cs).length = l.opened
  le : ∀ k i, (granted cs)[k]? = some i → i ≤ k ∧ (i = k ↔ expiriesBefore cs k ≤ denials cs k)

structure Inv (ports : List Port) (cs : History) (l : Listener) : Prop where
  walk      : Walk ports cs l
  requested : Requested ports cs l
  balanced  : Balanced cs l
  granted   : Granted cs l

section Next

variable {ports : List Port} {asked : List Port} {read : List Bool} {denied expired : Bool}

theorem Requested.length_eq (h : Requested ports cs l) :
    (requests cs).length = (indices cs).length := by
  simpa using congrArg List.length h.requests_eq

theorem Walk.next {ns : List Note} {enable : Bool} (h : Walk ports cs c.source)
    (step : Step enable c.source c.before ns c.target c.after)
    (he : Effect c.source c.target asked read denied expired) :
    Walk ports (cs ++ [c]) c.target where
  ports_eq := step.preserves_ports.trans h.ports_eq
  done     := step.preserves_done h.done
  source_le := by
    have := h.source_le
    cases he <;> grind

theorem Requested.next (h : Requested ports cs c.source) (hp : c.source.ports = ports)
    (he : Effect c.source c.target asked read denied expired)
    (ha : c.before.requests.added c.after.requests = asked) :
    Requested ports (cs ++ [c]) c.target := by
  have ⟨requests_eq, sorted, indices_le⟩ := h
  constructor <;> simp only [requests_concat, indices_concat, ha]
  case requests_eq => cases he <;> simp_all
  case sorted      => cases he <;> grind
  case indices_le  => cases he <;> grind

theorem Balanced.next (h : Balanced cs c.source) (hs : ∀ d ∈ cs, d.source.opened ≤ c.source.opened)
    (hi : ∀ i ∈ indices cs, i ≤ c.source.opened)
    (he : Effect c.source c.target asked read denied expired)
    (ha : c.before.requests.added c.after.requests = asked)
    (hr : c.before.replies.taken c.after.replies = read) (hd : c.notes.any denies = denied)
    (hx : c.notes.any expires = expired) : Balanced (cs ++ [c]) c.target := by
  have ⟨total, inHand⟩ := h
  constructor
  case total =>
    simp only [indices_concat, ha, replies_concat, hr, expiries_concat, hx]
    cases he <;> simp_all
    all_goals omega
  case inHand =>
    simp only [indices_concat, ha, denials_concat, hd, expiriesBefore_concat, expiries_concat, hx]
    cases he
    case grant ho _ hf =>
      have hlt : ∀ d ∈ cs, d.source.opened < c.source.opened + 1 :=
        fun d hd => Nat.lt_succ_of_le (hs d hd)
      have hc : (indices cs).count (c.source.opened + 1) = 0 :=
        List.count_eq_zero.mpr fun hm => Nat.not_succ_le_self _ (hi _ hm)
      simp [ho, hf, hc, denials_eq_zero hlt, expiriesBefore_eq hlt]
    all_goals simp_all
    all_goals omega

-- A cycle opens the port in hand, and then its reply answers the oldest request without one, or it
-- opens no port.
theorem Effect.granted_concat (he : Effect c.source c.target asked read denied expired)
    (ha : c.before.requests.added c.after.requests = asked)
    (hr : c.before.replies.taken c.after.replies = read)
    (hle : (replies cs).length + read.length ≤ (indices cs).length) :
    c.target.opened = c.source.opened ∧ granted (cs ++ [c]) = granted cs ∨
    c.target.opened = c.source.opened + 1 ∧ c.source.phase = .await ∧ denied = false ∧
      ∃ i, (indices cs)[(replies cs).length]? = some i ∧
        granted (cs ++ [c]) = granted cs ++ [i] := by
  cases he
  case grant ho hb _ =>
    exact .inr ⟨ho, hb, rfl, _, List.getElem?_eq_getElem hle, granted_of_read hle ha hr⟩
  case deny ho _ _   => exact .inl ⟨ho, by simp [granted_of_read hle ha hr]⟩
  case quiet ho _    => exact .inl ⟨ho, granted_of_nothing_read hle hr⟩
  case ask _ ho _ _  => exact .inl ⟨ho, granted_of_nothing_read hle hr⟩
  case expire ho _ _ => exact .inl ⟨ho, granted_of_nothing_read hle hr⟩

theorem getElem_eq_iff_of_sorted {is : List Nat} {m n : Nat} (hs : is.Pairwise (· ≤ ·))
    (hm : ∀ i ∈ is, i ≤ m) (hn : n < is.length) : is[n] = m ↔ is.length ≤ n + is.count m := by
  induction is generalizing n
  case nil => cases hn
  case cons i is ih =>
    have ⟨hi, hs⟩ := List.pairwise_cons.mp hs
    have hm' : ∀ j ∈ is, j ≤ m := fun j hj => hm j (List.mem_cons_of_mem _ hj)
    have hc := List.count_le_length (l := is) (a := m)
    have hall : i = m → is.count m = is.length := by
      rintro rfl
      exact List.count_eq_length.mpr fun j hj => Nat.le_antisymm (hi j hj) (hm' j hj)
    cases n
    case zero =>
      by_cases h : i = m
      · simp [h, hall h]
      · simp [h]
        omega
    case succ n =>
      have := ih hs hm' (n := n) (by simpa using hn)
      by_cases h : i = m
      · have := hall h
        simp_all
      · simp_all
        omega

theorem counts_concat_of_lt (cs : History) {k : Nat} (h : k < c.source.opened) :
    denials (cs ++ [c]) k = denials cs k ∧ expiriesBefore (cs ++ [c]) k = expiriesBefore cs k := by
  simp [denials_concat, expiriesBefore_concat, Nat.ne_of_gt h, Nat.not_lt_of_gt h]

theorem Granted.next (h : Granted cs c.source) (req : Requested ports cs c.source)
    (bal : Balanced cs c.source) (he : Effect c.source c.target asked read denied expired)
    (ha : c.before.requests.added c.after.requests = asked)
    (hr : c.before.replies.taken c.after.replies = read) (hd : c.notes.any denies = denied)
    (hle : (replies cs).length + read.length ≤ (requests cs).length) :
    Granted (cs ++ [c]) c.target := by
  have old {k i : Nat} (hk : (granted cs)[k]? = some i) :
      i ≤ k ∧ (i = k ↔ expiriesBefore (cs ++ [c]) k ≤ denials (cs ++ [c]) k) := by
    have hlt : k < c.source.opened := h.length_eq ▸ (List.getElem?_eq_some_iff.mp hk).1
    have ⟨hd, hx⟩ := counts_concat_of_lt cs hlt
    exact hd ▸ hx ▸ h.le k i hk
  obtain ⟨ho, hg⟩ | ⟨ho, hb, rfl, i, hi, hg⟩ := he.granted_concat ha hr (req.length_eq ▸ hle)
  case inl => exact ⟨by rw [hg, ho, h.length_eq], fun k i hk => old (hg ▸ hk)⟩
  case inr =>
    constructor
    case length_eq => simp [hg, ho, h.length_eq]
    case le =>
      intro k j hk
      rw [hg, List.getElem?_append] at hk
      split at hk
      case isTrue  => exact old hk
      case isFalse =>
        obtain ⟨hn, rfl⟩ := List.getElem?_eq_some_iff.mp hi
        obtain ⟨rfl, rfl⟩ : k = c.source.opened ∧ (indices cs)[(replies cs).length] = j := by
          have := h.length_eq
          simp [List.getElem?_singleton] at hk
          omega
        have hi := req.indices_le _ (List.getElem_mem hn)
        have hs := getElem_eq_iff_of_sorted req.sorted req.indices_le hn
        have ⟨total, inHand⟩ := bal
        simp only [hb, if_true] at total inHand
        simp only [denials_concat, hd, expiriesBefore_concat, Nat.lt_irrefl, and_false, if_false,
          Bool.false_eq_true, false_and]
        omega

end Next

section Run

variable {origin : String} {ports : List Port} {watchdog : Nat}

theorem Inv.start : Inv ports [] (create origin ports watchdog) where
  walk      := ⟨rfl, nofun, nofun⟩
  requested := ⟨rfl, .nil, nofun⟩
  balanced  := ⟨rfl, rfl⟩
  granted   := ⟨rfl, nofun⟩

theorem Inv.next {enable : Bool} (inv : Inv ports cs c.source)
    (allowed : Answering cs enable c.before)
    (step : Step enable c.source c.before c.notes c.target c.after) :
    Inv ports (cs ++ [c]) c.target := by
  have ⟨walk, requested, balanced, granted⟩ := inv
  have he := step.effect
  have ht := Fifo.taken_length_le c.before.replies c.after.replies
  have hle := Nat.le_trans (Nat.add_le_add_left ht _) allowed.owed
  exact {
    walk      := walk.next step he
    requested := requested.next walk.ports_eq he rfl
    balanced  := balanced.next walk.source_le requested.indices_le he rfl rfl rfl rfl
    granted   := granted.next requested balanced he rfl rfl rfl hle
  }

theorem inv_of_run (r : Run tick Answering (create origin ports watchdog) cs l) :
    Inv ports cs l := by
  induction r
  case start                   => exact .start
  case next allowed ticked inv => exact inv.next allowed (step_of_tick ticked)

theorem Requested.acknowledged_iff (h : Requested ports cs l) {p : Port} :
    Acknowledged cs p ↔ ∃ i ∈ Listener.granted cs, ports[i]? = some p := by
  have hz := congrArg (List.zip · (replies cs)) h.requests_eq
  simp only [List.zip_map_left] at hz
  have hm : (some p, true) ∈ ((requests cs).zip (replies cs)).map (Prod.map some id) ↔
      (some p, true) ∈ ((indices cs).zip (replies cs)).map (Prod.map (ports[·]?) id) := by
    rw [hz]
  simpa [Acknowledged, mem_granted_iff, eq_comm] using hm

theorem Requested.exists_port (h : Requested ports cs l) (hi : i ∈ Listener.granted cs) :
    ∃ p, ports[i]? = some p := by
  have hi := (List.of_mem_zip (mem_granted_iff.mp hi)).1
  have hm : ports[i]? ∈ (indices cs).map (ports[·]?) := List.mem_map_of_mem hi
  rw [← h.requests_eq] at hm
  have ⟨p, _, hp⟩ := List.mem_map.mp hm
  exact ⟨p, hp.symm⟩

theorem Inv.acknowledged_of_inStep (inv : Inv ports cs l) (h : InStep cs l.opened) {j : Nat}
    (hj : j < l.opened) : ∃ p, ports[j]? = some p ∧ Acknowledged cs p := by
  have hl := inv.granted.length_eq
  have hk : (Listener.granted cs)[j]? = some (Listener.granted cs)[j] := List.getElem?_eq_getElem _
  have he := (inv.granted.le _ _ hk).2.mpr (h j hj)
  have hm : j ∈ Listener.granted cs := List.mem_of_getElem? (he ▸ hk)
  have ⟨p, hp⟩ := inv.requested.exists_port hm
  exact ⟨p, hp, inv.requested.acknowledged_iff.mpr ⟨j, hm, hp⟩⟩

theorem eq_range_of_forall_mem {is : List Nat} (hle : ∀ k i : Nat, is[k]? = some i → i ≤ k)
    (hmem : ∀ j < is.length, j ∈ is) : is = List.range is.length := by
  generalize hn : is.length = n at *
  induction n generalizing is
  case zero => simpa using hn
  case succ n ih =>
    obtain rfl | ⟨js, i, rfl⟩ := is.eq_nil_or_concat
    case inl => cases hn
    case inr =>
      rw [List.concat_eq_append] at *
      have hl : js.length = n := by simpa using hn
      have hlt : ∀ j ∈ js, j < n := by
        intro j hj
        have ⟨k, hk, he⟩ := List.getElem_of_mem hj
        have := hle k j (by simp [List.getElem?_append_left hk, he, hk])
        omega
      obtain rfl : n = i := by
        have hn := hmem n (Nat.lt_succ_self n)
        have hj : n ∉ js := fun h => Nat.lt_irrefl n (hlt n h)
        simpa [hj] using hn
      have hjs : js = List.range n := by
        refine ih ?_ hl ?_
        · intro k j hk
          apply hle
          rwa [List.getElem?_append_left (List.getElem?_eq_some_iff.mp hk).1]
        · intro j hj
          have := hmem j (Nat.lt_succ_of_lt hj)
          simp at this
          exact this.resolve_right (Nat.ne_of_lt hj)
      rw [hjs, List.range_succ]

theorem Inv.inStep_of_acknowledged (inv : Inv ports cs l) (nodup : ports.Nodup)
    (h : ∀ j < l.opened, ∃ p, ports[j]? = some p ∧ Acknowledged cs p) : InStep cs l.opened := by
  have hl := inv.granted.length_eq
  have hmem : ∀ j < (Listener.granted cs).length, j ∈ Listener.granted cs := by
    intro j hj
    have ⟨p, hp, ha⟩ := h j (hl ▸ hj)
    have ⟨i, hi, hpi⟩ := inv.requested.acknowledged_iff.mp ha
    have hlt := (List.getElem?_eq_some_iff.mp hpi).1
    rwa [← (List.getElem?_inj hlt nodup).mp (hpi.trans hp.symm)]
  have hr := eq_range_of_forall_mem (fun k i hk => (inv.granted.le k i hk).1) hmem
  intro k hk
  apply (inv.granted.le k k ?_).2.mp rfl
  rw [hr, List.getElem?_range (hl ▸ hk)]

-- Every open port was acknowledged if and only if the listener was never out of step with the
-- replies: for each port on its way it took as many denials as replies had been overdue before.
-- The engine may take any time it likes, so nothing makes up for a reply that comes late.
theorem opened_acknowledged_iff (r : Run tick Answering (create origin ports watchdog) cs l) :
    (InStep cs l.opened →
      (∀ j < l.opened, ∃ p, ports[j]? = some p ∧ Acknowledged cs p) ∧
      (l.isDone → ∀ p ∈ ports, Acknowledged cs p)) ∧
    (ports.Nodup → (∀ j < l.opened, ∃ p, ports[j]? = some p ∧ Acknowledged cs p) →
      InStep cs l.opened) := by
  have inv := inv_of_run r
  refine ⟨fun h => ⟨fun j hj => inv.acknowledged_of_inStep h hj, ?_⟩, inv.inStep_of_acknowledged⟩
  intro hd p hp
  have ⟨j, hj, he⟩ := List.getElem_of_mem hp
  have hl := inv.walk.done (by simpa [isDone] using hd)
  have ⟨q, hq, ha⟩ := inv.acknowledged_of_inStep h (Nat.lt_of_lt_of_le hj (inv.walk.ports_eq ▸ hl))
  obtain rfl : p = q := by simpa [List.getElem?_eq_getElem hj, he] using hq
  exact ha

end Run

def cycles (replies : List (List Bool)) : List (Bool × Links) :=
  replies.map fun bs =>
    (true, {
      requests := ⟨"requests", 8, [], by decide, by decide⟩
      replies := .fill ⟨"replies", 8, [], by decide, by decide⟩ bs
    })

-- The first reply is overdue, and the second request is denied, which the listener takes for a
-- denial of the second port.
theorem opened_acknowledged_of_stale_denial :
    ∃ cs l, Run tick Answering (create "listener" [8800, 8803] 1) cs l ∧ InStep cs l.opened ∧
      l.isDone ∧ ∀ p ∈ [8800, 8803], Acknowledged cs p := by
  have ⟨cs, l, run, inStep, done⟩ : ∃ cs l, Run tick Answering
      (create "listener" [8800, 8803] 1) cs l ∧ InStep cs l.opened ∧ l.isDone :=
    Run.exists_of_execute
      (cycles [[], [], [], [], [true, false], [false], [false], [], [true]]) (by decide)
  exact ⟨cs, l, run, inStep, done, ((opened_acknowledged_iff run).left inStep).right done⟩

-- The first reply is overdue, and the second request is granted too, which opens the second port.
theorem isDone_not_acknowledged :
    ∃ cs l, Run tick Answering (create "listener" [8800, 8803] 1) cs l ∧ l.isDone ∧
      ¬ Acknowledged cs 8803 :=
  Run.exists_of_execute (cycles [[], [], [], [], [true, true], [true], [true]]) (by decide)

end ShellInterface.Listener
