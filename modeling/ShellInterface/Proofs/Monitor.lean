import Mathlib
import ShellInterface.Report.Monitor

namespace ShellInterface.Monitor

variable {ε : Type}

inductive Act (ε : Type)
  | report (origin : String) (level : Level) (error : ε)
  | advance
  | take
deriving DecidableEq, Repr

def Act.isAdvance : Act ε → Bool
  | .advance => true
  | _        => false

def Act.isTake : Act ε → Bool
  | .take => true
  | _     => false

def perform (m : Monitor ε) : Act ε → Except Halt (Monitor ε)
  | .report origin level error => m.report origin level error
  | .advance                   => m.advance
  | .take                      => return m.take.2

def advances (acts : List (Act ε)) : Nat :=
  acts.countP Act.isAdvance

def reports (cycle : Nat) : List (Act ε) → List (Report ε)
  | []                                  => []
  | .report origin level error :: acts => ⟨cycle, origin, level, error⟩ :: reports cycle acts
  | .advance :: acts                   => reports (cycle + 1) acts
  | .take :: acts                      => reports cycle acts

def untaken (acts : List (Act ε)) : List (Report ε) :=
  reports (advances (acts.rdropWhile (!·.isTake))) (acts.rtakeWhile (!·.isTake))

def origins (acts : List (Act ε)) : List String :=
  (reports 0 acts).map (·.origin)

def tallies (os : List String) : List (String × Nat) :=
  os.eraseDups.map fun o => (o, os.count o)

section Tallies

variable {os ks : List String} {k o : String} {f g : String → Nat}

theorem eraseDups_concat (os : List String) (o : String) :
    (os ++ [o]).eraseDups = if o ∈ os then os.eraseDups else os.eraseDups ++ [o] := by
  by_cases h : o ∈ os <;> simp [List.eraseDups_append, List.removeAll, List.eraseDups_cons, h]

theorem idxOf_concat_lt (old : k ∈ os) (new : o ∉ os) :
    (os ++ [o]).idxOf k < (os ++ [o]).idxOf o := by
  rw [List.idxOf_append_of_mem old, List.idxOf_append_of_notMem new]
  exact Nat.lt_of_lt_of_le (List.idxOf_lt_length_of_mem old) (Nat.le_add_right ..)

theorem pairwise_eraseDups (os : List String) :
    os.eraseDups.Pairwise fun a b => os.idxOf a < os.idxOf b := by
  induction os using List.reverseRecOn
  case nil => simp
  case append_singleton os o ih =>
    have old : os.eraseDups.Pairwise fun a b => (os ++ [o]).idxOf a < (os ++ [o]).idxOf b := by
      refine ih.imp_of_mem fun ha hb h => ?_
      rwa [List.idxOf_append_of_mem (List.mem_eraseDups.mp ha),
        List.idxOf_append_of_mem (List.mem_eraseDups.mp hb)]
    rw [eraseDups_concat]
    split
    case isTrue      => exact old
    case isFalse new =>
      refine List.pairwise_append.mpr ⟨old, List.pairwise_singleton .., fun a ha b hb => ?_⟩
      obtain rfl := List.mem_singleton.mp hb
      exact idxOf_concat_lt (List.mem_eraseDups.mp ha) new

theorem nodup_eraseDups (os : List String) : os.eraseDups.Nodup := by
  refine (pairwise_eraseDups os).imp ?_
  rintro a _ h rfl
  exact Nat.lt_irrefl _ h

theorem increment_of_not_mem (h : o ∉ ks) :
    increment o (ks.map fun k => (k, f k)) = .ok (ks.map (fun k => (k, f k)) ++ [(o, 1)]) := by
  induction ks
  case nil => rfl
  case cons k ks ih =>
    have ⟨hk, hks⟩ := List.ne_and_not_mem_of_not_mem_cons h
    simp [increment, hk.symm, ih hks, bind, Except.bind, pure, Except.pure]

theorem increment_of_mem (nodup : ks.Nodup) (mem : o ∈ ks) (room : f o + 1 < Size.limit)
    (more : g o = f o + 1) (others : ∀ k, k ≠ o → g k = f k) :
    increment o (ks.map fun k => (k, f k)) = .ok (ks.map fun k => (k, g k)) := by
  induction ks
  case nil => cases mem
  case cons k ks ih =>
    have ⟨hk, hks⟩ := List.nodup_cons.mp nodup
    by_cases h : k = o
    case pos =>
      -- None of the later entries is one of this origin.
      subst h
      have hmap : ks.map (fun k => (k, g k)) = ks.map fun k => (k, f k) :=
        List.map_congr_left fun j hj => by rw [others j (ne_of_mem_of_not_mem hj hk)]
      simp [increment, Size.add_of_lt room, more, hmap, bind, Except.bind, pure, Except.pure]
    case neg =>
      have mem := (List.mem_cons.mp mem).resolve_left (Ne.symm h)
      simp [increment, h, ih hks mem, others k h, bind, Except.bind, pure, Except.pure]

theorem increment_tallies (room : os.count o + 1 < Size.limit) :
    increment o (tallies os) = .ok (tallies (os ++ [o])) := by
  have more : (os ++ [o]).count o = os.count o + 1 := by simp
  have others (k : String) (h : k ≠ o) : (os ++ [o]).count k = os.count k := by simp [h.symm]
  rw [tallies, tallies, eraseDups_concat]
  split
  case isTrue mem =>
    exact increment_of_mem (nodup_eraseDups os) (List.mem_eraseDups.mpr mem) room more others
  case isFalse new =>
    have hmap : os.eraseDups.map (fun k => (k, (os ++ [o]).count k)) =
        os.eraseDups.map fun k => (k, os.count k) :=
      List.map_congr_left fun k hk => by
        rw [others k (ne_of_mem_of_not_mem (List.mem_eraseDups.mp hk) new)]
    rw [increment_of_not_mem (mt List.mem_eraseDups.mp new), List.map_append, List.map_singleton,
      hmap, more, List.count_eq_zero.mpr new]

theorem lookup_tallies (os : List String) (o : String) :
    ((tallies os).lookup o).getD 0 = os.count o := by
  by_cases h : o ∈ os
  case pos =>
    rw [tallies, List.lookup_graph os.count (List.mem_eraseDups.mpr h), Option.getD_some]
  case neg =>
    have hnone : (tallies os).lookup o = none := by
      rw [List.lookup_eq_none_iff]
      intro p hp
      obtain ⟨k, hk, rfl⟩ := List.mem_map.mp hp
      exact bne_iff_ne.mpr (ne_of_mem_of_not_mem (List.mem_eraseDups.mp hk) h).symm
    rw [hnone, Option.getD_none, List.count_eq_zero.mpr h]

theorem sum_count_eraseDups (os : List String) : (os.eraseDups.map os.count).sum = os.length := by
  have perm : os.eraseDups.Perm os.dedup :=
    (List.perm_ext_iff_of_nodup (nodup_eraseDups os) os.nodup_dedup).mpr fun o => by
      rw [List.mem_eraseDups, List.mem_dedup]
  rw [(perm.map os.count).sum_eq, List.sum_map_count_dedup_eq_length]

end Tallies

section Acts

variable {acts : List (Act ε)} {a : Act ε}

theorem advances_append (acts bs : List (Act ε)) :
    advances (acts ++ bs) = advances acts + advances bs :=
  List.countP_append

theorem advances_cons (a : Act ε) (acts : List (Act ε)) :
    advances (a :: acts) = (if a.isAdvance then 1 else 0) + advances acts := by
  rw [advances, List.countP_cons, Nat.add_comm, advances]

theorem reports_append (cycle : Nat) (acts bs : List (Act ε)) :
    reports cycle (acts ++ bs) = reports cycle acts ++ reports (cycle + advances acts) bs := by
  induction acts generalizing cycle
  case nil => rfl
  case cons a acts ih =>
    cases a <;> simp only [List.cons_append, reports, ih, advances_cons, Act.isAdvance,
      if_true, Bool.false_eq_true, if_false, Nat.zero_add, Nat.add_assoc]

theorem length_reports_le (cycle : Nat) (acts : List (Act ε)) :
    (reports cycle acts).length ≤ acts.length := by
  induction acts generalizing cycle
  case nil => exact Nat.le_refl 0
  case cons a acts ih =>
    cases a
    case report  => exact Nat.succ_le_succ (ih cycle)
    case advance => exact Nat.le_succ_of_le (ih (cycle + 1))
    case take    => exact Nat.le_succ_of_le (ih cycle)

theorem advances_eq (acts : List (Act ε)) :
    advances (acts.rdropWhile (!·.isTake)) + advances (acts.rtakeWhile (!·.isTake)) =
      advances acts := by
  rw [← advances_append, List.rdropWhile_append_rtakeWhile]

theorem untaken_concat (h : a.isTake = false) :
    untaken (acts ++ [a]) = untaken acts ++ reports (advances acts) [a] := by
  rw [untaken, List.rdropWhile_concat_pos _ _ _ (by simp [h]),
    List.rtakeWhile_concat_pos _ _ _ (by simp [h]), reports_append, advances_eq]
  rfl

theorem untaken_concat_take (acts : List (Act ε)) : untaken (acts ++ [.take]) = [] := by
  rw [untaken, List.rtakeWhile_concat_neg _ _ _ (by simp [Act.isTake])]
  rfl

theorem origins_concat (acts : List (Act ε)) (a : Act ε) :
    origins (acts ++ [a]) = origins acts ++ origins [a] := by
  rw [origins, reports_append, List.map_append]
  cases a <;> rfl

theorem origins_concat_of_nil (h : origins [a] = []) : origins (acts ++ [a]) = origins acts := by
  rw [origins_concat, h, List.append_nil]

-- One more report makes the oldest one give way once there is no more room.
theorem retain_eq_rtake {m : Monitor ε} {rs : List (Report ε)}
    (h : m.retained = rs.rtake m.history) (r : Report ε) :
    m.retain r = (rs ++ [r]).rtake m.history := by
  unfold retain
  rcases hn : m.history with _ | n <;> rw [hn] at h
  case zero => simp [h]
  case succ =>
    have hlength : m.retained.length = rs.length - (rs.length - (n + 1)) := by
      rw [h, List.rtake, List.length_drop]
    rw [if_neg (Nat.succ_ne_zero n), List.rtake_concat_succ]
    split
    -- The oldest report is dropped beside those that were dropped before.
    case isTrue full =>
      have hdrop : rs.length - (n + 1) + 1 = rs.length - n := by omega
      rw [h, List.rtake, List.tail_drop, hdrop, List.rtake]
    -- Nothing was dropped so far, and nothing is.
    case isFalse roomy =>
      have hdrop : rs.length - (n + 1) = rs.length - n := by omega
      rw [h, List.rtake, hdrop, List.rtake]

end Acts

structure Recorded (history : Nat) (acts : List (Act ε)) (m : Monitor ε) : Prop where
  cycle_eq    : m.cycle = advances acts
  history_eq  : m.history = history
  retained_eq : m.retained = (untaken acts).rtake history
  counts_eq   : m.counts = tallies (origins acts)
  total_eq    : m.total = (origins acts).length

section Recorded

variable {history : Nat} {acts : List (Act ε)} {m : Monitor ε}

theorem length_origins_le (acts : List (Act ε)) : (origins acts).length ≤ acts.length := by
  rw [origins, List.length_map]
  exact length_reports_le 0 acts

theorem Recorded.report (h : Recorded history acts m) (room : acts.length + 1 < Size.limit)
    (origin : String) (level : Level) (error : ε) :
    ∃ m', m.report origin level error = .ok m' ∧
      Recorded history (acts ++ [.report origin level error]) m' := by
  have hle := length_origins_le acts
  have hle_count : (origins acts).count origin ≤ (origins acts).length := List.count_le_length
  have hcounts : increment origin m.counts = .ok (tallies (origins acts ++ [origin])) := by
    rw [h.counts_eq, increment_tallies (by omega)]
  have htotal : Size.add m.total 1 = .ok ((origins acts).length + 1) := by
    rw [h.total_eq, Size.add_of_lt (by omega)]
  let m' : Monitor ε := {
    m with
    counts   := tallies (origins acts ++ [origin])
    total    := (origins acts).length + 1
    retained := m.retain ⟨m.cycle, origin, level, error⟩
  }
  have hm' : m.report origin level error = .ok m' := by
    rw [Monitor.report, hcounts, htotal]
    rfl
  refine ⟨m', hm', ?cycle, h.history_eq, ?retained, ?counts, ?total⟩
  case cycle    => rw [advances_append]; exact h.cycle_eq
  case retained =>
    have hretained : m.retained = (untaken acts).rtake m.history := by
      rw [h.history_eq, h.retained_eq]
    rw [untaken_concat rfl, reports, reports, ← h.cycle_eq, ← h.history_eq]
    exact retain_eq_rtake hretained _
  case counts   => rw [origins_concat]; rfl
  case total    => rw [origins_concat, List.length_append]; rfl

theorem Recorded.advance (h : Recorded history acts m) (room : acts.length + 1 < Size.limit) :
    ∃ m', m.advance = .ok m' ∧ Recorded history (acts ++ [.advance]) m' := by
  have hle : advances acts ≤ acts.length := List.countP_le_length
  have hcycle : Size.add m.cycle 1 = .ok (advances acts + 1) := by
    rw [h.cycle_eq, Size.add_of_lt (by omega)]
  have hm' : m.advance = .ok { m with cycle := advances acts + 1 } := by
    rw [Monitor.advance, hcycle]
    rfl
  refine ⟨_, hm', ?cycle, h.history_eq, ?retained, ?counts, ?total⟩
  case cycle    => rw [advances_append]; rfl
  case retained => rw [untaken_concat rfl, reports, reports, List.append_nil]; exact h.retained_eq
  case counts   => rw [origins_concat_of_nil rfl]; exact h.counts_eq
  case total    => rw [origins_concat_of_nil rfl]; exact h.total_eq

theorem Recorded.take (h : Recorded history acts m) :
    Recorded history (acts ++ [.take]) m.take.2 := by
  constructor
  case cycle_eq    => rw [advances_append]; exact h.cycle_eq
  case history_eq  => exact h.history_eq
  case retained_eq => rw [untaken_concat_take, List.rtake_nil]; rfl
  case counts_eq   => rw [origins_concat_of_nil rfl]; exact h.counts_eq
  case total_eq    => rw [origins_concat_of_nil rfl]; exact h.total_eq

theorem Recorded.next (h : Recorded history acts m) (room : acts.length + 1 < Size.limit)
    (a : Act ε) : ∃ m', perform m a = .ok m' ∧ Recorded history (acts ++ [a]) m' := by
  cases a
  case report origin level error => exact h.report room origin level error
  case advance                   => exact h.advance room
  case take                      => exact ⟨m.take.2, rfl, h.take⟩

theorem recorded_of_acts (history : Nat) {acts : List (Act ε)} (few : acts.length < Size.limit) :
    ∃ m, acts.foldlM perform (empty history) = .ok m ∧ Recorded history acts m := by
  induction acts using List.reverseRecOn
  case nil => exact ⟨empty history, rfl, rfl, rfl, (List.rtake_nil history).symm, rfl, rfl⟩
  case append_singleton acts a ih =>
    rw [List.length_append, List.length_singleton] at few
    have ⟨m, hm, h⟩ := ih (by omega)
    have ⟨m', hm', h'⟩ := h.next few a
    refine ⟨m', ?_, h'⟩
    rw [List.foldlM_append, hm]
    change perform m a >>= pure = .ok m'
    rw [bind_pure, hm']

theorem Recorded.count_eq (h : Recorded history acts m) (o : String) :
    m.count o = (origins acts).count o := by
  rw [count, h.counts_eq, lookup_tallies]

theorem Recorded.summary_eq (h : Recorded history acts m) :
    m.summary = ", ".intercalate
      ((origins acts).eraseDups.map fun o => o ++ "=" ++ toString (m.count o)) := by
  rw [summary, h.counts_eq, tallies, List.map_map]
  simp only [h.count_eq]
  rfl

theorem Recorded.sum_counts (h : Recorded history acts m) :
    ((origins acts).eraseDups.map m.count).sum = m.total := by
  have hcount : m.count = (origins acts).count := funext h.count_eq
  rw [hcount, sum_count_eraseDups, h.total_eq]

theorem Recorded.length_retained (h : Recorded history acts m) :
    m.retained.length = min history (untaken acts).length := by
  rw [h.retained_eq, List.rtake, List.length_drop]
  omega

end Recorded

theorem create_eq [Storable ε] (history : Nat) :
    (create history : Except Halt (Monitor ε)) = .ok (empty history) ∨
      (create history : Except Halt (Monitor ε)) = .error .capacityOverflow := by
  rw [create, Layout.reserve]
  split
  case isTrue  => exact .inl rfl
  case isFalse => exact .inr rfl

-- A new monitor can only lack the room for its history. With fewer than `2 ^ 64` uses, none of them
-- stops the run.
theorem kept_of_acts [Storable ε] (history : Nat) (acts : List (Act ε))
    (few : acts.length < Size.limit) :
    ((create history : Except Halt (Monitor ε)) = .ok (empty history) ∨
      (create history : Except Halt (Monitor ε)) = .error .capacityOverflow) ∧
    ∃ m, acts.foldlM perform (empty history) = .ok m ∧
      m.cycle = advances acts ∧
      -- The latest reports since the last `take`, as many as there is room for.
      m.retained <:+ untaken acts ∧ m.retained.length = min history (untaken acts).length ∧
      -- Taking them changes nothing else.
      (m.take.1 = m.retained ∧ m.take.2 = { m with retained := [] }) ∧
      m.total = (reports 0 acts).length ∧ (∀ o, m.count o = (origins acts).count o) ∧
      -- The origins in the order of their first reports.
      ∃ os : List String,
        os.Pairwise (fun a b => (origins acts).idxOf a < (origins acts).idxOf b) ∧
        (∀ o, o ∈ os ↔ o ∈ origins acts) ∧
        m.summary = ", ".intercalate (os.map fun o => o ++ "=" ++ toString (m.count o)) ∧
        (os.map m.count).sum = m.total := by
  have ⟨m, hm, h⟩ := recorded_of_acts history few
  refine ⟨create_eq history, m, hm, h.cycle_eq, ?suffix, h.length_retained, ⟨rfl, rfl⟩, ?total,
    h.count_eq, (origins acts).eraseDups, pairwise_eraseDups _, fun _ => List.mem_eraseDups,
    h.summary_eq, h.sum_counts⟩
  case suffix => rw [h.retained_eq]; exact List.drop_suffix ..
  case total  => rw [h.total_eq, origins, List.length_map]

-- There is room for two reports. Four of them are made, the first of which is taken.
def boundedActs : List (Act String) := [
  .report "A/x" .warn "first", .take, .report "A/x" .warn "second", .advance,
  .report "B/y" .error "third", .report "A/x" .warn "fourth"
]

theorem kept_of_bounded_history :
    boundedActs.length < Size.limit ∧ ∃ m, boundedActs.foldlM perform (empty 2) = .ok m ∧
      m.retained = [⟨1, "B/y", .error, "third"⟩, ⟨1, "A/x", .warn, "fourth"⟩] ∧
      m.total = 4 ∧ m.count "A/x" = 3 ∧ m.count "B/y" = 1 ∧ m.count "C/z" = 0 ∧
      m.summary = "A/x=3, B/y=1" := by
  have few : boundedActs.length < Size.limit := by decide
  have hrun : boundedActs.foldlM perform (empty 2) = .ok ⟨1, 2, [⟨1, "B/y", .error, "third"⟩,
      ⟨1, "A/x", .warn, "fourth"⟩], [("A/x", 3), ("B/y", 1)], 4⟩ := by decide
  have huntaken : untaken boundedActs = [⟨0, "A/x", .warn, "second"⟩,
      ⟨1, "B/y", .error, "third"⟩, ⟨1, "A/x", .warn, "fourth"⟩] := by decide
  have ⟨_, m, hm, _, hsuffix, hlength, _, htotal, hcount, _⟩ := kept_of_acts 2 boundedActs few
  refine ⟨few, m, hm, ?retained, htotal.trans (by decide), (hcount _).trans (by decide),
    (hcount _).trans (by decide), (hcount _).trans (by decide), ?summary⟩
  case retained =>
    rw [List.suffix_iff_eq_drop.mp hsuffix, hlength, huntaken]
    rfl
  case summary =>
    obtain rfl := Except.ok.inj (hm.symm.trans hrun)
    decide

end ShellInterface.Monitor
