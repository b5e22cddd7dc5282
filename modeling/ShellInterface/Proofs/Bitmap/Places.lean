import Mathlib.Algebra.Ring.Nat
import ShellInterface.Proofs.Bitmap.Updates

namespace ShellInterface

theorem Size.foldlM_add {ns : List Nat} {start : Nat} (h : start + ns.sum < limit) :
    ns.foldlM add start = .ok (start + ns.sum) := by
  induction ns generalizing start
  case nil => rfl
  case cons n ns ih =>
    rw [List.sum_cons, ← Nat.add_assoc] at h ⊢
    rw [List.foldlM_cons, add_of_lt (by omega)]
    exact ih h

namespace Bitmap

variable {b : Bitmap} {u : Update} {us : List Update} {n i : Nat}

def after (n : Nat) (us : List Update) : Except Halt Bitmap := do
  us.foldlM apply (← create n)

def checkedCount (b : Bitmap) : Except Halt Nat :=
  b.words.foldlM (fun n w => Size.add n w.cpop.toNat) 0

theorem after_nil (n : Nat) : after n [] = create n :=
  bind_pure (create n)

theorem after_concat (n : Nat) (us : List Update) (u : Update) :
    after n (us ++ [u]) = after n us >>= (·.apply u) := by
  simp [after]

theorem Reached.after_eq (r : Reached n us b) : after n us = .ok b := by
  induction r
  case create created    => rw [after_nil, created]
  case update applied ih => rw [after_concat, ih]; exact applied

theorem apply_eq_error_iff {e : Halt} :
    b.apply u = .error e ↔ b.size ≤ u.index ∧ e = .bitOutOfRange u.index b.size := by
  cases u
  case set   => exact set_eq_error_iff
  case unset => exact unset_eq_error_iff

theorem cpop_eq_countP (w : BitVec 64) : w.cpop.toNat = (List.range 64).countP w.getLsbD := by
  suffices h : ∀ k, w.cpopNatRec k 0 = (List.range k).countP w.getLsbD by
    rw [BitVec.toNat_cpop, h]
  intro k
  induction k
  case zero => rfl
  case succ k ih =>
    rw [BitVec.cpopNatRec_succ, BitVec.cpopNatRec_eq, ih, List.range_succ, List.countP_append,
      List.countP_singleton]
    cases w.getLsbD k <;> simp

theorem sum_cpop_eq_countP (words : List (BitVec 64)) :
    (words.map (·.cpop.toNat)).sum = (List.range (64 * words.length)).countP fun i =>
      (words.getD (i / 64) 0).getLsbD (i % 64) := by
  induction words
  case nil => rfl
  case cons w words ih =>
    have first : (List.range 64).countP (fun i => ((w :: words).getD (i / 64) 0).getLsbD (i % 64)) =
        w.cpop.toNat := by
      rw [cpop_eq_countP]
      refine List.countP_congr fun i hi => ?_
      have hlt := List.mem_range.mp hi
      rw [Nat.div_eq_of_lt hlt, Nat.mod_eq_of_lt hlt, List.getD_cons_zero]
    have rest (i : Nat) : (64 + i) / 64 = i / 64 + 1 ∧ (64 + i) % 64 = i % 64 := by omega
    rw [List.length_cons, Nat.mul_succ, Nat.add_comm, List.range_add, List.countP_append, first,
      List.countP_map, List.map_cons, List.sum_cons, ih]
    simp only [Function.comp_def, rest, List.getD_cons_succ]

theorem count_eq_sum (b : Bitmap) : b.count = (b.words.toList.map (·.cpop.toNat)).sum := by
  rw [count, ← Array.foldl_toList, List.sum_eq_foldl, List.foldl_map]

theorem checkedCount_eq (h : b.count < Size.limit) : b.checkedCount = .ok b.count := by
  have hs : b.words.toList.foldlM (fun n w => Size.add n w.cpop.toNat) 0 =
      (b.words.toList.map (·.cpop.toNat)).foldlM Size.add 0 := by
    rw [List.foldlM_map]
  rw [checkedCount, ← Array.foldlM_toList, hs, Size.foldlM_add] <;> simp [← count_eq_sum, h]

theorem count_eq_countP (b : Bitmap) :
    b.count = (List.range (64 * b.words.size)).countP b.bit := by
  rw [count_eq_sum, sum_cpop_eq_countP, Array.length_toList]
  congr 1
  funext i
  simp [bit]

theorem isEmpty_iff : b.isEmpty = true ↔ ∀ i, b.bit i = false := by
  rw [isEmpty, Array.all_eq_true]
  constructor
  case mp =>
    intro h i
    by_cases hk : i / 64 < b.words.size
    case pos => simp [bit, hk, eq_of_beq (h _ hk)]
    case neg => simp [bit, hk]
  case mpr =>
    intro h k hk
    refine beq_iff_eq.mpr (BitVec.eq_of_getLsbD_eq fun j hj => ?_)
    have := h (64 * k + j)
    have hd : (64 * k + j) / 64 = k := by omega
    have hm : (64 * k + j) % 64 = j := by omega
    simpa [bit, hd, hm, hk] using this

theorem pairwise_toList (b : Bitmap) : b.toList.Pairwise (· < ·) :=
  List.pairwise_lt_range.filter _

theorem mem_toList_iff : i ∈ b.toList ↔ b.get i = true := by
  rw [toList, List.mem_filter, List.mem_range, and_iff_right_iff_imp, get_eq, Bool.and_eq_true,
    decide_eq_true_iff]
  exact And.left

-- The words have as many set bits as there are set places, as the last word ends in unset bits.
theorem Reached.count_eq (r : Reached n us b) : b.count = b.toList.length := by
  obtain ⟨beyond, hb⟩ : ∃ beyond, 64 * b.words.size = n + beyond :=
    Nat.exists_eq_add_of_le (by rw [b.words_size, r.size_eq]; omega)
  have none : (List.range beyond).countP (b.bit ∘ (n + ·)) = 0 := by
    rw [List.countP_eq_zero]
    intro i _
    simp [r.bit_of_le (Nat.le_add_right n i)]
  have get_eq_bit : b.get = b.bit := funext r.get_eq_bit
  rw [count_eq_countP, hb, List.range_add, List.countP_append, List.countP_map, none, Nat.add_zero,
    List.countP_eq_length_filter, toList, r.size_eq, get_eq_bit]

theorem Reached.count_le (r : Reached n us b) : b.count ≤ n := calc
  b.count
  _ = b.toList.length              := r.count_eq
  _ ≤ (List.range b.size).length   := List.length_filter_le ..
  _ = n                            := by rw [List.length_range, r.size_eq]

theorem Reached.isEmpty_iff (r : Reached n us b) : b.isEmpty = true ↔ ∀ i, b.get i = false := by
  simp only [Bitmap.isEmpty_iff, r.get_eq_bit]

theorem exists_word (room : b.size + 64 < Size.limit) (h : i < b.size) :
    i / 64 < b.words.size ∧ 64 * (i / 64 + 1) < Size.limit :=
  ⟨div_lt_words h, by omega⟩

-- Whatever updates of its places a new bitmap went through, it is the set of those places whose
-- last update set them, and each operation on it says so. Nothing but an update of a place that it
-- does not have stops the run: there is a word for every place that is read, and what is counted
-- are sizes. The largest bitmap alone cannot be created, as a sum on the way to the number of its
-- words is not a size any more.
theorem places_of_updates (h : n ≤ Size.limit - 64) (inRange : ∀ u ∈ us, u.index < n) :
    if n = Size.limit - 64 then
      create n = .error .additionOverflow
    else
      ∃ b, after n us = .ok b ∧ b.size = n ∧
        (∀ i, b.get i = true ↔ i < n ∧ IsSet us i) ∧
        (∀ i, n ≤ i → b.bit i = false) ∧
        (b.toList.Pairwise (· < ·) ∧ ∀ i, i ∈ b.toList ↔ i < n ∧ IsSet us i) ∧
        (b.count = b.toList.length ∧ b.checkedCount = .ok b.count) ∧
        (b.isEmpty = true ↔ ∀ i, ¬ (i < n ∧ IsSet us i)) ∧
        (∀ u e, b.apply u = .error e ↔ n ≤ u.index ∧ e = .bitOutOfRange u.index n) ∧
        ∀ i < n, i / 64 < b.words.size ∧ 64 * (i / 64 + 1) < Size.limit := by
  split
  case isTrue hn  => exact create_of_limit_le (by omega)
  case isFalse hn =>
    have room : n + 64 < Size.limit := by omega
    have ⟨b, r⟩ := exists_reached room inRange
    have get_iff (i : Nat) : b.get i = true ↔ i < n ∧ IsSet us i := by
      rw [r.get_iff, iff_and_self]
      exact r.lt_of_isSet
    refine ⟨b, r.after_eq, r.size_eq, get_iff, fun _ => r.bit_of_le, ⟨pairwise_toList b, ?members⟩,
      ⟨r.count_eq, ?counted⟩, ?empty, ?stops, ?words⟩
    case members => exact fun i => mem_toList_iff.trans (get_iff i)
    case counted => exact checkedCount_eq (Nat.lt_of_le_of_lt r.count_le (by omega))
    case empty   => simp only [r.isEmpty_iff, ← get_iff, Bool.not_eq_true]
    case stops   => exact fun u e => r.size_eq ▸ apply_eq_error_iff
    case words   => exact fun i hi => exists_word (r.size_eq ▸ room) (r.size_eq ▸ hi)

theorem places_of_four_updates :
    130 ≤ Size.limit - 64 ∧
    (∀ u ∈ [.set 129, .set 65, .set 2, .unset 129], Update.index u < 130) ∧
    ∃ b, after 130 [.set 129, .set 65, .set 2, .unset 129] = .ok b ∧
      b.toList = [2, 65] ∧ b.checkedCount = .ok 2 ∧ b.isEmpty = false ∧ b.bit 130 = false ∧
      b.set 130 = .error (.bitOutOfRange 130 130) := by
  have small : 130 ≤ Size.limit - 64 := by decide
  have inRange : ∀ u ∈ [.set 129, .set 65, .set 2, .unset 129], Update.index u < 130 := by decide
  have ⟨b, after_eq, size_eq, get_iff, beyond, _, ⟨count_eq, checked⟩, empty_iff, stops, _⟩ :=
    (if_neg (by decide)).mp (places_of_updates small inRange)
  have get_eq : b.get = fun i => decide (i < 130 ∧
      IsSet [.set 129, .set 65, .set 2, .unset 129] i) := by
    funext i
    rw [Bool.eq_iff_iff, get_iff, decide_eq_true_iff]
  have list : b.toList = [2, 65] := by
    rw [toList, size_eq, get_eq]
    decide
  refine ⟨small, inRange, b, after_eq, list, ?counted, ?empty, beyond 130 (Nat.le_refl _), ?stops⟩
  case counted => rw [checked, count_eq, list]; rfl
  case empty =>
    rw [← Bool.not_eq_true, empty_iff]
    exact fun h => h 65 (by decide)
  case stops => exact (stops (.set 130) _).mpr ⟨Nat.le_refl _, rfl⟩

-- This length is a whole number of words, but no bitmap of it can be created.
theorem create_of_longest :
    ¬ ∀ (n : Nat) (us : List Update), n ≤ Size.limit - 64 → (∀ u ∈ us, u.index < n) →
      ∃ b, after n us = .ok b := by
  intro h
  have ⟨b, after_eq⟩ := h (Size.limit - 64) [] (Nat.le_refl _) nofun
  rw [after_nil, create_of_limit_le (by decide)] at after_eq
  cases after_eq

end Bitmap

end ShellInterface
