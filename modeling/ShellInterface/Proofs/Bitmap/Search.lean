import ShellInterface.Proofs.Bitmap

namespace ShellInterface.Bitmap

variable {b : Bitmap} {index next stop found : Nat}

theorem getLsbD_shifted (b : Bitmap) (base j : Nat) :
    (b.words.getD (base / 64) 0 >>> (base % 64)).getLsbD j =
      (decide (base % 64 + j < 64) && b.bit (base + j)) := by
  rw [BitVec.getLsbD_ushiftRight]
  by_cases h : base % 64 + j < 64
  case pos =>
    have hd : (base + j) / 64 = base / 64 := by omega
    have hm : (base + j) % 64 = base % 64 + j := by omega
    simp [bit, h, hd, hm]
  case neg => simp [h, BitVec.getLsbD_of_ge _ _ (Nat.le_of_not_lt h)]

theorem bit_of_shifted_eq_zero (hz : b.words.getD (index / 64) 0 >>> (index % 64) = 0) {k : Nat}
    (hk : index ≤ k) (hw : k / 64 = index / 64) : b.bit k = false := by
  have := getLsbD_shifted b index (k - index)
  have hj : index % 64 + (k - index) < 64 := by omega
  have hk : index + (k - index) = k := by omega
  rw [hz, hk] at this
  simpa [hj] using this.symm

theorem bit_of_shifted_ne_zero {n : Nat}
    (hne : b.words.getD (index / 64) 0 >>> (index % 64) ≠ 0)
    (hn : (b.words.getD (index / 64) 0 >>> (index % 64)).ctz.toNat = n) :
    index % 64 + n < 64 ∧ b.bit (index + n) = true ∧
      ∀ k, index ≤ k → k < index + n → b.bit k = false := by
  have hset := BitVec.getLsbD_true_ctz_of_ne_zero hne
  have hunset {j : Nat} := BitVec.getLsbD_false_of_lt_ctz (i := j)
    (x := b.words.getD (index / 64) 0 >>> (index % 64))
  rw [hn] at hset hunset
  simp only [getLsbD_shifted, Bool.and_eq_true, decide_eq_true_iff] at hset
  refine ⟨hset.left, hset.right, fun k hs hk => ?_⟩
  have := hunset (j := k - index) (by omega)
  rw [getLsbD_shifted] at this
  have hj : index % 64 + (k - index) < 64 := by omega
  have hk : index + (k - index) = k := by omega
  simpa [hj, hk] using this

theorem wordAt_of_lt (h : index < b.size) :
    b.wordAt (index / 64) = .ok (b.words.getD (index / 64) 0) := by
  have hw := div_lt_words h
  simp [wordAt, hw]

theorem nextWord_of_lt (h : index + 64 < Size.limit) :
    nextWord index = .ok ((index / 64 + 1) * 64) := by
  rw [nextWord, Size.add_of_lt (by omega)]
  exact Size.mul_of_lt (by omega)

theorem firstIn_of_le (h : stop ≤ index) : b.firstIn index stop = .ok none := by
  rw [firstIn, if_neg (Nat.not_lt_of_le h)]
  rfl

theorem firstIn_of_eq_zero {word : BitVec 64} (hi : index < stop)
    (hw : b.wordAt (index / 64) = .ok word) (hz : word >>> (index % 64) = 0)
    (hn : nextWord index = .ok next) : b.firstIn index stop = b.firstIn next stop := by
  rw [firstIn]
  simp only [if_pos hi, hw, bind, Except.bind, if_pos hz]
  split
  case h_1 hm => rw [hn] at hm; cases hm; rfl
  case h_2 hm => rw [hn] at hm; cases hm

theorem firstIn_of_ne_zero {word : BitVec 64} (hi : index < stop)
    (hw : b.wordAt (index / 64) = .ok word) (hne : word >>> (index % 64) ≠ 0)
    (hf : Size.add index (word >>> (index % 64)).ctz.toNat = .ok found) :
    b.firstIn index stop = .ok (if found < stop then some found else none) := by
  rw [firstIn]
  simp only [if_pos hi, hw, bind, Except.bind, if_neg hne, hf]
  rfl

-- Unset bits at the front of a range can be skipped, even beyond its end.
theorem find?_range'_of_unset (hle : index ≤ next)
    (unset : ∀ k, index ≤ k → k < next → k < stop → b.get k = false) :
    (List.range' index (stop - index)).find? b.get =
      (List.range' next (stop - next)).find? b.get := by
  have skipped {n : Nat} (hn : index + n ≤ next) (hs : n ≤ stop - index) :
      (List.range' index n).find? b.get = none := by
    refine List.find?_eq_none.mpr fun k hk => ?_
    have := List.mem_range'_1.mp hk
    simp [unset k (by omega) (by omega) (by omega)]
  by_cases hs : next ≤ stop
  case pos =>
    obtain ⟨n, rfl⟩ := Nat.exists_eq_add_of_le hle
    have hr : stop - index = n + (stop - (index + n)) := by omega
    rw [hr, ← List.range'_append_1, List.find?_append, skipped (Nat.le_refl _) (by omega),
      Option.none_or]
  case neg =>
    have hz : stop - next = 0 := by omega
    rw [skipped (by omega) (Nat.le_refl _), hz]
    rfl

theorem find?_range'_of_first (hle : index ≤ found) (set : found < stop → b.get found = true)
    (unset : ∀ k, index ≤ k → k < found → k < stop → b.get k = false) :
    (List.range' index (stop - index)).find? b.get = if found < stop then some found else none := by
  rw [find?_range'_of_unset hle unset]
  by_cases hf : found < stop
  case pos =>
    have hs : stop - found = stop - found - 1 + 1 := by omega
    rw [if_pos hf, hs, List.range'_succ, List.find?_cons_of_pos (set hf)]
  case neg =>
    have hz : stop - found = 0 := by omega
    rw [if_neg hf, hz]
    rfl

-- The loop returns, never reads beyond the words and never leaves the sizes, and what it returns
-- is what a search through the bits finds. The induction is on what is left of the range.
theorem firstIn_eq_find? (h : stop ≤ b.size) (index : Nat) :
    b.firstIn index stop = .ok ((List.range' index (stop - index)).find? b.get) := by
  by_cases hi : index < stop
  case neg =>
    have hz : stop - index = 0 := by omega
    rw [firstIn_of_le (Nat.le_of_not_lt hi), hz]
    rfl
  case pos =>
    have hlt := b.size_lt
    have hw := wordAt_of_lt (Nat.lt_of_lt_of_le hi h)
    have get_eq {k : Nat} (hk : k < stop) : b.get k = b.bit k := get_eq_bit (by omega)
    by_cases hz : b.words.getD (index / 64) 0 >>> (index % 64) = 0
    case pos =>
      have hn := nextWord_of_lt (show index + 64 < Size.limit by omega)
      have hnext := lt_of_nextWord hn
      rw [firstIn_of_eq_zero hi hw hz hn, firstIn_eq_find? h,
        find?_range'_of_unset (Nat.le_of_lt hnext)]
      intro k hk hkn hks
      rw [get_eq hks, bit_of_shifted_eq_zero hz hk (by omega)]
    case neg =>
      have ⟨hn, hset, hunset⟩ := bit_of_shifted_ne_zero hz rfl
      rw [firstIn_of_ne_zero hi hw hz (Size.add_of_lt (by omega)),
        find?_range'_of_first (Nat.le_add_right index _)]
      case set   => exact fun hf => by rw [get_eq hf, hset]
      case unset => exact fun k hk hkn hks => by rw [get_eq hks, hunset k hk hkn]
termination_by stop - index

theorem range'_append_range' {n : Nat} (start : Nat) (h : 0 < n) :
    List.range' (start % n) (n - start % n) ++ List.range' 0 (start % n) =
      (List.range n).map fun k => (start + k) % n := by
  have hs : start % n < n := Nat.mod_lt _ h
  refine List.ext_getElem (by simp; omega) fun k hk _ => ?_
  replace hk : k < n := by simp at hk; omega
  simp only [List.getElem_map, List.getElem_range, ← Nat.mod_add_mod start n k,
    List.getElem_append, List.getElem_range', List.length_range']
  generalize start % n = s at hs
  split
  case isTrue hlt => rw [Nat.mod_eq_of_lt (by omega), Nat.one_mul]
  case isFalse hge =>
    rw [Nat.mod_eq_sub_mod (by omega), Nat.mod_eq_of_lt (by omega)]
    omega

theorem nextFrom_eq_find? (b : Bitmap) (start : Nat) :
    b.nextFrom start =
      .ok (((List.range b.size).map fun k => (start + k) % b.size).find? b.get) := by
  unfold nextFrom
  split
  case isTrue hz => simp [hz, pure, Except.pure]
  case isFalse hz =>
    have hs : start % b.size < b.size := Nat.mod_lt _ (by omega)
    rw [← range'_append_range' start (by omega), List.find?_append]
    simp only [firstIn_eq_find? (Nat.le_refl _), firstIn_eq_find? (Nat.le_of_lt hs), Nat.sub_zero,
      bind, Except.bind]
    cases (List.range' (start % b.size) (b.size - start % b.size)).find? b.get <;> rfl

theorem exists_nextFrom (b : Bitmap) (start : Nat) : ∃ found, b.nextFrom start = .ok found :=
  ⟨_, nextFrom_eq_find? b start⟩

end ShellInterface.Bitmap
