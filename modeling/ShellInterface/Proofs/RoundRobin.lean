import ShellInterface.Proofs.Bitmap.Search
import ShellInterface.RoundRobin

namespace ShellInterface.RoundRobin

-- How many places the search looks at before it comes to `i`.
def wait (r : RoundRobin) (size i : Nat) : Nat :=
  if r.next ≤ i then i - r.next else i + size - r.next

variable {r r' : RoundRobin} {pending : Bitmap} {size i j k index : Nat}

theorem place_wait (hn : r.next < size) (hi : i < size) :
    r.wait size i < size ∧ (r.next + r.wait size i) % size = i := by
  unfold wait
  split
  case isTrue h => exact ⟨by omega, by rw [Nat.add_sub_cancel' h, Nat.mod_eq_of_lt hi]⟩
  case isFalse h =>
    refine ⟨by omega, ?_⟩
    rw [Nat.add_sub_cancel' (by omega), Nat.add_mod_right, Nat.mod_eq_of_lt hi]

theorem wait_place (hn : r.next < size) (hk : k < size) :
    r.wait size ((r.next + k) % size) = k := by
  by_cases h : r.next + k < size
  case pos =>
    rw [Nat.mod_eq_of_lt h, wait, if_pos (Nat.le_add_right ..), Nat.add_sub_cancel_left]
  case neg =>
    rw [Nat.mod_eq_sub_mod (by omega), Nat.mod_eq_of_lt (by omega), wait, if_neg (by omega)]
    omega

theorem wait_inj (hn : r.next < size) (hi : i < size) (hj : j < size)
    (h : r.wait size i = r.wait size j) : i = j := by
  rw [← (place_wait hn hi).right, h, (place_wait hn hj).right]

theorem select_eq_some (hn : r.next < pending.size) (h : r.select pending = .ok (some i)) :
    i < pending.size ∧
      ∀ j, pending.get j = true → r.wait pending.size i ≤ r.wait pending.size j := by
  rw [select, Bitmap.nextFrom_eq_find?, Except.ok.injEq, List.find?_map,
    Option.map_eq_some_iff] at h
  obtain ⟨k, hk, rfl⟩ := h
  have ⟨_, hk, hfirst⟩ := List.find?_range_eq_some.mp hk
  rw [List.mem_range] at hk
  refine ⟨Nat.mod_lt _ (by omega), fun j hj => ?_⟩
  have hjs : j < pending.size := Nat.lt_of_not_le fun hge => by
    simp [Bitmap.get_of_size_le hge] at hj
  have ⟨_, hplace⟩ := place_wait hn hjs
  rw [wait_place hn hk]
  refine Nat.le_of_not_lt fun hlt => ?_
  have := hfirst _ hlt
  simp [hplace, hj] at this

theorem exists_select (h : pending.get i = true) : ∃ j, r.select pending = .ok (some j) := by
  have hi : i < pending.size := Nat.lt_of_not_le fun hge => by
    simp [Bitmap.get_of_size_le hge] at h
  simp only [select, Bitmap.nextFrom_eq_find?, Except.ok.injEq]
  rw [← Bitmap.range'_append_range' r.next (by omega), ← Option.isSome_iff_exists,
    List.find?_isSome]
  refine ⟨i, ?_, h⟩
  rw [List.mem_append, List.mem_range'_1, List.mem_range'_1]
  omega

theorem next_of_serviced (h : serviced index size = .ok r') (hi : index < size) :
    r'.next = (index + 1) % size := by
  rw [serviced, if_neg (by omega)] at h
  obtain ⟨_, ha, h⟩ := exists_of_bind_eq_ok h
  cases h
  rw [Size.add_eq_ok ha]

theorem next_lt_of_serviced (h : serviced index size = .ok r') (hi : index < size) :
    r'.next < size := by
  rw [next_of_serviced h hi]
  exact Nat.mod_lt _ (Nat.zero_lt_of_lt hi)

theorem wait_of_serviced (h : serviced index size = .ok r') (hi : index < size) :
    r'.wait size index = size - 1 := by
  have hplace : (r'.next + (size - 1)) % size = index := by
    rw [next_of_serviced h hi, Nat.mod_add_mod, Nat.add_assoc, Nat.add_sub_cancel' (by omega),
      Nat.add_mod_right, Nat.mod_eq_of_lt hi]
  have hwait := wait_place (next_lt_of_serviced h hi) (k := size - 1) (by omega)
  rwa [hplace] at hwait

theorem wait_lt_of_serviced (h : serviced index size = .ok r') (hi : index < size) (hj : j < size)
    (hne : j ≠ index) : r'.wait size j < r'.wait size index := by
  have hn := next_lt_of_serviced h hi
  have ⟨hlt, _⟩ := place_wait hn hj
  have hne : r'.wait size j ≠ r'.wait size index := fun he => hne (wait_inj hn hj hi he)
  rw [wait_of_serviced h hi] at hne ⊢
  omega

-- The search comes to the later indices as much earlier as it has come further.
theorem wait_of_lt (h : serviced index size = .ok r') (hn : r.next < size) (hindex : index < size)
    (hi : i < size) (hlt : r.wait size index < r.wait size i) :
    r'.wait size i = r.wait size i - (r.wait size index + 1) := by
  have ⟨hw, hplace⟩ := place_wait hn hi
  have hplace : (r'.next + (r.wait size i - (r.wait size index + 1))) % size = i := by
    calc (r'.next + (r.wait size i - (r.wait size index + 1))) % size
      _ = ((r.next + r.wait size index) % size + 1 +
          (r.wait size i - (r.wait size index + 1))) % size := by
        rw [next_of_serviced h hindex, Nat.mod_add_mod, (place_wait hn hindex).right]
      _ = (r.next + (r.wait size index + 1 +
          (r.wait size i - (r.wait size index + 1)))) % size := by
        simp only [Nat.add_assoc, Nat.mod_add_mod]
      _ = (r.next + r.wait size i) % size := by
        rw [Nat.add_sub_cancel' hlt]
      _ = i := hplace
  have hwait := wait_place (next_lt_of_serviced h hindex)
    (k := r.wait size i - (r.wait size index + 1)) (by omega)
  rwa [hplace] at hwait

theorem wait_lt_of_wait_lt (h : serviced index size = .ok r') (hn : r.next < size)
    (hindex : index < size) (hi : i < size) (hj : j < size) (hne : i ≠ index)
    (hle : r.wait size index ≤ r.wait size i) (hlt : r.wait size i < r.wait size j) :
    r'.wait size i < r'.wait size j := by
  have hne : r.wait size index ≠ r.wait size i := fun he => hne (wait_inj hn hindex hi he).symm
  rw [wait_of_lt h hn hindex hi (by omega), wait_of_lt h hn hindex hj (by omega)]
  omega

end ShellInterface.RoundRobin
