import ShellInterface.Bitmap

namespace ShellInterface.Bitmap

variable {b b' : Bitmap} {i : Nat}

def bit (b : Bitmap) (i : Nat) : Bool :=
  (b.words.getD (i / 64) 0).getLsbD (i % 64)

theorem get_eq (b : Bitmap) (i : Nat) : b.get i = (decide (i < b.size) && b.bit i) := by
  by_cases h : i < b.size
  case pos => simp [get, bit, h, div_lt_words h]
  case neg => simp [get, h]

theorem get_eq_bit (h : i < b.size) : b.get i = b.bit i := by
  simp [get_eq, h]

theorem exists_set (h : i < b.size) : ∃ b', b.set i = .ok b' :=
  ⟨_, dif_pos h⟩

theorem exists_unset (h : i < b.size) : ∃ b', b.unset i = .ok b' :=
  ⟨_, dif_pos h⟩

theorem lt_of_set (h : b.set i = .ok b') : i < b.size := by
  refine Nat.lt_of_not_le fun hi => ?_
  rw [set_eq_error_iff.mpr ⟨hi, rfl⟩] at h
  cases h

theorem lt_of_unset (h : b.unset i = .ok b') : i < b.size := by
  refine Nat.lt_of_not_le fun hi => ?_
  rw [unset_eq_error_iff.mpr ⟨hi, rfl⟩] at h
  cases h

theorem index_eq_iff (i j : Nat) : i = j ↔ i / 64 = j / 64 ∧ j % 64 = i % 64 := by
  omega

theorem bit_set (h : b.set i = .ok b') (j : Nat) : b'.bit j = (decide (i = j) || b.bit j) := by
  have hlt := div_lt_words (lt_of_set h)
  unfold set at h
  split at h <;> cases h
  case isTrue =>
    have hm (k : Nat) : k % 64 < 64 := Nat.mod_lt k (by decide)
    have he := index_eq_iff i j
    by_cases hw : i / 64 = j / 64
    case pos => by_cases hp : j % 64 = i % 64 <;> simp [bit, he, ← hw, hp, hm, hlt]
    case neg => simp [bit, he, hw]

theorem bit_unset (h : b.unset i = .ok b') (j : Nat) :
    b'.bit j = (!decide (i = j) && b.bit j) := by
  have hlt := div_lt_words (lt_of_unset h)
  unfold unset at h
  split at h <;> cases h
  case isTrue =>
    have hm (k : Nat) : k % 64 < 64 := Nat.mod_lt k (by decide)
    have he := index_eq_iff i j
    by_cases hw : i / 64 = j / 64
    case pos => by_cases hp : j % 64 = i % 64 <;> simp [bit, he, ← hw, hp, hm, hlt]
    case neg => simp [bit, he, hw]

theorem get_set (h : b.set i = .ok b') (j : Nat) : b'.get j = (decide (i = j) || b.get j) := by
  have hi := lt_of_set h
  rw [get_eq, get_eq, set_size h, bit_set h]
  by_cases hj : i = j
  case pos => simp [← hj, hi]
  case neg => simp [hj]

theorem get_unset (h : b.unset i = .ok b') (j : Nat) :
    b'.get j = (!decide (i = j) && b.get j) := by
  rw [get_eq, get_eq, unset_size h, bit_unset h, Bool.and_left_comm]

-- A bit is set, or it is left alone because it is unset for good reason.
theorem exists_set_if {p : Prop} [Decidable p] (h : i < b.size) (unset : ¬ p → b.get i = false) :
    ∃ b', (if p then b.set i else pure b) = .ok b' ∧ b'.size = b.size ∧
      ∀ j, b'.get j = if i = j then decide p else b.get j := by
  by_cases hp : p
  case pos =>
    have ⟨b', hs⟩ := exists_set h
    refine ⟨b', by simpa [hp] using hs, set_size hs, fun j => ?_⟩
    by_cases hj : i = j <;> simp [get_set hs, hj, hp]
  case neg =>
    refine ⟨b, by simp [hp, pure, Except.pure], rfl, fun j => ?_⟩
    by_cases hj : i = j
    case pos => simp [← hj, hp, unset]
    case neg => simp [hj]

theorem exists_unset_if {p : Prop} [Decidable p] (h : i < b.size) (set : ¬ p → b.get i = true) :
    ∃ b', (if p then b.unset i else pure b) = .ok b' ∧ b'.size = b.size ∧
      ∀ j, b'.get j = if i = j then decide (¬ p) else b.get j := by
  by_cases hp : p
  case pos =>
    have ⟨b', hs⟩ := exists_unset h
    refine ⟨b', by simpa [hp] using hs, unset_size hs, fun j => ?_⟩
    by_cases hj : i = j <;> simp [get_unset hs, hj, hp]
  case neg =>
    refine ⟨b, by simp [hp, pure, Except.pure], rfl, fun j => ?_⟩
    by_cases hj : i = j
    case pos => simp [← hj, hp, set]
    case neg => simp [hj]

theorem create_eq_ok {size : Nat} (h : create size = .ok b) :
    b.size = size ∧ b.words = .replicate ((size + 63) / 64) 0 := by
  unfold create at h
  split at h <;> cases h
  case h_1 hu => exact ⟨rfl, congrArg (Array.replicate · 0) (Size.units_eq_ok (by decide) hu)⟩

theorem create_size {size : Nat} (h : create size = .ok b) : b.size = size :=
  (create_eq_ok h).left

theorem bit_create {size : Nat} (h : create size = .ok b) (j : Nat) : b.bit j = false := by
  simp [bit, (create_eq_ok h).right, Array.getElem?_replicate]
  split <;> simp

theorem get_create {size : Nat} (h : create size = .ok b) (j : Nat) : b.get j = false := by
  rw [get_eq, bit_create h, Bool.and_false]

theorem exists_create {size : Nat} (h : size + 64 < Size.limit) : ∃ b, create size = .ok b := by
  unfold create
  split
  case h_1 => exact ⟨_, rfl⟩
  case h_2 hu =>
    rw [Size.units_eq (by decide) h] at hu
    cases hu

theorem create_of_limit_le {size : Nat} (h : Size.limit ≤ size + 64) :
    create size = .error .additionOverflow := by
  unfold create
  split
  case h_1 hu =>
    rw [Size.units_of_limit_le h] at hu
    cases hu
  case h_2 hu =>
    rw [Size.units_of_limit_le h] at hu
    cases hu
    rfl

end ShellInterface.Bitmap
