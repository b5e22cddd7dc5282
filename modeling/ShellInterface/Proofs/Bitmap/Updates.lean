import Mathlib.Data.List.Induction
import ShellInterface.Proofs.Bitmap
import ShellInterface.Proofs.Bitmap.Search

namespace ShellInterface.Bitmap

inductive Update
  | set (i : Nat)
  | unset (i : Nat)
deriving DecidableEq, Repr

def Update.index : Update → Nat
  | set i | unset i => i

def apply (b : Bitmap) : Update → Except Halt Bitmap
  | .set i   => b.set i
  | .unset i => b.unset i

inductive Reached (n : Nat) : List Update → Bitmap → Prop
  | create {b} (created : create n = .ok b) : Reached n [] b
  | update {us b u b'} (reached : Reached n us b) (applied : b.apply u = .ok b') :
      Reached n (us ++ [u]) b'

def IsSet (us : List Update) (i : Nat) : Prop :=
  (us.filter (·.index = i)).getLast? = some (.set i)

instance (us : List Update) (i : Nat) : Decidable (IsSet us i) :=
  inferInstanceAs (Decidable (_ = _))

variable {b b' : Bitmap} {u : Update} {us : List Update} {n i : Nat}

theorem isSet_concat_iff : IsSet (us ++ [u]) i ↔ u = .set i ∨ u.index ≠ i ∧ IsSet us i := by
  by_cases h : u.index = i
  case pos => simp [IsSet, h]
  case neg =>
    have hne : u ≠ .set i := fun hu => h (hu ▸ rfl)
    simp [IsSet, h, hne]

theorem apply_size (h : b.apply u = .ok b') : b'.size = b.size := by
  cases u
  case set   => exact set_size h
  case unset => exact unset_size h

theorem lt_of_apply (h : b.apply u = .ok b') : u.index < b.size := by
  cases u
  case set   => exact lt_of_set h
  case unset => exact lt_of_unset h

theorem bit_apply (h : b.apply u = .ok b') (i : Nat) :
    b'.bit i = true ↔ u = .set i ∨ u.index ≠ i ∧ b.bit i = true := by
  cases u
  case set j =>
    by_cases hj : j = i <;> simp [bit_set h, Update.index, hj]
  case unset j =>
    by_cases hj : j = i <;> simp [bit_unset h, Update.index, hj]

theorem exists_apply (h : u.index < b.size) : ∃ b', b.apply u = .ok b' := by
  cases u
  case set   => exact exists_set h
  case unset => exact exists_unset h

theorem Reached.size_eq (r : Reached n us b) : b.size = n := by
  induction r
  case create created     => exact create_size created
  case update applied ih  => exact (apply_size applied).trans ih

theorem Reached.index_lt (r : Reached n us b) (h : u ∈ us) : u.index < n := by
  induction r
  case create => cases h
  case update reached applied ih =>
    rcases List.mem_append.mp h with h | h
    case inl => exact ih h
    case inr =>
      obtain rfl := List.mem_singleton.mp h
      exact reached.size_eq ▸ lt_of_apply applied

theorem Reached.lt_of_isSet (r : Reached n us b) (h : IsSet us i) : i < n :=
  have hmem := List.mem_filter.mp (List.mem_of_getLast? h)
  r.index_lt hmem.left

theorem Reached.bit_iff (r : Reached n us b) (i : Nat) : b.bit i = true ↔ IsSet us i := by
  induction r
  case create created    => simp [bit_create created, IsSet]
  case update applied ih => rw [bit_apply applied, isSet_concat_iff, ih]

-- No bit of the last word at or beyond the size is ever set.
theorem Reached.bit_of_le (r : Reached n us b) (h : n ≤ i) : b.bit i = false := by
  rw [← Bool.not_eq_true, r.bit_iff]
  exact fun hset => Nat.not_lt_of_le h (r.lt_of_isSet hset)

theorem Reached.get_eq_bit (r : Reached n us b) (i : Nat) : b.get i = b.bit i := by
  by_cases h : i < n
  case pos => exact Bitmap.get_eq_bit (r.size_eq ▸ h)
  case neg => rw [get_eq, r.bit_of_le (Nat.le_of_not_lt h), Bool.and_false]

theorem Reached.get_iff (r : Reached n us b) (i : Nat) : b.get i = true ↔ IsSet us i := by
  rw [r.get_eq_bit, r.bit_iff]

theorem exists_reached (room : n + 64 < Size.limit) (inRange : ∀ u ∈ us, u.index < n) :
    ∃ b, Reached n us b := by
  induction us using List.reverseRecOn
  case nil =>
    have ⟨b, created⟩ := exists_create room
    exact ⟨b, .create created⟩
  case append_singleton us u ih =>
    have ⟨hus, hu⟩ := List.forall_mem_append.mp inRange
    have ⟨b, reached⟩ := ih hus
    have ⟨b', applied⟩ := exists_apply (reached.size_eq.symm ▸ List.forall_mem_singleton.mp hu)
    exact ⟨b', reached.update applied⟩

theorem nextFrom_eq_some_iff (start : Nat) : b.nextFrom start = .ok (some i) ↔
    ∃ k < b.size, (start + k) % b.size = i ∧ b.get i = true ∧
      ∀ j < k, b.get ((start + j) % b.size) = false := by
  rw [nextFrom_eq_find?, Except.ok.injEq, List.find?_eq_some_iff_getElem]
  simp only [List.length_map, List.length_range, List.getElem_map, List.getElem_range,
    Bool.not_eq_true']
  constructor
  case mp =>
    rintro ⟨hset, k, hk, hi, hleast⟩
    exact ⟨k, hk, hi, hset, hleast⟩
  case mpr =>
    rintro ⟨k, hk, hi, hset, hleast⟩
    exact ⟨hset, k, hk, hi, hleast⟩

theorem mem_places_iff {n : Nat} (start : Nat) :
    i ∈ (List.range n).map (fun k => (start + k) % n) ↔ i < n := by
  obtain rfl | hn := n.eq_zero_or_pos
  case inl => simp
  case inr =>
    have hs : start % n < n := Nat.mod_lt start hn
    rw [← range'_append_range' start hn, List.mem_append, List.mem_range'_1, List.mem_range'_1]
    omega

theorem nextFrom_eq_none_iff (start : Nat) :
    b.nextFrom start = .ok none ↔ ∀ i, b.get i = false := by
  simp only [nextFrom_eq_find?, Except.ok.injEq, List.find?_eq_none, mem_places_iff,
    Bool.not_eq_true]
  constructor
  case mp =>
    intro h i
    by_cases hi : i < b.size
    case pos => exact h i hi
    case neg => exact get_of_size_le (Nat.le_of_not_lt hi)
  case mpr => exact fun h i _ => h i

-- Whatever a bitmap was updated with, its search returns. It goes through the places from the start
-- on, around the end and on to the place before the start, and ends at the first one whose last
-- update set it. There is none if and only if no place is set.
theorem nextFrom_of_reached (r : Reached n us b) (start : Nat) :
    (∀ i, b.get i = true ↔ IsSet us i) ∧
    ∃ found, b.nextFrom start = .ok found ∧
      (∀ i, found = some i ↔
        ∃ k < n, (start % n + k) % n = i ∧ b.get i = true ∧
          ∀ j < k, b.get ((start % n + j) % n) = false) ∧
      (found = none ↔ ∀ i, b.get i = false) := by
  obtain rfl := r.size_eq
  have ⟨found, hfound⟩ := exists_nextFrom b start
  have some_iff (i : Nat) := nextFrom_eq_some_iff (b := b) (i := i) start
  have none_iff := nextFrom_eq_none_iff (b := b) start
  simp only [hfound, Except.ok.injEq] at some_iff none_iff
  simp only [Nat.mod_add_mod]
  exact ⟨r.get_iff, found, hfound, some_iff, none_iff⟩

-- Nothing is set any more from the place 100 on, though there is a set place before it in its word.
theorem nextFrom_of_two_places :
    ∃ b, Reached 130 [.set 129, .set 65, .set 2, .unset 129] b ∧ b.nextFrom 230 = .ok (some 2) := by
  have ⟨b, r⟩ : ∃ b, Reached 130 [.set 129, .set 65, .set 2, .unset 129] b :=
    exists_reached (by decide) (by decide)
  have ⟨get_iff, found, hfound, some_iff, _⟩ := nextFrom_of_reached r 230
  have unset : ∀ j < 32, b.get ((100 + j) % 130) = false := by
    simp only [← Bool.not_eq_true, get_iff]
    decide
  have hsome : found = some 2 :=
    (some_iff 2).mpr ⟨32, by decide, rfl, (get_iff 2).mpr (by decide), unset⟩
  exact ⟨b, r, hsome ▸ hfound⟩

end ShellInterface.Bitmap
