import ShellInterface.Halt

namespace ShellInterface.Size

def limit : Nat := UInt64.size

def add (a b : Nat) : Except Halt Nat :=
  if a + b < limit then .ok (a + b) else .error .additionOverflow

def sub (a b : Nat) : Except Halt Nat :=
  if b ≤ a then .ok (a - b) else .error .subtractionOverflow

def mul (a b : Nat) : Except Halt Nat :=
  if a * b < limit then .ok (a * b) else .error .multiplicationOverflow

def div (a b : Nat) : Except Halt Nat :=
  if b = 0 then .error .divisionByZero else .ok (a / b)

theorem add_of_lt {a b : Nat} (h : a + b < limit) : add a b = .ok (a + b) :=
  if_pos h

theorem sub_of_le {a b : Nat} (h : b ≤ a) : sub a b = .ok (a - b) :=
  if_pos h

theorem mul_of_lt {a b : Nat} (h : a * b < limit) : mul a b = .ok (a * b) :=
  if_pos h

theorem div_of_pos {a b : Nat} (h : 0 < b) : div a b = .ok (a / b) :=
  if_neg (Nat.ne_of_gt h)

def align (value unit : Nat) : Except Halt Nat := do
  mul (← div (← sub (← add value unit) 1) unit) unit

def units (value unit : Nat) : Except Halt Nat := do
  div (← align value unit) unit

theorem align_eq {value unit : Nat} (hu : 0 < unit) (h : value + unit < limit) :
    align value unit = .ok ((value + unit - 1) / unit * unit) := by
  have hm := Nat.div_mul_le_self (value + unit - 1) unit
  have hs : 1 ≤ value + unit := Nat.le_trans hu (Nat.le_add_left ..)
  have hl : (value + unit - 1) / unit * unit < limit := by omega
  simp only [align, bind, Except.bind, add_of_lt h, sub_of_le hs, div_of_pos hu, mul_of_lt hl]

theorem units_eq {value unit : Nat} (hu : 0 < unit) (h : value + unit < limit) :
    units value unit = .ok ((value + unit - 1) / unit) := by
  simp [units, align_eq hu h, bind, Except.bind, div_of_pos hu, Nat.mul_div_cancel _ hu]

theorem units_of_limit_le {value unit : Nat} (h : limit ≤ value + unit) :
    units value unit = .error .additionOverflow := by
  have ha : add value unit = .error .additionOverflow := if_neg (Nat.not_lt_of_le h)
  rw [units, align, ha]
  rfl

theorem lt_of_units_eq_ok {value unit n : Nat} (h : units value unit = .ok n) :
    value + unit < limit := by
  refine Nat.lt_of_not_le fun hl => ?_
  rw [units_of_limit_le hl] at h
  cases h

theorem units_eq_ok {value unit n : Nat} (hu : 0 < unit) (h : units value unit = .ok n) :
    n = (value + unit - 1) / unit := by
  rw [units_eq hu (lt_of_units_eq_ok h)] at h
  cases h
  rfl

theorem add_eq_ok {a b c : Nat} (h : add a b = .ok c) : c = a + b := by
  unfold add at h
  split at h <;> cases h
  rfl

theorem lt_of_add_eq_ok {a b c : Nat} (h : add a b = .ok c) : a + b < limit := by
  unfold add at h
  split at h
  case isTrue hlt => exact hlt
  case isFalse    => cases h

theorem mul_eq_ok {a b c : Nat} (h : mul a b = .ok c) : c = a * b := by
  unfold mul at h
  split at h <;> cases h
  rfl

theorem lt_of_mul_eq_ok {a b c : Nat} (h : mul a b = .ok c) : a * b < limit := by
  unfold mul at h
  split at h
  case isTrue hlt => exact hlt
  case isFalse    => cases h

def ceilLog2 (value : Nat) : Nat :=
  if value ≤ 1 then 0 else (value - 1).log2 + 1

end ShellInterface.Size
