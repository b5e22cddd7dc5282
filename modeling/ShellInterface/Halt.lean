namespace ShellInterface

inductive StreamError
  | full (stream : String)
  | empty (stream : String)
deriving DecidableEq, Repr

namespace StreamError

def kind : StreamError → String
  | full _  => "StreamFull"
  | empty _ => "StreamEmpty"

def message : StreamError → String
  | full s  => s!"stream `{s}` is full"
  | empty s => s!"stream `{s}` is empty"

end StreamError

-- Why a run cannot go on. Sizes are 64-bit, so each arithmetic step on them may leave the range.
inductive Halt
  | stream (error : StreamError)
  | zeroDepth (stream : String)
  | zeroCapacity
  | bitOutOfRange (index size : Nat)
  | indexOutOfRange (index size : Nat)
  | additionOverflow
  | subtractionOverflow
  | multiplicationOverflow
  | divisionByZero
  | inconsistentTable
  | capacityOverflow
  | tooManyPorts
deriving DecidableEq, Repr

def Halt.message : Halt → String
  | stream e                => e.message
  | zeroDepth s             => s!"stream `{s}` must have a non-zero depth"
  | zeroCapacity            => "tracked buffer must have a non-zero capacity"
  | bitOutOfRange i n       => s!"bit {i} out of range ({n})"
  | indexOutOfRange i n     => s!"index out of bounds: the len is {n} but the index is {i}"
  | additionOverflow        => "attempt to add with overflow"
  | subtractionOverflow     => "attempt to subtract with overflow"
  | multiplicationOverflow  => "attempt to multiply with overflow"
  | divisionByZero          => "attempt to divide by zero"
  | inconsistentTable       => "assertion failed: self.table.is_consistent()"
  | capacityOverflow        => "capacity overflow"
  | tooManyPorts            => "ArrayVec: capacity exceeded in extend/from_iter"

theorem exists_of_bind_eq_ok {ε α β : Type} {x : Except ε α} {f : α → Except ε β} {b : β}
    (h : x >>= f = .ok b) : ∃ a, x = .ok a ∧ f a = .ok b := by
  cases x
  case error => cases h
  case ok a  => exact ⟨a, rfl, h⟩

theorem of_mapError_eq_ok {ε δ α : Type} {x : Except ε α} {f : ε → δ} {a : α}
    (h : x.mapError f = .ok a) : x = .ok a := by
  cases x
  case error => cases h
  case ok    => cases h; rfl

end ShellInterface
