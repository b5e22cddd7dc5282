import ShellInterface.Chunk

namespace ShellInterface.Chunk

def splice : List UInt8 → List Chunk
  | []      => []
  | b :: bs =>
    let rest := (b :: bs).drop width
    ofBytes (b :: bs) rest.isEmpty :: splice rest
termination_by bytes => bytes.length
decreasing_by simp only [List.length_drop, List.length_cons, width]; omega

@[simp]
theorem splice_nil : splice [] = [] := by
  rw [splice]

theorem splice_of_ne_nil {bytes : List UInt8} (h : bytes ≠ []) :
    splice bytes = ofBytes bytes (bytes.drop width).isEmpty :: splice (bytes.drop width) := by
  cases bytes with
  | nil => exact absurd rfl h
  | cons b bs => rw [splice]

def glue (chunks : List Chunk) : List UInt8 :=
  chunks.flatMap bytes

@[simp]
theorem glue_nil : glue [] = [] := rfl

@[simp]
theorem glue_cons (c : Chunk) (cs : List Chunk) : glue (c :: cs) = c.bytes ++ glue cs := rfl

@[simp]
theorem glue_append (cs ds : List Chunk) : glue (cs ++ ds) = glue cs ++ glue ds := by
  simp [glue]

end ShellInterface.Chunk
