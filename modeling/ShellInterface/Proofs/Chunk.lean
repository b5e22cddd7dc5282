import ShellInterface.Chunk

namespace ShellInterface.Chunk

-- A chunk as it is sent: the valid bytes come first, there are some, and all others are zero.
structure Neat (c : Chunk) : Prop where
  contiguous : c.isContiguous = true
  carrying   : 0 < c.length
  cleared    : ∀ i, (h : i < c.data.length) → c.keep.getLsbD i = false → c.data[i] = 0

instance (c : Chunk) : Decidable c.Neat :=
  decidable_of_iff
    (c.isContiguous = true ∧ 0 < c.length ∧
      ∀ i, (h : i < c.data.length) → c.keep.getLsbD i = false → c.data[i] = 0)
    ⟨fun ⟨contiguous, carrying, cleared⟩ => ⟨contiguous, carrying, cleared⟩,
      fun ⟨contiguous, carrying, cleared⟩ => ⟨contiguous, carrying, cleared⟩⟩

variable {c d : Chunk} {bytes : List UInt8} {n i : Nat}

theorem getLsbD_keepMask : (keepMask n).getLsbD i = decide (i < min n width) := by
  simp only [keepMask, width, BitVec.getLsbD_setWidth, BitVec.getLsbD_allOnes]
  by_cases h : i < min n 8 <;> simp [h]
  omega

theorem isContiguous_ofBytes (bytes : List UInt8) (last : Bool) :
    (ofBytes bytes last).isContiguous = true := by
  rw [isContiguous, length_ofBytes, beq_iff_eq]
  simp [ofBytes]

theorem bytes_ofBytes (bytes : List UInt8) (last : Bool) :
    (ofBytes bytes last).bytes = bytes.take width := by
  rw [Chunk.bytes, length_ofBytes]
  simp [ofBytes, List.rightpad]

theorem ofBytes_take (bytes : List UInt8) (last : Bool) :
    ofBytes (bytes.take width) last = ofBytes bytes last := by
  simp [Chunk.ofBytes, List.take_take]

theorem Neat.ofBytes (h : bytes ≠ []) (last : Bool) : (ofBytes bytes last).Neat where
  contiguous := isContiguous_ofBytes bytes last
  carrying   := by
    have := List.length_pos_iff.mpr h
    rw [length_ofBytes, width]
    omega
  cleared i hi unused := by
    have hu : (keepMask (bytes.take width).length).getLsbD i = false := unused
    rw [getLsbD_keepMask, Nat.min_eq_left (List.length_take_le ..), decide_eq_false_iff_not] at hu
    simp [Chunk.ofBytes, List.rightpad, List.getElem_append_right (Nat.le_of_not_lt hu)]

theorem keep_of_isContiguous (h : c.isContiguous = true) : c.keep = keepMask c.length := by
  simpa [isContiguous] using h

theorem getLsbD_keep (h : c.isContiguous = true) : c.keep.getLsbD i = decide (i < c.length) := by
  rw [keep_of_isContiguous h, getLsbD_keepMask, Nat.min_eq_left c.length_le]

theorem length_eq_width_iff : c.length = width ↔ ∀ i < width, c.keep.getLsbD i = true := by
  constructor
  case mp =>
    intro h i hi
    rw [getLsbD_keep (of_length_eq_width h).left, h, decide_eq_true hi]
  case mpr =>
    intro h
    have hk : c.keep = keepMask width := by
      apply BitVec.eq_of_getLsbD_eq
      intro i hi
      exact (h i hi).trans (getLsbD_keepMask.trans (decide_eq_true hi)).symm
    rw [length, hk, cpop_keepMask width (Nat.le_refl width)]

theorem getElem_bytes (hb : i < c.bytes.length) (hd : i < c.data.length) :
    c.bytes[i] = c.data[i] := by
  simp [Chunk.bytes]

theorem Neat.getElem_data_of_le (h : c.Neat) (hle : c.length ≤ i) (hi : i < c.data.length) :
    c.data[i] = 0 := by
  apply h.cleared
  rw [getLsbD_keep h.contiguous]
  simpa using hle

theorem Neat.eq_of_bytes_eq (hc : c.Neat) (hd : d.Neat) (bytes : c.bytes = d.bytes)
    (last : c.last = d.last) : c = d := by
  have length : c.length = d.length := by rw [← length_bytes, bytes, length_bytes]
  refine Chunk.ext (List.ext_getElem ?size fun i hi hi' => ?byte) ?keep last
  case size => rw [c.data_length, d.data_length]
  case keep =>
    rw [keep_of_isContiguous hc.contiguous, keep_of_isContiguous hd.contiguous, length]
  case byte =>
    by_cases h : i < c.length
    case pos =>
      have hb : i < c.bytes.length := c.length_bytes ▸ h
      rw [← getElem_bytes hb hi, ← getElem_bytes (bytes ▸ hb) hi']
      simp only [bytes]
    case neg =>
      rw [hc.getElem_data_of_le (Nat.le_of_not_lt h),
        hd.getElem_data_of_le (length ▸ Nat.le_of_not_lt h)]

theorem Neat.bytes_ne_nil (h : c.Neat) : c.bytes ≠ [] :=
  List.length_pos_iff.mp (c.length_bytes ▸ h.carrying)

theorem Neat.ofBytes_bytes (h : c.Neat) : Chunk.ofBytes c.bytes c.last = c := by
  apply (Neat.ofBytes h.bytes_ne_nil c.last).eq_of_bytes_eq h _ rfl
  rw [bytes_ofBytes]
  exact List.take_of_length_le (c.length_bytes ▸ c.length_le)

theorem bytes_clearUnused (h : c.isContiguous = true) : c.clearUnused.bytes = c.bytes := by
  have length : c.clearUnused.length = c.length := rfl
  refine List.ext_getElem (by rw [length_bytes, length_bytes, length]) fun i hi hi' => ?_
  have hlt : i < c.length := c.length_bytes ▸ hi'
  simp [Chunk.bytes, clearUnused, getLsbD_keep h, hlt]

theorem Neat.clearUnused (h : c.isContiguous = true) (carrying : 0 < c.length) :
    c.clearUnused.Neat where
  contiguous := h
  carrying   := carrying
  cleared i hi unused := by
    have hu : c.keep.getLsbD i = false := unused
    simp [Chunk.clearUnused, hu]

theorem ofWord_eq_ofBytes (word : UInt64) (last : Bool) (pos : 0 < n) (le : n ≤ width) :
    ofWord word (keepMask n) last =
      ofBytes ((BigEndian.encode width word.toNat).take n) last := by
  let c : Chunk := ⟨BigEndian.encode width word.toNat, keepMask n, last,
    BigEndian.length_encode ..⟩
  have length : c.length = n := cpop_keepMask n le
  have contiguous : c.isContiguous = true := by rw [isContiguous, length, beq_self_eq_true]
  have neat : (ofWord word (keepMask n) last).Neat :=
    .clearUnused contiguous (Nat.lt_of_lt_of_eq pos length.symm)
  have bytes : (ofWord word (keepMask n) last).bytes = c.data.take n := by
    rw [ofWord, bytes_clearUnused contiguous, Chunk.bytes, length]
  rw [← bytes]
  exact neat.ofBytes_bytes.symm

end ShellInterface.Chunk
