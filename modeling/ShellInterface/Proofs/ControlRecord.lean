import ShellInterface.ControlRecord
import ShellInterface.Proofs.Chunk

namespace ShellInterface.ControlRecord

open BigEndian

variable {r : ControlRecord} {c : Chunk}

theorem length_toChunk (r : ControlRecord) (last : Bool) :
    (r.toChunk last).length = Chunk.width :=
  Chunk.cpop_keepMask Chunk.width (Nat.le_refl _)

theorem ofChunk?_toChunk (r : ControlRecord) (last : Bool) : ofChunk? (r.toChunk last) = some r :=
  ofChunk?_eq_some (r.length_toChunk last) rfl

theorem isSome_ofChunk?_iff : (ofChunk? c).isSome ↔ c.length = Chunk.width := by
  have hle := c.length_le
  by_cases h : c.length = Chunk.width
  case pos =>
    have ⟨contiguous, _⟩ := Chunk.of_length_eq_width h
    simp [ofChunk?, h, contiguous]
  case neg =>
    have hlt : c.length < Chunk.width := by omega
    simp [ofChunk?, h, hlt]

theorem data_toChunk_of_ofChunk? (h : ofChunk? c = some r) (last : Bool) :
    (r.toChunk last).data = c.data := by
  unfold ofChunk? at h
  split at h <;> cases h
  have hc := c.data_length
  have haddr : encode 4 (decode (c.data.take 4)) = c.data.take 4 :=
    encode_decode_of_length (by simp [hc])
  have hport : encode 2 (decode ((c.data.drop 4).take 2)) = (c.data.drop 4).take 2 :=
    encode_decode_of_length (by simp [hc])
  have hlength : encode 2 (decode (c.data.drop 6)) = c.data.drop 6 :=
    encode_decode_of_length (by simp [hc])
  have hdrop : (c.data.drop 4).drop 2 = c.data.drop 6 := List.drop_drop
  simp only [toChunk, encode_four_ofNat, encode_two_ofNat]
  rw [haddr, hport, hlength, List.append_assoc, ← hdrop, List.take_append_drop,
    List.take_append_drop]

theorem toChunk_of_ofChunk? (h : ofChunk? c = some r) : r.toChunk c.last = c := by
  have length : c.length = Chunk.width := isSome_ofChunk?_iff.mp (by rw [h]; rfl)
  refine Chunk.ext (data_toChunk_of_ofChunk? h c.last) ?keep rfl
  rw [Chunk.eq_keepMask_of_cpop _ length]
  exact Chunk.eq_keepMask_of_cpop _ (r.length_toChunk c.last)

-- Each record is read back from its chunk, whatever the mark, and no other chunks are read than
-- these: the ones of which every byte is valid.
theorem chunk_bijection :
    (∀ (r : ControlRecord) (last : Bool), ofChunk? (r.toChunk last) = some r) ∧
    ∀ c : Chunk,
      ((ofChunk? c).isSome ↔ ∀ i < Chunk.width, c.keep.getLsbD i = true) ∧
      ∀ r, ofChunk? c = some r ↔ r.toChunk c.last = c := by
  refine ⟨ofChunk?_toChunk, fun c => ⟨isSome_ofChunk?_iff.trans Chunk.length_eq_width_iff, ?_⟩⟩
  intro r
  constructor
  case mp  => exact toChunk_of_ofChunk?
  case mpr =>
    intro h
    rw [← h]
    exact r.ofChunk?_toChunk c.last

example : ofChunk? (.ofBytes [10, 12, 200, 50, 0x22, 0x63, 0, 100] true) =
    some ⟨⟨0x0A0CC832, 8803⟩, 100⟩ := by decide

end ShellInterface.ControlRecord
