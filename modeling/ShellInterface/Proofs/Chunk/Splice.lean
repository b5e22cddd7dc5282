import ShellInterface.Chunk.Splice
import ShellInterface.Proofs.Chunk
import ShellInterface.Size

namespace ShellInterface.Chunk

-- The chunks of one payload: all of them but the final one are full, and the final one, and no
-- other, is marked.
structure Sequence (cs : List Chunk) : Prop where
  neat     : ∀ c ∈ cs, c.Neat
  full     : ∀ c ∈ cs.dropLast, c.length = width
  unmarked : ∀ c ∈ cs.dropLast, c.last = false
  marked   : ∀ c ∈ cs.getLast?, c.last = true

instance (cs : List Chunk) : Decidable (Sequence cs) :=
  decidable_of_iff
    ((∀ c ∈ cs, c.Neat) ∧ (∀ c ∈ cs.dropLast, c.length = width) ∧
      (∀ c ∈ cs.dropLast, c.last = false) ∧ ∀ c ∈ cs.getLast?, c.last = true)
    ⟨fun ⟨neat, full, unmarked, marked⟩ => ⟨neat, full, unmarked, marked⟩,
      fun ⟨neat, full, unmarked, marked⟩ => ⟨neat, full, unmarked, marked⟩⟩

variable {c : Chunk} {cs : List Chunk} {bytes rest : List UInt8}

theorem splice_of_length_le (h : bytes ≠ []) (le : bytes.length ≤ width) :
    splice bytes = [ofBytes bytes true] := by
  rw [splice_of_ne_nil h, List.drop_eq_nil_of_le le, splice_nil]
  rfl

theorem splice_append (h : bytes.length = width) (more : rest ≠ []) :
    splice (bytes ++ rest) = ofBytes bytes false :: splice rest := by
  have hne : bytes ≠ [] := List.ne_nil_of_length_eq_add_one h
  have happend : bytes ++ rest ≠ [] := List.append_ne_nil_of_left_ne_nil hne rest
  rw [splice_of_ne_nil happend, List.drop_left' h, List.isEmpty_eq_false_iff.mpr more]
  congr 1
  apply (Neat.ofBytes happend false).eq_of_bytes_eq (Neat.ofBytes hne false) _ rfl
  rw [bytes_ofBytes, bytes_ofBytes, List.take_left' h, List.take_of_length_le (Nat.le_of_eq h)]

theorem payload_induction {motive : List UInt8 → Prop} (nil : motive [])
    (last : ∀ bytes, bytes ≠ [] → bytes.length ≤ width → motive bytes)
    (more : ∀ bytes rest, bytes.length = width → rest ≠ [] → motive rest →
      motive (bytes ++ rest)) (bytes : List UInt8) : motive bytes := by
  induction bytes using splice.induct
  case case1 => exact nil
  case case2 b bs rest ih =>
    by_cases h : rest = []
    case pos => exact last (b :: bs) nofun (List.drop_eq_nil_iff.mp h)
    case neg =>
      have hlt : width < (b :: bs).length := by simpa [rest] using h
      rw [← List.take_append_drop width (b :: bs)]
      exact more _ rest (List.length_take_of_le (Nat.le_of_lt hlt)) h ih

theorem splice_ne_nil (h : bytes ≠ []) : splice bytes ≠ [] := by
  rw [splice_of_ne_nil h]
  nofun

theorem glue_splice (bytes : List UInt8) : glue (splice bytes) = bytes := by
  induction bytes using payload_induction
  case nil                      => rw [splice_nil, glue_nil]
  case last bytes hne hle       =>
    rw [splice_of_length_le hne hle, glue_cons, glue_nil, List.append_nil, bytes_ofBytes,
      List.take_of_length_le hle]
  case more bytes rest hl hr ih =>
    rw [splice_append hl hr, glue_cons, ih, bytes_ofBytes, List.take_of_length_le (Nat.le_of_eq hl)]

theorem length_splice (bytes : List UInt8) :
    (splice bytes).length = (bytes.length + width - 1) / width := by
  induction bytes using payload_induction
  case nil                      => simp [width]
  case last bytes hne hle       =>
    have := List.length_pos_iff.mpr hne
    rw [splice_of_length_le hne hle, List.length_singleton]
    simp only [width] at *
    omega
  case more bytes rest hl hr ih =>
    rw [splice_append hl hr, List.length_cons, ih, List.length_append, hl]
    simp only [width]
    omega

theorem Sequence.nil : Sequence [] :=
  ⟨nofun, nofun, nofun, nofun⟩

theorem sequence_singleton : Sequence [c] ↔ c.Neat ∧ c.last = true := by
  constructor
  case mp =>
    intro h
    exact ⟨h.neat c (List.mem_singleton_self c), h.marked c (by simp)⟩
  case mpr =>
    rintro ⟨neat, marked⟩
    exact ⟨by simpa using neat, by simp, by simp, by simpa using marked⟩

theorem sequence_cons (more : cs ≠ []) :
    Sequence (c :: cs) ↔ c.Neat ∧ c.length = width ∧ c.last = false ∧ Sequence cs := by
  constructor
  case mp =>
    rintro ⟨neat, full, unmarked, marked⟩
    simp only [List.dropLast_cons_of_ne_nil more, List.forall_mem_cons,
      List.getLast?_cons_of_ne_nil more] at *
    exact ⟨neat.left, full.left, unmarked.left, neat.right, full.right, unmarked.right, marked⟩
  case mpr =>
    rintro ⟨hc, hl, hu, neat, full, unmarked, marked⟩
    constructor
    case neat     => exact List.forall_mem_cons.mpr ⟨hc, neat⟩
    case full     =>
      rw [List.dropLast_cons_of_ne_nil more]
      exact List.forall_mem_cons.mpr ⟨hl, full⟩
    case unmarked =>
      rw [List.dropLast_cons_of_ne_nil more]
      exact List.forall_mem_cons.mpr ⟨hu, unmarked⟩
    case marked   => rwa [List.getLast?_cons_of_ne_nil more]

theorem sequence_splice (bytes : List UInt8) : Sequence (splice bytes) := by
  induction bytes using payload_induction
  case nil                      => rw [splice_nil]; exact .nil
  case last bytes hne hle       =>
    rw [splice_of_length_le hne hle, sequence_singleton]
    exact ⟨.ofBytes hne true, rfl⟩
  case more bytes rest hl hr ih =>
    rw [splice_append hl hr, sequence_cons (splice_ne_nil hr)]
    have hne : bytes ≠ [] := List.ne_nil_of_length_eq_add_one hl
    exact ⟨.ofBytes hne false, by rw [length_ofBytes, hl, Nat.min_self], rfl, ih⟩

theorem Sequence.splice_glue (h : Sequence cs) : splice (glue cs) = cs := by
  induction cs
  case nil => rw [glue_nil, splice_nil]
  case cons c cs ih =>
    by_cases more : cs = []
    case pos =>
      subst more
      have ⟨neat, marked⟩ := sequence_singleton.mp h
      rw [glue_cons, glue_nil, List.append_nil,
        splice_of_length_le neat.bytes_ne_nil (c.length_bytes ▸ c.length_le), ← marked,
        neat.ofBytes_bytes]
    case neg =>
      have ⟨neat, full, unmarked, rest⟩ := (sequence_cons more).mp h
      have hrest : glue cs ≠ [] := by
        intro he
        rw [he, splice_nil] at ih
        exact more (ih rest).symm
      rw [glue_cons, splice_append (c.length_bytes.trans full) hrest, ih rest, ← unmarked,
        neat.ofBytes_bytes]

-- A payload is spliced into as many chunks as it takes to hold it, and gluing them gives the
-- payload back; and chunks that are the chunks of one payload are what splicing that payload gives.
theorem splice_inverse :
    (∀ bytes : List UInt8, bytes.length < Layout.limit →
      glue (splice bytes) = bytes ∧
      (splice bytes).length = (bytes.length + width - 1) / width ∧
      Size.units bytes.length width = .ok (splice bytes).length ∧
      Sequence (splice bytes)) ∧
    ∀ cs : List Chunk, Sequence cs → (glue cs).length < Layout.limit → splice (glue cs) = cs := by
  refine ⟨fun bytes short => ⟨glue_splice bytes, length_splice bytes, ?units,
    sequence_splice bytes⟩, fun cs h _ => h.splice_glue⟩
  case units =>
    have hlimit : Layout.limit + width < Size.limit := by decide
    rw [length_splice]
    exact Size.units_eq (by decide) (Nat.lt_trans (Nat.add_lt_add_right short width) hlimit)

theorem splice_inverse_of_eleven_bytes :
    let bytes : List UInt8 := [1, 2, 3, 4, 5, 6, 7, 8, 9, 10, 11]
    let cs := [ofBytes [1, 2, 3, 4, 5, 6, 7, 8] false, ofBytes [9, 10, 11] true]
    bytes.length < Layout.limit ∧ Sequence cs ∧ (glue cs).length < Layout.limit ∧
      glue (splice bytes) = bytes ∧ (splice bytes).length = 2 ∧
      Size.units bytes.length width = .ok 2 ∧ Sequence (splice bytes) ∧ splice (glue cs) = cs := by
  intro bytes cs
  have short : bytes.length < Layout.limit := by decide
  have sequence : Sequence cs := by decide
  have short' : (glue cs).length < Layout.limit := by decide
  have ⟨glued, length, units, spliced⟩ := splice_inverse.left bytes short
  have two : (splice bytes).length = 2 := length.trans (by decide)
  exact ⟨short, sequence, short', glued, two, two ▸ units, spliced,
    splice_inverse.right cs sequence short'⟩

end ShellInterface.Chunk
