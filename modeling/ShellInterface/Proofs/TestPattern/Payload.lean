import ShellInterface.Proofs.Chunk.Splice
import ShellInterface.Proofs.TestPattern

namespace ShellInterface.TestPattern

open Chunk (width ofBytes keepMask splice glue)

def period : List UInt8 :=
  BigEndian.encode width firstWord.toNat ++ BigEndian.encode width secondWord.toNat

def byteAt (i : Nat) : UInt8 :=
  period.get ⟨i % period.length, Nat.mod_lt i (by decide)⟩

def stretch (start length : Nat) : List UInt8 :=
  (List.range' start length).map byteAt

def payload (length : Nat) : List UInt8 :=
  stretch 0 length

def offset (second : Bool) : Nat :=
  if second then width else 0

def bytes (p : TestPattern) : List UInt8 :=
  stretch (offset p.second) p.remaining

-- After these chunks were taken, so much is left.
inductive Yields (p : TestPattern) : List Chunk → TestPattern → Prop
  | start : Yields p [] p
  | next {cs q c r} (yields : Yields p cs q) (taken : q.next? = some (c, r)) :
      Yields p (cs ++ [c]) r

variable {p q r : TestPattern} {c : Chunk} {cs : List Chunk} {start length m n : Nat}

@[simp]
theorem length_stretch : (stretch start length).length = length := by
  simp [stretch]

theorem byteAt_period (i : Nat) : byteAt (period.length + i) = byteAt i := by
  simp [byteAt]

theorem stretch_period (start length : Nat) :
    stretch (period.length + start) length = stretch start length := by
  rw [stretch, ← List.map_add_range', List.map_map]
  exact List.map_congr_left fun i _ => byteAt_period i

theorem stretch_other (second : Bool) :
    stretch (offset second + width) length = stretch (offset !second) length := by
  cases second
  case false => rfl
  case true  => exact stretch_period 0 length

theorem take_stretch : (stretch start m).take n = stretch start (min n m) := by
  simp only [stretch, List.range'_eq_map_range, ← List.map_take, List.take_range]

theorem drop_stretch : (stretch start m).drop n = stretch (start + n) (m - n) := by
  rw [stretch, stretch, ← List.map_drop, List.drop_range', Nat.mul_one]

theorem stretch_word (second : Bool) :
    stretch (offset second) width =
      BigEndian.encode width (if second then secondWord else firstWord).toNat := by
  cases second <;> decide

@[simp]
theorem length_bytes (p : TestPattern) : p.bytes.length = p.remaining :=
  length_stretch

theorem bytes_eq_nil_iff : p.bytes = [] ↔ p.remaining = 0 := by
  rw [← List.length_eq_zero_iff, length_bytes]

theorem take_bytes (p : TestPattern) : p.bytes.take width = (BigEndian.encode width
    (if p.second then secondWord else firstWord).toNat).take (min p.remaining width) := by
  rw [← stretch_word, bytes, take_stretch, take_stretch, Nat.min_assoc, Nat.min_self, Nat.min_comm]

theorem drop_bytes (p : TestPattern) :
    p.bytes.drop width = bytes ⟨p.remaining - min p.remaining width, !p.second⟩ := by
  rw [bytes, drop_stretch, stretch_other, Nat.sub_eq_sub_min]
  rfl

theorem next?_eq (h : p.remaining ≠ 0) : p.next? =
    some (ofBytes p.bytes (p.bytes.drop width).isEmpty,
      ⟨p.remaining - min p.remaining width, !p.second⟩) := by
  have pos : 0 < min p.remaining width :=
    Nat.lt_min.mpr ⟨Nat.pos_of_ne_zero h, by decide⟩
  have last : (p.bytes.drop width).isEmpty = (p.remaining - min p.remaining width == 0) := by
    rw [Bool.eq_iff_iff, List.isEmpty_iff, drop_bytes, bytes_eq_nil_iff, beq_iff_eq]
  rw [next?, if_neg h, last]
  dsimp only
  rw [Chunk.ofWord_eq_ofBytes _ _ pos (Nat.min_le_right ..), ← take_bytes, Chunk.ofBytes_take]

theorem toList_eq_splice (p : TestPattern) : p.toList = splice p.bytes := by
  induction p using toList.induct
  case case1 p hn =>
    have hp := next?_eq_none_iff.mp hn
    rw [toList_of_remaining_eq_zero hp, bytes_eq_nil_iff.mpr hp, Chunk.splice_nil]
  case case2 p c q hn _ ih =>
    have hp : p.remaining ≠ 0 := fun h => by simp [next?_eq_none_iff.mpr h] at hn
    cases (next?_eq hp).symm.trans hn
    rw [toList_of_next? hn, ih, ← p.drop_bytes]
    exact (Chunk.splice_of_ne_nil (mt bytes_eq_nil_iff.mp hp)).symm

theorem Yields.cons (taken : p.next? = some (c, q)) (h : q.Yields cs r) : p.Yields (c :: cs) r := by
  induction h
  case start          => exact .next .start taken
  case next taken' ih => exact ih.next taken'

theorem Yields.append_toList (h : p.Yields cs q) : cs ++ q.toList = p.toList := by
  induction h
  case start         => rfl
  case next taken ih =>
    rw [← ih, toList_of_next? taken, List.append_assoc, List.singleton_append]

theorem Yields.start_or_remaining_lt (h : p.Yields cs q) :
    cs = [] ∧ q = p ∨ cs ≠ [] ∧ q.remaining < p.remaining := by
  induction h
  case start         => exact .inl ⟨rfl, rfl⟩
  case next taken ih =>
    have hlt := remaining_lt taken
    refine .inr ⟨by simp, ?_⟩
    obtain ⟨_, rfl⟩ | ⟨_, hlt'⟩ := ih
    case inl => exact hlt
    case inr => exact Nat.lt_trans hlt hlt'

theorem exists_yields_toList (p : TestPattern) : ∃ q, p.Yields p.toList q ∧ q.next? = none := by
  induction p using toList.induct
  case case1 p hn =>
    rw [toList_of_remaining_eq_zero (next?_eq_none_iff.mp hn)]
    exact ⟨p, .start, hn⟩
  case case2 p c q hn _ ih =>
    have ⟨r, yields, hr⟩ := ih
    rw [toList_of_next? hn]
    exact ⟨r, .cons hn yields, hr⟩

theorem length_glue_toList (p : TestPattern) : (glue p.toList).length = p.remaining := by
  rw [toList_eq_splice, Chunk.glue_splice, length_bytes]

theorem chunkCount_eq (p : TestPattern) : p.chunkCount =
    if p.remaining + width < Size.limit then .ok p.toList.length else .error .additionOverflow := by
  rw [chunkCount, toList_eq_splice, Chunk.length_splice, length_bytes]
  split
  case isTrue h  => exact Size.units_eq (by decide) h
  case isFalse h => exact Size.units_of_limit_le (Nat.le_of_not_lt h)

-- Up to its end, the iteration gives the chunks of the payload. At any point the bytes that are not
-- taken yet are known, and so are the chunks that they come in, unless all of the longest payload
-- is still to come.
theorem yields_splice (h : length ≤ Size.limit - width) :
    (∃ p, (create length).Yields (splice (payload length)) p ∧ p.next? = none) ∧
    ∀ sent p, (create length).Yields sent p →
      sent ++ p.toList = splice (payload length) ∧
      (glue sent).length + p.remaining = length ∧
      p.remaining = (glue p.toList).length ∧
      p.chunkCount =
        if sent = [] ∧ length = Size.limit - width then
          .error .additionOverflow
        else
          .ok p.toList.length := by
  have whole : (create length).toList = splice (payload length) := toList_eq_splice _
  have total := length_glue_toList (create length)
  refine ⟨whole ▸ exists_yields_toList _, fun sent p yields => ?_⟩
  have rest := yields.append_toList
  refine ⟨rest.trans whole, ?taken, (length_glue_toList p).symm, ?count⟩
  case taken =>
    rw [← rest, Chunk.glue_append, List.length_append, length_glue_toList] at total
    exact total
  case count =>
    have hlimit : width < Size.limit := by decide
    have room : p.remaining + width < Size.limit ↔ ¬ (sent = [] ∧ length = Size.limit - width) := by
      obtain ⟨rfl, rfl⟩ | ⟨hne, hlt⟩ := yields.start_or_remaining_lt
      case inl =>
        simp only [create, true_and]
        omega
      case inr =>
        simp only [create, hne, false_and, not_false_iff, iff_true] at *
        omega
    rw [chunkCount_eq, ← ite_not]
    simp only [room, not_not]

theorem yields_splice_of_two_chunks :
    27 ≤ Size.limit - width ∧
    (∃ p, (create 27).Yields (splice (payload 27)) p ∧ p.next? = none) ∧
    ∃ sent, (create 27).Yields sent ⟨11, false⟩ ∧ (glue sent).length = 16 ∧
      chunkCount ⟨11, false⟩ = .ok 2 ∧
      sent ++ [.ofWord firstWord (keepMask 8) false, .ofWord secondWord (keepMask 3) true] =
        splice (payload 27) := by
  have short : 27 ≤ Size.limit - width := by decide
  have ⟨ends, points⟩ := yields_splice short
  have yields : (create 27).Yields _ ⟨11, false⟩ := .next (.next .start rfl) rfl
  have ⟨whole, taken, _, count⟩ := points _ _ yields
  have rest : toList ⟨11, false⟩ =
      [.ofWord firstWord (keepMask 8) false, .ofWord secondWord (keepMask 3) true] := by
    rw [toList_of_next? rfl, toList_of_next? rfl, toList_of_remaining_eq_zero rfl]
    rfl
  rw [rest] at whole count
  exact ⟨short, ends, _, yields, Nat.add_right_cancel taken, count.trans (if_neg (by decide)),
    whole⟩

-- The longest payload comes in a number of chunks, but it cannot be counted in advance.
theorem chunkCount_of_longest :
    ¬ ∀ (length : Nat) (sent : List Chunk) (p : TestPattern), length ≤ Size.limit - width →
      (create length).Yields sent p → p.chunkCount = .ok p.toList.length := by
  intro h
  have count := h (Size.limit - width) [] (create (Size.limit - width)) (Nat.le_refl _) .start
  rw [chunkCount_eq, if_neg (by decide)] at count
  cases count

end ShellInterface.TestPattern
