namespace ShellInterface.BigEndian

def encode : Nat → Nat → List UInt8
  | 0, _     => []
  | n + 1, v => encode n (v / 256) ++ [UInt8.ofNat v]

def decode (bs : List UInt8) : Nat :=
  bs.foldl (fun v b => 256 * v + b.toNat) 0

@[simp]
theorem length_encode (n v : Nat) : (encode n v).length = n := by
  induction n generalizing v with
  | zero => rfl
  | succ n ih => simp [encode, ih]

@[simp]
theorem decode_nil : decode [] = 0 := rfl

@[simp]
theorem decode_append_singleton (bs : List UInt8) (b : UInt8) :
    decode (bs ++ [b]) = 256 * decode bs + b.toNat := by
  simp [decode]

theorem decode_encode_two (v : UInt16) : decode (encode 2 v.toNat) = v.toNat := by
  have h := v.toNat_lt
  simp only [encode, decode_append_singleton, decode_nil, UInt8.toNat_ofNat']
  omega

theorem decode_encode_four (v : UInt32) : decode (encode 4 v.toNat) = v.toNat := by
  have h := v.toNat_lt
  simp only [encode, decode_append_singleton, decode_nil, UInt8.toNat_ofNat']
  omega

theorem encode_decode (bs : List UInt8) : encode bs.length (decode bs) = bs := by
  generalize hn : bs.length = n
  induction n generalizing bs with
  | zero =>
    rw [List.length_eq_zero_iff.mp hn]
    rfl
  | succ n ih =>
    obtain rfl | ⟨cs, b, rfl⟩ := bs.eq_nil_or_concat
    · cases hn
    · have hb := b.toNat_lt
      have hq : (256 * decode cs + b.toNat) / 256 = decode cs := by omega
      have hr : UInt8.ofNat (256 * decode cs + b.toNat) = b := by
        apply UInt8.toNat_inj.mp
        simp only [UInt8.toNat_ofNat']
        omega
      rw [List.concat_eq_append] at hn ⊢
      rw [decode_append_singleton, encode, hq, hr, ih cs (by simpa using hn)]

theorem encode_decode_of_length {bs : List UInt8} {n : Nat} (h : bs.length = n) :
    encode n (decode bs) = bs :=
  h ▸ encode_decode bs

theorem encode_two_ofNat (v : Nat) : encode 2 (UInt16.ofNat v).toNat = encode 2 v := by
  simp only [encode, UInt16.toNat_ofNat', List.nil_append, List.cons_append, List.cons.injEq,
    ← UInt8.toNat_inj, UInt8.toNat_ofNat', and_true]
  omega

theorem encode_four_ofNat (v : Nat) : encode 4 (UInt32.ofNat v).toNat = encode 4 v := by
  simp only [encode, UInt32.toNat_ofNat', List.nil_append, List.cons_append, List.cons.injEq,
    ← UInt8.toNat_inj, UInt8.toNat_ofNat', and_true]
  omega

end ShellInterface.BigEndian
