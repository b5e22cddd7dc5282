import ShellInterface.Proofs.Bitmap
import ShellInterface.Tcp.SessionTable

namespace ShellInterface.Tcp.SessionTable

structure Sound (t : SessionTable) : Prop where
  size_eq : t.pending.size = t.entries.size
  pending : ∀ i, (h : i < t.entries.size) → (0 < t.entries[i].bytes ↔ t.pending.get i = true)

variable {t t' : SessionTable} {session : SessionId}

theorem Sound.isConsistent (h : t.Sound) : t.isConsistent = true :=
  isConsistent_iff.mpr h.pending

theorem Sound.replace {i : Nat} {entry : SessionEntry} {pending : Bitmap} (h : t.Sound)
    (hi : i < t.entries.size) (size : pending.size = t.pending.size)
    (get : ∀ j, pending.get j = if i = j then decide (0 < entry.bytes) else t.pending.get j) :
    Sound ⟨t.entries.set i entry, pending⟩ where
  size_eq := by simpa [size] using h.size_eq
  pending := by
    intro j hj
    rw [Array.size_set] at hj
    by_cases hij : i = j
    · subst hij
      simp [get]
    · simpa [get, hij, Array.getElem_set] using h.pending j hj

theorem Sound.exists_post (h : t.Sound) (hi : session.toNat < t.size) (length : UInt16)
    (port : Port) : ∃ t', t.post session length port = .ok t' ∧ t'.Sound := by
  replace hi : session.toNat < t.entries.size := hi
  have hb := h.pending _ hi
  obtain ⟨bytes, he⟩ : ∃ n, min (t.entries[session.toNat].bytes + length.toNat) maxBytes = n :=
    ⟨_, rfl⟩
  have ⟨pending, hp, size, get⟩ := Bitmap.exists_set_if (p := 0 < bytes) (h.size_eq ▸ hi)
    (fun hz => by
      have hmax : 0 < maxBytes := by decide
      have hn : ¬ 0 < t.entries[session.toNat].bytes := by omega
      simpa [hb] using hn)
  refine ⟨⟨t.entries.set session.toNat ⟨bytes, port⟩, pending⟩, ?_, h.replace hi size get⟩
  by_cases hz : 0 < bytes <;> simp only [hz, if_true, if_false] at hp <;>
    simp only [post, hi, dite_true, he, hz, if_true, if_false, hp] <;> rfl

theorem Sound.exists_consume (h : t.Sound) (hi : session.toNat < t.size) (length : Nat) :
    ∃ left t', t.consume session length = .ok (left, t') ∧ t'.Sound := by
  replace hi : session.toNat < t.entries.size := hi
  have hb := h.pending _ hi
  obtain ⟨bytes, he⟩ : ∃ n, t.entries[session.toNat].bytes - length = n := ⟨_, rfl⟩
  have ⟨pending, hp, size, get⟩ := Bitmap.exists_unset_if (p := bytes = 0) (h.size_eq ▸ hi)
    (fun hz => hb.mp (by omega))
  refine ⟨⟨bytes, t.entries[session.toNat].port⟩,
    ⟨t.entries.set session.toNat ⟨bytes, t.entries[session.toNat].port⟩, pending⟩, ?_,
    h.replace hi size (by simpa [Nat.pos_iff_ne_zero] using get)⟩
  by_cases hz : bytes = 0 <;> simp only [hz, if_true, if_false] at hp <;>
    simp only [consume, hi, dite_true, he, hz, if_true, if_false, hp] <;> rfl

theorem Sound.post (h : t.Sound) {length : UInt16} {port : Port}
    (posted : t.post session length port = .ok t') : t'.Sound := by
  have ⟨_, _, he, _⟩ := post_ok posted
  have ⟨_, hp, sound⟩ := h.exists_post (Array.getElem?_eq_some_iff.mp he).1 length port
  cases posted.symm.trans hp
  exact sound

theorem Sound.consume (h : t.Sound) {length : Nat} {left : SessionEntry}
    (consumed : t.consume session length = .ok (left, t')) : t'.Sound := by
  have ⟨_, _, he, _⟩ := consume_ok consumed
  have ⟨_, _, hc, sound⟩ := h.exists_consume (Array.getElem?_eq_some_iff.mp he).1 length
  cases consumed.symm.trans hc
  exact sound

theorem Sound.create {sessions : Nat} (h : create sessions = .ok t) : t.Sound := by
  have ⟨_, _, h⟩ := exists_of_bind_eq_ok h
  have ⟨b, hb, h⟩ := exists_of_bind_eq_ok h
  cases h
  exact ⟨by simp [Bitmap.create_size hb], fun i hi => by simp [Bitmap.get_create hb]⟩

def Addressed (t : SessionTable) : Prop :=
  ∀ i, t.pending.get i = true → i < UInt16.size

theorem Addressed.create {sessions : Nat} (h : create sessions = .ok t) : t.Addressed := by
  have ⟨_, _, h⟩ := exists_of_bind_eq_ok h
  have ⟨_, hb, h⟩ := exists_of_bind_eq_ok h
  cases h
  intro i hi
  simp [Bitmap.get_create hb] at hi

theorem Addressed.post (h : t.Addressed) {length : UInt16} {port : Port}
    (posted : t.post session length port = .ok t') : t'.Addressed := by
  simp only [SessionTable.post] at posted
  split at posted <;> try cases posted
  split at posted
  case isFalse => cases posted; exact h
  case isTrue  =>
    obtain ⟨_, hb, posted⟩ := exists_of_bind_eq_ok posted
    cases posted
    intro i hi
    rw [Bitmap.get_set hb, Bool.or_eq_true, decide_eq_true_iff] at hi
    exact hi.elim (fun he => he ▸ session.toNat_lt) (h i)

theorem Addressed.consume (h : t.Addressed) {length : Nat} {left : SessionEntry}
    (consumed : t.consume session length = .ok (left, t')) : t'.Addressed := by
  simp only [SessionTable.consume] at consumed
  split at consumed <;> try cases consumed
  split at consumed
  case isFalse => cases consumed; exact h
  case isTrue  =>
    obtain ⟨_, hb, consumed⟩ := exists_of_bind_eq_ok consumed
    cases consumed
    intro i hi
    rw [Bitmap.get_unset hb] at hi
    exact h i (by simp_all)

end ShellInterface.Tcp.SessionTable
