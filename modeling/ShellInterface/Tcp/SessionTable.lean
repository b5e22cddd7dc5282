import ShellInterface.Bitmap
import ShellInterface.Tcp.Message

namespace ShellInterface.Tcp

structure SessionEntry where
  -- The bytes announced and not yet requested.
  bytes : Nat
  -- The local port of the latest announcement.
  port : Port
deriving DecidableEq, Repr

instance : Storable SessionEntry :=
  ⟨.record [layout UInt32, layout Port]⟩

structure SessionTable where
  entries : Array SessionEntry
  pending : Bitmap
deriving DecidableEq, Repr

namespace SessionTable

def maxBytes : Nat := UInt32.size - 1

def create (sessions : Nat) : Except Halt SessionTable := do
  (layout SessionEntry).reserve sessions
  let pending ← Bitmap.create sessions
  return ⟨.replicate sessions ⟨0, 0⟩, pending⟩

def size (t : SessionTable) : Nat :=
  t.entries.size

def entry? (t : SessionTable) (session : SessionId) : Option SessionEntry :=
  t.entries[session.toNat]?

def bytes (t : SessionTable) (session : SessionId) : Nat :=
  t.entry? session |>.elim 0 SessionEntry.bytes

def post (t : SessionTable) (session : SessionId) (length : UInt16) (port : Port) :
    Except Halt SessionTable := do
  let i := session.toNat
  if h : i < t.entries.size then
    let bytes := min (t.entries[i].bytes + length.toNat) maxBytes
    let entries := t.entries.set i ⟨bytes, port⟩
    let pending ← if 0 < bytes then t.pending.set i else pure t.pending
    return ⟨entries, pending⟩
  else
    throw (.indexOutOfRange i t.entries.size)

def consume (t : SessionTable) (session : SessionId) (length : Nat) :
    Except Halt (SessionEntry × SessionTable) := do
  let i := session.toNat
  if h : i < t.entries.size then
    let entry := { t.entries[i] with bytes := t.entries[i].bytes - length }
    let entries := t.entries.set i entry
    let pending ← if entry.bytes = 0 then t.pending.unset i else pure t.pending
    return (entry, ⟨entries, pending⟩)
  else
    throw (.indexOutOfRange i t.entries.size)

def isConsistent (t : SessionTable) : Bool :=
  t.entries.size.all fun i _ => decide (0 < t.entries[i].bytes) == t.pending.get i

theorem isConsistent_iff {t : SessionTable} :
    t.isConsistent = true ↔
      ∀ i, (h : i < t.entries.size) → (0 < t.entries[i].bytes ↔ t.pending.get i = true) := by
  simp only [isConsistent, Nat.all_eq_finRange_all, List.all_eq_true, List.mem_finRange,
    true_implies, beq_iff_eq]
  constructor
  · intro h i hi
    rw [← h ⟨i, hi⟩, decide_eq_true_iff]
  · intro h i
    rw [Bool.eq_iff_iff, decide_eq_true_iff]
    exact h i i.isLt

theorem bytes_of_entry? {t : SessionTable} {session : SessionId} {e : SessionEntry}
    (h : t.entry? session = some e) : t.bytes session = e.bytes := by
  simp [bytes, h]

theorem create_ok {t : SessionTable} {sessions : Nat} (h : create sessions = .ok t) :
    t.size = sessions ∧ ∀ s, t.bytes s = 0 := by
  unfold create at h
  cases hr : (layout SessionEntry).reserve sessions <;> rw [hr] at h
  case error => cases h
  case ok =>
    cases hb : Bitmap.create sessions <;> rw [hb] at h <;> cases h
    refine ⟨by simp [size], fun s => ?_⟩
    simp only [bytes, entry?, Array.getElem?_replicate]
    split <;> rfl

theorem entry?_set {t : SessionTable} {session : SessionId} {entry : SessionEntry}
    {pending : Bitmap} (h : session.toNat < t.entries.size) (s : SessionId) :
    entry? ⟨t.entries.set session.toNat entry, pending⟩ s =
      if s = session then some entry else t.entry? s := by
  unfold entry?
  simp [Array.getElem?_set, UInt16.toNat_inj, eq_comm]

theorem post_ok {t t' : SessionTable} {session : SessionId} {length : UInt16} {port : Port}
    (h : t.post session length port = .ok t') :
    t'.size = t.size ∧ ∃ e, t.entry? session = some e ∧ ∀ s, t'.entry? s =
      if s = session then some ⟨min (e.bytes + length.toNat) maxBytes, port⟩ else t.entry? s := by
  simp only [post] at h
  split at h
  case isFalse => cases h
  case isTrue hi =>
    suffices ∃ entry pending, t' = ⟨t.entries.set session.toNat entry, pending⟩ ∧
        entry = ⟨min (t.entries[session.toNat].bytes + length.toNat) maxBytes, port⟩ by
      obtain ⟨_, _, rfl, rfl⟩ := this
      exact ⟨by simp [size], _, Array.getElem?_eq_getElem hi, entry?_set hi⟩
    split at h
    case isFalse => cases h; exact ⟨_, _, rfl, rfl⟩
    case isTrue =>
      cases hp : t.pending.set session.toNat <;> rw [hp] at h <;> cases h
      exact ⟨_, _, rfl, rfl⟩

theorem consume_ok {t t' : SessionTable} {session : SessionId} {length : Nat}
    {left : SessionEntry} (h : t.consume session length = .ok (left, t')) :
    t'.size = t.size ∧ ∃ e, t.entry? session = some e ∧
      left = { e with bytes := e.bytes - length } ∧
      ∀ s, t'.entry? s = if s = session then some left else t.entry? s := by
  simp only [consume] at h
  split at h
  case isFalse => cases h
  case isTrue hi =>
    suffices ∃ pending, t' = ⟨t.entries.set session.toNat left, pending⟩ ∧
        left = { t.entries[session.toNat] with bytes := t.entries[session.toNat].bytes - length } by
      obtain ⟨_, rfl, rfl⟩ := this
      exact ⟨by simp [size], _, Array.getElem?_eq_getElem hi, rfl, entry?_set hi⟩
    split at h
    case isFalse => cases h; exact ⟨_, rfl, rfl⟩
    case isTrue =>
      cases hp : t.pending.unset session.toNat <;> rw [hp] at h <;> cases h
      exact ⟨_, rfl, rfl⟩

end SessionTable

end ShellInterface.Tcp
