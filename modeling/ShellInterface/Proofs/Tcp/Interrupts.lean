import ShellInterface.Proofs.Occupancy
import ShellInterface.Proofs.Run
import ShellInterface.Tcp.Interrupts

namespace ShellInterface

namespace Tcp

namespace Poster

def rejection (sessions : Nat) (n : Notification) : Option Fault :=
  if n.length = 0 then
    some (.zeroLengthNotification n.session)
  else if sessions ≤ n.session.toNat then
    some (.sessionOutOfRange n.session sessions)
  else
    none

theorem accept_eq (sessions : Nat) (n : Notification) :
    accept sessions n =
      match rejection sessions n with
      | some f => ⟨[.fault origin f, .count .discardedNotifications 1], .ok .idle⟩
      | none   => ⟨[], .ok (.holding n)⟩ := by
  unfold accept rejection
  split
  case isTrue  => rfl
  case isFalse => split <;> rfl

inductive Step (granted : Bool) (t : SessionTable) (s : Fifo Notification) :
    Poster → List Note → Poster → SessionTable → Fifo Notification → Prop
  | wait (empty : s.items = []) : Step granted t s .idle [] .idle t s
  | accept {n rest} (read : s.items = n :: rest) (valid : rejection t.size n = none) :
      Step granted t s .idle [] (.holding n) t s.tail
  | discard {n rest f} (read : s.items = n :: rest) (invalid : rejection t.size n = some f) :
      Step granted t s .idle [.fault origin f, .count .discardedNotifications 1] .idle t s.tail
  | hold {n} (refused : granted = false) : Step granted t s (.holding n) [] (.holding n) t s
  | post {n t'} (access : granted = true)
      (posted : t.post n.session n.length n.localPort = .ok t') :
      Step granted t s (.holding n)
        [.remark origin (.posted n.session n.localPort n.length), .count .notifications 1] .idle
        t' s

theorem step_of_tick {p p' : Poster} {granted : Bool} {t t' : SessionTable}
    {s s' : Fifo Notification} {ns : List Note}
    (h : p.tick granted t s = ⟨ns, .ok (p', t', s')⟩) : Step granted t s p ns p' t' s' := by
  cases p <;> simp only [tick] at h
  case idle =>
    rcases hs : s.items with _ | ⟨n, rest⟩
    case nil =>
      simp [Fifo.isEmpty, hs] at h
      obtain ⟨rfl, rfl, rfl, rfl⟩ := h
      exact .wait hs
    case cons =>
      simp [Fifo.isEmpty, hs, Fifo.read_of_items hs, accept_eq] at h
      cases hr : rejection t.size n <;> simp [hr] at h <;> obtain ⟨rfl, rfl, rfl, rfl⟩ := h
      case none => exact .accept hs hr
      case some => exact .discard hs hr
  case holding n =>
    cases granted
    case false =>
      cases h
      exact .hold rfl
    case true =>
      cases hp : t.post n.session n.length n.localPort <;> simp [hp] at h
      obtain ⟨rfl, rfl, rfl, rfl⟩ := h
      exact .post rfl hp

end Poster

namespace Scheduler

inductive Step (granted : Bool) (t : SessionTable) (o : Occupancy) (l : Links) (s : Scheduler) :
    List Note → Scheduler → SessionTable → Occupancy → Links → Prop
  | select {i} (phase : s.phase = .idle) (found : s.turn.select t.pending = .ok (some i)) :
      Step granted t o l s [] { s with phase := .query (.ofNat i) } t o l
  | rest (phase : s.phase = .idle) (nothing : s.turn.select t.pending = .ok none) :
      Step granted t o l s [] s t o l
  | refuse {session} (phase : s.phase = .query session) (refused : granted = false) :
      Step granted t o l s [] s t o l
  | release {session} (phase : s.phase = .query session) (access : granted = true)
      (nothing : ∀ e ∈ t.entry? session, requestLength e.bytes (o.available * Chunk.width) = 0) :
      Step granted t o l s [] { s with phase := .idle } t o l
  | take {session entry length left t' o' turn} (phase : s.phase = .query session)
      (access : granted = true) (found : t.entry? session = some entry)
      (length_eq : requestLength entry.bytes (o.available * Chunk.width) = length)
      (length_ne : length ≠ 0) (consumed : t.consume session length.toNat = .ok (left, t'))
      (reserved : o' = { o with reserved := o.reserved + slots length.toNat })
      (serviced : RoundRobin.serviced session.toNat t'.size = .ok turn) :
      Step granted t o l s [.remark origin (.taken session length left.bytes)]
        { s with
          phase := .emit ⟨session, length⟩ ⟨session, length, s.routes.lookup entry.port⟩, turn }
        t' o' l
  | stall {r cmd} (phase : s.phase = .emit r cmd)
      (full : l.requests.isFull = true ∨ l.commands.isFull = true) : Step granted t o l s [] s t o l
  | emit {r cmd requests commands} (phase : s.phase = .emit r cmd)
      (request : l.requests.write r = .ok requests)
      (command : l.commands.write cmd = .ok commands) :
      Step granted t o l s
        [.remark origin (.requested r.session r.length cmd.route), .count .readRequests 1,
          .count .requestedBytes (.ofNat r.length.toNat)]
        { s with phase := .idle } t o { requests, commands }

variable {s s' : Scheduler} {granted : Bool} {t t' : SessionTable} {o o' : Occupancy}
  {l l' : Links} {ns : List Note}

theorem requestLength_toNat (bytes space : Nat) : (requestLength bytes space).toNat =
    min (min bytes maxLength) (space % UInt32.size) := by
  apply UInt16.toNat_ofNat_of_lt'
  have : maxLength < UInt16.size := by decide
  omega

theorem requestLength_le (bytes space : Nat) : (requestLength bytes space).toNat ≤ bytes := by
  rw [requestLength_toNat]
  omega

theorem slots_requestLength_le (bytes available : Nat) :
    slots (requestLength bytes (available * Chunk.width)).toNat ≤ available := by
  have := Nat.mod_le (available * Chunk.width) UInt32.size
  rw [requestLength_toNat, slots]
  simp only [Chunk.width] at *
  omega

theorem slots_eq {length : UInt16} {n : Nat} (h : Size.units length.toNat Chunk.width = .ok n) :
    n = slots length.toNat := by
  have hl : length.toNat + Chunk.width < Size.limit :=
    Nat.lt_trans (Nat.add_lt_add_right length.toNat_lt _) (by decide)
  rw [Size.units_eq (by decide) hl] at h
  cases h
  rfl

theorem step_of_take {session : SessionId} (hp : s.phase = .query session) (hg : granted = true)
    (h : s.take session t o = ⟨ns, .ok (s', t', o')⟩) : Step granted t o l s ns s' t' o' l := by
  unfold take at h
  cases he : t.entry? session <;> simp only [he] at h
  case none =>
    cases h
    exact .release hp hg (by simp [he])
  case some entry =>
    have ⟨space, hm, h⟩ := Traced.liftM_bind_eq_ok.mp h
    obtain rfl := Size.mul_eq_ok hm
    split at h
    case isTrue hz =>
      cases h
      exact .release hp hg (by simpa [he] using hz)
    case isFalse hz =>
      have ⟨(left, t₁), hc, h⟩ := Traced.liftM_bind_eq_ok.mp h
      obtain ⟨_, _, ks, hr, hk, rfl⟩ := Traced.bind_eq_ok.mp h
      cases hr
      have ⟨n, hn, hk⟩ := Traced.liftM_bind_eq_ok.mp hk
      have ⟨o₁, ho, hk⟩ := Traced.liftM_bind_eq_ok.mp hk
      have ⟨turn, hu, hk⟩ := Traced.liftM_bind_eq_ok.mp hk
      cases hk
      exact .take hp hg he rfl hz hc (slots_eq hn ▸ Occupancy.reserve_ok ho) hu

theorem step_of_emit {r : ReadRequest} {cmd : ForwardCommand} (hp : s.phase = .emit r cmd)
    (h : s.emit r cmd l = ⟨ns, .ok (s', l')⟩) : Step granted t o l s ns s' t o l' := by
  unfold emit at h
  split at h
  case isTrue hf =>
    cases h
    exact .stall hp (by simpa using hf)
  case isFalse hf =>
    simp only [Bool.or_eq_true, not_or, Bool.not_eq_true] at hf
    have ⟨requests, hr⟩ := Fifo.write_of_not_isFull (a := r) hf.left
    have ⟨commands, hc⟩ := Fifo.write_of_not_isFull (a := cmd) hf.right
    rw [hr, hc] at h
    cases h
    exact .emit hp hr hc

theorem step_of_tick (h : s.tick granted t o l = ⟨ns, .ok (s', t', o', l')⟩) :
    Step granted t o l s ns s' t' o' l' := by
  cases hp : s.phase <;> simp only [tick, hp] at h
  case idle =>
    obtain ⟨_, hs, hk⟩ := Traced.liftM_bind_eq_ok.mp h
    cases hk
    obtain ⟨_ | i, hf, hs⟩ := exists_of_bind_eq_ok hs <;> cases hs
    · exact .rest hp hf
    · exact .select hp hf
  case query session =>
    cases granted
    case false =>
      cases h
      exact .refuse hp rfl
    case true =>
      obtain ⟨_, ⟨_, _, _⟩, _, ht, hk, rfl⟩ := Traced.bind_eq_ok.mp h
      cases hk
      exact step_of_take hp rfl (by simpa using ht)
  case emit r cmd =>
    obtain ⟨_, ⟨_, _⟩, _, he, hk, rfl⟩ := Traced.bind_eq_ok.mp h
    cases hk
    exact step_of_emit hp (by simpa using he)

theorem Step.commands_written (h : Step granted t o l s ns s' t' o' l') :
    l'.commands.items = l.commands.items ++ l.commands.added l'.commands := by
  cases h
  case emit write => simp [Fifo.added_of_write write, (Fifo.write_ok write).left]
  all_goals simp

end Scheduler

namespace Interrupts

variable {x x' : Interrupts} {l l' : Links} {ns : List Note}

def granted (x : Interrupts) : Grant :=
  x.grant.next x.poster.wantsTable x.scheduler.wantsTable

structure Step (x : Interrupts) (l : Links) (ns : List Note) (x' : Interrupts) (l' : Links)
    (ms ks : List Note) (t : SessionTable) : Prop where
  grant      : x'.grant = x.granted
  poster     : Poster.Step (x.granted == .high) x.table l.notifications x.poster ms x'.poster t
    l'.notifications
  scheduler  : Scheduler.Step (x.granted == .low) t l.occupancy l.toLinks x.scheduler ks
    x'.scheduler x'.table l'.occupancy l'.toLinks
  consistent : x'.table.isConsistent = true
  notes      : ms ++ ks = ns

theorem step_of_tick (h : x.tick l = ⟨ns, .ok (x', l')⟩) :
    ∃ ms ks t, Step x l ns x' l' ms ks t := by
  unfold tick at h
  obtain ⟨ms, ⟨p, t, n⟩, _, hp, hk, rfl⟩ := Traced.bind_eq_ok.mp h
  obtain ⟨ks, ⟨s, t', o, e⟩, _, hs, hr, rfl⟩ := Traced.bind_eq_ok.mp hk
  cases hc : t'.isConsistent <;> simp only [hc] at hr
  case false => cases hr
  case true =>
    cases hr
    exact ⟨ms, ks, t, rfl, Poster.step_of_tick hp, Scheduler.step_of_tick hs, hc, by simp⟩

end Interrupts

end Tcp

end ShellInterface
