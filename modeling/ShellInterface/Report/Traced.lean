import ShellInterface.Report.Fault
import ShellInterface.Report.Remark
import ShellInterface.Report.Stats

namespace ShellInterface

inductive Note
  | remark (origin : String) (remark : Remark)
  | fault (origin : String) (fault : Fault)
  | count (counter : Counter) (n : UInt64)
deriving DecidableEq, Repr

@[ext]
structure Traced (α : Type) where
  notes : List Note
  outcome : Except Halt α

namespace Traced

variable {α β : Type}

def pure (a : α) : Traced α :=
  ⟨[], .ok a⟩

def bind (x : Traced α) (f : α → Traced β) : Traced β :=
  match x.outcome with
  | .ok a    => ⟨x.notes ++ (f a).notes, (f a).outcome⟩
  | .error e => ⟨x.notes, .error e⟩

instance : Monad Traced where
  pure := pure
  bind := bind

def lift (x : Except Halt α) : Traced α :=
  ⟨[], x⟩

instance : MonadLift (Except Halt) Traced :=
  ⟨lift⟩

instance : MonadLift (Except StreamError) Traced :=
  ⟨fun x => lift (x.mapError .stream)⟩

def remark (origin : String) (r : Remark) : Traced Unit :=
  ⟨[.remark origin r], .ok ()⟩

def fault (origin : String) (f : Fault) : Traced Unit :=
  ⟨[.fault origin f], .ok ()⟩

def add (c : Counter) (n : UInt64) : Traced Unit :=
  ⟨[.count c n], .ok ()⟩

def count (c : Counter) : Traced Unit :=
  add c 1

instance : LawfulMonad Traced := LawfulMonad.mk' Traced
  (by rintro α ⟨ns, _ | a⟩ <;> simp [Functor.map, bind, pure])
  (by intro α β a f; rfl)
  (by
    rintro α β γ ⟨ns, _ | a⟩ f g
    · rfl
    · rcases hf : f a with ⟨ms, _ | b⟩ <;> simp [Bind.bind, bind, hf])

@[simp]
theorem pure_eq (a : α) : (Pure.pure a : Traced α) = ⟨[], .ok a⟩ := rfl

@[simp]
theorem bind_ok (ns : List Note) (a : α) (f : α → Traced β) :
    (⟨ns, .ok a⟩ : Traced α) >>= f = ⟨ns ++ (f a).notes, (f a).outcome⟩ := rfl

@[simp]
theorem bind_error (ns : List Note) (e : Halt) (f : α → Traced β) :
    (⟨ns, .error e⟩ : Traced α) >>= f = ⟨ns, .error e⟩ := rfl

theorem bind_eq_ok {x : Traced α} {f : α → Traced β} {ns : List Note} {b : β} :
    x >>= f = ⟨ns, .ok b⟩ ↔ ∃ ms a ks, x = ⟨ms, .ok a⟩ ∧ f a = ⟨ks, .ok b⟩ ∧ ms ++ ks = ns := by
  rcases x with ⟨ms, _ | a⟩
  case error => simp
  case ok =>
    rcases hf : f a with ⟨ks, o⟩
    constructor
    · intro h
      simp only [bind_ok, hf, mk.injEq] at h
      exact ⟨ms, a, ks, rfl, by rw [hf, h.right], h.left⟩
    · rintro ⟨_, _, _, ⟨⟩, h, rfl⟩
      simp [h]

@[simp]
theorem map_ok (ns : List Note) (a : α) (f : α → β) :
    f <$> (⟨ns, .ok a⟩ : Traced α) = ⟨ns, .ok (f a)⟩ := by
  rw [← bind_pure_comp, bind_ok]
  simp

@[simp]
theorem liftM_ok (a : α) : (liftM (Except.ok a : Except Halt α) : Traced α) = ⟨[], .ok a⟩ := rfl

@[simp]
theorem liftM_error (e : Halt) :
    (liftM (Except.error e : Except Halt α) : Traced α) = ⟨[], .error e⟩ := rfl

@[simp]
theorem liftM_stream_ok (a : α) :
    (liftM (Except.ok a : Except StreamError α) : Traced α) = ⟨[], .ok a⟩ := rfl

@[simp]
theorem liftM_stream_error (e : StreamError) :
    (liftM (Except.error e : Except StreamError α) : Traced α) = ⟨[], .error (.stream e)⟩ := rfl

@[simp]
theorem remark_eq (origin : String) (r : Remark) :
    remark origin r = ⟨[.remark origin r], .ok ()⟩ := rfl

@[simp]
theorem fault_eq (origin : String) (f : Fault) :
    fault origin f = ⟨[.fault origin f], .ok ()⟩ := rfl

@[simp]
theorem add_eq (c : Counter) (n : UInt64) : add c n = ⟨[.count c n], .ok ()⟩ := rfl

@[simp]
theorem count_eq (c : Counter) : count c = ⟨[.count c 1], .ok ()⟩ := rfl

theorem liftM_bind_eq_ok {x : Except Halt α} {f : α → Traced β} {ns : List Note} {b : β} :
    liftM x >>= f = ⟨ns, .ok b⟩ ↔ ∃ a, x = .ok a ∧ f a = ⟨ns, .ok b⟩ := by
  cases x <;> simp [Traced.ext_iff]

theorem liftM_stream_bind_eq_ok {x : Except StreamError α} {f : α → Traced β} {ns : List Note}
    {b : β} : liftM x >>= f = ⟨ns, .ok b⟩ ↔ ∃ a, x = .ok a ∧ f a = ⟨ns, .ok b⟩ := by
  cases x <;> simp [Traced.ext_iff]

theorem note_bind_eq_ok {n : Note} {f : Unit → Traced β} {ns : List Note} {b : β} :
    (⟨[n], .ok ()⟩ : Traced Unit) >>= f = ⟨ns, .ok b⟩ ↔
      ∃ ks, f () = ⟨ks, .ok b⟩ ∧ ns = n :: ks := by
  rcases hf : f () with ⟨ks, o⟩
  simp [hf]
  grind

end Traced

end ShellInterface
