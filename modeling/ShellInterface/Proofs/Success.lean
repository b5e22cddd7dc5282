import ShellInterface.Config
import ShellInterface.Proofs.Listener.Step
import ShellInterface.Report.Ledger

namespace ShellInterface

theorem Fifo.read_of_not_isEmpty {α : Type} {s : Fifo α} (h : s.isEmpty = false) :
    ∃ a, s.read = .ok (a, s.tail) := by
  rcases hs : s.items with _ | ⟨a, as⟩
  case nil  => simp [isEmpty, hs] at h
  case cons => exact ⟨a, read_of_items hs⟩

namespace Traced

variable {α β : Type}

def Succeeds (x : Traced α) : Prop :=
  ∃ a, x.outcome = .ok a

theorem Succeeds.exists_eq {x : Traced α} (h : x.Succeeds) : ∃ ns a, x = ⟨ns, .ok a⟩ :=
  have ⟨a, ha⟩ := h
  ⟨x.notes, a, Traced.ext rfl ha⟩

@[simp]
theorem succeeds_ok (ns : List Note) (a : α) : (⟨ns, .ok a⟩ : Traced α).Succeeds :=
  ⟨a, rfl⟩

@[simp]
theorem succeeds_mk (ns : List Note) (x : Traced α) :
    (⟨ns, x.outcome⟩ : Traced α).Succeeds ↔ x.Succeeds := Iff.rfl

@[simp]
theorem succeeds_bind {x : Traced α} {f : α → Traced β} :
    (x >>= f).Succeeds ↔ x.Succeeds ∧ ∀ a, x.outcome = .ok a → (f a).Succeeds := by
  rcases x with ⟨ns, _ | a⟩ <;> simp [Succeeds]

@[simp]
theorem succeeds_ite {p : Prop} [Decidable p] {x y : Traced α} :
    (if p then x else y).Succeeds ↔ (p → x.Succeeds) ∧ (¬ p → y.Succeeds) := by
  split <;> simp [*]

@[simp]
theorem succeeds_read {s : Fifo α} :
    (liftM s.read : Traced (α × Fifo α)).Succeeds ↔ s.isEmpty = false := by
  cases hs : s.isEmpty
  case true  => simp [Succeeds, Fifo.read_of_empty (Fifo.isEmpty_iff.mp hs)]
  case false =>
    have ⟨_, hr⟩ := Fifo.read_of_not_isEmpty hs
    simp [hr]

@[simp]
theorem succeeds_write {s : Fifo α} {a : α} :
    (liftM (s.write a) : Traced (Fifo α)).Succeeds ↔ s.isFull = false := by
  cases hs : s.isFull
  case true  => simp [Succeeds, Fifo.write_of_isFull hs]
  case false =>
    have ⟨_, hw⟩ := Fifo.write_of_not_isFull (a := a) hs
    simp [hw]

theorem exists_foldlM {acts : List (α → Traced α)} {P : α → Prop} {a : α}
    (succeeds : ∀ act ∈ acts, ∀ a, P a → (act a).Succeeds)
    (preserves : ∀ act ∈ acts, ∀ {a ns a'}, act a = ⟨ns, .ok a'⟩ → P a → P a') (h : P a) :
    ∃ ns a', acts.foldlM (fun a act => act a) a = ⟨ns, .ok a'⟩ ∧ P a' := by
  induction acts generalizing a
  case nil => exact ⟨[], a, rfl, h⟩
  case cons act acts ih =>
    have ⟨ms, a₁, ha⟩ := (succeeds act List.mem_cons_self a h).exists_eq
    have ⟨ks, a', hs, h'⟩ := ih (fun act hm => succeeds act (List.mem_cons_of_mem _ hm))
      (fun act hm => preserves act (List.mem_cons_of_mem _ hm))
      (preserves act List.mem_cons_self ha h)
    exact ⟨ms ++ ks, a', by simp [ha, hs], h'⟩

end Traced

section Creation

theorem requireNonZero_eq_ok {field : String} {value : Nat}
    (h : requireNonZero field value = .ok ()) : 0 < value := by
  unfold requireNonZero at h
  split at h
  case isTrue  => cases h
  case isFalse => omega

variable {α β γ : Type}

-- Nothing but want of room stands in the way.
def Affordable (x : Except Halt α) : Prop :=
  (∃ a, x = .ok a) ∨ x = .error .capacityOverflow

@[simp]
theorem affordable_ok (a : α) : Affordable (.ok a) :=
  .inl ⟨a, rfl⟩

@[simp]
theorem affordable_bind {x : Except Halt α} {f : α → Except Halt β} :
    Affordable (x >>= f) ↔ Affordable x ∧ ∀ a, x = .ok a → Affordable (f a) := by
  cases x <;> simp [Affordable, bind, Except.bind]

@[simp]
theorem affordable_map {x : Except Halt α} {f : α → β} : Affordable (f <$> x) ↔ Affordable x := by
  cases x <;> simp [Affordable, Functor.map, Except.map]

@[simp]
theorem affordable_reserve (l : Layout) (count : Nat) : Affordable (l.reserve count) := by
  unfold Layout.reserve
  split
  case isTrue  => exact .inl ⟨(), rfl⟩
  case isFalse => exact .inr rfl

theorem Fifo.affordable_create [Storable α] {depth : Nat} (name : String) (h : 0 < depth) :
    Affordable (create name depth : Except Halt (Fifo α)) := by
  simp [create, h]

theorem Ledger.affordable_create (history : Nat) : Affordable (create history) := by
  simp [create, Monitor.create]

theorem exists_of_affordable {x : Except Halt α} {y : Except Halt β} {f : α → β → γ}
    (hx : Affordable x) (hy : Affordable y)
    (h : (do return f (← x.mapError SetupError.halt) (← y.mapError SetupError.halt)) ≠
      .error (.halt .capacityOverflow)) :
    ∃ a b, x = .ok a ∧ y = .ok b := by
  obtain ⟨a, rfl⟩ | rfl := hx <;> obtain ⟨b, rfl⟩ | rfl := hy
  case inl.inl => exact ⟨a, b, rfl, rfl⟩
  all_goals exact absurd rfl h

end Creation

namespace Listener

def Engaged (l : Listener) : Prop :=
  l.phase = .request ∨ l.phase = .await → l.opened < l.ports.length

variable {l l' : Listener} {s s' : Links} {enable : Bool} {ns : List Note}

theorem Engaged.create (origin : String) (ports : List Port) (watchdog : Nat) :
    (create origin ports watchdog).Engaged := nofun

theorem Engaged.proceed (l : Listener) : l.proceed.Engaged := by
  unfold Engaged Listener.proceed
  split <;> simp [*]

theorem Engaged.next (h : l.Engaged) (step : Step enable l s ns l' s') : l'.Engaged := by
  cases step
  case wake            => exact .proceed _
  case confirm         => exact .proceed _
  case ask hp _ _      => exact fun _ => h (.inl hp)
  case wait hp _ _     => exact fun _ => h (.inr hp)
  case expire hp _ _ _ => exact fun _ => h (.inr hp)
  case deny hp _ _     => exact fun _ => h (.inr hp)
  all_goals exact h

theorem succeeds_tick (enable : Bool) (s : Links) (h : l.Engaged) : (l.tick enable s).Succeeds := by
  cases hp : l.phase <;> simp only [tick, hp]
  case idle    => simp
  case request =>
    have hi := h (.inl hp)
    simp +contextual [request, port, List.getElem?_eq_getElem hi]
  case await   =>
    have hi := h (.inr hp)
    simp +contextual [await, port, List.getElem?_eq_getElem hi]
  case done    => simp

end Listener

end ShellInterface
