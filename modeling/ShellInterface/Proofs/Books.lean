import Mathlib.Data.List.ModifyLast

namespace ShellInterface.Books

variable {α β : Type} {books opened : List α} {add : α → α} {a : α}

def enter (books opened : List α) (add : α → α) : List α :=
  (books ++ opened).modifyLast add

theorem enter_nothing (books : List α) (h : ∀ a, add a = a) : enter books [] add = books := by
  obtain rfl | ⟨books, a, rfl⟩ := books.eq_nil_or_concat
  case inl => rfl
  case inr => rw [enter, List.append_nil, List.concat_eq_append, List.modifyLast_concat, h]

theorem enter_opened (books : List α) (h : add a = a) : enter books [a] add = books ++ [a] := by
  rw [enter, List.modifyLast_concat, h]

theorem enter_hand (books : List α) (a : α) (add : α → α) :
    enter (books ++ [a]) [] add = books ++ [add a] := by
  rw [enter, List.append_nil, List.modifyLast_concat]

theorem flatMap_enter {g : α → List β} {moved : List β} (hand : books ++ opened = [] → moved = [])
    (new : ∀ a ∈ opened, g a = []) (hadd : ∀ a, g (add a) = g a ++ moved) :
    (enter books opened add).flatMap g = books.flatMap g ++ moved := by
  obtain he | ⟨done, a, he⟩ := (books ++ opened).eq_nil_or_concat
  case inl =>
    rw [enter, he, hand he, (List.append_eq_nil_iff.mp he).left]
    rfl
  case inr =>
    have hall : done.flatMap g ++ g a = books.flatMap g := by
      simpa [List.flatMap_eq_nil_iff.mpr new] using (congrArg (List.flatMap g) he).symm
    rw [enter, he, List.concat_eq_append, List.modifyLast_concat, List.flatMap_append,
      List.flatMap_singleton, hadd, ← List.append_assoc, hall]

theorem map_filter_enter {p : α → Bool} {f : α → β} (books opened : List α)
    (hp : ∀ a, p (add a) = p a) (hf : ∀ a, f (add a) = f a) :
    ((enter books opened add).filter p).map f =
      (books.filter p).map f ++ (opened.filter p).map f := by
  rw [← List.map_append, ← List.filter_append, enter]
  obtain he | ⟨done, a, he⟩ := (books ++ opened).eq_nil_or_concat <;> rw [he]
  case inl => rfl
  case inr =>
    rw [List.concat_eq_append, List.modifyLast_concat]
    cases ha : p a <;> simp [List.filter_append, hp, hf, ha]

end ShellInterface.Books
