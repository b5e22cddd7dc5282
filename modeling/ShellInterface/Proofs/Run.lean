import ShellInterface.Fifo
import ShellInterface.Report.Traced

namespace ShellInterface

structure Cycle (σ ε ω : Type) where
  source : σ
  input : ε
  before : ω
  notes : List Note
  target : σ
  after : ω

-- What the surroundings of a process may do before its next cycle, given the cycles so far.
abbrev Surroundings (σ ε ω : Type) :=
  List (Cycle σ ε ω) → ε → ω → Prop

def Surroundings.any {σ ε ω : Type} : Surroundings σ ε ω :=
  fun _ _ _ => True

inductive Run {σ ε ω : Type} (tick : σ → ε → ω → Traced (σ × ω)) (env : Surroundings σ ε ω)
    (s₀ : σ) : List (Cycle σ ε ω) → σ → Prop
  | start : Run tick env s₀ [] s₀
  | next {cs s e l ns s' l'} (run : Run tick env s₀ cs s) (allowed : env cs e l)
      (ticked : tick s e l = ⟨ns, .ok (s', l')⟩) :
      Run tick env s₀ (cs ++ [⟨s, e, l, ns, s', l'⟩]) s'

theorem Run.mono {σ ε ω : Type} {tick : σ → ε → ω → Traced (σ × ω)} {env env' : Surroundings σ ε ω}
    {s₀ s : σ} {cs : List (Cycle σ ε ω)} (run : Run tick env s₀ cs s)
    (h : ∀ ds e l, env ds e l → env' ds e l) : Run tick env' s₀ cs s := by
  induction run
  case start                  => exact .start
  case next allowed ticked ih => exact ih.next (h _ _ _ allowed) ticked

theorem Run.forget {σ ε ω : Type} {tick : σ → ε → ω → Traced (σ × ω)} {env : Surroundings σ ε ω}
    {s₀ s : σ} {cs : List (Cycle σ ε ω)} (run : Run tick env s₀ cs s) : Run tick .any s₀ cs s :=
  run.mono fun _ _ _ _ => trivial

theorem Run.of_concat {σ ε ω : Type} {tick : σ → ε → ω → Traced (σ × ω)} {env : Surroundings σ ε ω}
    {s₀ s : σ} {cs : List (Cycle σ ε ω)} {c : Cycle σ ε ω} (run : Run tick env s₀ (cs ++ [c]) s) :
    Run tick env s₀ cs c.source ∧ env cs c.input c.before ∧
      tick c.source c.input c.before = ⟨c.notes, .ok (c.target, c.after)⟩ ∧ c.target = s := by
  generalize hds : cs ++ [c] = ds at run
  cases run
  case start => simp at hds
  case next run allowed ticked =>
    have ⟨hcs, hc⟩ := List.append_inj' hds rfl
    cases hc
    exact ⟨hcs ▸ run, hcs ▸ allowed, ticked, rfl⟩

def Surroundings.after {σ ε ω : Type} (env : Surroundings σ ε ω) (cs : List (Cycle σ ε ω)) :
    Surroundings σ ε ω :=
  fun ds e l => env (cs ++ ds) e l

theorem Run.append {σ ε ω : Type} {tick : σ → ε → ω → Traced (σ × ω)} {env : Surroundings σ ε ω}
    {s₀ s s' : σ} {cs ds : List (Cycle σ ε ω)} (run : Run tick env s₀ cs s)
    (more : Run tick (env.after cs) s ds s') : Run tick env s₀ (cs ++ ds) s' := by
  induction more
  case start => simpa using run
  case next allowed ticked ih =>
    rw [← List.append_assoc]
    exact ih.next allowed ticked

instance {σ ε ω : Type} (cs : List (Cycle σ ε ω)) (e : ε) (l : ω) :
    Decidable (Surroundings.any cs e l) :=
  .isTrue trivial

section Execution

variable {σ ε ω : Type} (tick : σ → ε → ω → Traced (σ × ω)) (env : Surroundings σ ε ω)
  [∀ cs e l, Decidable (env cs e l)]

def execute (cs : List (Cycle σ ε ω)) (s : σ) : List (ε × ω) → Option (List (Cycle σ ε ω) × σ)
  | [] => some (cs, s)
  | (e, l) :: choices =>
    if env cs e l then
      match tick s e l with
      | ⟨ns, .ok (s', l')⟩ => execute (cs ++ [⟨s, e, l, ns, s', l'⟩]) s' choices
      | ⟨_, .error _⟩      => none
    else
      none

variable {tick env}

theorem Run.of_execute {s₀ s s' : σ} {cs cs' : List (Cycle σ ε ω)} {choices : List (ε × ω)}
    (r : Run tick env s₀ cs s) (h : execute tick env cs s choices = some (cs', s')) :
    Run tick env s₀ cs' s' := by
  induction choices generalizing cs s
  case nil =>
    cases h
    exact r
  case cons choice _ ih =>
    obtain ⟨e, l⟩ := choice
    simp only [execute] at h
    split at h <;> try cases h
    split at h <;> try cases h
    exact ih (r.next ‹_› ‹_›) h

theorem Run.exists_of_execute {s₀ : σ} {p : List (Cycle σ ε ω) → σ → Prop}
    [∀ cs s, Decidable (p cs s)] (choices : List (ε × ω))
    (h : (execute tick env [] s₀ choices).any (fun (cs, s) => p cs s) = true) :
    ∃ cs s, Run tick env s₀ cs s ∧ p cs s := by
  have ⟨(cs, s), he, hp⟩ := (Option.any_eq_true _ _).mp h
  exact ⟨cs, s, start.of_execute he, of_decide_eq_true hp⟩

theorem Run.exists_of_create {δ : Type} {created : Except δ σ} {p : List (Cycle σ ε ω) → σ → Prop}
    [∀ cs s, Decidable (p cs s)] (choices : List (ε × ω))
    (h : (created.toOption.bind (execute tick env [] · choices)).any (fun (cs, s) => p cs s)) :
    ∃ s₀ cs s, created = .ok s₀ ∧ Run tick env s₀ cs s ∧ p cs s := by
  cases created
  case error => cases h
  case ok s₀ =>
    have ⟨cs, s, run, hp⟩ := exists_of_execute choices h
    exact ⟨s₀, cs, s, rfl, run, hp⟩

end Execution

def Fifo.blank {α : Type} (depth : Nat) (pos : 0 < depth) : Fifo α :=
  ⟨"stream", depth, [], pos, Nat.zero_le depth⟩

def Fifo.single {α : Type} : Fifo α :=
  .blank 1 Nat.zero_lt_one

def Note.fault? : Note → Option Fault
  | .fault _ f => some f
  | _          => none

section Histories

variable {α γ : Type}

def Fifo.added (s s' : Fifo α) : List α :=
  s'.items.drop s.items.length

def Fifo.taken (s s' : Fifo α) : List α :=
  s.items.take (s.items.length - s'.items.length)

def written (before after : γ → Fifo α) (history : List γ) : List α :=
  history.flatMap fun x => (before x).added (after x)

def consumed (before after : γ → Fifo α) (history : List γ) : List α :=
  history.flatMap fun x => (before x).taken (after x)

@[simp]
theorem Fifo.added_self (s : Fifo α) : s.added s = [] := by
  simp [added]

@[simp]
theorem Fifo.taken_self (s : Fifo α) : s.taken s = [] := by
  simp [taken]

theorem Fifo.taken_length_le (s s' : Fifo α) : (s.taken s').length ≤ s.items.length := by
  simp [taken]

theorem Fifo.taken_of_append {s s' : Fifo α} {as : List α} (h : s'.items = s.items ++ as) :
    s.taken s' = [] := by
  simp [taken, h]

@[simp]
theorem Fifo.added_tail (s : Fifo α) : s.added s.tail = [] := by
  simp [added]

theorem Fifo.added_of_suffix {s s' : Fifo α} {as : List α} (h : s.items = as ++ s'.items) :
    s.added s' = [] := by
  rw [added, h]
  exact List.drop_eq_nil_of_le (by simp)

theorem Fifo.added_of_write {s s' : Fifo α} {a : α} (h : s.write a = .ok s') :
    s.added s' = [a] := by
  simp [added, (write_ok h).left]

theorem Fifo.taken_tail {s : Fifo α} {a : α} {as : List α} (h : s.items = a :: as) :
    s.taken s.tail = [a] := by
  simp [taken, h]

@[simp]
theorem written_nil (before after : γ → Fifo α) : written before after [] = [] := rfl

@[simp]
theorem written_append (before after : γ → Fifo α) (xs ys : List γ) :
    written before after (xs ++ ys) = written before after xs ++ written before after ys := by
  simp [written]

@[simp]
theorem written_cons (before after : γ → Fifo α) (x : γ) (xs : List γ) :
    written before after (x :: xs) =
      (before x).added (after x) ++ written before after xs := rfl

@[simp]
theorem consumed_nil (before after : γ → Fifo α) : consumed before after [] = [] := rfl

@[simp]
theorem consumed_append (before after : γ → Fifo α) (xs ys : List γ) :
    consumed before after (xs ++ ys) = consumed before after xs ++ consumed before after ys := by
  simp [consumed]

@[simp]
theorem consumed_cons (before after : γ → Fifo α) (x : γ) (xs : List γ) :
    consumed before after (x :: xs) =
      (before x).taken (after x) ++ consumed before after xs := rfl

theorem exists_split_of_getElem? {f : γ → List α} {history : List γ} {i : Nat} {a : α}
    (hf : ∀ x ∈ history, (f x).length ≤ 1) (h : (history.flatMap f)[i]? = some a) :
    ∃ ys x zs, history = ys ++ x :: zs ∧ (ys.flatMap f).length = i ∧ f x = [a] := by
  induction history generalizing i
  case nil => simp at h
  case cons x xs ih =>
    rw [List.flatMap_cons, List.getElem?_append] at h
    split at h
    case isTrue hi =>
      have hx : (f x).length = 1 := Nat.le_antisymm (hf x List.mem_cons_self) (by omega)
      obtain ⟨b, hb⟩ := List.length_eq_one_iff.mp hx
      obtain ⟨rfl, rfl⟩ : i = 0 ∧ b = a := by simpa [hb, List.getElem?_singleton] using h
      exact ⟨[], x, xs, rfl, rfl, hb⟩
    case isFalse hi =>
      have ⟨ys, y, zs, he, hl, hy⟩ := ih (fun y hy => hf y (List.mem_cons_of_mem _ hy)) h
      exact ⟨x :: ys, y, zs, by rw [he]; rfl, by simp [hl]; omega, hy⟩

theorem forall_split_concat {p : List γ → γ → Prop} {history : List γ} {x : γ}
    (h : ∀ ys y zs, history = ys ++ y :: zs → p ys y) (hx : p history x) :
    ∀ ys y zs, history ++ [x] = ys ++ y :: zs → p ys y := by
  intro ys y zs he
  obtain rfl | ⟨zs, z, rfl⟩ := zs.eq_nil_or_concat
  case inl =>
    obtain ⟨rfl, rfl⟩ : history = ys ∧ x = y := by simpa using List.append_inj' he rfl
    exact hx
  case inr =>
    rw [List.concat_eq_append, ← List.cons_append, ← List.append_assoc] at he
    exact h ys y zs (List.append_inj' he rfl).left

end Histories

def faults {σ ε ω : Type} (cs : List (Cycle σ ε ω)) : List Fault :=
  cs.flatMap fun c => c.notes.filterMap Note.fault?

@[simp]
theorem faults_nil {σ ε ω : Type} : faults ([] : List (Cycle σ ε ω)) = [] := rfl

@[simp]
theorem faults_append {σ ε ω : Type} (cs ds : List (Cycle σ ε ω)) :
    faults (cs ++ ds) = faults cs ++ faults ds := by
  simp [faults]

@[simp]
theorem faults_cons {σ ε ω : Type} (c : Cycle σ ε ω) (cs : List (Cycle σ ε ω)) :
    faults (c :: cs) = c.notes.filterMap Note.fault? ++ faults cs := rfl

end ShellInterface
