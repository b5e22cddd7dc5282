import ShellInterface.Proofs.Run

namespace ShellInterface

structure Staging.Turn (φ : Type) where
  before : φ
  notes : List Note
  after : φ

structure Staging {σ ε ω : Type} (tick : σ → ε → ω → Traced (σ × ω)) (φ : Type) where
  stages : ε → List (φ → Traced φ)
  -- Where the stages of a cycle start.
  entry : σ → ω → φ
  cycle : ∀ {s e l ns s' l'}, tick s e l = ⟨ns, .ok (s', l')⟩ →
    (stages e).foldlM (fun f stage => stage f) (entry s l) = ⟨ns, .ok (entry s' l')⟩

namespace Staging

section Turns

variable {φ : Type} {f f' : φ} {ns : List Note} {stages : List (φ → Traced φ)}

def turns : List (φ → Traced φ) → φ → List (Turn φ)
  | [],              _ => []
  | stage :: stages, f =>
    match stage f with
    | ⟨ns, .ok f'⟩  => ⟨f, ns, f'⟩ :: turns stages f'
    | ⟨_, .error _⟩ => []

theorem turns_induction {P : List (Turn φ) → φ → Prop}
    (turn : ∀ stage ∈ stages, ∀ {ts f ns f'}, stage f = ⟨ns, .ok f'⟩ → P ts f →
      P (ts ++ [⟨f, ns, f'⟩]) f')
    {ts : List (Turn φ)} (h : stages.foldlM (fun f stage => stage f) f = ⟨ns, .ok f'⟩)
    (hp : P ts f) : P (ts ++ turns stages f) f' := by
  induction stages generalizing f ns ts
  case nil =>
    cases h
    simpa [turns] using hp
  case cons stage stages ih =>
    obtain ⟨ms, f₁, ks, hs, hk, rfl⟩ := Traced.bind_eq_ok.mp h
    have hp := turn stage List.mem_cons_self hs hp
    simpa [turns, hs] using ih (fun stage hm => turn stage (List.mem_cons_of_mem _ hm)) hk hp

theorem notes_eq_flatMap_turns
    (h : stages.foldlM (fun f stage => stage f) f = ⟨ns, .ok f'⟩) :
    ns = (turns stages f).flatMap Turn.notes := by
  induction stages generalizing f ns
  case nil =>
    cases h
    rfl
  case cons stage stages ih =>
    obtain ⟨ms, f₁, ks, hs, hk, rfl⟩ := Traced.bind_eq_ok.mp h
    simp [turns, hs, ← ih hk]

end Turns

variable {σ ε ω φ : Type} {tick : σ → ε → ω → Traced (σ × ω)} {env : Surroundings σ ε ω}
  {s₀ s : σ} {cs : List (Cycle σ ε ω)}

def marked (g : Staging tick φ) (cs : List (Cycle σ ε ω)) : List (ε × Turn φ) :=
  cs.flatMap fun c => (turns (g.stages c.input) (g.entry c.source c.before)).map (c.input, ·)

theorem notes_eq_of_run (g : Staging tick φ) (run : Run tick env s₀ cs s) :
    cs.flatMap Cycle.notes = (g.marked cs).flatMap (·.2.notes) := by
  induction run
  case start => rfl
  case next ticked ih =>
    have h := notes_eq_flatMap_turns (g.cycle ticked)
    simpa [marked, ih, List.flatMap_map] using h

-- Invariants of a run: `P` holds between the cycles, and `Q` between the turns of a cycle.
theorem invariant_of_run (g : Staging tick φ) {P : List (ε × Turn φ) → σ → Prop}
    {Q : List (ε × Turn φ) → φ → Prop} (run : Run tick env s₀ cs s) (start : P [] s₀)
    (enter : ∀ {cs s e l}, env cs e l → P (g.marked cs) s → Q (g.marked cs) (g.entry s l))
    (turn : ∀ {e stage ts f ns f'}, stage ∈ g.stages e → stage f = ⟨ns, .ok f'⟩ → Q ts f →
      Q (ts ++ [(e, ⟨f, ns, f'⟩)]) f')
    (leave : ∀ {ts s l}, Q ts (g.entry s l) → P ts s) : P (g.marked cs) s := by
  induction run
  case start => exact start
  case next cs s e l _ _ _ _ allowed ticked ih =>
    have entered : Q (g.marked cs ++ ([] : List (Turn φ)).map (e, ·)) (g.entry s l) := by
      simpa using enter allowed ih
    have preserved := turns_induction (P := fun ts f => Q (g.marked cs ++ ts.map (e, ·)) f)
      (fun stage hm _ _ _ _ hs hq => by simpa using turn hm hs hq) (g.cycle ticked) entered
    exact leave (by simpa [marked] using preserved)

end Staging

end ShellInterface
