import ShellInterface.Proofs.Tcp.Parts

namespace ShellInterface

theorem getElem?_of_prefix {α : Type} {as bs : List α} {i : Nat} {a : α} (h : as <+: bs)
    (hi : as[i]? = some a) : bs[i]? = some a := by
  obtain ⟨hlt, rfl⟩ := List.getElem?_eq_some_iff.mp hi
  exact List.prefix_iff_getElem?.mp h i hlt

theorem flatMap_filter {α β : Type} {p : α → Bool} {g : α → List β} {as : List α}
    (h : ∀ a ∈ as, p a = false → g a = []) : (as.filter p).flatMap g = as.flatMap g := by
  induction as
  case nil => rfl
  case cons a as ih =>
    have ⟨ha, has⟩ := List.forall_mem_cons.mp h
    have ih := ih has
    cases hp : p a
    case false => simpa [hp, ha hp] using ih
    case true  => simpa [hp] using ih

-- Items of which one sees where they end are known from what they are one after the other. The last
-- one may be unfinished.
theorem eq_of_flatMap_eq {α β : Type} {f : α → List β} {Complete : α → Prop} {as bs : List α}
    (inj : ∀ a b, f a = f b → a = b)
    (delimited : ∀ a b us ws, Complete a → Complete b → f a ++ us = f b ++ ws → a = b)
    (ha : ∀ a ∈ as.dropLast, Complete a) (hb : ∀ b ∈ bs.dropLast, Complete b)
    (length : as.length = bs.length) (h : as.flatMap f = bs.flatMap f) : as = bs := by
  induction as generalizing bs
  case nil => exact (List.eq_nil_of_length_eq_zero length.symm).symm
  case cons a as ih =>
    obtain ⟨b, bs, rfl⟩ := List.exists_cons_of_length_eq_add_one length.symm
    replace length : as.length = bs.length := Nat.succ.inj length
    rw [List.flatMap_cons, List.flatMap_cons] at h
    by_cases has : as = []
    case pos =>
      subst has
      obtain rfl := List.eq_nil_of_length_eq_zero length.symm
      rw [inj a b (by simpa using h)]
    case neg =>
      have hbs : bs ≠ [] := fun he => has (List.eq_nil_of_length_eq_zero (by rw [length, he]; rfl))
      rw [List.dropLast_cons_of_ne_nil has] at ha
      rw [List.dropLast_cons_of_ne_nil hbs] at hb
      have ⟨ha, has⟩ := List.forall_mem_cons.mp ha
      have ⟨hb, hbs⟩ := List.forall_mem_cons.mp hb
      obtain rfl := delimited a b _ _ ha hb h
      rw [ih has hbs length (List.append_cancel_left h)]

theorem forall_dropLast_map {α β : Type} {f : α → β} {p : β → Prop} {as : List α}
    (h : ∀ a ∈ as.dropLast, p (f a)) : ∀ b ∈ (as.map f).dropLast, p b := by
  rw [← List.map_dropLast]
  exact List.forall_mem_map.mpr h

theorem eq_of_filterMap_eq {α : Type} {as bs : List (Option α)}
    (ha : ∀ a ∈ as.dropLast, a.isSome) (hb : ∀ b ∈ bs.dropLast, b.isSome)
    (length : as.length = bs.length) (h : as.filterMap id = bs.filterMap id) : as = bs := by
  rw [List.filterMap_eq_flatMap_toList, List.filterMap_eq_flatMap_toList] at h
  refine eq_of_flatMap_eq (f := Option.toList) (fun a b => ?_) (fun a b _ _ => ?_) ha hb length h
  all_goals cases a <;> cases b <;> simp_all

namespace Tcp

variable {s us part : List Chunk} {done streams : List (List Chunk)}

theorem Ended.exists_marked (h : Ended s) : ∃ c ∈ s, c.last = true := by
  induction h
  case last c marked => exact ⟨c, List.mem_singleton_self c, marked⟩
  case more ih       =>
    have ⟨c, hc, marked⟩ := ih
    exact ⟨c, List.mem_cons_of_mem _ hc, marked⟩

theorem Ended.ne_nil (h : Ended s) : s ≠ [] := by
  cases h <;> exact List.cons_ne_nil _ _

theorem Ended.prefix_of_unmarked (h : Ended s) (unmarked : ∀ c ∈ part, c.last = false)
    (hp : part <+: s ++ us) : part <+: s := by
  obtain hs | hs := List.prefix_or_prefix_of_prefix hp (List.prefix_append s us)
  case inl => exact hs
  case inr =>
    have ⟨c, hc, marked⟩ := h.exists_marked
    simp [unmarked c (hs.subset hc)] at marked

theorem Ended.prefix_of_flatten (finished : ∀ d ∈ done, Ended d) (ended : ∀ s ∈ streams, Ended s)
    (unmarked : ∀ c ∈ part, c.last = false) (h : done.flatten ++ part <+: streams.flatten) :
    done <+: streams ∧ ∀ s, streams[done.length]? = some s → part <+: s := by
  induction done generalizing streams
  case nil =>
    refine ⟨List.nil_prefix, fun s hs => ?_⟩
    obtain ⟨ss, rfl⟩ : ∃ ss, streams = s :: ss := by
      cases streams <;> simp_all
    exact (ended s List.mem_cons_self).prefix_of_unmarked unmarked h
  case cons d done ih =>
    have ⟨hd, finished⟩ := List.forall_mem_cons.mp finished
    obtain ⟨us, h⟩ := h
    rw [List.flatten_cons, List.append_assoc, List.append_assoc] at h
    cases streams
    case nil => exact absurd (List.append_eq_nil_iff.mp h).left hd.ne_nil
    case cons s streams =>
      have ⟨hs, ended⟩ := List.forall_mem_cons.mp ended
      have ⟨he, h⟩ := Ended.append_inj hd hs h
      have ⟨hdone, hpart⟩ := ih finished ended ⟨us, by rw [List.append_assoc, h]⟩
      exact ⟨List.cons_prefix_cons.mpr ⟨he, hdone⟩, by simpa using hpart⟩

theorem Ended.eq_of_flatten_eq {ss us : List (List Chunk)} (hs : ∀ s ∈ ss.dropLast, Ended s)
    (hu : ∀ u ∈ us.dropLast, Ended u) (length : ss.length = us.length)
    (h : ss.flatten = us.flatten) : ss = us :=
  eq_of_flatMap_eq (f := id) (fun _ _ h => h)
    (fun _ _ _ _ ha hb h => (ha.append_inj hb h).left) hs hu length (by simpa using h)

variable {α σ κ : Type} {taken : α → List Chunk} {ended : Prop} {entries : List α} {j : Nat} {a : α}

-- The entries have one stream each, and each stream ends where its last chunk says so. That of the
-- last entry may be unfinished, unless `ended` holds.
def Framed (taken : α → List Chunk) (ended : Prop) (entries : List α) : Prop :=
  ∃ done current, entries = done ++ current ∧ current.length ≤ 1 ∧
    (∀ a ∈ done, Ended (taken a)) ∧ (∀ a ∈ current, ∀ c ∈ taken a, c.last = false) ∧
    (ended → current = [])

theorem Framed.filter {p : α → Bool} {done current : List α} (single : current.length ≤ 1)
    (finished : ∀ a ∈ done, p a = true → Ended (taken a))
    (unmarked : ∀ a ∈ current, p a = true → ∀ c ∈ taken a, c.last = false)
    (off : ended → ∀ a ∈ current, p a = false) :
    Framed taken ended ((done ++ current).filter p) := by
  refine ⟨done.filter p, current.filter p, List.filter_append .., ?single, fun a ha => ?finished,
    fun a ha => ?unmarked, fun h => ?off⟩
  case single   => exact Nat.le_trans (List.length_filter_le _ _) single
  case finished => exact finished a (List.mem_filter.mp ha).left (List.mem_filter.mp ha).right
  case unmarked => exact unmarked a (List.mem_filter.mp ha).left (List.mem_filter.mp ha).right
  case off      => exact List.filter_eq_nil_iff.mpr fun a ha => by simp [off h a ha]

theorem Framed.dropLast (h : Framed taken ended entries) :
    ∀ a ∈ entries.dropLast, Ended (taken a) := by
  obtain ⟨done, current, rfl, single, finished, _⟩ := h
  obtain rfl | ⟨current, a, rfl⟩ := current.eq_nil_or_concat
  case inl => exact fun a ha => finished a (by simpa using List.mem_of_mem_dropLast ha)
  case inr =>
    obtain rfl : current = [] := List.eq_nil_of_length_eq_zero (by simpa using single)
    simpa using finished

theorem Framed.stream_eq (h : Framed taken ended entries) (supplied : ∀ s ∈ streams, Ended s)
    (data : entries.flatMap taken <+: streams.flatten) (hj : entries[j]? = some a)
    (hs : streams[j]? = some s) :
    taken a <+: s ∧ (j + 1 < entries.length ∨ ended → taken a = s) := by
  obtain ⟨done, current, rfl, single, finished, unmarked, off⟩ := h
  have data : (done.map taken).flatten ++ current.flatMap taken <+: streams.flatten := by
    simpa [List.flatMap_def] using data
  have unmarked : ∀ c ∈ current.flatMap taken, c.last = false := fun c hc => by
    have ⟨a, ha, hc⟩ := List.mem_flatMap.mp hc
    exact unmarked a ha c hc
  have ⟨hdone, hcurrent⟩ :=
    Ended.prefix_of_flatten (List.forall_mem_map.mpr finished) supplied unmarked data
  by_cases hlt : j < done.length
  case pos =>
    rw [List.getElem?_append_left hlt] at hj
    have hs' := getElem?_of_prefix hdone (by rw [List.getElem?_map, hj]; rfl)
    obtain rfl : s = taken a := Option.some.inj (hs.symm.trans hs')
    exact ⟨List.prefix_rfl, fun _ => rfl⟩
  case neg =>
    rw [List.getElem?_append_right (Nat.le_of_not_lt hlt)] at hj
    obtain ⟨hlt', rfl⟩ := List.getElem?_eq_some_iff.mp hj
    obtain ⟨b, rfl⟩ := List.length_eq_one_iff.mp (Nat.le_antisymm single (by omega))
    obtain rfl : j = done.length := by
      rw [List.length_singleton] at hlt'
      omega
    refine ⟨by simpa using hcurrent s (by simpa using hs), fun more => ?_⟩
    obtain more | ended := more
    case inl => simp at more
    case inr => cases off ended

-- Of what was supplied, each time with a key and a stream, the first ones were taken up, all to
-- their ends but for the last one.
theorem Framed.aligned {key : α → κ} {key' : σ → κ} {stream : σ → List Chunk} {supply : List σ}
    (h : Framed taken ended entries) (supplied : ∀ s ∈ supply, Ended (stream s))
    (keys : entries.map key <+: supply.map key')
    (data : entries.flatMap taken <+: supply.flatMap stream) (hj : entries[j]? = some a) :
    ∃ s, supply[j]? = some s ∧ key a = key' s ∧ taken a <+: stream s ∧
      (j + 1 < entries.length ∨ ended → taken a = stream s) := by
  have hkey := getElem?_of_prefix keys (by rw [List.getElem?_map, hj]; rfl)
  rw [List.getElem?_map, Option.map_eq_some_iff] at hkey
  obtain ⟨s, hs, hkey⟩ := hkey
  exact ⟨s, hs, hkey.symm, h.stream_eq (List.forall_mem_map.mpr supplied)
    (by rwa [← List.flatMap_def]) hj (by rw [List.getElem?_map, hs]; rfl)⟩

end Tcp

end ShellInterface
