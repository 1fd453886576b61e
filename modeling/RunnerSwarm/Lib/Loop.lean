import Mathlib.Tactic

/-!
# Loops that may raise

A `for` loop whose body may raise is `List.foldlM` in `Except`. `foldlM_rule` is its invariant
rule: the invariant speaks of the elements already processed and of the loop's variables.
-/

namespace RunnerSwarm

universe u

variable {ε α : Type*} {σ τ : Type u} {f : σ → α → Except ε σ}

/-- What a sequence of two statements did when it did not raise. -/
theorem bind_eq_ok {x : Except ε σ} {g : σ → Except ε τ} {b : τ} (h : x >>= g = .ok b) :
    ∃ a, x = .ok a ∧ g a = .ok b := by
  cases x with
  | error e => cases h
  | ok a => exact ⟨a, rfl, h⟩

/-- A sequence of two statements ends normally when both do. -/
theorem bind_ok_iff {x : Except ε σ} {g : σ → Except ε τ} :
    (∃ b, x >>= g = .ok b) ↔ ∃ a, x = .ok a ∧ ∃ b, g a = .ok b := by
  constructor
  · rintro ⟨b, h⟩
    obtain ⟨a, ha, hb⟩ := bind_eq_ok h
    exact ⟨a, ha, b, hb⟩
  · rintro ⟨a, rfl, b, hb⟩
    exact ⟨b, hb⟩

/-- A loop that collects ends normally when every element does. -/
theorem mapM_ok_iff {β : Type u} {g : α → Except ε β} {l : List α} :
    (∃ bs, l.mapM g = .ok bs) ↔ ∀ a ∈ l, ∃ b, g a = .ok b := by
  induction l with
  | nil => exact ⟨fun _ a ha => absurd ha List.not_mem_nil, fun _ => ⟨[], rfl⟩⟩
  | cons a l ih =>
    rw [List.mapM_cons, bind_ok_iff, List.forall_mem_cons, ← ih]
    constructor
    · rintro ⟨b, hb, _, h⟩
      obtain ⟨bs, hbs, -⟩ := bind_eq_ok h
      exact ⟨⟨b, hb⟩, bs, hbs⟩
    · rintro ⟨⟨b, hb⟩, bs, hbs⟩
      exact ⟨b, hb, b :: bs, by rw [hbs]; rfl⟩

/-- What such a loop has collected, element by element. -/
theorem forall₂_of_mapM {β : Type u} {g : α → Except ε β} {l : List α} {bs : List β}
    (h : l.mapM g = .ok bs) : List.Forall₂ (fun a b => g a = .ok b) l bs := by
  induction l generalizing bs with
  | nil =>
    obtain rfl := Except.ok.inj h
    exact .nil
  | cons a l ih =>
    rw [List.mapM_cons] at h
    obtain ⟨b, hb, h⟩ := bind_eq_ok h
    obtain ⟨rest, hrest, h⟩ := bind_eq_ok h
    obtain rfl := Except.ok.inj h
    exact .cons hb (ih hrest)

/-- A loop that collects what no element raises at. -/
theorem mapM_eq_ok {β : Type u} {g : α → Except ε β} {f : α → β} {l : List α}
    (h : ∀ a ∈ l, g a = .ok (f a)) : l.mapM g = .ok (l.map f) := by
  induction l with
  | nil => rfl
  | cons a l ih =>
    obtain ⟨ha, hl⟩ := List.forall_mem_cons.1 h
    rw [List.mapM_cons, ha, ih hl]
    rfl

/-- Every element of the second list has a partner in the first. -/
theorem exists_mem_of_forall₂ {β : Type*} {R : α → β → Prop} {l : List α} {m : List β}
    (h : List.Forall₂ R l m) {b : β} (hb : b ∈ m) : ∃ a ∈ l, R a b := by
  induction h with
  | nil => cases hb
  | cons hab _ ih =>
    rcases List.mem_cons.1 hb with rfl | hb
    · exact ⟨_, List.mem_cons_self, hab⟩
    · obtain ⟨a, ha, h⟩ := ih hb
      exact ⟨a, List.mem_cons_of_mem _ ha, h⟩

/-- Every element of the first list has a partner in the second. -/
theorem exists_mem_of_forall₂_left {β : Type*} {R : α → β → Prop} {l : List α} {m : List β}
    (h : List.Forall₂ R l m) {a : α} (ha : a ∈ l) : ∃ b ∈ m, R a b :=
  exists_mem_of_forall₂ h.flip ha

/-! ### Exceptions of a kind -/

/-- The computation raises an exception of a kind. -/
def Raises (bad : ε → Prop) (x : Except ε σ) : Prop := ∃ e, x = .error e ∧ bad e

variable {bad : ε → Prop}

@[simp] theorem not_raises_ok (a : σ) : ¬ Raises bad (.ok a) := fun ⟨_, h, _⟩ => by cases h

@[simp] theorem raises_error {e : ε} : Raises bad (.error e : Except ε σ) ↔ bad e :=
  ⟨fun ⟨_, h, he⟩ => Except.error.inj h ▸ he, fun h => ⟨e, rfl, h⟩⟩

/-- A sequence of two statements raises where the first one does, or else where the second does. -/
theorem raises_bind_iff {x : Except ε σ} {g : σ → Except ε τ} :
    Raises bad (x >>= g) ↔ Raises bad x ∨ ∃ a, x = .ok a ∧ Raises bad (g a) := by
  cases x with
  | error e =>
    constructor
    · exact fun ⟨e', h, he⟩ => Or.inl ⟨e, rfl, Except.error.inj h ▸ he⟩
    · rintro (⟨e', h, he⟩ | ⟨a, h, _⟩)
      · exact ⟨e, rfl, Except.error.inj h ▸ he⟩
      · cases h
  | ok a =>
    constructor
    · exact fun h => Or.inr ⟨a, rfl, h⟩
    · rintro (h | ⟨b, h, hb⟩)
      · exact absurd h (not_raises_ok a)
      · obtain rfl := Except.ok.inj h
        exact hb

/-- A loop that collects raises at the first element that does not go through. -/
theorem raises_mapM_iff {β : Type u} {g : α → Except ε β} {l : List α} :
    Raises bad (l.mapM g) ↔ ∃ before a after, l = before ++ a :: after ∧
      (∀ b ∈ before, ∃ c, g b = .ok c) ∧ Raises bad (g a) := by
  induction l with
  | nil =>
    refine iff_of_false (not_raises_ok _) fun ⟨before, a, after, h, _⟩ => ?_
    simp at h
  | cons a l ih =>
    rw [List.mapM_cons, raises_bind_iff]
    constructor
    · rintro (ha | ⟨c, hc, hrest⟩)
      · exact ⟨[], a, l, rfl, fun b hb => (by cases hb), ha⟩
      · rcases raises_bind_iff.1 hrest with hrest | ⟨cs, -, hpure⟩
        · obtain ⟨before, b, after, rfl, hbefore, hb⟩ := ih.1 hrest
          exact ⟨a :: before, b, after, rfl, List.forall_mem_cons.2 ⟨⟨c, hc⟩, hbefore⟩, hb⟩
        · exact absurd hpure (not_raises_ok _)
    · rintro ⟨before, b, after, hl, hbefore, hb⟩
      cases before with
      | nil =>
        obtain ⟨rfl, rfl⟩ := List.cons.inj hl
        exact Or.inl hb
      | cons d before =>
        obtain ⟨rfl, rfl⟩ := List.cons.inj hl
        obtain ⟨⟨c, hc⟩, hbefore⟩ := List.forall_mem_cons.1 hbefore
        exact Or.inr ⟨c, hc, raises_bind_iff.2
          (Or.inl (ih.2 ⟨before, b, after, rfl, hbefore, hb⟩))⟩

/-! ### Loops with a state -/

theorem foldlM_cons_eq_ok {a : α} {l : List α} {s t : σ} (h : (a :: l).foldlM f s = .ok t) :
    ∃ u, f s a = .ok u ∧ l.foldlM f u = .ok t := by
  rw [List.foldlM_cons] at h
  exact bind_eq_ok h

/-- Loops whose bodies do the same with every element. -/
theorem foldlM_congr {g : σ → α → Except ε σ} {l : List α} (h : ∀ a ∈ l, ∀ s, f s a = g s a)
    (s : σ) : l.foldlM f s = l.foldlM g s := by
  induction l generalizing s with
  | nil => rfl
  | cons a l ih =>
    obtain ⟨ha, hl⟩ := List.forall_mem_cons.1 h
    rw [List.foldlM_cons, List.foldlM_cons, ha s]
    exact bind_congr fun t => ih hl t

/-- A loop ends normally when its body always does. -/
theorem exists_foldlM {l : List α} (hf : ∀ s, ∀ a ∈ l, ∃ t, f s a = .ok t) (s : σ) :
    ∃ t, l.foldlM f s = .ok t := by
  induction l generalizing s with
  | nil => exact ⟨s, rfl⟩
  | cons a l ih =>
    obtain ⟨u, hu⟩ := hf s a List.mem_cons_self
    obtain ⟨t, ht⟩ := ih (fun s b hb => hf s b (List.mem_cons_of_mem a hb)) u
    refine ⟨t, ?_⟩
    rw [List.foldlM_cons, hu]
    exact ht

/-- **Invariant rule** for a loop that ended normally. -/
theorem foldlM_rule {l : List α} {s t : σ} (I : List α → σ → Prop) (hs : I [] s)
    (hstep : ∀ done a u v, I done u → a ∈ l → f u a = .ok v → I (done ++ [a]) v)
    (h : l.foldlM f s = .ok t) : I l t := by
  have key : ∀ (rest done : List α) (u : σ), I done u → rest ⊆ l →
      rest.foldlM f u = .ok t → I (done ++ rest) t := by
    intro rest
    induction rest with
    | nil =>
      intro done u hu _ hrun
      obtain rfl := Except.ok.inj hrun
      rwa [List.append_nil]
    | cons a rest ih =>
      intro done u hu hsub hrun
      obtain ⟨v, hv, hrest⟩ := foldlM_cons_eq_ok hrun
      have hnext := ih (done ++ [a]) v (hstep done a u v hu (hsub (by simp)) hv)
        (fun b hb => hsub (List.mem_cons_of_mem a hb)) hrest
      rwa [List.append_assoc] at hnext
  simpa using key l [] s hs (List.Subset.refl l) h

end RunnerSwarm
