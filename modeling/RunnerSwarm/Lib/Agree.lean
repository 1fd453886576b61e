import RunnerSwarm.Lib.Program

/-!
# Two runs of a program that differ in one cell

A `Cell` of a state is a part of it that may be overwritten behind a program's back. `Same` relates
two states that agree in whatever else matters.

* `Agree R p q`: from states that are the same, `p` and `q` make the same changes call by call and
  their results are related by `R`, whatever is in the cell at each call. A change may leave the cell
  alone or overwrite it with a fixed value;
* `Agree.bind` and its companions are the rules by which a program is shown to agree with itself;
* `Quiet`, `Writes`: programs that do not matter, but for one write of the cell.
-/

namespace RunnerSwarm

/-- A cell of a state, and when two states agree in the rest. -/
structure Cell (σ V : Type) where
  cell : σ → V
  Same : σ → σ → Prop
  equivalence : Equivalence Same

namespace Cell

variable {σ ε α β V : Type} (c : Cell σ V)

theorem refl (s : σ) : c.Same s s := c.equivalence.refl s

variable {c} in
theorem Same.symm {s t : σ} (h : c.Same s t) : c.Same t s := c.equivalence.symm h

variable {c} in
theorem Same.trans {s t u : σ} (h : c.Same s t) (h' : c.Same t u) : c.Same s u :=
  c.equivalence.trans h h'

/-- A change that does not look at the cell: it leaves it alone or overwrites it. -/
structure Neat (f : σ → σ) : Prop where
  same : ∀ s t, c.Same s t → c.Same (f s) (f t)
  cell : (∀ s, c.cell (f s) = c.cell s) ∨ ∃ v, ∀ s, c.cell (f s) = v

/-- The programs make the same changes whatever is in the cell, with related results. -/
inductive Agree {α β : Type} (R : α → β → Prop) : Program σ ε α → Program σ ε β → Prop
  | done {a : α} {b : β} (h : R a b) : Agree R (.done a) (.done b)
  | fail (e : ε) : Agree R (.fail e) (.fail e)
  | call {f : σ → σ} {k : σ → Program σ ε α} {l : σ → Program σ ε β} (hf : c.Neat f)
      (h : ∀ s t, c.Same s t → Agree R (k s) (l t)) : Agree R (.call f k) (.call f l)

/-- Related results. -/
inductive Outcomes {α β : Type} (R : α → β → Prop) : Except ε α → Except ε β → Prop
  | ok {a : α} {b : β} (h : R a b) : Outcomes R (.ok a) (.ok b)
  | error (e : ε) : Outcomes R (.error e) (.error e)

/-- A program whose calls change nothing that matters. -/
inductive Quiet (a : α) : Program σ ε α → Prop
  | done : Quiet a (.done a)
  | call {f : σ → σ} {k : σ → Program σ ε α} (same : ∀ s, c.Same s (f s))
      (kept : ∀ s, c.cell (f s) = c.cell s) (h : ∀ s, Quiet a (k s)) : Quiet a (.call f k)

/-- A program that writes the cell with its first call, and returns `a`. -/
inductive Writes (v : V) (a : α) : Program σ ε α → Prop
  | call {f : σ → σ} {k : σ → Program σ ε α} (same : ∀ s, c.Same s (f s))
      (write : ∀ s, c.cell (f s) = v) (h : ∀ s, c.Quiet a (k s)) : Writes v a (.call f k)

variable {c}

theorem Neat.id : c.Neat id := ⟨fun _ _ h => h, .inl fun _ => rfl⟩

namespace Agree

variable {R : α → α → Prop}

theorem bind {β γ δ : Type} {R : α → γ → Prop} {Q : β → δ → Prop} {p : Program σ ε α}
    {q : Program σ ε γ} {k : α → Program σ ε β} {l : γ → Program σ ε δ} (hp : c.Agree R p q)
    (hk : ∀ a b, R a b → c.Agree Q (k a) (l b)) : c.Agree Q (p >>= k) (q >>= l) := by
  induction hp with
  | done h => exact hk _ _ h
  | fail e => exact .fail e
  | call hf _ ih => exact .call hf fun s t hst => ih s t hst

theorem pure {R : α → β → Prop} {a : α} {b : β} (h : R a b) :
    c.Agree R (Pure.pure a : Program σ ε α) (Pure.pure b) := .done h

theorem get {R : α → α → Prop} {f : σ → α} (h : ∀ s t, c.Same s t → R (f s) (f t)) :
    c.Agree R (Program.get f : Program σ ε α) (Program.get f) :=
  .call Neat.id fun s t hst => .done (h s t hst)

theorem set {f : σ → σ} (hf : c.Neat f) :
    c.Agree Eq (Program.set f : Program σ ε Unit) (Program.set f) :=
  .call hf fun _ _ _ => .done rfl

theorem ofExcept {R : α → β → Prop} {x : Except ε α} {y : Except ε β} (h : Outcomes R x y) :
    c.Agree R (Program.ofExcept x : Program σ ε α) (Program.ofExcept y) := by
  cases h with
  | ok h => exact .done h
  | error e => exact .fail e

/-- What is followed by the same computation. -/
theorem bindSame {R : β → β → Prop} {p : Program σ ε α} {k l : α → Program σ ε β}
    (hp : c.Agree Eq p p) (hk : ∀ a, c.Agree R (k a) (l a)) : c.Agree R (p >>= k) (p >>= l) := by
  refine bind hp fun a b hab => ?_
  subst hab
  exact hk a

theorem ofExceptSame (x : Except ε α) :
    c.Agree Eq (Program.ofExcept x : Program σ ε α) (Program.ofExcept x) := by
  cases x with
  | ok a => exact .done rfl
  | error e => exact .fail e

/-- **Runs from states that are the same** have related results. -/
theorem run {R : α → β → Prop} {p : Program σ ε α} {q : Program σ ε β} (h : c.Agree R p q) {s t : σ}
    (hst : c.Same s t) : Outcomes R (p.run s).1 (q.run t).1 := by
  induction h generalizing s t with
  | done h => exact .ok h
  | fail e => exact .error e
  | call hf _ ih => exact ih s t hst (hf.same s t hst)

end Agree

/-- **A quiet program** changes nothing that matters, and returns its answer. -/
theorem Quiet.run {a : α} {p : Program σ ε α} (h : c.Quiet a p) (s : σ) :
    (p.run s).1 = .ok a ∧ c.Same s (p.run s).2 ∧ c.cell (p.run s).2 = c.cell s := by
  induction h generalizing s with
  | done => exact ⟨rfl, c.refl s, rfl⟩
  | call same kept _ ih =>
    obtain ⟨hresult, hsame, hcell⟩ := ih s _
    exact ⟨hresult, (same s).trans hsame, hcell.trans (kept s)⟩

theorem Writes.run {v : V} {a : α} {p : Program σ ε α} (h : c.Writes v a p) (s : σ) :
    (p.run s).1 = .ok a ∧ c.Same s (p.run s).2 ∧ c.cell (p.run s).2 = v := by
  cases h with
  | call same write h =>
    obtain ⟨hresult, hsame, hcell⟩ := (h s).run _
    exact ⟨hresult, (same s).trans hsame, hcell.trans (write s)⟩

end Cell

end RunnerSwarm
