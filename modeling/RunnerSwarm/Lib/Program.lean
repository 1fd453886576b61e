import Mathlib.Tactic

/-!
# Programs of atomic calls

A `Program σ ε α` is a computation that shares a state `σ` with others: it makes calls, raises an
`ε` or returns an `α`, and whatever else happens may happen between two of its calls. A call reads
the state and changes it in one step; what follows depends on the state it read.

* `run` is the program on its own; `run_bind` says what a sequence of two programs does;
* `Changes W p` says that every call of `p` that is not a mere read satisfies `W`, and
  `run_related` is the frame rule: what relates the state before and after each change relates it
  before and after the run;
* `next` is one call of the program, for interleavings.
-/

namespace RunnerSwarm

/-- A computation over a shared state. -/
inductive Program (σ ε α : Type)
  | done (a : α)
  | fail (e : ε)
  /-- Change the state by `f`, and go on with what the state was before. -/
  | call (f : σ → σ) (k : σ → Program σ ε α)

namespace Program

variable {σ ε α β : Type}

/-- Run `p`, then `k` on its result. -/
protected def bind : Program σ ε α → (α → Program σ ε β) → Program σ ε β
  | done a, k => k a
  | fail e, _ => fail e
  | call f r, k => call f fun s => (r s).bind k

instance : Monad (Program σ ε) where
  pure := done
  bind := Program.bind

/-- What a pure computation returns or raises. -/
def ofExcept : Except ε α → Program σ ε α
  | .ok a => done a
  | .error e => fail e

/-- A call that returns part of the state. -/
def get (f : σ → α) : Program σ ε α := call id fun s => done (f s)

/-- A call that changes the state. -/
def set (f : σ → σ) : Program σ ε Unit := call f fun _ => done ()

/-- `try: p finally: f`. -/
def ensure (f : σ → σ) : Program σ ε α → Program σ ε α
  | done a => call f fun _ => done a
  | fail e => call f fun _ => fail e
  | call g k => call g fun s => (k s).ensure f

/-- The program on its own. -/
def run : Program σ ε α → σ → Except ε α × σ
  | done a, s => (.ok a, s)
  | fail e, s => (.error e, s)
  | call f k, s => (k s).run (f s)

@[simp] theorem run_pure (a : α) (s : σ) : (pure a : Program σ ε α).run s = (.ok a, s) := rfl

@[simp] theorem run_done (a : α) (s : σ) : (done a : Program σ ε α).run s = (.ok a, s) := rfl

@[simp] theorem run_fail (e : ε) (s : σ) : (fail e : Program σ ε α).run s = (.error e, s) := rfl

@[simp] theorem run_get (f : σ → α) (s : σ) : (get f : Program σ ε α).run s = (.ok (f s), s) := rfl

@[simp] theorem run_set (f : σ → σ) (s : σ) : (set f : Program σ ε Unit).run s = (.ok (), f s) := rfl

@[simp] theorem run_ofExcept (x : Except ε α) (s : σ) :
    (ofExcept x : Program σ ε α).run s = (x, s) := by
  cases x <;> rfl

/-- **A sequence of two programs.** -/
theorem run_bind (p : Program σ ε α) (k : α → Program σ ε β) (s : σ) :
    (p >>= k).run s = match p.run s with
      | (.ok a, t) => (k a).run t
      | (.error e, t) => (.error e, t) := by
  induction p generalizing s with
  | done a => rfl
  | fail e => rfl
  | call f r ih => exact ih s (f s)

@[simp] theorem run_get_bind (f : σ → α) (k : α → Program σ ε β) (s : σ) :
    (get f >>= k).run s = (k (f s)).run s := rfl

@[simp] theorem run_set_bind (f : σ → σ) (k : Unit → Program σ ε β) (s : σ) :
    (set f >>= k).run s = (k ()).run (f s) := rfl

theorem run_ofExcept_bind (x : Except ε α) (k : α → Program σ ε β) (s : σ) :
    (ofExcept x >>= k).run s = match x with
      | .ok a => (k a).run s
      | .error e => (.error e, s) := by
  cases x <;> rfl

/-! ### Frames -/

/-- Every call of the program only reads or satisfies `W`. -/
inductive Changes (W : (σ → σ) → Prop) : Program σ ε α → Prop
  | done (a : α) : Changes W (done a)
  | fail (e : ε) : Changes W (fail e)
  | call {f : σ → σ} {k : σ → Program σ ε α} :
      f = id ∨ W f → (∀ s, Changes W (k s)) → Changes W (call f k)

namespace Changes

variable {W : (σ → σ) → Prop}

theorem pure (a : α) : Changes W (Pure.pure a : Program σ ε α) := .done a

theorem bind {p : Program σ ε α} {k : α → Program σ ε β} (hp : Changes W p)
    (hk : ∀ a, Changes W (k a)) : Changes W (p >>= k) := by
  induction hp with
  | done a => exact hk a
  | fail e => exact .fail e
  | call hf _ ih => exact .call hf ih

theorem get (f : σ → α) : Changes W (Program.get f : Program σ ε α) :=
  .call (.inl rfl) fun s => .done (f s)

theorem set {f : σ → σ} (hf : W f) : Changes W (Program.set f : Program σ ε Unit) :=
  .call (.inr hf) fun _ => .done ()

theorem ofExcept (x : Except ε α) : Changes W (Program.ofExcept x : Program σ ε α) := by
  cases x with
  | error e => exact .fail e
  | ok a => exact .done a

theorem ensure {f : σ → σ} {p : Program σ ε α} (hf : W f) (hp : Changes W p) :
    Changes W (p.ensure f) := by
  induction hp with
  | done a => exact .call (.inr hf) fun _ => .done a
  | fail e => exact .call (.inr hf) fun _ => .fail e
  | call hg _ ih => exact .call hg ih

theorem mono {V : (σ → σ) → Prop} {p : Program σ ε α} (h : ∀ f, V f → W f) (hp : Changes V p) :
    Changes W p := by
  induction hp with
  | done a => exact .done a
  | fail e => exact .fail e
  | call hf _ ih => exact .call (hf.imp_right (h _)) ih

end Changes

/-- **Frame rule.** -/
theorem run_related {R : σ → σ → Prop} [Std.Refl R] [IsTrans σ R] {p : Program σ ε α}
    (h : Changes (fun f => ∀ s, R s (f s)) p) (s : σ) : R s (p.run s).2 := by
  induction h generalizing s with
  | done a => exact Std.Refl.refl s
  | fail e => exact Std.Refl.refl s
  | @call f k hf _ ih =>
    have hstep : R s (f s) := by
      rcases hf with rfl | hf
      · exact Std.Refl.refl s
      · exact hf s
    exact Trans.trans hstep (ih s (f s))

/-! ### Single calls -/

/-- One call; `none` when the program has ended. -/
def next : Program σ ε α → σ → Option (Program σ ε α × σ)
  | done _, _ => none
  | fail _, _ => none
  | call f k, s => some (k s, f s)

/-- What the program has returned or raised, once it has ended. -/
def outcome : Program σ ε α → Option (Except ε α)
  | done a => some (.ok a)
  | fail e => some (.error e)
  | call _ _ => none

theorem run_of_outcome {p : Program σ ε α} {x : Except ε α} (h : p.outcome = some x) (s : σ) :
    p.run s = (x, s) := by
  cases p with
  | done a =>
    obtain rfl := Option.some.inj h
    rfl
  | fail e =>
    obtain rfl := Option.some.inj h
    rfl
  | call f k => cases h

theorem Changes.next {W : (σ → σ) → Prop} {p q : Program σ ε α} {s t : σ} (hp : Changes W p)
    (h : p.next s = some (q, t)) : Changes W q ∧ (t = s ∨ ∃ f, W f ∧ t = f s) := by
  cases hp with
  | done a => cases h
  | fail e => cases h
  | call hf hk =>
    obtain ⟨rfl, rfl⟩ := Prod.mk.inj (Option.some.inj h)
    refine ⟨hk s, ?_⟩
    rcases hf with rfl | hf
    · exact .inl rfl
    · exact .inr ⟨_, hf, rfl⟩

end Program

end RunnerSwarm
