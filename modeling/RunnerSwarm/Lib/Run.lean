import Mathlib.Tactic

/-!
# Runs of a transition function

A system is a partial step function `step : σ → α → Option σ`: the action names everything that
is left open (which thread moves, what the environment answers), so that a run is determined by
the list of its actions.

* `run step s l` is the state after the actions `l`, `none` once one of them is not enabled;
* `Along step ok s l` says that every step of that run satisfies `ok`, a condition on the action
  and on the state before it;
* `run_invariant` and `run_history` are the two induction rules: the first for a property of
  states, the second for a property of a state together with the actions that led to it;
* `along_of_invariant` is for what an invariant says of each step;
* `along_iff_invariant` is for a condition that is exact;
* `notes` lists what is read off the steps of a run, and `run_notes` is the rule for a condition on
  neighbours in that list.
-/

namespace RunnerSwarm

variable {σ α : Type*}

/-- The state reached by a list of actions. -/
def run (step : σ → α → Option σ) : σ → List α → Option σ
  | s, [] => some s
  | s, a :: l => (step s a).bind fun t => run step t l

/-- Every step of the run from `s` satisfies `ok` in the state where it is taken. -/
def Along (step : σ → α → Option σ) (ok : σ → α → Prop) : σ → List α → Prop
  | _, [] => True
  | s, a :: l => ok s a ∧ ∀ t, step s a = some t → Along step ok t l

variable {step : σ → α → Option σ}

/-- Whether every step is admitted can be computed along the run. -/
instance decidableAlong {ok : σ → α → Prop} [∀ s a, Decidable (ok s a)] :
    ∀ s l, Decidable (Along step ok s l)
  | _, [] => inferInstanceAs (Decidable True)
  | s, a :: l =>
      match h : step s a with
      | none => decidable_of_iff (ok s a) ⟨fun ha => ⟨ha, fun _ ht => by rw [h] at ht; cases ht⟩,
          fun ha => ha.1⟩
      | some t =>
          have : Decidable (Along step ok t l) := decidableAlong t l
          decidable_of_iff (ok s a ∧ Along step ok t l)
            ⟨fun ha => ⟨ha.1, fun _ ht => Option.some.inj (h.symm.trans ht) ▸ ha.2⟩,
              fun ha => ⟨ha.1, ha.2 t h⟩⟩

@[simp] theorem run_nil (s : σ) : run step s [] = some s := rfl

@[simp] theorem run_cons (s : σ) (a : α) (l : List α) :
    run step s (a :: l) = (step s a).bind fun t => run step t l := rfl

theorem run_append (s : σ) (l m : List α) :
    run step s (l ++ m) = (run step s l).bind fun t => run step t m := by
  induction l generalizing s with
  | nil => rfl
  | cons a l ih =>
    rw [List.cons_append, run_cons, run_cons]
    cases step s a with
    | none => rfl
    | some t => exact ih t

/-- A condition that every step meets holds along every run. -/
theorem along_of_forall {ok : σ → α → Prop} (h : ∀ s a, ok s a) (s : σ) (l : List α) :
    Along step ok s l := by
  induction l generalizing s with
  | nil => trivial
  | cons a l ih => exact ⟨h s a, fun t _ => ih t⟩

/-- A condition on the actions alone holds along the run when it holds of each action. -/
theorem along_of_actions {ok : α → Prop} {l : List α} (h : ∀ a ∈ l, ok a) (s : σ) :
    Along step (fun _ a => ok a) s l := by
  induction l generalizing s with
  | nil => trivial
  | cons a l ih =>
    exact ⟨h a (by simp), fun t _ => ih (fun b hb => h b (List.mem_cons_of_mem a hb)) t⟩

/-- Conditions that are the same at every step are the same along every run. -/
theorem along_congr {ok ok' : σ → α → Prop} (h : ∀ s a, ok s a ↔ ok' s a) (s : σ) (l : List α) :
    Along step ok s l ↔ Along step ok' s l := by
  induction l generalizing s with
  | nil => exact Iff.rfl
  | cons a l ih => exact and_congr (h s a) (forall_congr' fun t => imp_congr_right fun _ => ih t)

theorem along_mono {ok ok' : σ → α → Prop} (h : ∀ s a, ok s a → ok' s a) {s : σ} {l : List α}
    (hok : Along step ok s l) : Along step ok' s l := by
  induction l generalizing s with
  | nil => trivial
  | cons a l ih => exact ⟨h s a hok.1, fun t ht => ih (hok.2 t ht)⟩

theorem along_and {ok ok' : σ → α → Prop} {s : σ} {l : List α} (h : Along step ok s l)
    (h' : Along step ok' s l) : Along step (fun s a => ok s a ∧ ok' s a) s l := by
  induction l generalizing s with
  | nil => trivial
  | cons a l ih => exact ⟨⟨h.1, h'.1⟩, fun t ht => ih (h.2 t ht) (h'.2 t ht)⟩

theorem along_append {ok : σ → α → Prop} {s : σ} {l m : List α} :
    Along step ok s (l ++ m) ↔
      Along step ok s l ∧ ∀ t, run step s l = some t → Along step ok t m := by
  induction l generalizing s with
  | nil =>
    refine ⟨fun h => ⟨trivial, fun t ht => ?_⟩, fun h => h.2 s rfl⟩
    obtain rfl := Option.some.inj ht
    exact h
  | cons a l ih =>
    refine ⟨fun h => ⟨⟨h.1, fun u hu => (ih.1 (h.2 u hu)).1⟩, fun t ht => ?_⟩,
      fun h => ⟨h.1.1, fun u hu => ih.2 ⟨h.1.2 u hu, fun t ht => h.2 t ?_⟩⟩⟩
    · obtain ⟨u, hu, hrest⟩ := Option.bind_eq_some_iff.1 ht
      exact (ih.1 (h.2 u hu)).2 t hrest
    · rw [run_cons, hu]
      exact ht

/-- **Invariant rule.** What every admitted step preserves holds at the end of an admitted run. -/
theorem run_invariant {ok : σ → α → Prop} {I : σ → Prop}
    (hstep : ∀ s a t, I s → ok s a → step s a = some t → I t) {s t : σ} {l : List α}
    (hs : I s) (hok : Along step ok s l) (h : run step s l = some t) : I t := by
  induction l generalizing s with
  | nil =>
    obtain rfl := Option.some.inj h
    exact hs
  | cons a l ih =>
    obtain ⟨u, hu, hut⟩ := Option.bind_eq_some_iff.1 h
    exact ih (hstep s a u hs hok.1 hu) (hok.2 u hu) hut

/-- **Step rule.** What an invariant says of every admitted step holds along an admitted run. -/
theorem along_of_invariant {pre ok : σ → α → Prop} {I : σ → Prop}
    (hstep : ∀ s a t, I s → pre s a → step s a = some t → I t)
    (h : ∀ s a, I s → pre s a → ok s a) {s : σ} {l : List α} (hs : I s)
    (hl : Along step pre s l) : Along step ok s l := by
  induction l generalizing s with
  | nil => trivial
  | cons a l ih =>
    exact ⟨h s a hs hl.1, fun t ht => ih (hstep s a t hs hl.1 ht) (hl.2 t ht)⟩

/-- **Exact rule.** In a run whose steps meet `pre`, which keeps `J`, a condition that admits just
the steps after which `I` holds is met along the way when `I` holds of every state. -/
theorem along_iff_of_pre {pre ok : σ → α → Prop} {I J : σ → Prop}
    (hpre : ∀ s a t, J s → pre s a → step s a = some t → J t)
    (h : ∀ s a, J s → I s → pre s a → (ok s a ↔ ∀ t, step s a = some t → I t))
    {s : σ} {l : List α} (hJ : J s) (hI : I s) (hl : Along step pre s l) :
    Along step ok s l ↔ Along step (fun s a => ∀ t, step s a = some t → I t) s l := by
  induction l generalizing s with
  | nil => exact Iff.rfl
  | cons a l ih =>
    have hstep := h s a hJ hI hl.1
    constructor
    · rintro ⟨ha, hrest⟩
      have hkeep := hstep.1 ha
      refine ⟨hkeep, fun t ht => ?_⟩
      exact (ih (hpre s a t hJ hl.1 ht) (hkeep t ht) (hl.2 t ht)).1 (hrest t ht)
    · rintro ⟨hkeep, hrest⟩
      refine ⟨hstep.2 hkeep, fun t ht => ?_⟩
      exact (ih (hpre s a t hJ hl.1 ht) (hkeep t ht) (hl.2 t ht)).2 (hrest t ht)

/-- The same, in any run. -/
theorem along_iff_invariant {ok : σ → α → Prop} {I : σ → Prop}
    (h : ∀ s a, I s → (ok s a ↔ ∀ t, step s a = some t → I t)) {s : σ} (hs : I s) (l : List α) :
    Along step ok s l ↔ Along step (fun s a => ∀ t, step s a = some t → I t) s l :=
  along_iff_of_pre (J := fun _ => True) (fun _ _ _ _ _ _ => trivial) (fun s a _ hI _ => h s a hI)
    trivial hs (along_of_forall (fun _ _ => trivial) s l)

/-- **History rule.** As `run_invariant`, for a property of the actions taken so far and the
state they led to. -/
theorem run_history {ok : σ → α → Prop} {I : List α → σ → Prop}
    (hstep : ∀ past s a t, I past s → ok s a → step s a = some t → I (past ++ [a]) t)
    {past : List α} {s t : σ} {l : List α}
    (hs : I past s) (hok : Along step ok s l) (h : run step s l = some t) : I (past ++ l) t := by
  induction l generalizing past s with
  | nil =>
    obtain rfl := Option.some.inj h
    rwa [List.append_nil]
  | cons a l ih =>
    obtain ⟨u, hu, hut⟩ := Option.bind_eq_some_iff.1 h
    rw [List.append_cons]
    exact ih (hstep past s a u hs hok.1 hu) (hok.2 u hu) hut

/-! ### What is noted along a run -/

section Notes

variable {ε : Type*} (step) (note : σ → α → Option ε)

/-- What `note` reads off each step of a run, from the action and the state before it. -/
def notes : σ → List α → List ε
  | _, [] => []
  | s, a :: l =>
      (note s a).toList ++ match step s a with
        | none => []
        | some t => notes t l

variable {step note}

theorem notes_cons_of_some {s t : σ} {a : α} (l : List α) (h : step s a = some t) :
    notes step note s (a :: l) = (note s a).toList ++ notes step note t l := by
  rw [notes, h]

/-- **Chain rule.** As `run_invariant`, for a property of the state and of what was noted so far,
in a run where each note stands in the relation `R` to the one before it. -/
theorem run_notes {ok : σ → α → Prop} {R : ε → ε → Prop} {I : List ε → σ → Prop}
    (hstep : ∀ past s a t, I past s → ok s a → (past ++ (note s a).toList).IsChain R →
      step s a = some t → I (past ++ (note s a).toList) t)
    {past : List ε} {s t : σ} {l : List α} (hs : I past s) (hok : Along step ok s l)
    (hchain : (past ++ notes step note s l).IsChain R) (h : run step s l = some t) :
    I (past ++ notes step note s l) t := by
  induction l generalizing past s with
  | nil =>
    obtain rfl := Option.some.inj h
    rw [notes, List.append_nil]
    exact hs
  | cons a l ih =>
    obtain ⟨u, hu, hut⟩ := Option.bind_eq_some_iff.1 h
    rw [notes_cons_of_some l hu, ← List.append_assoc] at hchain ⊢
    exact ih (hstep past s a u hs hok.1 hchain.left_of_append hu) (hok.2 u hu) hchain hut

end Notes

end RunnerSwarm
