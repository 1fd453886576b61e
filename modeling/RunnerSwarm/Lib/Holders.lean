import Mathlib.Tactic

/-!
# Totals over finitely many holders

Each of finitely many holders `i : ι` has a state `f i : τ`, and `w : τ → ℕ` says how many units
of a shared resource that state stands for. One holder moves at a time, so what matters is how
`total w f` changes when `f` is updated at one place.

* `total_update_add` is the exact balance, without a subtraction;
* `total_update_eq`, `total_update_more` and `total_update_less` are its three uses;
* `le_total` bounds the share of one holder.

`sum_map_update_succ` is the same balance for holders that are listed by distinct names,
`sum_filter_key` finds what one of them has, and `sum_owned` says that holders who own every item
of a list between them have what the list has.
-/

namespace RunnerSwarm

variable {ι τ : Type*} [Fintype ι]

/-- The units all holders have together. -/
def total (w : τ → ℕ) (f : ι → τ) : ℕ := ∑ i, w (f i)

theorem le_total (w : τ → ℕ) (f : ι → τ) (i : ι) : w (f i) ≤ total w f :=
  Finset.single_le_sum (f := fun i => w (f i)) (fun _ _ => Nat.zero_le _) (Finset.mem_univ i)

theorem total_le_total {w w' : τ → ℕ} {f : ι → τ} (h : ∀ i, w (f i) ≤ w' (f i)) :
    total w f ≤ total w' f := Finset.sum_le_sum fun i _ => h i

theorem total_eq_zero {w : τ → ℕ} {f : ι → τ} (h : ∀ i, w (f i) = 0) : total w f = 0 :=
  Finset.sum_eq_zero fun i _ => h i

variable [DecidableEq ι]

/-- The balance of an update at one holder. -/
theorem total_update_add (w : τ → ℕ) (f : ι → τ) (i : ι) (t : τ) :
    total w (Function.update f i t) + w (f i) = total w f + w t := by
  have hnew := Finset.add_sum_erase Finset.univ (fun j => w (Function.update f i t j))
    (Finset.mem_univ i)
  have hold := Finset.add_sum_erase Finset.univ (fun j => w (f j)) (Finset.mem_univ i)
  have hrest : ∑ j ∈ Finset.univ.erase i, w (Function.update f i t j) =
      ∑ j ∈ Finset.univ.erase i, w (f j) :=
    Finset.sum_congr rfl fun j hj => by rw [Function.update_of_ne (Finset.ne_of_mem_erase hj)]
  simp only [Function.update_self] at hnew
  unfold total
  omega

theorem total_update_more {w : τ → ℕ} {f : ι → τ} {i : ι} {t : τ} {n : ℕ}
    (h : w t = w (f i) + n) : total w (Function.update f i t) = total w f + n := by
  have := total_update_add w f i t
  omega

theorem total_update_less {w : τ → ℕ} {f : ι → τ} {i : ι} {t : τ} {n : ℕ}
    (h : w t + n = w (f i)) : total w (Function.update f i t) + n = total w f := by
  have := total_update_add w f i t
  omega

/-- One unit more for one of the listed holders. -/
theorem sum_map_update_succ {α κ : Type*} [DecidableEq κ] {key : α → κ} {l : List α}
    (hd : (l.map key).Nodup) {a : α} (ha : a ∈ l) (f : κ → ℕ) :
    (l.map fun b => Function.update f (key a) (f (key a) + 1) (key b)).sum =
      (l.map fun b => f (key b)).sum + 1 := by
  have hsum : ∀ g : κ → ℕ, (l.map fun b => g (key b)).sum = ∑ k ∈ (l.map key).toFinset, g k :=
    fun g => by
      rw [List.sum_toFinset _ hd, List.map_map]
      rfl
  have hmem : key a ∈ (l.map key).toFinset := List.mem_toFinset.2 (List.mem_map_of_mem ha)
  rw [hsum, hsum, Finset.sum_update_of_mem hmem, ← Finset.add_sum_erase _ f hmem,
    Finset.sdiff_singleton_eq_erase]
  omega

/-- One element of a list with distinct keys, found by its key. -/
theorem sum_filter_key {α κ M : Type*} [DecidableEq κ] [AddCommMonoid M] {key : α → κ} {l : List α}
    (hd : (l.map key).Nodup) {x : α} (hx : x ∈ l) (n : α → M) :
    ((l.filter fun y => key y = key x).map n).sum = n x := by
  induction l with
  | nil => cases hx
  | cons y l ih =>
    rw [List.map_cons, List.nodup_cons] at hd
    rcases List.mem_cons.1 hx with rfl | hx
    · have hrest : l.filter (fun y => decide (key y = key x)) = [] := by
        refine List.filter_eq_nil_iff.2 fun y hy hkey => hd.1 ?_
        exact of_decide_eq_true hkey ▸ List.mem_map_of_mem hy
      rw [List.filter_cons_of_pos (by simp), hrest, List.map_singleton,
        List.sum_singleton]
    · have hne : key y ≠ key x := fun heq => hd.1 (heq ▸ List.mem_map_of_mem hx)
      rw [List.filter_cons_of_neg (by simpa using hne)]
      exact ih hd.2 hx

/-- Every item is counted at its owner and nowhere else. -/
theorem sum_owned {α κ M : Type*} [DecidableEq κ] [AddCommMonoid M] {names : List κ}
    (hd : names.Nodup) {owner : α → Option κ} {l : List α}
    (h : ∀ x ∈ l, ∃ n ∈ names, owner x = some n) (f : α → M) :
    (names.map fun n => ((l.filter fun x => owner x = some n).map f).sum).sum = (l.map f).sum := by
  induction l with
  | nil => simp
  | cons x l ih =>
    obtain ⟨n, hn, hx⟩ := h x List.mem_cons_self
    have hsplit : ∀ m, (((x :: l).filter fun y => owner y = some m).map f).sum =
        (if m = n then f x else 0) + ((l.filter fun y => owner y = some m).map f).sum := by
      intro m
      by_cases hm : m = n
      · rw [List.filter_cons_of_pos (by simp [hx, hm]), List.map_cons, List.sum_cons, if_pos hm]
      · rw [List.filter_cons_of_neg (by simp [hx, Ne.symm hm]), if_neg hm, zero_add]
    have hone : (names.map fun m => if m = n then f x else 0).sum = f x := by
      rw [List.sum_map_eq_nsmul_single n _ fun m hm _ => if_neg hm, if_pos rfl,
        List.count_eq_one_of_mem hd hn, one_nsmul]
    rw [List.map_congr_left fun m _ => hsplit m, List.sum_map_add, hone, List.map_cons,
      List.sum_cons, ih fun y hy => h y (List.mem_cons_of_mem x hy)]

end RunnerSwarm
