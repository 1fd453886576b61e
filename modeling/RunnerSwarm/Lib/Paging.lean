import Mathlib.Tactic

/-!
# Lists in pages

A server hands out a list in pages, counted from 1, and a client asks for one after the other until
one is short.

* `pageOf` is a page; `take_eq_pageOf` says that the first one is the beginning of the list;
* `askPages` is the loop. It runs on fuel; `none` means that there was too little;
* `askPages_served`: when every page up to the short one is served, the loop has gone through the
  whole list. A list whose length is a multiple of the size ends in an empty page;
* `askPages_unserved`: the first page that is not served decides.
-/

namespace RunnerSwarm

universe u

variable {ε α : Type*} {σ : Type u}

/-- A page of a list. -/
def pageOf (size : ℕ) (l : List α) (page : ℕ) : List α := (l.drop (size * (page - 1))).take size

/-- The last page, the first short one. -/
def lastPage (size : ℕ) (l : List α) : ℕ := l.length / size + 1

/-- Asks for pages until one is short; `step` is done for each element. A page that cannot be had
ends the loop without a result. -/
def askPages (size : ℕ) (fetch : ℕ → Except ε (Option (List α))) (step : σ → α → σ) :
    (fuel page : ℕ) → σ → Option (Except ε (Option σ))
  | 0, _, _ => none
  | fuel + 1, page, s =>
      match fetch page with
      | .error e => some (.error e)
      | .ok none => some (.ok none)
      | .ok (some data) =>
          let s := data.foldl step s
          if data.length < size then some (.ok (some s))
          else askPages size fetch step fuel (page + 1) s

variable {size : ℕ} {l : List α}

theorem pageOf_one : pageOf size l 1 = l.take size := rfl

/-- The first page is everything exactly when the list fits on it. -/
theorem pageOf_one_eq_self_iff : pageOf size l 1 = l ↔ l.length ≤ size := by
  rw [pageOf_one, List.take_eq_self_iff]

section Loop

variable {fetch : ℕ → Except ε (Option (List α))} {step : σ → α → σ}

/-- Full pages: the loop goes on with what is left of the fuel. -/
theorem askPages_full {full : ℕ} (fuel : ℕ) (s : σ) (hlength : size * full ≤ l.length)
    (hserved : ∀ page, 1 ≤ page → page ≤ full → fetch page = .ok (some (pageOf size l page))) :
    askPages size fetch step (full + fuel) 1 s =
      askPages size fetch step fuel (full + 1) ((l.take (size * full)).foldl step s) := by
  induction full generalizing fuel with
  | zero => simp
  | succ full ih =>
    have hlong : size * full + size ≤ l.length := by rwa [Nat.mul_succ] at hlength
    have hpage := hserved (full + 1) (Nat.succ_le_succ (Nat.zero_le _)) le_rfl
    have hwhole : ¬ ((l.drop (size * full)).take size).length < size := by
      rw [List.length_take, List.length_drop]
      omega
    rw [Nat.succ_add_eq_add_succ, ih _ (by omega) fun page hone hle =>
      hserved page hone (Nat.le_succ_of_le hle)]
    conv_lhs => unfold askPages
    rw [hpage]
    simp only [pageOf, Nat.add_sub_cancel, if_neg hwhole]
    rw [← List.foldl_append, ← List.take_add, Nat.mul_succ]

/-- **A list that is served is gone through.** -/
theorem askPages_served (hsize : 0 < size) {fuel : ℕ} (s : σ)
    (hserved : ∀ page, 1 ≤ page → page ≤ lastPage size l →
      fetch page = .ok (some (pageOf size l page)))
    (hfuel : lastPage size l ≤ fuel) :
    askPages size fetch step fuel 1 s = some (.ok (some (l.foldl step s))) := by
  obtain ⟨rest, rfl⟩ := Nat.exists_eq_add_of_le hfuel
  have hlast := hserved (l.length / size + 1) (Nat.succ_le_succ (Nat.zero_le _)) le_rfl
  have hshort : ((l.drop (size * (l.length / size))).take size).length < size := by
    have hmod := Nat.div_add_mod l.length size
    have hlt := Nat.mod_lt l.length hsize
    rw [List.length_take, List.length_drop]
    omega
  unfold lastPage at hserved ⊢
  rw [Nat.add_assoc, askPages_full _ s (Nat.mul_div_le l.length size) fun page hone hle =>
    hserved page hone (Nat.le_succ_of_le hle), Nat.add_comm 1 rest]
  unfold askPages
  rw [hlast]
  simp only [pageOf, Nat.add_sub_cancel, if_pos hshort]
  rw [← List.foldl_append, ← List.take_add, List.take_of_length_le]
  have hmod := Nat.div_add_mod l.length size
  have hlt := Nat.mod_lt l.length hsize
  omega

/-- **The first page that is not served decides**: it fails, or raises. -/
theorem askPages_unserved (step : σ → α → σ) {page fuel : ℕ} (s : σ) (hpage : 1 ≤ page)
    (hlast : page ≤ lastPage size l)
    (hserved : ∀ k, 1 ≤ k → k < page → fetch k = .ok (some (pageOf size l k)))
    (hfuel : lastPage size l ≤ fuel) :
    (fetch page = .ok none → askPages size fetch step fuel 1 s = some (.ok none)) ∧
      ∀ e, fetch page = .error e → askPages size fetch step fuel 1 s = some (.error e) := by
  obtain ⟨full, rfl⟩ := Nat.exists_eq_add_of_le' hpage
  obtain ⟨rest, rfl⟩ := Nat.exists_eq_add_of_le (hlast.trans hfuel)
  have hlength : size * full ≤ l.length :=
    (Nat.mul_le_mul_left size (Nat.le_of_succ_le_succ hlast)).trans (Nat.mul_div_le _ _)
  rw [Nat.add_assoc, askPages_full _ s hlength fun k hone hle =>
    hserved k hone (Nat.lt_succ_of_le hle), Nat.add_comm 1 rest]
  unfold askPages
  constructor
  · intro hnone
    rw [hnone]
  · intro e herror
    rw [herror]

end Loop

end RunnerSwarm
