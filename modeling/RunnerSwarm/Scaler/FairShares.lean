import Mathlib.Data.Prod.Lex
import Mathlib.Data.String.Basic
import RunnerSwarm.Lib.Ordered
import RunnerSwarm.Scaler.Allocation

/-!
# The round robin is fair

`personalAllocations` runs the loop of `_tick_personal` with fuel. `AllocRuns` is the loop as it is
written, with its two exits, and `allocLoop_runs` says that it ends, with what the fuel gives.

A round lifts every repository that still needs a slot by one: before round `t` a repository has
`min needed t` slots (`AtLevel`). When the slots run out in the middle of a round, some repositories
are one slot ahead of the others and none is further ahead (`Levelled`), which is fairness.
-/

namespace RunnerSwarm

variable {ordered rest handled : List PoolInspection} {s : Allocating} {granted fuel t : ℕ}

/-! ### The loop ends -/

/-- The body of the `while` loop. -/
def oneRound (ordered : List PoolInspection) (s : Allocating) : Allocating :=
  allocRound ordered { s with allocatedInRound := false }

/-- The `while` loop, from its state to the state it ends in. -/
inductive AllocRuns (ordered : List PoolInspection) : Allocating → Allocating → Prop
  | used {s : Allocating} : s.capacity = 0 → AllocRuns ordered s s
  | broken {s : Allocating} : s.capacity ≠ 0 → (oneRound ordered s).allocatedInRound = false →
      AllocRuns ordered s (oneRound ordered s)
  | again {s s' : Allocating} : s.capacity ≠ 0 → (oneRound ordered s).allocatedInRound = true →
      AllocRuns ordered (oneRound ordered s) s' → AllocRuns ordered s s'

theorem allocLoop_used (hc : s.capacity = 0) : allocLoop ordered fuel s = s := by
  cases fuel with
  | zero => rfl
  | succ fuel => rw [allocLoop, if_pos hc]

theorem allocLoop_succ (hc : s.capacity ≠ 0) : allocLoop ordered (fuel + 1) s =
    if (oneRound ordered s).allocatedInRound then allocLoop ordered fuel (oneRound ordered s)
    else oneRound ordered s := by
  rw [allocLoop, if_neg hc]
  rfl

/-- **The loop ends**, and with a unit of fuel for every slot the model gives its result. -/
theorem allocLoop_runs (hd : (ordered.map fun i => i.pool.repo).Nodup)
    (h : AllocInv ordered granted s) (hfuel : s.capacity ≤ fuel) :
    AllocRuns ordered s (allocLoop ordered fuel s) := by
  induction fuel generalizing s with
  | zero => exact .used (Nat.le_zero.1 hfuel)
  | succ fuel ih =>
    by_cases hc : s.capacity = 0
    · rw [allocLoop_used hc]
      exact .used hc
    · rw [allocLoop_succ hc]
      have h' : AllocInv ordered granted { s with allocatedInRound := false } := ⟨h.sum, h.le⟩
      obtain ⟨hinv, -, hlt, -⟩ := allocRound_spec hd (List.Subset.refl _) h'
        (Nat.pos_of_ne_zero hc)
      by_cases hflag : (oneRound ordered s).allocatedInRound = true
      · have hless : (oneRound ordered s).capacity < s.capacity := hlt rfl hflag
        rw [if_pos hflag]
        exact .again hc hflag (ih hinv (by omega))
      · rw [if_neg hflag]
        exact .broken hc (Bool.eq_false_iff.2 hflag)

/-! ### Levels -/

/-- Every repository has what it needs, up to `t` slots. -/
def AtLevel (l : List PoolInspection) (t : ℕ) (s : Allocating) : Prop :=
  ∀ i ∈ l, s.allocations i.pool.repo = min i.needed t

/-- Every repository is at level `t` or at the next. -/
def Levelled (l : List PoolInspection) (t : ℕ) (s : Allocating) : Prop :=
  ∀ i ∈ l, min i.needed t ≤ s.allocations i.pool.repo ∧
    s.allocations i.pool.repo ≤ min i.needed (t + 1)

theorem AtLevel.levelled {l : List PoolInspection} (h : AtLevel l t s) : Levelled l t s := by
  intro i hi
  have hlevel := h i hi
  omega

theorem AtLevel.levelled_next {l : List PoolInspection} (h : AtLevel l (t + 1) s) :
    Levelled l t s := by
  intro i hi
  have hlevel := h i hi
  omega

theorem Levelled.append {l l' : List PoolInspection} (h : Levelled l t s) (h' : Levelled l' t s) :
    Levelled (l ++ l') t s := fun i hi => (List.mem_append.1 hi).elim (h i) (h' i)

/-- A slot for another repository does not matter. -/
theorem AtLevel.allocate {l : List PoolInspection} (h : AtLevel l t s) {repo : String}
    (hother : ∀ i ∈ l, i.pool.repo ≠ repo) : AtLevel l t (s.allocate repo) := by
  intro i hi
  have hsame : (s.allocate repo).allocations i.pool.repo = s.allocations i.pool.repo :=
    Function.update_of_ne (hother i hi) _ _
  rw [hsame]
  exact h i hi

/-- **A round lifts the level by one**, as far as the capacity goes. -/
theorem allocRound_level (hd : ((handled ++ rest).map fun i => i.pool.repo).Nodup)
    (hc : s.capacity ≠ 0) (hhandled : AtLevel handled (t + 1) s) (hrest : AtLevel rest t s) :
    Levelled (handled ++ rest) t (allocRound rest s) ∧
      ((allocRound rest s).capacity ≠ 0 →
        AtLevel (handled ++ rest) (t + 1) (allocRound rest s)) := by
  induction rest generalizing handled s with
  | nil =>
    rw [List.append_nil]
    exact ⟨hhandled.levelled_next, fun _ => hhandled⟩
  | cons i rest ih =>
    have hassoc : handled ++ i :: rest = (handled ++ [i]) ++ rest := by simp
    have hi : s.allocations i.pool.repo = min i.needed t := hrest i List.mem_cons_self
    have htail : AtLevel rest t s := fun j hj => hrest j (List.mem_cons_of_mem i hj)
    -- The repositories before `i` and after it are others.
    have hd' := hd
    rw [List.map_append, List.map_cons, List.nodup_append] at hd'
    have hbefore : ∀ j ∈ handled, j.pool.repo ≠ i.pool.repo := fun j hj =>
      hd'.2.2 _ (List.mem_map_of_mem hj) _ List.mem_cons_self
    have hafter : ∀ j ∈ rest, j.pool.repo ≠ i.pool.repo := fun j hj heq =>
      (List.nodup_cons.1 hd'.2.1).1 (heq ▸ List.mem_map_of_mem hj)
    unfold allocRound
    rw [hassoc] at hd ⊢
    by_cases hneed : i.needed ≤ s.allocations i.pool.repo
    · -- `i` has what it needs, at any higher level too.
      rw [if_pos hneed]
      refine ih hd hc (fun j hj => ?_) htail
      rcases List.mem_append.1 hj with hj | hj
      · exact hhandled j hj
      · rw [List.mem_singleton.1 hj]
        omega
    · rw [if_neg hneed]
      have hself : (s.allocate i.pool.repo).allocations i.pool.repo =
          s.allocations i.pool.repo + 1 := Function.update_self _ _ _
      have hlifted : AtLevel (handled ++ [i]) (t + 1) (s.allocate i.pool.repo) := by
        intro j hj
        rcases List.mem_append.1 hj with hj | hj
        · exact hhandled.allocate hbefore j hj
        · rw [List.mem_singleton.1 hj, hself]
          omega
      have htail' : AtLevel rest t (s.allocate i.pool.repo) := htail.allocate hafter
      by_cases hzero : (s.allocate i.pool.repo).capacity = 0
      · rw [if_pos hzero]
        exact ⟨hlifted.levelled_next.append htail'.levelled, fun hne => absurd hzero hne⟩
      · rw [if_neg hzero]
        exact ih hd hzero hlifted htail'

theorem oneRound_level (hd : (ordered.map fun i => i.pool.repo).Nodup) (hc : s.capacity ≠ 0)
    (h : AtLevel ordered t s) : Levelled ordered t (oneRound ordered s) ∧
      ((oneRound ordered s).capacity ≠ 0 → AtLevel ordered (t + 1) (oneRound ordered s)) :=
  @allocRound_level ordered [] { s with allocatedInRound := false } t hd hc
    (fun _ hi => absurd hi List.not_mem_nil) h

theorem allocLoop_level (hd : (ordered.map fun i => i.pool.repo).Nodup)
    (h : AtLevel ordered t s) : ∃ t, Levelled ordered t (allocLoop ordered fuel s) := by
  induction fuel generalizing s t with
  | zero => exact ⟨t, h.levelled⟩
  | succ fuel ih =>
    by_cases hc : s.capacity = 0
    · rw [allocLoop_used hc]
      exact ⟨t, h.levelled⟩
    · obtain ⟨hlevelled, hnext⟩ := oneRound_level hd hc h
      rw [allocLoop_succ hc]
      by_cases hend : (oneRound ordered s).capacity = 0
      · -- Nothing is left: the loop ends here, by one exit or by the other.
        rw [allocLoop_used hend, ite_self]
        exact ⟨t, hlevelled⟩
      · by_cases hflag : (oneRound ordered s).allocatedInRound = true
        · rw [if_pos hflag]
          exact ih (hnext hend)
        · rw [if_neg hflag]
          exact ⟨t, hlevelled⟩

/-- A repository that is left short is no more than one slot behind any other. -/
theorem Levelled.fair (h : Levelled ordered t s) {r i : PoolInspection} (hr : r ∈ ordered)
    (hi : i ∈ ordered) (hshort : s.allocations r.pool.repo < r.needed) :
    s.allocations i.pool.repo ≤ s.allocations r.pool.repo + 1 := by
  have hlow := (h r hr).1
  have hhigh := (h i hi).2
  omega

/-! ### The order of the inspections -/

/-- The key of `before`: the longest queue first, then by repository. -/
def PoolInspection.sortKey (i : PoolInspection) : ℕᵒᵈ ×ₗ String :=
  toLex (OrderDual.toDual i.queued, i.pool.repo)

theorem before_iff (a b : PoolInspection) : a.before b = true ↔ a.sortKey ≤ b.sortKey := by
  unfold PoolInspection.before PoolInspection.sortKey
  rw [Prod.Lex.toLex_le_toLex, Bool.or_eq_true, Bool.and_eq_true, Bool.not_eq_true',
    decide_eq_true_iff, decide_eq_true_iff, decide_eq_false_iff_not, not_lt]
  rfl

instance : Std.Total fun a b : PoolInspection => a.before b = true where
  total a b := by
    rw [before_iff, before_iff]
    exact LinearOrder.le_total a.sortKey b.sortKey

instance : IsTrans PoolInspection fun a b => a.before b = true where
  trans a b c := by
    rw [before_iff, before_iff, before_iff]
    exact fun hab hbc => hab.trans hbc

/-- **The inspections may finish in any order.** -/
theorem orderedInspections_perm {is is' : List PoolInspection}
    (hd : (is.map fun i => i.pool.repo).Nodup) (h : is.Perm is') :
    orderedInspections is = orderedInspections is' := by
  refine insertionSort_perm (fun a ha b hb hab hba => ?_) h
  have hkey : a.sortKey = b.sortKey := le_antisymm ((before_iff a b).1 hab) ((before_iff b a).1 hba)
  have hrepo : a.pool.repo = b.pool.repo := congrArg (fun key => (ofLex key).2) hkey
  exact List.inj_on_of_nodup_map hd ha hb hrepo

theorem personalRequest_perm (pool : PoolConfig) {is is' : List PoolInspection} (h : is.Perm is') :
    personalRequest pool is = personalRequest pool is' := by
  unfold personalRequest
  rw [(h.map _).sum_eq, (h.map PoolInspection.needed).sum_eq]

/-! ### A personal tick -/

/-- The state the loop of a personal tick ends in. -/
def allocated (is : List PoolInspection) (granted : ℕ) : Allocating :=
  allocLoop (orderedInspections is) granted ⟨fun _ => 0, granted, false⟩

theorem personalAllocations_eq (is : List PoolInspection) (granted : ℕ) :
    personalAllocations is granted =
      (orderedInspections is).map fun i =>
        (i.pool, (allocated is granted).allocations i.pool.repo) :=
  rfl

/-- A repository is given no more than it needs. -/
theorem allocated_le {is : List PoolInspection} (hd : (is.map fun i => i.pool.repo).Nodup)
    (granted : ℕ) {i : PoolInspection} (hi : i ∈ is) :
    (allocated is granted).allocations i.pool.repo ≤ i.needed := by
  have hperm : (orderedInspections is).Perm is := perm_orderedInspections is
  have hstart : AllocInv (orderedInspections is) granted ⟨fun _ => 0, granted, false⟩ :=
    ⟨by simp [Allocating.handedOut], fun i _ => Nat.zero_le _⟩
  exact (allocLoop_spec ((hperm.map _).nodup_iff.2 hd) le_rfl hstart).1.le i (hperm.symm.subset hi)

/-- **The round robin of a personal tick**, for the slots granted of those it asked for: the loop
ends, no repository gets more than it needs, the granted slots are all handed out, nobody is more
than one slot ahead of a repository that is left short, and it does not matter in which order the
inspections finished. -/
theorem personalAllocations_fair (pool : PoolConfig) (is : RepoInspections) (granted : ℕ)
    (hgranted : granted ≤ personalRequest pool is.items) :
    AllocRuns (orderedInspections is.items) ⟨fun _ => 0, granted, false⟩
        (allocated is.items granted) ∧
      (∀ i ∈ is.items, (allocated is.items granted).allocations i.pool.repo ≤ i.needed) ∧
      ((personalAllocations is.items granted).map Prod.snd).sum = granted ∧
      (∀ r ∈ is.items, (allocated is.items granted).allocations r.pool.repo < r.needed →
        ∀ i ∈ is.items, (allocated is.items granted).allocations i.pool.repo ≤
          (allocated is.items granted).allocations r.pool.repo + 1) ∧
      ∀ is', is.items.Perm is' → personalRequest pool is' = personalRequest pool is.items ∧
        personalAllocations is' granted = personalAllocations is.items granted := by
  have hperm : (orderedInspections is.items).Perm is.items := perm_orderedInspections is.items
  have hd : ((orderedInspections is.items).map fun i => i.pool.repo).Nodup :=
    (hperm.map _).nodup_iff.2 is.distinct
  have hneeded : granted ≤ (is.items.map (·.needed)).sum := hgranted.trans (min_le_right _ _)
  have hstart : AllocInv (orderedInspections is.items) granted ⟨fun _ => 0, granted, false⟩ :=
    ⟨by simp [Allocating.handedOut], fun i _ => Nat.zero_le _⟩
  have hlevel : AtLevel (orderedInspections is.items) 0 ⟨fun _ => 0, granted, false⟩ :=
    fun i _ => (Nat.min_zero i.needed).symm
  obtain ⟨t, hlevelled⟩ := @allocLoop_level _ _ granted 0 hd hlevel
  refine ⟨allocLoop_runs hd hstart le_rfl, fun i hi => ?_, personalAllocations_sum is hneeded,
    fun r hr hshort i hi => ?_, fun is' hsame => ?_⟩
  · exact allocated_le is.distinct granted hi
  · exact hlevelled.fair (hperm.symm.subset hr) (hperm.symm.subset hi) hshort
  · unfold personalAllocations
    rw [orderedInspections_perm is.distinct hsame]
    exact ⟨(personalRequest_perm pool hsame).symm, rfl⟩

/-- Two repositories with three jobs each, one of which has a runner. -/
def twoQueues : RepoInspections where
  items :=
    [⟨{ name := "Home/api", pat := "t", owner := "me", repo := "api" }, 1, 3, 1, 0, []⟩,
      ⟨{ name := "Home/web", pat := "t", owner := "me", repo := "web" }, 0, 3, 0, 0, []⟩]
  distinct := by decide +kernel

theorem personalAllocations_fair_two :
    ((personalAllocations twoQueues.items 3).map Prod.snd).sum = 3 :=
  (personalAllocations_fair { name := "Home", pat := "t", owner := "me", maxRunners := 5 } twoQueues
    3 (by decide +kernel)).2.2.1

end RunnerSwarm
