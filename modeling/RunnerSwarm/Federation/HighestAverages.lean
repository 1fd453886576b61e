import RunnerSwarm.Federation.Split

/-!
# The split is a highest-averages allocation

The job that goes to a host goes where the average `(free_cores + 1) / (share + 1)` is highest, so a
split has the properties of such an allocation:

* `Averaged`: a host with room left would not make better use of a job than a host that has it,
  unless its weight is negative;
* `split_le_succ`: no share decreases when the queue grows;
* `split_le_without`: no share decreases when another host drops out.

The last compares two runs of different length. Without the host, the other hosts are served in the
same order, so the run with it is a shorter run without it (`splitLoop_without`).

A slot's capacity is a natural number: `slot_for` cuts it off at zero, and a slot below zero would
never be open, like a slot of capacity zero.
-/

namespace RunnerSwarm

variable {ρ : Rounding} {slots openSlots : List Slot} {shares shares' : String → ℕ} {fuel : ℕ}

/-! ### One round -/

/-- The slots that are still open. -/
def roomy (openSlots : List Slot) (shares : String → ℕ) : List Slot :=
  openSlots.filter fun s => shares s.name < s.capacity

/-- One more job for a host. -/
def oneMore (shares : String → ℕ) (best : Slot) : String → ℕ :=
  Function.update shares best.name (shares best.name + 1)

theorem splitLoop_none (h : (roomy openSlots shares).argmax (slotKey ρ shares) = none) :
    splitLoop ρ (fuel + 1) openSlots shares = shares := by
  unfold roomy at h
  rw [splitLoop, h]

theorem splitLoop_some {best : Slot}
    (h : (roomy openSlots shares).argmax (slotKey ρ shares) = some best) :
    splitLoop ρ (fuel + 1) openSlots shares =
      splitLoop ρ fuel (roomy openSlots shares) (oneMore shares best) := by
  unfold roomy at h
  rw [splitLoop, h]
  rfl

/-- What a round keeps, the loop keeps. -/
theorem splitLoop_rule {P : List Slot → (String → ℕ) → Prop}
    (hfilter : ∀ o f, P o f → P (roomy o f) f)
    (hgive : ∀ o f best, P (roomy o f) f → (roomy o f).argmax (slotKey ρ f) = some best →
      P (roomy o f) (oneMore f best))
    (h : P openSlots shares) : ∃ o, P o (splitLoop ρ fuel openSlots shares) := by
  induction fuel generalizing openSlots shares with
  | zero => exact ⟨openSlots, h⟩
  | succ fuel ih =>
    cases hmax : (roomy openSlots shares).argmax (slotKey ρ shares) with
    | none =>
      rw [splitLoop_none hmax]
      exact ⟨openSlots, h⟩
    | some best =>
      rw [splitLoop_some hmax]
      exact ih (hgive _ _ _ (hfilter _ _ h) hmax)

/-! ### A longer queue -/

theorem le_oneMore (shares : String → ℕ) (best : Slot) (name : String) :
    shares name ≤ oneMore shares best name := by
  unfold oneMore
  rw [Function.update_apply]
  split_ifs with hname
  · rw [hname]
    exact Nat.le_succ _
  · exact le_rfl

theorem splitLoop_le_succ (fuel : ℕ) (name : String) :
    splitLoop ρ fuel openSlots shares name ≤ splitLoop ρ (fuel + 1) openSlots shares name := by
  induction fuel generalizing openSlots shares with
  | zero =>
    cases hmax : (roomy openSlots shares).argmax (slotKey ρ shares) with
    | none =>
      rw [splitLoop_none hmax]
      exact le_rfl
    | some best =>
      rw [splitLoop_some hmax]
      exact le_oneMore shares best name
  | succ fuel ih =>
    cases hmax : (roomy openSlots shares).argmax (slotKey ρ shares) with
    | none =>
      rw [splitLoop_none hmax, splitLoop_none hmax]
    | some best =>
      rw [splitLoop_some hmax, splitLoop_some hmax]
      exact ih

theorem splitLoop_mono (name : String) :
    Monotone fun fuel => splitLoop ρ fuel openSlots shares name :=
  monotone_nat_of_le_succ fun fuel => splitLoop_le_succ fuel name

/-- **No share decreases when the queue grows.** -/
theorem split_le_succ (queued : ℕ) (slots : List Slot) (name : String) :
    split ρ queued slots name ≤ split ρ (queued + 1) slots name :=
  splitLoop_le_succ queued name

/-! ### A host less -/

/-- The slots without one host. -/
def without (gone : String) (slots : List Slot) : List Slot :=
  slots.filter fun s => s.name ≠ gone

/-- The shares agree for every other host. -/
def SameButFor (gone : String) (shares shares' : String → ℕ) : Prop :=
  ∀ name, name ≠ gone → shares name = shares' name

variable {gone : String}

theorem mem_without {s : Slot} : s ∈ without gone slots ↔ s ∈ slots ∧ s.name ≠ gone := by
  unfold without
  rw [List.mem_filter, decide_eq_true_iff]

theorem roomy_roomy : roomy (roomy openSlots shares) shares = roomy openSlots shares := by
  unfold roomy
  rw [List.filter_filter]
  simp only [Bool.and_self]

/-- Slots without room are dropped by the loop itself. -/
theorem splitLoop_roomy : splitLoop ρ fuel (roomy openSlots shares) shares =
    splitLoop ρ fuel openSlots shares := by
  cases fuel with
  | zero => rfl
  | succ fuel =>
    have hroomy : roomy (roomy openSlots shares) shares = roomy openSlots shares := roomy_roomy
    cases hmax : (roomy openSlots shares).argmax (slotKey ρ shares) with
    | none => rw [splitLoop_none hmax, splitLoop_none (hroomy.symm ▸ hmax)]
    | some best => rw [splitLoop_some hmax, splitLoop_some (hroomy.symm ▸ hmax), hroomy]

theorem roomy_without (h : SameButFor gone shares shares') :
    without gone (roomy openSlots shares) = roomy (without gone openSlots) shares' := by
  unfold without roomy
  rw [List.filter_comm]
  refine List.filter_congr fun s hs => ?_
  rw [h s.name (mem_without.1 hs).2]

theorem SameButFor.oneMore_gone (h : SameButFor gone shares shares') {best : Slot}
    (hbest : best.name = gone) : SameButFor gone (oneMore shares best) shares' := by
  intro name hname
  unfold oneMore
  rw [Function.update_of_ne (hbest ▸ hname)]
  exact h name hname

theorem SameButFor.oneMore (h : SameButFor gone shares shares') {best : Slot}
    (hbest : best.name ≠ gone) :
    SameButFor gone (oneMore shares best) (RunnerSwarm.oneMore shares' best) := by
  intro name hname
  unfold RunnerSwarm.oneMore
  rw [Function.update_apply, Function.update_apply, h best.name hbest, h name hname]

/-- The best of the remaining hosts is served in both runs. -/
theorem argmax_without (h : SameButFor gone shares shares') {best : Slot}
    (hmax : (roomy openSlots shares).argmax (slotKey ρ shares) = some best)
    (hbest : best.name ≠ gone) :
    (roomy (without gone openSlots) shares').argmax (slotKey ρ shares') = some best := by
  have hkeep : (without gone (roomy openSlots shares)).argmax (slotKey ρ shares) = some best :=
    argmax_filter hmax (decide_eq_true hbest)
  rw [roomy_without h] at hkeep
  rw [← hkeep]
  refine argmax_congr fun s hs => ?_
  have hs' : s ∈ without gone openSlots := (List.mem_filter.1 hs).1
  unfold slotKey
  rw [h s.name (mem_without.1 hs').2]

/-- **A run with a host is, for the others, a run without it** that is no longer. -/
theorem splitLoop_without (h : SameButFor gone shares shares') (fuel : ℕ) :
    ∃ m ≤ fuel, SameButFor gone (splitLoop ρ fuel openSlots shares)
      (splitLoop ρ m (without gone openSlots) shares') := by
  induction fuel generalizing openSlots shares shares' with
  | zero => exact ⟨0, le_rfl, h⟩
  | succ fuel ih =>
    cases hmax : (roomy openSlots shares).argmax (slotKey ρ shares) with
    | none =>
      refine ⟨0, Nat.zero_le _, ?_⟩
      rw [splitLoop_none hmax]
      exact h
    | some best =>
      rw [splitLoop_some hmax]
      by_cases hbest : best.name = gone
      · -- The host that is gone takes the job: the other run waits.
        obtain ⟨m, hm, hsame⟩ := @ih (roomy openSlots shares) _ _ (h.oneMore_gone hbest)
        rw [roomy_without h, splitLoop_roomy] at hsame
        exact ⟨m, hm.trans (Nat.le_succ fuel), hsame⟩
      · obtain ⟨m, hm, hsame⟩ := @ih (roomy openSlots shares) _ _ (h.oneMore hbest)
        rw [roomy_without h] at hsame
        refine ⟨m + 1, Nat.succ_le_succ hm, ?_⟩
        rw [splitLoop_some (argmax_without h hmax hbest)]
        exact hsame

theorem sortSlots_without (hd : (slots.map (·.name)).Nodup) :
    sortSlots (without gone slots) = without gone (sortSlots slots) :=
  insertionSort_filter (slots_antisymm hd) _

/-- **No share decreases when another host drops out.** -/
theorem split_le_without (hd : (slots.map (·.name)).Nodup) (queued : ℕ) {name : String}
    (hname : name ≠ gone) :
    split ρ queued slots name ≤ split ρ queued (without gone slots) name := by
  have hsame : SameButFor gone (fun _ => 0) fun _ => 0 := fun _ _ => rfl
  obtain ⟨m, hm, hloop⟩ := @splitLoop_without ρ (sortSlots slots) _ _ _ hsame queued
  unfold split
  rw [sortSlots_without hd, hloop name hname]
  exact splitLoop_mono name hm

/-! ### Highest averages -/

/-- The weight of a slot: `free_cores + 1`. -/
def Slot.weight (s : Slot) : ℚ := (s.freeCores + 1 : ℤ)

/-- A host with room left would not use a job better than a host that has it, unless its weight
is negative. -/
def Averaged (slots : List Slot) (shares : String → ℕ) : Prop :=
  ∀ i ∈ slots, ∀ j ∈ slots, 0 < shares i.name → shares j.name < j.capacity → 0 ≤ j.weight →
    j.weight / (shares j.name + 1 : ℕ) ≤ i.weight / (shares i.name : ℕ)

theorem slotKey_exact (s : Slot) :
    slotKey Rounding.exact shares s = s.weight / (shares s.name + 1 : ℕ) := rfl

/-- A larger share has a lower average, if the weight is not negative. -/
theorem average_anti {w : ℚ} (hw : 0 ≤ w) {m n : ℕ} (hm : 0 < m) (hmn : m ≤ n) :
    w / (n : ℕ) ≤ w / (m : ℕ) :=
  div_le_div_of_nonneg_left hw (Nat.cast_pos.2 hm) (Nat.cast_le.2 hmn)

theorem Averaged.oneMore (hd : (slots.map (·.name)).Nodup)
    (hinv : SplitInv slots (roomy openSlots shares) shares) (h : Averaged slots shares)
    {best : Slot}
    (hmax : (roomy openSlots shares).argmax (slotKey Rounding.exact shares) = some best) :
    Averaged slots (oneMore shares best) := by
  have hbest : best ∈ slots := hinv.subset (List.argmax_mem hmax)
  have hself : RunnerSwarm.oneMore shares best best.name = shares best.name + 1 :=
    Function.update_self _ _ _
  have hother : ∀ s ∈ slots, s ≠ best →
      RunnerSwarm.oneMore shares best s.name = shares s.name := fun s hs hne =>
    Function.update_of_ne (fun hname => hne (List.inj_on_of_nodup_map hd hs hbest hname)) _ _
  intro i hi j hj hi0 hroom hw
  have hold : shares j.name < j.capacity := (le_oneMore shares best j.name).trans_lt hroom
  have hgrow : j.weight / (RunnerSwarm.oneMore shares best j.name + 1 : ℕ) ≤
      j.weight / (shares j.name + 1 : ℕ) :=
    average_anti hw (Nat.succ_pos _) (Nat.succ_le_succ (le_oneMore shares best j.name))
  refine hgrow.trans ?_
  by_cases hib : i = best
  · -- The host that got the job had the highest average.
    subst hib
    have hopen : j ∈ roomy openSlots shares := by
      by_contra hclosed
      exact absurd (hinv.closed j hj hclosed) hold.ne
    have hle := List.le_of_mem_argmax hopen hmax
    rw [slotKey_exact, slotKey_exact] at hle
    rwa [hself]
  · rw [hother i hi hib] at hi0 ⊢
    exact h i hi j hj hi0 hold hw

/-- **A split by exact weights is a highest-averages allocation.** -/
theorem split_averaged (hd : (slots.map (·.name)).Nodup) (queued : ℕ) :
    Averaged slots (split Rounding.exact queued slots) := by
  have hsort : (sortSlots slots).Perm slots := List.perm_insertionSort _ slots
  have hinv : SplitInv slots (sortSlots slots) fun _ => 0 :=
    ⟨hsort.subset, fun s hs hno => absurd (hsort.symm.subset hs) hno, fun _ _ => Nat.zero_le _⟩
  have hnone : Averaged slots fun _ => 0 := fun i _ j _ h0 => absurd h0 (lt_irrefl 0)
  have hloop := @splitLoop_rule Rounding.exact (sortSlots slots) (fun _ => 0) queued
    (fun o f => SplitInv slots o f ∧ Averaged slots f)
    (fun o f h => ⟨h.1.filter, h.2⟩)
    (fun o f best h hmax => by
      have hbest := List.argmax_mem hmax
      have hroom : f best.name < best.capacity := of_decide_eq_true (List.mem_filter.1 hbest).2
      exact ⟨h.1.give hd hbest hroom, h.2.oneMore hd h.1 hmax⟩)
    ⟨hinv, hnone⟩
  obtain ⟨o, -, haveraged⟩ := hloop
  exact haveraged

/-- Two hosts with fewer than no free cores: the first is full after one job, and the share of the
other makes its negative average better. -/
def indebted : List Slot := [⟨"a", -3, 1⟩, ⟨"b", -4, 3⟩]

/-- For a negative weight the averages are in no order. -/
theorem indebted_not_averaged : (indebted.map (·.name)).Nodup ∧
    ∃ i ∈ indebted, ∃ j ∈ indebted, 0 < split Rounding.exact 3 indebted i.name ∧
      split Rounding.exact 3 indebted j.name < j.capacity ∧
      ¬ i.weight / (split Rounding.exact 3 indebted i.name : ℕ) ≥
        j.weight / (split Rounding.exact 3 indebted j.name + 1 : ℕ) := by
  refine ⟨by decide +kernel, ⟨"a", -3, 1⟩, by decide +kernel, ⟨"b", -4, 3⟩, by decide +kernel, ?_⟩
  decide +kernel

/-- **The split is a highest-averages allocation**, and neither a longer queue nor a host less takes
a job from a host. -/
theorem split_highestAverages (slots : List Slot) (hd : (slots.map (·.name)).Nodup) (queued : ℕ) :
    (∀ i ∈ slots, ∀ j ∈ slots, 0 < split Rounding.exact queued slots i.name →
      split Rounding.exact queued slots j.name < j.capacity → -1 ≤ j.freeCores →
      i.weight / (split Rounding.exact queued slots i.name : ℕ) ≥
        j.weight / (split Rounding.exact queued slots j.name + 1 : ℕ)) ∧
    (∀ name, split Rounding.exact queued slots name ≤
      split Rounding.exact (queued + 1) slots name) ∧
    ∀ gone name, name ≠ gone → split Rounding.exact queued slots name ≤
      split Rounding.exact queued (without gone slots) name := by
  refine ⟨fun i hi j hj hi0 hroom hfree => ?_, split_le_succ queued slots,
    fun gone name hname => split_le_without hd queued hname⟩
  have hweight : (0 : ℤ) ≤ j.freeCores + 1 := by omega
  exact split_averaged hd queued i hi j hj hi0 hroom (Int.cast_nonneg hweight)

theorem split_highestAverages_two :
    split Rounding.exact 4 [⟨"a", 3, 2⟩, ⟨"b", 0, 5⟩] "a" ≤
      split Rounding.exact 5 [⟨"a", 3, 2⟩, ⟨"b", 0, 5⟩] "a" :=
  (split_highestAverages [⟨"a", 3, 2⟩, ⟨"b", 0, 5⟩] (by decide +kernel) 4).2.1 "a"

end RunnerSwarm
