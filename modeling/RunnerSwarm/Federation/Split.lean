import Mathlib.Data.String.Basic
import RunnerSwarm.Lib.Holders
import RunnerSwarm.Lib.Ordered
import RunnerSwarm.Lib.Rounding

/-!
# The split

`split` shares queued jobs out between the hosts of a federation: each job goes to an open host with
the most free cores for the share it already has, and a host is open while its share is below its
capacity. Every host runs it for itself, so two facts matter:

* `split_perm`: the order in which a host lists the slots makes no difference;
* `split_sum`: the shares add up to the queue, or to all the room there is.

Both need slots with different names. Whatever the slots are, nobody gets more than its slots have
room for (`split_le`), and no more is handed out than there is (`split_sum_le`).
-/

namespace RunnerSwarm

/-- One host's standing for one pool. -/
structure Slot where
  name : String
  freeCores : ℤ
  /-- How many queued jobs this host may still take. -/
  capacity : ℕ
  deriving DecidableEq

/-- `(free_cores + 1) / (share + 1)`, a float. -/
def slotKey (ρ : Rounding) (shares : String → ℕ) (s : Slot) : ℚ :=
  ρ.round ((s.freeCores + 1 : ℤ) / (shares s.name + 1 : ℕ))

/-- The loop of `split`: `fuel` rounds, each for one job. -/
def splitLoop (ρ : Rounding) : (fuel : ℕ) → (openSlots : List Slot) → (String → ℕ) → String → ℕ
  | 0, _, shares => shares
  | fuel + 1, openSlots, shares =>
      let openSlots := openSlots.filter fun s => shares s.name < s.capacity
      -- The first of equals, and the slots are in the order of their names.
      match openSlots.argmax (slotKey ρ shares) with
      | none => shares
      | some best =>
          splitLoop ρ fuel openSlots (Function.update shares best.name (shares best.name + 1))

/-- The slots in the order of their names. -/
def sortSlots (slots : List Slot) : List Slot := slots.insertionSort fun a b => a.name ≤ b.name

/-- `split`. A name without a slot has no share. -/
def split (ρ : Rounding) (queued : ℕ) (slots : List Slot) : String → ℕ :=
  splitLoop ρ queued (sortSlots slots) fun _ => 0

variable {ρ : Rounding} {slots openSlots : List Slot} {shares : String → ℕ}

/-! ### Every order gives the same split -/

/-- Slots with different names are told apart by the order of the names. -/
theorem slots_antisymm (hd : (slots.map (·.name)).Nodup) :
    ∀ a ∈ slots, ∀ b ∈ slots, a.name ≤ b.name → b.name ≤ a.name → a = b :=
  fun _ ha _ hb hab hba => List.inj_on_of_nodup_map hd ha hb (le_antisymm hab hba)

theorem sortSlots_perm {slots' : List Slot} (hd : (slots.map (·.name)).Nodup)
    (h : slots.Perm slots') : sortSlots slots = sortSlots slots' :=
  insertionSort_perm (slots_antisymm hd) h

/-- **The split does not depend on the order of the slots.** -/
theorem split_perm {slots' : List Slot} (hd : (slots.map (·.name)).Nodup) (h : slots.Perm slots')
    (queued : ℕ) : split ρ queued slots = split ρ queued slots' := by
  unfold split
  rw [sortSlots_perm hd h]

/-! ### The sum of the shares -/

/-- The loop's invariant: a slot that is closed is full, and no slot is overfull. -/
structure SplitInv (slots openSlots : List Slot) (shares : String → ℕ) : Prop where
  subset : openSlots ⊆ slots
  closed : ∀ s ∈ slots, s ∉ openSlots → shares s.name = s.capacity
  le : ∀ s ∈ slots, shares s.name ≤ s.capacity

theorem SplitInv.filter (h : SplitInv slots openSlots shares) :
    SplitInv slots (openSlots.filter fun s => shares s.name < s.capacity) shares where
  subset := List.Subset.trans (List.filter_subset_self _) h.subset
  closed s hs hclosed := by
    by_cases hopen : s ∈ openSlots
    · have hfull : ¬ shares s.name < s.capacity := fun hlt =>
        hclosed (List.mem_filter.2 ⟨hopen, decide_eq_true hlt⟩)
      have hle := h.le s hs
      omega
    · exact h.closed s hs hopen
  le := h.le

/-- One job more for an open slot. -/
theorem SplitInv.give (hd : (slots.map (·.name)).Nodup) (h : SplitInv slots openSlots shares)
    {best : Slot} (hbest : best ∈ openSlots) (hroom : shares best.name < best.capacity) :
    SplitInv slots openSlots (Function.update shares best.name (shares best.name + 1)) where
  subset := h.subset
  closed s hs hclosed := by
    have hne : s.name ≠ best.name := fun hname =>
      hclosed (List.inj_on_of_nodup_map hd hs (h.subset hbest) hname ▸ hbest)
    rw [Function.update_of_ne hne]
    exact h.closed s hs hclosed
  le s hs := by
    by_cases hname : s.name = best.name
    · obtain rfl := List.inj_on_of_nodup_map hd hs (h.subset hbest) hname
      rw [Function.update_self]
      omega
    · rw [Function.update_of_ne hname]
      exact h.le s hs

theorem splitLoop_sum (hd : (slots.map (·.name)).Nodup) {fuel : ℕ}
    (h : SplitInv slots openSlots shares) :
    (slots.map fun s => splitLoop ρ fuel openSlots shares s.name).sum =
      min (fuel + (slots.map fun s => shares s.name).sum) (slots.map (·.capacity)).sum := by
  induction fuel generalizing openSlots shares with
  | zero =>
    have hle : (slots.map fun s => shares s.name).sum ≤ (slots.map (·.capacity)).sum :=
      List.sum_le_sum h.le
    rw [Nat.zero_add, min_eq_left hle]
    rfl
  | succ fuel ih =>
    unfold splitLoop
    dsimp only
    have hfilter := h.filter
    cases hmax : (openSlots.filter fun s => shares s.name < s.capacity).argmax
        (slotKey ρ shares) with
    | none =>
      -- No slot is open any more, so every slot is full.
      have hnil := List.argmax_eq_none.1 hmax
      rw [hnil] at hfilter
      have hfull : (slots.map fun s => shares s.name) = slots.map (·.capacity) :=
        List.map_congr_left fun s hs => hfilter.closed s hs List.not_mem_nil
      rw [hfull]
      omega
    | some best =>
      have hbest := List.argmax_mem hmax
      have hroom : shares best.name < best.capacity :=
        of_decide_eq_true (List.mem_filter.1 hbest).2
      have hsum := sum_map_update_succ hd (hfilter.subset hbest) shares
      rw [ih (hfilter.give hd hbest hroom), hsum]
      congr 1
      omega

/-- **The shares of a split** add up to the queue, or to the whole capacity when that is less. -/
theorem split_sum (hd : (slots.map (·.name)).Nodup) (queued : ℕ) :
    (slots.map fun s => split ρ queued slots s.name).sum =
      min queued (slots.map (·.capacity)).sum := by
  have hsort : (sortSlots slots).Perm slots := List.perm_insertionSort _ slots
  have hinv : SplitInv slots (sortSlots slots) fun _ => 0 :=
    ⟨hsort.subset, fun s hs hno => absurd (hsort.symm.subset hs) hno, fun _ _ => Nat.zero_le _⟩
  have hzero : (slots.map fun _ => 0).sum = 0 := by simp
  unfold split
  rw [splitLoop_sum hd hinv, hzero, Nat.add_zero]

/-! ### Any slots -/

/-- A name gets no more than its slots have room for. -/
theorem splitLoop_le {name : String} {capacity : ℕ}
    (hslots : ∀ s ∈ openSlots, s.name = name → s.capacity ≤ capacity)
    (hshare : shares name ≤ capacity) (fuel : ℕ) :
    splitLoop ρ fuel openSlots shares name ≤ capacity := by
  induction fuel generalizing openSlots shares with
  | zero => exact hshare
  | succ fuel ih =>
    unfold splitLoop
    dsimp only
    have hopen : ∀ s ∈ openSlots.filter fun s => shares s.name < s.capacity,
        s.name = name → s.capacity ≤ capacity := fun s hs => hslots s (List.mem_filter.1 hs).1
    cases hmax : (openSlots.filter fun s => shares s.name < s.capacity).argmax
        (slotKey ρ shares) with
    | none => exact hshare
    | some best =>
      have hbest := List.argmax_mem hmax
      refine ih hopen ?_
      by_cases hname : name = best.name
      · have hroom : shares best.name < best.capacity :=
          of_decide_eq_true (List.mem_filter.1 hbest).2
        have hcapacity := hopen best hbest hname.symm
        rw [hname, Function.update_self]
        omega
      · rw [Function.update_of_ne hname]
        exact hshare

theorem split_le {name : String} {capacity : ℕ}
    (h : ∀ s ∈ slots, s.name = name → s.capacity ≤ capacity) (queued : ℕ) :
    split ρ queued slots name ≤ capacity :=
  splitLoop_le (fun s hs => h s ((List.perm_insertionSort _ _).subset hs)) (Nat.zero_le _) queued

/-- A round hands out one job at most. -/
theorem splitLoop_sum_le (names : Finset String) (fuel : ℕ) :
    ∑ name ∈ names, splitLoop ρ fuel openSlots shares name ≤
      fuel + ∑ name ∈ names, shares name := by
  induction fuel generalizing openSlots shares with
  | zero =>
    rw [Nat.zero_add]
    exact le_rfl
  | succ fuel ih =>
    unfold splitLoop
    dsimp only
    cases (openSlots.filter fun s => shares s.name < s.capacity).argmax (slotKey ρ shares) with
    | none => exact Nat.le_add_left _ _
    | some best =>
      refine ih.trans ?_
      have hstep : ∀ name, Function.update shares best.name (shares best.name + 1) name =
          shares name + if name = best.name then 1 else 0 := fun name => by
        rw [Function.update_apply]
        split_ifs with hname
        · rw [hname]
        · rfl
      have hone : (∑ name ∈ names, if name = best.name then 1 else 0) ≤ 1 := by
        rw [Finset.sum_ite_eq']
        split_ifs <;> omega
      simp only [hstep, Finset.sum_add_distrib]
      omega

theorem split_sum_le (names : Finset String) (queued : ℕ) :
    ∑ name ∈ names, split ρ queued slots name ≤ queued := by
  have hle := @splitLoop_sum_le ρ (sortSlots slots) (fun _ => 0) names queued
  rwa [Finset.sum_const_zero, Nat.add_zero] at hle

/-- **Every host computes the same split**, in which no host is given more than it has room for and
no job is left while there is room. -/
theorem split_covers (slots : List Slot) (hd : (slots.map (·.name)).Nodup) (queued : ℕ) :
    (∀ s ∈ slots, split Rounding.exact queued slots s.name ≤ s.capacity) ∧
      (slots.map fun s => split Rounding.exact queued slots s.name).sum =
        min queued (slots.map (·.capacity)).sum ∧
      ∀ slots' : List Slot, slots.Perm slots' →
        split Rounding.exact queued slots' = split Rounding.exact queued slots := by
  refine ⟨fun s hs => split_le (fun t ht hname => ?_) queued, split_sum hd queued,
    fun slots' hperm => (split_perm hd hperm queued).symm⟩
  exact (List.inj_on_of_nodup_map hd ht hs hname) ▸ le_rfl

theorem split_covers_two : ([⟨"a", 3, 2⟩, ⟨"b", 0, 5⟩].map fun s : Slot =>
    split Rounding.exact 4 [⟨"a", 3, 2⟩, ⟨"b", 0, 5⟩] s.name).sum = 4 :=
  (split_covers [⟨"a", 3, 2⟩, ⟨"b", 0, 5⟩] (by decide +kernel) 4).2.1

end RunnerSwarm
