import RunnerSwarm.Config.Pool
import RunnerSwarm.Lib.Holders

/-!
# How many runners a tick starts

What an inspection reports, and the two computations that turn inspections into spawns:
`calculateSpawnCount` for a pool of its own, and the round robin of a personal pool, which hands
one slot at a time to the repositories with the longest queues until the granted slots are used.

The loop over rounds is run with as much fuel as there are slots; every round but the last uses
at least one. `personalAllocations_sum` is the fact the global cap rests on: what is handed out
is exactly what was granted.
-/

namespace RunnerSwarm

structure RunnerInfo where
  id : ℤ
  name : String
  status : String
  busy : Bool
  deriving DecidableEq

/-- One consistent repository snapshot used for cleanup and scaling. -/
structure PoolInspection where
  pool : PoolConfig
  running : ℕ
  queued : ℕ
  idle : ℕ
  busy : ℕ
  offlineRunners : List RunnerInfo
  deriving DecidableEq

/-- The inspections of a personal pool. Its repositories are discovered as a set of names. -/
structure RepoInspections where
  items : List PoolInspection
  distinct : (items.map fun i => i.pool.repo).Nodup

namespace PoolInspection

/-- `max(0, busy + queued - running)`. -/
def needed (i : PoolInspection) : ℕ := i.busy + i.queued - i.running

/-- The sort key `(-queued, repo)`. -/
def before (a b : PoolInspection) : Bool :=
  b.queued < a.queued || (a.queued = b.queued && !(b.pool.repo < a.pool.repo))

end PoolInspection

/-- `_calculate_spawn_count`. -/
def calculateSpawnCount (pool : PoolConfig) (i : PoolInspection) : ℕ :=
  let desired := min pool.maxRunners (max pool.minIdle (i.busy + i.queued))
  (desired - i.running).toNat

/-! ### The round robin of a personal pool -/

/-- What a personal pool asks for: what its repositories need, within its own limit. -/
def personalRequest (pool : PoolConfig) (is : List PoolInspection) : ℕ :=
  let totalRunning := (is.map (·.running)).sum
  let neededTotal := (is.map (·.needed)).sum
  min (pool.maxRunners - totalRunning).toNat neededTotal

/-- The variables of the allocation loop. -/
structure Allocating where
  allocations : String → ℕ
  capacity : ℕ
  allocatedInRound : Bool

/-- One more slot for a repository. -/
def Allocating.allocate (s : Allocating) (repo : String) : Allocating :=
  { allocations := Function.update s.allocations repo (s.allocations repo + 1)
    capacity := s.capacity - 1
    allocatedInRound := true }

/-- The `for` loop: one pass over the repositories, left when the capacity is used up. -/
def allocRound : List PoolInspection → Allocating → Allocating
  | [], s => s
  | i :: rest, s =>
      if i.needed ≤ s.allocations i.pool.repo then allocRound rest s
      else
        let t := s.allocate i.pool.repo
        if t.capacity = 0 then t else allocRound rest t

/-- The `while` loop over rounds. -/
def allocLoop (ordered : List PoolInspection) : ℕ → Allocating → Allocating
  | 0, s => s
  | fuel + 1, s =>
      if s.capacity = 0 then s
      else
        let t := allocRound ordered { s with allocatedInRound := false }
        if t.allocatedInRound then allocLoop ordered fuel t else t

/-- `ordered`. -/
def orderedInspections (is : List PoolInspection) : List PoolInspection :=
  is.insertionSort fun a b => a.before b

/-- `spawn_allocations` for the granted capacity. -/
def personalAllocations (is : List PoolInspection) (granted : ℕ) : List (PoolConfig × ℕ) :=
  let ordered := orderedInspections is
  let s := allocLoop ordered granted ⟨fun _ => 0, granted, false⟩
  ordered.map fun i => (i.pool, s.allocations i.pool.repo)

/-! ### What the loop keeps -/

variable {ordered : List PoolInspection} {granted : ℕ} {s : Allocating}

/-- The slots handed out so far. -/
def Allocating.handedOut (s : Allocating) (ordered : List PoolInspection) : ℕ :=
  (ordered.map fun i => s.allocations i.pool.repo).sum

/-- The loop invariant: no slot is lost and no repository gets more than it needs. -/
structure AllocInv (ordered : List PoolInspection) (granted : ℕ) (s : Allocating) : Prop where
  sum : s.handedOut ordered + s.capacity = granted
  le : ∀ i ∈ ordered, s.allocations i.pool.repo ≤ i.needed

theorem handedOut_allocate (hd : (ordered.map fun i => i.pool.repo).Nodup) {i : PoolInspection}
    (hi : i ∈ ordered) :
    (s.allocate i.pool.repo).handedOut ordered = s.handedOut ordered + 1 :=
  sum_map_update_succ hd hi s.allocations

theorem AllocInv.allocate (hd : (ordered.map fun i => i.pool.repo).Nodup)
    (h : AllocInv ordered granted s) {i : PoolInspection} (hi : i ∈ ordered)
    (hneed : s.allocations i.pool.repo < i.needed) (hc : 0 < s.capacity) :
    AllocInv ordered granted (s.allocate i.pool.repo) where
  sum := by
    have hsum := h.sum
    have hcap : (s.allocate i.pool.repo).capacity = s.capacity - 1 := rfl
    rw [handedOut_allocate hd hi, hcap]
    omega
  le := by
    intro j hj
    by_cases hji : j.pool.repo = i.pool.repo
    · obtain rfl : j = i := List.inj_on_of_nodup_map hd hj hi hji
      simpa [Allocating.allocate] using hneed
    · simpa [Allocating.allocate, Function.update_of_ne hji] using h.le j hj

/-- A round keeps the invariant; it uses capacity when it allocates, and when it does not,
nobody it passed needs a slot. -/
theorem allocRound_spec (hd : (ordered.map fun i => i.pool.repo).Nodup)
    {rest : List PoolInspection} (hsub : rest ⊆ ordered) (h : AllocInv ordered granted s)
    (hc : 0 < s.capacity) :
    AllocInv ordered granted (allocRound rest s) ∧
      (allocRound rest s).capacity ≤ s.capacity ∧
      (s.allocatedInRound = false → (allocRound rest s).allocatedInRound = true →
        (allocRound rest s).capacity < s.capacity) ∧
      ((allocRound rest s).allocatedInRound = false →
        allocRound rest s = s ∧ ∀ i ∈ rest, i.needed ≤ s.allocations i.pool.repo) := by
  induction rest generalizing s with
  | nil =>
    refine ⟨h, le_rfl, fun hf ht => ?_, fun _ => ⟨rfl, by simp⟩⟩
    rw [allocRound, hf] at ht
    cases ht
  | cons i rest ih =>
    have hi : i ∈ ordered := hsub (by simp)
    have hrest : rest ⊆ ordered := fun j hj => hsub (List.mem_cons_of_mem i hj)
    unfold allocRound
    by_cases hneed : i.needed ≤ s.allocations i.pool.repo
    · rw [if_pos hneed]
      obtain ⟨hinv, hle, hlt, hnone⟩ := ih hrest h hc
      refine ⟨hinv, hle, hlt, fun hf => ⟨(hnone hf).1, ?_⟩⟩
      simpa using ⟨hneed, (hnone hf).2⟩
    · rw [if_neg hneed]
      have hinv := h.allocate hd hi (by omega) hc
      have hcap : (s.allocate i.pool.repo).capacity = s.capacity - 1 := rfl
      have hflag : (s.allocate i.pool.repo).allocatedInRound = true := rfl
      by_cases hzero : (s.allocate i.pool.repo).capacity = 0
      · rw [if_pos hzero]
        refine ⟨hinv, by omega, fun _ _ => by omega, fun hf => ?_⟩
        rw [hflag] at hf
        cases hf
      · rw [if_neg hzero]
        obtain ⟨hinv', hle, -, hnone⟩ := ih hrest hinv (by omega)
        refine ⟨hinv', by omega, fun _ _ => by omega, fun hf => ?_⟩
        have := (hnone hf).1
        rw [this, hflag] at hf
        cases hf

/-- With fuel for every slot the loop ends with all slots used or every need met. -/
theorem allocLoop_spec (hd : (ordered.map fun i => i.pool.repo).Nodup) {fuel : ℕ}
    (hfuel : s.capacity ≤ fuel) (h : AllocInv ordered granted s) :
    AllocInv ordered granted (allocLoop ordered fuel s) ∧
      ((allocLoop ordered fuel s).capacity = 0 ∨
        ∀ i ∈ ordered, i.needed ≤ (allocLoop ordered fuel s).allocations i.pool.repo) := by
  induction fuel generalizing s with
  | zero => exact ⟨h, Or.inl (by unfold allocLoop; omega)⟩
  | succ fuel ih =>
    unfold allocLoop
    by_cases hc : s.capacity = 0
    · rw [if_pos hc]
      exact ⟨h, Or.inl hc⟩
    · rw [if_neg hc]
      have h' : AllocInv ordered granted { s with allocatedInRound := false } := ⟨h.sum, h.le⟩
      obtain ⟨hinv, -, hlt, hnone⟩ := allocRound_spec hd (List.Subset.refl _) h'
        (Nat.pos_of_ne_zero hc)
      by_cases hflag : (allocRound ordered { s with allocatedInRound := false }).allocatedInRound
      · rw [if_pos hflag]
        have := hlt rfl hflag
        exact ih (by simp only at this; omega) hinv
      · rw [if_neg hflag]
        obtain ⟨heq, hall⟩ := hnone (by simpa using hflag)
        exact ⟨hinv, Or.inr (by rw [heq]; exact hall)⟩

theorem perm_orderedInspections (is : List PoolInspection) : (orderedInspections is).Perm is :=
  List.perm_insertionSort _ is

/-- **The slots of a personal pool are all handed out**, provided no more were granted than its
repositories need. -/
theorem personalAllocations_sum (is : RepoInspections) {granted : ℕ}
    (h : granted ≤ (is.items.map (·.needed)).sum) :
    ((personalAllocations is.items granted).map Prod.snd).sum = granted := by
  set ordered := orderedInspections is.items with hord
  have hperm : ordered.Perm is.items := perm_orderedInspections is.items
  have hd : (ordered.map fun i => i.pool.repo).Nodup :=
    (hperm.map _).nodup_iff.2 is.distinct
  have hstart : AllocInv ordered granted ⟨fun _ => 0, granted, false⟩ :=
    ⟨by simp [Allocating.handedOut], fun i _ => Nat.zero_le _⟩
  obtain ⟨hinv, hend⟩ := allocLoop_spec hd le_rfl hstart
  set s := allocLoop ordered granted ⟨fun _ => 0, granted, false⟩ with hs
  have hcounts : ((personalAllocations is.items granted).map Prod.snd).sum =
      s.handedOut ordered := by
    simp [personalAllocations, Allocating.handedOut, ← hord, ← hs, Function.comp_def]
  have hneeds : (ordered.map (·.needed)).sum = (is.items.map (·.needed)).sum :=
    (hperm.map _).sum_eq
  rw [hcounts]
  have hsum := hinv.sum
  rcases hend with hzero | hall
  · omega
  · have hge : (ordered.map (·.needed)).sum ≤ s.handedOut ordered :=
      List.sum_le_sum hall
    omega

end RunnerSwarm
