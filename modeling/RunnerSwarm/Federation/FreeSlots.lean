import RunnerSwarm.Federation.Agreement

/-!
# The free slots of a host

All pools of a host start their runners below one cap. A slot counts every free slot of the host for
its pool, so a pool that is given a share can start what is missing for it, if it is alone:

* `share_le`: nobody is given more than its own slot has room for, whatever its peers claim;
* `newRunners_le`: a pool needs no more new runners for its share than the host has free slots;
* `shares_within_free`: two pools may each need all of them.
-/

namespace RunnerSwarm

section OwnShare

variable {ρ : Rounding} {f : Federation} {pool : String} {now : ℚ} {s : Snapshot}

/-- A peer that claims the own name is not among the fresh ones. -/
theorem freshPeers_ne (hown : f.own = some s) {p : Snapshot} (hp : p ∈ f.freshPeers now) :
    p.instanceName ≠ s.instanceName := by
  obtain ⟨⟨_, view⟩, -, hview⟩ := List.mem_filterMap.1 hp
  dsimp only at hview
  split at hview
  · cases hview
  · split at hview
    · rename_i hfresh
      cases hview
      intro hname
      apply hfresh.2
      rw [hown, Option.map_some, hname]
    · cases hview

/-- The only slot of the own name is the own one. -/
theorem slots_own (hown : f.own = some s) {slot : Slot} (hslot : slot ∈ f.slots pool now)
    (hname : slot.name = s.instanceName) : slotFor s pool f.config.maxTempC = some slot := by
  unfold Federation.slots at hslot
  obtain ⟨p, hp, hpslot⟩ := List.mem_filterMap.1 hslot
  rw [hown, Option.toList_some, List.singleton_append, List.mem_cons] at hp
  rcases hp with rfl | hp
  · exact hpslot
  · exact absurd ((slotFor_name hpslot).symm.trans hname) (freshPeers_ne hown hp)

/-- The room of the own slot. -/
def ownCapacity (f : Federation) (pool : String) : ℕ :=
  ((f.own.bind fun s => slotFor s pool f.config.maxTempC).map (·.capacity)).getD 0

/-- **Nobody is given more than its own slot has room for.** -/
theorem share_le (hown : f.own = some s) (queued : ℕ) :
    split ρ queued (f.slots pool now) s.instanceName ≤ ownCapacity f pool := by
  refine split_le (fun slot hslot hname => ?_) queued
  have hslotFor := slots_own hown hslot hname
  unfold ownCapacity
  rw [hown, Option.bind_some, hslotFor]
  exact le_rfl

/-- Without a job that is old enough to be rescued, `queueInput` is the share. -/
theorem queueInput_le (hown : f.own = some s) {ages : List ℚ}
    (hyoung : ∀ age ∈ ages, age < f.config.rescueAfterSeconds) :
    (f.queueInput ρ pool ages now).1 ≤ ownCapacity f pool := by
  cases hhot : f.isHot with
  | true =>
    unfold Federation.queueInput
    dsimp only
    rw [hhot, if_pos rfl]
    exact Nat.zero_le _
  | false =>
    rw [queueInput_fst now pool hhot hyoung hown]
    exact share_le hown _

end OwnShare

/-! ### New runners -/

/-- The runners a share needs beyond those of the pool that are not busy. -/
def newRunners (share : ℕ) (c : PoolCounts) : ℤ := max 0 (share - (c.running - c.busy))

/-- A slot with room has no more of it than the free slots and the idle runners. -/
theorem slotFor_capacity {s : Snapshot} {pool : String} {maxTempC : PyFloat} {slot : Slot}
    {c : PoolCounts} {free : ℤ} (hcounts : s.pools.get pool = some c)
    (hfree : s.globalFree = some free) (h : slotFor s pool maxTempC = some slot) :
    (slot.capacity : ℤ) ≤ max 0 (free + (c.running - c.busy)) := by
  have hcool : ∀ (hot : Bool) (n : ℕ), (if hot = true then 0 else n) ≤ n := fun hot n => by
    cases hot
    · exact le_rfl
    · exact Nat.zero_le n
  unfold slotFor at h
  rw [hcounts, hfree] at h
  dsimp only at h
  cases h
  refine (Int.ofNat_le.2 (hcool _ _)).trans ?_
  omega

/-- A queue that the host splits: the pool, and the ages of its jobs. -/
structure QueuedPool where
  pool : String
  ages : List ℚ
  counts : PoolCounts

namespace QueuedPool

variable (q : QueuedPool) (ρ : Rounding) (f : Federation) (now : ℚ)

/-- What `queue_input` takes of the queue. -/
def share : ℕ := (f.queueInput ρ q.pool q.ages now).1

/-- The own snapshot has the pool, and no job is old enough to be rescued. -/
structure Young : Prop where
  counts : (f.own.bind fun s => s.pools.get q.pool) = some q.counts
  ages : ∀ age ∈ q.ages, age < f.config.rescueAfterSeconds

variable {q ρ f now}

theorem share_le_free {s : Snapshot} {free : ℤ} (hown : f.own = some s)
    (hfree : s.globalFree = some free) (h : q.Young f) :
    (q.share ρ f now : ℤ) ≤ max 0 (free + (q.counts.running - q.counts.busy)) := by
  have hcounts := h.counts
  rw [hown, Option.bind_some] at hcounts
  have hle : q.share ρ f now ≤ ownCapacity f q.pool := queueInput_le hown h.ages
  unfold ownCapacity at hle
  rw [hown, Option.bind_some] at hle
  cases hslot : slotFor s q.pool f.config.maxTempC with
  | none =>
    rw [hslot] at hle
    have hzero : q.share ρ f now ≤ 0 := hle
    omega
  | some slot =>
    rw [hslot] at hle
    have hshare : q.share ρ f now ≤ slot.capacity := hle
    have hcapacity := slotFor_capacity hcounts hfree hslot
    omega

/-- A pool that is given a share needs no more new runners than the host has free slots. -/
theorem newRunners_le {s : Snapshot} {free : ℤ} (hown : f.own = some s)
    (hfree : s.globalFree = some free) (hfree0 : 0 ≤ free) (h : q.Young f)
    (hshare : 0 < q.share ρ f now) : newRunners (q.share ρ f now) q.counts ≤ free := by
  have hle : (q.share ρ f now : ℤ) ≤ max 0 (free + (q.counts.running - q.counts.busy)) :=
    share_le_free hown hfree h
  unfold newRunners
  omega

end QueuedPool

theorem Daemon.globalFree_nonneg {d : Daemon} {free : ℤ} (h : d.globalFree = some free) :
    0 ≤ free := by
  unfold Daemon.globalFree at h
  split at h
  · cases h
  · cases h
    exact le_max_left _ _

/-- **The shares of a host and its free slots.** A pool that is given a share needs no more new
runners for it than the host has free slots, so any number of them need no more than that for each;
one alone fits. -/
theorem shares_within_free (ρ : Rounding) (d : Daemon) (free : ℤ) (hfree : d.globalFree = some free)
    (f : Federation) (hown : f.own = some (d.snapshot ρ)) (now : ℚ) (queues : List QueuedPool)
    (hyoung : ∀ q ∈ queues, q.Young f) :
    (∀ q ∈ queues, (q.share ρ f now : ℤ) ≤ max 0 (free + (q.counts.running - q.counts.busy))) ∧
    (∀ q ∈ queues, 0 < q.share ρ f now → newRunners (q.share ρ f now) q.counts ≤ free) ∧
    ((queues.filter fun q => 0 < q.share ρ f now).map fun q =>
        newRunners (q.share ρ f now) q.counts).sum ≤
      (queues.countP fun q => 0 < q.share ρ f now) * free := by
  have hfree' : (d.snapshot ρ).globalFree = some free := hfree
  have hfree0 := Daemon.globalFree_nonneg hfree
  have hone : ∀ q ∈ queues, 0 < q.share ρ f now → newRunners (q.share ρ f now) q.counts ≤ free :=
    fun q hq hshare => QueuedPool.newRunners_le hown hfree' hfree0 (hyoung q hq) hshare
  refine ⟨fun q hq => QueuedPool.share_le_free hown hfree' (hyoung q hq), hone, ?_⟩
  rw [List.countP_eq_length_filter, ← nsmul_eq_mul]
  have hle := List.sum_le_card_nsmul ((queues.filter fun q => 0 < q.share ρ f now).map fun q =>
    newRunners (q.share ρ f now) q.counts) free fun n hn => by
      obtain ⟨q, hq, rfl⟩ := List.mem_map.1 hn
      obtain ⟨hmem, hshare⟩ := List.mem_filter.1 hq
      exact hone q hmem (of_decide_eq_true hshare)
  rwa [List.length_map] at hle

/-! ### A host with two pools -/

/-- A host with two pools that may start five runners each, and none of them running. -/
def twoPools (instanceName : String) (maxTotalRunners : ℤ) : Daemon :=
  let pool (name : String) : PoolConfig :=
    { name := name, pat := "t", owner := "o", repo := "r", «instance» := instanceName }
  { pools := [pool "ci", pool "deploy"]
    effective := ⟨[pool "ci", pool "deploy"], maxTotalRunners, 0, false, Table.empty, []⟩
    counts := (Table.empty.put "ci" ⟨0, 0, 5⟩).put "deploy" ⟨0, 0, 5⟩
    running := []
    version := "1.0"
    ts := 1
    metrics := ⟨8, 8, 2, 16000, 8000, some 45⟩ }

/-- The host `a` may start one runner; its peer `b` has more room. -/
def crowded : Federation :=
  Federation.refresh { config := { peers := ["b"] } } ((twoPools "a" 1).snapshot .exact)
    (fun _ => fetchSnapshot ((twoPools "b" 8).snapshot .exact).jsonify) fun _ => 0

/-- One job waits for each of its pools. -/
def crowdedQueues : List QueuedPool := [⟨"ci", [5], ⟨0, 0, 5⟩⟩, ⟨"deploy", [5], ⟨0, 0, 5⟩⟩]

theorem crowded_own : crowded.own = some ((twoPools "a" 1).snapshot .exact) := by
  have hfetch : ∀ f : Federation,
      (Federation.fetchPeer (fun _ => fetchSnapshot ((twoPools "b" 8).snapshot .exact).jsonify)
        (fun _ => 0) f "b").own = f.own := fun f => fetchPeer_own f "b"
  exact hfetch _

theorem crowdedQueues_young : ∀ q ∈ crowdedQueues, q.Young crowded := by
  have hages : ∀ age ∈ [(5 : ℚ)], age < crowded.config.rescueAfterSeconds := fun age hage => by
    have hconfig : crowded.config = { peers := ["b"] } :=
      (Federation.Reached.known (.refresh .start _ _ _)).1
    rw [List.mem_singleton.1 hage, hconfig]
    norm_num
  intro q hq
  simp only [crowdedQueues, List.mem_cons, List.not_mem_nil, or_false] at hq
  rcases hq with rfl | rfl
  · refine ⟨?_, hages⟩
    rw [crowded_own]
    rfl
  · refine ⟨?_, hages⟩
    rw [crowded_own]
    rfl

theorem shares_within_free_crowded :
    (∀ q ∈ crowdedQueues, (q.share .exact crowded 5 : ℤ) ≤
      max 0 (1 + (q.counts.running - q.counts.busy))) ∧
    (∀ q ∈ crowdedQueues, 0 < q.share .exact crowded 5 →
      newRunners (q.share .exact crowded 5) q.counts ≤ 1) ∧
    ((crowdedQueues.filter fun q => 0 < q.share .exact crowded 5).map fun q =>
        newRunners (q.share .exact crowded 5) q.counts).sum ≤
      (crowdedQueues.countP fun q => 0 < q.share .exact crowded 5) * 1 :=
  shares_within_free .exact (twoPools "a" 1) 1 rfl crowded crowded_own 5 crowdedQueues
    crowdedQueues_young

/-- Two pools with a job each are both given it by a host that has room for one runner. -/
theorem not_shares_within_free :
    ¬ ∀ (d : Daemon) (free : ℤ), d.globalFree = some free →
      ∀ (config : FederationConfig) (f : Federation), f.Reached config →
        f.own = some (d.snapshot .exact) →
      ∀ (now : ℚ) (queues : List QueuedPool), (queues.map (·.pool)).Nodup →
        (∀ q ∈ queues, q.Young f ∧ q.counts.busy ≤ q.counts.running) →
        (queues.map fun q => newRunners (q.share .exact f now) q.counts).sum ≤ free := by
  intro h
  have hle := h (twoPools "a" 1) 1 rfl { peers := ["b"] } crowded (.refresh .start _ _ _)
    crowded_own 5 crowdedQueues (by decide) fun q hq =>
      ⟨crowdedQueues_young q hq, by
        simp only [crowdedQueues, List.mem_cons, List.not_mem_nil, or_false] at hq
        rcases hq with rfl | rfl <;> exact le_rfl⟩
  have hsum : (crowdedQueues.map fun q =>
      newRunners (q.share .exact crowded 5) q.counts).sum = 2 := by
    decide +kernel
  omega

end RunnerSwarm
