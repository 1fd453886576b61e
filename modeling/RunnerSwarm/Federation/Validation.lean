import RunnerSwarm.Config.Validated
import RunnerSwarm.Federation.Snapshot

/-!
# What a peer accepts

A published snapshot whose fields are within the limits of `validateSnapshot` is accepted, and the
copy gives the same slots. `Snapshot.WithinLimits` lists the limits; `Daemon.Publishable` puts them
on what the daemon reads, where most follow from the configuration having passed its checks or from
what the metrics are.

* `validateSnapshot_jsonify`: a snapshot within the limits is accepted, unchanged where it counts;
* `Daemon.snapshot_withinLimits`: what a daemon publishes is within the limits.
-/

namespace RunnerSwarm

/-! ### Limits -/

/-- The counts of a pool are within `MAX_COUNT`. -/
structure PoolCounts.WithinLimits (c : PoolCounts) : Prop where
  running : 0 ≤ c.running ∧ c.running ≤ maxCount
  busy : 0 ≤ c.busy ∧ c.busy ≤ maxCount
  maxRunners : 0 ≤ c.maxRunners ∧ c.maxRunners ≤ maxCount

structure HostState.WithinLimits (h : HostState) : Prop where
  cores : 1 ≤ h.cores ∧ h.cores ≤ maxCores
  cpuCount : 1 ≤ h.cpuCount ∧ h.cpuCount ≤ maxCores
  load1 : 0 ≤ h.load1 ∧ h.load1 ≤ 100000
  memTotalMb : 0 ≤ h.memTotalMb ∧ h.memTotalMb ≤ 2 ^ 30
  memAvailableMb : 0 ≤ h.memAvailableMb ∧ h.memAvailableMb ≤ 2 ^ 30
  tempC : ∀ t, h.tempC = some t → -50 ≤ t ∧ t ≤ 150
  freeCores : 0 ≤ h.freeCores ∧ h.freeCores ≤ maxCores

structure Snapshot.WithinLimits (s : Snapshot) : Prop where
  instanceName : s.instanceName = "" ∨ isPeerName s.instanceName = true
  ts : 0 ≤ s.ts ∧ s.ts ≤ 10 ^ 11
  host : s.host.WithinLimits
  count : s.pools.rows.length ≤ maxCount
  names : ∀ name counts, s.pools.get name = some counts → name.length ≤ 200
  counts : ∀ name counts, s.pools.get name = some counts → counts.WithinLimits
  globalFree : ∀ free, s.globalFree = some free → 0 ≤ free ∧ free ≤ maxCount

/-! ### Numbers -/

section Numbers

variable {low high : ℚ} {what : String}

theorem roundFloat_intCast {n : ℤ} (h : |n| ≤ 2 ^ 40) : roundFloat n = .finite n := by
  have hbig : (2 : ℚ) ^ 40 < floatOverflow := by
    have hpow : (2 : ℚ) ^ 40 ≤ 2 ^ 970 := pow_le_pow_right₀ (by norm_num) (by omega)
    unfold floatOverflow
    rw [show (1024 : ℕ) = 970 + 54 from rfl, pow_add]
    generalize (2 : ℚ) ^ 970 = x at hpow
    linarith
  have hn : |(n : ℚ)| ≤ 2 ^ 40 := by exact_mod_cast h
  obtain ⟨hlow, hhigh⟩ := abs_le.1 hn
  unfold roundFloat
  rw [if_neg (by linarith), if_neg (by linarith)]

theorem truncate_intCast (n : ℤ) : truncate n = n := by
  unfold truncate
  split
  · exact Int.floor_intCast n
  · exact Int.ceil_intCast n

theorem number_int {n : ℤ} (h : |n| ≤ 2 ^ 40) (hlow : low ≤ n) (hhigh : (n : ℚ) ≤ high) :
    number (some (.int n)) low high what = .ok (n : ℚ) := by
  unfold number inRange
  dsimp only
  rw [if_pos (roundFloat_intCast h), if_pos ⟨hlow, hhigh⟩]

theorem number_float {q : ℚ} (hlow : low ≤ q) (hhigh : q ≤ high) :
    number (some (.float (.finite q))) low high what = .ok q := by
  unfold number inRange
  dsimp only
  rw [if_pos ⟨hlow, hhigh⟩]

/-- A natural number below a bound that is no larger than `2 ^ 30`. -/
theorem number_upTo {n bound : ℤ} (h : 0 ≤ n ∧ n ≤ bound) (hbound : bound ≤ 2 ^ 30) :
    number (some (.int n)) 0 bound what = .ok (n : ℚ) := by
  refine number_int ?_ (by exact_mod_cast h.1) (by exact_mod_cast h.2)
  rw [abs_of_nonneg h.1]
  omega

theorem number_cores {n : ℤ} (h : 1 ≤ n ∧ n ≤ maxCores) :
    number (some (.int n)) 1 maxCores what = .ok (n : ℚ) := by
  have hcores : maxCores = 1024 := rfl
  refine number_int ?_ (by exact_mod_cast h.1) (by exact_mod_cast h.2)
  rw [abs_of_nonneg (by omega)]
  omega

end Numbers

/-! ### Acceptance -/

theorem validateCounts_toJson {c : PoolCounts} (h : c.WithinLimits) (name : String) :
    validateCounts name c.toJson = .ok c := by
  have hmax : maxCount ≤ 2 ^ 30 := by decide
  unfold validateCounts PoolCounts.toJson
  show (number (some (.int c.running)) 0 maxCount _ >>= fun running =>
    number (some (.int c.busy)) 0 maxCount _ >>= fun busy =>
      number (some (.int c.maxRunners)) 0 maxCount _ >>= fun maxRunners =>
        pure (⟨truncate running, truncate busy, truncate maxRunners⟩ : PoolCounts)) = .ok c
  rw [number_upTo h.running hmax, number_upTo h.busy hmax, number_upTo h.maxRunners hmax]
  show Except.ok (⟨truncate c.running, truncate c.busy, truncate c.maxRunners⟩ : PoolCounts) = _
  rw [truncate_intCast, truncate_intCast, truncate_intCast]

theorem validatePool_toJson {clean : Table String PoolCounts} {row : String × PoolCounts}
    (hname : row.1.length ≤ 200) (h : row.2.WithinLimits) :
    validatePool clean (row.1, row.2.toJson) = .ok (clean.put row.1 row.2) := by
  unfold validatePool
  dsimp only
  rw [if_neg (by omega), validateCounts_toJson h]
  rfl

theorem foldlM_validatePool {rows : List (String × PoolCounts)} {clean : Table String PoolCounts}
    (h : ∀ row ∈ rows, row.1.length ≤ 200 ∧ row.2.WithinLimits) :
    (rows.map fun row => (row.1, row.2.toJson)).foldlM validatePool clean =
      .ok (rows.foldl (fun t row => t.put row.1 row.2) clean) := by
  induction rows generalizing clean with
  | nil => rfl
  | cons row rows ih =>
    obtain ⟨⟨hname, hcounts⟩, hrest⟩ := List.forall_mem_cons.1 h
    rw [List.map_cons, List.foldlM_cons, validatePool_toJson hname hcounts]
    exact ih hrest

theorem optionalNumber_temp {h : HostState} (hl : h.WithinLimits) (what : String) :
    optionalNumber (some (h.tempC.elim .null fun t => .float (.finite t))) (-50) 150 what =
      .ok h.tempC := by
  cases htemp : h.tempC with
  | none => rfl
  | some t =>
    obtain ⟨hlow, hhigh⟩ := hl.tempC t htemp
    show some <$> number (some (.float (.finite t))) (-50) 150 what = .ok (some t)
    rw [number_float hlow hhigh]
    rfl

theorem optionalNumber_free {free : Option ℤ} (h : ∀ n, free = some n → 0 ≤ n ∧ n ≤ maxCount)
    (what : String) :
    optionalNumber (some (free.elim .null .int)) 0 maxCount what =
      .ok (free.map fun n => (n : ℚ)) := by
  cases free with
  | none => rfl
  | some n =>
    show some <$> number (some (.int n)) 0 maxCount what = .ok (some (n : ℚ))
    rw [number_upTo (h n rfl) (by decide)]
    rfl

theorem validateHost_items {h : HostState} (hl : h.WithinLimits) :
    validateHost h.items = .ok h := by
  have hget : getItem h.items "cores" = some (.int h.cores) ∧
      getItem h.items "cpu_count" = some (.int h.cpuCount) ∧
      getItem h.items "load1" = some (.float (.finite h.load1)) ∧
      getItem h.items "mem_total_mb" = some (.int h.memTotalMb) ∧
      getItem h.items "mem_available_mb" = some (.int h.memAvailableMb) ∧
      getItem h.items "temp_c" = some (h.tempC.elim .null fun t => .float (.finite t)) ∧
      getItem h.items "free_cores" = some (.int h.freeCores) :=
    ⟨rfl, rfl, rfl, rfl, rfl, rfl, rfl⟩
  obtain ⟨hcores, hcpu, hload, htotal, havailable, htemp, hfree⟩ := hget
  have hfreeLimit : number (some (.int h.freeCores)) 0 maxCores "free_cores" =
      .ok (h.freeCores : ℚ) := number_upTo hl.freeCores (by decide)
  have htotalLimit : number (some (.int h.memTotalMb)) 0 (2 ^ 30) "mem_total_mb" =
      .ok (h.memTotalMb : ℚ) := by
    have hnumber : number (some (.int h.memTotalMb)) 0 ((2 ^ 30 : ℤ) : ℚ) "mem_total_mb" =
        .ok (h.memTotalMb : ℚ) := number_upTo hl.memTotalMb le_rfl
    exact_mod_cast hnumber
  have havailableLimit : number (some (.int h.memAvailableMb)) 0 (2 ^ 30) "mem_available_mb" =
      .ok (h.memAvailableMb : ℚ) := by
    have hnumber : number (some (.int h.memAvailableMb)) 0 ((2 ^ 30 : ℤ) : ℚ) "mem_available_mb" =
        .ok (h.memAvailableMb : ℚ) := number_upTo hl.memAvailableMb le_rfl
    exact_mod_cast hnumber
  unfold validateHost
  simp only [hcores, hcpu, hload, htotal, havailable, htemp, hfree, number_cores hl.cores,
    number_cores hl.cpuCount, number_float hl.load1.1 hl.load1.2, htotalLimit, havailableLimit,
    optionalNumber_temp hl, hfreeLimit]
  show Except.ok (HostState.mk (truncate h.cores) (truncate h.cpuCount) h.load1
    (truncate h.memTotalMb) (truncate h.memAvailableMb) h.tempC (truncate h.freeCores)) = _
  rw [truncate_intCast, truncate_intCast, truncate_intCast, truncate_intCast, truncate_intCast]

/-- Two snapshots with the same standing. -/
structure Snapshot.Agrees (copy s : Snapshot) : Prop where
  instanceName : copy.instanceName = s.instanceName
  host : copy.host = s.host
  pools : ∀ name, copy.pools.get name = s.pools.get name
  globalFree : copy.globalFree = s.globalFree

theorem Snapshot.Agrees.slotFor {copy s : Snapshot} (h : copy.Agrees s) (pool : String)
    (maxTempC : PyFloat) : slotFor copy pool maxTempC = slotFor s pool maxTempC := by
  unfold RunnerSwarm.slotFor
  rw [h.pools, h.host, h.globalFree, h.instanceName]

/-- **A snapshot within the limits is accepted**, and the copy has the same standing. -/
theorem validateSnapshot_jsonify {s : Snapshot} (h : s.WithinLimits) :
    ∃ copy, validateSnapshot s.jsonify = .ok copy ∧ copy.Agrees s := by
  have hget : getItem s.items "instance" = some (.str s.instanceName) ∧
      getItem s.items "host" = some (.dict s.host.items) ∧
      getItem s.items "pools" = some (.dict s.poolItems) ∧
      getItem s.items "ts" = some (.float (.finite s.ts)) ∧
      getItem s.items "global_free" = some (s.globalFree.elim .null .int) :=
    ⟨rfl, rfl, rfl, rfl, rfl⟩
  obtain ⟨hinstance, hhost, hpools, hts, hfree⟩ := hget
  have hperm : s.sortedPools.Perm s.pools.rows := List.perm_insertionSort _ _
  have hlength : ¬ maxCount < (s.poolItems.length : ℤ) := by
    unfold Snapshot.poolItems
    rw [List.length_map, hperm.length_eq]
    exact not_lt.2 h.count
  have hrows : ∀ row ∈ s.sortedPools, row.1.length ≤ 200 ∧ row.2.WithinLimits := fun row hrow => by
    have hmem := Table.get_eq_some_iff.2 (hperm.subset hrow)
    exact ⟨h.names _ _ hmem, h.counts _ _ hmem⟩
  have hclean : s.poolItems.foldlM validatePool Table.empty =
      .ok (s.sortedPools.foldl (fun t row => t.put row.1 row.2) Table.empty) :=
    foldlM_validatePool hrows
  refine ⟨⟨s.instanceName,
    String.ofList (((getItem s.items "version").elim "" pyStr).toList.take 64), s.ts, s.host,
    s.sortedPools.foldl (fun t (row : String × PoolCounts) => t.put row.1 row.2) Table.empty,
    s.globalFree⟩, ?_, ⟨rfl, rfl, fun name => ?_, rfl⟩⟩
  · have hround : (s.globalFree.map fun n => (n : ℚ)).map truncate = s.globalFree := by
      rw [Option.map_map]
      cases s.globalFree with
      | none => rfl
      | some n => exact congrArg some (truncate_intCast n)
    unfold validateSnapshot Snapshot.jsonify
    simp only [hinstance, hhost, hpools]
    rw [if_pos h.instanceName, if_neg hlength]
    unfold validateParts
    simp only [hclean, hts, hfree, Option.getD_some, number_float h.ts.1 h.ts.2,
      validateHost_items h.host, optionalNumber_free h.globalFree]
    show Except.ok (Snapshot.mk _ _ _ _ _ ((s.globalFree.map fun n => (n : ℚ)).map truncate)) = _
    rw [hround]
  · refine Option.ext fun counts => ?_
    have hkeys : (s.sortedPools.map Prod.fst).Nodup := (hperm.map _).nodup_iff.2 s.pools.keyed
    rw [Table.get_foldl_put hkeys, Table.get_empty, Table.get_eq_some_iff, hperm.mem_iff]
    simp

/-! ### What a daemon publishes -/

/-- The configuration has passed its checks, and what the daemon measures and counts is within the
limits of its peers. -/
structure Daemon.Publishable (d : Daemon) (ρ : Rounding) : Prop where
  valid : validationErrors d.pools = .ok []
  ts : 0 ≤ d.ts ∧ d.ts ≤ 10 ^ 11
  cores : 1 ≤ d.metrics.cores ∧ d.metrics.cores ≤ maxCores
  cpuCount : 1 ≤ d.metrics.cpuCount ∧ d.metrics.cpuCount ≤ maxCores
  load1 : 0 ≤ d.metrics.load1 ∧ d.metrics.load1 ≤ 100000
  memTotalMb : 0 ≤ d.metrics.memTotalMb ∧ d.metrics.memTotalMb ≤ 2 ^ 30
  memAvailableMb : 0 ≤ d.metrics.memAvailableMb ∧ d.metrics.memAvailableMb ≤ 2 ^ 30
  tempC : ∀ t, d.metrics.tempC = some t → -50 ≤ t ∧ t ≤ 150
  count : d.publishedPools.rows.length ≤ maxCount
  names : ∀ name counts, d.publishedPools.get name = some counts → name.length ≤ 200
  counts : ∀ name counts, d.publishedPools.get name = some counts → counts.WithinLimits
  globalFree : ∀ free, d.globalFree = some free → free ≤ maxCount
  text : (jsonText (d.snapshot ρ).jsonify).length ≤ fetchLimit

section Published

variable {ρ : Rounding} {m : HostMetrics} {d : Daemon}

theorem freeCores_bounds (hcores : 0 ≤ m.cores ∧ m.cores ≤ maxCores) (hcpu : 0 ≤ m.cpuCount)
    (hload : 0 ≤ m.load1) : 0 ≤ m.freeCores ρ ∧ m.freeCores ρ ≤ m.cores := by
  obtain ⟨cores, hcast⟩ := Int.eq_ofNat_of_zero_le hcores.1
  have hmax : maxCores = 1024 := rfl
  have hsmall : cores ≤ 2 ^ 53 := by omega
  have hcastQ : (m.cores : ℚ) = cores := by exact_mod_cast hcast
  set busyShare := if m.cpuCount ≠ 0 then ρ.round (m.load1 / m.cpuCount) else 1 with hshare
  have hbusy : 0 ≤ busyShare := by
    rw [hshare]
    split
    · exact ρ.round_nonneg (div_nonneg hload (by exact_mod_cast hcpu))
    · exact zero_le_one
  have hone : ρ.round (1 - busyShare) ≤ 1 := by
    have hle : (1 : ℚ) - busyShare ≤ (1 : ℕ) := by
      rw [Nat.cast_one]
      linarith
    have := ρ.round_le_nat (by norm_num) hle
    rwa [Nat.cast_one] at this
  have hfree : 0 ≤ max 0 (ρ.round (1 - busyShare)) ∧ max 0 (ρ.round (1 - busyShare)) ≤ 1 :=
    ⟨le_max_left _ _, max_le zero_le_one hone⟩
  have hproduct : (m.cores : ℚ) * max 0 (ρ.round (1 - busyShare)) ≤ cores := by
    rw [hcastQ]
    exact mul_le_of_le_one_right (Nat.cast_nonneg _) hfree.2
  have hnonneg : 0 ≤ (m.cores : ℚ) * max 0 (ρ.round (1 - busyShare)) := by
    rw [hcastQ]
    exact mul_nonneg (Nat.cast_nonneg _) hfree.1
  constructor
  · exact Int.floor_nonneg.2 (ρ.round_nonneg hnonneg)
  · have hround := Int.floor_le_floor (ρ.round_le_nat hsmall hproduct)
    rw [Int.floor_natCast] at hround
    rw [hcast]
    exact hround

theorem isPeerName_of_isLowerAlnum {s : String} (h : isLowerAlnum s = true) :
    isPeerName s = true := by
  unfold isLowerAlnum at h
  unfold isPeerName
  rw [Bool.and_eq_true] at h
  cases hs : s.toList with
  | nil =>
    have hempty : s = "" := String.toList_eq_nil_iff.1 hs
    simp [hempty] at h
  | cons c rest =>
    have hall := h.2
    rw [hs, List.all_cons, Bool.and_eq_true] at hall
    rw [Bool.and_eq_true]
    refine ⟨hall.1, List.all_eq_true.2 fun d hd => ?_⟩
    rw [List.all_eq_true.1 hall.2 d hd, Bool.true_or]

theorem Daemon.Publishable.instanceName (h : d.Publishable ρ) :
    d.instanceName = "" ∨ isPeerName d.instanceName = true := by
  unfold Daemon.instanceName
  cases hpools : d.pools with
  | nil => exact .inl rfl
  | cons p rest =>
    have hp := validationErrors_nil h.valid p (hpools ▸ List.mem_cons_self)
    exact (poolErrors_nil_instance hp).imp id isPeerName_of_isLowerAlnum

/-- **What a daemon publishes is within the limits.** -/
theorem Daemon.Publishable.snapshot (h : d.Publishable ρ) : (d.snapshot ρ).WithinLimits where
  instanceName := h.instanceName
  ts := h.ts
  host := by
    have hcores := h.cores
    have hcpu := h.cpuCount
    have hfree : 0 ≤ d.metrics.freeCores ρ ∧ d.metrics.freeCores ρ ≤ d.metrics.cores :=
      freeCores_bounds ⟨by omega, hcores.2⟩ (by omega) h.load1.1
    exact ⟨hcores, hcpu, h.load1, h.memTotalMb, h.memAvailableMb, h.tempC,
      hfree.1, hfree.2.trans hcores.2⟩
  count := h.count
  names := h.names
  counts := h.counts
  globalFree free hfree := by
    refine ⟨?_, h.globalFree free hfree⟩
    have hfree' : d.globalFree = some free := hfree
    unfold Daemon.globalFree at hfree'
    split at hfree'
    · cases hfree'
    · cases hfree'
      exact le_max_left _ _

end Published

end RunnerSwarm
