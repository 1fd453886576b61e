import RunnerSwarm.Config.LoadConfig
import RunnerSwarm.Daemon.Rounds

/-!
# Maintenance and slow pools

The cleanup and the housekeeping have an executor of their own, with a worker for each of their two
lanes, and by default the pools have one with a worker for each configured pool. So a job that was
accepted can be started at once, however slow the other ticks are.

* `pruneEveryOf` and `poolTickWorkers` are the settings of `_build_runtime`;
* `upkeep_on_time`: every round asks for a cleanup, every `pruneEvery`-th for housekeeping, and
  neither waits for a worker;
* `no_pool_waits`: no tick waits for another while no more pools have had ticks than there are
  workers, which is always so with the default and up to 64 pools in `config.yml` alone.
-/

namespace RunnerSwarm

/-! ### Settings -/

/-- `_bounded_env`, from the value of the variable. -/
def boundedEnv (value : Option String) (default low high : ℤ) : ℤ :=
  let raw := strip (value.getD "")
  let value := if raw = "" then default else (intOfString raw).getD default
  min high (max low value)

theorem boundedEnv_mem (value : Option String) (default : ℤ) {low high : ℤ} (h : low ≤ high) :
    low ≤ boundedEnv value default low high ∧ boundedEnv value default low high ≤ high :=
  ⟨le_min h (le_max_left _ _), min_le_left _ _⟩

/-- The workers for the ticks of the pools, from `POOL_TICK_WORKERS`. -/
def poolTickWorkers (value : Option String) (pools : ℕ) : ℕ :=
  (boundedEnv value (max 8 pools) 1 64).toNat

theorem poolTickWorkers_pos (value : Option String) (pools : ℕ) :
    0 < poolTickWorkers value pools := by
  have hbounds : (1 : ℤ) ≤ boundedEnv value (max 8 pools) 1 64 ∧ _ :=
    boundedEnv_mem value (max 8 pools) (by decide)
  unfold poolTickWorkers
  omega

/-- Without a setting there is a worker for each pool. -/
theorem le_poolTickWorkers {value : Option String} (hunset : strip (value.getD "") = "")
    {pools : ℕ} (hpools : pools ≤ 64) : pools ≤ poolTickWorkers value pools := by
  unfold poolTickWorkers boundedEnv
  rw [hunset]
  dsimp only
  rw [if_pos rfl]
  omega

/-- `max(1, 900 // poll)`, `none` for the `ZeroDivisionError`. -/
def pruneEveryOf (poll : ℤ) : Option ℕ :=
  if poll = 0 then none else some (max 1 (Int.fdiv 900 poll)).toNat

/-- Housekeeping is due every quarter of an hour, or every round when rounds are longer. -/
theorem pruneEveryOf_spec {poll : ℤ} {n : ℕ} (h : pruneEveryOf poll = some n) :
    0 < n ∧ (0 < poll → n * poll ≤ max 900 poll) := by
  unfold pruneEveryOf at h
  split_ifs at h
  obtain rfl := Option.some.inj h
  refine ⟨by omega, fun hpoll => ?_⟩
  rw [Int.toNat_of_nonneg (by omega), max_mul_of_nonneg _ _ hpoll.le, one_mul, max_comm]
  refine max_le_max ?_ le_rfl
  rw [Int.fdiv_eq_ediv_of_nonneg _ hpoll.le]
  exact Int.ediv_mul_le 900 hpoll.ne'

namespace TickLanes

variable {s : TickLanes}

/-- **A queued job has a free worker** when the lanes that can be busy are no more than the workers
are. -/
theorem LanesInv.prompt (h : s.LanesInv) (names : List String)
    (hnames : ∀ job ∈ s.unfinished, job.lane ∈ names) (hfew : names.dedup.length ≤ s.maxWorkers)
    (hqueue : s.queue ≠ []) : ∃ t, s.step .startJob = some t := by
  have hlanes : (s.unfinished.map (·.lane)).length ≤ names.dedup.length := by
    refine (h.oneEach.subperm fun lane hlane => ?_).length_le
    obtain ⟨job, hjob, rfl⟩ := List.mem_map.1 hlane
    exact List.mem_dedup.2 (hnames job hjob)
  obtain ⟨job, rest, hcons⟩ := List.exists_cons_of_ne_nil hqueue
  have hroom : s.running.length < s.maxWorkers := by
    unfold unfinished at hlanes
    rw [List.length_map, List.length_append, hcons, List.length_cons] at hlanes
    omega
  unfold TickLanes.step
  simp only [hcons]
  exact ⟨_, if_pos hroom⟩

theorem unfinished_subset_jobs : s.unfinished ⊆ s.jobs := fun job hjob => by
  unfold jobs handedOver
  exact List.mem_append_right _ (List.mem_append_left _ (List.mem_append_left _ hjob))

end TickLanes

namespace MainLoop

variable {s t : MainLoop}

/-! ### Maintenance -/

/-- What the loop has done for the maintenance, at any moment. -/
structure UpkeepOnTime (s : MainLoop) : Prop where
  /-- A cleanup for each round, that of the round under way included. -/
  cleanups : s.tickCount ≤ s.cleanups.length ∧ s.cleanups.length ≤ s.tickCount + 1
  /-- Housekeeping in every `pruneEvery`-th round, and in no other. -/
  housekeepings : s.housekeepings.map Prod.snd = houseTurns s.pruneEvery s.tickCount
  /-- No cleanup runs beside another, and no housekeeping. -/
  oneEach : (s.upkeep.unfinished.map (·.lane)).Nodup
  /-- The jobs are those that were asked for. -/
  asked : ∀ job ∈ s.upkeep.handedOver,
    (job.lane = cleanupLane ∧ ∃ c ∈ s.cleanups, c.id = job.id) ∨
      (job.lane = housekeepingLane ∧ ∃ n, (job.id, n) ∈ s.housekeepings)
  /-- A job that was accepted can be started at once, however long the ticks take. -/
  prompt : s.upkeep.queue ≠ [] → ∃ t, s.step (.upkeep .startJob) = some t

theorem LoopInv.upkeepOnTime (h : LoopInv s) : UpkeepOnTime s where
  cleanups := h.cleaned
  housekeepings := h.kept
  oneEach := h.upkeep.oneEach
  asked job hjob := h.upkeepAsked job
    (List.mem_append_right _ (List.mem_append_left _ hjob))
  prompt hqueue := by
    have htwo : [cleanupLane, housekeepingLane].dedup.length ≤ s.upkeep.maxWorkers :=
      h.twoWorkers ▸ by decide
    obtain ⟨upkeep, hstart⟩ := h.upkeep.prompt [cleanupLane, housekeepingLane]
      (fun job hjob => by
        have hlane := h.upkeepAsked job (TickLanes.unfinished_subset_jobs hjob)
        rcases hlane with ⟨hlane, -⟩ | ⟨hlane, -⟩ <;> rw [hlane] <;> simp) htwo hqueue
    exact ⟨{ s with upkeep := upkeep }, by
      unfold MainLoop.step
      simp only [LaneAction.isCall, LaneAction.raises, hstart]
      rfl⟩

theorem step_maxWorkers {a : LoopAction} (h : s.step a = some t) :
    t.lanes.maxWorkers = s.lanes.maxWorkers := by
  cases step_cases h with
  | lanes hcall hlanes => exact (TickLanes.step_frame hlanes).maxWorkers
  | proceed hlanes hupkeep hproceeds => cases hproceeds <;> rfl
  | _ => rfl

/-- **Maintenance is on time**, in every interleaving in which no `executor.submit` raises with its
job on the queue. -/
theorem upkeep_on_time (resolver : ConfigResolver) (database : Option Database) {poll : ℤ}
    {n : ℕ} (hpoll : pruneEveryOf poll = some n) (workers : ℕ) {l : List LoopAction}
    (hok : Along step LeavesNone (init resolver database n workers) l)
    (h : run step (init resolver database n workers) l = some s) :
    UpkeepOnTime s ∧ s.pruneEvery = n ∧ 0 < n ∧ (0 < poll → n * poll ≤ max 900 poll) := by
  have hinv : LoopInv s :=
    run_invariant (fun _ _ _ hu hv hstep => hu.step hv hstep) (loopInv_init _ _ _ _) hok h
  have hsame : s.pruneEvery = n :=
    run_invariant (I := fun s => s.pruneEvery = n)
      (fun _ _ _ hu _ hstep => (step_settings hstep).1.trans hu) rfl hok h
  exact ⟨hinv.upkeepOnTime, hsame, pruneEveryOf_spec hpoll⟩

/-- Two rounds, the first with a tick that does not end: the second one is refused. -/
def slowRounds : List LoopAction := List.flatten [
  [.proceed, .proceed, .proceed, .proceed], takenJob.map .lanes,
  [.proceed, .lanes (.takeLock 0), .lanes .release, .proceed], takenJob.map .upkeep,
  [.proceed, .proceed, .proceed, .proceed, .proceed, .proceed],
  [.lanes (.takeLock 0), .lanes .check, .lanes .release],
  [.proceed, .lanes (.takeLock 0), .lanes .release, .upkeep (.endJob 0 .returns), .proceed],
  takenJob.map .upkeep, [.proceed, .upkeep (.takeLock 0), .upkeep .check, .upkeep .enqueue]]

/-- Housekeeping is due in the second round, and a worker is free for it. -/
theorem upkeep_on_time_slowRounds :
    ∃ s, run step (init onePoolResolver none 2 8) slowRounds = some s ∧
      s.tickCount = 2 ∧ s.upkeep.queue = [⟨housekeepingLane, 2⟩] ∧ UpkeepOnTime s := by
  have hrun : (run step (init onePoolResolver none 2 8) slowRounds).map
      (fun s => (s.tickCount, s.upkeep.queue)) = some (2, [⟨housekeepingLane, 2⟩]) := by
    decide +kernel
  obtain ⟨s, h, hs⟩ := Option.map_eq_some_iff.1 hrun
  have hpoll : pruneEveryOf 450 = some 2 := by decide
  exact ⟨s, h, congrArg Prod.fst hs, congrArg Prod.snd hs,
    (upkeep_on_time onePoolResolver none hpoll 8 (by decide +kernel) h).1⟩

/-! ### Slow pools -/

/-- A tick that was accepted can be started at once. -/
def NoneWaits (s : MainLoop) : Prop :=
  s.lanes.queue ≠ [] → ∃ t, s.step (.lanes .startJob) = some t

theorem LoopInv.noneWaits (h : LoopInv s) (names : List String)
    (hnames : ∀ t ∈ s.ticks, t.pool.name ∈ names) (hfew : names.dedup.length ≤ s.lanes.maxWorkers) :
    NoneWaits s := by
  intro hqueue
  obtain ⟨lanes, hstart⟩ := h.lanes.prompt names (fun job hjob => by
    obtain ⟨tick, htick, -, hname⟩ := h.asked job (TickLanes.unfinished_subset_jobs hjob)
    exact hname ▸ hnames tick htick) hfew hqueue
  exact ⟨{ s with lanes := lanes }, by
    unfold MainLoop.step
    simp only [LaneAction.isCall, LaneAction.raises, hstart]
    rfl⟩

/-- Without a store, every round is of the pools of `config.yml`. -/
structure BaseOnly (s : MainLoop) : Prop where
  database : s.database = none
  phase : s.phase.readsOn = false
  effective : ∀ effective, s.phase = .refreshing effective →
    effective.pools = s.resolver.basePools
  ticking : ∀ effective left, s.phase = .ticking effective left → left ⊆ s.resolver.basePools
  ticks : ∀ t ∈ s.ticks, t.pool ∈ s.resolver.basePools

theorem BaseOnly.step (h : BaseOnly s) {a : LoopAction} (hstep : s.step a = some t) :
    BaseOnly t := by
  cases step_cases hstep with
  | signal => exact { h with }
  | edit hdb =>
    rw [h.database] at hdb
    cases hdb
  | @lanes a lanes hcall hlanes =>
    cases a.raises with
    | true => exact { h with phase := rfl, effective := nofun, ticking := nofun }
    | false => exact { h with }
  | @upkeep a upkeep hcall hupkeep =>
    cases a.raises with
    | true => exact { h with phase := rfl, effective := nofun, ticking := nofun }
    | false => exact { h with }
  | readRaises hreading => exact { h with phase := rfl, effective := nofun, ticking := nofun }
  | proceed hlanes hupkeep hproceeds =>
    cases hproceeds with
    | checks hphase =>
      by_cases hstop : s.stop = true
      · rw [if_pos hstop]
        exact { h with phase := rfl, effective := nofun, ticking := nofun }
      · rw [if_neg hstop]
        exact { h with phase := rfl, effective := nofun, ticking := nofun }
    | noStore hphase hdb =>
      refine { h with phase := rfl, effective := fun effective heq => ?_, ticking := nofun }
      cases heq
      rfl
    | readsOverrides hphase hdb | readsGlobals hphase hdb | readsStates hphase hdb
    | resolves hphase hdb hresolve =>
      rw [h.database] at hdb
      cases hdb
    | goesOn hphase hpaused =>
      refine { h with phase := rfl, effective := nofun, ticking := fun effective left heq => ?_ }
      cases heq
      exact (h.effective _ hphase) ▸ List.Subset.refl _
    | @submits effective pool left hphase =>
      have hsub := h.ticking _ _ hphase
      refine { h with
        phase := rfl
        effective := nofun
        ticking := fun effective left heq => ?_
        ticks := fun t ht => ?_ }
      · cases heq
        exact fun p hp => hsub (List.mem_cons_of_mem _ hp)
      · rcases List.mem_append.1 ht with hold | hnew
        · exact h.ticks t hold
        · rw [List.mem_singleton.1 hnew]
          exact hsub List.mem_cons_self
    | _ => exact { h with phase := rfl, effective := nofun, ticking := nofun }

theorem baseOnly_init (resolver : ConfigResolver) (n workers : ℕ) :
    BaseOnly (init resolver none n workers) where
  database := rfl
  phase := rfl
  effective _ hphase := nomatch (show LoopPhase.checking = _ from hphase)
  ticking _ _ hphase := nomatch (show LoopPhase.checking = _ from hphase)
  ticks _ ht := absurd ht List.not_mem_nil

/-- **No tick waits for another** while no more pools have had ticks than there are workers, and no
`executor.submit` raises with its job on the queue; by default there are enough workers for up to 64
pools of `config.yml` without a store. -/
theorem no_pool_waits (resolver : ConfigResolver) (database : Option Database) (n : ℕ)
    (value : Option String) {l : List LoopAction}
    (hok : Along step LeavesNone (init resolver database n
      (poolTickWorkers value resolver.basePools.length)) l)
    (h : run step (init resolver database n
      (poolTickWorkers value resolver.basePools.length)) l = some s) :
    0 < s.lanes.maxWorkers ∧
      ((s.ticks.map (·.pool.name)).dedup.length ≤ s.lanes.maxWorkers → NoneWaits s) ∧
      (database = none → strip (value.getD "") = "" → resolver.basePools.length ≤ 64 →
        NoneWaits s) := by
  have hinv : LoopInv s :=
    run_invariant (fun _ _ _ hu hv hstep => hu.step hv hstep) (loopInv_init _ _ _ _) hok h
  have hworkers : s.lanes.maxWorkers = poolTickWorkers value resolver.basePools.length :=
    run_invariant
      (I := fun s => s.lanes.maxWorkers = poolTickWorkers value resolver.basePools.length)
      (fun _ _ _ hu _ hstep => (step_maxWorkers hstep).trans hu) rfl hok h
  refine ⟨hworkers ▸ poolTickWorkers_pos _ _, fun hfew => ?_, fun hnone hunset hpools => ?_⟩
  · exact hinv.noneWaits _ (fun t ht => List.mem_map.2 ⟨t, ht, rfl⟩) hfew
  · subst hnone
    have hbase : BaseOnly s :=
      run_invariant (fun _ _ _ hu _ hstep => hu.step hstep) (baseOnly_init _ _ _) hok h
    have hresolver : s.resolver = resolver :=
      run_invariant (I := fun s => s.resolver = resolver)
        (fun _ _ _ hu _ hstep => (step_settings hstep).2.trans hu) rfl hok h
    refine hinv.noneWaits (resolver.basePools.map (·.name)) (fun t ht => ?_) ?_
    · exact List.mem_map_of_mem (hresolver ▸ hbase.ticks t ht)
    · calc (resolver.basePools.map (·.name)).dedup.length
          ≤ (resolver.basePools.map (·.name)).length := (List.dedup_sublist _).length_le
        _ = resolver.basePools.length := List.length_map _
        _ ≤ s.lanes.maxWorkers := hworkers ▸ le_poolTickWorkers hunset hpools

/-- The tick of a pool on its queue. -/
def queuedTick : List LoopAction :=
  [.proceed, .proceed, .proceed, .proceed, .lanes (.takeLock 0), .lanes .check, .lanes .enqueue]

theorem no_pool_waits_queuedTick :
    ∃ s, run step (init onePoolResolver none 2 8) queuedTick = some s ∧
      s.lanes.queue = [⟨"ci", 0⟩] ∧ NoneWaits s := by
  have hrun : (run step (init onePoolResolver none 2 8) queuedTick).map (·.lanes.queue) =
      some [⟨"ci", 0⟩] := by
    decide +kernel
  obtain ⟨s, h, hqueue⟩ := Option.map_eq_some_iff.1 hrun
  exact ⟨s, h, hqueue, (no_pool_waits onePoolResolver none 2 none (by decide +kernel) h).2.2 rfl
    (by decide +kernel) (by decide)⟩

end MainLoop

end RunnerSwarm
