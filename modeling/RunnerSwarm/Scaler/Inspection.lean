import RunnerSwarm.Docker.Client
import RunnerSwarm.Scaler.Cap

/-!
# Inspections and what a tick does with them

`inspectPool` is `_inspect_pool`: it reaps exited containers, lists the running ones and the
runners GitHub knows, kills stuck containers and asks for the queue. What the host and GitHub
answer is an `Observations`; the result says which containers were removed and killed on the way,
and either raises or is a `PoolInspection`.

`tickSingle` and `tickPersonal` go from there to the actions of the tick. A personal pool inspects
one derived pool per repository, and does nothing when one of these inspections raised.
-/

namespace RunnerSwarm

/-- The answers one inspection gets. -/
structure Observations where
  /-- `docker ps -a` with `status=exited`: name and status. -/
  exited : CommandResult (List (String × String))
  /-- `docker ps`: names. -/
  running : CommandResult (List String)
  /-- `list_runners`. -/
  runners : Option (List RunnerInfo)
  /-- `docker ps`: name and running time. -/
  stuck : CommandResult (List (String × String))
  /-- `has_running_job`. -/
  runningJob : String → Option Bool
  /-- The queue scan, which may raise. -/
  queued : Except PyError ℕ

/-- What an inspection has done, and its result. -/
structure InspectionRun where
  removed : List String
  killed : List String
  outcome : Except PyError PoolInspection

/-- The runners of this pool among those of its scope. -/
def ownRunners (pool : PoolConfig) (runners : List RunnerInfo) : List RunnerInfo :=
  runners.filter fun r => startsWith r.name (pool.containerPrefix ++ "-")

/-- The names that GitHub reports as alive: own runners that are online, and busy ones. -/
def aliveNames (pool : PoolConfig) (runners : List RunnerInfo) : List String :=
  (((ownRunners pool runners).filter (·.status = "online")) ++ runners.filter (·.busy)).map (·.name)

/-- `_inspect_pool`. -/
def inspectPool (pool : PoolConfig) (obs : Observations) : InspectionRun :=
  let removed := cleanupExited obs.exited
  let runningNames := (runningContainers obs.running).dedup
  match obs.runners with
  | none => ⟨removed, [], .error .runtimeError⟩
  | some runners =>
      -- runners of other pools of the scope count neither as busy nor as idle
      let own := ownRunners pool runners
      let online := own.filter (·.status = "online")
      let killed := cleanupStuck obs.stuck
        (runningNames.filter fun name => name ∈ aliveNames pool runners) pool.stuckTimeout
        obs.runningJob
      { removed := removed
        killed := killed
        outcome := obs.queued.map fun queued =>
          { pool := pool
            running := runningNames.length
            queued := queued
            idle := online.countP fun r => !r.busy
            busy := online.countP (·.busy)
            offlineRunners := own.filter fun r => r.status = "offline" && r.name ∉ runningNames } }

/-! ### The cap -/

/-- What `_reserve_spawns` finds: the cap, the slots already reserved and the global listing. -/
structure CapView where
  cap : ℤ
  reserved : ℕ
  listed : CommandResult (List String)

namespace CapView

/-- The listing is asked for. -/
def lists (v : CapView) (toSpawn : ℕ) : Bool := toSpawn ≠ 0 && 0 < v.cap

/-- `_reserve_spawns`. -/
def reserve (v : CapView) (toSpawn : ℕ) : ℕ :=
  if v.lists toSpawn then
    min toSpawn (headroom v.cap (runningContainers v.listed).length v.reserved)
  else toSpawn

end CapView

/-! ### Ticks -/

/-- What a tick does to the host and to GitHub. -/
structure TickEffects where
  removed : List String := []
  killed : List String := []
  /-- Slots granted against the cap. -/
  granted : ℕ := 0
  spawns : List (PoolConfig × ℕ) := []
  deregistered : List (PoolConfig × RunnerInfo) := []
  /-- The global listing was asked for. -/
  capListed : Bool := false

/-- The runners started. -/
def TickEffects.started (e : TickEffects) : ℕ := (e.spawns.map Prod.snd).sum

/-- The offline runners of the inspected pools. -/
def offlineRunners (is : List PoolInspection) : List (PoolConfig × RunnerInfo) :=
  is.flatMap fun i => i.offlineRunners.map fun r => (i.pool, r)

/-- `_tick_single`. `stopped` is a draining pool or a hot host. -/
def tickSingle (pool : PoolConfig) (obs : Observations) (stopped : Bool) (cap : CapView) :
    TickEffects :=
  let r := inspectPool pool obs
  match r.outcome with
  | .error _ => { removed := r.removed, killed := r.killed }
  | .ok inspection =>
      let toSpawn := if stopped then 0 else calculateSpawnCount pool inspection
      let granted := cap.reserve toSpawn
      { removed := r.removed
        killed := r.killed
        granted := granted
        spawns := [(pool, granted)]
        deregistered := offlineRunners [inspection]
        capListed := cap.lists toSpawn }

/-- `_inspect_pools_parallel` without the reaping: `none` when an inspection raised. -/
def collectInspections (runs : List InspectionRun) : Option (List PoolInspection) :=
  (runs.mapM fun r : InspectionRun => r.outcome.toOption).map fun is =>
    is.insertionSort fun a b => !(b.pool.repo < a.pool.repo)

/-- `_tick_personal` on the discovered repositories. -/
def tickPersonal (pool : PoolConfig) (repos : List String) (obs : String → Observations)
    (draining : Bool) (cap : CapView) : TickEffects :=
  let runs := repos.map fun repo => inspectPool (pool.forRepository repo) (obs repo)
  let removed := runs.flatMap (·.removed)
  let killed := runs.flatMap (·.killed)
  match collectInspections runs with
  | none => { removed := removed, killed := killed }
  | some is =>
      let toSpawn := if draining then 0 else personalRequest pool is
      let granted := cap.reserve toSpawn
      { removed := removed
        killed := killed
        granted := granted
        spawns := personalAllocations is granted
        deregistered := offlineRunners is
        capListed := cap.lists toSpawn }

/-! ### Inspections -/

variable {pool : PoolConfig} {obs : Observations}

theorem inspectPool_removed : (inspectPool pool obs).removed = cleanupExited obs.exited := by
  unfold inspectPool
  split <;> rfl

/-- Without the runner list an inspection raises and kills nothing. -/
theorem inspectPool_noRunners (h : obs.runners = none) :
    (inspectPool pool obs).killed = [] ∧
      (inspectPool pool obs).outcome = .error .runtimeError := by
  unfold inspectPool
  rw [h]
  exact ⟨rfl, rfl⟩

/-- **What an inspection reports** when it does not raise. -/
theorem inspectPool_ok {i : PoolInspection} (h : (inspectPool pool obs).outcome = .ok i) :
    ∃ runners queued, obs.runners = some runners ∧ obs.queued = .ok queued ∧
      i = { pool := pool
            running := (runningContainers obs.running).dedup.length
            queued := queued
            idle := ((ownRunners pool runners).filter (·.status = "online")).countP fun r => !r.busy
            busy := ((ownRunners pool runners).filter (·.status = "online")).countP (·.busy)
            offlineRunners := (ownRunners pool runners).filter fun r =>
              r.status = "offline" && r.name ∉ (runningContainers obs.running).dedup } := by
  unfold inspectPool at h
  dsimp only at h
  split at h
  · cases h
  · next runners hrunners =>
    cases hq : obs.queued with
    | error e =>
      rw [hq] at h
      cases h
    | ok queued =>
      rw [hq] at h
      exact ⟨runners, queued, hrunners, rfl, (Except.ok.inj h).symm⟩

/-- What is killed was listed, and the running listing or GitHub does not vouch for it. -/
theorem mem_inspectPool_killed {name : String} (h : name ∈ (inspectPool pool obs).killed) :
    ∃ runners, obs.runners = some runners ∧ name ∈ obs.stuck.output.map Prod.fst ∧
      ¬ (name ∈ runningContainers obs.running ∧ name ∈ aliveNames pool runners) := by
  cases hr : obs.runners with
  | none =>
    rw [(inspectPool_noRunners hr).1] at h
    cases h
  | some runners =>
    unfold inspectPool at h
    rw [hr] at h
    simp only [cleanupStuck, List.mem_map, List.mem_filter] at h
    obtain ⟨⟨name', runningFor⟩, ⟨hmem, hcond⟩, rfl⟩ := h
    simp only [Bool.and_eq_true, decide_eq_true_eq] at hcond
    refine ⟨runners, rfl, List.mem_map_of_mem hmem, fun ⟨hrun, halive⟩ => hcond.1.1 ?_⟩
    exact ⟨List.mem_dedup.2 hrun, halive⟩

/-- A raised inspection ends a personal tick. -/
theorem collectInspections_none {runs : List InspectionRun} {r : InspectionRun} (hr : r ∈ runs)
    {e : PyError} (h : r.outcome = .error e) : collectInspections runs = none := by
  unfold collectInspections
  rw [Option.map_eq_none_iff]
  induction runs with
  | nil => cases hr
  | cons a runs ih =>
    rw [List.mapM_cons]
    rcases List.mem_cons.1 hr with rfl | hr
    · rw [h]
      rfl
    · rw [ih hr]
      cases a.outcome.toOption <;> rfl

/-- A personal tick goes on with one inspection for each run, in some order. -/
theorem collectInspections_some {runs : List InspectionRun} {is : List PoolInspection}
    (h : collectInspections runs = some is) :
    ∃ collected, is.Perm collected ∧
      List.Forall₂ (fun r i => r.outcome = .ok i) runs collected := by
  obtain ⟨collected, hcollected, rfl⟩ := Option.map_eq_some_iff.1 h
  refine ⟨collected, List.perm_insertionSort _ _, ?_⟩
  clear h
  induction runs generalizing collected with
  | nil =>
    cases hcollected
    exact .nil
  | cons r runs ih =>
    rw [List.mapM_cons] at hcollected
    obtain ⟨i, hi, hrest⟩ := Option.bind_eq_some_iff.1 hcollected
    obtain ⟨rest, hmap, hcons⟩ := Option.bind_eq_some_iff.1 hrest
    obtain rfl := Option.some.inj hcons
    refine .cons ?_ (ih rest hmap)
    cases hout : r.outcome with
    | error e =>
      rw [hout] at hi
      cases hi
    | ok j =>
      rw [hout] at hi
      exact congrArg _ (Option.some.inj hi)

/-- The inspections of a personal tick reap whatever becomes of the tick. -/
theorem tickPersonal_killed (pool : PoolConfig) (repos : List String) (obs : String → Observations)
    (draining : Bool) (cap : CapView) :
    (tickPersonal pool repos obs draining cap).killed =
      repos.flatMap fun repo => (inspectPool (pool.forRepository repo) (obs repo)).killed := by
  unfold tickPersonal
  dsimp only
  cases collectInspections _ <;> exact List.flatMap_map ..

end RunnerSwarm
