import RunnerSwarm.Lib.Run
import RunnerSwarm.Lib.Holders
import RunnerSwarm.Scaler.Allocation

/-!
# Ticks under the global cap

The part of a tick that starts runners, for any number of lanes ticking at once. A lane `i : ι`
runs one tick at a time: it reserves slots (`_reserve_spawns`, under `_cap_lock`), hands its
operations one by one to a worker pool of its own (`_execute_runner_operations`), waits for that
pool and gives back what was never handed over (`_run_runner_operations`). Each worker that ran a
spawn gives back one slot (`_spawn_reserved`).

`Scaler.step` is one atomic step of one thread or of the environment, so that a list of actions is
an interleaving:

* the environment changes the cap, and containers exit;
* the lane takes `_cap_lock` and reads the cap, `docker ps` answers or raises, slots are granted;
* `submit` returns or raises, in the second case possibly with the job already on the queue and
  a worker there to take it;
* a worker takes a job, `docker run` succeeds, returns false or raises, the slot is given back.

`live` counts the containers whose `docker run` has returned. Of the source's counters only
`_reserved_spawns` exists in the program; `granted` and `givenBack` record, for each lane, what
`_reserve_spawns` has returned to it and what it has passed to `_release_spawns`.
-/

namespace RunnerSwarm

/-- An operation for the worker pool of a tick. -/
inductive RunnerJob
  | deregister (pool : PoolConfig) (runner : RunnerInfo)
  | spawn (pool : PoolConfig)
  deriving DecidableEq

def RunnerJob.isSpawn : RunnerJob → Bool
  | .deregister _ _ => false
  | .spawn _ => true

/-- The spawns among some jobs. -/
def spawnsIn (jobs : List RunnerJob) : ℕ := jobs.countP (·.isSpawn)

/-- A tick once its inspections are done. `stopped` is a draining pool or a hot host. -/
inductive TickPlan
  | single (pool : PoolConfig) (inspection : PoolInspection) (stopped : Bool)
  | personal (pool : PoolConfig) (inspections : RepoInspections) (draining : Bool)

namespace TickPlan

/-- What the tick asks `_reserve_spawns` for. -/
def toSpawn : TickPlan → ℕ
  | .single pool i stopped => if stopped then 0 else calculateSpawnCount pool i
  | .personal pool is draining => if draining then 0 else personalRequest pool is.items

def spawnAllocations : TickPlan → ℕ → List (PoolConfig × ℕ)
  | .single pool _ _, granted => [(pool, granted)]
  | .personal _ is _, granted => personalAllocations is.items granted

def inspections : TickPlan → List PoolInspection
  | .single _ i _ => [i]
  | .personal _ is _ => is.items

def maxWorkers : TickPlan → ℕ
  | .single pool _ _ => pool.runnerOperationWorkers.toNat
  | .personal pool _ _ => pool.runnerOperationWorkers.toNat

end TickPlan

/-! ### The submit loop -/

/-- The loop that hands operations to the worker pool. Each turn pops a deregistration and then a
spawn; `spawnNext` says that the turn is at its second half. -/
structure Submitting where
  deregistrationJobs : List (PoolConfig × RunnerInfo)
  spawnJobs : List PoolConfig
  submittedSpawns : ℕ
  spawnNext : Bool
  deriving DecidableEq

namespace Submitting

/-- The loop before its first turn. -/
def start (inspections : List PoolInspection) (allocations : List (PoolConfig × ℕ)) :
    Submitting where
  deregistrationJobs := inspections.flatMap fun i => i.offlineRunners.map fun r => (i.pool, r)
  spawnJobs := allocations.flatMap fun a => List.replicate a.2 a.1
  submittedSpawns := 0
  spawnNext := false

def operationCount (s : Submitting) : ℕ := s.deregistrationJobs.length + s.spawnJobs.length

def popDeregistration (s : Submitting) : Option (RunnerJob × Submitting) :=
  s.deregistrationJobs.getLast?.map fun (pool, runner) => (.deregister pool runner,
    { s with deregistrationJobs := s.deregistrationJobs.dropLast, spawnNext := true })

def popSpawn (s : Submitting) : Option (RunnerJob × Submitting) :=
  s.spawnJobs.getLast?.map fun pool => (.spawn pool,
    { s with spawnJobs := s.spawnJobs.dropLast, spawnNext := false })

/-- The next job to submit, and the loop without it. -/
def nextJob (s : Submitting) : Option (RunnerJob × Submitting) :=
  if s.spawnNext then s.popSpawn.or s.popDeregistration
  else s.popDeregistration.or s.popSpawn

/-- `submit` has returned: a spawn counts as handed over. -/
def submitted (s : Submitting) (job : RunnerJob) : Submitting :=
  if job.isSpawn then { s with submittedSpawns := s.submittedSpawns + 1 } else s

end Submitting

/-! ### States -/

/-- Where the thread of a lane is. -/
inductive Phase
  | idle
  /-- The inspections are done. -/
  | planned (plan : TickPlan)
  /-- Holds `_cap_lock`, has read the cap, and `docker ps` has listed so many containers. -/
  | reserving (plan : TickPlan) (cap : ℤ) (listed : Option ℕ)
  | submitting (loop : Submitting) (spawnCount : ℕ)
  /-- Leaves the worker pool; `submitted` is what `_run_runner_operations` will get to know. -/
  | waiting (spawnCount submitted : ℕ)

/-- A lane with its worker pool. -/
structure Tick where
  phase : Phase := .idle
  workers : ℕ := 0
  queue : List RunnerJob := []
  running : List RunnerJob := []
  /-- Spawns that are over and whose worker has not given the slot back yet. -/
  returned : ℕ := 0
  granted : ℕ := 0
  givenBack : ℕ := 0

/-- The scaler and the host. -/
structure Scaler (ι : Type*) where
  maxTotalRunners : ℤ
  reservedSpawns : ℕ
  capLock : Option ι
  live : ℕ
  ticks : ι → Tick

/-- How `docker run` ends for `spawn_runner`. -/
inductive SpawnOutcome
  | started
  | refused
  | raised
  deriving DecidableEq

inductive CapAction (ι : Type*)
  | setCap (cap : ℤ)
  | containerExits
  | beginTick (i : ι) (plan : TickPlan)
  | nothingToSpawn (i : ι)
  | takeLock (i : ι)
  | listContainers (i : ι) (total : ℕ)
  | listRaises (i : ι)
  | grant (i : ι)
  | submit (i : ι)
  | submitRaises (i : ι) (queued : Bool)
  | loopEnds (i : ι)
  | takeJob (i : ι)
  | jobEnds (i : ι) (n : ℕ) (outcome : SpawnOutcome)
  | workerReleases (i : ι)
  | tickReleases (i : ι)

/-! ### Steps -/

/-- `_reserve_spawns` once the count is known. -/
def headroom (cap : ℤ) (total reserved : ℕ) : ℕ := (cap - total - reserved).toNat

/-- The slots `_reserve_spawns` grants; `none` while the count is missing. -/
def grantedSlots (toSpawn reserved : ℕ) (cap : ℤ) : Option ℕ → Option ℕ
  | none => if 0 < cap then none else some toSpawn
  | some total => some (min toSpawn (headroom cap total reserved))

namespace Tick

/-- The submit loop for the granted slots. -/
def enterLoop (t : Tick) (plan : TickPlan) (granted : ℕ) : Tick :=
  let allocations := plan.spawnAllocations granted
  let loop := Submitting.start plan.inspections allocations
  { t with
    phase := .submitting loop (allocations.map Prod.snd).sum
    workers := min plan.maxWorkers loop.operationCount
    granted := t.granted + granted }

/-- `docker run` has returned, or the deregistration has. -/
def jobEnds (t : Tick) (n : ℕ) (job : RunnerJob) : Tick :=
  { t with
    running := t.running.eraseIdx n
    returned := if job.isSpawn then t.returned + 1 else t.returned }

def giveBack (t : Tick) (count : ℕ) : Tick := { t with givenBack := t.givenBack + count }

end Tick

namespace Scaler

variable {ι : Type*} [DecidableEq ι]

def setTick (s : Scaler ι) (i : ι) (t : Tick) : Scaler ι :=
  { s with ticks := Function.update s.ticks i t }

/-- `_release_spawns`: the counter is clamped at 0, and a count of 0 does not take the lock. -/
def releaseSpawns (s : Scaler ι) (count : ℕ) : Option (Scaler ι) :=
  if count = 0 then some s
  else if s.capLock.isSome then none
  else some { s with reservedSpawns := s.reservedSpawns - count }

/-- One step of the ticks or of their environment. -/
def step (s : Scaler ι) : CapAction ι → Option (Scaler ι)
  | .setCap cap => some { s with maxTotalRunners := cap }
  | .containerExits => if s.live = 0 then none else some { s with live := s.live - 1 }
  | .beginTick i plan =>
      match (s.ticks i).phase with
      | .idle => some (s.setTick i { s.ticks i with phase := .planned plan })
      | _ => none
  | .nothingToSpawn i =>
      match (s.ticks i).phase with
      | .planned plan =>
          if plan.toSpawn = 0 then some (s.setTick i ((s.ticks i).enterLoop plan 0)) else none
      | _ => none
  | .takeLock i =>
      match (s.ticks i).phase with
      | .planned plan =>
          -- the cap is read under the lock, the containers are counted after it
          if plan.toSpawn = 0 || s.capLock.isSome then none
          else some { s.setTick i
              { s.ticks i with phase := .reserving plan s.maxTotalRunners none } with
            capLock := some i }
      | _ => none
  | .listContainers i total =>
      match (s.ticks i).phase with
      | .reserving plan cap none =>
          if 0 < cap then
            some (s.setTick i { s.ticks i with phase := .reserving plan cap (some total) })
          else none
      | _ => none
  | .listRaises i =>
      match (s.ticks i).phase with
      | .reserving _ _ none =>
          -- the exception leaves `with` and ends the tick
          some { s.setTick i { s.ticks i with phase := .idle } with capLock := none }
      | _ => none
  | .grant i =>
      match (s.ticks i).phase with
      | .reserving plan cap listed =>
          (grantedSlots plan.toSpawn s.reservedSpawns cap listed).map fun granted =>
            { s.setTick i ((s.ticks i).enterLoop plan granted) with
              capLock := none
              reservedSpawns := s.reservedSpawns + granted }
      | _ => none
  | .submit i =>
      match (s.ticks i).phase with
      | .submitting loop spawnCount =>
          loop.nextJob.map fun (job, rest) =>
            s.setTick i { s.ticks i with
              phase := .submitting (rest.submitted job) spawnCount
              queue := (s.ticks i).queue ++ [job] }
      | _ => none
  | .submitRaises i queued =>
      match (s.ticks i).phase with
      | .submitting loop spawnCount =>
          -- the number handed over is lost with the return value
          loop.nextJob.map fun (job, _) =>
            s.setTick i { s.ticks i with
              phase := .waiting spawnCount 0
              queue := (s.ticks i).queue ++ if queued then [job] else [] }
      | _ => none
  | .loopEnds i =>
      match (s.ticks i).phase with
      | .submitting loop spawnCount =>
          if loop.nextJob.isNone then
            some (s.setTick i
              { s.ticks i with phase := .waiting spawnCount loop.submittedSpawns })
          else none
      | _ => none
  | .takeJob i =>
      match (s.ticks i).queue with
      | [] => none
      | job :: rest =>
          -- a worker that has still to give its slot back is not free
          if (s.ticks i).running.length + (s.ticks i).returned < (s.ticks i).workers then
            some (s.setTick i
              { s.ticks i with queue := rest, running := (s.ticks i).running ++ [job] })
          else none
  | .jobEnds i n outcome =>
      (s.ticks i).running[n]?.map fun job =>
        { s.setTick i ((s.ticks i).jobEnds n job) with
          live := if job.isSpawn && outcome = .started then s.live + 1 else s.live }
  | .workerReleases i =>
      if (s.ticks i).returned = 0 then none
      else (s.setTick i { (s.ticks i).giveBack 1 with
          returned := (s.ticks i).returned - 1 }).releaseSpawns 1
  | .tickReleases i =>
      match (s.ticks i).phase with
      | .waiting spawnCount submitted =>
          if (s.ticks i).queue = [] ∧ (s.ticks i).running = [] ∧ (s.ticks i).returned = 0 then
            (s.setTick i { (s.ticks i).giveBack (spawnCount - submitted) with
              phase := .idle }).releaseSpawns (spawnCount - submitted)
          else none
      | _ => none

/-- The scaler before its first tick, on a host with `live` containers. -/
def init (cap : ℤ) (live : ℕ) : Scaler ι where
  maxTotalRunners := cap
  reservedSpawns := 0
  capLock := none
  live := live
  ticks := fun _ => {}

end Scaler

end RunnerSwarm
