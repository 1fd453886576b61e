import RunnerSwarm.Scaler.LaneRuns
import RunnerSwarm.Server.Payloads

/-!
# The main loop

`main` resolves the configuration, gives every pool a tick on its own lane, asks for a cleanup, now
and then for housekeeping, and waits. Ticks run on one executor and the maintenance jobs on
another, so that the loop waits for none of them. Told to stop, it finishes its round and then waits
for the jobs that were accepted.

`MainLoop.step` is one step of the loop, of a lane or of a worker, of whoever writes to the database
or sends the signal; a list of actions is an interleaving. `resolve` reads the four tables one
after the other. The loop is the only caller of `submit` and `forget_except`, and goes on when its
call has returned; an exception from a table or from the executor ends it.

The jobs are known by their numbers: `ticks`, `cleanups` and `housekeepings` record what was asked
for.
-/

namespace RunnerSwarm

/-- `CLEANUP_LANE`. -/
def cleanupLane : String := "cleanup"

/-- `HOUSEKEEPING_LANE`. -/
def housekeepingLane : String := "housekeeping"

/-- Where the loop is. -/
inductive LoopPhase
  /-- `while not stop.is_set()`. -/
  | checking
  | readingOverrides
  | readingGlobals (overrides : Table String OverrideRow)
  | readingStates (overrides : Table String OverrideRow) (globals : Table String String)
  | readingProtected (overrides : Table String OverrideRow) (globals : Table String String)
      (states : Table String PoolState)
  /-- `_refresh_federation`; its exceptions are caught. -/
  | refreshing (effective : EffectiveConfig)
  /-- The loop of `_submit_pool_ticks`, with the pools that are left. -/
  | ticking (effective : EffectiveConfig) (left : List PoolConfig)
  | cleaning (effective : EffectiveConfig)
  | counting
  /-- `stop.wait(poll)`. -/
  | waiting
  /-- `_shut_down` waits for the jobs of the pools, and then for those of the maintenance. -/
  | joiningTicks
  | joiningUpkeep
  | stopped

/-- A tick that was given to a lane, with the configuration it was made from. -/
structure SubmittedTick where
  id : ℕ
  pool : PoolConfig
  effective : EffectiveConfig

/-- The flags its job was made with. -/
def SubmittedTick.state (t : SubmittedTick) : PoolState := t.effective.stateFor t.pool.name

/-- A cleanup that was asked for. -/
structure SubmittedCleanup where
  id : ℕ
  effective : EffectiveConfig

/-- The containers that `_cleanup` spares at any age. -/
def SubmittedCleanup.exclude (c : SubmittedCleanup) : List String :=
  orchestratorContainer :: c.effective.protectedContainers

structure MainLoop where
  resolver : ConfigResolver
  /-- `prune_every`. -/
  pruneEvery : ℕ
  /-- `None` with `RORCH_DB=off`. -/
  database : Option Database
  stop : Bool := false
  phase : LoopPhase := .checking
  tickCount : ℕ := 0
  /-- `scaler.max_total_runners`. -/
  cap : ℤ
  /-- `pool_lanes`. -/
  lanes : TickLanes
  /-- `maintenance`. -/
  upkeep : TickLanes
  ticks : List SubmittedTick := []
  cleanups : List SubmittedCleanup := []
  /-- For each housekeeping the number of its job and the tick count. -/
  housekeepings : List (ℕ × ℕ) := []

inductive LoopAction
  /-- SIGTERM or SIGINT. -/
  | signal
  /-- The API, or another writer, leaves the database like this. -/
  | edit (database : Database)
  /-- What goes on in the lanes, apart from new calls. -/
  | lanes (a : LaneAction)
  | upkeep (a : LaneAction)
  /-- The next step of the loop. -/
  | proceed
  /-- Reading a table raises. -/
  | readRaises

/-- No call is under way. -/
def TickLanes.IsQuiet (s : TickLanes) : Prop := s.waiting = [] ∧ s.inside = none

instance (s : TickLanes) : Decidable s.IsQuiet :=
  inferInstanceAs (Decidable (s.waiting = [] ∧ s.inside = none))

/-- The next job of a lane. -/
def TickLanes.nextJob (s : TickLanes) (lane : String) : LaneJob := ⟨lane, s.nextId⟩

/-- `submit` is called. -/
def TickLanes.callSubmit (s : TickLanes) (lane : String) : TickLanes :=
  { s with waiting := s.waiting ++ [.submit (s.nextJob lane)], nextId := s.nextId + 1 }

/-- `forget_except` is called. -/
def TickLanes.callForget (s : TickLanes) (kept : List String) : TickLanes :=
  { s with waiting := s.waiting ++ [.forgetExcept kept] }

/-- `shutdown` returns: the workers have ended. A queued job has a worker, unless none could be
started for it. -/
def TickLanes.IsDone (s : TickLanes) : Prop := s.queue = [] ∧ s.running = []

instance (s : TickLanes) : Decidable s.IsDone :=
  inferInstanceAs (Decidable (s.queue = [] ∧ s.running = []))

/-- A new call, which only the loop makes. -/
def LaneAction.isCall : LaneAction → Bool
  | .call _ => true
  | _ => false

/-- `executor.submit` raises, and with it `submit`. -/
def LaneAction.raises : LaneAction → Bool
  | .enqueueRaises _ => true
  | _ => false

/-- It raises with the job on its queue. -/
def LoopAction.leavesJob : LoopAction → Bool
  | .lanes (.enqueueRaises queued) => queued
  | .upkeep (.enqueueRaises queued) => queued
  | _ => false

namespace LoopPhase

/-- The loop reads the tables. -/
def isReading : LoopPhase → Bool
  | .readingOverrides => true
  | .readingGlobals _ => true
  | .readingStates _ _ => true
  | .readingProtected _ _ _ => true
  | _ => false

/-- It has read one of them. -/
def readsOn : LoopPhase → Bool
  | .readingGlobals _ => true
  | .readingStates _ _ => true
  | .readingProtected _ _ _ => true
  | _ => false

/-- The loop has been left. -/
def hasLeft : LoopPhase → Bool
  | .joiningTicks => true
  | .joiningUpkeep => true
  | .stopped => true
  | _ => false

end LoopPhase

namespace MainLoop

/-- The next step of the loop, when no call of it is under way. -/
def proceed (s : MainLoop) : Option MainLoop :=
  match s.phase with
  | .checking =>
      some { s with phase := if s.stop then .joiningTicks else .readingOverrides }
  | .readingOverrides =>
      match s.database with
      | none => some { s with phase := .refreshing s.resolver.resolveWithoutStore }
      | some db => some { s with phase := .readingGlobals db.poolOverrides }
  | .readingGlobals overrides =>
      s.database.map fun db => { s with phase := .readingStates overrides db.globalOverrides }
  | .readingStates overrides globals =>
      s.database.map fun db => { s with phase := .readingProtected overrides globals db.poolState }
  | .readingProtected overrides globals states =>
      s.database.map fun db =>
        -- what `resolve` raises, it raises out of the loop
        match s.resolver.resolve ⟨overrides, globals, states, db.protectedContainers⟩ with
        | .error _ => { s with phase := .joiningTicks }
        | .ok effective => { s with phase := .refreshing effective }
  | .refreshing effective =>
      some { s with
        cap := effective.maxTotalRunners
        phase := if effective.paused then .cleaning effective
          else .ticking effective effective.pools }
  | .ticking effective [] =>
      some { s with
        lanes := s.lanes.callForget (effective.pools.map (·.name))
        phase := .cleaning effective }
  | .ticking effective (pool :: left) =>
      some { s with
        lanes := s.lanes.callSubmit pool.name
        ticks := s.ticks ++ [⟨s.lanes.nextId, pool, effective⟩]
        phase := .ticking effective left }
  | .cleaning effective =>
      some { s with
        upkeep := s.upkeep.callSubmit cleanupLane
        cleanups := s.cleanups ++ [⟨s.upkeep.nextId, effective⟩]
        phase := .counting }
  | .counting =>
      if (s.tickCount + 1) % s.pruneEvery = 0 then
        some { s with
          tickCount := s.tickCount + 1
          upkeep := s.upkeep.callSubmit housekeepingLane
          housekeepings := s.housekeepings ++ [(s.upkeep.nextId, s.tickCount + 1)]
          phase := .waiting }
      else some { s with tickCount := s.tickCount + 1, phase := .waiting }
  | .waiting => some { s with phase := .checking }
  | .joiningTicks => if s.lanes.IsDone then some { s with phase := .joiningUpkeep } else none
  | .joiningUpkeep => if s.upkeep.IsDone then some { s with phase := .stopped } else none
  | .stopped => none

def step (s : MainLoop) : LoopAction → Option MainLoop
  | .signal => some { s with stop := true }
  | .edit database => s.database.map fun _ => { s with database := some database }
  | .lanes a =>
      if a.isCall then none
      else (s.lanes.step a).map fun lanes =>
        { s with lanes := lanes, phase := if a.raises then .joiningTicks else s.phase }
  | .upkeep a =>
      if a.isCall then none
      else (s.upkeep.step a).map fun upkeep =>
        { s with upkeep := upkeep, phase := if a.raises then .joiningTicks else s.phase }
  | .proceed => if s.lanes.IsQuiet ∧ s.upkeep.IsQuiet then s.proceed else none
  | .readRaises =>
      if s.phase.isReading ∧ s.database.isSome then some { s with phase := .joiningTicks } else none

/-- The loop after `_build_runtime`. -/
def init (resolver : ConfigResolver) (database : Option Database) (pruneEvery workers : ℕ) :
    MainLoop where
  resolver := resolver
  pruneEvery := pruneEvery
  database := database
  cap := resolver.baseMaxTotal
  lanes := .init workers
  upkeep := .init 2

end MainLoop

end RunnerSwarm
