import Mathlib.Data.List.Sort
import RunnerSwarm.Lib.Collation
import RunnerSwarm.Config.Resolver
import RunnerSwarm.Server.Idempotency
import RunnerSwarm.Store.Jobs

/-!
# The store

`Store` holds every table of the orchestrator: those that configure it (`Database`), the history of
ticks and of runner events, the audit log, what GitHub last reported of each runner, the jobs and
the stored responses. The queries are those the HTTP layer makes.

A table with an `AUTOINCREMENT` key is the list of its rows in the order of their ids. Times are
`time.time()` of the call.

A database compares the strings of a key column by their `weight`: SQLite by the strings themselves,
MariaDB by what its collation makes of them. So a statement on a key can address a row that stands
under another spelling, which the upserts keep. The keys of the globals are three fixed words, which
no collation takes for one another.

* `latestSnapshots_get`: a pool is reported with the last row that names it;
* `eventCountsSince_get`: an event is reported with the number of its rows, and not at all when
  there is none.
-/

namespace RunnerSwarm

/-! ### Rows -/

/-- A row of `tick_snapshots`. -/
structure SnapshotRow where
  ts : ℚ
  pool : String
  display : String
  containers : ℤ
  online : ℤ
  idle : ℤ
  busy : ℤ
  queued : ℤ
  duration : ℚ
  deriving DecidableEq

/-- A row of `runner_events`. -/
structure EventRow where
  ts : ℚ
  pool : String
  container : String
  event : String
  reason : String
  deriving DecidableEq

/-- A row of `audit_log`. -/
structure AuditRow where
  ts : ℚ
  actor : String
  action : String
  target : String
  detail : String
  deriving DecidableEq

/-- A row of `runner_status` without its key. -/
structure RunnerStatus where
  pool : String
  status : String
  busy : Bool
  deriving DecidableEq

structure Store extends Database where
  /-- What the database compares of the string in a key column. -/
  weight : String → String
  tickSnapshots : List SnapshotRow
  runnerEvents : List EventRow
  auditLog : List AuditRow
  runnerStatus : Table String RunnerStatus
  runnerJobs : JobTable
  idempotency : Table String StoredResponse

/-- A float of the database. -/
def jsonNumber (q : ℚ) : Json := .float (.finite q)

def eventSpawn : String := "spawn"

def eventSpawnFailed : String := "spawn_failed"

def eventManualStop : String := "manual_stop"

def EventRow.json (row : EventRow) : Json :=
  .dict [("ts", jsonNumber row.ts), ("pool", .str row.pool), ("container", .str row.container),
    ("event", .str row.event), ("reason", .str row.reason)]

def AuditRow.json (row : AuditRow) : Json :=
  .dict [("ts", jsonNumber row.ts), ("actor", .str row.actor), ("action", .str row.action),
    ("target", .str row.target), ("detail", .str row.detail)]

/-- The columns `snapshots_since` selects. -/
def SnapshotRow.json (row : SnapshotRow) : Json :=
  .dict [("ts", jsonNumber row.ts), ("pool", .str row.pool), ("containers", .int row.containers),
    ("online", .int row.online), ("idle", .int row.idle), ("busy", .int row.busy),
    ("queued", .int row.queued), ("duration", jsonNumber row.duration)]

def RunnerStatus.json (status : RunnerStatus) : Json :=
  .dict [("pool", .str status.pool), ("status", .str status.status), ("busy", .bool status.busy)]

/-- The columns `recent_jobs` selects. -/
def JobRow.json (jobId : ℤ) (row : JobRow) : Json :=
  .dict [("job_id", .int jobId), ("pool", .str row.pool), ("repo", .str row.repo),
    ("workflow", .str row.workflow), ("job_name", .str row.jobName), ("runner", .str row.runner),
    ("status", .str row.status), ("conclusion", .str row.conclusion), ("url", .str row.url),
    ("started_at", .str row.startedAt), ("ts", jsonNumber row.ts),
    ("ended_ts", row.endedTs.elim .null jsonNumber)]

def CurrentJob.json (job : CurrentJob) : Json :=
  .dict [("runner", .str job.runner), ("repo", .str job.repo), ("workflow", .str job.workflow),
    ("job_name", .str job.jobName), ("url", .str job.url)]

namespace Store

variable (s : Store)

/-! ### Queries -/

def recentEvents (limit : ℕ) : List EventRow := s.runnerEvents.reverse.take limit

def recentAudit (limit : ℕ) : List AuditRow := s.auditLog.reverse.take limit

/-- Most recent snapshot per pool. -/
def latestSnapshots : Table String SnapshotRow :=
  s.tickSnapshots.foldl (fun t row => t.put row.pool row) Table.empty

/-- `ts >= now - hours * 3600`; no time compares with NaN. -/
def isSince (now : ℚ) (hours : PyFloat) (ts : ℚ) : Bool :=
  match hours with
  | .finite h => now - h * 3600 ≤ ts
  | .posInf => true
  | .negInf => false
  | .nan => false

def snapshotsSince (now : ℚ) (hours : PyFloat) : List SnapshotRow :=
  (s.tickSnapshots.filter fun row => isSince now hours row.ts).insertionSort fun a b => a.ts ≤ b.ts

/-- One row of the `GROUP BY event`. -/
def countEvent (counts : Table String ℕ) (row : EventRow) : Table String ℕ :=
  counts.upsert row.event 1 (· + 1)

def eventCountsSince (now : ℚ) (hours : PyFloat) : Table String ℕ :=
  (s.runnerEvents.filter fun row => isSince now hours row.ts).foldl countEvent Table.empty

/-- `ORDER BY ts DESC, job_id DESC LIMIT ?`. -/
def recentJobs (limit : ℕ) : List (ℤ × JobRow) :=
  (s.runnerJobs.rows.insertionSort fun a b =>
    b.2.ts < a.2.ts ∨ (b.2.ts = a.2.ts ∧ b.1 ≤ a.1)).take limit

def idempotentResponse (key : String) : Option StoredResponse :=
  s.idempotency.get (s.idempotency.spelling s.weight key)

/-- `runner_status().get(name, {}).get("busy", False)`. -/
def isBusy (container : String) : Bool := (s.runnerStatus.get container).elim false (·.busy)

/-! ### Writes -/

def recordEvent (now : ℚ) (event container pool reason : String) : Store :=
  { s with runnerEvents := s.runnerEvents ++ [⟨now, pool, container, event, reason⟩] }

def audit (now : ℚ) (actor action target detail : String) : Store :=
  { s with auditLog := s.auditLog ++ [⟨now, actor, action, target, detail⟩] }

def setPoolOverride (pool : String) (data : Json) (origin : String) (disabled : Bool) : Store :=
  { s with
    poolOverrides :=
      s.poolOverrides.put (s.poolOverrides.spelling s.weight pool) ⟨.value data, origin, disabled⟩ }

/-- Remove the override row: the pool reverts to its `config.yml` definition. -/
def deletePoolOverride (pool : String) : Store :=
  { s with poolOverrides := s.poolOverrides.deleteWhere fun key _ => s.weight key = s.weight pool }

def setGlobal (key value : String) : Store :=
  { s with globalOverrides := s.globalOverrides.put key value }

def setPoolState (pool : String) (paused draining : Bool) : Store :=
  { s with poolState := s.poolState.put (s.poolState.spelling s.weight pool) ⟨paused, draining⟩ }

def setProtected (container : String) (isProtected : Bool) : Store :=
  { s with
    protectedContainers :=
      if isProtected then
        if s.weight container ∈ s.protectedContainers.map s.weight then s.protectedContainers
        else s.protectedContainers ++ [container]
      else s.protectedContainers.filter fun key => s.weight key ≠ s.weight container }

def rememberResponse (now : ℚ) (key response : String) : Store :=
  { s with
    idempotency := s.idempotency.put (s.idempotency.spelling s.weight key) ⟨response, now⟩ }

/-! ### Spellings -/

/-- An override stands under another name that the database takes for this one. -/
def MistakesPool (pool : String) : Prop := s.poolOverrides.Clash s.weight pool

instance (pool : String) : Decidable (s.MistakesPool pool) :=
  inferInstanceAs (Decidable (s.poolOverrides.Clash s.weight pool))

variable {s} {pool : String}

theorem setPoolOverride_overrides (h : ¬ s.MistakesPool pool) (data : Json) (origin : String)
    (disabled : Bool) : (s.setPoolOverride pool data origin disabled).poolOverrides =
      s.poolOverrides.put pool ⟨.value data, origin, disabled⟩ := by
  unfold setPoolOverride
  rw [Table.spelling_eq h]

theorem deletePoolOverride_overrides (h : ¬ s.MistakesPool pool) :
    (s.deletePoolOverride pool).poolOverrides = s.poolOverrides.without pool :=
  Table.deleteWhere_weight h

end Store

/-! ### What the queries return -/

/-- **A pool's latest snapshot** is the last row that names it. -/
theorem Store.latestSnapshots_get (s : Store) (pool : String) :
    s.latestSnapshots.get pool = (s.tickSnapshots.filter (·.pool = pool)).getLast? := by
  have hlast := Table.get_foldl_put_last SnapshotRow.pool (fun row => row) s.tickSnapshots
    Table.empty pool
  rwa [Table.get_empty, Option.or_none, Option.map_id'] at hlast

/-- It is one of the rows, and names the pool. -/
theorem Store.mem_of_latestSnapshots {s : Store} {pool : String} {row : SnapshotRow}
    (h : s.latestSnapshots.get pool = some row) : row ∈ s.tickSnapshots ∧ row.pool = pool := by
  rw [Store.latestSnapshots_get] at h
  obtain ⟨hmem, hpool⟩ := List.mem_filter.1 (List.mem_of_getLast? h)
  exact ⟨hmem, of_decide_eq_true hpool⟩

/-- A row leaves a newest one of its name. -/
theorem Store.exists_latest {s : Store} {row : SnapshotRow} (h : row ∈ s.tickSnapshots) :
    ∃ newest, s.latestSnapshots.get row.pool = some newest := by
  have hmem : row ∈ s.tickSnapshots.filter (·.pool = row.pool) :=
    List.mem_filter.2 ⟨h, decide_eq_true rfl⟩
  rw [latestSnapshots_get]
  exact ⟨_, List.getLast?_eq_some_getLast (List.ne_nil_of_mem hmem)⟩

theorem get_foldl_countEvent (rows : List EventRow) (event : String) :
    (rows.foldl Store.countEvent Table.empty).get event =
      if rows.countP (·.event = event) = 0 then none
      else some (rows.countP (·.event = event)) := by
  induction rows using List.reverseRecOn with
  | nil => rfl
  | append_singleton rows row ih =>
    rw [List.foldl_append, List.foldl_cons, List.foldl_nil, Store.countEvent, Table.get_upsert,
      List.countP_append]
    by_cases hevent : event = row.event
    · subst hevent
      rw [if_pos rfl, ih]
      have hone : [row].countP (·.event = row.event) = 1 := by simp
      rw [hone, if_neg (Nat.succ_ne_zero _)]
      split_ifs with hzero
      · rw [hzero]
        rfl
      · rfl
    · have hskip : [row].countP (·.event = event) = 0 := by simp [Ne.symm hevent]
      rw [if_neg hevent, hskip, Nat.add_zero, ih]

/-- **An event's count** is the number of its rows. -/
theorem Store.eventCountsSince_get (s : Store) (now : ℚ) (hours : PyFloat) (event : String) :
    (s.eventCountsSince now hours).get event =
      let n := s.runnerEvents.countP fun row => row.event = event && isSince now hours row.ts
      if n = 0 then none else some n := by
  unfold eventCountsSince
  rw [get_foldl_countEvent, List.countP_filter]

end RunnerSwarm
