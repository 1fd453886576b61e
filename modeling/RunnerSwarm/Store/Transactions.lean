import RunnerSwarm.Lib.Connection
import RunnerSwarm.Store.Dialects
import RunnerSwarm.Store.History

/-!
# The store on its connection

Every method of the store is a program on the one connection it keeps: statements, and a commit when
it writes. On MariaDB a statement that meets a disconnection is tried again on a new connection.

The tables are maps from keys to rows, read in the order of their keys; a table with an
`AUTOINCREMENT` key is the list of its rows. Strings are compared exactly: the database tells the
names and keys of the calls apart. What the collation of MariaDB makes of others is told in
`RunnerSwarm.Store.Dialects`.

* `StoreOp` lists the methods, `StoreOp.call` is the program and `StoreOp.statements` the statements
  it issues on given tables;
* `call_effect`: a method that writes does to the connection what the transaction of its statements
  does.
-/

namespace RunnerSwarm

/-- A table with a primary key. -/
abbrev KeyedRows (κ β : Type) [Ord κ] := Std.ExtTreeMap κ β compare

/-- A row and its `updated_at`. -/
structure Stamped (β : Type) where
  row : β
  updatedAt : ℚ
  deriving DecidableEq

structure Tables where
  tickSnapshots : List SnapshotRow
  runnerEvents : List EventRow
  auditLog : List AuditRow
  poolOverrides : KeyedRows String (Stamped OverrideColumns)
  globalOverrides : KeyedRows String (Stamped String)
  poolState : KeyedRows String PoolState
  /-- With the column `since`. -/
  protectedContainers : KeyedRows String ℚ
  runnerStatus : KeyedRows String (Stamped RunnerStatus)
  runnerJobs : KeyedRows ℤ JobRow
  idempotency : KeyedRows String StoredResponse

/-- After the schema was created. -/
def Tables.empty : Tables where
  tickSnapshots := []
  runnerEvents := []
  auditLog := []
  poolOverrides := ∅
  globalOverrides := ∅
  poolState := ∅
  protectedContainers := ∅
  runnerStatus := ∅
  runnerJobs := ∅
  idempotency := ∅

/-- What GitHub reports of a runner: container, status and whether it is busy. -/
structure ReportedRunner where
  container : String
  status : String
  busy : Bool
  deriving DecidableEq

/-- Its row of `runner_status`. -/
def ReportedRunner.stamped (r : ReportedRunner) (now : ℚ) (pool : String) : Stamped RunnerStatus :=
  ⟨⟨pool, r.status, r.busy⟩, now⟩

/-- The tables `prune` goes through. -/
inductive HistoryTable
  | tickSnapshots
  | runnerEvents
  | auditLog
  deriving DecidableEq

def historyTables : List HistoryTable := [.tickSnapshots, .runnerEvents, .auditLog]

/-! ### Statements -/

namespace Tables

def insertTick (tick : SnapshotRow) (t : Tables) : Tables :=
  { t with tickSnapshots := t.tickSnapshots ++ [tick] }

def insertEvent (event : EventRow) (t : Tables) : Tables :=
  { t with runnerEvents := t.runnerEvents ++ [event] }

def insertAudit (row : AuditRow) (t : Tables) : Tables :=
  { t with auditLog := t.auditLog ++ [row] }

def upsertOverride (now : ℚ) (pool : String) (columns : OverrideColumns) (t : Tables) : Tables :=
  { t with poolOverrides := t.poolOverrides.insert pool ⟨columns, now⟩ }

def deleteOverride (pool : String) (t : Tables) : Tables :=
  { t with poolOverrides := t.poolOverrides.erase pool }

def upsertGlobal (now : ℚ) (key value : String) (t : Tables) : Tables :=
  { t with globalOverrides := t.globalOverrides.insert key ⟨value, now⟩ }

def deleteGlobal (key : String) (t : Tables) : Tables :=
  { t with globalOverrides := t.globalOverrides.erase key }

def upsertState (pool : String) (paused draining : Bool) (t : Tables) : Tables :=
  { t with poolState := t.poolState.insert pool ⟨paused, draining⟩ }

def upsertProtected (now : ℚ) (container : String) (t : Tables) : Tables :=
  { t with protectedContainers := t.protectedContainers.insert container now }

def deleteProtected (container : String) (t : Tables) : Tables :=
  { t with protectedContainers := t.protectedContainers.erase container }

def upsertResponse (now : ℚ) (key response : String) (t : Tables) : Tables :=
  { t with idempotency := t.idempotency.insert key ⟨response, now⟩ }

/-- `DELETE FROM idempotency WHERE ts < ?`. -/
def deleteResponses (cutoff : ℚ) (t : Tables) : Tables :=
  { t with idempotency := t.idempotency.filter fun _ row => cutoff ≤ row.ts }

/-- The times of the rows of a history table. -/
def times (t : Tables) : HistoryTable → List ℚ
  | .tickSnapshots => t.tickSnapshots.map (·.ts)
  | .runnerEvents => t.runnerEvents.map (·.ts)
  | .auditLog => t.auditLog.map (·.ts)

/-- `DELETE FROM {table} WHERE ts < ?`. -/
def deleteOlder (cutoff : ℚ) (table : HistoryTable) (t : Tables) : Tables :=
  match table with
  | .tickSnapshots => { t with tickSnapshots := t.tickSnapshots.filter (cutoff ≤ ·.ts) }
  | .runnerEvents => { t with runnerEvents := t.runnerEvents.filter (cutoff ≤ ·.ts) }
  | .auditLog => { t with auditLog := t.auditLog.filter (cutoff ≤ ·.ts) }

/-- Its `rowcount`. -/
def countOlder (cutoff : ℚ) (table : HistoryTable) (t : Tables) : ℕ :=
  (t.times table).countP (· < cutoff)

/-- `DELETE FROM runner_status WHERE pool = ?`. -/
def deleteStatuses (pool : String) (t : Tables) : Tables :=
  { t with runnerStatus := t.runnerStatus.filter fun _ row => row.row.pool ≠ pool }

/-- The upsert of `replace_runner_status`. -/
def upsertStatus (now : ℚ) (pool : String) (r : ReportedRunner) (t : Tables) : Tables :=
  { t with runnerStatus := t.runnerStatus.insert r.container (r.stamped now pool) }

/-- `_JOB_UPSERT_SQLITE` and `_JOB_UPSERT_MARIADB`. -/
def upsertJob (now : ℚ) (pool : String) (job : JobInfo) (t : Tables) : Tables :=
  { t with
    runnerJobs := t.runnerJobs.alter job.jobId fun row =>
      some (row.elim (job.newRow pool now) (job.update now)) }

/-- `UPDATE runner_jobs SET status='completed', … WHERE job_id=?`. -/
def closeOut (now : ℚ) (id : ℤ) (t : Tables) : Tables :=
  { t with runnerJobs := t.runnerJobs.modify id (·.close now) }

/-- `SELECT job_id, status, ended_ts FROM runner_jobs WHERE pool = ?`. -/
def knownJobs (pool : String) (t : Tables) : List (ℤ × JobRow) :=
  (t.runnerJobs.filter fun _ row => row.pool = pool).toList

end Tables

/-- A statement of `sync_jobs`. -/
inductive JobStep
  | select
  | upsert (job : JobInfo)
  | close (id : ℤ)
  | readBack (id : ℤ)
  deriving DecidableEq

def JobStep.change (now : ℚ) (pool : String) : JobStep → Tables → Tables
  | select => id
  | upsert job => Tables.upsertJob now pool job
  | close id => Tables.closeOut now id
  | readBack _ => id

/-! ### The methods -/

namespace StoreConnection

variable (mariadb : Bool)

/-- `_write`. -/
def write (change : Tables → Tables) : DbSession Tables Unit := do
  execute mariadb ⟨change, fun _ => ()⟩
  commit

/-- `_read`. -/
def read {ρ : Type} (query : Tables → ρ) : DbSession Tables ρ := execute mariadb ⟨id, query⟩

def recordTick (tick : SnapshotRow) : DbSession Tables Unit := write mariadb (.insertTick tick)

def recordEvent (event : EventRow) : DbSession Tables Unit := write mariadb (.insertEvent event)

def audit (row : AuditRow) : DbSession Tables Unit := write mariadb (.insertAudit row)

/-- Drop history older than `days`; returns the rows deleted. -/
def prune (now : ℚ) (days : ℤ) : DbSession Tables ℕ :=
  if days ≤ 0 then pure 0
  else do
    let cutoff := now - days * 86400
    let deleted ← historyTables.foldlM (fun deleted table => do
      let rowcount ← execute mariadb
        ⟨Tables.deleteOlder cutoff table, Tables.countOlder cutoff table⟩
      pure (deleted + rowcount)) 0
    commit
    pure deleted

def setPoolOverride (now : ℚ) (pool : String) (columns : OverrideColumns) :
    DbSession Tables Unit := write mariadb (.upsertOverride now pool columns)

def deletePoolOverride (pool : String) : DbSession Tables Unit :=
  write mariadb (.deleteOverride pool)

def setGlobal (now : ℚ) (key value : String) : DbSession Tables Unit :=
  write mariadb (.upsertGlobal now key value)

def deleteGlobal (key : String) : DbSession Tables Unit := write mariadb (.deleteGlobal key)

def setPoolState (pool : String) (paused draining : Bool) : DbSession Tables Unit :=
  write mariadb (.upsertState pool paused draining)

def setProtected (now : ℚ) (container : String) (isProtected : Bool) : DbSession Tables Unit :=
  if isProtected then write mariadb (.upsertProtected now container)
  else write mariadb (.deleteProtected container)

/-- Swap in this pool's runner list. -/
def replaceRunnerStatus (now : ℚ) (pool : String) (rows : List ReportedRunner) :
    DbSession Tables Unit := do
  execute mariadb ⟨Tables.deleteStatuses pool, fun _ => ()⟩
  rows.foldlM (fun _ row => execute mariadb ⟨Tables.upsertStatus now pool row, fun _ => ()⟩) ()
  commit

/-- The body of the loop over the reported jobs; `known` are the jobs of the pool. -/
def recordJob (now : ℚ) (pool : String) (known : List (ℤ × JobRow))
    (lists : List Announcement × List Announcement) (job : JobInfo) :
    DbSession Tables (List Announcement × List Announcement) := do
  execute mariadb ⟨Tables.upsertJob now pool job, fun _ => ()⟩
  match known.lookup job.jobId with
  | none => pure (lists.1 ++ [job.announcement], lists.2)
  | some previous =>
      if job.status = "completed" ∧ previous.endedTs = none then
        pure (lists.1, lists.2 ++ [job.announcement])
      else pure lists

/-- The job needs no closing: it was reported, or has ended. -/
def isSettled (seen : List ℤ) (previous : ℤ × JobRow) : Bool :=
  previous.1 ∈ seen || previous.2.endedTs.isSome

/-- The body of the loop over the known jobs. -/
def closeJob (now : ℚ) (seen : List ℤ) (lists : List Announcement × List Announcement)
    (previous : ℤ × JobRow) : DbSession Tables (List Announcement × List Announcement) :=
  if isSettled seen previous then pure lists
  else do
    execute mariadb ⟨Tables.closeOut now previous.1, fun _ => ()⟩
    let found ← execute mariadb ⟨id, fun t => t.runnerJobs[previous.1]?⟩
    match found with
    | none => pure lists
    | some row => pure (lists.1, lists.2 ++ [row.announcement previous.1])

/-- Record this scan's jobs; returns the newly started and the just finished ones. -/
def syncJobs (now : ℚ) (pool : String) (jobs : List JobInfo) :
    DbSession Tables (List Announcement × List Announcement) := do
  let known ← execute mariadb ⟨id, Tables.knownJobs pool⟩
  let recorded ← jobs.foldlM (recordJob mariadb now pool known) ([], [])
  let closed ← known.foldlM (closeJob mariadb now (jobs.map (·.jobId))) recorded
  commit
  pure closed

def rememberResponse (now : ℚ) (key response : String) : DbSession Tables Unit :=
  write mariadb (.upsertResponse now key response)

def pruneIdempotency (now hours : ℚ) : DbSession Tables Unit :=
  write mariadb (.deleteResponses (now - hours * 3600))

/-! ### What they issue -/

variable {mariadb : Bool}

/-- The statements of `replace_runner_status`. -/
def statusStatements (now : ℚ) (pool : String) (rows : List ReportedRunner) :
    List (Tables → Tables) :=
  Tables.deleteStatuses pool :: rows.map (Tables.upsertStatus now pool)

/-- The statements of `prune`. -/
def pruneStatements (now : ℚ) (days : ℤ) : List (Tables → Tables) :=
  historyTables.map (Tables.deleteOlder (now - days * 86400))

/-- What closes a job out, and reads it back. -/
def closeSteps (seen : List ℤ) (previous : ℤ × JobRow) : List JobStep :=
  if isSettled seen previous then [] else [.close previous.1, .readBack previous.1]

/-- The statements of `sync_jobs` after its first, which has returned `known`. -/
def jobSteps (jobs : List JobInfo) (known : List (ℤ × JobRow)) : List JobStep :=
  jobs.map .upsert ++ known.flatMap (closeSteps (jobs.map (·.jobId)))

/-- The statements of `sync_jobs` on these tables. -/
def syncSteps (t : Tables) (pool : String) (jobs : List JobInfo) : List JobStep :=
  .select :: jobSteps jobs (t.knownJobs pool)

def jobStatements (now : ℚ) (pool : String) (jobs : List JobInfo) (known : List (ℤ × JobRow)) :
    List (Tables → Tables) := (jobSteps jobs known).map (JobStep.change now pool)

theorem issues_statuses (now : ℚ) (pool : String) (rows : List ReportedRunner) :
    Issues mariadb (statusStatements now pool rows) (do
      execute mariadb ⟨Tables.deleteStatuses pool, fun _ => ()⟩
      rows.foldlM (fun _ row => execute mariadb ⟨Tables.upsertStatus now pool row, fun _ => ()⟩)
        ()) := by
  have hrows := issues_foldlM (f := fun row => [Tables.upsertStatus now pool row])
    (g := fun _ row => execute mariadb ⟨Tables.upsertStatus now pool row, fun _ => ()⟩)
    (fun _ row => issues_execute ⟨Tables.upsertStatus now pool row, fun _ => ()⟩) rows ()
  rw [← List.map_eq_flatMap] at hrows
  exact (issues_execute ⟨Tables.deleteStatuses pool, fun _ => ()⟩).bind fun _ => hrows

theorem issues_prune (cutoff : ℚ) :
    Issues mariadb (historyTables.map (Tables.deleteOlder cutoff))
      (historyTables.foldlM (fun deleted table => do
        let rowcount ←
          execute mariadb ⟨Tables.deleteOlder cutoff table, Tables.countOlder cutoff table⟩
        pure (deleted + rowcount)) 0) := by
  have hround : ∀ (deleted : ℕ) (table : HistoryTable),
      Issues mariadb [Tables.deleteOlder cutoff table] (do
        let rowcount ←
          execute mariadb ⟨Tables.deleteOlder cutoff table, Tables.countOlder cutoff table⟩
        pure (deleted + rowcount)) := fun deleted table =>
    (issues_execute ⟨Tables.deleteOlder cutoff table, Tables.countOlder cutoff table⟩).bind
      fun _ => issues_pure _
  exact issues_foldlM hround historyTables 0

theorem issues_recordJob (now : ℚ) (pool : String) (known : List (ℤ × JobRow))
    (lists : List Announcement × List Announcement) (job : JobInfo) :
    Issues mariadb [Tables.upsertJob now pool job]
      (recordJob mariadb now pool known lists job) := by
  unfold recordJob
  refine (issues_execute ⟨Tables.upsertJob now pool job, fun _ => ()⟩).bind fun _ => ?_
  cases known.lookup job.jobId with
  | none => exact issues_pure _
  | some previous =>
    dsimp only
    split_ifs
    · exact issues_pure _
    · exact issues_pure _

theorem issues_closeJob (now : ℚ) (pool : String) (seen : List ℤ)
    (lists : List Announcement × List Announcement) (previous : ℤ × JobRow) :
    Issues mariadb ((closeSteps seen previous).map (JobStep.change now pool))
      (closeJob mariadb now seen lists previous) := by
  unfold closeSteps closeJob
  split_ifs
  · exact issues_pure _
  · refine (issues_execute ⟨Tables.closeOut now previous.1, fun _ => ()⟩).bind fun _ => ?_
    refine (issues_execute ⟨id, fun t : Tables => t.runnerJobs[previous.1]?⟩).bind fun found => ?_
    cases found with
    | none => exact issues_pure _
    | some row => exact issues_pure _

theorem issues_jobs (now : ℚ) (pool : String) (jobs : List JobInfo) (known : List (ℤ × JobRow)) :
    Issues mariadb (jobStatements now pool jobs known) (do
      let recorded ← jobs.foldlM (recordJob mariadb now pool known) ([], [])
      known.foldlM (closeJob mariadb now (jobs.map (·.jobId))) recorded) := by
  have hrecord := issues_foldlM (@issues_recordJob mariadb now pool known) jobs ([], [])
  rw [← List.map_eq_flatMap] at hrecord
  unfold jobStatements jobSteps
  rw [List.map_append, List.map_map, List.map_flatMap]
  exact hrecord.bind fun recorded =>
    issues_foldlM (@issues_closeJob mariadb now pool (jobs.map (·.jobId))) known recorded

end StoreConnection

/-! ### Any method -/

/-- A method of the store; those that read are a single `SELECT`. -/
inductive StoreOp
  | read
  | recordTick (tick : SnapshotRow)
  | recordEvent (event : EventRow)
  | audit (row : AuditRow)
  | prune (now : ℚ) (days : ℤ)
  | setPoolOverride (now : ℚ) (pool : String) (columns : OverrideColumns)
  | deletePoolOverride (pool : String)
  | setGlobal (now : ℚ) (key value : String)
  | deleteGlobal (key : String)
  | setPoolState (pool : String) (paused draining : Bool)
  | setProtected (now : ℚ) (container : String) (isProtected : Bool)
  | replaceRunnerStatus (now : ℚ) (pool : String) (rows : List ReportedRunner)
  | syncJobs (now : ℚ) (pool : String) (jobs : List JobInfo)
  | rememberResponse (now : ℚ) (key response : String)
  | pruneIdempotency (now hours : ℚ)

namespace StoreOp

open StoreConnection

/-- The program of a method, without what it returns. -/
def call (mariadb : Bool) : StoreOp → DbSession Tables Unit
  | read => StoreConnection.read mariadb fun _ => ()
  | recordTick tick => StoreConnection.recordTick mariadb tick
  | recordEvent event => StoreConnection.recordEvent mariadb event
  | audit row => StoreConnection.audit mariadb row
  | prune now days => do
      let _ ← StoreConnection.prune mariadb now days
      pure ()
  | setPoolOverride now pool columns => StoreConnection.setPoolOverride mariadb now pool columns
  | deletePoolOverride pool => StoreConnection.deletePoolOverride mariadb pool
  | setGlobal now key value => StoreConnection.setGlobal mariadb now key value
  | deleteGlobal key => StoreConnection.deleteGlobal mariadb key
  | setPoolState pool paused draining => StoreConnection.setPoolState mariadb pool paused draining
  | setProtected now container isProtected =>
      StoreConnection.setProtected mariadb now container isProtected
  | replaceRunnerStatus now pool rows => StoreConnection.replaceRunnerStatus mariadb now pool rows
  | syncJobs now pool jobs => do
      let _ ← StoreConnection.syncJobs mariadb now pool jobs
      pure ()
  | rememberResponse now key response => StoreConnection.rememberResponse mariadb now key response
  | pruneIdempotency now hours => StoreConnection.pruneIdempotency mariadb now hours

/-- The method writes, and ends with a commit. -/
def writes : StoreOp → Bool
  | read => false
  | prune _ days => 0 < days
  | _ => true

/-- The statements a method issues on these tables. -/
def statements (t : Tables) : StoreOp → List (Tables → Tables)
  | read => [id]
  | recordTick tick => [.insertTick tick]
  | recordEvent event => [.insertEvent event]
  | audit row => [.insertAudit row]
  | prune now days => pruneStatements now days
  | setPoolOverride now pool columns => [.upsertOverride now pool columns]
  | deletePoolOverride pool => [.deleteOverride pool]
  | setGlobal now key value => [.upsertGlobal now key value]
  | deleteGlobal key => [.deleteGlobal key]
  | setPoolState pool paused draining => [.upsertState pool paused draining]
  | setProtected now container isProtected =>
      [if isProtected then .upsertProtected now container else .deleteProtected container]
  | replaceRunnerStatus now pool rows => statusStatements now pool rows
  | syncJobs now pool jobs => (syncSteps t pool jobs).map (JobStep.change now pool)
  | rememberResponse now key response => [.upsertResponse now key response]
  | pruneIdempotency now hours => [.deleteResponses (now - hours * 3600)]

variable {mariadb : Bool}

theorem effect_write (change : Tables → Tables) (c : Connection Tables) :
    (write mariadb change).effect c = (transaction mariadb [change]).effect c :=
  (issues_execute ⟨change, fun _ => ()⟩).transacts (fun _ _ => rfl) c

theorem effect_prune (now : ℚ) {days : ℤ} (hdays : 0 < days) (c : Connection Tables) :
    (StoreConnection.prune mariadb now days).effect c =
      (transaction mariadb (pruneStatements now days)).effect c := by
  unfold StoreConnection.prune
  rw [if_neg (not_le.2 hdays)]
  exact (issues_prune _).transacts (fun a d => DbSession.effect_bind_pure commit (fun _ => a) d) c

theorem effect_replaceRunnerStatus (now : ℚ) (pool : String) (rows : List ReportedRunner)
    (c : Connection Tables) :
    (StoreConnection.replaceRunnerStatus mariadb now pool rows).effect c =
      (transaction mariadb (statusStatements now pool rows)).effect c := by
  unfold StoreConnection.replaceRunnerStatus
  rw [← DbSession.bind_assoc]
  exact (issues_statuses now pool rows).transacts (fun _ _ => rfl) c

theorem effect_syncJobs (now : ℚ) (pool : String) (jobs : List JobInfo) {c : Connection Tables}
    (hclean : c.current = c.committed) :
    (StoreConnection.syncJobs mariadb now pool jobs).effect c =
      (transaction mariadb (id :: jobStatements now pool jobs (c.committed.knownJobs pool))).effect
        c := by
  unfold StoreConnection.syncJobs
  rw [effect_query_bind _ _ hclean, effect_transaction_cons, DbSession.effect_bind,
    DbSession.effect_bind]
  rcases execute mariadb ⟨id, fun _ => ()⟩ c with ⟨_ | _, d⟩
  · rfl
  · dsimp only
    rw [← DbSession.bind_assoc]
    exact (issues_jobs now pool jobs _).transacts
      (fun a d => DbSession.effect_bind_pure commit (fun _ => a) d) d

/-- **A method that writes** is the transaction of its statements. -/
theorem call_effect {op : StoreOp} (hwrites : op.writes = true) {c : Connection Tables}
    (hclean : c.current = c.committed) :
    (op.call mariadb).effect c = (transaction mariadb (op.statements c.committed)).effect c := by
  cases op with
  | read => cases hwrites
  | prune now days =>
    have heffect := @effect_prune mariadb now days (of_decide_eq_true hwrites) c
    exact (DbSession.effect_bind_pure _ _ c).trans heffect
  | replaceRunnerStatus now pool rows => exact effect_replaceRunnerStatus now pool rows c
  | syncJobs now pool jobs =>
    exact (DbSession.effect_bind_pure _ _ c).trans (effect_syncJobs now pool jobs hclean)
  | setProtected now container isProtected =>
    cases isProtected with
    | true => exact effect_write _ c
    | false => exact effect_write _ c
  | recordTick tick => exact effect_write _ c
  | recordEvent event => exact effect_write _ c
  | audit row => exact effect_write _ c
  | setPoolOverride now pool columns => exact effect_write _ c
  | deletePoolOverride pool => exact effect_write _ c
  | setGlobal now key value => exact effect_write _ c
  | deleteGlobal key => exact effect_write _ c
  | setPoolState pool paused draining => exact effect_write _ c
  | rememberResponse now key response => exact effect_write _ c
  | pruneIdempotency now hours => exact effect_write _ c

end StoreOp

end RunnerSwarm
