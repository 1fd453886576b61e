import Mathlib.Data.List.Sort
import RunnerSwarm.Lib.Table

/-!
# The job table

`runner_jobs` keeps one row per job, keyed by the job's id. `syncJobs` records the jobs one scan of
a pool reported: it upserts a row for each, closes the pool's open rows that were not reported,
and returns what has started and what has finished, to be logged.

`known`, the rows the decisions are made from, are those of the calling pool, while the upsert
finds the row of any pool and never changes its pool. The database compares the names of the pools
by their `weight`: SQLite by the names themselves, MariaDB by what its collation makes of them.

The last sections say what a call does to one job: `syncJobs_listed` when the scan reports it
(once), `syncJobs_unlisted` when it does not.
-/

namespace RunnerSwarm

/-- One Actions job as GitHub reports it, with the runner that took it. -/
structure JobInfo where
  jobId : ℤ
  repo : String
  workflow : String
  jobName : String
  runner : String
  status : String
  conclusion : String
  url : String
  startedAt : String
  deriving DecidableEq

/-- A row of `runner_jobs` without its key. -/
structure JobRow where
  pool : String
  repo : String
  workflow : String
  jobName : String
  runner : String
  status : String
  conclusion : String
  url : String
  startedAt : String
  ts : ℚ
  endedTs : Option ℚ
  deriving DecidableEq

/-- What is logged about a job. The rows read back when a job vanished have no `status`. -/
structure Announcement where
  jobId : ℤ
  repo : String
  workflow : String
  jobName : String
  runner : String
  status : Option String
  conclusion : String
  url : String
  deriving DecidableEq

abbrev JobTable := Table ℤ JobRow

namespace JobInfo

/-- `now if status == "completed" else None`. -/
def ended (job : JobInfo) (now : ℚ) : Option ℚ :=
  if job.status = "completed" then some now else none

/-- The values of the `INSERT`. -/
def newRow (job : JobInfo) (pool : String) (now : ℚ) : JobRow :=
  { pool := pool, repo := job.repo, workflow := job.workflow, jobName := job.jobName,
    runner := job.runner, status := job.status, conclusion := job.conclusion, url := job.url,
    startedAt := job.startedAt, ts := now, endedTs := job.ended now }

/-- The `DO UPDATE SET` of the upsert. -/
def update (job : JobInfo) (now : ℚ) (row : JobRow) : JobRow :=
  { row with
    status := job.status
    conclusion := job.conclusion
    runner := job.runner
    endedTs := row.endedTs.or (job.ended now) }

/-- `record`. -/
def announcement (job : JobInfo) : Announcement :=
  { jobId := job.jobId, repo := job.repo, workflow := job.workflow, jobName := job.jobName,
    runner := job.runner, status := some job.status, conclusion := job.conclusion,
    url := job.url }

end JobInfo

namespace JobRow

/-- The `UPDATE` that closes a row out. -/
def close (row : JobRow) (now : ℚ) : JobRow :=
  { row with
    status := "completed"
    conclusion := if row.conclusion = "" then "unobserved" else row.conclusion
    endedTs := some now }

/-- The `SELECT` after it. -/
def announcement (row : JobRow) (jobId : ℤ) : Announcement :=
  { jobId := jobId, repo := row.repo, workflow := row.workflow, jobName := row.jobName,
    runner := row.runner, status := none, conclusion := row.conclusion, url := row.url }

end JobRow

/-! ### `sync_jobs` -/

/-- The table and the two lists a call builds up. -/
structure JobSync where
  table : JobTable
  started : List Announcement
  finished : List Announcement

/-- The body of the loop over the reported jobs. -/
def recordJob (known : JobTable) (pool : String) (now : ℚ) (s : JobSync) (job : JobInfo) :
    JobSync :=
  let table := s.table.upsert job.jobId (job.newRow pool now) (job.update now)
  match known.get job.jobId with
  | none => { s with table := table, started := s.started ++ [job.announcement] }
  | some previous =>
      if job.status = "completed" ∧ previous.endedTs = none then
        { s with table := table, finished := s.finished ++ [job.announcement] }
      else { s with table := table }

/-- `UPDATE runner_jobs SET status='completed', … WHERE job_id=?`. -/
def closeOut (table : JobTable) (id : ℤ) (now : ℚ) : JobTable :=
  table.modify fun id' row => if id' = id then row.close now else row

/-- The body of the loop over the known jobs. -/
def closeJob (seen : List ℤ) (now : ℚ) (s : JobSync) (previous : ℤ × JobRow) : JobSync :=
  if previous.1 ∈ seen ∨ previous.2.endedTs ≠ none then s
  else
    let table := closeOut s.table previous.1 now
    match table.get previous.1 with
    | some row =>
        { s with table := table, finished := s.finished ++ [row.announcement previous.1] }
    | none => { s with table := table }

/-- `WHERE pool = ?`. -/
def knownJobs (weight : String → String) (table : JobTable) (pool : String) : JobTable :=
  table.deleteWhere fun _ row => weight row.pool ≠ weight pool

/-- `Store.sync_jobs` at time `now`. -/
def syncJobs (weight : String → String) (table : JobTable) (pool : String) (jobs : List JobInfo)
    (now : ℚ) : JobSync :=
  let known := knownJobs weight table pool
  let recorded := jobs.foldl (recordJob known pool now) ⟨table, [], []⟩
  known.rows.foldl (closeJob (jobs.map (·.jobId)) now) recorded

/-! ### `jobs_by_runner` -/

/-- What the dashboard shows for a runner. -/
structure CurrentJob where
  runner : String
  repo : String
  workflow : String
  jobName : String
  url : String
  deriving DecidableEq

def JobRow.current (row : JobRow) : CurrentJob :=
  { runner := row.runner, repo := row.repo, workflow := row.workflow, jobName := row.jobName,
    url := row.url }

/-- The `WHERE` of the query. -/
def JobRow.isCurrent (row : JobRow) : Bool :=
  row.endedTs = none && row.runner ≠ "" && row.status = "in_progress"

/-- The rows in the order of the primary key, in which both databases read the table. -/
def inKeyOrder (table : JobTable) : List (ℤ × JobRow) :=
  table.rows.insertionSort fun a b => a.1 ≤ b.1

/-- `Store.jobs_by_runner`, at one runner: of several rows the last one stays in the dict. -/
def jobsByRunner (table : JobTable) (runner : String) : Option CurrentJob :=
  (((inKeyOrder table).filter fun r => r.2.isCurrent && r.2.runner = runner).getLast?).map
    (·.2.current)

theorem mem_inKeyOrder {table : JobTable} {r : ℤ × JobRow} :
    r ∈ inKeyOrder table ↔ r ∈ table.rows := List.mem_insertionSort _

/-- A runner with one current row is shown with it. -/
theorem jobsByRunner_eq {table : JobTable} {id : ℤ} {row : JobRow} (hrow : table.get id = some row)
    (hcur : row.isCurrent = true) (hone : ∀ id' row', table.get id' = some row' →
      row'.isCurrent = true → row'.runner = row.runner → id' = id) :
    jobsByRunner table row.runner = some row.current := by
  unfold jobsByRunner
  have hmem : (id, row) ∈ (inKeyOrder table).filter fun r =>
      r.2.isCurrent && r.2.runner = row.runner := by
    rw [List.mem_filter, mem_inKeyOrder]
    exact ⟨Table.get_eq_some_iff.1 hrow, by simp [hcur]⟩
  obtain ⟨last, hlast⟩ : ∃ last, ((inKeyOrder table).filter fun r =>
      r.2.isCurrent && r.2.runner = row.runner).getLast? = some last :=
    Option.isSome_iff_exists.1 (List.getLast?_isSome.2 (List.ne_nil_of_mem hmem))
  rw [hlast]
  have hin := List.mem_filter.1 (List.mem_of_getLast? hlast)
  rw [mem_inKeyOrder] at hin
  obtain ⟨hcur', hrunner⟩ : last.2.isCurrent = true ∧ last.2.runner = row.runner := by
    simpa using hin.2
  have hid := hone last.1 last.2 (Table.get_eq_some_iff.2 hin.1) hcur' hrunner
  have hget : table.get id = some last.2 := Table.get_eq_some_iff.2 (hid ▸ hin.1)
  rw [hrow] at hget
  rw [Option.map_some, ← Option.some.inj hget]

/-! ### What a call does to one job -/

/-- One job in a `JobSync`: its row, and how often it is announced. -/
structure JobView where
  row : Option JobRow
  started : ℕ
  finished : ℕ
  deriving DecidableEq

/-- How often a job is announced. -/
def announced (id : ℤ) (l : List Announcement) : ℕ := l.countP fun a => a.jobId = id

theorem announced_append (id : ℤ) (l m : List Announcement) :
    announced id (l ++ m) = announced id l + announced id m := List.countP_append

theorem announced_singleton (id : ℤ) (a : Announcement) :
    announced id [a] = if a.jobId = id then 1 else 0 := by
  unfold announced
  by_cases h : a.jobId = id <;> simp [h]

def JobSync.view (s : JobSync) (id : ℤ) : JobView :=
  ⟨s.table.get id, announced id s.started, announced id s.finished⟩

/-- The row and the announcements after one report. -/
def JobView.record (known : Option JobRow) (pool : String) (now : ℚ) (job : JobInfo)
    (v : JobView) : JobView where
  row := some (v.row.elim (job.newRow pool now) (job.update now))
  started := v.started + if known = none then 1 else 0
  finished := v.finished +
    if job.status = "completed" ∧ ∃ r, known = some r ∧ r.endedTs = none then 1 else 0

variable {known table : JobTable} {pool : String} {now : ℚ} {s : JobSync} {job : JobInfo} {id : ℤ}

theorem view_recordJob_of_ne (h : job.jobId ≠ id) :
    (recordJob known pool now s job).view id = s.view id := by
  have hget : (s.table.upsert job.jobId (job.newRow pool now) (job.update now)).get id =
      s.table.get id := by rw [Table.get_upsert, if_neg h.symm]
  have hann : announced id [job.announcement] = 0 := by
    rw [announced_singleton]
    exact if_neg h
  unfold recordJob
  cases known.get job.jobId with
  | none => simp [JobSync.view, hget, announced_append, hann]
  | some previous =>
    simp only
    split_ifs <;> simp [JobSync.view, hget, announced_append, hann]

theorem view_recordJob_self :
    (recordJob known pool now s job).view job.jobId =
      (s.view job.jobId).record (known.get job.jobId) pool now job := by
  have hget : (s.table.upsert job.jobId (job.newRow pool now) (job.update now)).get job.jobId =
      some ((s.table.get job.jobId).elim (job.newRow pool now) (job.update now)) := by
    rw [Table.get_upsert, if_pos rfl]
  have hann : announced job.jobId [job.announcement] = 1 := by
    rw [announced_singleton]
    exact if_pos rfl
  unfold recordJob JobView.record
  cases known.get job.jobId with
  | none => simp [JobSync.view, hget, announced_append, hann]
  | some previous =>
    by_cases hdone : job.status = "completed" ∧ previous.endedTs = none
    · simp [JobSync.view, hget, announced_append, hann, hdone]
    · simp [JobSync.view, hget, hdone]

/-- Reports about other jobs do not matter. -/
theorem view_recordJobs_of_notMem {jobs : List JobInfo} (h : id ∉ jobs.map (·.jobId)) :
    (jobs.foldl (recordJob known pool now) s).view id = s.view id := by
  induction jobs generalizing s with
  | nil => rfl
  | cons job jobs ih =>
    simp only [List.map_cons, List.mem_cons, not_or] at h
    rw [List.foldl_cons, ih h.2, view_recordJob_of_ne (Ne.symm h.1)]

/-- A job that is reported once. -/
theorem view_recordJobs_of_mem {jobs : List JobInfo} (hnd : (jobs.map (·.jobId)).Nodup)
    (h : job ∈ jobs) :
    (jobs.foldl (recordJob known pool now) s).view job.jobId =
      (s.view job.jobId).record (known.get job.jobId) pool now job := by
  obtain ⟨pre, post, rfl⟩ := List.append_of_mem h
  rw [List.map_append, List.map_cons, List.nodup_append] at hnd
  obtain ⟨-, hpost, hdis⟩ := hnd
  have hpre : job.jobId ∉ pre.map (·.jobId) := fun hin => hdis _ hin _ List.mem_cons_self rfl
  have hpost' : job.jobId ∉ post.map (·.jobId) := (List.nodup_cons.1 hpost).1
  rw [List.foldl_append, List.foldl_cons, view_recordJobs_of_notMem hpost', view_recordJob_self,
    view_recordJobs_of_notMem hpre]

/-- The row and the announcements after the job was closed out. -/
def JobView.close (now : ℚ) (v : JobView) : JobView :=
  match v.row with
  | some row => { v with row := some (row.close now), finished := v.finished + 1 }
  | none => v

variable {seen : List ℤ} {previous : ℤ × JobRow}

theorem get_closeOut_of_ne {id' : ℤ} (h : id' ≠ id) :
    (closeOut table id now).get id' = table.get id' := by
  unfold closeOut
  rw [Table.get_modify]
  cases table.get id' with
  | none => rfl
  | some row => rw [Option.map_some, if_neg h]

theorem get_closeOut_self : (closeOut table id now).get id = (table.get id).map (·.close now) := by
  unfold closeOut
  rw [Table.get_modify]
  cases table.get id with
  | none => rfl
  | some row => rw [Option.map_some, if_pos rfl, Option.map_some]

theorem view_closeJob_of_ne (h : previous.1 ≠ id) :
    (closeJob seen now s previous).view id = s.view id := by
  have hget : (closeOut s.table previous.1 now).get id = s.table.get id :=
    get_closeOut_of_ne h.symm
  unfold closeJob
  split_ifs
  · rfl
  · cases hrow : (closeOut s.table previous.1 now).get previous.1 with
    | none => simp [JobSync.view, hget, hrow]
    | some row =>
      have hann : announced id [row.announcement previous.1] = 0 := by
        rw [announced_singleton]
        exact if_neg h
      simp [JobSync.view, hget, hrow, announced_append, hann]

theorem view_closeJob_of_kept (h : previous.1 ∈ seen ∨ previous.2.endedTs ≠ none) :
    closeJob seen now s previous = s := if_pos h

theorem view_closeJob_self (h : ¬ (previous.1 ∈ seen ∨ previous.2.endedTs ≠ none)) :
    (closeJob seen now s previous).view previous.1 = (s.view previous.1).close now := by
  have hget : (closeOut s.table previous.1 now).get previous.1 = _ := get_closeOut_self
  unfold closeJob
  rw [if_neg h]
  cases hrow : s.table.get previous.1 with
  | none =>
    rw [hrow, Option.map_none] at hget
    simp [JobSync.view, JobView.close, hget, hrow]
  | some row =>
    rw [hrow, Option.map_some] at hget
    have hann : announced previous.1 [(row.close now).announcement previous.1] = 1 := by
      rw [announced_singleton]
      exact if_pos rfl
    simp [JobSync.view, JobView.close, hget, hrow, announced_append, hann]

theorem view_closeJobs_of_notMem {rows : List (ℤ × JobRow)} (h : id ∉ rows.map Prod.fst) :
    (rows.foldl (closeJob seen now) s).view id = s.view id := by
  induction rows generalizing s with
  | nil => rfl
  | cons r rows ih =>
    simp only [List.map_cons, List.mem_cons, not_or] at h
    rw [List.foldl_cons, ih h.2, view_closeJob_of_ne (Ne.symm h.1)]

/-- The second loop at a known job. -/
theorem view_closeJobs (known : JobTable) {row : JobRow} (hrow : known.get id = some row) :
    (known.rows.foldl (closeJob seen now) s).view id =
      if id ∈ seen ∨ row.endedTs ≠ none then s.view id else (s.view id).close now := by
  obtain ⟨pre, post, hrows⟩ := List.append_of_mem (Table.get_eq_some_iff.1 hrow)
  have hnd := known.keyed
  rw [hrows, List.map_append, List.map_cons, List.nodup_append] at hnd
  obtain ⟨-, hpost, hdis⟩ := hnd
  have hpre : id ∉ pre.map Prod.fst := fun hin => hdis _ hin _ List.mem_cons_self rfl
  have hpost' : id ∉ post.map Prod.fst := (List.nodup_cons.1 hpost).1
  rw [hrows, List.foldl_append, List.foldl_cons, view_closeJobs_of_notMem hpost']
  split_ifs with h
  · rw [view_closeJob_of_kept h, view_closeJobs_of_notMem hpre]
  · rw [view_closeJob_self h, view_closeJobs_of_notMem hpre]

theorem get_knownJobs (weight : String → String) (table : JobTable) (pool : String) (id : ℤ) :
    (knownJobs weight table pool).get id = (table.get id).filter fun row =>
      weight row.pool = weight pool := by
  unfold knownJobs
  rw [Table.get_deleteWhere]
  simp

/-- The job's view before the call. -/
def JobTable.view (table : JobTable) (id : ℤ) : JobView := ⟨table.get id, 0, 0⟩

/-- **A call on a job it reports**, once. -/
theorem syncJobs_listed (weight : String → String) (table : JobTable) (pool : String) (now : ℚ)
    {jobs : List JobInfo} (hnd : (jobs.map (·.jobId)).Nodup) (h : job ∈ jobs) :
    (syncJobs weight table pool jobs now).view job.jobId =
      (JobTable.view table job.jobId).record ((knownJobs weight table pool).get job.jobId) pool now
        job := by
  have hseen : job.jobId ∈ jobs.map (·.jobId) := List.mem_map_of_mem h
  have hrec : (jobs.foldl (recordJob (knownJobs weight table pool) pool now) ⟨table, [], []⟩).view
      job.jobId = (JobTable.view table job.jobId).record ((knownJobs weight table pool).get job.jobId)
        pool now job := view_recordJobs_of_mem hnd h
  unfold syncJobs
  cases hrow : (knownJobs weight table pool).get job.jobId with
  | none =>
    have hmiss : job.jobId ∉ (knownJobs weight table pool).rows.map Prod.fst := by
      intro hin
      obtain ⟨⟨_, row⟩, hmem, rfl⟩ := List.mem_map.1 hin
      exact Table.get_eq_none_iff.1 hrow row hmem
    rw [view_closeJobs_of_notMem hmiss, hrec, hrow]
  | some row =>
    rw [view_closeJobs _ hrow, if_pos (Or.inl hseen), hrec, hrow]

/-- **A call on a job it does not report**: the pool's own open job is closed out. -/
theorem syncJobs_unlisted (weight : String → String) (table : JobTable) (pool : String) (now : ℚ)
    {jobs : List JobInfo} (h : id ∉ jobs.map (·.jobId)) :
    (syncJobs weight table pool jobs now).view id =
      if ∃ row, table.get id = some row ∧ weight row.pool = weight pool ∧ row.endedTs = none then
        (JobTable.view table id).close now
      else JobTable.view table id := by
  have hrec : (jobs.foldl (recordJob (knownJobs weight table pool) pool now) ⟨table, [], []⟩).view
      id = JobTable.view table id := view_recordJobs_of_notMem h
  unfold syncJobs
  cases hrow : (knownJobs weight table pool).get id with
  | none =>
    have hmiss : id ∉ (knownJobs weight table pool).rows.map Prod.fst := by
      intro hin
      obtain ⟨⟨_, row⟩, hmem, rfl⟩ := List.mem_map.1 hin
      exact Table.get_eq_none_iff.1 hrow row hmem
    have hother : ¬ ∃ row, table.get id = some row ∧ weight row.pool = weight pool ∧
        row.endedTs = none := by
      rintro ⟨row, hget, hpool, -⟩
      rw [get_knownJobs, hget] at hrow
      simp [Option.filter, hpool] at hrow
    rw [view_closeJobs_of_notMem hmiss, hrec, if_neg hother]
  | some row =>
    rw [get_knownJobs, Option.filter_eq_some_iff] at hrow
    obtain ⟨hget, hpool⟩ := hrow
    rw [view_closeJobs _ (by rw [get_knownJobs, Option.filter_eq_some_iff]; exact ⟨hget, hpool⟩),
      hrec]
    have hiff : (id ∈ jobs.map (·.jobId) ∨ row.endedTs ≠ none) ↔
        ¬ ∃ row, table.get id = some row ∧ weight row.pool = weight pool ∧ row.endedTs = none := by
      rw [hget]
      simp only [decide_eq_true_eq] at hpool
      simp [h, hpool]
    by_cases hopen : ∃ row, table.get id = some row ∧ weight row.pool = weight pool ∧
        row.endedTs = none
    · rw [if_pos hopen, if_neg (fun hc => hiff.1 hc hopen)]
    · rw [if_neg hopen, if_pos (hiff.2 hopen)]

/-- The row of a job after a call that reports it. -/
theorem get_syncJobs_listed (weight : String → String) (table : JobTable) (pool : String) (now : ℚ)
    {jobs : List JobInfo} (hnd : (jobs.map (·.jobId)).Nodup) (h : job ∈ jobs) :
    (syncJobs weight table pool jobs now).table.get job.jobId =
      some ((table.get job.jobId).elim (job.newRow pool now) (job.update now)) :=
  congrArg JobView.row (syncJobs_listed weight table pool now hnd h)

/-- A finish is announced for a reported job when it is reported completed. -/
theorem finished_syncJobs_listed (weight : String → String) (table : JobTable) (pool : String)
    (now : ℚ) {jobs : List JobInfo} (hnd : (jobs.map (·.jobId)).Nodup) (h : job ∈ jobs)
    (hst : job.status ≠ "completed") :
    announced job.jobId (syncJobs weight table pool jobs now).finished = 0 := by
  have hview := congrArg JobView.finished (syncJobs_listed weight table pool now hnd h)
  simpa [JobSync.view, JobTable.view, JobView.record, hst] using hview

end RunnerSwarm
