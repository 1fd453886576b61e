import RunnerSwarm.Lib.Run
import RunnerSwarm.GitHub.Scan
import RunnerSwarm.Store.Announcements

/-!
# Recording what a scan saw

`_record_jobs` hands the jobs of a queue scan to `sync_jobs`, also when requests of the scan
failed and its list is partial. The store takes a job that is not listed for a job that is over,
and never takes an end time back.

`Faithful` says what a recording may do: a job ends only when the scan reported it completed or a
complete scan of its pool no longer listed it, a job GitHub holds as running does not end, and a job
listed as running is shown with its runner. `faithful_run` proves it of every recording of a run whose
scans are `Dependable`; `not_faithful` is a scan with one failed request. The database compares the
names of the pools by their `weight`.
-/

namespace RunnerSwarm

/-- An inspection of a pool, as far as its jobs go: what GitHub holds and how it answers. -/
structure JobInspection where
  pool : PoolConfig
  content : GitHubContent
  answers : ScanRequest → RequestAnswer
  now : ℚ

/-- A recording: the scan, the table before it and what `sync_jobs` did. -/
structure Recording where
  inspection : JobInspection
  scanned : Scanned
  before : JobTable
  result : JobSync

/-- The job table with the recordings so far. -/
structure Recorder where
  table : JobTable
  log : List Recording

namespace Recorder

def init : Recorder := ⟨Table.empty, []⟩

/-- The scan and the recording of one inspection. A rate limit raises before anything is
recorded. -/
def inspect (weight : String → String) (s : Recorder) (i : JobInspection) : Option Recorder :=
  match scanQueue i.pool i.content i.answers i.now with
  | .error _ => some s
  | .ok scanned =>
      let result := syncJobs weight s.table i.pool.name scanned.jobs i.now
      some ⟨result.table, s.log ++ [⟨i, scanned, s.table, result⟩]⟩

end Recorder

/-! ### What a recording may do -/

namespace Recording

/-- The ids the scan listed. -/
def listed (e : Recording) : List ℤ := e.scanned.jobs.map (·.jobId)

/-- No request of the scan failed. -/
def Complete (e : Recording) : Prop := e.scanned.scan.failed = 0

/-- The recording marks the job completed, gives it an end time or announces that it finished. -/
def Ends (e : Recording) (id : ℤ) : Prop :=
  (∃ row, e.result.table.get id = some row ∧ row.status = "completed" ∧
    ∀ old, e.before.get id = some old → old.status ≠ "completed") ∨
  (∃ row, e.result.table.get id = some row ∧ row.endedTs ≠ none ∧
    ∀ old, e.before.get id = some old → old.endedTs = none) ∨
  announced id e.result.finished ≠ 0

/-- The job was recorded for the pool of the scan. -/
def RecordedFor (e : Recording) (id : ℤ) : Prop :=
  ∃ row, e.before.get id = some row ∧ row.pool = e.inspection.pool.name

/-- GitHub holds the job as running. -/
def RunningOnGitHub (e : Recording) (id : ℤ) : Prop :=
  (∃ job, e.inspection.content.Holds e.inspection.pool job ∧ job.id = id ∧
    job.status = "in_progress") ∧
  ∀ job, e.inspection.content.Holds e.inspection.pool job → job.id = id →
    job.status ≠ "completed"

end Recording

/-- What a recording may do. -/
structure Faithful (e : Recording) : Prop where
  running : ∀ id, e.RunningOnGitHub id → ¬ e.Ends id
  justified : ∀ id, e.Ends id →
    (∃ job ∈ e.scanned.jobs, job.jobId = id ∧ job.status = "completed") ∨
      (e.Complete ∧ id ∉ e.listed ∧ e.RecordedFor id)
  shown : e.Complete → ∀ job ∈ e.scanned.jobs, job.status = "in_progress" → job.runner ≠ "" →
    ∃ row, e.result.table.get job.jobId = some row ∧ row.runner = job.runner ∧
      jobsByRunner e.result.table job.runner = some row.current

/-- A scan the store can take at its word: GitHub lists every job once and runs one job on a
runner, a partial list still has every open job of the pool, an open job that is not listed is not
that of another pool whose name the database takes for this one, and no job listed as running has
been given an end time. -/
structure Dependable (weight : String → String) (table : JobTable) (pool : String)
    (scanned : Scanned) : Prop where
  once : (scanned.jobs.map (·.jobId)).Nodup
  partialList : scanned.scan.failed ≠ 0 → ∀ id row, table.get id = some row → row.pool = pool →
    row.endedTs = none → id ∈ scanned.jobs.map (·.jobId)
  toldApart : ∀ id row, table.get id = some row → weight row.pool = weight pool →
    row.endedTs = none → id ∉ scanned.jobs.map (·.jobId) → row.pool = pool
  notEnded : ∀ job ∈ scanned.jobs, job.status = "in_progress" →
    ∀ row, table.get job.jobId = some row → row.endedTs = none
  oneRunner : ∀ job ∈ scanned.jobs, job.status = "in_progress" →
    (∀ job' ∈ scanned.jobs, job'.status = "in_progress" → job'.runner = job.runner →
      job'.jobId = job.jobId) ∧
    ∀ id row, table.get id = some row → row.isCurrent = true → row.runner = job.runner →
      row.pool = pool ∨ id ∈ scanned.jobs.map (·.jobId)

/-- The condition on an inspection: if it comes to a recording, its scan is dependable. -/
def DependableInspection (weight : String → String) (s : Recorder) (i : JobInspection) : Prop :=
  ∀ scanned, scanQueue i.pool i.content i.answers i.now = .ok scanned →
    Dependable weight s.table i.pool.name scanned

/-! ### One recording -/

section Recorded

variable {weight : String → String} {table : JobTable} {pool : String} {scanned : Scanned} {now : ℚ}
  {id : ℤ}

/-- A listed job that is not completed does not end. -/
theorem listed_open (h : Dependable weight table pool scanned) {job : JobInfo}
    (hjob : job ∈ scanned.jobs) (hst : job.status ≠ "completed") {i : JobInspection} :
    ¬ (Recording.mk i scanned table (syncJobs weight table pool scanned.jobs now)).Ends job.jobId := by
  have hget := get_syncJobs_listed weight table pool now h.once hjob
  have hended : job.ended now = none := ended_eq_none_iff.2 hst
  rintro (⟨row, hrow, hdone, -⟩ | ⟨row, hrow, hend, hold⟩ | hfin)
  · rw [hget] at hrow
    obtain rfl := Option.some.inj hrow
    cases hprev : table.get job.jobId <;> rw [hprev] at hdone <;> exact hst hdone
  · rw [hget] at hrow
    obtain rfl := Option.some.inj hrow
    cases hprev : table.get job.jobId with
    | none =>
      rw [hprev] at hend
      exact hend hended
    | some old =>
      rw [hprev] at hend
      refine hend ?_
      show old.endedTs.or (job.ended now) = none
      rw [hold old hprev, hended]
      rfl
  · exact hfin (finished_syncJobs_listed weight table pool now h.once hjob hst)

/-- An unlisted job ends only as an open job of the pool, or of one that is taken for it. -/
theorem unlisted_ends (hid : id ∉ scanned.jobs.map (·.jobId)) {i : JobInspection}
    (hends : (Recording.mk i scanned table (syncJobs weight table pool scanned.jobs now)).Ends id) :
    ∃ row, table.get id = some row ∧ weight row.pool = weight pool ∧ row.endedTs = none := by
  by_contra hnot
  have hview := syncJobs_unlisted weight table pool now hid
  rw [if_neg hnot] at hview
  obtain ⟨hrow, -, hfin⟩ : (syncJobs weight table pool scanned.jobs now).table.get id = table.get id ∧
      _ ∧ announced id (syncJobs weight table pool scanned.jobs now).finished = 0 := by
    simpa [JobSync.view, JobTable.view] using hview
  rcases hends with ⟨row, hget, hdone, hold⟩ | ⟨row, hget, hend, hold⟩ | hann
  · exact hold row (hrow ▸ hget) hdone
  · exact hend (hold row (hrow ▸ hget))
  · exact hann hfin

/-- A row that is current after the call: the listed job's own, or an untouched one. -/
theorem current_after (h : Dependable weight table pool scanned) {row : JobRow}
    (hget : (syncJobs weight table pool scanned.jobs now).table.get id = some row)
    (hcur : row.isCurrent = true) :
    (∃ job ∈ scanned.jobs, job.jobId = id ∧ job.status = row.status ∧ job.runner = row.runner) ∨
      (id ∉ scanned.jobs.map (·.jobId) ∧ table.get id = some row ∧
        weight row.pool ≠ weight pool) := by
  by_cases hid : id ∈ scanned.jobs.map (·.jobId)
  · obtain ⟨job, hjob, rfl⟩ := List.mem_map.1 hid
    rw [get_syncJobs_listed weight table pool now h.once hjob] at hget
    obtain rfl := Option.some.inj hget
    refine Or.inl ⟨job, hjob, rfl, ?_⟩
    cases table.get job.jobId <;> exact ⟨rfl, rfl⟩
  · have hview := congrArg JobView.row (syncJobs_unlisted weight table pool now hid)
    refine Or.inr ⟨hid, ?_⟩
    split_ifs at hview with hopen
    · -- the row was closed out, so it is not current
      obtain ⟨old, hold, -, -⟩ := hopen
      have hclosed : row = old.close now := by
        have : some row = some (old.close now) := by
          rw [← hget]
          simpa [JobSync.view, JobTable.view, JobView.close, hold] using hview
        exact Option.some.inj this
      rw [hclosed] at hcur
      simp [JobRow.isCurrent, JobRow.close] at hcur
    · have hsame : table.get id = some row := by
        rw [← hget]
        exact hview.symm
      refine ⟨hsame, fun hpool => hopen ⟨row, hsame, hpool, ?_⟩⟩
      simp only [JobRow.isCurrent, Bool.and_eq_true, decide_eq_true_eq] at hcur
      exact hcur.1.1

/-- **One recording is faithful** when its scan is dependable. -/
theorem faithful_of_dependable {i : JobInspection}
    (hscan : scanQueue i.pool i.content i.answers i.now = .ok scanned)
    (h : Dependable weight table i.pool.name scanned) :
    Faithful ⟨i, scanned, table, syncJobs weight table i.pool.name scanned.jobs i.now⟩ := by
  have hjustified : ∀ id, (Recording.mk i scanned table
      (syncJobs weight table i.pool.name scanned.jobs i.now)).Ends id →
      (∃ job ∈ scanned.jobs, job.jobId = id ∧ job.status = "completed") ∨
        (scanned.scan.failed = 0 ∧ id ∉ scanned.jobs.map (·.jobId) ∧
          ∃ row, table.get id = some row ∧ row.pool = i.pool.name) := by
    intro id hends
    by_cases hid : id ∈ scanned.jobs.map (·.jobId)
    · obtain ⟨job, hjob, rfl⟩ := List.mem_map.1 hid
      by_cases hst : job.status = "completed"
      · exact Or.inl ⟨job, hjob, rfl, hst⟩
      · exact absurd hends (listed_open h hjob hst)
    · obtain ⟨row, hrow, hweight, hopen⟩ := unlisted_ends hid hends
      have hpool := h.toldApart id row hrow hweight hopen hid
      refine Or.inr ⟨?_, hid, row, hrow, hpool⟩
      by_contra hfailed
      exact hid (h.partialList hfailed id row hrow hpool hopen)
  refine ⟨fun id hrun hends => ?_, hjustified, fun _ job hjob hst hrunner => ?_⟩
  · obtain ⟨⟨held, hheld, rfl, hstatus⟩, hnever⟩ := hrun
    rcases hjustified _ hends with ⟨job, hjob, hid, hdone⟩ | ⟨hfailed, hid, -⟩
    · obtain ⟨entry, run, repo, hentry, rfl⟩ := mem_scanQueue hscan job hjob
      exact hnever entry hentry hid hdone
    · obtain ⟨run, repo, hin⟩ := scanQueue_complete hscan hfailed hheld
      exact hid (List.mem_map.2 ⟨_, hin, rfl⟩)
  · have hget := get_syncJobs_listed weight table i.pool.name i.now h.once hjob
    refine ⟨_, hget, by cases table.get job.jobId <;> rfl, ?_⟩
    have hcur : ((table.get job.jobId).elim (job.newRow i.pool.name i.now)
        (job.update i.now)).isCurrent = true := by
      have hended : job.ended i.now = none := ended_eq_none_iff.2 (by rw [hst]; decide)
      cases hprev : table.get job.jobId with
      | none => simp [JobRow.isCurrent, JobInfo.newRow, hended, hst, hrunner]
      | some old =>
        have hold := h.notEnded job hjob hst old hprev
        simp [JobRow.isCurrent, JobInfo.update, hended, hst, hrunner, hold]
    have hname : ((table.get job.jobId).elim (job.newRow i.pool.name i.now)
        (job.update i.now)).runner = job.runner := by cases table.get job.jobId <;> rfl
    rw [← hname]
    refine jobsByRunner_eq hget hcur fun id' row' hget' hcur' hrow' => ?_
    rw [hname] at hrow'
    obtain ⟨hjobs, hrows⟩ := h.oneRunner job hjob hst
    rcases current_after h hget' hcur' with ⟨job', hjob', rfl, hst', hr'⟩ | ⟨hid, hsame, hpool⟩
    · have hprogress : row'.status = "in_progress" := by
        simp only [JobRow.isCurrent, Bool.and_eq_true, decide_eq_true_eq] at hcur'
        exact hcur'.2
      exact hjobs job' hjob' (hst'.trans hprogress) (hr'.trans hrow')
    · rcases hrows id' row' hsame hcur' hrow' with hown | hlisted
      · exact absurd (congrArg weight hown) hpool
      · exact absurd hlisted hid

end Recorded

/-- **Recording a scan is faithful**, on every database and in every run whose scans are
dependable. -/
theorem faithful_run {weight : String → String} {l : List JobInspection} {s : Recorder}
    (hok : Along (Recorder.inspect weight) (DependableInspection weight) Recorder.init l)
    (hrun : run (Recorder.inspect weight) Recorder.init l = some s) :
    ∀ e ∈ s.log, Faithful e := by
  refine run_invariant (I := fun s => ∀ e ∈ s.log, Faithful e) (fun s i t hs hi hst => ?_)
    (fun e he => by cases he) hok hrun
  unfold Recorder.inspect at hst
  split at hst
  · obtain rfl := Option.some.inj hst
    exact hs
  · rename_i scanned hscan
    obtain rfl := Option.some.inj hst
    intro e he
    rcases List.mem_append.1 he with he | he
    · exact hs e he
    · rw [List.mem_singleton.1 he]
      exact faithful_of_dependable hscan (hi scanned hscan)

/-! ### A scan with one failed request -/

/-- One run in progress, with one job that runs on `r1`. -/
def oneJobRunning : GitHubContent where
  repositories := []
  runs := fun _ status => if status = "in_progress" then [⟨1, "CI", "", ""⟩] else []
  jobs := fun _ _ => [⟨101, "build", "r1", "in_progress", "", "", "", none, []⟩]

/-- An inspection of pool `ci` on that content. -/
def inspectOneJob (answers : ScanRequest → RequestAnswer) (now : ℚ) : JobInspection where
  pool := { name := "ci", pat := "pat", owner := "org", repo := "widgets", scope := "repository" }
  content := oneJobRunning
  answers := answers
  now := now

/-- The listing of the runs in progress fails. -/
def listingFails (request : ScanRequest) : RequestAnswer :=
  if request = .runs "widgets" "in_progress" then .failed else .ok

/-- The job as a scan reports it. -/
def reportedJob : JobInfo where
  jobId := 101
  repo := "widgets"
  workflow := "CI"
  jobName := "build"
  runner := "r1"
  status := "in_progress"
  conclusion := ""
  url := ""
  startedAt := ""

/-- A scan that lists the job, beside no other open one, can be relied on. -/
theorem dependable_oneJob {weight : String → String} {table : JobTable} {scanned : Scanned}
    (hjobs : scanned.jobs = [reportedJob])
    (hrows : ∀ r ∈ table.rows, r.1 = reportedJob.jobId ∧ r.2.endedTs = none) :
    Dependable weight table "ci" scanned := by
  have hlisted : ∀ id row, table.get id = some row → id ∈ scanned.jobs.map (·.jobId) := by
    intro id row hrow
    rw [hjobs, List.map_singleton, List.mem_singleton]
    exact (hrows _ (Table.get_eq_some_iff.1 hrow)).1
  refine ⟨by rw [hjobs]; exact List.nodup_singleton _, fun _ id row hrow _ _ => hlisted id row hrow,
    fun id row hrow _ _ hid => absurd (hlisted id row hrow) hid, ?_, ?_⟩
  · intro job _ _ row hrow
    exact (hrows _ (Table.get_eq_some_iff.1 hrow)).2
  · intro job hjob _
    rw [hjobs] at hjob
    refine ⟨fun job' hjob' _ _ => ?_, fun id row hrow _ _ => .inr (hlisted id row hrow)⟩
    rw [hjobs] at hjob'
    rw [List.mem_singleton.1 hjob, List.mem_singleton.1 hjob']

/-- The listing of the queued runs fails. -/
def queuedFails (request : ScanRequest) : RequestAnswer :=
  if request = .runs "widgets" "queued" then .failed else .ok

/-- A running job is recorded by a complete scan, and by a partial one that still lists it; the
database ignores the case of letters. -/
theorem faithful_run_first : ∃ s, run (Recorder.inspect lower) Recorder.init
      [inspectOneJob (fun _ => .ok) 1, inspectOneJob queuedFails 2] = some s ∧
    s.log.map (·.scanned.scan.failed) = [0, 1] ∧ ∀ e ∈ s.log, Faithful e := by
  have hok : Along (Recorder.inspect lower) (DependableInspection lower) Recorder.init
      [inspectOneJob (fun _ => .ok) 1, inspectOneJob queuedFails 2] := by
    refine ⟨fun scanned hscan => ?_, fun s hs => ⟨fun scanned hscan => ?_, fun _ _ => trivial⟩⟩
    · obtain rfl := Except.ok.inj (hscan.symm.trans rfl)
      exact dependable_oneJob rfl fun r hr => by cases hr
    · obtain rfl := Option.some.inj hs
      obtain rfl := Except.ok.inj (hscan.symm.trans rfl)
      refine dependable_oneJob rfl fun r hr => ?_
      rw [List.mem_singleton.1 (show r ∈ [(101, reportedJob.newRow "ci" 1)] from hr)]
      exact ⟨rfl, rfl⟩
  exact ⟨_, rfl, rfl, faithful_run hok rfl⟩

/-- The store ends a job that is still running when the listing it is in fails. -/
theorem not_faithful : ¬ ∀ (l : List JobInspection) (s : Recorder),
    run (Recorder.inspect id) Recorder.init l = some s → ∀ e ∈ s.log, Faithful e := by
  intro h
  obtain ⟨s, hs, e, he, hann, hfailed⟩ : ∃ s, run (Recorder.inspect id) Recorder.init
      [inspectOneJob (fun _ => .ok) 1, inspectOneJob listingFails 2] = some s ∧
      ∃ e ∈ s.log, announced 101 e.result.finished ≠ 0 ∧
        e.scanned = { scan := { failed := 1 } } :=
    ⟨_, rfl, _, List.mem_cons_of_mem _ List.mem_cons_self, by decide, by decide⟩
  rcases (h _ s hs e he).justified 101 (Or.inr (Or.inr hann)) with ⟨job, hjob, -⟩ | ⟨hzero, -⟩
  · rw [hfailed] at hjob
    cases hjob
  · unfold Recording.Complete at hzero
    rw [hfailed] at hzero
    cases hzero

end RunnerSwarm
