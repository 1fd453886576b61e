import RunnerSwarm.Lib.Loop
import RunnerSwarm.Config.Pool
import RunnerSwarm.Store.Jobs

/-!
# The queue scan

`scanQueue` walks the active runs of a pool's repositories and their jobs. It counts the queued
jobs the pool serves and collects all others. What GitHub holds is a `GitHubContent`; each request
is answered, fails, or raises `GitHubRateLimitError`. A failed request is counted and skipped, so
the result of a scan with failures is partial; a rate limit ends the scan.

* `mem_scanQueue`: every collected job is one GitHub holds;
* `scanQueue_complete`: a scan without failures collects every job GitHub holds.
-/

namespace RunnerSwarm

/-- A workflow run, as far as the scan reads it; absent text is empty. -/
structure WorkflowRun where
  id : ℤ
  workflowName : String
  name : String
  displayTitle : String
  deriving DecidableEq

/-- An entry of the jobs API. `createdAt` is `none` when it cannot be read as a time. -/
structure WorkflowJob where
  id : ℤ
  name : String
  runnerName : String
  status : String
  conclusion : String
  htmlUrl : String
  startedAt : String
  createdAt : Option ℚ
  labels : List String
  deriving DecidableEq

/-- The content the scan's requests read. -/
structure GitHubContent where
  repositories : List String
  runs : (repo status : String) → List WorkflowRun
  jobs : (repo : String) → (runId : ℤ) → List WorkflowJob

inductive ScanRequest
  | repositories
  | runs (repo status : String)
  | jobs (repo : String) (runId : ℤ)
  deriving DecidableEq

/-- How a request ends. -/
inductive RequestAnswer
  | ok
  | failed
  | rateLimited
  deriving DecidableEq

/-- `GitHubRateLimitError`. -/
inductive RateLimitError
  | rateLimited
  deriving DecidableEq

/-- The statuses whose jobs can be waiting for a runner. -/
def activeRunStatuses : List String := ["queued", "pending", "in_progress"]

/-- Queued jobs found, and requests that failed while looking. -/
structure QueueScan where
  queued : ℕ := 0
  failed : ℕ := 0
  ages : List PyFloat := []
  deriving DecidableEq

def QueueScan.add (a b : QueueScan) : QueueScan :=
  ⟨a.queued + b.queued, a.failed + b.failed, a.ages ++ b.ages⟩

/-- `_job_info`. -/
def jobInfo (job : WorkflowJob) (run : WorkflowRun) (repo : String) : JobInfo where
  jobId := job.id
  repo := repo
  workflow := if run.workflowName ≠ "" then run.workflowName
    else if run.name ≠ "" then run.name else run.displayTitle
  jobName := job.name
  runner := job.runnerName
  status := job.status
  conclusion := job.conclusion
  url := job.htmlUrl
  startedAt := job.startedAt

/-- `_age`. -/
def WorkflowJob.age (job : WorkflowJob) (now : ℚ) : PyFloat :=
  match job.createdAt with
  | some created => .finite (now - created)
  | none => .posInf

/-- The count and the jobs a scan builds up, and the run ids seen in the repository. -/
structure Scanned where
  scan : QueueScan := {}
  jobs : List JobInfo := []
  seen : List ℤ := []
  deriving DecidableEq

namespace Scanned

def fail (s : Scanned) : Scanned := { s with scan := s.scan.add { failed := 1 } }

end Scanned

section Scan

variable (pool : PoolConfig) (content : GitHubContent) (answers : ScanRequest → RequestAnswer) (now : ℚ)

/-- One request: `none` when it fails. -/
def ask {α : Type*} (request : ScanRequest) (data : α) : Except RateLimitError (Option α) :=
  match answers request with
  | .ok => .ok (some data)
  | .failed => .ok none
  | .rateLimited => .error .rateLimited

/-- The queued jobs of a run the pool serves, by age. -/
def queuedAges (jobs : List WorkflowJob) : List PyFloat :=
  (jobs.filter fun j => j.status = "queued" && pool.servesLabels j.labels).map (·.age now)

/-- `_scan_run`. -/
def scanRun (repo : String) (run : WorkflowRun) (s : Scanned) : Except RateLimitError Scanned := do
  match ← ask answers (.jobs repo run.id) (content.jobs repo run.id) with
  | none => return s.fail
  | some jobs =>
      let ages := queuedAges pool now jobs
      let queued := ages.countP fun age =>
        pool.queuedMinAge = 0 || (PyFloat.finite pool.queuedMinAge).le age
      return { s with
        scan := s.scan.add { queued := queued, ages := ages }
        jobs := s.jobs ++ (jobs.filter fun j => j.status ≠ "queued").map fun j =>
          jobInfo j run repo }

/-- The body of the loop over a listing: a run seen before is skipped. -/
def scanListed (repo : String) (s : Scanned) (run : WorkflowRun) :
    Except RateLimitError Scanned :=
  if run.id ∈ s.seen then .ok s
  else scanRun pool content answers now repo run { s with seen := run.id :: s.seen }

/-- The body of the loop over the statuses. -/
def scanStatus (repo : String) (s : Scanned) (status : String) :
    Except RateLimitError Scanned := do
  match ← ask answers (.runs repo status) (content.runs repo status) with
  | none => return s.fail
  | some runs => runs.foldlM (scanListed pool content answers now repo) s

/-- `_scan_repo`. -/
def scanRepo (s : Scanned) (repo : String) : Except RateLimitError Scanned :=
  activeRunStatuses.foldlM (scanStatus pool content answers now repo) { s with seen := [] }

/-- `_scan_queue`. -/
def scanQueue : Except RateLimitError Scanned := do
  if pool.repo ≠ "" then scanRepo pool content answers now {} pool.repo
  else
    match ← ask answers .repositories content.repositories with
    | none => return Scanned.fail {}
    | some repositories => repositories.foldlM (scanRepo pool content answers now) {}

end Scan

/-! ### What a scan collects -/

/-- The repositories of a pool. -/
def GitHubContent.poolRepositories (content : GitHubContent) (pool : PoolConfig) : List String :=
  if pool.repo ≠ "" then [pool.repo] else content.repositories

/-- GitHub holds this job for the pool, in an active run and not queued. -/
def GitHubContent.Holds (content : GitHubContent) (pool : PoolConfig) (job : WorkflowJob) : Prop :=
  ∃ repo ∈ content.poolRepositories pool, ∃ status ∈ activeRunStatuses,
    ∃ run ∈ content.runs repo status, job ∈ content.jobs repo run.id ∧ job.status ≠ "queued"

section Spec

variable {pool : PoolConfig} {content : GitHubContent} {answers : ScanRequest → RequestAnswer}
  {now : ℚ} {repo status : String} {run : WorkflowRun} {s t : Scanned}

/-- A request that did not raise. -/
theorem ask_ok {α : Type*} {request : ScanRequest} {data : α} {result : Option α}
    (h : ask answers request data = .ok result) : result = none ∨ result = some data := by
  unfold ask at h
  split at h
  · exact Or.inr (Except.ok.inj h).symm
  · exact Or.inl (Except.ok.inj h).symm
  · cases h

/-- The jobs of a run that are collected. -/
def collectedJobs (content : GitHubContent) (repo : String) (run : WorkflowRun) : List JobInfo :=
  ((content.jobs repo run.id).filter fun j => j.status ≠ "queued").map fun j => jobInfo j run repo

theorem mem_collectedJobs {info : JobInfo} : info ∈ collectedJobs content repo run ↔
    ∃ job ∈ content.jobs repo run.id, job.status ≠ "queued" ∧ jobInfo job run repo = info := by
  simp [collectedJobs, and_assoc]

/-- A run either fails or adds its jobs. -/
theorem scanRun_ok (h : scanRun pool content answers now repo run s = .ok t) :
    t.seen = s.seen ∧
      ((t.jobs = s.jobs ∧ t.scan.failed = s.scan.failed + 1) ∨
        (t.jobs = s.jobs ++ collectedJobs content repo run ∧ t.scan.failed = s.scan.failed)) := by
  unfold scanRun at h
  obtain ⟨result, hask, hrest⟩ := bind_eq_ok h
  rcases ask_ok hask with rfl | rfl
  · obtain rfl := Except.ok.inj hrest
    exact ⟨rfl, Or.inl ⟨rfl, rfl⟩⟩
  · obtain rfl := Except.ok.inj hrest
    exact ⟨rfl, Or.inr ⟨rfl, rfl⟩⟩

/-- Every collected job is one GitHub holds for the pool. -/
def Collects (content : GitHubContent) (pool : PoolConfig) (s : Scanned) : Prop :=
  ∀ info ∈ s.jobs, ∃ job run repo, content.Holds pool job ∧ info = jobInfo job run repo

/-- The scan of a repository so far: no job is lost, and without failures every run that was seen
has its jobs collected. -/
structure RepoScan (content : GitHubContent) (pool : PoolConfig) (repo : String)
    (s t : Scanned) : Prop where
  collects : Collects content pool s → Collects content pool t
  jobs : s.jobs ⊆ t.jobs
  failed : s.scan.failed ≤ t.scan.failed
  seen : t.scan.failed = 0 → ∀ id ∈ t.seen, ∀ job ∈ content.jobs repo id, job.status ≠ "queued" →
    ∃ run, jobInfo job run repo ∈ t.jobs

theorem RepoScan.fail {u : Scanned} (h : RepoScan content pool repo s t)
    (hjobs : u.jobs = t.jobs) (hfailed : u.scan.failed = t.scan.failed + 1) :
    RepoScan content pool repo s u where
  collects := fun hc info hinfo => h.collects hc info (hjobs ▸ hinfo)
  jobs := hjobs ▸ h.jobs
  failed := by
    have := h.failed
    omega
  seen := fun hz => by omega

/-- A listed run. -/
theorem scanListed_ok {u : Scanned} (hrepo : repo ∈ content.poolRepositories pool)
    (hstatus : status ∈ activeRunStatuses) (hrun : run ∈ content.runs repo status)
    (h : RepoScan content pool repo s t)
    (hstep : scanListed pool content answers now repo t run = .ok u) :
    RepoScan content pool repo s u ∧ run.id ∈ u.seen ∧ t.seen ⊆ u.seen ∧
      t.scan.failed ≤ u.scan.failed := by
  unfold scanListed at hstep
  split_ifs at hstep with hseen
  · obtain rfl := Except.ok.inj hstep
    exact ⟨h, hseen, fun _ hid => hid, le_rfl⟩
  · obtain ⟨hkeep, hcase⟩ := scanRun_ok hstep
    have hmore : t.seen ⊆ u.seen := by
      rw [hkeep]
      exact List.subset_cons_self _ _
    have hfail : t.scan.failed ≤ u.scan.failed := by
      rcases hcase with ⟨-, hfailed⟩ | ⟨-, hfailed⟩ <;> simp only at hfailed <;> omega
    refine ⟨?_, by rw [hkeep]; exact List.mem_cons_self, hmore, hfail⟩
    rcases hcase with ⟨hjobs, hfailed⟩ | ⟨hjobs, hfailed⟩
    · exact h.fail hjobs hfailed
    · refine ⟨fun hc info hinfo => ?_, fun info hinfo => ?_, hfailed ▸ h.failed,
        fun hz id hid job hjob hne => ?_⟩
      · rw [hjobs] at hinfo
        rcases List.mem_append.1 hinfo with hinfo | hinfo
        · exact h.collects hc info hinfo
        · obtain ⟨job, hjob, hne, rfl⟩ := mem_collectedJobs.1 hinfo
          exact ⟨job, run, repo, ⟨repo, hrepo, status, hstatus, run, hrun, hjob, hne⟩, rfl⟩
      · rw [hjobs]
        exact List.mem_append_left _ (h.jobs hinfo)
      · rw [hjobs]
        rw [hkeep] at hid
        rcases List.mem_cons.1 hid with rfl | hid
        · exact ⟨run, List.mem_append_right _ (mem_collectedJobs.2 ⟨job, hjob, hne, rfl⟩)⟩
        · obtain ⟨run', hrun'⟩ := h.seen (hfailed ▸ hz) id hid job hjob hne
          exact ⟨run', List.mem_append_left _ hrun'⟩

/-- A listing: without failures all its runs are seen. -/
theorem scanStatus_ok {u : Scanned} (hrepo : repo ∈ content.poolRepositories pool)
    (hstatus : status ∈ activeRunStatuses) (h : RepoScan content pool repo s t)
    (hstep : scanStatus pool content answers now repo t status = .ok u) :
    RepoScan content pool repo s u ∧ t.seen ⊆ u.seen ∧ t.scan.failed ≤ u.scan.failed ∧
      (u.scan.failed = 0 → ∀ run ∈ content.runs repo status, run.id ∈ u.seen) := by
  unfold scanStatus at hstep
  obtain ⟨result, hask, hrest⟩ := bind_eq_ok hstep
  rcases ask_ok hask with rfl | rfl
  · obtain rfl := Except.ok.inj hrest
    exact ⟨h.fail rfl rfl, fun _ hid => hid, Nat.le_succ _, fun hz => by
      simp [Scanned.fail, QueueScan.add] at hz⟩
  · have hinv := foldlM_rule
      (fun done v => RepoScan content pool repo s v ∧ t.seen ⊆ v.seen ∧
        t.scan.failed ≤ v.scan.failed ∧ ∀ run ∈ done, run.id ∈ v.seen)
      ⟨h, fun _ hid => hid, le_rfl, by simp⟩ ?_ hrest
    · exact ⟨hinv.1, hinv.2.1, hinv.2.2.1, fun _ => hinv.2.2.2⟩
    · rintro done run v w ⟨hv, hsub, hfail, hdone⟩ hrun hw
      obtain ⟨hw', hmem, hmore, hle⟩ := scanListed_ok hrepo hstatus hrun hv hw
      refine ⟨hw', fun id hid => hmore (hsub hid), hfail.trans hle, fun r hr => ?_⟩
      rcases List.mem_append.1 hr with hr | hr
      · exact hmore (hdone r hr)
      · rw [List.mem_singleton.1 hr]
        exact hmem

/-- A repository: without failures its jobs are collected. -/
theorem scanRepo_ok (hrepo : repo ∈ content.poolRepositories pool)
    (h : scanRepo pool content answers now s repo = .ok t) :
    (Collects content pool s → Collects content pool t) ∧ s.jobs ⊆ t.jobs ∧
      s.scan.failed ≤ t.scan.failed ∧
      (t.scan.failed = 0 → ∀ status ∈ activeRunStatuses, ∀ run ∈ content.runs repo status,
        ∀ job ∈ content.jobs repo run.id, job.status ≠ "queued" →
          ∃ run, jobInfo job run repo ∈ t.jobs) := by
  unfold scanRepo at h
  have hstart : RepoScan content pool repo s { s with seen := [] } :=
    ⟨fun hc => hc, fun _ hinfo => hinfo, le_rfl, fun _ id hid => by cases hid⟩
  have hinv := foldlM_rule
    (fun done v => RepoScan content pool repo s v ∧
      (v.scan.failed = 0 → ∀ status ∈ done, ∀ run ∈ content.runs repo status, run.id ∈ v.seen))
    ⟨hstart, by simp⟩ ?_ h
  · obtain ⟨hscan, hall⟩ := hinv
    exact ⟨hscan.collects, hscan.jobs, hscan.failed,
      fun hz status hstatus run hrun => hscan.seen hz run.id (hall hz status hstatus run hrun)⟩
  · rintro done status v w ⟨hv, hdone⟩ hstatus hw
    obtain ⟨hw', hsub, hfail, hnew⟩ := scanStatus_ok hrepo hstatus hv hw
    refine ⟨hw', fun hz st hst run hrun => ?_⟩
    rcases List.mem_append.1 hst with hst | hst
    · exact hsub (hdone (by omega) st hst run hrun)
    · rw [List.mem_singleton.1 hst] at hrun
      exact hnew hz run hrun

/-- **Every collected job is one GitHub holds.** -/
theorem mem_scanQueue (h : scanQueue pool content answers now = .ok t) :
    Collects content pool t := by
  have hstart : Collects content pool {} := fun info hinfo => by cases hinfo
  unfold scanQueue at h
  split_ifs at h with hrepo
  · have hmem : pool.repo ∈ content.poolRepositories pool := by
      unfold GitHubContent.poolRepositories
      rw [if_pos hrepo]
      exact List.mem_singleton_self _
    exact (scanRepo_ok hmem h).1 hstart
  · have hrepos : content.poolRepositories pool = content.repositories := if_neg hrepo
    obtain ⟨result, hask, hrest⟩ := bind_eq_ok h
    rcases ask_ok hask with rfl | rfl
    · obtain rfl := Except.ok.inj hrest
      exact hstart
    · refine foldlM_rule (fun _ v => Collects content pool v) hstart ?_ hrest
      intro done repo v w hv hin hw
      exact (scanRepo_ok (hrepos ▸ hin) hw).1 hv

/-- **A scan without failures collects every job GitHub holds.** -/
theorem scanQueue_complete (h : scanQueue pool content answers now = .ok t)
    (hz : t.scan.failed = 0) {job : WorkflowJob} (hjob : content.Holds pool job) :
    ∃ run repo, jobInfo job run repo ∈ t.jobs := by
  obtain ⟨repo, hin, status, hstatus, run, hrun, hmem, hne⟩ := hjob
  unfold scanQueue at h
  unfold GitHubContent.poolRepositories at hin
  split_ifs at h hin with hrepo
  · obtain rfl := List.mem_singleton.1 hin
    have hpool : pool.repo ∈ content.poolRepositories pool := by
      unfold GitHubContent.poolRepositories
      rw [if_pos hrepo]
      exact List.mem_singleton_self _
    obtain ⟨run', hrun'⟩ := (scanRepo_ok hpool h).2.2.2 hz status hstatus run hrun job hmem hne
    exact ⟨run', pool.repo, hrun'⟩
  · have hrepos : content.poolRepositories pool = content.repositories := if_neg hrepo
    obtain ⟨result, hask, hrest⟩ := bind_eq_ok h
    rcases ask_ok hask with rfl | rfl
    · obtain rfl := Except.ok.inj hrest
      simp [Scanned.fail, QueueScan.add] at hz
    · have hinv := foldlM_rule
        (fun done v => v.scan.failed = 0 → ∀ repo ∈ done, ∀ status ∈ activeRunStatuses,
          ∀ run ∈ content.runs repo status, ∀ job ∈ content.jobs repo run.id,
            job.status ≠ "queued" → ∃ run, jobInfo job run repo ∈ v.jobs)
        (by simp) ?_ hrest
      · obtain ⟨run', hrun'⟩ := hinv hz repo hin status hstatus run hrun job hmem hne
        exact ⟨run', repo, hrun'⟩
      · intro done r v w hv hr hw hwz r' hr' st hst run hrun job hjob hne
        obtain ⟨-, hsub, hle, hnew⟩ := scanRepo_ok (hrepos ▸ hr) hw
        rcases List.mem_append.1 hr' with hr' | hr'
        · obtain ⟨run', hrun'⟩ := hv (by omega) r' hr' st hst run hrun job hjob hne
          exact ⟨run', hsub hrun'⟩
        · rw [List.mem_singleton.1 hr'] at hrun hjob ⊢
          exact hnew hwz st hst run hrun job hjob hne

end Spec

end RunnerSwarm
