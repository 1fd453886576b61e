import RunnerSwarm.GitHub.Scan
import RunnerSwarm.Lib.Ordered

/-!
# What a scan counts

A scan walks listings in which a run may turn up more than once, and any of its requests may fail.
Its result is a sum over the runs that could be read:

* `listedRuns` are the runs of a repository in the listings that succeeded, each id once, and
  `readRuns` are those whose jobs could be read;
* `scanQueue_adds` says what the scan has counted, collected and missed, in these terms;
* `scanQueue_mono`: when failed requests succeed, the count does not become less.

The age filter of `queued_min_age` is off when that is 0, so a job that was created later than now
by the clock of the daemon counts as well (`futureContent`).
-/

namespace RunnerSwarm

section Counts

variable (pool : PoolConfig) (content : GitHubContent) (answers : ScanRequest → RequestAnswer)
  (now : ℚ)

/-- Whether an age counts: `queued_min_age` 0 is no filter. -/
def oldEnough (age : PyFloat) : Bool :=
  pool.queuedMinAge = 0 || (PyFloat.finite pool.queuedMinAge).le age

/-- A job that counts. -/
def countedJob (j : WorkflowJob) : Bool :=
  (j.status = "queued" && pool.servesLabels j.labels) && oldEnough pool (j.age now)

/-- The listing of one status, empty when it failed. -/
def listing (repo status : String) : List WorkflowRun :=
  if answers (.runs repo status) = .ok then content.runs repo status else []

/-- The runs of a repository in the listings that succeeded, each id once. -/
def listedRuns (repo : String) : List WorkflowRun :=
  firstSeen (·.id) [] (activeRunStatuses.flatMap (listing content answers repo))

/-- Those whose jobs could be read. -/
def readRuns (repo : String) : List WorkflowRun :=
  (listedRuns content answers repo).filter fun run => answers (.jobs repo run.id) = .ok

/-- The requests of a repository that failed. -/
def failedRequests (repo : String) : ℕ :=
  (activeRunStatuses.countP fun status => answers (.runs repo status) = .failed) +
    (listedRuns content answers repo).countP fun run => answers (.jobs repo run.id) = .failed

/-- The repositories of the scan. -/
def scannedRepositories : List String :=
  if pool.repo ≠ "" then [pool.repo]
  else if answers .repositories = .ok then content.repositories else []

/-- What a scan of some runs, with some failed listings, does to the result. -/
structure Adds (repo : String) (runs : List WorkflowRun) (failures : ℕ) (s t : Scanned) : Prop where
  queued : t.scan.queued = s.scan.queued +
    ((runs.filter fun run => answers (.jobs repo run.id) = .ok).map fun run =>
      (content.jobs repo run.id).countP (countedJob pool now)).sum
  failed : t.scan.failed = s.scan.failed + failures +
    runs.countP fun run => answers (.jobs repo run.id) = .failed
  ages : t.scan.ages = s.scan.ages ++
    (runs.filter fun run => answers (.jobs repo run.id) = .ok).flatMap fun run =>
      queuedAges pool now (content.jobs repo run.id)
  jobs : t.jobs = s.jobs ++
    (runs.filter fun run => answers (.jobs repo run.id) = .ok).flatMap (collectedJobs content repo)

end Counts

variable {pool : PoolConfig} {content : GitHubContent} {answers : ScanRequest → RequestAnswer}
  {now : ℚ} {repo status : String} {run : WorkflowRun} {runs runs' : List WorkflowRun}
  {failures failures' : ℕ} {s t u : Scanned}

/-! ### Sums of scans -/

theorem Adds.refl : Adds pool content answers now repo [] 0 s s where
  queued := rfl
  failed := rfl
  ages := (List.append_nil _).symm
  jobs := (List.append_nil _).symm

/-- **The parts of a scan add up.** -/
theorem Adds.trans (h : Adds pool content answers now repo runs failures s t)
    (h' : Adds pool content answers now repo runs' failures' t u) :
    Adds pool content answers now repo (runs ++ runs') (failures + failures') s u where
  queued := by
    rw [h'.queued, h.queued, List.filter_append, List.map_append, List.sum_append, Nat.add_assoc]
  failed := by
    rw [h'.failed, h.failed, List.countP_append]
    omega
  ages := by
    rw [h'.ages, h.ages, List.filter_append, List.flatMap_append, List.append_assoc]
  jobs := by
    rw [h'.jobs, h.jobs, List.filter_append, List.flatMap_append, List.append_assoc]

theorem ask_eq_ok {α : Type*} {request : ScanRequest} {data : α} {result : Option α}
    (h : ask answers request data = .ok result) :
    (answers request = .ok ∧ result = some data) ∨ (answers request = .failed ∧ result = none) := by
  unfold ask at h
  split at h
  · exact Or.inl ⟨by assumption, (Except.ok.inj h).symm⟩
  · exact Or.inr ⟨by assumption, (Except.ok.inj h).symm⟩
  · cases h

/-- The filter by age, on the jobs. -/
theorem countP_queuedAges (jobs : List WorkflowJob) :
    (queuedAges pool now jobs).countP (oldEnough pool) = jobs.countP (countedJob pool now) := by
  unfold queuedAges countedJob
  rw [List.countP_map, List.countP_filter]
  refine List.countP_congr fun j _ => ?_
  rw [Function.comp_apply, Bool.and_comm]

/-! ### The loops of the scan -/

/-- A run: its jobs are read, or one request has failed. -/
theorem scanRun_adds (h : scanRun pool content answers now repo run s = .ok t) :
    Adds pool content answers now repo [run] 0 s t ∧ t.seen = s.seen := by
  unfold scanRun at h
  obtain ⟨result, hask, hrest⟩ := bind_eq_ok h
  rcases ask_eq_ok hask with ⟨hok, rfl⟩ | ⟨hfailed, rfl⟩
  · obtain rfl := Except.ok.inj hrest
    have hcount := @countP_queuedAges pool now (content.jobs repo run.id)
    unfold oldEnough at hcount
    refine ⟨⟨?_, ?_, ?_, ?_⟩, rfl⟩
    · simp [QueueScan.add, hok, hcount]
    · simp [QueueScan.add, hok]
    · simp [QueueScan.add, hok]
    · simp [hok, collectedJobs]
  · obtain rfl := Except.ok.inj hrest
    refine ⟨⟨?_, ?_, ?_, ?_⟩, rfl⟩ <;> simp [Scanned.fail, QueueScan.add, hfailed]

/-- A listing: the runs that are new. -/
theorem scanListed_adds (h : runs.foldlM (scanListed pool content answers now repo) s = .ok t) :
    Adds pool content answers now repo (firstSeen (·.id) s.seen runs) 0 s t ∧
      t.seen = seenAfter (·.id) s.seen runs := by
  induction runs generalizing s with
  | nil =>
    obtain rfl := Except.ok.inj h
    exact ⟨.refl, rfl⟩
  | cons run runs ih =>
    obtain ⟨u, hu, hrest⟩ := foldlM_cons_eq_ok h
    unfold scanListed at hu
    unfold seenAfter
    rw [firstSeen]
    split_ifs at hu ⊢ with hseen
    · obtain rfl := Except.ok.inj hu
      exact ih hrest
    · obtain ⟨hadds, hkeep⟩ := scanRun_adds hu
      obtain ⟨hmore, hlast⟩ := ih hrest
      have hstart : Adds pool content answers now repo [run] 0 s u :=
        ⟨hadds.queued, hadds.failed, hadds.ages, hadds.jobs⟩
      rw [hkeep] at hmore hlast
      refine ⟨hstart.trans hmore, ?_⟩
      rw [hlast]
      unfold seenAfter
      simp

theorem scanStatus_adds (h : scanStatus pool content answers now repo s status = .ok t) :
    Adds pool content answers now repo
        (firstSeen (·.id) s.seen (listing content answers repo status))
        (if answers (.runs repo status) = .failed then 1 else 0) s t ∧
      t.seen = seenAfter (·.id) s.seen (listing content answers repo status) := by
  unfold scanStatus at h
  unfold listing
  obtain ⟨result, hask, hrest⟩ := bind_eq_ok h
  rcases ask_eq_ok hask with ⟨hok, rfl⟩ | ⟨hfailed, rfl⟩
  · rw [hok, if_pos rfl, if_neg (by decide)]
    exact scanListed_adds hrest
  · obtain rfl := Except.ok.inj hrest
    rw [hfailed, if_neg (by decide), if_pos rfl]
    refine ⟨⟨?_, ?_, ?_, ?_⟩, rfl⟩ <;> simp [Scanned.fail, QueueScan.add, firstSeen]

/-- Statuses one after the other: a run of an earlier listing is skipped. -/
theorem scanStatuses_adds {statuses : List String}
    (h : statuses.foldlM (scanStatus pool content answers now repo) s = .ok t) :
    Adds pool content answers now repo
      (firstSeen (·.id) s.seen (statuses.flatMap (listing content answers repo)))
      (statuses.countP fun status => answers (.runs repo status) = .failed) s t := by
  induction statuses generalizing s with
  | nil =>
    obtain rfl := Except.ok.inj h
    exact .refl
  | cons status statuses ih =>
    obtain ⟨u, hu, hrest⟩ := foldlM_cons_eq_ok h
    obtain ⟨hadds, hseen⟩ := scanStatus_adds hu
    have hmore := ih hrest
    rw [hseen] at hmore
    rw [List.flatMap_cons, firstSeen_append, List.countP_cons, Nat.add_comm]
    simpa using hadds.trans hmore

theorem scanRepo_adds (h : scanRepo pool content answers now s repo = .ok t) :
    t.scan.queued = s.scan.queued + ((readRuns content answers repo).map fun run =>
        (content.jobs repo run.id).countP (countedJob pool now)).sum ∧
      t.scan.failed = s.scan.failed + failedRequests content answers repo ∧
      t.scan.ages = s.scan.ages ++ (readRuns content answers repo).flatMap (fun run =>
        queuedAges pool now (content.jobs repo run.id)) ∧
      t.jobs = s.jobs ++
        (readRuns content answers repo).flatMap (collectedJobs content repo) := by
  unfold scanRepo at h
  have hadds := scanStatuses_adds h
  refine ⟨hadds.queued, ?_, hadds.ages, hadds.jobs⟩
  rw [hadds.failed, Nat.add_assoc]
  rfl

/-- **What a scan has counted, missed and collected**, summed over its repositories. -/
theorem scanQueue_adds (h : scanQueue pool content answers now = .ok t) :
    t.scan.queued = ((scannedRepositories pool content answers).map fun repo =>
        ((readRuns content answers repo).map fun run =>
          (content.jobs repo run.id).countP (countedJob pool now)).sum).sum ∧
      t.scan.failed = (if pool.repo = "" ∧ answers .repositories = .failed then 1 else 0) +
        ((scannedRepositories pool content answers).map (failedRequests content answers)).sum ∧
      t.scan.ages = (scannedRepositories pool content answers).flatMap (fun repo =>
        (readRuns content answers repo).flatMap fun run =>
          queuedAges pool now (content.jobs repo run.id)) ∧
      t.jobs = (scannedRepositories pool content answers).flatMap fun repo =>
        (readRuns content answers repo).flatMap (collectedJobs content repo) := by
  unfold scanQueue at h
  unfold scannedRepositories
  split_ifs at h with hrepo
  · rw [if_pos hrepo, if_neg fun hnone => hrepo hnone.1]
    obtain ⟨hqueued, hfailed, hages, hjobs⟩ := scanRepo_adds h
    refine ⟨?_, ?_, ?_, ?_⟩
    · simpa using hqueued
    · simpa using hfailed
    · simpa using hages
    · simpa using hjobs
  · rw [if_neg hrepo]
    obtain ⟨result, hask, hrest⟩ := bind_eq_ok h
    rcases ask_eq_ok hask with ⟨hok, rfl⟩ | ⟨hfailed, rfl⟩
    · rw [if_pos hok, if_neg fun hnone => absurd (hok.symm.trans hnone.2) (by decide), Nat.zero_add]
      exact foldlM_rule
        (fun done v => v.scan.queued = (done.map fun repo =>
            ((readRuns content answers repo).map fun run =>
              (content.jobs repo run.id).countP (countedJob pool now)).sum).sum ∧
          v.scan.failed = (done.map (failedRequests content answers)).sum ∧
          v.scan.ages = done.flatMap (fun repo => (readRuns content answers repo).flatMap fun run =>
            queuedAges pool now (content.jobs repo run.id)) ∧
          v.jobs = done.flatMap fun repo =>
            (readRuns content answers repo).flatMap (collectedJobs content repo))
        ⟨rfl, rfl, rfl, rfl⟩
        (fun done repo v w hv _ hw => by
          obtain ⟨hqueued, hfailed, hages, hjobs⟩ := scanRepo_adds hw
          refine ⟨?_, ?_, ?_, ?_⟩
          · simp [hqueued, hv.1]
          · simp [hfailed, hv.2.1]
          · simp [hages, hv.2.2.1]
          · simp [hjobs, hv.2.2.2])
        hrest
    · obtain rfl := Except.ok.inj hrest
      rw [if_neg (by rw [hfailed]; decide), if_pos ⟨not_not.1 hrepo, hfailed⟩]
      exact ⟨rfl, rfl, rfl, rfl⟩

/-- A scan ends normally unless a request is refused by the rate limit. -/
theorem exists_scanQueue (hlimit : ∀ request, answers request ≠ .rateLimited) :
    ∃ t, scanQueue pool content answers now = .ok t := by
  have hask : ∀ {α : Type} (request : ScanRequest) (data : α),
      ∃ result, ask answers request data = .ok result := fun request data => by
    unfold ask
    cases hanswer : answers request with
    | ok => exact ⟨some data, rfl⟩
    | failed => exact ⟨none, rfl⟩
    | rateLimited => exact absurd hanswer (hlimit request)
  have hrun : ∀ repo s run, ∃ t, scanRun pool content answers now repo run s = .ok t :=
    fun repo s run => by
      obtain ⟨result, hresult⟩ := hask (.jobs repo run.id) (content.jobs repo run.id)
      unfold scanRun
      rw [hresult]
      cases result <;> exact ⟨_, rfl⟩
  have hstatus : ∀ repo s status, ∃ t, scanStatus pool content answers now repo s status = .ok t :=
    fun repo s status => by
      obtain ⟨result, hresult⟩ := hask (.runs repo status) (content.runs repo status)
      unfold scanStatus
      rw [hresult]
      cases result with
      | none => exact ⟨_, rfl⟩
      | some runs =>
        refine exists_foldlM (fun s run _ => ?_) s
        unfold scanListed
        split_ifs
        · exact ⟨s, rfl⟩
        · exact hrun repo _ run
  have hrepo : ∀ s repo, ∃ t, scanRepo pool content answers now s repo = .ok t := fun s repo =>
    exists_foldlM (fun s status _ => hstatus repo s status) _
  unfold scanQueue
  split_ifs
  · exact hrepo _ pool.repo
  · obtain ⟨result, hresult⟩ := hask .repositories content.repositories
    rw [hresult]
    cases result with
    | none => exact ⟨_, rfl⟩
    | some repositories => exact exists_foldlM (fun s repo _ => hrepo s repo) _

/-! ### Each run once -/

/-- The runs read, by id. -/
theorem mem_readRuns_ids {id : ℤ} : id ∈ (readRuns content answers repo).map (·.id) ↔
    answers (.jobs repo id) = .ok ∧ ∃ status ∈ activeRunStatuses,
      answers (.runs repo status) = .ok ∧ ∃ run ∈ content.runs repo status, run.id = id := by
  have hlisted : id ∈ (listedRuns content answers repo).map (·.id) ↔
      ∃ status ∈ activeRunStatuses, answers (.runs repo status) = .ok ∧
        ∃ run ∈ content.runs repo status, run.id = id := by
    unfold listedRuns listing
    rw [mem_keys_firstSeen]
    simp only [List.not_mem_nil, not_false_eq_true, true_and, List.mem_map, List.mem_flatMap]
    constructor
    · rintro ⟨run, ⟨status, hstatus, hrun⟩, hid⟩
      split_ifs at hrun with hok
      · exact ⟨status, hstatus, hok, run, hrun, hid⟩
      · cases hrun
    · rintro ⟨status, hstatus, hok, run, hrun, hid⟩
      refine ⟨run, ⟨status, hstatus, ?_⟩, hid⟩
      rwa [if_pos hok]
  rw [← hlisted]
  unfold readRuns
  simp only [List.mem_map, List.mem_filter, decide_eq_true_eq]
  constructor
  · rintro ⟨run, ⟨hrun, hok⟩, rfl⟩
    exact ⟨hok, run, hrun, rfl⟩
  · rintro ⟨hok, run, hrun, rfl⟩
    exact ⟨run, ⟨hrun, hok⟩, rfl⟩

theorem readRuns_nodup : ((readRuns content answers repo).map (·.id)).Nodup :=
  firstSeen_nodup.sublist (List.filter_sublist.map _)

/-- A sum over the runs read, by id. -/
theorem sum_readRuns (c : ℤ → ℕ) : ((readRuns content answers repo).map fun run => c run.id).sum =
    ∑ id ∈ ((readRuns content answers repo).map (·.id)).toFinset, c id := by
  rw [List.sum_toFinset _ readRuns_nodup, List.map_map]
  rfl

/-! ### More requests succeed -/

/-- Some failed requests succeed, and nothing else changes. -/
def Recovers (answers answers' : ScanRequest → RequestAnswer) : Prop :=
  ∀ request, answers' request = answers request ∨
    (answers request = .failed ∧ answers' request = .ok)

theorem Recovers.ok {answers' : ScanRequest → RequestAnswer} (h : Recovers answers answers')
    {request : ScanRequest} (hok : answers request = .ok) : answers' request = .ok := by
  rcases h request with hsame | ⟨hfailed, -⟩
  · rw [hsame, hok]
  · exact absurd (hok.symm.trans hfailed) (by decide)

/-- **The count is a lower bound**: it does not become less when failed requests succeed. -/
theorem scanQueue_mono {answers' : ScanRequest → RequestAnswer} (h : Recovers answers answers')
    (hs : scanQueue pool content answers now = .ok s)
    (ht : scanQueue pool content answers' now = .ok t) : s.scan.queued ≤ t.scan.queued := by
  rw [(scanQueue_adds hs).1, (scanQueue_adds ht).1]
  have hrepo : ∀ repo, ((readRuns content answers repo).map fun run =>
        (content.jobs repo run.id).countP (countedJob pool now)).sum ≤
      ((readRuns content answers' repo).map fun run =>
        (content.jobs repo run.id).countP (countedJob pool now)).sum := fun repo => by
    rw [sum_readRuns fun id => (content.jobs repo id).countP (countedJob pool now),
      sum_readRuns fun id => (content.jobs repo id).countP (countedJob pool now)]
    refine Finset.sum_le_sum_of_subset fun id hid => ?_
    rw [List.mem_toFinset, mem_readRuns_ids] at hid ⊢
    obtain ⟨hok, status, hstatus, hlisted, hrun⟩ := hid
    exact ⟨h.ok hok, status, hstatus, h.ok hlisted, hrun⟩
  unfold scannedRepositories
  split_ifs with hpool hlist hlist' hlist'
  · exact List.sum_le_sum fun repo _ => hrepo repo
  · exact List.sum_le_sum fun repo _ => hrepo repo
  · exact absurd (h.ok hlist) hlist'
  · exact Nat.zero_le _
  · exact le_rfl

/-! ### What a scan reads -/

section Congr

variable {content' : GitHubContent}

/-- The scan of a repository reads its active runs and their jobs. -/
theorem scanRepo_congr
    (hruns : ∀ status ∈ activeRunStatuses, content.runs repo status = content'.runs repo status)
    (hjobs : ∀ status ∈ activeRunStatuses, ∀ run ∈ content.runs repo status,
      content.jobs repo run.id = content'.jobs repo run.id) (s : Scanned) :
    scanRepo pool content answers now s repo = scanRepo pool content' answers now s repo := by
  unfold scanRepo
  refine foldlM_congr (fun status hstatus t => ?_) _
  unfold scanStatus ask
  rw [← hruns status hstatus]
  cases answers (.runs repo status) with
  | failed => rfl
  | rateLimited => rfl
  | ok =>
    refine foldlM_congr (fun run hrun u => ?_) t
    unfold scanListed scanRun
    rw [hjobs status hstatus run hrun]

/-- **A scan reads nothing else** than the repositories of its pool. -/
theorem scanQueue_congr
    (hrepositories : pool.repo = "" → content.repositories = content'.repositories)
    (h : ∀ repo ∈ content.poolRepositories pool,
      (∀ status ∈ activeRunStatuses, content.runs repo status = content'.runs repo status) ∧
      ∀ status ∈ activeRunStatuses, ∀ run ∈ content.runs repo status,
        content.jobs repo run.id = content'.jobs repo run.id) :
    scanQueue pool content answers now = scanQueue pool content' answers now := by
  unfold scanQueue
  unfold GitHubContent.poolRepositories at h
  split_ifs at h ⊢ with hrepo
  · obtain ⟨hruns, hjobs⟩ := h _ (List.mem_singleton_self _)
    exact scanRepo_congr hruns hjobs {}
  · unfold ask
    rw [← hrepositories (not_not.1 hrepo)]
    cases answers .repositories with
    | ok => exact foldlM_congr (fun repo hmem s => scanRepo_congr (h repo hmem).1 (h repo hmem).2 s) {}
    | failed => rfl
    | rateLimited => rfl

end Congr

/-! ### `get_queued_count` -/

/-- `get_queued_count`: the count, and what is appended to `jobs`. -/
def getQueuedCount (pool : PoolConfig) (content : GitHubContent)
    (answers : ScanRequest → RequestAnswer) (now : ℚ) : Except RateLimitError (ℕ × List JobInfo) :=
  (scanQueue pool content answers now).map fun s => (s.scan.queued, s.jobs)

/-- A repository with one job for a pool without labels, created at time 10. -/
def futureContent : GitHubContent where
  repositories := ["app"]
  runs _ status := if status = "queued" then [⟨1, "ci", "", ""⟩] else []
  jobs _ _ := [⟨7, "build", "", "queued", "", "", "", some 10, []⟩]

/-- A pool of one repository, whose jobs count at any age. -/
def eagerPool : PoolConfig := { name := "ci", pat := "t", owner := "acme", repo := "app" }

/-- **The age filter is off** when `queued_min_age` is 0: at time 5 the job has a negative age, and
it counts. In a repository that is listed twice it counts twice. -/
theorem future_job_counts :
    getQueuedCount eagerPool futureContent (fun _ => .ok) 5 = .ok (1, []) ∧
      ((readRuns futureContent (fun _ => .ok) "app").map fun run =>
        (futureContent.jobs "app" run.id).countP fun j => (j.status = "queued" &&
          eagerPool.servesLabels j.labels) &&
          (PyFloat.finite eagerPool.queuedMinAge).le (j.age 5)).sum = 0 ∧
      getQueuedCount { eagerPool with repo := "" }
        { futureContent with repositories := ["app", "app"] } (fun _ => .ok) 20 = .ok (2, []) := by
  decide +kernel

/-- **What `get_queued_count` returns**: the counted jobs of each run that could be read, once for
each run of a listed repository, with every other job of these runs and the number of requests that
failed. It is a lower bound. -/
theorem getQueuedCount_counts (pool : PoolConfig) (content : GitHubContent)
    (answers : ScanRequest → RequestAnswer) (now : ℚ) :
    ((∀ request, answers request ≠ .rateLimited) →
      ∃ t, scanQueue pool content answers now = .ok t) ∧
    (∀ repo, ((readRuns content answers repo).map (·.id)).Nodup ∧
      ∀ id, id ∈ (readRuns content answers repo).map (·.id) ↔
        answers (.jobs repo id) = .ok ∧ ∃ status ∈ activeRunStatuses,
          answers (.runs repo status) = .ok ∧ ∃ run ∈ content.runs repo status, run.id = id) ∧
    ∀ t, scanQueue pool content answers now = .ok t →
      getQueuedCount pool content answers now = .ok (t.scan.queued, t.jobs) ∧
      t.scan.queued = ((scannedRepositories pool content answers).map fun repo =>
        ((readRuns content answers repo).map fun run =>
          (content.jobs repo run.id).countP fun j => (j.status = "queued" &&
            pool.servesLabels j.labels) && (pool.queuedMinAge = 0 ||
              (PyFloat.finite pool.queuedMinAge).le (j.age now))).sum).sum ∧
      t.jobs = ((scannedRepositories pool content answers).flatMap fun repo =>
        (readRuns content answers repo).flatMap fun run =>
          ((content.jobs repo run.id).filter fun j => j.status ≠ "queued").map fun j =>
            jobInfo j run repo) ∧
      t.scan.failed = (if pool.repo = "" ∧ answers .repositories = .failed then 1 else 0) +
        ((scannedRepositories pool content answers).map (failedRequests content answers)).sum ∧
      ∀ answers' t', Recovers answers answers' →
        scanQueue pool content answers' now = .ok t' → t.scan.queued ≤ t'.scan.queued := by
  refine ⟨exists_scanQueue, fun repo => ⟨readRuns_nodup, fun id => mem_readRuns_ids⟩, fun t h => ?_⟩
  obtain ⟨hqueued, hfailed, -, hjobs⟩ := scanQueue_adds h
  refine ⟨?_, hqueued, hjobs, hfailed, fun answers' t' hmore ht' => scanQueue_mono hmore h ht'⟩
  unfold getQueuedCount
  rw [h]
  rfl

theorem getQueuedCount_counts_future :
    ∃ t, scanQueue eagerPool futureContent (fun _ => .ok) 20 = .ok t :=
  (getQueuedCount_counts eagerPool futureContent (fun _ => .ok) 20).1 fun _ => by decide

end RunnerSwarm
