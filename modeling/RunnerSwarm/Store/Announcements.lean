import RunnerSwarm.Lib.Run
import RunnerSwarm.Store.Jobs

/-!
# One log line per start and per finish

The lists `sync_jobs` returns are what the scaler logs. Over a sequence of calls by any number of
pools, `announcedOnce_run` says that every reported job is announced as started once, and as
finished once when it is first reported open and later completed.

This needs `OwnJobs`: a call reports only jobs that have no row or a row of the calling pool.
Another pool does not find such a row among its known jobs, so it announces the job again at each
scan (`not_announcedOnce`).
-/

namespace RunnerSwarm

/-- One call of `sync_jobs`. -/
structure SyncCall where
  pool : String
  jobs : List JobInfo
  now : ℚ
  deriving DecidableEq

/-- A call with what it returned. -/
structure SyncEntry where
  call : SyncCall
  started : List Announcement
  finished : List Announcement
  deriving DecidableEq

/-- The job table with the calls so far. -/
structure JobStore where
  table : JobTable
  log : List SyncEntry

namespace JobStore

/-- A store without jobs. -/
def init : JobStore := ⟨Table.empty, []⟩

/-- One call, on a database that compares names by `weight`. -/
def sync (weight : String → String) (s : JobStore) (c : SyncCall) : Option JobStore :=
  let r := syncJobs weight s.table c.pool c.jobs c.now
  some ⟨r.table, s.log ++ [⟨c, r.started, r.finished⟩]⟩

end JobStore

/-- All reports, in order. -/
def reports (log : List SyncEntry) : List JobInfo := log.flatMap fun e => e.call.jobs

/-- The first report of a job. -/
def firstReport (log : List SyncEntry) (id : ℤ) : Option JobInfo :=
  (reports log).find? fun job => job.jobId = id

/-- How often a job was announced as started. -/
def startedIn (log : List SyncEntry) (id : ℤ) : ℕ := announced id (log.flatMap (·.started))

/-- How often a job was announced as finished. -/
def finishedIn (log : List SyncEntry) (id : ℤ) : ℕ := announced id (log.flatMap (·.finished))

/-- Every start is announced once, and every finish that follows an open report. -/
structure AnnouncedOnce (log : List SyncEntry) : Prop where
  starts : ∀ job ∈ reports log, startedIn log job.jobId = 1
  finishes : ∀ id first, firstReport log id = some first → first.status ≠ "completed" →
    (∃ job ∈ reports log, job.jobId = id ∧ job.status = "completed") → finishedIn log id = 1

/-- The call reports only jobs that are new or recorded under its own pool, each once. -/
def OwnJobs (weight : String → String) (s : JobStore) (c : SyncCall) : Prop :=
  (c.jobs.map (·.jobId)).Nodup ∧
    ∀ job ∈ c.jobs, ∀ row ∈ s.table.get job.jobId, weight row.pool = weight c.pool

instance (weight : String → String) (s : JobStore) (c : SyncCall) :
    Decidable (OwnJobs weight s c) := by
  unfold OwnJobs
  infer_instance

/-! ### The log and one job -/

section Log

variable {log : List SyncEntry} {e : SyncEntry} {id : ℤ} {s t : JobStore} {c : SyncCall}

theorem reports_concat : reports (log ++ [e]) = reports log ++ e.call.jobs := by
  simp [reports]

theorem firstReport_concat : firstReport (log ++ [e]) id =
    (firstReport log id).or (e.call.jobs.find? fun job => job.jobId = id) := by
  unfold firstReport
  rw [reports_concat, List.find?_append]

theorem startedIn_concat : startedIn (log ++ [e]) id = startedIn log id + announced id e.started := by
  simp [startedIn, announced_append]

theorem finishedIn_concat :
    finishedIn (log ++ [e]) id = finishedIn log id + announced id e.finished := by
  simp [finishedIn, announced_append]

theorem ended_eq_none_iff {job : JobInfo} {now : ℚ} :
    job.ended now = none ↔ job.status ≠ "completed" := by
  unfold JobInfo.ended
  split_ifs with h <;> simp [h]

/-- In a list with distinct ids, the job with an id is the one that is found. -/
theorem find?_of_mem {jobs : List JobInfo} (hnd : (jobs.map (·.jobId)).Nodup) {job : JobInfo}
    (h : job ∈ jobs) : jobs.find? (fun j => j.jobId = job.jobId) = some job := by
  cases hfind : jobs.find? fun j => j.jobId = job.jobId with
  | none =>
    have := List.find?_eq_none.1 hfind job h
    simp at this
  | some j =>
    have hid : j.jobId = job.jobId := by simpa using List.find?_some hfind
    rw [List.inj_on_of_nodup_map hnd (List.mem_of_find?_eq_some hfind) h hid]

/-! ### The invariant -/

/-- What was announced about a job without a row. -/
structure Unseen (log : List SyncEntry) (id : ℤ) : Prop where
  report : firstReport log id = none
  started : startedIn log id = 0
  finished : finishedIn log id = 0

/-- What was announced about a job with a row. -/
structure Seen (log : List SyncEntry) (id : ℤ) (row : JobRow) (first : JobInfo) : Prop where
  report : firstReport log id = some first
  started : startedIn log id = 1
  finished : finishedIn log id =
    if first.status ≠ "completed" ∧ row.endedTs ≠ none then 1 else 0
  isOpen : row.endedTs = none → ∀ job ∈ reports log, job.jobId = id → job.status ≠ "completed"

/-- The announcements agree with the table. -/
def Account (s : JobStore) (id : ℤ) : Prop :=
  match s.table.get id with
  | none => Unseen s.log id
  | some row => ∃ first, Seen s.log id row first

theorem account_none (h : Account s id) (hrow : s.table.get id = none) : Unseen s.log id := by
  unfold Account at h
  rwa [hrow] at h

theorem account_some {row : JobRow} (h : Account s id) (hrow : s.table.get id = some row) :
    ∃ first, Seen s.log id row first := by
  unfold Account at h
  rwa [hrow] at h

theorem firstReport_mem {first : JobInfo} (h : firstReport log id = some first) :
    first ∈ reports log ∧ first.jobId = id :=
  ⟨List.mem_of_find?_eq_some h, by simpa using List.find?_some h⟩

/-- A new job is announced as started. -/
theorem seen_new {job : JobInfo} (h : Unseen log id) (hnd : (e.call.jobs.map (·.jobId)).Nodup)
    (hjob : job ∈ e.call.jobs) (hid : job.jobId = id) {pool : String} {now : ℚ}
    (hs : announced id e.started = 1) (hf : announced id e.finished = 0) :
    Seen (log ++ [e]) id (job.newRow pool now) job := by
  subst hid
  refine ⟨?_, ?_, ?_, fun hopen j hj hjid => ?_⟩
  · rw [firstReport_concat, h.report, find?_of_mem hnd hjob]
    rfl
  · rw [startedIn_concat, h.started, hs]
  · rw [finishedIn_concat, h.finished, hf, if_neg]
    rintro ⟨hst, hend⟩
    exact hend (ended_eq_none_iff.2 hst)
  · rw [reports_concat, List.mem_append] at hj
    rcases hj with hj | hj
    · have := List.find?_eq_none.1 h.report j hj
      simp [hjid] at this
    · rw [List.inj_on_of_nodup_map hnd hj hjob hjid]
      exact ended_eq_none_iff.1 hopen

/-- A job that is reported again is announced when it ends. -/
theorem seen_again {job first : JobInfo} {row : JobRow} (h : Seen log id row first)
    (hnd : (e.call.jobs.map (·.jobId)).Nodup) (hjob : job ∈ e.call.jobs) (hid : job.jobId = id)
    {now : ℚ} (hs : announced id e.started = 0)
    (hf : announced id e.finished =
      if job.status = "completed" ∧ row.endedTs = none then 1 else 0) :
    Seen (log ++ [e]) id (job.update now row) first := by
  subst hid
  have hended : (job.update now row).endedTs = row.endedTs.or (job.ended now) := rfl
  refine ⟨by rw [firstReport_concat, h.report]; rfl, by rw [startedIn_concat, h.started, hs],
    ?_, fun hopen j hj hjid => ?_⟩
  · rw [finishedIn_concat, h.finished, hf, hended]
    cases hrow : row.endedTs with
    | some at' => simp
    | none =>
      have hfirst := firstReport_mem h.report
      have hne := h.isOpen hrow first hfirst.1 hfirst.2
      by_cases hst : job.status = "completed" <;> simp [hne, hst, JobInfo.ended]
  · rw [hended, Option.or_eq_none_iff] at hopen
    rw [reports_concat, List.mem_append] at hj
    rcases hj with hj | hj
    · exact h.isOpen hopen.1 j hj hjid
    · rw [List.inj_on_of_nodup_map hnd hj hjob hjid]
      exact ended_eq_none_iff.1 hopen.2

/-- A job the call does not report. -/
theorem seen_unlisted {first : JobInfo} {row row' : JobRow} (h : Seen log id row first)
    (hjobs : id ∉ e.call.jobs.map (·.jobId)) (hs : announced id e.started = 0)
    (hcase : (row' = row ∧ announced id e.finished = 0) ∨
      (row.endedTs = none ∧ row'.endedTs ≠ none ∧ announced id e.finished = 1)) :
    Seen (log ++ [e]) id row' first := by
  have hreports : ∀ j ∈ reports (log ++ [e]), j.jobId = id → j ∈ reports log := by
    intro j hj hjid
    rw [reports_concat, List.mem_append] at hj
    exact hj.resolve_right fun hj => hjobs (hjid ▸ List.mem_map_of_mem hj)
  refine ⟨by rw [firstReport_concat, h.report]; rfl, by rw [startedIn_concat, h.started, hs],
    ?_, fun hopen j hj hjid => ?_⟩
  · rw [finishedIn_concat, h.finished]
    rcases hcase with ⟨rfl, hf⟩ | ⟨hrow, hrow', hf⟩
    · rw [hf, add_zero]
    · have hfirst := firstReport_mem h.report
      have hne := h.isOpen hrow first hfirst.1 hfirst.2
      rw [hf, if_neg (fun hc => hc.2 hrow), if_pos ⟨hne, hrow'⟩]
  · rcases hcase with ⟨rfl, -⟩ | ⟨-, hrow', -⟩
    · exact h.isOpen hopen j (hreports j hj hjid) hjid
    · exact absurd hopen hrow'

theorem account_of_get {row : JobRow} {first : JobInfo} (hrow : t.table.get id = some row)
    (h : Seen t.log id row first) : Account t id := by
  unfold Account
  rw [hrow]
  exact ⟨first, h⟩

/-- **What a call keeps**, for every job. -/
theorem account_step {weight : String → String} (h : Account s id) (hok : OwnJobs weight s c)
    (hstep : s.sync weight c = some t) :
    Account t id := by
  obtain rfl := Option.some.inj hstep
  obtain ⟨hnd, hown⟩ := hok
  by_cases hlisted : id ∈ c.jobs.map (·.jobId)
  · obtain ⟨job, hjob, rfl⟩ := List.mem_map.1 hlisted
    have hview := syncJobs_listed weight s.table c.pool c.now hnd hjob
    simp only [JobSync.view, JobTable.view, JobView.record, JobView.mk.injEq, zero_add,
      get_knownJobs] at hview
    obtain ⟨hrow', hs, hf⟩ := hview
    cases hrow : s.table.get job.jobId with
    | none =>
      rw [hrow] at hrow' hs hf
      exact account_of_get hrow' (seen_new (account_none h hrow) hnd hjob rfl
        (by simpa using hs) (by simpa using hf))
    | some row =>
      have hpool := hown job hjob row hrow
      rw [hrow] at hrow' hs hf
      obtain ⟨first, hseen⟩ := account_some h hrow
      exact account_of_get hrow' (seen_again hseen hnd hjob rfl (by simpa [hpool] using hs)
        (by simpa [hpool] using hf))
  · have hview := syncJobs_unlisted weight s.table c.pool c.now hlisted
    have hfind : c.jobs.find? (fun job => job.jobId = id) = none :=
      List.find?_eq_none.2 fun job hjob hid =>
        hlisted (List.mem_map.2 ⟨job, hjob, by simpa using hid⟩)
    cases hrow : s.table.get id with
    | none =>
      have hunseen := account_none h hrow
      rw [if_neg (by rintro ⟨row, hrow', -⟩; rw [hrow] at hrow'; cases hrow')] at hview
      simp only [JobSync.view, JobTable.view, JobView.mk.injEq, hrow] at hview
      obtain ⟨hrow', hs, hf⟩ := hview
      unfold Account
      rw [hrow']
      exact ⟨by rw [firstReport_concat, hunseen.report, hfind]; rfl,
        by rw [startedIn_concat, hunseen.started, hs], by
          rw [finishedIn_concat, hunseen.finished, hf]⟩
    | some row =>
      obtain ⟨first, hseen⟩ := account_some h hrow
      split_ifs at hview with hopen
      · simp only [JobSync.view, JobTable.view, JobView.close, JobView.mk.injEq, hrow] at hview
        obtain ⟨hrow', hs, hf⟩ := hview
        obtain ⟨row₀, hrow₀, -, hended⟩ := hopen
        rw [hrow] at hrow₀
        obtain rfl := Option.some.inj hrow₀
        exact account_of_get hrow' (seen_unlisted hseen hlisted hs
          (Or.inr ⟨hended, by simp [JobRow.close], hf⟩))
      · simp only [JobSync.view, JobTable.view, JobView.mk.injEq, hrow] at hview
        obtain ⟨hrow', hs, hf⟩ := hview
        exact account_of_get hrow' (seen_unlisted hseen hlisted hs (Or.inl ⟨rfl, hf⟩))

theorem account_init (id : ℤ) : Account JobStore.init id := ⟨rfl, rfl, rfl⟩

theorem announcedOnce_of_account (h : ∀ id, Account s id) : AnnouncedOnce s.log where
  starts := by
    intro job hjob
    cases hrow : s.table.get job.jobId with
    | none =>
      have := List.find?_eq_none.1 (account_none (h _) hrow).report job hjob
      simp at this
    | some row =>
      obtain ⟨first, hseen⟩ := account_some (h _) hrow
      exact hseen.started
  finishes := by
    rintro id first hfirst hst ⟨job, hjob, hid, hdone⟩
    cases hrow : s.table.get id with
    | none =>
      rw [(account_none (h id) hrow).report] at hfirst
      cases hfirst
    | some row =>
      obtain ⟨first', hseen⟩ := account_some (h id) hrow
      rw [hseen.report] at hfirst
      obtain rfl := Option.some.inj hfirst
      have hended : row.endedTs ≠ none := fun hopen => hseen.isOpen hopen job hjob hid hdone
      rw [hseen.finished, if_pos ⟨hst, hended⟩]

/-- **Every start and every finish is announced once**, on every database and in every run whose
calls report only jobs of their own pool. -/
theorem announcedOnce_run (weight : String → String) {l : List SyncCall}
    (hok : Along (JobStore.sync weight) (OwnJobs weight) JobStore.init l)
    (hrun : run (JobStore.sync weight) JobStore.init l = some s) : AnnouncedOnce s.log := by
  have hinv : ∀ id, Account s id := fun id =>
    run_invariant (fun _ _ _ hs hc hst => account_step hs hc hst) (account_init id) hok hrun
  exact announcedOnce_of_account hinv

end Log

/-- A job of repository `widgets` in some state. -/
def sampleJob (status : String) : JobInfo :=
  { jobId := 101, repo := "widgets", workflow := "CI", jobName := "build", runner := "r1",
    status := status, conclusion := "", url := "", startedAt := "" }

/-- One pool sees a job start and complete. -/
theorem announcedOnce_run_sample : ∃ s, run (JobStore.sync id) JobStore.init
      [⟨"ci", [sampleJob "in_progress"], 1⟩, ⟨"ci", [sampleJob "completed"], 2⟩] = some s ∧
    AnnouncedOnce s.log :=
  ⟨_, rfl, announcedOnce_run id (l := [⟨"ci", [sampleJob "in_progress"], 1⟩,
    ⟨"ci", [sampleJob "completed"], 2⟩]) (by decide) rfl⟩

/-- Two pools on one repository report the same job: it is announced as started twice. -/
theorem not_announcedOnce : ¬ ∀ (l : List SyncCall) (s : JobStore),
    run (JobStore.sync id) JobStore.init l = some s → AnnouncedOnce s.log := by
  intro h
  have honce := h [⟨"ci", [sampleJob "in_progress"], 1⟩, ⟨"deploy", [sampleJob "in_progress"], 2⟩]
    _ rfl
  exact absurd (honce.starts (sampleJob "in_progress") (by decide)) (by decide)

end RunnerSwarm
