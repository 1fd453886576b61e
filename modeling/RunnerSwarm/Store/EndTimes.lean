import RunnerSwarm.Store.Announcements

/-!
# End times

A row of `runner_jobs` has two marks of a job that is over: its status and `ended_ts`. The upsert
overwrites the first and keeps the second, so a report that does not say `completed` about a job
that has ended leaves a row that is neither over nor current, and `jobs_by_runner` does not show it.

* `foldl_report` says what the reports of one call do to one row;
* `endedCompleted_iff`: the two marks agree after a call exactly when it has no such report;
* `jobs_current_run` is about whole runs: the marks agree, an end time is never changed, and a
  runner is shown with the job it is reported with.
-/

namespace RunnerSwarm

/-- The reports of a call on one job, in order. -/
def reportsOf (jobs : List JobInfo) (id : ℤ) : List JobInfo := jobs.filter fun job => job.jobId = id

/-- What a call says last of a job. -/
def LastReport (jobs : List JobInfo) (job : JobInfo) : Prop :=
  (reportsOf jobs job.jobId).getLast? = some job

instance (jobs : List JobInfo) (job : JobInfo) : Decidable (LastReport jobs job) :=
  inferInstanceAs (Decidable (_ = _))

/-- A row after a report. -/
def JobInfo.report (pool : String) (now : ℚ) (row : Option JobRow) (job : JobInfo) :
    Option JobRow :=
  some (row.elim (job.newRow pool now) (job.update now))

/-- The two marks agree. -/
def JobRow.marksAgree (row : JobRow) : Prop := row.endedTs.isSome ↔ row.status = "completed"

def JobTable.MarksAgree (table : JobTable) : Prop :=
  ∀ id row, table.get id = some row → row.marksAgree

section Reports

variable {weight : String → String} {known table : JobTable} {pool : String} {now : ℚ} {s : JobSync}
  {id : ℤ} {jobs : List JobInfo} {job : JobInfo}

theorem mem_reportsOf : job ∈ reportsOf jobs id ↔ job ∈ jobs ∧ job.jobId = id := by
  unfold reportsOf
  rw [List.mem_filter, decide_eq_true_eq]

/-- A job that is reported has a last report. -/
theorem exists_last_reportsOf (h : id ∈ jobs.map (·.jobId)) :
    ∃ before last, reportsOf jobs id = before ++ [last] ∧ last ∈ jobs ∧ last.jobId = id ∧
      LastReport jobs last := by
  obtain ⟨job, hjob, hid⟩ := List.mem_map.1 h
  have hne : reportsOf jobs id ≠ [] := List.ne_nil_of_mem (mem_reportsOf.2 ⟨hjob, hid⟩)
  have hsplit := List.dropLast_append_getLast hne
  obtain ⟨hlast, hlastId⟩ := mem_reportsOf.1 (List.getLast_mem hne)
  refine ⟨_, _, hsplit.symm, hlast, hlastId, ?_⟩
  unfold LastReport
  rw [hlastId, List.getLast?_eq_some_getLast hne]

theorem get_recordJob : (recordJob known pool now s job).table.get id =
    if job.jobId = id then job.report pool now (s.table.get id) else s.table.get id := by
  split_ifs with hid
  · subst hid
    exact congrArg JobView.row view_recordJob_self
  · exact congrArg JobView.row (view_recordJob_of_ne hid)

/-- The row after the loop over the reports. -/
theorem get_recordJobs : (jobs.foldl (recordJob known pool now) s).table.get id =
    (reportsOf jobs id).foldl (fun row job => job.report pool now row) (s.table.get id) := by
  induction jobs generalizing s with
  | nil => rfl
  | cons job jobs ih =>
    rw [List.foldl_cons, ih, get_recordJob]
    unfold reportsOf
    by_cases hid : job.jobId = id
    · rw [List.filter_cons, if_pos hid, if_pos (decide_eq_true hid)]
      rfl
    · rw [List.filter_cons, if_neg hid, if_neg (by simpa using hid)]

/-- **The reports of one call on a job**: the last one gives the status and the runner, and the
first end stays. -/
theorem foldl_report (pool : String) (now : ℚ) (row : Option JobRow) (before : List JobInfo)
    (last : JobInfo) :
    ∃ row', (before ++ [last]).foldl (fun row job => job.report pool now row) row = some row' ∧
      row'.status = last.status ∧ row'.runner = last.runner ∧
      row'.endedTs = (row.bind JobRow.endedTs).or
        (if ∃ job ∈ before ++ [last], job.status = "completed" then some now else none) := by
  induction before using List.reverseRecOn generalizing last with
  | nil =>
    cases row with
    | none => exact ⟨last.newRow pool now, rfl, rfl, rfl, by simp [JobInfo.newRow, JobInfo.ended]⟩
    | some row => exact ⟨last.update now row, rfl, rfl, rfl, by simp [JobInfo.update, JobInfo.ended]⟩
  | append_singleton before previous ih =>
    obtain ⟨row', hrow, -, -, hended⟩ := ih previous
    refine ⟨last.update now row', ?_, rfl, rfl, ?_⟩
    · rw [List.foldl_append, hrow]
      rfl
    · show row'.endedTs.or (last.ended now) = _
      rw [hended, Option.or_assoc]
      congr 1
      unfold JobInfo.ended
      by_cases hbefore : ∃ job ∈ before ++ [previous], job.status = "completed"
      · have hall : ∃ job ∈ before ++ [previous] ++ [last], job.status = "completed" := by
          obtain ⟨job, hjob, hdone⟩ := hbefore
          exact ⟨job, List.mem_append_left _ hjob, hdone⟩
        rw [if_pos hbefore, if_pos hall]
        rfl
      · rw [if_neg hbefore, Option.none_or]
        refine if_congr ⟨fun hdone => ⟨last, by simp, hdone⟩, ?_⟩ rfl rfl
        rintro ⟨job, hjob, hdone⟩
        rcases List.mem_append.1 hjob with hjob | hjob
        · exact absurd ⟨job, hjob, hdone⟩ hbefore
        · rw [← List.mem_singleton.1 hjob]
          exact hdone

/-- The row of a reported job after the call. -/
theorem get_syncJobs_reported (h : id ∈ jobs.map (·.jobId)) :
    (syncJobs weight table pool jobs now).table.get id =
      (reportsOf jobs id).foldl (fun row job => job.report pool now row) (table.get id) := by
  have hrec : ((jobs.foldl (recordJob (knownJobs weight table pool) pool now)
      ⟨table, [], []⟩).view id).row =
      (reportsOf jobs id).foldl (fun row job => job.report pool now row) (table.get id) :=
    get_recordJobs
  rw [← hrec]
  unfold syncJobs
  cases hrow : (knownJobs weight table pool).get id with
  | none =>
    have hmiss : id ∉ (knownJobs weight table pool).rows.map Prod.fst := by
      intro hin
      obtain ⟨⟨_, row⟩, hmem, rfl⟩ := List.mem_map.1 hin
      exact Table.get_eq_none_iff.1 hrow row hmem
    exact congrArg JobView.row (view_closeJobs_of_notMem hmiss)
  | some row =>
    refine congrArg JobView.row ((view_closeJobs _ hrow).trans ?_)
    rw [if_pos (Or.inl h)]

/-- The row of another job after the call: the pool's own open one is closed. -/
theorem get_syncJobs_unreported (weight : String → String) (table : JobTable) (pool : String)
    (now : ℚ) (h : id ∉ jobs.map (·.jobId)) :
    (syncJobs weight table pool jobs now).table.get id = (table.get id).map fun row =>
      if weight row.pool = weight pool ∧ row.endedTs = none then row.close now else row := by
  have hview := congrArg JobView.row (syncJobs_unlisted weight table pool now h)
  refine hview.trans ?_
  cases hrow : table.get id with
  | none =>
    rw [if_neg (by rintro ⟨row, hsome, -⟩; cases hsome)]
    exact hrow
  | some row =>
    by_cases hopen : weight row.pool = weight pool ∧ row.endedTs = none
    · rw [if_pos ⟨row, rfl, hopen⟩, Option.map_some, if_pos hopen]
      unfold JobView.close JobTable.view
      rw [hrow]
    · have hnone : ¬ ∃ row', some row = some row' ∧ weight row'.pool = weight pool ∧
          row'.endedTs = none := by
        rintro ⟨row', hsame, hopen'⟩
        rw [← Option.some.inj hsame] at hopen'
        exact hopen hopen'
      rw [if_neg hnone, Option.map_some, if_neg hopen]
      exact hrow

end Reports

/-! ### One call -/

/-- The table after a call. -/
def JobStore.after (weight : String → String) (s : JobStore) (c : SyncCall) : JobTable :=
  (syncJobs weight s.table c.pool c.jobs c.now).table

/-- A job whose last report does not say that it is completed has not ended, and no earlier report
of the call says so. -/
def ReportsOpen (s : JobStore) (c : SyncCall) : Prop :=
  ∀ last ∈ c.jobs, LastReport c.jobs last → last.status ≠ "completed" →
    (∀ row ∈ s.table.get last.jobId, row.endedTs = none) ∧
      ∀ job ∈ reportsOf c.jobs last.jobId, job.status ≠ "completed"

/-- No other job is in progress on the runner of a job that is reported in progress: no other report
of the call, and no row that another pool has left open. -/
def OneJobEach (weight : String → String) (s : JobStore) (c : SyncCall) : Prop :=
  ∀ job ∈ c.jobs, LastReport c.jobs job → job.status = "in_progress" → job.runner ≠ "" →
    (∀ other ∈ c.jobs, LastReport c.jobs other → other.jobId ≠ job.jobId →
      other.status = "in_progress" → other.runner ≠ job.runner) ∧
    ∀ r ∈ s.table.rows, r.1 ∉ c.jobs.map (·.jobId) → weight r.2.pool ≠ weight c.pool →
      r.2.isCurrent = true → r.2.runner ≠ job.runner

instance (s : JobStore) (c : SyncCall) : Decidable (ReportsOpen s c) := by
  unfold ReportsOpen
  infer_instance

instance (weight : String → String) (s : JobStore) (c : SyncCall) :
    Decidable (OneJobEach weight s c) := by
  unfold OneJobEach
  infer_instance

/-- A row is over in both ways or in none. -/
def MarksAgreeAfter (weight : String → String) (s : JobStore) (c : SyncCall) : Prop :=
  (s.after weight c).MarksAgree

/-- An end time that is set stays. -/
def EndKept (weight : String → String) (s : JobStore) (c : SyncCall) : Prop :=
  ∀ id row endedTs, s.table.get id = some row → row.endedTs = some endedTs →
    ∃ row', (s.after weight c).get id = some row' ∧ row'.endedTs = some endedTs

/-- A job that the call last reports in progress on a runner is what `jobs_by_runner` shows for
it. -/
def CurrentShown (weight : String → String) (s : JobStore) (c : SyncCall) : Prop :=
  ∀ job ∈ c.jobs, LastReport c.jobs job → job.status = "in_progress" → job.runner ≠ "" →
    ∃ row, (s.after weight c).get job.jobId = some row ∧
      jobsByRunner (s.after weight c) job.runner = some row.current

section Call

variable {weight : String → String} {s : JobStore} {c : SyncCall} {id : ℤ}

/-- The row of a job that is reported. -/
theorem after_reported {last : JobInfo} (hlast : last ∈ c.jobs) (h : LastReport c.jobs last) :
    ∃ row, (s.after weight c).get last.jobId = some row ∧ row.status = last.status ∧
      row.runner = last.runner ∧ row.endedTs = ((s.table.get last.jobId).bind JobRow.endedTs).or
        (if ∃ job ∈ reportsOf c.jobs last.jobId, job.status = "completed" then some c.now
          else none) := by
  obtain ⟨before, last', hreports, -, -, h'⟩ := exists_last_reportsOf (List.mem_map_of_mem hlast)
  obtain rfl : last' = last := by
    unfold LastReport at h
    rw [hreports, List.getLast?_concat] at h
    exact Option.some.inj h
  have hrow := foldl_report c.pool c.now (s.table.get last'.jobId) before last'
  rw [← hreports] at hrow
  obtain ⟨row, hfold, hrest⟩ := hrow
  exact ⟨row, (get_syncJobs_reported (List.mem_map_of_mem hlast)).trans hfold, hrest⟩

/-- **One call keeps the marks in agreement** exactly when it reports no ended job otherwise. -/
theorem marksAgreeAfter_iff (h : s.table.MarksAgree) :
    ReportsOpen s c ↔ MarksAgreeAfter weight s c := by
  constructor
  · intro hok id row hrow
    by_cases hid : id ∈ c.jobs.map (·.jobId)
    · obtain ⟨before, last, hreports, hlast, rfl, hlastReport⟩ := exists_last_reportsOf hid
      obtain ⟨row', hrow', hstatus, -, hended⟩ := after_reported (s := s) hlast hlastReport
      obtain rfl := Option.some.inj (hrow.symm.trans hrow')
      unfold JobRow.marksAgree
      rw [hstatus, hended]
      by_cases hdone : last.status = "completed"
      · have hmem : last ∈ reportsOf c.jobs last.jobId := mem_reportsOf.2 ⟨hlast, rfl⟩
        rw [if_pos ⟨last, hmem, hdone⟩]
        simp [hdone]
      · obtain ⟨hopen, hnone⟩ := hok last hlast hlastReport hdone
        have hbefore : (s.table.get last.jobId).bind JobRow.endedTs = none := by
          cases hget : s.table.get last.jobId with
          | none => rfl
          | some row => exact hopen row hget
        rw [hbefore, if_neg (by rintro ⟨job, hjob, hjobDone⟩; exact hnone job hjob hjobDone)]
        simp [hdone]
    · have hget := get_syncJobs_unreported weight s.table c.pool c.now hid
      rw [show (syncJobs weight s.table c.pool c.jobs c.now).table.get id = some row from hrow]
        at hget
      obtain ⟨old, hold, rfl⟩ := Option.map_eq_some_iff.1 hget.symm
      split_ifs
      · exact ⟨fun _ => rfl, fun _ => rfl⟩
      · exact h id old hold
  · intro hagree last hlast hlastReport hstatus
    obtain ⟨row, hrow, hrowStatus, -, hended⟩ := after_reported (s := s) hlast hlastReport
    have hmarks : row.endedTs.isSome ↔ row.status = "completed" := hagree _ row hrow
    have hnone : row.endedTs = none := by
      rw [← Option.not_isSome_iff_eq_none, hmarks, hrowStatus]
      exact hstatus
    rw [hended, Option.or_eq_none_iff] at hnone
    obtain ⟨hbefore, hreports⟩ := hnone
    refine ⟨fun old hold => ?_, fun job hjob hdone => ?_⟩
    · rw [Option.mem_def.1 hold] at hbefore
      exact hbefore
    · rw [if_pos ⟨job, hjob, hdone⟩] at hreports
      cases hreports

/-- **An end time is written once**, whatever is reported. -/
theorem endKept (weight : String → String) (s : JobStore) (c : SyncCall) : EndKept weight s c := by
  intro id row endedTs hrow hended
  by_cases hid : id ∈ c.jobs.map (·.jobId)
  · obtain ⟨before, last, -, hlast, rfl, hlastReport⟩ := exists_last_reportsOf hid
    obtain ⟨row', hrow', -, -, hended'⟩ := after_reported (s := s) hlast hlastReport
    refine ⟨row', hrow', ?_⟩
    rw [hended', hrow, Option.bind_some, hended]
    rfl
  · refine ⟨row, ?_, hended⟩
    have hget := get_syncJobs_unreported weight s.table c.pool c.now hid
    rw [hrow, Option.map_some, if_neg (by rintro ⟨-, hnone⟩; rw [hended] at hnone; cases hnone)]
      at hget
    exact hget

/-- A current row after a call is reported in progress, or left by another pool. -/
theorem after_current {row : JobRow} (hrow : (s.after weight c).get id = some row)
    (hcurrent : row.isCurrent = true) :
    (∃ job ∈ c.jobs, LastReport c.jobs job ∧ job.jobId = id ∧ job.status = "in_progress" ∧
      job.runner = row.runner) ∨
    (id ∉ c.jobs.map (·.jobId) ∧ s.table.get id = some row ∧ weight row.pool ≠ weight c.pool) := by
  unfold JobRow.isCurrent at hcurrent
  simp only [Bool.and_eq_true, decide_eq_true_eq] at hcurrent
  obtain ⟨⟨hopen, -⟩, hstatus⟩ := hcurrent
  by_cases hid : id ∈ c.jobs.map (·.jobId)
  · obtain ⟨before, last, -, hlast, rfl, hlastReport⟩ := exists_last_reportsOf hid
    obtain ⟨row', hrow', hstatus', hrunner, -⟩ := after_reported (s := s) hlast hlastReport
    obtain rfl := Option.some.inj (hrow.symm.trans hrow')
    exact Or.inl ⟨last, hlast, hlastReport, rfl, hstatus' ▸ hstatus, hrunner.symm⟩
  · have hget := get_syncJobs_unreported weight s.table c.pool c.now hid
    rw [show (syncJobs weight s.table c.pool c.jobs c.now).table.get id = some row from hrow]
      at hget
    obtain ⟨old, hold, hsame⟩ := Option.map_eq_some_iff.1 hget.symm
    split_ifs at hsame with hclosed
    · -- a row that was closed has an end
      rw [← hsame] at hopen
      cases hopen
    · subst hsame
      exact Or.inr ⟨hid, hold, fun hpool => hclosed ⟨hpool, hopen⟩⟩

/-- **The current job of a runner.** -/
theorem currentShown (hok : ReportsOpen s c) (hone : OneJobEach weight s c) :
    CurrentShown weight s c := by
  intro job hjob hlastReport hstatus hrunner
  obtain ⟨row, hrow, hrowStatus, hrowRunner, hended⟩ := after_reported (s := s) hjob hlastReport
  have hnotDone : job.status ≠ "completed" := by
    rw [hstatus]
    decide
  obtain ⟨hopen, hnone⟩ := hok job hjob hlastReport hnotDone
  have hendedNone : row.endedTs = none := by
    rw [hended, if_neg (by rintro ⟨other, hother, hdone⟩; exact hnone other hother hdone),
      Option.or_none]
    cases hget : s.table.get job.jobId with
    | none => rfl
    | some old => exact hopen old hget
  have hcurrent : row.isCurrent = true := by
    unfold JobRow.isCurrent
    rw [hendedNone, hrowRunner, hrowStatus, hstatus]
    simp [hrunner]
  refine ⟨row, hrow, ?_⟩
  rw [← hrowRunner]
  refine jobsByRunner_eq hrow hcurrent fun id' row' hrow' hcurrent' hsame => ?_
  obtain ⟨hreports, hrows⟩ := hone job hjob hlastReport hstatus hrunner
  by_contra hother
  rcases after_current hrow' hcurrent' with
    ⟨other, hmem, hlastOther, hid, hotherStatus, hotherRunner⟩ | ⟨hid, hget, hpool⟩
  · refine hreports other hmem hlastOther (hid ▸ hother) hotherStatus ?_
    rw [hotherRunner, hsame, hrowRunner]
  · refine hrows (id', row') (Table.get_eq_some_iff.1 hget) hid hpool hcurrent' ?_
    rw [hsame, hrowRunner]

end Call

/-! ### Runs -/

/-- A job is reported in progress, missed by one scan, and reported again. -/
def missedJob : List SyncCall :=
  [⟨"ci", [sampleJob "in_progress"], 1⟩, ⟨"ci", [], 2⟩, ⟨"ci", [sampleJob "in_progress"], 3⟩]

/-- **A job that was missed by one scan** keeps the end time it was given then: its row is in
progress and has ended, and its runner is shown without a job. -/
theorem not_jobs_current :
    (¬ ∀ l, Along (JobStore.sync id) (MarksAgreeAfter id) JobStore.init l) ∧
      ¬ ∀ l, Along (JobStore.sync id) (CurrentShown id) JobStore.init l := by
  constructor
  · intro h
    have hmarks := (((h missedJob).2 _ rfl).2 _ rfl).1 101 _ rfl
    exact absurd (hmarks.1 rfl) (by decide)
  · intro h
    obtain ⟨row, -, hshown⟩ := (((h missedJob).2 _ rfl).2 _ rfl).1 (sampleJob "in_progress")
      (by decide) (by decide) rfl (by decide)
    cases hshown

/-- **Whole runs**, on every database. The two marks of every row agree in every state exactly when
no call reports an ended job as anything but completed; an end time never changes; and when also no
runner has two jobs, every job that is reported in progress is shown. -/
theorem jobs_current_run (weight : String → String) (l : List SyncCall) :
    (Along (JobStore.sync weight) ReportsOpen JobStore.init l ↔
      Along (JobStore.sync weight) (MarksAgreeAfter weight) JobStore.init l) ∧
    Along (JobStore.sync weight) (EndKept weight) JobStore.init l ∧
    (Along (JobStore.sync weight) (fun s c => ReportsOpen s c ∧ OneJobEach weight s c)
        JobStore.init l →
      Along (JobStore.sync weight) (CurrentShown weight) JobStore.init l) := by
  have hafter : ∀ s c, MarksAgreeAfter weight s c ↔
      ∀ t, JobStore.sync weight s c = some t → t.table.MarksAgree := fun s c => by
    constructor
    · rintro h t ht
      obtain rfl := Option.some.inj ht
      exact h
    · exact fun h => h _ rfl
  have hinit : JobStore.init.table.MarksAgree := fun id row hrow => nomatch hrow
  refine ⟨?_, along_of_forall (endKept weight) _ l, fun hok => ?_⟩
  · rw [along_congr hafter]
    exact along_iff_invariant (fun s c hs => (marksAgreeAfter_iff hs).trans (hafter s c)) hinit l
  · exact along_mono (fun s c h => currentShown h.1 h.2) hok

/-- A job that starts and completes, and another one on the same runner after it. -/
theorem jobs_current_run_sample :
    Along (JobStore.sync id) (CurrentShown id) JobStore.init
      [⟨"ci", [sampleJob "in_progress"], 1⟩,
        ⟨"ci", [sampleJob "completed", { sampleJob "in_progress" with jobId := 102 }], 2⟩] :=
  (jobs_current_run id [⟨"ci", [sampleJob "in_progress"], 1⟩,
    ⟨"ci", [sampleJob "completed", { sampleJob "in_progress" with jobId := 102 }], 2⟩]).2.2
    (by decide +kernel)

end RunnerSwarm
