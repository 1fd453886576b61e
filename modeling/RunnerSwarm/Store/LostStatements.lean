import RunnerSwarm.Store.Transactions

/-!
# Statements that are lost

The statements of a transaction that were executed on a connection that is gone have changed
nothing. For the three methods of several statements this module says when that makes no difference:
when the later statements, on the tables as they were, end with the same tables as all of them.
Pools, containers and jobs are names that the database tells apart, as in
`RunnerSwarm.Store.Transactions`.

* `deleteOlder_lost_iff`: no row that should have been deleted is there;
* `statuses_lost_iff`: each container no later statement writes has the row the lost ones leave;
* `jobSteps_lost_iff`: no job was closed out, and of each job the later statements write what the
  lost ones wrote, or it is there already (`JobKept`).
-/

namespace RunnerSwarm

/-! ### `prune` -/

/-- The rows of a history table after deletions. -/
def keptRows {β : Type} (ts : β → ℚ) (cutoff : ℚ) (deleted : Bool) (rows : List β) : List β :=
  if deleted then rows.filter (cutoff ≤ ts ·) else rows

theorem keptRows_eq_self_iff {β : Type} {ts : β → ℚ} {cutoff : ℚ} {rows : List β} :
    keptRows ts cutoff true rows = rows ↔ ∀ time ∈ rows.map ts, cutoff ≤ time := by
  unfold keptRows
  rw [if_pos rfl, List.filter_eq_self, List.forall_mem_map]
  exact forall₂_congr fun row _ => decide_eq_true_iff

theorem keptRows_or {β : Type} (ts : β → ℚ) (cutoff : ℚ) (d d' : Bool) (rows : List β) :
    keptRows ts cutoff d (keptRows ts cutoff d' rows) = keptRows ts cutoff (d' || d) rows := by
  unfold keptRows
  cases d with
  | false => cases d' <;> rfl
  | true =>
    cases d' with
    | false => rfl
    | true => simp [List.filter_filter]

/-- What deletions make of the tables. -/
theorem applied_deleteOlder (cutoff : ℚ) (l : List HistoryTable) (t : Tables) :
    applied (l.map (Tables.deleteOlder cutoff)) t =
      { t with
        tickSnapshots := keptRows (·.ts) cutoff (.tickSnapshots ∈ l) t.tickSnapshots
        runnerEvents := keptRows (·.ts) cutoff (.runnerEvents ∈ l) t.runnerEvents
        auditLog := keptRows (·.ts) cutoff (.auditLog ∈ l) t.auditLog } := by
  induction l generalizing t with
  | nil => rfl
  | cons table l ih =>
    have hstep : Tables.deleteOlder cutoff table t =
        { t with
          tickSnapshots := keptRows (·.ts) cutoff (table = .tickSnapshots) t.tickSnapshots
          runnerEvents := keptRows (·.ts) cutoff (table = .runnerEvents) t.runnerEvents
          auditLog := keptRows (·.ts) cutoff (table = .auditLog) t.auditLog } := by
      cases table <;> rfl
    rw [List.map_cons, applied_cons, ih, hstep]
    dsimp only
    rw [keptRows_or, keptRows_or, keptRows_or]
    simp only [List.mem_cons, Bool.decide_or, eq_comm]

/-- **Lost deletions** make no difference when there was nothing to delete. -/
theorem deleteOlder_lost_iff {cutoff : ℚ} {lost later : List HistoryTable}
    (hdisjoint : ∀ table ∈ lost, table ∉ later) {t : Tables} :
    applied (later.map (Tables.deleteOlder cutoff))
        (applied (lost.map (Tables.deleteOlder cutoff)) t) =
      applied (later.map (Tables.deleteOlder cutoff)) t ↔
    ∀ table ∈ lost, ∀ ts ∈ t.times table, cutoff ≤ ts := by
  have hfield : ∀ {β : Type} (ts : β → ℚ) (table : HistoryTable) (rows : List β),
      keptRows ts cutoff (decide (table ∈ lost ++ later)) rows =
          keptRows ts cutoff (decide (table ∈ later)) rows ↔
        (table ∈ lost → ∀ time ∈ rows.map ts, cutoff ≤ time) := by
    intro β ts table rows
    by_cases hlost : table ∈ lost
    · rw [decide_eq_true (List.mem_append_left later hlost),
        decide_eq_false (hdisjoint table hlost)]
      exact ⟨fun h _ => keptRows_eq_self_iff.1 h, fun h => keptRows_eq_self_iff.2 (h hlost)⟩
    · have hsame : decide (table ∈ lost ++ later) = decide (table ∈ later) := by simp [hlost]
      exact ⟨fun _ h => absurd h hlost, fun _ => by rw [hsame]⟩
  rw [← applied_append, ← List.map_append, applied_deleteOlder, applied_deleteOlder]
  constructor
  · intro h table hlost
    cases table with
    | tickSnapshots => exact (hfield _ _ _).1 (congrArg Tables.tickSnapshots h) hlost
    | runnerEvents => exact (hfield _ _ _).1 (congrArg Tables.runnerEvents h) hlost
    | auditLog => exact (hfield _ _ _).1 (congrArg Tables.auditLog h) hlost
  · intro h
    rw [(hfield (·.ts) .tickSnapshots t.tickSnapshots).2 (h _),
      (hfield (·.ts) .runnerEvents t.runnerEvents).2 (h _),
      (hfield (·.ts) .auditLog t.auditLog).2 (h _)]

/-! ### `replace_runner_status` -/

/-- The last row reported for a container. -/
def lastReport (rows : List ReportedRunner) (container : String) : Option ReportedRunner :=
  (rows.filter (·.container = container)).getLast?

/-- What upserts make of the tables. -/
theorem applied_upsertStatus (now : ℚ) (pool : String) (rows : List ReportedRunner) (t : Tables) :
    applied (rows.map (Tables.upsertStatus now pool)) t =
      { t with
        runnerStatus := rows.foldl (fun m r => m.insert r.container (r.stamped now pool))
          t.runnerStatus } := by
  induction rows generalizing t with
  | nil => rfl
  | cons r rows ih => rw [List.map_cons, applied_cons, ih]; rfl

/-- **The row of a container** after upserts is the last one reported. -/
theorem getElem?_foldl_insert (now : ℚ) (pool : String) (rows : List ReportedRunner)
    (m : KeyedRows String (Stamped RunnerStatus)) (container : String) :
    (rows.foldl (fun m r => m.insert r.container (r.stamped now pool)) m)[container]? =
      (lastReport rows container).elim m[container]? fun r => some (r.stamped now pool) := by
  induction rows using List.reverseRecOn with
  | nil => rfl
  | append_singleton rows r ih =>
    unfold lastReport at ih ⊢
    rw [List.foldl_append, List.foldl_cons, List.foldl_nil, Std.ExtTreeMap.getElem?_insert,
      List.filter_append]
    by_cases hr : r.container = container
    · rw [if_pos (Std.compare_eq_iff_eq.2 hr), List.filter_singleton, decide_eq_true hr]
      simp
    · rw [if_neg (mt Std.compare_eq_iff_eq.1 hr), List.filter_singleton, decide_eq_false hr, ih]
      simp

/-- **Lost statements of `replace_runner_status`** make no difference when each container that is
not written later has the row they would leave: the last one they wrote, and else no row of the
pool. -/
theorem statuses_lost_iff {now : ℚ} {pool : String} {deleted : Bool}
    {lost later : List ReportedRunner} {t : Tables} :
    applied (later.map (Tables.upsertStatus now pool))
        (applied (lost.map (Tables.upsertStatus now pool))
          (if deleted then t.deleteStatuses pool else t)) =
      applied (later.map (Tables.upsertStatus now pool)) t ↔
    ∀ container, lastReport later container = none →
      match lastReport lost container with
      | some r => t.runnerStatus[container]? = some (r.stamped now pool)
      | none => deleted = true → ∀ row ∈ t.runnerStatus[container]?, row.row.pool ≠ pool := by
  have hstart : (if deleted then t.deleteStatuses pool else t) =
      { t with
        runnerStatus := if deleted then t.runnerStatus.filter fun _ row => row.row.pool ≠ pool
          else t.runnerStatus } := by
    cases deleted <;> rfl
  rw [hstart, applied_upsertStatus, applied_upsertStatus, applied_upsertStatus]
  dsimp only
  -- the row of one container, with and without the lost statements
  have hrow : ∀ container,
      (later.foldl (fun m r => m.insert r.container (r.stamped now pool))
          (lost.foldl (fun m r => m.insert r.container (r.stamped now pool))
            (if deleted then t.runnerStatus.filter fun _ row => row.row.pool ≠ pool
              else t.runnerStatus)))[container]? =
        (later.foldl (fun m r => m.insert r.container (r.stamped now pool))
          t.runnerStatus)[container]? ↔
      (lastReport later container = none →
        match lastReport lost container with
        | some r => t.runnerStatus[container]? = some (r.stamped now pool)
        | none => deleted = true → ∀ row ∈ t.runnerStatus[container]?, row.row.pool ≠ pool) := by
    intro container
    rw [getElem?_foldl_insert, getElem?_foldl_insert, getElem?_foldl_insert]
    cases lastReport later container with
    | some r => simp
    | none =>
      cases lastReport lost container with
      | some r => simp [eq_comm]
      | none =>
        cases deleted with
        | false => simp
        | true =>
          cases hget : t.runnerStatus[container]? with
          | none => simp [hget]
          | some row => simp [hget, Option.filter_some]
  constructor
  · intro h container
    exact (hrow container).1 (congrArg (fun u : Tables => u.runnerStatus[container]?) h)
  · intro h
    rw [Std.ExtTreeMap.ext_getElem? fun container => (hrow container).2 (h container)]

/-! ### The upserts of one job -/

/-- One of the reports says that the job is completed. -/
def HasCompleted (jobs : List JobInfo) : Prop := ∃ job ∈ jobs, job.status = "completed"

instance (jobs : List JobInfo) : Decidable (HasCompleted jobs) :=
  inferInstanceAs (Decidable (∃ job ∈ jobs, job.status = "completed"))

theorem hasCompleted_append {jobs jobs' : List JobInfo} :
    HasCompleted (jobs ++ jobs') ↔ HasCompleted jobs ∨ HasCompleted jobs' := by
  unfold HasCompleted
  simp only [List.mem_append, or_and_right, exists_or]

/-- When the reports ended the job. -/
def endedBy (now : ℚ) (jobs : List JobInfo) : Option ℚ :=
  if HasCompleted jobs then some now else none

theorem endedBy_singleton (now : ℚ) (job : JobInfo) : endedBy now [job] = job.ended now := by
  unfold endedBy JobInfo.ended HasCompleted
  simp only [List.mem_singleton, exists_eq_left]

theorem endedBy_append (now : ℚ) (jobs jobs' : List JobInfo) :
    endedBy now (jobs ++ jobs') = (endedBy now jobs).or (endedBy now jobs') := by
  unfold endedBy
  by_cases h : HasCompleted jobs
  · rw [if_pos (hasCompleted_append.2 (.inl h)), if_pos h, Option.some_or]
  · simp only [hasCompleted_append, h, false_or, if_false, Option.none_or]

/-- The row of a job after upserts. -/
def writtenRow (now : ℚ) (pool : String) (row : Option JobRow) (jobs : List JobInfo) :
    Option JobRow :=
  jobs.foldl (fun row job => some (row.elim (job.newRow pool now) (job.update now))) row

/-- A row after upserts, at once: the last report stands, and the first end. -/
def JobRow.after (row : JobRow) (now : ℚ) (jobs : List JobInfo) : JobRow :=
  { row with
    status := jobs.getLast?.elim row.status (·.status)
    conclusion := jobs.getLast?.elim row.conclusion (·.conclusion)
    runner := jobs.getLast?.elim row.runner (·.runner)
    endedTs := row.endedTs.or (endedBy now jobs) }

theorem writtenRow_some (now : ℚ) (pool : String) (row : JobRow) (jobs : List JobInfo) :
    writtenRow now pool (some row) jobs = some (row.after now jobs) := by
  induction jobs using List.reverseRecOn with
  | nil =>
    unfold JobRow.after endedBy
    rw [if_neg (by rintro ⟨job, hjob, -⟩; exact List.not_mem_nil hjob), Option.or_none]
    rfl
  | append_singleton jobs job ih =>
    unfold writtenRow at ih ⊢
    rw [List.foldl_append, ih]
    unfold JobRow.after JobInfo.update
    simp [endedBy_append, endedBy_singleton, Option.or_assoc]

theorem writtenRow_none (now : ℚ) (pool : String) (job : JobInfo) (jobs : List JobInfo) :
    writtenRow now pool none (job :: jobs) = some ((job.newRow pool now).after now jobs) :=
  writtenRow_some now pool (job.newRow pool now) jobs

/-- The columns an upsert sets once. -/
def SameJob (job job' : JobInfo) : Prop :=
  job.repo = job'.repo ∧ job.workflow = job'.workflow ∧ job.jobName = job'.jobName ∧
    job.url = job'.url ∧ job.startedAt = job'.startedAt

/-- What the upserts `lost` would leave in the row of a job is there, or is written by the upserts
`later`. -/
def JobKept (row : Option JobRow) (lost later : List JobInfo) : Prop :=
  lost = [] ∨
    match row with
    | some row =>
        (later = [] → ∀ job ∈ lost.getLast?, row.status = job.status ∧
          row.conclusion = job.conclusion ∧ row.runner = job.runner) ∧
        (row.endedTs = none → HasCompleted lost → HasCompleted later)
    | none =>
        (∃ job ∈ lost.head?, ∃ job' ∈ later.head?, SameJob job job') ∧
        (HasCompleted lost → HasCompleted later)

theorem endedBy_eq_iff {now : ℚ} {lost later : List JobInfo} :
    endedBy now (lost ++ later) = endedBy now later ↔
      (HasCompleted lost → HasCompleted later) := by
  rw [endedBy_append]
  unfold endedBy
  by_cases hlost : HasCompleted lost
  · by_cases hlater : HasCompleted later
    · simp [hlost, hlater]
    · simp [hlost, hlater]
  · simp [hlost]

theorem after_eq_iff {now : ℚ} {row row' : JobRow} {jobs jobs' : List JobInfo} :
    row.after now jobs = row'.after now jobs' ↔
      (row.pool = row'.pool ∧ row.repo = row'.repo ∧ row.workflow = row'.workflow ∧
        row.jobName = row'.jobName ∧ row.url = row'.url ∧ row.startedAt = row'.startedAt ∧
        row.ts = row'.ts) ∧
      (jobs.getLast?.elim row.status (·.status) = jobs'.getLast?.elim row'.status (·.status) ∧
        jobs.getLast?.elim row.conclusion (·.conclusion) =
          jobs'.getLast?.elim row'.conclusion (·.conclusion) ∧
        jobs.getLast?.elim row.runner (·.runner) = jobs'.getLast?.elim row'.runner (·.runner)) ∧
      row.endedTs.or (endedBy now jobs) = row'.endedTs.or (endedBy now jobs') := by
  unfold JobRow.after
  rw [JobRow.mk.injEq]
  tauto

/-- **Lost upserts of one job.** -/
theorem writtenRow_lost_iff {now : ℚ} {pool : String} {row : Option JobRow}
    {lost later : List JobInfo} :
    writtenRow now pool row (lost ++ later) = writtenRow now pool row later ↔
      JobKept row lost later := by
  unfold JobKept
  cases lost with
  | nil => simp
  | cons job lost =>
    rw [or_iff_right (List.cons_ne_nil job lost)]
    cases row with
    | some row =>
      rw [writtenRow_some, writtenRow_some, Option.some_inj, after_eq_iff]
      have hended : row.endedTs.or (endedBy now (job :: lost ++ later)) =
          row.endedTs.or (endedBy now later) ↔
          (row.endedTs = none → HasCompleted (job :: lost) → HasCompleted later) := by
        cases row.endedTs with
        | none => exact ⟨fun h _ => endedBy_eq_iff.1 h, fun h => endedBy_eq_iff.2 (h rfl)⟩
        | some ended => simp
      rw [hended]
      refine (and_iff_right ⟨rfl, rfl, rfl, rfl, rfl, rfl, rfl⟩).trans
        (and_congr_left fun _ => ?_)
      cases later with
      | nil =>
        obtain ⟨last, hlast⟩ := Option.isSome_iff_exists.1
          (List.getLast?_isSome.2 (List.cons_ne_nil job lost))
        rw [List.append_nil, hlast]
        simp [eq_comm]
      | cons next later =>
        rw [List.cons_append, ← List.cons_append, List.getLast?_append_cons]
        exact iff_of_true ⟨rfl, rfl, rfl⟩ nofun
    | none =>
      cases later with
      | nil =>
        rw [List.append_nil, writtenRow_none]
        simp [writtenRow]
      | cons next later =>
        rw [List.cons_append, writtenRow_none, writtenRow_none, Option.some_inj, after_eq_iff]
        have hended : (job.newRow pool now).endedTs.or (endedBy now (lost ++ next :: later)) =
            (next.newRow pool now).endedTs.or (endedBy now later) ↔
            (HasCompleted (job :: lost) → HasCompleted (next :: later)) := by
          have hnew : ∀ (j : JobInfo) (jobs : List JobInfo),
              (j.newRow pool now).endedTs.or (endedBy now jobs) = endedBy now (j :: jobs) :=
            fun j jobs => by
              rw [← List.singleton_append, endedBy_append, endedBy_singleton]
              rfl
          rw [hnew, hnew, ← List.cons_append]
          exact endedBy_eq_iff
        rw [hended]
        have hlast : ∀ {γ : Type} (f : JobInfo → γ),
            (lost ++ next :: later).getLast?.elim (f job) f = later.getLast?.elim (f next) f := by
          intro γ f
          rw [List.getLast?_append_cons, List.getLast?_cons]
          cases later.getLast? <;> rfl
        refine ⟨fun h => ⟨⟨job, rfl, next, rfl, ?_⟩, h.2.2⟩,
          fun h => ⟨?_, ⟨hlast (·.status), hlast (·.conclusion), hlast (·.runner)⟩, h.2⟩⟩
        · obtain ⟨-, hrepo, hworkflow, hname, hurl, hstart, -⟩ := h.1
          exact ⟨hrepo, hworkflow, hname, hurl, hstart⟩
        · obtain ⟨⟨_, hhead, _, hhead', hrepo, hworkflow, hname, hurl, hstart⟩, -⟩ := h
          obtain rfl := Option.some.inj hhead
          obtain rfl := Option.some.inj hhead'
          exact ⟨rfl, hrepo, hworkflow, hname, hurl, hstart, rfl⟩

/-! ### `sync_jobs` -/

/-- What a statement does to the row of one job. -/
def JobStep.act (now : ℚ) (pool : String) (id : ℤ) (row : Option JobRow) : JobStep → Option JobRow
  | select => row
  | upsert job =>
      if job.jobId = id then some (row.elim (job.newRow pool now) (job.update now)) else row
  | close id' => if id' = id then row.map (·.close now) else row
  | readBack _ => row

/-- The report of a job that a statement writes. -/
def JobStep.upsertOf (id : ℤ) : JobStep → Option JobInfo
  | upsert job => if job.jobId = id then some job else none
  | _ => none

/-- The upserts of one job among statements. -/
def upsertsOf (id : ℤ) (steps : List JobStep) : List JobInfo :=
  steps.filterMap (JobStep.upsertOf id)

/-- **The row of a job** depends on the statements about it. -/
theorem applied_jobSteps (now : ℚ) (pool : String) (steps : List JobStep) (t : Tables) :
    ∃ jobs, applied (steps.map (JobStep.change now pool)) t = { t with runnerJobs := jobs } ∧
      ∀ id : ℤ, jobs[id]? = steps.foldl (JobStep.act now pool id) t.runnerJobs[id]? := by
  induction steps generalizing t with
  | nil => exact ⟨t.runnerJobs, rfl, fun _ => rfl⟩
  | cons step steps ih =>
    obtain ⟨jobs, happlied, hjobs⟩ := ih (step.change now pool t)
    refine ⟨jobs, ?_, fun id => ?_⟩
    · rw [List.map_cons, applied_cons, happlied]
      cases step <;> rfl
    · rw [hjobs id, List.foldl_cons]
      congr 1
      cases step with
      | select => rfl
      | upsert job =>
        change (t.runnerJobs.alter job.jobId _)[id]? = _
        rw [Std.ExtTreeMap.getElem?_alter]
        unfold JobStep.act
        dsimp only
        by_cases hid : job.jobId = id
        · rw [if_pos (Std.compare_eq_iff_eq.2 hid), if_pos hid, hid]
        · rw [if_neg (mt Std.compare_eq_iff_eq.1 hid), if_neg hid]
      | close id' =>
        change (t.runnerJobs.modify id' _)[id]? = _
        rw [Std.ExtTreeMap.getElem?_modify]
        unfold JobStep.act
        dsimp only
        by_cases hid : id' = id
        · rw [if_pos (Std.compare_eq_iff_eq.2 hid), if_pos hid, hid]
        · rw [if_neg (mt Std.compare_eq_iff_eq.1 hid), if_neg hid]
      | readBack id' => rfl

/-- Statements that do not close a job write its reports. -/
theorem foldl_act_of_not_close {now : ℚ} {pool : String} {id : ℤ} {steps : List JobStep}
    (h : JobStep.close id ∉ steps) (row : Option JobRow) :
    steps.foldl (JobStep.act now pool id) row = writtenRow now pool row (upsertsOf id steps) := by
  induction steps generalizing row with
  | nil => rfl
  | cons step steps ih =>
    obtain ⟨hstep, hsteps⟩ := not_or.1 (mt List.mem_cons.2 h)
    rw [List.foldl_cons, ih hsteps]
    unfold upsertsOf
    cases step with
    | select => rfl
    | upsert job =>
      by_cases hid : job.jobId = id
      · simp [JobStep.act, JobStep.upsertOf, hid, writtenRow]
      · simp [JobStep.act, JobStep.upsertOf, hid]
    | close id' =>
      have hid : id' ≠ id := fun hid => hstep (hid ▸ rfl)
      have hnone : JobStep.upsertOf id (.close id') = none := rfl
      rw [List.filterMap_cons_none hnone, JobStep.act, if_neg hid]
    | readBack id' => rfl

theorem close_close (row : JobRow) (now : ℚ) : (row.close now).close now = row.close now := by
  unfold JobRow.close
  by_cases h : row.conclusion = ""
  · simp [h]
  · simp [h]

/-- Statements without a report of the job only close it. -/
theorem foldl_act_of_not_upsert {now : ℚ} {pool : String} {id : ℤ} {steps : List JobStep}
    (h : upsertsOf id steps = []) (row : Option JobRow) :
    steps.foldl (JobStep.act now pool id) row =
      if JobStep.close id ∈ steps then row.map (·.close now) else row := by
  induction steps generalizing row with
  | nil => rfl
  | cons step steps ih =>
    have hnone := List.filterMap_eq_nil_iff.1 h
    have hrest : upsertsOf id steps = [] :=
      List.filterMap_eq_nil_iff.2 fun s hs => hnone s (List.mem_cons_of_mem _ hs)
    rw [List.foldl_cons, ih hrest]
    cases step with
    | select => simp [JobStep.act]
    | upsert job =>
      have hid : job.jobId ≠ id := fun hid => by
        simpa [JobStep.upsertOf, hid] using hnone _ (.head _)
      simp [JobStep.act, hid]
    | close id' =>
      by_cases hid : id' = id
      · subst hid
        cases row with
        | none => simp [JobStep.act]
        | some row => simp [JobStep.act, close_close]
      · simp [JobStep.act, hid, Ne.symm hid]
    | readBack id' => simp [JobStep.act]

/-- **Lost statements of `sync_jobs`** make no difference when none of them closed a job and the
upserts of every job are kept. A job is closed once, while it is open, and not also reported. -/
theorem jobSteps_lost_iff {now : ℚ} {pool : String} {lost later : List JobStep} {t : Tables}
    (hclose : ∀ id, JobStep.close id ∈ lost ++ later → upsertsOf id (lost ++ later) = [])
    (hopen : ∀ id, JobStep.close id ∈ lost →
      JobStep.close id ∉ later ∧ ∃ row, t.runnerJobs[id]? = some row ∧ row.endedTs = none) :
    applied (later.map (JobStep.change now pool)) (applied (lost.map (JobStep.change now pool)) t) =
      applied (later.map (JobStep.change now pool)) t ↔
    (∀ id, JobStep.close id ∉ lost) ∧
      ∀ id, JobKept t.runnerJobs[id]? (upsertsOf id lost) (upsertsOf id later) := by
  rw [← applied_append, ← List.map_append]
  obtain ⟨all, hall, hallRows⟩ := applied_jobSteps now pool (lost ++ later) t
  obtain ⟨rest, hrest, hrestRows⟩ := applied_jobSteps now pool later t
  rw [hall, hrest]
  -- one job
  have hjob : ∀ id : ℤ, all[id]? = rest[id]? ↔ JobStep.close id ∉ lost ∧
      JobKept t.runnerJobs[id]? (upsertsOf id lost) (upsertsOf id later) := by
    intro id
    rw [hallRows, hrestRows]
    by_cases hin : JobStep.close id ∈ lost ++ later
    · have hnone := hclose id hin
      have hsplit : upsertsOf id lost = [] ∧ upsertsOf id later = [] := by
        unfold upsertsOf at hnone ⊢
        rw [List.filterMap_append] at hnone
        exact List.append_eq_nil_iff.1 hnone
      rw [foldl_act_of_not_upsert hnone, foldl_act_of_not_upsert hsplit.2, if_pos hin]
      by_cases hlost : JobStep.close id ∈ lost
      · obtain ⟨hlater, row, hrow, hended⟩ := hopen id hlost
        rw [if_neg hlater, hrow]
        refine iff_of_false (fun h => ?_) fun h => h.1 hlost
        have hsame := congrArg JobRow.endedTs (Option.some.inj h)
        rw [hended] at hsame
        cases hsame
      · have hlater := (List.mem_append.1 hin).resolve_left hlost
        rw [if_pos hlater]
        exact iff_of_true rfl ⟨hlost, .inl hsplit.1⟩
    · obtain ⟨hlost, hlater⟩ := not_or.1 (mt List.mem_append.2 hin)
      rw [foldl_act_of_not_close hin, foldl_act_of_not_close hlater]
      unfold upsertsOf
      rw [List.filterMap_append, writtenRow_lost_iff]
      exact (and_iff_right hlost).symm
  constructor
  · intro h
    have hrows : ∀ id : ℤ, all[id]? = rest[id]? := fun id =>
      congrArg (fun u : Tables => u.runnerJobs[id]?) h
    exact ⟨fun id => ((hjob id).1 (hrows id)).1, fun id => ((hjob id).1 (hrows id)).2⟩
  · intro h
    rw [Std.ExtTreeMap.ext_getElem? fun id => (hjob id).2 ⟨h.1 id, h.2 id⟩]

/-! ### Parts of a transaction -/

open StoreConnection

theorem mem_knownJobs {t : Tables} {pool : String} {id : ℤ} {row : JobRow}
    (h : (id, row) ∈ t.knownJobs pool) : t.runnerJobs[id]? = some row := by
  unfold Tables.knownJobs at h
  rw [Std.ExtTreeMap.mem_toList_iff_getElem?_eq_some, Std.ExtTreeMap.getElem?_filter'] at h
  exact (Option.filter_eq_some_iff.1 h).1

/-- A job that is closed is open in the table, and was not reported. -/
theorem close_mem_syncSteps {t : Tables} {pool : String} {jobs : List JobInfo} {id : ℤ}
    (h : JobStep.close id ∈ syncSteps t pool jobs) :
    upsertsOf id (syncSteps t pool jobs) = [] ∧
      ∃ row, t.runnerJobs[id]? = some row ∧ row.endedTs = none := by
  have hclose : ∃ previous ∈ t.knownJobs pool,
      JobStep.close id ∈ closeSteps (jobs.map (·.jobId)) previous := by
    rcases List.mem_cons.1 h with h | h
    · cases h
    · rcases List.mem_append.1 h with h | h
      · obtain ⟨job, -, hjob⟩ := List.mem_map.1 h
        cases hjob
      · exact List.mem_flatMap.1 h
  obtain ⟨⟨id', row⟩, hknown, hin⟩ := hclose
  unfold closeSteps at hin
  split_ifs at hin with hsettled
  · exact absurd hin List.not_mem_nil
  · have hid : id = id' := by
      rcases List.mem_cons.1 hin with hin | hin
      · exact JobStep.close.inj hin
      · cases List.mem_singleton.1 hin
    subst hid
    unfold isSettled at hsettled
    obtain ⟨hseen, hended⟩ : id ∉ jobs.map (·.jobId) ∧ row.endedTs = none := by
      simpa using hsettled
    refine ⟨List.filterMap_eq_nil_iff.2 fun step hstep => ?_, row, mem_knownJobs hknown, hended⟩
    cases step with
    | upsert job =>
      have hjob : job ∈ jobs := by
        rcases List.mem_cons.1 hstep with hstep | hstep
        · cases hstep
        · rcases List.mem_append.1 hstep with hstep | hstep
          · obtain ⟨job', hjob', heq⟩ := List.mem_map.1 hstep
            exact JobStep.upsert.inj heq ▸ hjob'
          · obtain ⟨previous, -, hclosing⟩ := List.mem_flatMap.1 hstep
            unfold closeSteps at hclosing
            split_ifs at hclosing
            · exact absurd hclosing List.not_mem_nil
            · simp at hclosing
      have hne : job.jobId ≠ id := fun heq => hseen (List.mem_map.2 ⟨job, hjob, heq⟩)
      exact if_neg hne
    | _ => rfl

/-- No job is closed twice. -/
theorem closes_once (t : Tables) (pool : String) (jobs : List JobInfo) :
    (syncSteps t pool jobs).Pairwise fun a b => ∀ id, a = .close id → b ≠ .close id := by
  refine List.pairwise_cons.2 ⟨fun _ _ _ h => (nomatch h), List.pairwise_append.2 ⟨?_, ?_, ?_⟩⟩
  · exact List.pairwise_map.2 (List.pairwise_of_forall fun _ _ _ h => nomatch h)
  · refine List.pairwise_flatMap.2 ⟨fun previous _ => ?_, ?_⟩
    · unfold closeSteps
      split_ifs
      · exact List.Pairwise.nil
      · exact List.pairwise_pair.2 fun _ _ h => nomatch h
    · refine (Std.ExtTreeMap.distinct_keys_toList).imp fun {x y} hne a ha b hb id hid => ?_
      have hkeys : x.1 ≠ y.1 := fun h => hne (Std.compare_eq_iff_eq.2 h)
      have hkey : ∀ {z : ℤ × JobRow}, JobStep.close id ∈ closeSteps (jobs.map (·.jobId)) z →
          id = z.1 := by
        intro z hz
        unfold closeSteps at hz
        split_ifs at hz
        · exact absurd hz List.not_mem_nil
        · simpa using hz
      rw [hid] at ha
      exact fun hid' => hkeys ((hkey ha).symm.trans (hkey (hid' ▸ hb)))
  · intro a ha b _ id hid
    obtain ⟨job, -, rfl⟩ := List.mem_map.1 ha
    cases hid

section Slices

variable {ι : Type} {l : List ι} {a b c : ℕ}

theorem drop_sublist_drop (hbc : b ≤ c) (l : List ι) : (l.drop c).Sublist (l.drop b) := by
  obtain ⟨d, rfl⟩ := Nat.exists_eq_add_of_le hbc
  rw [← List.drop_drop]
  exact List.drop_sublist d _

theorem slices_sublist (hbc : b ≤ c) (l : List ι) : ((l.take b).drop a ++ l.drop c).Sublist l := by
  have h := (List.drop_sublist a (l.take b)).append (drop_sublist_drop hbc l)
  rwa [List.take_append_drop] at h

/-- A relation between earlier and later elements, between two parts. -/
theorem rel_of_slices {R : ι → ι → Prop} (h : l.Pairwise R) (hbc : b ≤ c) {x y : ι}
    (hx : x ∈ (l.take b).drop a) (hy : y ∈ l.drop c) : R x y := by
  have hsplit : (l.take b ++ l.drop b).Pairwise R := by rwa [List.take_append_drop]
  exact (List.pairwise_append.1 hsplit).2.2 x (List.mem_of_mem_drop hx) y
    ((drop_sublist_drop hbc l).subset hy)

end Slices

/-- When the statements `a`, …, `b - 1` are lost, those from `c` on end with the same tables as if
they were not. -/
def StoreOp.Idle (t : Tables) (a b c : ℕ) : StoreOp → Prop
  | .prune now days =>
      -- no row is old enough
      ∀ table ∈ (historyTables.take b).drop a, ∀ ts ∈ t.times table, now - days * 86400 ≤ ts
  | .replaceRunnerStatus now pool rows =>
      ∀ container, lastReport (rows.drop (c - 1)) container = none →
        match lastReport ((rows.take (b - 1)).drop (a - 1)) container with
        | some r => t.runnerStatus[container]? = some (r.stamped now pool)
        | none => a = 0 ∧ 0 < b → ∀ row ∈ t.runnerStatus[container]?, row.row.pool ≠ pool
  | .syncJobs _ pool jobs =>
      (∀ id, JobStep.close id ∉ ((syncSteps t pool jobs).take b).drop a) ∧
        ∀ id, JobKept t.runnerJobs[id]? (upsertsOf id (((syncSteps t pool jobs).take b).drop a))
          (upsertsOf id ((syncSteps t pool jobs).drop c))
  | op => a = b ∨ applied (op.statements t) t = t

/-- A single statement. -/
theorem single_lost_iff {ws : List (Tables → Tables)} (hone : ws.length = 1) {t : Tables}
    {a b c : ℕ} (hab : a ≤ b) (hbc : b ≤ c) (hc : 1 ≤ c) (hn : c ≤ ws.length) :
    applied (ws.drop c) (applied ((ws.take b).drop a) t) = applied (ws.drop c) t ↔
      a = b ∨ applied ws t = t := by
  obtain ⟨w, rfl⟩ := List.length_eq_one_iff.1 hone
  obtain rfl : c = 1 := le_antisymm hn hc
  rcases hab.eq_or_lt with rfl | hlt
  · have hnothing : ([w].take a).drop a = [] := List.drop_eq_nil_of_le (List.length_take_le _ _)
    rw [hnothing]
    exact iff_of_true rfl (.inl rfl)
  · obtain rfl : b = 1 := by omega
    obtain rfl : a = 0 := by omega
    exact (or_iff_right hlt.ne).symm

theorem statuses_idle_iff {now : ℚ} {pool : String} {rows : List ReportedRunner} {t : Tables}
    {a b c : ℕ} (hc : 1 ≤ c) :
    applied ((statusStatements now pool rows).drop c)
        (applied (((statusStatements now pool rows).take b).drop a) t) =
      applied ((statusStatements now pool rows).drop c) t ↔
    (StoreOp.replaceRunnerStatus now pool rows).Idle t a b c := by
  obtain ⟨c, rfl⟩ := Nat.exists_eq_add_of_le' hc
  have hlost : applied (((statusStatements now pool rows).take b).drop a) t =
      applied (((rows.take (b - 1)).drop (a - 1)).map (Tables.upsertStatus now pool))
        (if decide (a = 0 ∧ 0 < b) then t.deleteStatuses pool else t) := by
    unfold statusStatements
    cases b with
    | zero => cases a <;> simp
    | succ b =>
      cases a with
      | zero => simp [List.map_take]
      | succ a => simp [List.map_take, List.map_drop]
  have hlater : (statusStatements now pool rows).drop (c + 1) =
      (rows.drop c).map (Tables.upsertStatus now pool) := List.map_drop.symm
  rw [hlost, hlater, statuses_lost_iff]
  unfold StoreOp.Idle
  simp only [decide_eq_true_eq, Nat.add_sub_cancel]

/-- **Lost statements of a method.** -/
theorem idle_iff {op : StoreOp} (hwrites : op.writes = true) {t : Tables} {a b c : ℕ} (hab : a ≤ b)
    (hbc : b ≤ c) (hc : 1 ≤ c) (hn : c ≤ (op.statements t).length) :
    applied ((op.statements t).drop c) (applied (((op.statements t).take b).drop a) t) =
      applied ((op.statements t).drop c) t ↔ op.Idle t a b c := by
  cases op with
  | read => cases hwrites
  | prune now days =>
    have hdisjoint : ∀ table ∈ (historyTables.take b).drop a, table ∉ historyTables.drop c :=
      fun table hin hlater =>
        rel_of_slices (l := historyTables) (R := (· ≠ ·)) (by decide) hbc hin hlater rfl
    have hparts := @deleteOlder_lost_iff (now - days * 86400) _ _ hdisjoint t
    rwa [List.map_drop, List.map_drop, List.map_take] at hparts
  | replaceRunnerStatus now pool rows => exact statuses_idle_iff hc
  | syncJobs now pool jobs =>
    have hwhole := slices_sublist (a := a) hbc (syncSteps t pool jobs)
    have hparts := @jobSteps_lost_iff now pool (((syncSteps t pool jobs).take b).drop a)
      ((syncSteps t pool jobs).drop c) t
      (fun id hclose => by
        have hnone := (close_mem_syncSteps (hwhole.subset hclose)).1
        exact List.sublist_nil.1 (hnone ▸ hwhole.filterMap (JobStep.upsertOf id)))
      (fun id hclose => by
        refine ⟨fun hlater =>
          rel_of_slices (closes_once t pool jobs) hbc hclose hlater id rfl rfl, ?_⟩
        exact (close_mem_syncSteps (hwhole.subset (List.mem_append_left _ hclose))).2)
    rw [List.map_drop, List.map_drop, List.map_take] at hparts
    exact hparts
  | recordTick tick => exact single_lost_iff rfl hab hbc hc hn
  | recordEvent event => exact single_lost_iff rfl hab hbc hc hn
  | audit row => exact single_lost_iff rfl hab hbc hc hn
  | setPoolOverride now pool columns => exact single_lost_iff rfl hab hbc hc hn
  | deletePoolOverride pool => exact single_lost_iff rfl hab hbc hc hn
  | setGlobal now key value => exact single_lost_iff rfl hab hbc hc hn
  | deleteGlobal key => exact single_lost_iff rfl hab hbc hc hn
  | setPoolState pool paused draining => exact single_lost_iff rfl hab hbc hc hn
  | setProtected now container isProtected => exact single_lost_iff rfl hab hbc hc hn
  | rememberResponse now key response => exact single_lost_iff rfl hab hbc hc hn
  | pruneIdempotency now hours => exact single_lost_iff rfl hab hbc hc hn

end RunnerSwarm
