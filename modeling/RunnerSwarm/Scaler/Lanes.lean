import RunnerSwarm.Lib.Run
import RunnerSwarm.Lib.Table

/-!
# Tick lanes

`TickLanes` runs the ticks of the pools on a bounded worker pool, at most one job for each lane. The
dictionary `_running` holds the last future of each lane, `submit` refuses a job while that future
is not done, and `forget_except` drops the futures that are done of lanes that are gone.

`TickLanes.step` is one atomic step of a caller or of a worker, so that a list of actions is an
interleaving. The callers share `_lock`: `inside` is what the holder of the lock is doing, and the
others wait. The workers take no lock, so a future may become done at any time. A job has a number,
that of its call; `refused`, `returned` and `started` record what has become of the calls and jobs.

`executor.submit` puts the job on its queue before it starts a thread for it. When no thread can be
started it raises, with the job on the queue.
-/

namespace RunnerSwarm

/-- A job for a lane. -/
structure LaneJob where
  lane : String
  id : ℕ
  deriving DecidableEq

/-- A call of one of the methods. -/
inductive LaneCall
  | submit (job : LaneJob)
  | forgetExcept (lanes : List String)
  | busyLanes
  deriving DecidableEq

/-- What is left to do for the holder of the lock. -/
inductive LockedPart
  | checking (job : LaneJob)
  | submitting (job : LaneJob)
  /-- `executor.submit` has returned the future of the job. -/
  | recording (job : LaneJob)
  | leaving (job : LaneJob) (result : Bool)
  | pruning (lanes : List String)
  | listing (todo : List (String × LaneJob)) (busy : List String)
  deriving DecidableEq

/-- How a job ends. -/
inductive JobEnd
  | returns
  | raisesException
  | raisesBaseException
  deriving DecidableEq

/-- What its future holds then. -/
inductive FutureEnd
  | result
  | exception
  deriving DecidableEq

/-- `_run`, on the worker that sets the future: it swallows every `Exception`. -/
def laneRun : JobEnd → FutureEnd
  | .returns => .result
  | .raisesException => .result
  | .raisesBaseException => .exception

structure TickLanes where
  maxWorkers : ℕ
  /-- The futures of the executor: on its queue, with a worker, and done. -/
  queue : List LaneJob := []
  running : List LaneJob := []
  finished : List (LaneJob × FutureEnd) := []
  /-- `_running`. -/
  records : Table String LaneJob := Table.empty
  waiting : List LaneCall := []
  inside : Option LockedPart := none
  nextId : ℕ := 0
  /-- The jobs of the calls that found their lane busy. -/
  refused : List LaneJob := []
  /-- What the calls of `submit` have returned. -/
  returned : List (LaneJob × Bool) := []
  /-- The jobs that workers have started. -/
  started : List LaneJob := []

inductive LaneAction
  | call (c : LaneCall)
  | takeLock (n : ℕ)
  | check
  | enqueue
  | enqueueRaises (queued : Bool)
  | record
  | prune
  | list
  | release
  | startJob
  | endJob (n : ℕ) (e : JobEnd)
  deriving DecidableEq

namespace TickLanes

/-- `future.done()`. -/
def done (s : TickLanes) (job : LaneJob) : Bool := job ∈ s.finished.map Prod.fst

/-- The lane's previous job is unfinished, as `submit` finds out. -/
def isBusy (s : TickLanes) (lane : String) : Bool :=
  (s.records.get lane).any fun current => !s.done current

/-- The part of a call under the lock. -/
def enter (s : TickLanes) : LaneCall → LockedPart
  | .submit job => .checking job
  | .forgetExcept lanes => .pruning ((s.records.rows.map Prod.fst).filter (· ∉ lanes))
  | .busyLanes => .listing s.records.rows []

/-- One round of the loop in `forget_except`. -/
def forget (s : TickLanes) (lane : String) : Table String LaneJob :=
  if s.isBusy lane then s.records else s.records.without lane

def step (s : TickLanes) : LaneAction → Option TickLanes
  | .call c =>
      match c with
      | .submit job =>
          -- a call has a number of its own
          if job.id = s.nextId then
            some { s with waiting := s.waiting ++ [c], nextId := s.nextId + 1 }
          else none
      | _ => some { s with waiting := s.waiting ++ [c] }
  | .takeLock n =>
      match s.inside, s.waiting[n]? with
      | none, some c =>
          some { s with waiting := s.waiting.eraseIdx n, inside := some (s.enter c) }
      | _, _ => none
  | .check =>
      match s.inside with
      | some (.checking job) =>
          if s.isBusy job.lane then
            some { s with inside := some (.leaving job false), refused := s.refused ++ [job] }
          else some { s with inside := some (.submitting job) }
      | _ => none
  | .enqueue =>
      match s.inside with
      | some (.submitting job) =>
          some { s with queue := s.queue ++ [job], inside := some (.recording job) }
      | _ => none
  | .enqueueRaises queued =>
      match s.inside with
      | some (.submitting job) =>
          -- the exception leaves `submit`, and the lock
          some { s with queue := s.queue ++ (if queued then [job] else []), inside := none }
      | _ => none
  | .record =>
      match s.inside with
      | some (.recording job) =>
          some { s with
            records := s.records.put job.lane job
            inside := some (.leaving job true) }
      | _ => none
  | .prune =>
      match s.inside with
      | some (.pruning (lane :: lanes)) =>
          some { s with records := s.forget lane, inside := some (.pruning lanes) }
      | _ => none
  | .list =>
      match s.inside with
      | some (.listing ((lane, job) :: todo) busy) =>
          some { s with
            inside := some (.listing todo (if s.done job then busy else busy ++ [lane])) }
      | _ => none
  | .release =>
      match s.inside with
      | some (.leaving job result) =>
          some { s with inside := none, returned := s.returned ++ [(job, result)] }
      | some (.pruning []) => some { s with inside := none }
      | some (.listing [] _) => some { s with inside := none }
      | _ => none
  | .startJob =>
      match s.queue with
      | [] => none
      | job :: rest =>
          if s.running.length < s.maxWorkers then
            some { s with
              queue := rest
              running := s.running ++ [job]
              started := s.started ++ [job] }
          else none
  | .endJob n e =>
      s.running[n]?.map fun job =>
        { s with
          running := s.running.eraseIdx n
          finished := s.finished ++ [(job, laneRun e)] }

/-- The lanes before the first call. -/
def init (maxWorkers : ℕ) : TickLanes where
  maxWorkers := maxWorkers

/-! ### The jobs -/

/-- The jobs that are queued or running. -/
def unfinished (s : TickLanes) : List LaneJob := s.queue ++ s.running

/-- The jobs the executor has or had. -/
def handedOver (s : TickLanes) : List LaneJob := s.unfinished ++ s.finished.map Prod.fst

end TickLanes

/-- The job of a call that has still to be decided. -/
def LaneCall.job : LaneCall → Option LaneJob
  | .submit job => some job
  | _ => none

def LockedPart.undecided : LockedPart → Option LaneJob
  | .checking job => some job
  | .submitting job => some job
  | _ => none

/-- The job of a call that is decided, and what the call is going to return. -/
def LockedPart.decided : LockedPart → Option (LaneJob × Bool)
  | .recording job => some (job, true)
  | .leaving job result => some (job, result)
  | _ => none

namespace TickLanes

/-- The jobs of the calls that have still to be decided. -/
def undecided (s : TickLanes) : List LaneJob :=
  s.waiting.filterMap LaneCall.job ++ (s.inside.bind LockedPart.undecided).toList

/-- What the calls have returned, or are going to. -/
def results (s : TickLanes) : List (LaneJob × Bool) :=
  s.returned ++ (s.inside.bind LockedPart.decided).toList

/-- Every job, in the one place where it is. -/
def jobs (s : TickLanes) : List LaneJob := s.undecided ++ (s.handedOver ++ s.refused)

/-- The invariant of the lanes. -/
structure LanesInv (s : TickLanes) : Prop where
  once : (s.jobs.map (·.id)).Nodup
  older : ∀ job ∈ s.jobs, job.id < s.nextId
  oneEach : (s.unfinished.map (·.lane)).Nodup
  /-- An unfinished job is found under its lane, or is about to be put there. -/
  recorded : ∀ job ∈ s.unfinished,
    s.records.get job.lane = some job ∨ s.inside = some (.recording job)
  /-- What is found under a lane is a job of the lane. -/
  records : ∀ lane job, s.records.get lane = some job → job.lane = lane ∧ job ∈ s.handedOver
  free : ∀ job, s.inside = some (.submitting job) → ∀ other ∈ s.unfinished, other.lane ≠ job.lane
  latest : ∀ job, s.inside = some (.recording job) →
    ∀ other ∈ s.unfinished, other.lane = job.lane → other = job
  started : s.started.Perm (s.running ++ s.finished.map Prod.fst)
  accepted : ∀ job, job ∈ s.handedOver ↔ (job, true) ∈ s.results
  refused : ∀ job, job ∈ s.refused ↔ (job, false) ∈ s.results

variable {s t : TickLanes} {job other : LaneJob} {lane : String}

/-! ### What `submit` finds out -/

namespace LanesInv

theorem jobs_nodup (h : LanesInv s) : s.jobs.Nodup := h.once.of_map _

theorem handedOver_nodup (h : LanesInv s) : s.handedOver.Nodup :=
  h.jobs_nodup.sublist ((List.sublist_append_left _ _).trans (List.sublist_append_right _ _))

theorem not_done (h : LanesInv s) (hjob : job ∈ s.unfinished) : s.done job = false := by
  refine decide_eq_false fun hdone => ?_
  exact (List.nodup_append.1 h.handedOver_nodup).2.2 _ hjob _ hdone rfl

theorem unfinished_of_isBusy (h : LanesInv s) (hbusy : s.isBusy lane = true) :
    ∃ job ∈ s.unfinished, job.lane = lane := by
  unfold isBusy at hbusy
  rw [Option.any_eq_true] at hbusy
  obtain ⟨current, hcurrent, hdone⟩ := hbusy
  obtain ⟨hlane, hmem⟩ := h.records lane current hcurrent
  refine ⟨current, (List.mem_append.1 hmem).resolve_right fun hfinished => ?_, hlane⟩
  have hyes : s.done current = true := decide_eq_true hfinished
  rw [hyes] at hdone
  cases hdone

/-- **A lane is busy** for `submit` exactly when it has an unfinished job, unless a future has still
to be recorded. -/
theorem isBusy_iff (h : LanesInv s) (hinside : ∀ job, s.inside ≠ some (.recording job)) :
    s.isBusy lane = true ↔ ∃ job ∈ s.unfinished, job.lane = lane := by
  refine ⟨h.unfinished_of_isBusy, ?_⟩
  rintro ⟨job, hjob, rfl⟩
  unfold isBusy
  rw [Option.any_eq_true]
  refine ⟨job, (h.recorded job hjob).resolve_right (hinside job), ?_⟩
  rw [h.not_done hjob]
  rfl

end LanesInv

/-! ### The steps -/

/-- What a step can be. -/
inductive LaneStep (s : TickLanes) : LaneAction → TickLanes → Prop
  | submit {job : LaneJob} (hid : job.id = s.nextId) : LaneStep s (.call (.submit job))
      { s with waiting := s.waiting ++ [.submit job], nextId := s.nextId + 1 }
  | waits {c : LaneCall} (hnone : c.job = none) :
      LaneStep s (.call c) { s with waiting := s.waiting ++ [c] }
  | takeLock {n : ℕ} {c : LaneCall} (hinside : s.inside = none) (hc : s.waiting[n]? = some c) :
      LaneStep s (.takeLock n)
        { s with waiting := s.waiting.eraseIdx n, inside := some (s.enter c) }
  | refuse {job : LaneJob} (hinside : s.inside = some (.checking job))
      (hbusy : s.isBusy job.lane = true) : LaneStep s .check
        { s with inside := some (.leaving job false), refused := s.refused ++ [job] }
  | accept {job : LaneJob} (hinside : s.inside = some (.checking job))
      (hfree : s.isBusy job.lane = false) :
      LaneStep s .check { s with inside := some (.submitting job) }
  | enqueue {job : LaneJob} (hinside : s.inside = some (.submitting job)) :
      LaneStep s .enqueue { s with queue := s.queue ++ [job], inside := some (.recording job) }
  | enqueueRaises {job : LaneJob} {queued : Bool} (hinside : s.inside = some (.submitting job)) :
      LaneStep s (.enqueueRaises queued)
        { s with queue := s.queue ++ (if queued then [job] else []), inside := none }
  | record {job : LaneJob} (hinside : s.inside = some (.recording job)) : LaneStep s .record
      { s with records := s.records.put job.lane job, inside := some (.leaving job true) }
  | prune {lane : String} {lanes : List String}
      (hinside : s.inside = some (.pruning (lane :: lanes))) :
      LaneStep s .prune { s with records := s.forget lane, inside := some (.pruning lanes) }
  | list {lane : String} {job : LaneJob} {todo : List (String × LaneJob)} {busy : List String}
      (hinside : s.inside = some (.listing ((lane, job) :: todo) busy)) : LaneStep s .list
        { s with inside := some (.listing todo (if s.done job then busy else busy ++ [lane])) }
  | returns {job : LaneJob} {result : Bool} (hinside : s.inside = some (.leaving job result)) :
      LaneStep s .release { s with inside := none, returned := s.returned ++ [(job, result)] }
  | leaves {part : LockedPart} (hinside : s.inside = some part) (hundecided : part.undecided = none)
      (hdecided : part.decided = none) : LaneStep s .release { s with inside := none }
  | startJob {job : LaneJob} {rest : List LaneJob} (hqueue : s.queue = job :: rest)
      (hworker : s.running.length < s.maxWorkers) : LaneStep s .startJob
        { s with queue := rest, running := s.running ++ [job], started := s.started ++ [job] }
  | endJob {n : ℕ} {e : JobEnd} (hn : n < s.running.length) : LaneStep s (.endJob n e)
      { s with
        running := s.running.eraseIdx n
        finished := s.finished ++ [(s.running[n], laneRun e)] }

theorem step_cases {a : LaneAction} (h : s.step a = some t) : LaneStep s a t := by
  cases a with
  | call c =>
    cases c with
    | submit job =>
      unfold step at h
      dsimp only at h
      split_ifs at h with hid
      obtain rfl := Option.some.inj h
      exact .submit hid
    | forgetExcept lanes | busyLanes =>
      obtain rfl := Option.some.inj h
      exact .waits rfl
  | takeLock n =>
    unfold step at h
    dsimp only at h
    split at h
    · rename_i c hinside hc
      obtain rfl := Option.some.inj h
      exact .takeLock hinside hc
    · cases h
  | check =>
    unfold step at h
    dsimp only at h
    split at h
    · rename_i job hinside
      split_ifs at h with hbusy
      · obtain rfl := Option.some.inj h
        exact .refuse hinside hbusy
      · obtain rfl := Option.some.inj h
        exact .accept hinside (Bool.eq_false_iff.2 hbusy)
    · cases h
  | enqueue =>
    unfold step at h
    dsimp only at h
    split at h
    · rename_i job hinside
      obtain rfl := Option.some.inj h
      exact .enqueue hinside
    · cases h
  | enqueueRaises queued =>
    unfold step at h
    dsimp only at h
    split at h
    · rename_i job hinside
      obtain rfl := Option.some.inj h
      exact .enqueueRaises hinside
    · cases h
  | record =>
    unfold step at h
    dsimp only at h
    split at h
    · rename_i job hinside
      obtain rfl := Option.some.inj h
      exact .record hinside
    · cases h
  | prune =>
    unfold step at h
    dsimp only at h
    split at h
    · rename_i lane lanes hinside
      obtain rfl := Option.some.inj h
      exact .prune hinside
    · cases h
  | list =>
    unfold step at h
    dsimp only at h
    split at h
    · rename_i lane job todo busy hinside
      obtain rfl := Option.some.inj h
      exact .list hinside
    · cases h
  | release =>
    unfold step at h
    dsimp only at h
    split at h
    · rename_i job result hinside
      obtain rfl := Option.some.inj h
      exact .returns hinside
    · rename_i hinside
      obtain rfl := Option.some.inj h
      exact .leaves hinside rfl rfl
    · rename_i busy hinside
      obtain rfl := Option.some.inj h
      exact .leaves hinside rfl rfl
    · cases h
  | startJob =>
    unfold step at h
    dsimp only at h
    split at h
    · cases h
    · rename_i job rest hqueue
      split_ifs at h with hworker
      obtain rfl := Option.some.inj h
      exact .startJob hqueue hworker
  | endJob n e =>
    obtain ⟨job, hjob, rfl⟩ := Option.map_eq_some_iff.1 h
    obtain ⟨hn, rfl⟩ := List.getElem?_eq_some_iff.1 hjob
    exact .endJob hn

/-! ### What a step keeps -/

theorem undecided_of_inside {part : LockedPart} (h : s.inside = some part) :
    s.undecided = s.waiting.filterMap LaneCall.job ++ part.undecided.toList := by
  unfold undecided
  rw [h]
  rfl

theorem not_recording {part : LockedPart} (h : s.inside = some part)
    (hpart : ∀ job, part ≠ .recording job) (job : LaneJob) : s.inside ≠ some (.recording job) :=
  fun hrecording => hpart job (Option.some.inj (h.symm.trans hrecording))

theorem enter_undecided (s : TickLanes) (c : LaneCall) : (s.enter c).undecided = c.job := by
  cases c <;> rfl

theorem LanesInv.submit (h : LanesInv s) (hid : job.id = s.nextId) :
    LanesInv { s with waiting := s.waiting ++ [.submit job], nextId := s.nextId + 1 } := by
  have hjobs : ({ s with waiting := s.waiting ++ [.submit job], nextId := s.nextId + 1 } :
      TickLanes).jobs.Perm (job :: s.jobs) := by
    refine List.perm_iff_count.2 fun a => ?_
    simp [jobs, undecided, handedOver, unfinished, LaneCall.job, List.count_cons]
    omega
  refine { h with once := ?_, older := fun other hother => ?_ }
  · rw [(hjobs.map _).nodup_iff, List.map_cons, List.nodup_cons]
    refine ⟨fun hmem => ?_, h.once⟩
    obtain ⟨other, hother, heq⟩ := List.mem_map.1 hmem
    have hlt := h.older other hother
    omega
  · rcases List.mem_cons.1 (hjobs.subset hother) with rfl | hold
    · exact hid ▸ Nat.lt_succ_self _
    · exact Nat.lt_succ_of_lt (h.older other hold)

theorem LanesInv.waits (h : LanesInv s) {c : LaneCall} (hnone : c.job = none) :
    LanesInv { s with waiting := s.waiting ++ [c] } := by
  have hjobs : ({ s with waiting := s.waiting ++ [c] } : TickLanes).jobs = s.jobs := by
    simp [jobs, undecided, handedOver, unfinished, hnone]
  exact { h with once := hjobs ▸ h.once, older := hjobs ▸ h.older }

/-- A step of the callers that neither hands over a job nor records a future. -/
theorem LanesInv.move (h : LanesInv s) {waiting : List LaneCall} {inside : Option LockedPart}
    (hjobs : ({ s with waiting := waiting, inside := inside } : TickLanes).jobs.Perm s.jobs)
    (hresults : ({ s with waiting := waiting, inside := inside } : TickLanes).results = s.results)
    (hbefore : ∀ job, s.inside ≠ some (.recording job))
    (hafter : ∀ job, inside ≠ some (.recording job))
    (hfree : ∀ job, inside = some (.submitting job) →
      ∀ other ∈ s.unfinished, other.lane ≠ job.lane) :
    LanesInv { s with waiting := waiting, inside := inside } :=
  { h with
    once := (hjobs.map _).nodup_iff.2 h.once
    older := fun job hjob => h.older job (hjobs.subset hjob)
    recorded := fun job hjob => Or.inl ((h.recorded job hjob).resolve_right (hbefore job))
    free := hfree
    latest := fun job hpart => absurd hpart (hafter job)
    accepted := fun job => hresults ▸ h.accepted job
    refused := fun job => hresults ▸ h.refused job }

/-- A step under the lock that leaves the futures and the job of the call as they are. -/
theorem LanesInv.look (h : LanesInv s) {part : LockedPart} {inside : Option LockedPart}
    (hinside : s.inside = some part)
    (hundecided : inside.bind LockedPart.undecided = part.undecided)
    (hdecided : inside.bind LockedPart.decided = part.decided)
    (hbefore : ∀ job, part ≠ .recording job) (hafter : ∀ job, inside ≠ some (.recording job))
    (hfree : ∀ job, inside = some (.submitting job) →
      ∀ other ∈ s.unfinished, other.lane ≠ job.lane) :
    LanesInv { s with inside := inside } := by
  refine h.move ?_ ?_ (not_recording hinside hbefore) hafter hfree
  · unfold jobs undecided
    rw [hinside, Option.bind_some, hundecided]
    exact .refl _
  · unfold results
    rw [hinside, Option.bind_some, hdecided]

theorem LanesInv.takeLock (h : LanesInv s) {n : ℕ} {c : LaneCall} (hinside : s.inside = none)
    (hc : s.waiting[n]? = some c) :
    LanesInv { s with waiting := s.waiting.eraseIdx n, inside := some (s.enter c) } := by
  obtain ⟨hn, rfl⟩ := List.getElem?_eq_some_iff.1 hc
  have hperm : (s.waiting[n] :: s.waiting.eraseIdx n).Perm s.waiting :=
    List.getElem_cons_eraseIdx_perm hn
  have henter : ∀ job, s.enter s.waiting[n] ≠ .recording job ∧
      s.enter s.waiting[n] ≠ .submitting job := fun job => by
    cases s.waiting[n] <;> exact ⟨nofun, nofun⟩
  have hdecided : (s.enter s.waiting[n]).decided = none := by
    cases s.waiting[n] <;> rfl
  refine h.move ?_ ?_ (fun job hpart => ?_) (fun job hpart => ?_) fun job hpart => ?_
  · -- The call takes its job along.
    refine List.Perm.append_right _ ?_
    unfold undecided
    rw [hinside, Option.bind_none, Option.toList_none, List.append_nil, Option.bind_some,
      enter_undecided]
    refine (List.perm_append_comm.trans ?_).trans (hperm.filterMap LaneCall.job)
    cases hjob : s.waiting[n].job with
    | none => rw [List.filterMap_cons_none hjob, Option.toList_none, List.nil_append]
    | some job => rw [List.filterMap_cons_some hjob, Option.toList_some, List.singleton_append]
  · unfold results
    rw [hinside, Option.bind_some, hdecided, Option.bind_none]
  · rw [hinside] at hpart
    cases hpart
  · exact (henter job).1 (Option.some.inj hpart)
  · exact absurd (Option.some.inj hpart) (henter job).2

/-- `submit` finds the lane busy. -/
theorem LanesInv.refuse (h : LanesInv s) (hinside : s.inside = some (.checking job)) :
    LanesInv { s with inside := some (.leaving job false), refused := s.refused ++ [job] } := by
  have hjobs : ({ s with
      inside := some (.leaving job false)
      refused := s.refused ++ [job] } : TickLanes).jobs.Perm s.jobs := by
    refine List.perm_iff_count.2 fun a => ?_
    unfold jobs
    rw [undecided_of_inside hinside]
    simp only [undecided, Option.bind_some, LockedPart.undecided, Option.toList_none,
      Option.toList_some, handedOver, unfinished, List.count_append, List.count_nil]
    omega
  have hresults : ({ s with
      inside := some (.leaving job false)
      refused := s.refused ++ [job] } : TickLanes).results = s.results ++ [(job, false)] := by
    unfold results
    rw [hinside]
    simp [LockedPart.decided]
  refine { h with
    once := (hjobs.map _).nodup_iff.2 h.once
    older := fun job hjob => h.older job (hjobs.subset hjob)
    recorded := fun job hjob =>
      Or.inl ((h.recorded job hjob).resolve_right (not_recording hinside nofun job))
    free := nofun
    latest := nofun
    accepted := fun other => ?_
    refused := fun other => ?_ }
  · rw [hresults, List.mem_append, ← h.accepted other]
    simp [handedOver, unfinished]
  · rw [hresults, List.mem_append, List.mem_append, h.refused other]
    simp

/-- `submit` finds the lane free: it has no unfinished job, or it would have been busy. -/
theorem LanesInv.accept (h : LanesInv s) (hinside : s.inside = some (.checking job))
    (hfree : s.isBusy job.lane = false) :
    LanesInv { s with inside := some (.submitting job) } := by
  refine h.look hinside rfl rfl nofun nofun fun other hpart previous hprevious hlane => ?_
  cases hpart
  have hbusy := (h.isBusy_iff (not_recording hinside nofun)).2 ⟨previous, hprevious, hlane⟩
  rw [hfree] at hbusy
  cases hbusy

/-- **A job is handed over** to the executor: its lane has no other. -/
theorem LanesInv.enqueue (h : LanesInv s) (hinside : s.inside = some (.submitting job)) :
    LanesInv { s with queue := s.queue ++ [job], inside := some (.recording job) } := by
  have hjobs : ({ s with
      queue := s.queue ++ [job]
      inside := some (.recording job) } : TickLanes).jobs.Perm s.jobs := by
    refine List.perm_iff_count.2 fun a => ?_
    unfold jobs
    rw [undecided_of_inside hinside]
    simp only [undecided, Option.bind_some, LockedPart.undecided, Option.toList_none,
      Option.toList_some, handedOver, unfinished, List.count_append, List.count_nil]
    omega
  have hunfinished : ({ s with
      queue := s.queue ++ [job]
      inside := some (.recording job) } : TickLanes).unfinished.Perm (job :: s.unfinished) := by
    refine List.perm_iff_count.2 fun a => ?_
    simp only [unfinished, List.count_append, List.count_cons, List.count_nil]
    omega
  have hresults : ({ s with
      queue := s.queue ++ [job]
      inside := some (.recording job) } : TickLanes).results = s.results ++ [(job, true)] := by
    unfold results
    rw [hinside]
    simp [LockedPart.decided]
  have hfree := h.free job hinside
  refine { h with
    once := (hjobs.map _).nodup_iff.2 h.once
    older := fun job hjob => h.older job (hjobs.subset hjob)
    oneEach := ?_
    recorded := fun other hother => ?_
    records := fun lane current hcurrent => ?_
    free := nofun
    latest := fun other hpart previous hprevious hlane => ?_
    accepted := fun other => ?_
    refused := fun other => ?_ }
  · rw [(hunfinished.map _).nodup_iff, List.map_cons, List.nodup_cons]
    refine ⟨fun hmem => ?_, h.oneEach⟩
    obtain ⟨other, hother, hlane⟩ := List.mem_map.1 hmem
    exact hfree other hother hlane
  · rcases List.mem_cons.1 (hunfinished.subset hother) with rfl | hold
    · exact Or.inr rfl
    · exact Or.inl ((h.recorded other hold).resolve_right (not_recording hinside nofun other))
  · obtain ⟨hlane, hmem⟩ := h.records lane current hcurrent
    refine ⟨hlane, ?_⟩
    simp only [handedOver, unfinished, List.mem_append] at hmem ⊢
    tauto
  · cases hpart
    rcases List.mem_cons.1 (hunfinished.subset hprevious) with rfl | hold
    · rfl
    · exact absurd hlane (hfree previous hold)
  · rw [hresults, List.mem_append, ← h.accepted other]
    simp only [handedOver, unfinished, List.mem_append, List.mem_singleton, Prod.mk.injEq, and_true]
    tauto
  · rw [hresults, List.mem_append, ← h.refused other]
    simp

/-- An executor that raises before it puts the job on its queue forgets it. -/
theorem LanesInv.enqueueRaises (h : LanesInv s) (hinside : s.inside = some (.submitting job)) :
    LanesInv { s with inside := none } := by
  have hjobs : s.jobs.Perm (job :: ({ s with inside := none } : TickLanes).jobs) := by
    refine List.perm_iff_count.2 fun a => ?_
    unfold jobs
    rw [undecided_of_inside hinside]
    simp only [undecided, LockedPart.undecided, Option.bind_none, Option.toList_none,
      Option.toList_some, handedOver, unfinished, List.count_append, List.count_cons,
      List.count_nil]
    omega
  have hresults : ({ s with inside := none } : TickLanes).results = s.results := by
    unfold results
    rw [hinside]
    rfl
  have hbefore := not_recording hinside nofun
  exact { h with
    once := (List.nodup_cons.1 ((hjobs.map _).nodup_iff.1 h.once)).2
    older := fun other hother => h.older other (hjobs.symm.subset (List.mem_cons_of_mem _ hother))
    recorded := fun job hjob => Or.inl ((h.recorded job hjob).resolve_right (hbefore job))
    free := nofun
    latest := nofun
    accepted := fun job => hresults ▸ h.accepted job
    refused := fun job => hresults ▸ h.refused job }

/-- The future of the new job takes the place of the previous one, which is done. -/
theorem LanesInv.record (h : LanesInv s) (hinside : s.inside = some (.recording job)) :
    LanesInv { s with
      records := s.records.put job.lane job
      inside := some (.leaving job true) } := by
  have hjobs : ({ s with
      records := s.records.put job.lane job
      inside := some (.leaving job true) } : TickLanes).jobs = s.jobs := by
    unfold jobs
    rw [undecided_of_inside hinside]
    rfl
  have hresults : ({ s with
      records := s.records.put job.lane job
      inside := some (.leaving job true) } : TickLanes).results = s.results := by
    unfold results
    rw [hinside]
    rfl
  have hhanded : job ∈ s.handedOver := by
    rw [h.accepted job]
    unfold results
    rw [hinside]
    exact List.mem_append_right _ List.mem_cons_self
  refine { h with
    once := hjobs ▸ h.once
    older := hjobs ▸ h.older
    recorded := fun other hother => Or.inl ?_
    records := fun lane current hcurrent => ?_
    free := nofun
    latest := nofun
    accepted := fun job => hresults ▸ h.accepted job
    refused := fun job => hresults ▸ h.refused job }
  · by_cases hlane : other.lane = job.lane
    · rw [h.latest job hinside other hother hlane]
      exact (Table.get_put _ _ _ _).trans (if_pos rfl)
    · refine (Table.get_put _ _ _ _).trans ((if_neg hlane).trans ?_)
      refine (h.recorded other hother).resolve_right fun hpart => hlane ?_
      rw [hinside] at hpart
      cases hpart
      rfl
  · have hget := (Table.get_put s.records job.lane job lane).symm.trans hcurrent
    split_ifs at hget with hlane
    · cases hget
      exact ⟨hlane.symm, hhanded⟩
    · exact h.records lane current hget

/-- **A lane with an unfinished job is not forgotten.** -/
theorem LanesInv.get_forget (h : LanesInv s) (hinside : ∀ job, s.inside ≠ some (.recording job))
    (hjob : job ∈ s.unfinished) : (s.forget lane).get job.lane = some job := by
  have hrecord := (h.recorded job hjob).resolve_right (hinside job)
  unfold forget
  split_ifs with hbusy
  · exact hrecord
  · unfold Table.without
    rw [Table.get_deleteWhere, hrecord]
    refine Option.filter_eq_some_iff.2 ⟨rfl, ?_⟩
    have hne : job.lane ≠ lane := fun hlane =>
      hbusy ((h.isBusy_iff hinside).2 ⟨job, hjob, hlane⟩)
    simpa using hne

theorem get_forget_sub {current : LaneJob} {lane' : String}
    (hget : (s.forget lane).get lane' = some current) : s.records.get lane' = some current := by
  unfold forget at hget
  split_ifs at hget with hbusy
  · exact hget
  · unfold Table.without at hget
    rw [Table.get_deleteWhere] at hget
    exact (Option.filter_eq_some_iff.1 hget).1

theorem LanesInv.prune (h : LanesInv s) {lanes : List String}
    (hinside : s.inside = some (.pruning (lane :: lanes))) :
    LanesInv { s with records := s.forget lane, inside := some (.pruning lanes) } := by
  have hbefore := not_recording hinside nofun
  have hjobs : ({ s with
      records := s.forget lane
      inside := some (.pruning lanes) } : TickLanes).jobs = s.jobs := by
    unfold jobs
    rw [undecided_of_inside hinside]
    rfl
  have hresults : ({ s with
      records := s.forget lane
      inside := some (.pruning lanes) } : TickLanes).results = s.results := by
    unfold results
    rw [hinside]
    rfl
  exact { h with
    once := hjobs ▸ h.once
    older := hjobs ▸ h.older
    recorded := fun job hjob => Or.inl (h.get_forget hbefore hjob)
    records := fun lane' current hcurrent => h.records lane' current (get_forget_sub hcurrent)
    free := nofun
    latest := nofun
    accepted := fun job => hresults ▸ h.accepted job
    refused := fun job => hresults ▸ h.refused job }

/-- A call returns; what it returns was decided before. -/
theorem LanesInv.returns (h : LanesInv s) {result : Bool}
    (hinside : s.inside = some (.leaving job result)) :
    LanesInv { s with inside := none, returned := s.returned ++ [(job, result)] } := by
  have hjobs : ({ s with
      inside := none
      returned := s.returned ++ [(job, result)] } : TickLanes).jobs = s.jobs := by
    unfold jobs
    rw [undecided_of_inside hinside]
    rfl
  have hresults : ({ s with
      inside := none
      returned := s.returned ++ [(job, result)] } : TickLanes).results = s.results := by
    unfold results
    rw [hinside]
    exact List.append_nil _
  exact { h with
    once := hjobs ▸ h.once
    older := hjobs ▸ h.older
    recorded := fun job hjob =>
      Or.inl ((h.recorded job hjob).resolve_right (not_recording hinside nofun job))
    free := nofun
    latest := nofun
    accepted := fun job => hresults ▸ h.accepted job
    refused := fun job => hresults ▸ h.refused job }

/-- A worker takes the first job of the queue. -/
theorem LanesInv.startJob (h : LanesInv s) {rest : List LaneJob} (hqueue : s.queue = job :: rest) :
    LanesInv
      { s with queue := rest, running := s.running ++ [job], started := s.started ++ [job] } := by
  have hunfinished : (rest ++ (s.running ++ [job])).Perm s.unfinished := by
    unfold unfinished
    rw [hqueue]
    refine List.perm_iff_count.2 fun a => ?_
    simp only [List.count_append, List.count_cons, List.count_nil]
    omega
  have hhanded : (rest ++ (s.running ++ [job]) ++ s.finished.map Prod.fst).Perm s.handedOver :=
    hunfinished.append_right _
  have hjobs : (s.undecided ++
      (rest ++ (s.running ++ [job]) ++ s.finished.map Prod.fst ++ s.refused)).Perm s.jobs :=
    (hhanded.append_right _).append_left _
  exact { h with
    once := (hjobs.map _).nodup_iff.2 h.once
    older := fun job hjob => h.older job (hjobs.subset hjob)
    oneEach := (hunfinished.map _).nodup_iff.2 h.oneEach
    recorded := fun other hother => h.recorded other (hunfinished.subset hother)
    records := fun lane current hcurrent =>
      ⟨(h.records lane current hcurrent).1,
        hhanded.symm.subset (h.records lane current hcurrent).2⟩
    free := fun job hpart other hother => h.free job hpart other (hunfinished.subset hother)
    latest := fun job hpart other hother =>
      h.latest job hpart other (hunfinished.subset hother)
    started := by
      refine List.perm_iff_count.2 fun a => ?_
      have hcount := List.perm_iff_count.1 h.started a
      simp only [List.count_append] at hcount ⊢
      omega
    accepted := fun other => hhanded.mem_iff.trans (h.accepted other) }

/-- A job ends, normally or not: its future is done. -/
theorem LanesInv.endJob (h : LanesInv s) {n : ℕ} {e : JobEnd} (hn : n < s.running.length) :
    LanesInv { s with
      running := s.running.eraseIdx n
      finished := s.finished ++ [(s.running[n], laneRun e)] } := by
  have hrunning : (s.running[n] :: s.running.eraseIdx n).Perm s.running :=
    List.getElem_cons_eraseIdx_perm hn
  have hcount := List.perm_iff_count.1 hrunning
  have hunfinished : (s.running[n] :: (s.queue ++ s.running.eraseIdx n)).Perm s.unfinished := by
    refine List.perm_iff_count.2 fun a => ?_
    have hone := hcount a
    simp only [unfinished, List.count_append, List.count_cons] at hone ⊢
    omega
  have hsub : (s.queue ++ s.running.eraseIdx n) ⊆ s.unfinished := fun other hother =>
    hunfinished.subset (List.mem_cons_of_mem _ hother)
  have hhanded : (s.queue ++ s.running.eraseIdx n ++
      (s.finished ++ [(s.running[n], laneRun e)]).map Prod.fst).Perm s.handedOver := by
    refine List.perm_iff_count.2 fun a => ?_
    have hone := hcount a
    simp only [handedOver, unfinished, List.map_append, List.map_cons, List.map_nil,
      List.count_append, List.count_cons, List.count_nil] at hone ⊢
    omega
  have hjobs : (s.undecided ++ (s.queue ++ s.running.eraseIdx n ++
      (s.finished ++ [(s.running[n], laneRun e)]).map Prod.fst ++ s.refused)).Perm s.jobs :=
    (hhanded.append_right _).append_left _
  exact { h with
    once := (hjobs.map _).nodup_iff.2 h.once
    older := fun job hjob => h.older job (hjobs.subset hjob)
    oneEach := (List.nodup_cons.1 ((hunfinished.map _).nodup_iff.2 h.oneEach)).2
    recorded := fun other hother => h.recorded other (hsub hother)
    records := fun lane current hcurrent =>
      ⟨(h.records lane current hcurrent).1,
        hhanded.symm.subset (h.records lane current hcurrent).2⟩
    free := fun job hpart other hother => h.free job hpart other (hsub hother)
    latest := fun job hpart other hother => h.latest job hpart other (hsub hother)
    started := by
      refine List.perm_iff_count.2 fun a => ?_
      have hone := hcount a
      have hstarted := List.perm_iff_count.1 h.started a
      simp only [List.map_append, List.map_cons, List.map_nil, List.count_append, List.count_cons,
        List.count_nil] at hone hstarted ⊢
      omega
    accepted := fun other => hhanded.mem_iff.trans (h.accepted other) }

end TickLanes

end RunnerSwarm
