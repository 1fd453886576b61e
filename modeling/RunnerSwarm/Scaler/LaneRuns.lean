import RunnerSwarm.Scaler.Lanes

/-!
# Runs of the tick lanes

Every step keeps the invariant of the lanes, apart from an `executor.submit` that raises with the
job on its queue: `submit` then records no future, and the lane looks free while its job is queued.
In the runs without such a step the lanes keep what they promise to `_submit_pool_ticks`:

* at most one job of a lane is queued or running;
* `submit` returns `True` for the jobs that run, once each, and `False` for a lane with an
  unfinished job;
* `forget_except` leaves a lane with an unfinished job busy;
* a job that ends, by whatever exception, frees its own lane and touches no other.
-/

namespace RunnerSwarm

namespace TickLanes

variable {s t : TickLanes} {job other : LaneJob} {lane : String}

/-! ### Runs -/

/-- `executor.submit` does not raise with the job on its queue. -/
def NoneLeft (_ : TickLanes) (a : LaneAction) : Prop := a ≠ .enqueueRaises true

instance (s : TickLanes) (a : LaneAction) : Decidable (NoneLeft s a) :=
  inferInstanceAs (Decidable (a ≠ .enqueueRaises true))

theorem LanesInv.step (h : LanesInv s) {a : LaneAction} (hok : NoneLeft s a)
    (hstep : s.step a = some t) : LanesInv t := by
  cases step_cases hstep with
  | submit hid => exact h.submit hid
  | waits hnone => exact h.waits hnone
  | takeLock hinside hc => exact h.takeLock hinside hc
  | refuse hinside hbusy => exact h.refuse hinside
  | accept hinside hfree => exact h.accept hinside hfree
  | enqueue hinside => exact h.enqueue hinside
  | @enqueueRaises job queued hinside =>
    cases queued with
    | false =>
      rw [if_neg Bool.false_ne_true, List.append_nil]
      exact h.enqueueRaises hinside
    | true => exact absurd rfl hok
  | record hinside => exact h.record hinside
  | prune hinside => exact h.prune hinside
  | list hinside => exact h.look hinside rfl rfl nofun nofun nofun
  | returns hinside => exact h.returns hinside
  | leaves hinside hundecided hdecided =>
    refine h.look hinside hundecided.symm hdecided.symm (fun job hpart => ?_) nofun nofun
    rw [hpart] at hdecided
    cases hdecided
  | startJob hqueue hworker => exact h.startJob hqueue
  | endJob hn => exact h.endJob hn

theorem lanesInv_init (maxWorkers : ℕ) : LanesInv (init maxWorkers) where
  once := List.nodup_nil
  older _ hjob := absurd hjob List.not_mem_nil
  oneEach := List.nodup_nil
  recorded _ hjob := absurd hjob List.not_mem_nil
  records _ _ hcurrent := nomatch hcurrent
  free := nofun
  latest := nofun
  started := .refl _
  accepted _ := ⟨fun hjob => absurd hjob List.not_mem_nil, fun hjob => absurd hjob List.not_mem_nil⟩
  refused _ := ⟨fun hjob => absurd hjob List.not_mem_nil, fun hjob => absurd hjob List.not_mem_nil⟩

/-- What every step keeps: the number of workers, and the jobs started; the queue loses its jobs
from the front only, to the workers. -/
structure Frame (s t : TickLanes) (a : LaneAction) : Prop where
  maxWorkers : t.maxWorkers = s.maxWorkers
  started : s.started <+: t.started
  queue : a ≠ .startJob → s.queue <+: t.queue

theorem step_frame {a : LaneAction} (h : s.step a = some t) : Frame s t a := by
  cases step_cases h with
  | enqueue hinside => exact ⟨rfl, List.prefix_rfl, fun _ => List.prefix_append _ _⟩
  | enqueueRaises hinside => exact ⟨rfl, List.prefix_rfl, fun _ => List.prefix_append _ _⟩
  | startJob hqueue hworker => exact ⟨rfl, List.prefix_append _ _, fun hne => absurd rfl hne⟩
  | _ => exact ⟨rfl, List.prefix_rfl, fun _ => List.prefix_rfl⟩

theorem run_maxWorkers {l : List LaneAction} (h : run step s l = some t) :
    t.maxWorkers = s.maxWorkers :=
  @run_invariant _ _ step (fun _ _ => True) (fun u => u.maxWorkers = s.maxWorkers)
    (fun _ _ _ hu _ hv => (step_frame hv).maxWorkers.trans hu) _ _ l rfl
    (along_of_forall (fun _ _ => trivial) s l) h

theorem run_started {l : List LaneAction} (h : run step s l = some t) : s.started <+: t.started :=
  @run_invariant _ _ step (fun _ _ => True) (fun u => s.started <+: u.started)
    (fun _ _ _ hu _ hv => hu.trans (step_frame hv).started) _ _ l List.prefix_rfl
    (along_of_forall (fun _ _ => trivial) s l) h

/-- **Every queued job has its turn**: after the jobs before it the workers start it. -/
theorem started_of_queued {l : List LaneAction} {k : ℕ} (hqueue : s.queue[k]? = some job)
    (h : run step s l = some t) (hmany : k < l.count .startJob) : job ∈ t.started := by
  induction l generalizing s k with
  | nil => exact absurd hmany (Nat.not_lt_zero k)
  | cons a l ih =>
    obtain ⟨u, hu, hrest⟩ := Option.bind_eq_some_iff.1 h
    by_cases ha : a = .startJob
    · subst ha
      rw [List.count_cons_self] at hmany
      cases step_cases hu with
      | startJob hfirst hworker =>
        rw [hfirst] at hqueue
        cases k with
        | zero =>
          cases hqueue
          exact (run_started hrest).subset (List.mem_append_right _ List.mem_cons_self)
        | succ k => exact ih hqueue hrest (Nat.lt_of_succ_lt_succ hmany)
    · rw [List.count_cons_of_ne ha] at hmany
      obtain ⟨more, hmore⟩ := (step_frame hu).queue ha
      obtain ⟨hk, -⟩ := List.getElem?_eq_some_iff.1 hqueue
      refine ih ?_ hrest hmany
      rw [← hmore, List.getElem?_append_left hk]
      exact hqueue

/-! ### What the lanes promise -/

/-- What holds of the lanes at any moment. -/
structure LanesCorrect (s : TickLanes) : Prop where
  /-- At most one job of a lane is queued or running. -/
  oneEach : (s.unfinished.map (·.lane)).Nodup
  /-- The job of a call that has returned `True` runs once: it is with the executor once, and has
  been started once unless it is still queued. -/
  accepted : ∀ job, (job, true) ∈ s.returned →
    s.handedOver.count job = 1 ∧ s.started.count job = if job ∈ s.queue then 0 else 1
  /-- The executor has the jobs of no other calls: they return `True`. -/
  onlyAccepted : ∀ job ∈ s.handedOver, (job, true) ∈ s.results
  /-- The job of a call that has returned `False` is not run. -/
  refused : ∀ job, (job, false) ∈ s.returned → job ∉ s.handedOver ∧ job ∉ s.started
  /-- A call returns `False` exactly when its lane has an unfinished job. -/
  check : ∀ job t, s.inside = some (.checking job) → s.step .check = some t →
    (t.inside = some (.leaving job false) ↔ ∃ other ∈ s.unfinished, other.lane = job.lane)
  /-- `forget_except` leaves a lane with an unfinished job busy. -/
  prune : ∀ t, s.step .prune = some t → ∀ job ∈ s.unfinished,
    job ∈ t.unfinished ∧ t.isBusy job.lane = true
  /-- A job that ends, by whatever exception, leaves its lane free and the other lanes alone. -/
  ends : ∀ n e t, s.step (.endJob n e) = some t → ∃ job ∈ s.running,
    (∀ other ∈ t.unfinished, other.lane ≠ job.lane) ∧ t.isBusy job.lane = false ∧
      t.queue = s.queue ∧ t.records = s.records ∧ t.inside = s.inside ∧ t.waiting = s.waiting ∧
      ∀ other : LaneJob, other.lane ≠ job.lane →
        (other ∈ t.running ↔ other ∈ s.running) ∧ t.isBusy other.lane = s.isBusy other.lane
  /-- While a job is queued, a worker is free to start the first one or has a job that may end. -/
  progress : s.queue ≠ [] → (∃ t, s.step .startJob = some t) ∨ s.running ≠ []
  /-- A queued job is started when the workers have started those before it. -/
  turn : ∀ k job l t, s.queue[k]? = some job → run step s l = some t →
    k < l.count .startJob → job ∈ t.started

namespace LanesInv

theorem count_started (h : LanesInv s) (hjob : job ∈ s.handedOver) :
    s.started.count job = if job ∈ s.queue then 0 else 1 := by
  have hone : s.handedOver.count job = 1 := List.count_eq_one_of_mem h.handedOver_nodup hjob
  have hstarted := List.perm_iff_count.1 h.started job
  unfold handedOver unfinished at hone
  simp only [List.count_append] at hone hstarted
  split_ifs with hqueue
  · have hpos : 0 < s.queue.count job := List.count_pos_iff.2 hqueue
    omega
  · have hzero : s.queue.count job = 0 := List.count_eq_zero.2 hqueue
    omega

theorem not_handedOver (h : LanesInv s) (hjob : (job, false) ∈ s.returned) :
    job ∉ s.handedOver := by
  have hrefused : job ∈ s.refused := (h.refused job).2 (List.mem_append_left _ hjob)
  have hnodup : (s.handedOver ++ s.refused).Nodup :=
    h.jobs_nodup.sublist (List.sublist_append_right _ _)
  exact fun hmem => (List.nodup_append.1 hnodup).2.2 _ hmem _ hrefused rfl

theorem check_false_iff (h : LanesInv s) (hinside : s.inside = some (.checking job))
    (hstep : s.step .check = some t) :
    t.inside = some (.leaving job false) ↔ ∃ other ∈ s.unfinished, other.lane = job.lane := by
  rw [← h.isBusy_iff (not_recording hinside nofun)]
  cases step_cases hstep with
  | refuse hinside' hbusy =>
    cases hinside.symm.trans hinside'
    exact iff_of_true rfl hbusy
  | accept hinside' hfree =>
    cases hinside.symm.trans hinside'
    exact iff_of_false nofun (Bool.eq_false_iff.1 hfree)

theorem prune_isBusy (h : LanesInv s) (hstep : s.step .prune = some t) (hjob : job ∈ s.unfinished) :
    job ∈ t.unfinished ∧ t.isBusy job.lane = true := by
  cases step_cases hstep with
  | prune hinside => exact ⟨hjob, ((h.prune hinside).isBusy_iff nofun).2 ⟨job, hjob, rfl⟩⟩

/-- The end of a job leaves the futures of the other lanes as they are. -/
theorem endJob_frees (h : LanesInv s) {n : ℕ} {e : JobEnd} (hstep : s.step (.endJob n e) = some t) :
    ∃ job ∈ s.running,
      (∀ other ∈ t.unfinished, other.lane ≠ job.lane) ∧ t.isBusy job.lane = false ∧
        t.queue = s.queue ∧ t.records = s.records ∧ t.inside = s.inside ∧ t.waiting = s.waiting ∧
        ∀ other : LaneJob, other.lane ≠ job.lane →
          (other ∈ t.running ↔ other ∈ s.running) ∧ t.isBusy other.lane = s.isBusy other.lane := by
  cases step_cases hstep with
  | endJob hn =>
    have ht := h.endJob (e := e) hn
    have hrunning : (s.running[n] :: s.running.eraseIdx n).Perm s.running :=
      List.getElem_cons_eraseIdx_perm hn
    have hfree : ∀ other ∈ s.queue ++ s.running.eraseIdx n, other.lane ≠ s.running[n].lane := by
      have hunfinished : (s.running[n] :: (s.queue ++ s.running.eraseIdx n)).Perm s.unfinished :=
        List.perm_middle.symm.trans (hrunning.append_left _)
      have hnodup := (hunfinished.map (·.lane)).nodup_iff.2 h.oneEach
      intro other hother hlane
      exact (List.nodup_cons.1 hnodup).1 (List.mem_map.2 ⟨other, hother, hlane⟩)
    refine ⟨s.running[n], List.getElem_mem hn, hfree, ?_, rfl, rfl, rfl, rfl,
      fun other hlane => ⟨?_, ?_⟩⟩
    · refine Bool.eq_false_iff.2 fun hbusy => ?_
      obtain ⟨other, hother, hlane⟩ := ht.unfinished_of_isBusy hbusy
      exact hfree other hother hlane
    · rw [← hrunning.mem_iff, List.mem_cons]
      exact (or_iff_right fun heq => hlane (congrArg LaneJob.lane heq)).symm
    · -- Its record is of the other lane, so that it is another job.
      unfold isBusy
      cases hcurrent : s.records.get other.lane with
      | none => rfl
      | some current =>
        have hne : current ≠ s.running[n] := fun heq =>
          hlane ((h.records _ _ hcurrent).1.symm.trans (congrArg LaneJob.lane heq))
        simp [done, hne]

end LanesInv

/-- What the invariant says of the calls and of the jobs. -/
theorem LanesInv.correct (h : LanesInv s) (hworkers : 0 < s.maxWorkers) : LanesCorrect s where
  oneEach := h.oneEach
  accepted job hjob := by
    have hmem : job ∈ s.handedOver := (h.accepted job).2 (List.mem_append_left _ hjob)
    exact ⟨List.count_eq_one_of_mem h.handedOver_nodup hmem, h.count_started hmem⟩
  onlyAccepted job hjob := (h.accepted job).1 hjob
  refused job hjob := by
    have hnot := h.not_handedOver hjob
    refine ⟨hnot, fun hstarted => hnot ?_⟩
    have hmem := h.started.subset hstarted
    unfold handedOver unfinished
    rw [List.append_assoc]
    exact List.mem_append_right _ hmem
  check _ _ hinside hstep := h.check_false_iff hinside hstep
  prune _ hstep _ hjob := h.prune_isBusy hstep hjob
  ends _ _ _ hstep := h.endJob_frees hstep
  progress hqueue := by
    obtain ⟨job, rest, hfirst⟩ := List.exists_cons_of_ne_nil hqueue
    rcases Decidable.em (s.running = []) with hidle | hbusy
    · refine Or.inl ⟨{ s with
        queue := rest
        running := s.running ++ [job]
        started := s.started ++ [job] }, ?_⟩
      unfold TickLanes.step
      dsimp only
      rw [hfirst]
      dsimp only
      rw [if_pos]
      rwa [hidle]
    · exact Or.inr hbusy
  turn _ _ _ _ hqueue hrun hmany := started_of_queued hqueue hrun hmany

/-- **The lanes are correct** at every moment of every interleaving in which no `executor.submit`
raises with the job on its queue. -/
theorem lanes_correct {maxWorkers : ℕ} (hworkers : 0 < maxWorkers) {l : List LaneAction}
    (hok : Along step NoneLeft (init maxWorkers) l) (h : run step (init maxWorkers) l = some s) :
    LanesCorrect s := by
  refine LanesInv.correct ?_ ((run_maxWorkers h).symm ▸ hworkers)
  exact run_invariant (fun _ _ _ hu hv hstep => hu.step hv hstep) (lanesInv_init maxWorkers) hok h

/-- A call of `submit` for the lane of the pool `ci`, up to its check. -/
def submitCi (id : ℕ) : List LaneAction := [.call (.submit ⟨"ci", id⟩), .takeLock 0, .check]

/-- The second tick of a pool is refused while the first one is running. -/
theorem lanes_correct_refused : ∃ s, run step (init 1)
      (submitCi 0 ++ [.enqueue, .startJob, .record, .release] ++ submitCi 1 ++ [.release]) =
        some s ∧
    LanesCorrect s :=
  ⟨_, rfl, lanes_correct Nat.zero_lt_one (l := submitCi 0 ++
    [.enqueue, .startJob, .record, .release] ++ submitCi 1 ++ [.release]) (by decide +kernel) rfl⟩

/-- No thread can be started for the first tick of a pool, which stays on the queue: a second one is
queued beside it. -/
theorem lanes_not_correct :
    ¬ ∀ (l : List LaneAction) (s : TickLanes), run step (init 1) l = some s → LanesCorrect s := by
  intro h
  obtain ⟨s, hs, hlanes⟩ : ∃ s : TickLanes,
      run step (init 1) (submitCi 0 ++ [.enqueueRaises true] ++ submitCi 1 ++ [.enqueue]) = some s ∧
        s.unfinished.map (·.lane) = ["ci", "ci"] :=
    ⟨_, rfl, by decide +kernel⟩
  have hone := (h _ s hs).oneEach
  rw [hlanes] at hone
  exact absurd hone (by decide)

end TickLanes

end RunnerSwarm
