import RunnerSwarm.Scaler.Cap

/-!
# The ledger of reserved slots

Every slot a lane holds is in exactly one place: waiting to be submitted, on the queue of the
worker pool, with a worker, or with a worker whose spawn is over. `Tick.held` counts them and
`TickOk` says that they are what was granted and not given back. `Ledger` adds that
`_reserved_spawns` is the sum of what all lanes hold and that `_cap_lock` excludes.

`step_cases` says what a step can be, and `step_effect` what it does to these quantities. It needs
`SubmitOk`: when `submit` raises, no spawn of the same tick may be on its way already, since the
number handed over is the return value of the function that raises.

* `ledger_run`: the ledger holds along every run in which `SubmitOk` does;
* `load_step`: what exists or is being started grows only by what is granted.
-/

namespace RunnerSwarm

/-! ### Counting spawns -/

/-- The slots a job stands for. -/
def RunnerJob.slots (job : RunnerJob) : ℕ := if job.isSpawn then 1 else 0

@[simp] theorem spawnsIn_nil : spawnsIn [] = 0 := rfl

theorem spawnsIn_append (l m : List RunnerJob) : spawnsIn (l ++ m) = spawnsIn l + spawnsIn m :=
  List.countP_append

theorem spawnsIn_cons (job : RunnerJob) (l : List RunnerJob) :
    spawnsIn (job :: l) = job.slots + spawnsIn l := by
  unfold spawnsIn RunnerJob.slots
  rw [List.countP_cons, add_comm]

@[simp] theorem spawnsIn_singleton (job : RunnerJob) : spawnsIn [job] = job.slots := by
  rw [spawnsIn_cons, spawnsIn_nil, add_zero]

theorem spawnsIn_eraseIdx {l : List RunnerJob} {n : ℕ} {job : RunnerJob} (h : l[n]? = some job) :
    spawnsIn (l.eraseIdx n) + job.slots = spawnsIn l := by
  induction l generalizing n with
  | nil => simp at h
  | cons a l ih =>
    cases n with
    | zero =>
      obtain rfl : a = job := by simpa using h
      rw [List.eraseIdx_cons_zero, spawnsIn_cons, add_comm]
    | succ n =>
      have := ih (n := n) (by simpa using h)
      rw [List.eraseIdx_cons_succ, spawnsIn_cons, spawnsIn_cons]
      omega

/-! ### The submit loop -/

namespace Submitting

variable {s rest : Submitting} {job : RunnerJob}

theorem popSpawn_spec (h : s.popSpawn = some (job, rest)) :
    rest.spawnJobs.length + job.slots = s.spawnJobs.length ∧
      rest.submittedSpawns = s.submittedSpawns := by
  unfold popSpawn at h
  obtain ⟨pool, hpool, heq⟩ := Option.map_eq_some_iff.1 h
  obtain ⟨rfl, rfl⟩ := Prod.mk.injEq .. ▸ heq
  have hne : s.spawnJobs ≠ [] := by
    rintro hnil
    rw [hnil] at hpool
    cases hpool
  have hpos := List.length_pos_of_ne_nil hne
  refine ⟨?_, rfl⟩
  show s.spawnJobs.dropLast.length + 1 = s.spawnJobs.length
  rw [List.length_dropLast]
  omega

theorem popDeregistration_spec (h : s.popDeregistration = some (job, rest)) :
    rest.spawnJobs.length + job.slots = s.spawnJobs.length ∧
      rest.submittedSpawns = s.submittedSpawns := by
  unfold popDeregistration at h
  obtain ⟨runner, -, heq⟩ := Option.map_eq_some_iff.1 h
  obtain ⟨rfl, rfl⟩ := Prod.mk.injEq .. ▸ heq
  exact ⟨rfl, rfl⟩

/-- What is left to spawn after a job has been taken out. -/
theorem nextJob_spec (h : s.nextJob = some (job, rest)) :
    rest.spawnJobs.length + job.slots = s.spawnJobs.length ∧
      rest.submittedSpawns = s.submittedSpawns := by
  unfold nextJob at h
  split_ifs at h
  all_goals
    rcases Option.or_eq_some_iff.1 h with h | ⟨-, h⟩
    · first | exact popSpawn_spec h | exact popDeregistration_spec h
    · first | exact popSpawn_spec h | exact popDeregistration_spec h

theorem nextJob_none (h : s.nextJob = none) : s.spawnJobs = [] := by
  have hpop : s.popSpawn = none := by
    unfold nextJob at h
    split_ifs at h
    · exact (Option.or_eq_none_iff.1 h).1
    · exact (Option.or_eq_none_iff.1 h).2
  simpa [popSpawn] using hpop

@[simp] theorem submitted_spawnJobs (s : Submitting) (job : RunnerJob) :
    (s.submitted job).spawnJobs = s.spawnJobs := by unfold submitted; split <;> rfl

theorem submitted_submittedSpawns (s : Submitting) (job : RunnerJob) :
    (s.submitted job).submittedSpawns = s.submittedSpawns + job.slots := by
  unfold submitted RunnerJob.slots; split <;> rfl

theorem start_spawnJobs_length (is : List PoolInspection) (allocations : List (PoolConfig × ℕ)) :
    (start is allocations).spawnJobs.length = (allocations.map Prod.snd).sum := by
  simp [start, List.length_flatMap, List.length_replicate]

end Submitting

/-- The allocations of a plan use exactly the granted slots. -/
theorem TickPlan.spawnAllocations_sum (plan : TickPlan) {granted : ℕ} (h : granted ≤ plan.toSpawn) :
    ((plan.spawnAllocations granted).map Prod.snd).sum = granted := by
  cases plan with
  | single pool i stopped => simp [spawnAllocations]
  | personal pool is draining =>
    refine personalAllocations_sum is (h.trans ?_)
    show (if draining then 0 else personalRequest pool is.items) ≤ _
    split_ifs
    · exact Nat.zero_le _
    · exact min_le_right _ _

/-! ### What a lane holds -/

/-- Slots that no job stands for yet, or that were never handed over. -/
def Phase.pending : Phase → ℕ
  | .submitting loop _ => loop.spawnJobs.length
  | .waiting spawnCount submitted => spawnCount - submitted
  | _ => 0

def Phase.isReserving : Phase → Bool
  | .reserving _ _ _ => true
  | _ => false

/-- The lane has a worker pool. -/
def Phase.hasWorkers : Phase → Bool
  | .submitting _ _ => true
  | .waiting _ _ => true
  | _ => false

namespace Tick

/-- The granted slots whose spawn has not finished. -/
def unfinished (t : Tick) : ℕ := t.phase.pending + spawnsIn t.queue + spawnsIn t.running

/-- The granted slots that were not given back. -/
def held (t : Tick) : ℕ := t.unfinished + t.returned

theorem unfinished_le_held (t : Tick) : t.unfinished ≤ t.held := Nat.le_add_right _ _

end Tick

/-- A lane's own accounts. -/
structure TickOk (t : Tick) : Prop where
  balance : t.granted = t.givenBack + t.held
  counted : ∀ loop n, t.phase = .submitting loop n →
    n = loop.submittedSpawns + loop.spawnJobs.length
  quiet : t.phase.hasWorkers = false → t.queue = [] ∧ t.running = [] ∧ t.returned = 0

/-- Without a worker pool nothing is held. -/
theorem TickOk.held_eq_zero {t : Tick} (h : TickOk t) (hw : t.phase.hasWorkers = false) :
    t.held = 0 := by
  obtain ⟨hq, hr, hret⟩ := h.quiet hw
  have hp : t.phase.pending = 0 := by
    cases hph : t.phase with
    | submitting loop n => rw [hph] at hw; cases hw
    | waiting n m => rw [hph] at hw; cases hw
    | _ => rfl
  unfold Tick.held Tick.unfinished
  rw [hq, hr, hret, hp]
  rfl

/-- Changing the phase of a lane without workers to another such phase. -/
theorem TickOk.setPhase {t : Tick} (h : TickOk t) {p : Phase} (hw : t.phase.hasWorkers = false)
    (hp : p.hasWorkers = false) : TickOk { t with phase := p } := by
  have hheld := h.held_eq_zero hw
  have hquiet := h.quiet hw
  have hok : ({ t with phase := p } : Tick).held = 0 := by
    unfold Tick.held Tick.unfinished
    simp only [hquiet]
    cases p with
    | submitting loop n => cases hp
    | waiting n m => cases hp
    | _ => rfl
  refine ⟨?_, fun loop n hph => ?_, fun _ => hquiet⟩
  · have := h.balance
    rw [hok]
    simp only
    omega
  · simp only at hph
    rw [hph] at hp
    cases hp

theorem Tick.enterLoop_held {t : Tick} (h : TickOk t) (hw : t.phase.hasWorkers = false)
    {plan : TickPlan} {granted : ℕ} (hg : granted ≤ plan.toSpawn) :
    (t.enterLoop plan granted).unfinished = granted ∧
      (t.enterLoop plan granted).held = granted := by
  obtain ⟨hq, hr, hret⟩ := h.quiet hw
  have hpend : (t.enterLoop plan granted).phase.pending = granted := by
    show (Submitting.start _ _).spawnJobs.length = granted
    rw [Submitting.start_spawnJobs_length, plan.spawnAllocations_sum hg]
  have hunf : (t.enterLoop plan granted).unfinished = granted := by
    show (t.enterLoop plan granted).phase.pending + spawnsIn t.queue + spawnsIn t.running = granted
    rw [hpend, hq, hr]
    rfl
  refine ⟨hunf, ?_⟩
  show (t.enterLoop plan granted).unfinished + t.returned = granted
  rw [hunf, hret]
  rfl

theorem TickOk.enterLoop {t : Tick} (h : TickOk t) (hw : t.phase.hasWorkers = false)
    {plan : TickPlan} {granted : ℕ} (hg : granted ≤ plan.toSpawn) :
    TickOk (t.enterLoop plan granted) := by
  obtain ⟨-, hheld⟩ := Tick.enterLoop_held h hw hg
  refine ⟨?_, fun loop n hph => ?_, fun hf => ?_⟩
  · have hbal := h.balance
    have hzero := h.held_eq_zero hw
    rw [hheld]
    show t.granted + granted = t.givenBack + granted
    omega
  · unfold Tick.enterLoop at hph
    obtain ⟨rfl, rfl⟩ := Phase.submitting.injEq .. ▸ hph
    rw [Submitting.start_spawnJobs_length]
    show _ = 0 + _
    omega
  · cases hf

/-! ### The moves of a lane with workers -/

namespace TickOk

variable {t : Tick} {loop rest : Submitting} {job : RunnerJob} {n : ℕ}

theorem submit (h : TickOk t) (hph : t.phase = .submitting loop n)
    (hnext : loop.nextJob = some (job, rest)) {u : Tick}
    (hu : u = { t with
      phase := .submitting (rest.submitted job) n
      queue := t.queue ++ [job] }) :
    TickOk u ∧ u.unfinished = t.unfinished ∧ u.held = t.held := by
  obtain ⟨hlen, hsub⟩ := Submitting.nextJob_spec hnext
  have hcount := h.counted loop n hph
  have hunf : u.unfinished = t.unfinished := by
    subst hu
    simp only [Tick.unfinished, hph, Phase.pending, Submitting.submitted_spawnJobs,
      spawnsIn_append, spawnsIn_singleton]
    omega
  have hheld : u.held = t.held := by
    unfold Tick.held
    rw [hunf, hu]
  refine ⟨⟨?_, fun loop' n' hph' => ?_, fun hf => ?_⟩, hunf, hheld⟩
  · rw [hheld, hu]
    exact h.balance
  · rw [hu] at hph'
    obtain ⟨rfl, rfl⟩ := Phase.submitting.injEq .. ▸ hph'
    rw [Submitting.submitted_submittedSpawns, Submitting.submitted_spawnJobs]
    omega
  · rw [hu] at hf
    cases hf

/-- The lane goes on to wait for its jobs. -/
theorem waits (h : TickOk t) {m : ℕ} {queue : List RunnerJob} {u : Tick}
    (hu : u = { t with phase := .waiting n m, queue := queue })
    (hunf : u.unfinished = t.unfinished) :
    TickOk u ∧ u.unfinished = t.unfinished ∧ u.held = t.held := by
  have hheld : u.held = t.held := by
    unfold Tick.held
    rw [hunf, hu]
  refine ⟨⟨?_, fun loop' n' hph' => ?_, fun hf => ?_⟩, hunf, hheld⟩
  · rw [hheld, hu]
    exact h.balance
  · rw [hu] at hph'
    cases hph'
  · rw [hu] at hf
    cases hf

/-- `submit` raises before any spawn of the tick is on its way: nothing is forgotten. -/
theorem submitRaises (h : TickOk t) (hph : t.phase = .submitting loop n)
    (hnone : loop.submittedSpawns = 0) {jobs : List RunnerJob} (hjobs : spawnsIn jobs = 0)
    {u : Tick} (hu : u = { t with phase := .waiting n 0, queue := t.queue ++ jobs }) :
    TickOk u ∧ u.unfinished = t.unfinished ∧ u.held = t.held := by
  have hcount := h.counted loop n hph
  refine h.waits hu ?_
  subst hu
  simp only [Tick.unfinished, hph, Phase.pending, spawnsIn_append]
  omega

theorem loopEnds (h : TickOk t) (hph : t.phase = .submitting loop n)
    (hnext : loop.nextJob = none) {u : Tick}
    (hu : u = { t with phase := .waiting n loop.submittedSpawns }) :
    TickOk u ∧ u.unfinished = t.unfinished ∧ u.held = t.held := by
  have hcount := h.counted loop n hph
  have hempty := Submitting.nextJob_none hnext
  refine h.waits hu ?_
  subst hu
  simp only [Tick.unfinished, hph, Phase.pending]
  rw [hempty] at hcount ⊢
  simp only [List.length_nil] at hcount ⊢
  omega

/-- A change of the worker pool that keeps the phase. -/
theorem sameWorkers (h : TickOk t) {u : Tick} (hphase : u.phase = t.phase)
    (hbal : u.granted = u.givenBack + u.held)
    (hquiet : t.queue = [] ∧ t.running = [] ∧ t.returned = 0 →
      u.queue = [] ∧ u.running = [] ∧ u.returned = 0) : TickOk u where
  balance := hbal
  counted := fun loop n hph => h.counted loop n (hphase ▸ hph)
  quiet := fun hf => hquiet (h.quiet (hphase ▸ hf))

theorem takeJob (h : TickOk t) {more : List RunnerJob} (hq : t.queue = job :: more) {u : Tick}
    (hu : u = { t with queue := more, running := t.running ++ [job] }) :
    TickOk u ∧ u.unfinished = t.unfinished ∧ u.held = t.held := by
  have hunf : u.unfinished = t.unfinished := by
    subst hu
    simp only [Tick.unfinished, hq, spawnsIn_append, spawnsIn_cons, spawnsIn_nil]
    omega
  have hheld : u.held = t.held := by
    unfold Tick.held
    rw [hunf, hu]
  refine ⟨h.sameWorkers (by rw [hu]) ?_ ?_, hunf, hheld⟩
  · rw [hheld, hu]
    exact h.balance
  · rintro ⟨hnil, -⟩
    rw [hq] at hnil
    cases hnil

theorem jobEnds (h : TickOk t) (hjob : t.running[n]? = some job) :
    TickOk (t.jobEnds n job) ∧ (t.jobEnds n job).unfinished + job.slots = t.unfinished ∧
      (t.jobEnds n job).held = t.held := by
  have herase := spawnsIn_eraseIdx hjob
  have hunf : (t.jobEnds n job).unfinished + job.slots = t.unfinished := by
    show t.phase.pending + spawnsIn t.queue + spawnsIn (t.running.eraseIdx n) + job.slots = _
    unfold Tick.unfinished
    omega
  have hret : (t.jobEnds n job).returned = t.returned + job.slots := by
    unfold Tick.jobEnds RunnerJob.slots
    split <;> rfl
  have hheld : (t.jobEnds n job).held = t.held := by
    unfold Tick.held
    omega
  refine ⟨h.sameWorkers rfl ?_ ?_, hunf, hheld⟩
  · rw [hheld]
    exact h.balance
  · rintro ⟨-, hnil, -⟩
    rw [hnil] at hjob
    cases hjob

theorem workerReleases (h : TickOk t) (hret : t.returned ≠ 0) {u : Tick}
    (hu : u = { t.giveBack 1 with returned := t.returned - 1 }) :
    TickOk u ∧ u.unfinished = t.unfinished ∧ u.held + 1 = t.held := by
  have hunf : u.unfinished = t.unfinished := by rw [hu]; rfl
  have hheld : u.held + 1 = t.held := by
    unfold Tick.held
    rw [hunf, hu]
    simp only
    omega
  refine ⟨h.sameWorkers (by rw [hu]; rfl) ?_ ?_, hunf, hheld⟩
  · have hbal := h.balance
    have hg : u.granted = t.granted := by rw [hu]; rfl
    have hb : u.givenBack = t.givenBack + 1 := by rw [hu]; rfl
    omega
  · rintro ⟨-, -, hz⟩
    exact absurd hz hret

theorem tickReleases {m : ℕ} (h : TickOk t) (hph : t.phase = .waiting n m)
    (hdone : t.queue = [] ∧ t.running = [] ∧ t.returned = 0) {u : Tick}
    (hu : u = { t.giveBack (n - m) with phase := .idle }) :
    TickOk u ∧ u.unfinished + (n - m) = t.unfinished ∧ u.held + (n - m) = t.held := by
  obtain ⟨hq, hr, hret⟩ := hdone
  have hunf : u.unfinished + (n - m) = t.unfinished := by
    subst hu
    simp only [Tick.unfinished, Tick.giveBack, hph, hq, hr, Phase.pending]
    omega
  have hheld : u.held + (n - m) = t.held := by
    have hkeep : u.returned = t.returned := by rw [hu]; rfl
    unfold Tick.held
    omega
  refine ⟨⟨?_, fun loop' n' hph' => ?_, fun _ => ?_⟩, hunf, hheld⟩
  · have hbal := h.balance
    have hg : u.granted = t.granted := by rw [hu]; rfl
    have hb : u.givenBack = t.givenBack + (n - m) := by rw [hu]; rfl
    omega
  · rw [hu] at hph'
    cases hph'
  · rw [hu]
    exact ⟨hq, hr, hret⟩

end TickOk

/-! ### What a step does -/

namespace Scaler

variable {ι : Type*} [DecidableEq ι]

/-- When `submit` raises, no spawn of the tick is on its way: none was handed over before, and
the job that raised, if it is on the queue, is not one. -/
def SubmitOk (s : Scaler ι) : CapAction ι → Prop
  | .submitRaises i queued =>
      match (s.ticks i).phase with
      | .submitting loop _ => loop.submittedSpawns = 0 ∧
          (queued = true → (loop.nextJob.map fun next => next.1.isSpawn) ≠ some true)
      | _ => True
  | _ => True

instance (s : Scaler ι) (a : CapAction ι) : Decidable (SubmitOk s a) := by
  unfold SubmitOk
  split
  · split <;> infer_instance
  · infer_instance

/-- What a step of lane `i` does to `_cap_lock` and to the counter. -/
inductive LockMove (s t : Scaler ι) (a : CapAction ι) (i : ι) (u : Tick) : Prop
  | kept (hlock : t.capLock = s.capLock) (hres : t.reservedSpawns = s.reservedSpawns)
      (hgr : u.granted = (s.ticks i).granted)
      (hphase : u.phase.isReserving = true → u.phase = (s.ticks i).phase)
  | taken (hfree : s.capLock = none) (hlock : t.capLock = some i)
      (hgr : u.granted = (s.ticks i).granted)
      (hphase : ∃ plan, u.phase = .reserving plan s.maxTotalRunners none)
  | listed (hlock : t.capLock = s.capLock) (hres : t.reservedSpawns = s.reservedSpawns)
      (hgr : u.granted = (s.ticks i).granted)
      (hphase : ∃ plan cap total, a = .listContainers i total ∧
        (s.ticks i).phase = .reserving plan cap none ∧
        u.phase = .reserving plan cap (some total))
  | dropped (hbefore : (s.ticks i).phase.isReserving = true)
      (hafter : u.phase.isReserving = false) (hlock : t.capLock = none)
      (hgr : u.granted = (s.ticks i).granted ∨ a = .grant i)
  | released (hfree : s.capLock = none) (hlock : t.capLock = none)
      (hgr : u.granted = (s.ticks i).granted)
      (hphase : u.phase.isReserving = true → u.phase = (s.ticks i).phase)

/-- A step of lane `i`, which becomes `u`. -/
structure Effect (s t : Scaler ι) (a : CapAction ι) (i : ι) (u : Tick) : Prop where
  ticks : t.ticks = Function.update s.ticks i u
  cap : t.maxTotalRunners = s.maxTotalRunners
  ok : TickOk u
  slots : t.reservedSpawns + (s.ticks i).held = s.reservedSpawns + u.held
  balance : t.live + u.unfinished + (s.ticks i).granted ≤ s.live + (s.ticks i).unfinished + u.granted
  lock : LockMove s t a i u

/-- A step of the environment. -/
structure Quiet (s t : Scaler ι) (a : CapAction ι) : Prop where
  ticks : t.ticks = s.ticks
  cap : t.maxTotalRunners = s.maxTotalRunners ∨ ∃ cap, a = .setCap cap
  reserved : t.reservedSpawns = s.reservedSpawns
  lock : t.capLock = s.capLock
  live : t.live ≤ s.live

/-- A step, with the state its lane was in. -/
inductive CapStep (s : Scaler ι) : CapAction ι → Scaler ι → Prop
  | setCap {cap} : CapStep s (.setCap cap) { s with maxTotalRunners := cap }
  | containerExits : CapStep s .containerExits { s with live := s.live - 1 }
  | beginTick {i plan} (hph : (s.ticks i).phase = .idle) :
      CapStep s (.beginTick i plan) (s.setTick i { s.ticks i with phase := .planned plan })
  | nothingToSpawn {i plan} (hph : (s.ticks i).phase = .planned plan) (hzero : plan.toSpawn = 0) :
      CapStep s (.nothingToSpawn i) (s.setTick i ((s.ticks i).enterLoop plan 0))
  | takeLock {i plan} (hph : (s.ticks i).phase = .planned plan) (hfree : s.capLock = none) :
      CapStep s (.takeLock i)
        { s.setTick i { s.ticks i with phase := .reserving plan s.maxTotalRunners none } with
          capLock := some i }
  | listContainers {i total plan cap} (hph : (s.ticks i).phase = .reserving plan cap none) :
      CapStep s (.listContainers i total)
        (s.setTick i { s.ticks i with phase := .reserving plan cap (some total) })
  | listRaises {i plan cap} (hph : (s.ticks i).phase = .reserving plan cap none) :
      CapStep s (.listRaises i)
        { s.setTick i { s.ticks i with phase := .idle } with capLock := none }
  | grant {i plan cap listed granted} (hph : (s.ticks i).phase = .reserving plan cap listed)
      (hg : grantedSlots plan.toSpawn s.reservedSpawns cap listed = some granted) :
      CapStep s (.grant i)
        { s.setTick i ((s.ticks i).enterLoop plan granted) with
          capLock := none
          reservedSpawns := s.reservedSpawns + granted }
  | submit {i loop rest job n} (hph : (s.ticks i).phase = .submitting loop n)
      (hnext : loop.nextJob = some (job, rest)) :
      CapStep s (.submit i)
        (s.setTick i { s.ticks i with
          phase := .submitting (rest.submitted job) n
          queue := (s.ticks i).queue ++ [job] })
  | submitRaises {i queued loop rest job n} (hph : (s.ticks i).phase = .submitting loop n)
      (hnext : loop.nextJob = some (job, rest)) :
      CapStep s (.submitRaises i queued)
        (s.setTick i { s.ticks i with
          phase := .waiting n 0
          queue := (s.ticks i).queue ++ if queued then [job] else [] })
  | loopEnds {i loop n} (hph : (s.ticks i).phase = .submitting loop n)
      (hnext : loop.nextJob = none) :
      CapStep s (.loopEnds i)
        (s.setTick i { s.ticks i with phase := .waiting n loop.submittedSpawns })
  | takeJob {i job rest} (hq : (s.ticks i).queue = job :: rest) :
      CapStep s (.takeJob i)
        (s.setTick i { s.ticks i with queue := rest, running := (s.ticks i).running ++ [job] })
  | jobEnds {i n outcome job} (hjob : (s.ticks i).running[n]? = some job) :
      CapStep s (.jobEnds i n outcome)
        { s.setTick i ((s.ticks i).jobEnds n job) with
          live := if job.isSpawn && outcome = .started then s.live + 1 else s.live }
  | workerReleases {i t} (hret : (s.ticks i).returned ≠ 0)
      (h : (s.setTick i { (s.ticks i).giveBack 1 with
        returned := (s.ticks i).returned - 1 }).releaseSpawns 1 = some t) :
      CapStep s (.workerReleases i) t
  | tickReleases {i n m t} (hph : (s.ticks i).phase = .waiting n m)
      (hdone : (s.ticks i).queue = [] ∧ (s.ticks i).running = [] ∧ (s.ticks i).returned = 0)
      (h : (s.setTick i { (s.ticks i).giveBack (n - m) with
        phase := .idle }).releaseSpawns (n - m) = some t) :
      CapStep s (.tickReleases i) t

variable {s t : Scaler ι} {a : CapAction ι} {i : ι} {u : Tick}

omit [DecidableEq ι] in
theorem releaseSpawns_ticks {count : ℕ} (h : s.releaseSpawns count = some t) :
    t.ticks = s.ticks := by
  unfold releaseSpawns at h
  split_ifs at h
  · rw [← Option.some.inj h]
  · rw [← Option.some.inj h]

/-- A step inside lane `i` that touches nothing shared. -/
theorem Effect.ofSetTick (hok : TickOk u) (hheld : u.held = (s.ticks i).held)
    (hunf : u.unfinished = (s.ticks i).unfinished) (hgr : u.granted = (s.ticks i).granted)
    (hphase : u.phase.isReserving = true → u.phase = (s.ticks i).phase) :
    Effect s (s.setTick i u) a i u where
  ticks := rfl
  cap := rfl
  ok := hok
  slots := by rw [hheld]; rfl
  balance := by rw [hunf, hgr]; rfl
  lock := .kept rfl rfl hgr hphase

/-- Giving slots back, which waits for `_cap_lock` unless there are none. -/
theorem Effect.ofRelease {count : ℕ} (h : (s.setTick i u).releaseSpawns count = some t)
    (hok : TickOk u) (hheld : u.held + count = (s.ticks i).held)
    (hle : (s.ticks i).held ≤ s.reservedSpawns)
    (hunf : u.unfinished ≤ (s.ticks i).unfinished) (hgr : u.granted = (s.ticks i).granted)
    (hphase : u.phase.isReserving = true → u.phase = (s.ticks i).phase) : Effect s t a i u := by
  unfold releaseSpawns at h
  split_ifs at h with hzero hfree
  · obtain rfl := Option.some.inj h
    refine ⟨rfl, rfl, hok, ?_, ?_, .kept rfl rfl hgr hphase⟩
    · show s.reservedSpawns + _ = _
      omega
    · show s.live + _ + _ ≤ _
      omega
  · obtain rfl := Option.some.inj h
    have hnone : s.capLock = none := by simpa [setTick] using hfree
    refine ⟨rfl, rfl, hok, ?_, ?_, .released hnone hnone hgr hphase⟩
    · show s.reservedSpawns - count + _ = _
      omega
    · show s.live + _ + _ ≤ _
      omega

/-- A lane without workers changes its phase. -/
theorem Effect.ofPhase {p : Phase} (hold : TickOk (s.ticks i))
    (hw : (s.ticks i).phase.hasWorkers = false) (hp : p.hasWorkers = false)
    (hu : u = { s.ticks i with phase := p }) (hticks : t.ticks = Function.update s.ticks i u)
    (hcap : t.maxTotalRunners = s.maxTotalRunners) (hres : t.reservedSpawns = s.reservedSpawns)
    (hlive : t.live = s.live) (hlock : LockMove s t a i u) : Effect s t a i u := by
  have hok : TickOk u := hu ▸ hold.setPhase hw hp
  have hzero := hold.held_eq_zero hw
  have hzero' : u.held = 0 := hok.held_eq_zero (by rw [hu]; exact hp)
  have hgr : u.granted = (s.ticks i).granted := by rw [hu]
  have hle := u.unfinished_le_held
  refine ⟨hticks, hcap, hok, ?_, ?_, hlock⟩
  · rw [hres, hzero, hzero']
  · omega

/-- The slots granted are among those asked for. -/
theorem grantedSlots_le {toSpawn reserved g : ℕ} {cap : ℤ} {listed : Option ℕ}
    (h : grantedSlots toSpawn reserved cap listed = some g) : g ≤ toSpawn := by
  unfold grantedSlots at h
  split at h
  · split_ifs at h
    exact (Option.some.inj h).symm.le
  · rw [← Option.some.inj h]
    exact min_le_left _ _

/-- **What a step can be.** -/
theorem step_cases (h : step s a = some t) : CapStep s a t := by
  cases a with
  | setCap cap =>
    obtain rfl := Option.some.inj h
    exact .setCap
  | containerExits =>
    simp only [step] at h
    split_ifs at h
    obtain rfl := Option.some.inj h
    exact .containerExits
  | beginTick i plan =>
    simp only [step] at h
    split at h
    case h_2 => cases h
    case h_1 hph =>
      obtain rfl := Option.some.inj h
      exact .beginTick hph
  | nothingToSpawn i =>
    simp only [step] at h
    split at h
    case h_2 => cases h
    case h_1 plan hph =>
      split_ifs at h with hzero
      obtain rfl := Option.some.inj h
      exact .nothingToSpawn hph hzero
  | takeLock i =>
    simp only [step] at h
    split at h
    case h_2 => cases h
    case h_1 plan hph =>
      split_ifs at h with hbusy
      obtain rfl := Option.some.inj h
      have hfree : s.capLock = none := by
        simp only [Bool.or_eq_true, not_or] at hbusy
        simpa using hbusy.2
      exact .takeLock hph hfree
  | listContainers i total =>
    simp only [step] at h
    split at h
    case h_2 => cases h
    case h_1 plan cap hph =>
      split_ifs at h
      obtain rfl := Option.some.inj h
      exact .listContainers hph
  | listRaises i =>
    simp only [step] at h
    split at h
    case h_2 => cases h
    case h_1 plan cap hph =>
      obtain rfl := Option.some.inj h
      exact .listRaises hph
  | grant i =>
    simp only [step] at h
    split at h
    case h_2 => cases h
    case h_1 plan cap listed hph =>
      obtain ⟨g, hg, rfl⟩ := Option.map_eq_some_iff.1 h
      exact .grant hph hg
  | submit i =>
    simp only [step] at h
    split at h
    case h_2 => cases h
    case h_1 loop n hph =>
      obtain ⟨⟨job, rest⟩, hnext, rfl⟩ := Option.map_eq_some_iff.1 h
      exact .submit hph hnext
  | submitRaises i queued =>
    simp only [step] at h
    split at h
    case h_2 => cases h
    case h_1 loop n hph =>
      obtain ⟨⟨job, rest⟩, hnext, rfl⟩ := Option.map_eq_some_iff.1 h
      exact .submitRaises hph hnext
  | loopEnds i =>
    simp only [step] at h
    split at h
    case h_2 => cases h
    case h_1 loop n hph =>
      split_ifs at h with hnext
      obtain rfl := Option.some.inj h
      exact .loopEnds hph (by simpa using hnext)
  | takeJob i =>
    simp only [step] at h
    split at h
    case h_1 => cases h
    case h_2 job rest hq =>
      split_ifs at h
      obtain rfl := Option.some.inj h
      exact .takeJob hq
  | jobEnds i n outcome =>
    simp only [step] at h
    obtain ⟨job, hjob, rfl⟩ := Option.map_eq_some_iff.1 h
    exact .jobEnds hjob
  | workerReleases i =>
    simp only [step] at h
    split_ifs at h with hret
    exact .workerReleases hret h
  | tickReleases i =>
    simp only [step] at h
    split at h
    case h_2 => cases h
    case h_1 n m hph =>
      split_ifs at h with hdone
      exact .tickReleases hph hdone h

/-- **What one step does**, for every action. -/
theorem step_effect (hticks : ∀ j, TickOk (s.ticks j))
    (hheld : ∀ j, (s.ticks j).held ≤ s.reservedSpawns) (hsub : SubmitOk s a)
    (h : step s a = some t) : Quiet s t a ∨ ∃ i u, Effect s t a i u := by
  cases step_cases h with
  | @setCap cap => exact Or.inl ⟨rfl, Or.inr ⟨cap, rfl⟩, rfl, rfl, le_rfl⟩
  | containerExits => exact Or.inl ⟨rfl, Or.inl rfl, rfl, rfl, Nat.sub_le _ _⟩
  | @beginTick i plan hph =>
    have hw : (s.ticks i).phase.hasWorkers = false := by rw [hph]; rfl
    exact Or.inr ⟨i, _, .ofPhase (hticks i) hw rfl rfl rfl rfl rfl rfl
      (.kept rfl rfl rfl fun hf => by cases hf)⟩
  | @nothingToSpawn i plan hph =>
    have hw : (s.ticks i).phase.hasWorkers = false := by rw [hph]; rfl
    obtain ⟨hunf, hheld'⟩ := Tick.enterLoop_held (hticks i) hw (Nat.zero_le plan.toSpawn)
    have hz := (hticks i).held_eq_zero hw
    have hle := (s.ticks i).unfinished_le_held
    refine Or.inr ⟨i, _, Effect.ofSetTick ((hticks i).enterLoop hw (Nat.zero_le _)) ?_ ?_ rfl
      fun hf => by cases hf⟩
    · omega
    · omega
  | @takeLock i plan hph hfree =>
    have hw : (s.ticks i).phase.hasWorkers = false := by rw [hph]; rfl
    exact Or.inr ⟨i, _, .ofPhase (hticks i) hw rfl rfl rfl rfl rfl rfl
      (.taken hfree rfl rfl ⟨plan, rfl⟩)⟩
  | @listContainers i total plan cap hph =>
    have hw : (s.ticks i).phase.hasWorkers = false := by rw [hph]; rfl
    exact Or.inr ⟨i, _, .ofPhase (hticks i) hw rfl rfl rfl rfl rfl rfl
      (.listed rfl rfl rfl ⟨plan, cap, total, rfl, hph, rfl⟩)⟩
  | @listRaises i plan cap hph =>
    have hw : (s.ticks i).phase.hasWorkers = false := by rw [hph]; rfl
    exact Or.inr ⟨i, _, .ofPhase (hticks i) hw rfl rfl rfl rfl rfl rfl
      (.dropped (by rw [hph]; rfl) rfl rfl (Or.inl rfl))⟩
  | @grant i plan cap listed g hph hg =>
    have hw : (s.ticks i).phase.hasWorkers = false := by rw [hph]; rfl
    obtain ⟨hunf, hheld'⟩ := Tick.enterLoop_held (hticks i) hw (grantedSlots_le hg)
    have hz := (hticks i).held_eq_zero hw
    refine Or.inr ⟨i, _, rfl, rfl, (hticks i).enterLoop hw (grantedSlots_le hg), ?_, ?_,
      .dropped (by rw [hph]; rfl) rfl rfl (Or.inr rfl)⟩
    · show s.reservedSpawns + g + _ = _
      omega
    · show s.live + _ + _ ≤ s.live + _ + ((s.ticks i).granted + g)
      omega
  | @submit i loop rest job n hph hnext =>
    obtain ⟨hok, hunf, hheld'⟩ := (hticks i).submit hph hnext rfl
    exact Or.inr ⟨i, _, Effect.ofSetTick hok hheld' hunf rfl fun hf => by cases hf⟩
  | @submitRaises i queued loop rest job n hph hnext =>
    simp only [SubmitOk, hph] at hsub
    obtain ⟨hnone, hjob⟩ := hsub
    have hjobs : spawnsIn (if queued then [job] else []) = 0 := by
      split_ifs with hq
      · have := hjob hq
        rw [hnext] at this
        rw [spawnsIn_singleton]
        unfold RunnerJob.slots
        rw [if_neg (by simpa using this)]
      · rfl
    obtain ⟨hok, hunf, hheld'⟩ := (hticks i).submitRaises hph hnone hjobs rfl
    exact Or.inr ⟨i, _, Effect.ofSetTick hok hheld' hunf rfl fun hf => by cases hf⟩
  | @loopEnds i loop n hph hnext =>
    obtain ⟨hok, hunf, hheld'⟩ := (hticks i).loopEnds hph hnext rfl
    exact Or.inr ⟨i, _, Effect.ofSetTick hok hheld' hunf rfl fun hf => by cases hf⟩
  | @takeJob i job rest hq =>
    obtain ⟨hok, hunf, hheld'⟩ := (hticks i).takeJob hq rfl
    exact Or.inr ⟨i, _, Effect.ofSetTick hok hheld' hunf rfl fun _ => rfl⟩
  | @jobEnds i n outcome job hjob =>
    obtain ⟨hok, hunf, hheld'⟩ := (hticks i).jobEnds hjob
    refine Or.inr ⟨i, _, rfl, rfl, hok, by rw [hheld']; rfl, ?_, .kept rfl rfl rfl fun _ => rfl⟩
    -- a container appears only when a spawn ends
    have hlive : (if job.isSpawn && outcome = .started then s.live + 1 else s.live) ≤
        s.live + job.slots := by
      unfold RunnerJob.slots
      cases job.isSpawn <;> simp only [Bool.false_and, Bool.true_and] <;> split <;> simp
    have hgr : ((s.ticks i).jobEnds n job).granted = (s.ticks i).granted := rfl
    simp only
    omega
  | @workerReleases i _ hret h =>
    obtain ⟨hok, hunf, hheld'⟩ := (hticks i).workerReleases hret rfl
    exact Or.inr ⟨i, _, Effect.ofRelease h hok hheld' (hheld i) hunf.le rfl fun _ => rfl⟩
  | @tickReleases i n m _ hph hdone h =>
    obtain ⟨hok, hunf, hheld'⟩ := (hticks i).tickReleases hph hdone rfl
    exact Or.inr ⟨i, _, Effect.ofRelease h hok hheld' (hheld i) (Nat.le.intro hunf) rfl
      fun hf => by cases hf⟩

/-! ### The ledger -/

/-- Mutual exclusion after a step of lane `i`. -/
theorem LockMove.excl (hlock : ∀ j, (s.ticks j).phase.isReserving = true → s.capLock = some j)
    (hmove : LockMove s t a i u) {j : ι}
    (hj : (Function.update s.ticks i u j).phase.isReserving = true) : t.capLock = some j := by
  by_cases hji : j = i
  · subst hji
    rw [Function.update_self] at hj
    cases hmove with
    | kept hkeep _ _ hphase => rw [hkeep]; exact hlock j (hphase hj ▸ hj)
    | taken _ htake _ _ => exact htake
    | listed hkeep _ _ hphase =>
      obtain ⟨plan, cap, n, -, hbefore, -⟩ := hphase
      rw [hkeep]
      exact hlock j (by rw [hbefore]; rfl)
    | dropped _ hafter _ _ => rw [hafter] at hj; cases hj
    | released hfree _ _ hphase => rw [hlock j (hphase hj ▸ hj)] at hfree; cases hfree
  · rw [Function.update_of_ne hji] at hj
    have hold := hlock j hj
    cases hmove with
    | kept hkeep _ _ _ => rw [hkeep, hold]
    | taken hfree _ _ _ => rw [hold] at hfree; cases hfree
    | listed hkeep _ _ _ => rw [hkeep, hold]
    | dropped hbefore _ _ _ =>
      rw [hlock i hbefore] at hold
      exact absurd (Option.some.inj hold).symm hji
    | released hfree _ _ _ => rw [hold] at hfree; cases hfree

section Ledger

variable [Fintype ι]

/-- What all lanes hold is what `_reserved_spawns` says, and only the holder of `_cap_lock` is
between counting and granting. -/
structure Ledger (s : Scaler ι) : Prop where
  ticks : ∀ i, TickOk (s.ticks i)
  reserved : s.reservedSpawns = total Tick.held s.ticks
  lock : ∀ i, (s.ticks i).phase.isReserving = true → s.capLock = some i

omit [DecidableEq ι] in
theorem Ledger.held_le (h : Ledger s) (i : ι) : (s.ticks i).held ≤ s.reservedSpawns := by
  rw [h.reserved]
  exact le_total _ _ i

omit [DecidableEq ι] in
theorem ledger_init (cap : ℤ) (live : ℕ) : Ledger (init cap live : Scaler ι) where
  ticks := fun _ =>
    { balance := rfl
      counted := fun _ _ hph => by cases hph
      quiet := fun _ => ⟨rfl, rfl, rfl⟩ }
  reserved := (total_eq_zero fun _ => rfl).symm
  lock := fun _ hf => by cases hf

theorem Ledger.step (h : Ledger s) (hsub : SubmitOk s a) (hstep : s.step a = some t) :
    Ledger t := by
  rcases step_effect h.ticks h.held_le hsub hstep with hq | ⟨i, u, he⟩
  · refine ⟨?_, ?_, ?_⟩
    · rw [hq.ticks]; exact h.ticks
    · rw [hq.reserved, hq.ticks]; exact h.reserved
    · rw [hq.ticks, hq.lock]; exact h.lock
  · refine ⟨fun j => ?_, ?_, fun j hj => ?_⟩
    · rw [he.ticks]
      by_cases hji : j = i
      · rw [hji, Function.update_self]; exact he.ok
      · rw [Function.update_of_ne hji]; exact h.ticks j
    · have hbal := total_update_add Tick.held s.ticks i u
      have hslots := he.slots
      have hres := h.reserved
      rw [he.ticks]
      omega
    · rw [he.ticks] at hj
      exact he.lock.excl h.lock hj

/-- The ledger holds along every run in which no spawn is forgotten. -/
theorem ledger_run {l : List (CapAction ι)} (h : Ledger s) (hok : Along Scaler.step SubmitOk s l)
    (hrun : run Scaler.step s l = some t) : Ledger t :=
  run_invariant (fun _ _ _ hs ha hst => hs.step ha hst) h hok hrun

/-- The containers that exist and the granted slots whose spawn has not finished. -/
def load (s : Scaler ι) : ℕ := s.live + total Tick.unfinished s.ticks

omit [DecidableEq ι] in
theorem Ledger.unfinished_le (h : Ledger s) : total Tick.unfinished s.ticks ≤ s.reservedSpawns := by
  rw [h.reserved]
  exact total_le_total fun i => (s.ticks i).unfinished_le_held

end Ledger

end Scaler

end RunnerSwarm
