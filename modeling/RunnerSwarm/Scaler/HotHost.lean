import RunnerSwarm.Federation.Agreement
import RunnerSwarm.GitHub.Scan
import RunnerSwarm.Scaler.CapLedger
import RunnerSwarm.Scaler.Inspection

/-!
# Ticks on a hot host

A host at or above `max_temp_c` starts no new runners. `TickInput.effects` is a whole `tick` with
all that it reads, the federation at each of its reads included, and `FederatedScaler` is the
scaler under its daemon, which publishes snapshots and fetches peers while ticks run.

`_tick_single` asks `is_hot` after its inspection, whatever the demand is made of. `_tick_personal`
never does.

* `started_eq_zero_iff`: under a hot snapshot a tick starts nothing exactly when it is not the tick
  of a personal pool, or has nothing to start (`NothingToStart`);
* `hot_run`: a run in which personal ticks have nothing to start under a hot snapshot, and a hot
  snapshot is published when no tick has a runner left to start, starts none while it is hot;
* `hot_host` is both, and `not_hot_host` a personal pool with a queued job.
-/

namespace RunnerSwarm

/-! ### What a tick asks its federation -/

namespace Federation

variable (f : Federation)

/-- `covers`. -/
def covers (pool : String) (now : ℚ) : Bool :=
  f.config.enabled &&
    match f.own with
    | none => false
    | some own =>
        (own.pools.get pool).isSome && (f.freshPeers now).any fun s => (s.pools.get pool).isSome

/-- What `queue_input` says this host takes, for the ages of a scan: the age of a job without a
readable date is infinite. -/
def queueShare (ρ : Rounding) (pool : String) (ages : List PyFloat) (now : ℚ) : ℕ :=
  let shares := split ρ ages.length (f.slots pool now)
  let rescue := ages.countP fun age => (PyFloat.finite f.config.rescueAfterSeconds).le age
  let mine := shares ((f.own.map (·.instanceName)).getD "")
  if f.isHot then 0 else max mine rescue

/-- On finite ages it is `queueInput`. -/
theorem queueShare_finite (ρ : Rounding) (pool : String) (ages : List ℚ) (now : ℚ) :
    f.queueShare ρ pool (ages.map .finite) now = (f.queueInput ρ pool ages now).1 := by
  have hrescue : (ages.map PyFloat.finite).countP
      (fun age => (PyFloat.finite f.config.rescueAfterSeconds).le age) =
      ages.countP fun age => (f.config.rescueAfterSeconds : ℚ) ≤ age := by
    rw [List.countP_map]
    rfl
  unfold queueShare queueInput
  rw [hrescue, List.length_map]

end Federation

/-- The federation at the reads of one tick; the daemon may refresh it in between. -/
structure FederationReads where
  /-- At `covers`, and the clock. -/
  covers : Federation
  coversAt : ℚ
  /-- At `queue_input`, and the clock. -/
  split : Federation
  splitAt : ℚ
  splitRaises : Bool
  /-- At `is_hot`. -/
  check : Federation

/-! ### A whole tick -/

/-- The repositories of a personal account; they are collected in a set. -/
structure RepositoryNames where
  names : List String
  distinct : names.Nodup

/-- What a tick of a pool reads. -/
structure TickInput where
  pool : PoolConfig
  state : PoolState
  now : ℚ
  nextPollAt : ℚ
  /-- `None` when there is no `federation:` block. -/
  federation : Option FederationReads
  /-- The inspection of the pool, and its queue scan. -/
  obs : Observations
  scan : Except PyError QueueScan
  /-- The repositories of a personal pool, and their inspections. -/
  repositories : Except PyError RepositoryNames
  repoObs : String → Observations
  cap : CapView

namespace TickInput

variable (ρ : Rounding) (t : TickInput)

/-- `queued` of the inspection: `_federated_queue`, or the count of the scan. -/
def queued (scan : QueueScan) : ℕ :=
  match t.federation with
  | none => scan.queued
  | some reads =>
      if reads.covers.covers t.pool.name reads.coversAt then
        -- after an error the scan is counted as when alone
        if reads.splitRaises then
          scan.ages.countP fun age =>
            t.pool.queuedMinAge = 0 || (PyFloat.finite t.pool.queuedMinAge).le age
        else reads.split.queueShare ρ t.pool.name scan.ages reads.splitAt
      else scan.queued

/-- What `is_hot` tells a tick that asks it. -/
def hot : Bool := t.federation.any fun reads => reads.check.isHot

/-- The answers to the calls of `_inspect_pool`. -/
def observed : Observations := { t.obs with queued := t.scan.map (t.queued ρ) }

/-- The inspections of a personal tick. -/
def repositoryRuns (repos : RepositoryNames) : List InspectionRun :=
  repos.names.map fun repo => inspectPool (t.pool.forRepository repo) (t.repoObs repo)

/-- `tick`. -/
def effects : TickEffects :=
  if t.state.paused then {}
  else if t.now < t.nextPollAt then {}
  else if t.pool.isPersonalLevel then
    match t.repositories with
    | .error _ => {}
    | .ok repos =>
        if repos.names = [] then {}
        else tickPersonal t.pool repos.names t.repoObs t.state.draining t.cap
  else tickSingle t.pool (t.observed ρ) (t.state.draining || t.hot) t.cap

/-- The tick of a personal pool has nothing to start: it does not go so far, no repository needs a
runner, or there is no room for one. -/
def NothingToStart : Prop :=
  t.state.paused = true ∨ t.now < t.nextPollAt ∨ t.state.draining = true ∨
    ∀ repos, t.repositories = .ok repos →
      ∀ is, collectInspections (t.repositoryRuns repos) = some is →
        (∀ i ∈ is, i.busy + i.queued ≤ i.running) ∨
        t.pool.maxRunners ≤ (is.map (·.running)).sum ∨
        (0 < t.cap.cap ∧ t.cap.cap ≤ (runningContainers t.cap.listed).length + t.cap.reserved)

end TickInput

/-! ### What the ticks ask for -/

theorem CapView.reserve_zero (cap : CapView) : cap.reserve 0 = 0 := rfl

/-- Nothing is granted when nothing is asked for or the cap leaves no room. -/
theorem CapView.reserve_eq_zero_iff {cap : CapView} {n : ℕ} : cap.reserve n = 0 ↔
    n = 0 ∨ (0 < cap.cap ∧ cap.cap ≤ (runningContainers cap.listed).length + cap.reserved) := by
  unfold CapView.reserve CapView.lists headroom
  split_ifs with h
  · simp only [Bool.and_eq_true, decide_eq_true_eq] at h
    omega
  · simp only [Bool.and_eq_true, decide_eq_true_eq] at h
    omega

theorem CapView.reserve_le (cap : CapView) (n : ℕ) : cap.reserve n ≤ n := by
  unfold CapView.reserve
  split_ifs
  · exact min_le_left _ _
  · exact le_rfl

/-- A personal pool asks for nothing when no repository needs a runner or its limit is reached. -/
theorem personalRequest_eq_zero_iff {pool : PoolConfig} {is : List PoolInspection} :
    personalRequest pool is = 0 ↔
      (∀ i ∈ is, i.busy + i.queued ≤ i.running) ∨ pool.maxRunners ≤ (is.map (·.running)).sum := by
  have hneeded : (is.map (·.needed)).sum = 0 ↔ ∀ i ∈ is, i.busy + i.queued ≤ i.running := by
    rw [List.sum_eq_zero_iff]
    simp only [List.mem_map, forall_exists_index, and_imp, forall_apply_eq_imp_iff₂,
      PoolInspection.needed, Nat.sub_eq_zero_iff_le]
  have hroom : (pool.maxRunners - (is.map (·.running)).sum).toNat = 0 ↔
      pool.maxRunners ≤ (is.map (·.running)).sum := by
    rw [Int.toNat_eq_zero, sub_nonpos]
  unfold personalRequest
  rw [Nat.min_eq_zero_iff, hroom, hneeded]
  exact or_comm

/-- An inspection is of the pool it was made for. -/
theorem inspectPool_pool {pool : PoolConfig} {obs : Observations} {i : PoolInspection}
    (h : (inspectPool pool obs).outcome = .ok i) : i.pool = pool := by
  obtain ⟨runners, queued, -, -, rfl⟩ := inspectPool_ok h
  rfl

/-- The inspections of distinct repositories are of distinct repositories. -/
theorem collectInspections_distinct {pool : PoolConfig} {repos : List String}
    (hd : repos.Nodup) {obs : String → Observations} {is : List PoolInspection}
    (h : collectInspections
      (repos.map fun repo => inspectPool (pool.forRepository repo) (obs repo)) = some is) :
    (is.map fun i => i.pool.repo).Nodup := by
  obtain ⟨collected, hperm, hall⟩ := collectInspections_some h
  rw [(hperm.map _).nodup_iff]
  -- in the order of the repositories each inspection has the name of its own
  have hnames : collected.map (fun i => i.pool.repo) = repos := by
    clear h hperm hd
    rw [List.forall₂_map_left_iff] at hall
    induction hall with
    | nil => rfl
    | cons hok _ ih =>
      rw [List.map_cons, ih, inspectPool_pool hok]
      rfl
  rw [hnames]
  exact hd

section Started

variable {pool : PoolConfig} {obs : Observations} {cap : CapView}

theorem tickSingle_started_error {e : PyError} {stopped : Bool}
    (h : (inspectPool pool obs).outcome = .error e) :
    (tickSingle pool obs stopped cap).started = 0 := by
  unfold tickSingle
  dsimp only
  rw [h]
  rfl

/-- The tick of a pool of its own starts what its plan is granted. -/
theorem tickSingle_started {i : PoolInspection} {stopped : Bool}
    (h : (inspectPool pool obs).outcome = .ok i) :
    (tickSingle pool obs stopped cap).started =
      cap.reserve (TickPlan.single pool i stopped).toSpawn := by
  unfold tickSingle
  dsimp only
  rw [h]
  exact add_zero _

/-- When it is stopped it starts nothing. -/
theorem tickSingle_stopped : (tickSingle pool obs true cap).started = 0 := by
  cases h : (inspectPool pool obs).outcome with
  | error e => exact tickSingle_started_error h
  | ok i =>
    rw [tickSingle_started h]
    exact cap.reserve_zero

variable {repos : List String} {repoObs : String → Observations} {draining : Bool}

theorem tickPersonal_started_none
    (h : collectInspections
      (repos.map fun repo => inspectPool (pool.forRepository repo) (repoObs repo)) = none) :
    (tickPersonal pool repos repoObs draining cap).started = 0 := by
  unfold tickPersonal
  dsimp only
  rw [h]
  rfl

/-- A personal tick starts what its plan is granted. -/
theorem tickPersonal_started (hd : repos.Nodup) {is : List PoolInspection}
    (h : collectInspections
      (repos.map fun repo => inspectPool (pool.forRepository repo) (repoObs repo)) = some is) :
    (tickPersonal pool repos repoObs draining cap).started =
      cap.reserve
        (TickPlan.personal pool ⟨is, collectInspections_distinct hd h⟩ draining).toSpawn := by
  have hsum := TickPlan.spawnAllocations_sum
    (.personal pool ⟨is, collectInspections_distinct hd h⟩ draining) (cap.reserve_le _)
  unfold tickPersonal
  dsimp only
  rw [h]
  exact hsum

end Started

/-! ### One tick -/

namespace TickInput

variable {t : TickInput}

/-- When the tick of a personal pool starts nothing, whatever the temperature is. -/
theorem tickPersonal_started_eq_zero_iff (repos : RepositoryNames) :
    (tickPersonal t.pool repos.names t.repoObs t.state.draining t.cap).started = 0 ↔
      t.state.draining = true ∨ ∀ is, collectInspections (t.repositoryRuns repos) = some is →
        (∀ i ∈ is, i.busy + i.queued ≤ i.running) ∨
        t.pool.maxRunners ≤ (is.map (·.running)).sum ∨
        (0 < t.cap.cap ∧
          t.cap.cap ≤ (runningContainers t.cap.listed).length + t.cap.reserved) := by
  cases his : collectInspections (t.repositoryRuns repos) with
  | none =>
    refine iff_of_true (tickPersonal_started_none his) (Or.inr fun is h => ?_)
    cases h
  | some is =>
    rw [tickPersonal_started repos.distinct his, CapView.reserve_eq_zero_iff, TickPlan.toSpawn]
    by_cases hdrain : t.state.draining = true
    · rw [if_pos hdrain]
      exact iff_of_true (Or.inl rfl) (Or.inl hdrain)
    · rw [if_neg hdrain, personalRequest_eq_zero_iff, or_assoc]
      constructor
      · intro h
        refine Or.inr fun is' his' => ?_
        obtain rfl := Option.some.inj his'
        exact h
      · intro h
        exact h.resolve_left hdrain is rfl

/-- **What a tick starts under a hot snapshot.** -/
theorem started_eq_zero_iff (ρ : Rounding) (hhot : t.hot = true) :
    (t.effects ρ).started = 0 ↔ (t.pool.isPersonalLevel = true → t.NothingToStart) := by
  unfold effects NothingToStart
  by_cases hpaused : t.state.paused = true
  · rw [if_pos hpaused]
    exact iff_of_true rfl fun _ => Or.inl hpaused
  rw [if_neg hpaused]
  by_cases hpoll : t.now < t.nextPollAt
  · rw [if_pos hpoll]
    exact iff_of_true rfl fun _ => Or.inr (Or.inl hpoll)
  rw [if_neg hpoll]
  by_cases hpersonal : t.pool.isPersonalLevel = true
  · -- the temperature plays no part here
    rw [if_pos hpersonal]
    cases hrepos : t.repositories with
    | error e =>
      refine iff_of_true rfl fun _ => Or.inr (Or.inr (Or.inr fun repos h => ?_))
      cases h
    | ok repos =>
      dsimp only
      by_cases hnil : repos.names = []
      · rw [if_pos hnil]
        refine iff_of_true rfl fun _ => Or.inr (Or.inr (Or.inr fun repos' h is his => ?_))
        obtain rfl := Except.ok.inj h
        rw [repositoryRuns, hnil] at his
        obtain rfl : ([] : List PoolInspection) = is := Option.some.inj his
        exact Or.inl fun i hi => (List.not_mem_nil hi).elim
      rw [if_neg hnil, tickPersonal_started_eq_zero_iff]
      constructor
      · intro h _
        refine Or.inr (Or.inr (h.imp_right fun hnone repos' hrepos' => ?_))
        obtain rfl := Except.ok.inj hrepos'
        exact hnone
      · intro h
        rcases h hpersonal with h | h | h | h
        · exact absurd h hpaused
        · exact absurd h hpoll
        · exact Or.inl h
        · exact Or.inr (h repos rfl)
  · -- whatever the inspection counts, the tick is stopped
    rw [if_neg hpersonal, hhot, Bool.or_true, tickSingle_stopped]
    exact iff_of_true rfl fun h => absurd h hpersonal

end TickInput

/-! ### Ticks while the daemon goes on -/

/-- A tick whose inspections are done. -/
inductive InspectedTick
  | single (pool : PoolConfig) (inspection : PoolInspection) (draining : Bool)
  | personal (pool : PoolConfig) (inspections : RepoInspections) (draining : Bool)

/-- What the tick goes on with: `_tick_single` asks `is_hot`, `_tick_personal` does not. -/
def InspectedTick.plan (hot : Bool) : InspectedTick → TickPlan
  | .single pool inspection draining => .single pool inspection (draining || hot)
  | .personal pool inspections draining => .personal pool inspections draining

/-- The scaler with the federation its daemon keeps. -/
structure FederatedScaler (ι : Type*) where
  federation : Federation
  scaler : Scaler ι

inductive DaemonAction (ι : Type*)
  /-- `refresh` stores the own snapshot. -/
  | publish (own : Snapshot)
  /-- `refresh` has asked a peer. -/
  | fetchPeer (peer : String) (fetched : Except PyError Json) (clock : ℚ)
  /-- A tick has done its inspections. -/
  | inspected (i : ι) (tick : InspectedTick)
  /-- Any other step of a tick or of the host. -/
  | scaler (a : CapAction ι)

namespace FederatedScaler

variable {ι : Type*} [DecidableEq ι]

def step (s : FederatedScaler ι) : DaemonAction ι → Option (FederatedScaler ι)
  | .publish own => some { s with federation := { s.federation with own := some own } }
  | .fetchPeer peer fetched clock =>
      some { s with
        federation := Federation.fetchPeer (fun _ => fetched) (fun _ => clock) s.federation peer }
  | .inspected i tick =>
      -- `is_hot` is asked now, and not when the runners are started
      (s.scaler.step (.beginTick i (tick.plan s.federation.isHot))).map fun scaler =>
        { s with scaler := scaler }
  -- a tick begins with its inspections
  | .scaler (.beginTick _ _) => none
  | .scaler a => (s.scaler.step a).map fun scaler => { s with scaler := scaler }

/-- A daemon before its first tick. -/
def init (config : FederationConfig) (cap : ℤ) (live : ℕ) : FederatedScaler ι where
  federation := { config := config }
  scaler := Scaler.init cap live

/-- These actions make up a `refresh`. -/
theorem run_refresh (s : FederatedScaler ι) (own : Snapshot)
    (fetched : String → Except PyError Json) (clock : String → ℚ) :
    run step s (.publish own :: s.federation.config.peers.map fun peer =>
      .fetchPeer peer (fetched peer) (clock peer)) =
      some { s with federation := s.federation.refresh own fetched clock } := by
  have hpeers : ∀ (peers : List String) (s : FederatedScaler ι),
      run step s (peers.map fun peer => .fetchPeer peer (fetched peer) (clock peer)) =
        some { s with
          federation := peers.foldl (Federation.fetchPeer fetched clock) s.federation } := by
    intro peers
    induction peers with
    | nil => exact fun s => rfl
    | cons peer peers ih => exact fun s => ih _
  exact hpeers _ _

end FederatedScaler

/-! ### The runners a lane may still start -/

def Phase.toStart : Phase → ℕ
  | .planned plan => plan.toSpawn
  | .reserving plan _ _ => plan.toSpawn
  | .submitting loop _ => loop.spawnJobs.length
  | _ => 0

/-- The spawns a lane has asked for whose `docker run` has not begun. -/
def Tick.toStart (t : Tick) : ℕ := t.phase.toStart + spawnsIn t.queue

/-- A change of the phase alone. -/
theorem Tick.setPhase_toStart {t : Tick} {p : Phase} {n : ℕ}
    (h : p.toStart ≤ t.phase.toStart + n) :
    ({ t with phase := p } : Tick).toStart ≤ t.toStart + n := by
  show p.toStart + spawnsIn t.queue ≤ t.phase.toStart + spawnsIn t.queue + n
  omega

/-- Entering the submit loop adds none to what the plan asked for. -/
theorem Tick.enterLoop_toStart (t : Tick) {plan : TickPlan} {granted : ℕ}
    (hg : granted ≤ plan.toSpawn) (hph : plan.toSpawn ≤ t.phase.toStart) :
    (t.enterLoop plan granted).toStart ≤ t.toStart := by
  have hloop : (t.enterLoop plan granted).phase.toStart = granted := by
    show (Submitting.start _ _).spawnJobs.length = granted
    rw [Submitting.start_spawnJobs_length, plan.spawnAllocations_sum hg]
  have hqueue : (t.enterLoop plan granted).queue = t.queue := rfl
  unfold Tick.toStart
  rw [hloop, hqueue]
  omega

namespace Scaler

variable {ι : Type*} [DecidableEq ι] {s t : Scaler ι} {a : CapAction ι} {i : ι}

/-- What the step of a lane asks for. -/
def asked : CapAction ι → ℕ
  | .beginTick _ plan => plan.toSpawn
  | _ => 0

theorem setTick_toStart {u : Tick} {n : ℕ} (hu : u.toStart ≤ (s.ticks i).toStart + n) (j : ι) :
    ((s.setTick i u).ticks j).toStart ≤ (s.ticks j).toStart + n :=
  (Function.forall_update_iff s.ticks fun j u => u.toStart ≤ (s.ticks j).toStart + n).2
    ⟨hu, fun _ _ => Nat.le_add_right _ _⟩ j

/-- **A lane has nothing to start but what its ticks ask for.** -/
theorem toStart_step (h : s.step a = some t) (j : ι) :
    (t.ticks j).toStart ≤ (s.ticks j).toStart + asked a := by
  cases step_cases h with
  | setCap => exact le_rfl
  | containerExits => exact le_rfl
  | beginTick hph => exact setTick_toStart (Tick.setPhase_toStart (Nat.le_add_left _ _)) j
  | @nothingToSpawn i plan hph hzero =>
    exact setTick_toStart ((s.ticks i).enterLoop_toStart (Nat.zero_le _) (by rw [hph]; rfl)) j
  | takeLock hph _ =>
    exact setTick_toStart (n := 0) (Tick.setPhase_toStart (by rw [hph]; rfl)) j
  | listContainers hph => exact setTick_toStart (Tick.setPhase_toStart (by rw [hph]; rfl)) j
  | listRaises => exact setTick_toStart (n := 0) (Tick.setPhase_toStart (Nat.zero_le _)) j
  | @grant i plan cap listed g hph hg =>
    exact setTick_toStart (n := 0)
      ((s.ticks i).enterLoop_toStart (grantedSlots_le hg) (by rw [hph]; rfl)) j
  | @submit i loop rest job n hph hnext =>
    have hspec := (Submitting.nextJob_spec hnext).1
    refine setTick_toStart ?_ j
    simp only [Tick.toStart, hph, Phase.toStart, Submitting.submitted_spawnJobs,
      spawnsIn_append, spawnsIn_singleton]
    omega
  | @submitRaises i queued loop rest job n hph hnext =>
    -- the jobs not taken yet are given up, the one that raised may be on the queue
    have hspec := (Submitting.nextJob_spec hnext).1
    have hjob : spawnsIn (if queued then [job] else []) ≤ job.slots := by
      split_ifs
      · exact (spawnsIn_singleton job).le
      · exact Nat.zero_le _
    refine setTick_toStart ?_ j
    simp only [Tick.toStart, hph, Phase.toStart, spawnsIn_append]
    omega
  | loopEnds => exact setTick_toStart (Tick.setPhase_toStart (Nat.zero_le _)) j
  | @takeJob i job rest hq =>
    refine setTick_toStart ?_ j
    simp only [Tick.toStart, hq, spawnsIn_cons]
    omega
  | jobEnds =>
    refine setTick_toStart (n := 0) ?_ j
    exact le_rfl
  | workerReleases _ h =>
    rw [releaseSpawns_ticks h]
    exact setTick_toStart le_rfl j
  | tickReleases _ _ h =>
    rw [releaseSpawns_ticks h]
    refine setTick_toStart ?_ j
    simp only [Tick.toStart, Tick.giveBack, Phase.toStart]
    omega

theorem setTick_running {u : Tick}
    (hu : spawnsIn u.running ≤ spawnsIn (s.ticks i).running + (s.ticks i).toStart) (j : ι) :
    spawnsIn ((s.setTick i u).ticks j).running ≤
      spawnsIn (s.ticks j).running + (s.ticks j).toStart :=
  (Function.forall_update_iff s.ticks fun j u =>
    spawnsIn u.running ≤ spawnsIn (s.ticks j).running + (s.ticks j).toStart).2
      ⟨hu, fun _ _ => Nat.le_add_right _ _⟩ j

/-- **A `docker run` begins** only in a lane that has a runner left to start. -/
theorem running_step (h : s.step a = some t) (j : ι) :
    spawnsIn (t.ticks j).running ≤ spawnsIn (s.ticks j).running + (s.ticks j).toStart := by
  cases step_cases h with
  | setCap | containerExits => exact Nat.le_add_right _ _
  | beginTick | nothingToSpawn | takeLock | listContainers | listRaises | grant | submit
  | submitRaises | loopEnds =>
    refine setTick_running ?_ j
    exact Nat.le_add_right _ _
  | @takeJob i job rest hq =>
    apply setTick_running
    simp only [Tick.toStart, hq, spawnsIn_append, spawnsIn_cons, spawnsIn_nil]
    omega
  | @jobEnds i n outcome job hjob =>
    have herase := spawnsIn_eraseIdx hjob
    apply setTick_running (i := i)
    show spawnsIn ((s.ticks i).running.eraseIdx n) ≤ _
    omega
  | workerReleases _ h | tickReleases _ _ h =>
    rw [releaseSpawns_ticks h]
    refine setTick_running ?_ j
    exact Nat.le_add_right _ _

end Scaler

/-! ### Runs -/

/-- A tick whose inspections are done has nothing to start under a hot snapshot. -/
def InspectedTick.NothingToStart : InspectedTick → Prop
  | .single _ _ _ => True
  | .personal pool inspections draining =>
      draining = true ∨ (∀ i ∈ inspections.items, i.busy + i.queued ≤ i.running) ∨
        pool.maxRunners ≤ (inspections.items.map (·.running)).sum

theorem InspectedTick.plan_toSpawn_eq_zero_iff {tick : InspectedTick} :
    (tick.plan true).toSpawn = 0 ↔ tick.NothingToStart := by
  cases tick with
  | single pool inspection draining =>
    show (if (draining || true) = true then 0 else calculateSpawnCount pool inspection) = 0 ↔ _
    rw [Bool.or_true, if_pos rfl]
    exact iff_of_true rfl trivial
  | personal pool inspections draining =>
    show (if draining then 0 else personalRequest pool inspections.items) = 0 ↔ _ ∨ _
    cases draining with
    | true => exact iff_of_true rfl (Or.inl rfl)
    | false =>
      rw [if_neg Bool.false_ne_true, personalRequest_eq_zero_iff]
      exact (or_iff_right Bool.false_ne_true).symm

namespace FederatedScaler

variable {ι : Type*} [DecidableEq ι] {s t : FederatedScaler ι} {a : DaemonAction ι}

/-- No step begins the `docker run` of a tick. -/
def StartsNone (s : FederatedScaler ι) : Prop := ∀ a t, s.step a = some t →
  ∀ i, spawnsIn (t.scaler.ticks i).running ≤ spawnsIn (s.scaler.ticks i).running

/-- A hot snapshot is published when no tick has a runner left to start, and under a hot one the
ticks of personal pools have nothing to start. -/
def HotOk (s : FederatedScaler ι) : DaemonAction ι → Prop
  | .publish own => Federation.isHot { s.federation with own := some own } = true →
      ∀ i, (s.scaler.ticks i).toStart = 0
  | .inspected _ tick => s.federation.isHot = true → tick.NothingToStart
  | _ => True

/-- Under a hot snapshot no lane has a runner left to start. -/
def Quiet (s : FederatedScaler ι) : Prop :=
  s.federation.isHot = true → ∀ i, (s.scaler.ticks i).toStart = 0

theorem isHot_fetchPeer (f : Federation) (peer : String) (fetched : String → Except PyError Json)
    (clock : String → ℚ) : (Federation.fetchPeer fetched clock f peer).isHot = f.isHot := by
  unfold Federation.fetchPeer
  split
  · rfl
  · split <;> rfl

/-- Any other step of the scaler asks for nothing: a tick begins with `inspected` only. -/
theorem step_scaler {b : CapAction ι} (h : s.step (.scaler b) = some t) :
    Scaler.asked b = 0 ∧
      ∃ scaler, s.scaler.step b = some scaler ∧ t = { s with scaler := scaler } := by
  have hstep : Scaler.asked b = 0 ∧
      (s.scaler.step b).map (fun scaler => { s with scaler := scaler }) = some t := by
    cases b with
    | beginTick i plan => cases h
    | _ => exact ⟨rfl, h⟩
  obtain ⟨scaler, hscaler, rfl⟩ := Option.map_eq_some_iff.1 hstep.2
  exact ⟨hstep.1, scaler, hscaler, rfl⟩

/-- A step of the scaler that asks for nothing under a hot snapshot. -/
theorem Quiet.scaler (hs : s.Quiet) {b : CapAction ι} {scaler : Scaler ι}
    (h : s.scaler.step b = some scaler)
    (hb : s.federation.isHot = true → Scaler.asked b = 0) :
    ({ s with scaler := scaler } : FederatedScaler ι).Quiet := by
  intro hhot i
  have hle := Scaler.toStart_step h i
  have hzero := hs hhot i
  have hasked := hb hhot
  show (scaler.ticks i).toStart = 0
  omega

/-- **What one step keeps.** -/
theorem Quiet.step (hs : s.Quiet) (hok : s.HotOk a) (h : s.step a = some t) : t.Quiet := by
  cases a with
  | publish own =>
    obtain rfl := Option.some.inj h
    exact hok
  | fetchPeer peer fetched clock =>
    obtain rfl := Option.some.inj h
    intro hhot
    rw [isHot_fetchPeer] at hhot
    exact hs hhot
  | inspected i tick =>
    obtain ⟨scaler, hscaler, rfl⟩ := Option.map_eq_some_iff.1 h
    refine hs.scaler hscaler fun hhot => ?_
    rw [hhot]
    exact InspectedTick.plan_toSpawn_eq_zero_iff.2 (hok hhot)
  | scaler b =>
    obtain ⟨hb, scaler, hscaler, rfl⟩ := step_scaler h
    exact hs.scaler hscaler fun _ => hb

/-- A step of the daemon takes a step of the scaler or leaves it alone. -/
theorem scaler_of_step (h : s.step a = some t) :
    t.scaler = s.scaler ∨ ∃ b, s.scaler.step b = some t.scaler := by
  cases a with
  | publish own =>
    obtain rfl := Option.some.inj h
    exact .inl rfl
  | fetchPeer peer fetched clock =>
    obtain rfl := Option.some.inj h
    exact .inl rfl
  | inspected i tick =>
    obtain ⟨scaler, hscaler, rfl⟩ := Option.map_eq_some_iff.1 h
    exact .inr ⟨_, hscaler⟩
  | scaler b =>
    obtain ⟨-, scaler, hscaler, rfl⟩ := step_scaler h
    exact .inr ⟨b, hscaler⟩

/-- Where no lane has a runner left to start, none is started. -/
theorem Quiet.startsNone (hs : s.Quiet) (hhot : s.federation.isHot = true) : s.StartsNone := by
  intro a t hstep i
  have hzero := hs hhot i
  rcases scaler_of_step hstep with hsame | ⟨b, hb⟩
  · rw [hsame]
  · have hle := Scaler.running_step hb i
    omega

omit [DecidableEq ι] in
theorem quiet_init (config : FederationConfig) (cap : ℤ) (live : ℕ) :
    (init config cap live : FederatedScaler ι).Quiet := fun _ _ => rfl

/-- **No runner is started while the snapshot is hot**, in the runs that keep to `HotOk`. -/
theorem hot_run {config : FederationConfig} {cap : ℤ} {live : ℕ} {l : List (DaemonAction ι)}
    (hok : Along step HotOk (init config cap live) l)
    (hrun : run step (init config cap live) l = some s) (hhot : s.federation.isHot = true) :
    s.StartsNone := by
  have hquiet : s.Quiet :=
    run_invariant (fun _ _ _ hs ha hst => hs.step ha hst) (quiet_init config cap live) hok hrun
  exact hquiet.startsNone hhot

end FederatedScaler

open FederatedScaler in
/-- **A hot host starts no runners**, when exactly for one tick, and over the runs in which the
snapshots change while ticks go on. -/
theorem hot_host {ι : Type*} [DecidableEq ι] (ρ : Rounding) (config : FederationConfig) (cap : ℤ)
    (live : ℕ) :
    (∀ t : TickInput, t.hot = true →
      ((t.effects ρ).started = 0 ↔ (t.pool.isPersonalLevel = true → t.NothingToStart))) ∧
    ∀ (l : List (DaemonAction ι)) (s : FederatedScaler ι),
      Along step HotOk (init config cap live) l → run step (init config cap live) l = some s →
        s.federation.isHot = true → s.StartsNone :=
  ⟨fun _ hhot => TickInput.started_eq_zero_iff ρ hhot,
    fun _ _ hok hrun hhot => hot_run hok hrun hhot⟩

/-! ### Hot hosts -/

/-- A snapshot with 91 degrees. -/
def hotSnapshot : Snapshot where
  instanceName := "pve1"
  version := "1"
  ts := 0
  host := ⟨8, 8, 0, 1, 1, some 91, 8⟩
  pools := Table.empty
  globalFree := none

/-- A federation that has published it. -/
def hotFederation : Federation where
  config := { enabled := true }
  own := some hotSnapshot

/-- A host with one queued job and no runner. -/
def queuedObs : Observations where
  exited := ⟨[], 0⟩
  running := ⟨[], 0⟩
  runners := some []
  stuck := ⟨[], 0⟩
  runningJob _ := some false
  queued := .ok 1

/-- A tick there, of a pool with one repository if it is a personal one. -/
def hotInput (pool : PoolConfig) : TickInput where
  pool := pool
  state := {}
  now := 0
  nextPollAt := 0
  federation := some ⟨hotFederation, 0, hotFederation, 0, false, hotFederation⟩
  obs := queuedObs
  scan := .ok ⟨1, 0, [.finite 500]⟩
  repositories := .ok ⟨["app"], by decide⟩
  repoObs _ := queuedObs
  cap := ⟨0, 0, ⟨[], 0⟩⟩

/-- An organization's pool that keeps a runner idle. -/
def orgPool : PoolConfig := { name := "ci", pat := "token", owner := "acme" }

/-- A pool for the repositories of an account. -/
def accountPool : PoolConfig :=
  { name := "home", pat := "token", owner := "me", scope := "personal" }

/-- The tick of the personal pool starts a runner. -/
theorem not_hot_host : ¬ ∀ (ρ : Rounding) (t : TickInput), t.hot = true →
    (t.effects ρ).started = 0 := by
  intro h
  have hzero := h .exact (hotInput accountPool) (by decide +kernel)
  exact absurd hzero (by decide +kernel)

/-- A tick of the organization's pool on a host that is hot already. -/
def hotTick : List (DaemonAction Unit) :=
  [.publish hotSnapshot, .inspected () (.single orgPool ⟨orgPool, 0, 1, 0, 0, []⟩ false),
    .scaler (.nothingToSpawn ()), .scaler (.loopEnds ()), .scaler (.tickReleases ())]

/-- It starts nothing, and neither does the tick of the organization's pool by itself. -/
theorem hot_host_org :
    ((hotInput orgPool).effects .exact).started = 0 ∧
    ∃ s : FederatedScaler Unit,
      run FederatedScaler.step (.init { enabled := true } 0 0) hotTick = some s ∧
        s.federation.isHot = true ∧ s.StartsNone := by
  obtain ⟨htick, hruns⟩ := hot_host (ι := Unit) .exact { enabled := true } 0 0
  refine ⟨(htick (hotInput orgPool) (by decide +kernel)).2 fun h => ?_, ?_⟩
  · exact absurd h (by decide +kernel)
  · have hok : Along FederatedScaler.step FederatedScaler.HotOk
        (.init { enabled := true } 0 0) hotTick :=
      ⟨fun _ _ => rfl, fun _ _ => ⟨fun _ => trivial, fun _ _ => ⟨trivial, fun _ _ =>
        ⟨trivial, fun _ _ => ⟨trivial, fun _ _ => trivial⟩⟩⟩⟩⟩
    have hend : ((run FederatedScaler.step (.init { enabled := true } 0 0) hotTick).map
        fun s => s.federation.isHot) = some true := by decide +kernel
    obtain ⟨s, hs, hhot⟩ := Option.map_eq_some_iff.1 hend
    exact ⟨s, hs, hhot, hruns hotTick s hok hs hhot⟩

/-- The tick of the same pool, when the hot snapshot is published after it has asked `is_hot`. -/
def lateTick : List (DaemonAction Unit) :=
  [.inspected () (.single orgPool ⟨orgPool, 0, 1, 0, 0, []⟩ false), .scaler (.takeLock ()),
    .publish hotSnapshot, .scaler (.grant ()), .scaler (.submit ())]

/-- It goes on to start its runner. -/
theorem starts_late : ∃ s : FederatedScaler Unit,
    run FederatedScaler.step (.init { enabled := true } 0 0) lateTick = some s ∧
      s.federation.isHot = true ∧ ¬ s.StartsNone := by
  have hend : ((run FederatedScaler.step (.init { enabled := true } 0 0) lateTick).map fun s =>
      (s.federation.isHot, spawnsIn (s.scaler.ticks ()).running,
        (s.step (.scaler (.takeJob ()))).map fun t => spawnsIn (t.scaler.ticks ()).running)) =
      some (true, 0, some 1) := by
    decide +kernel
  obtain ⟨s, hs, hlast⟩ := Option.map_eq_some_iff.1 hend
  simp only [Prod.mk.injEq, Option.map_eq_some_iff] at hlast
  obtain ⟨hhot, hzero, t, hstep, hone⟩ := hlast
  refine ⟨s, hs, hhot, fun hnone => ?_⟩
  have hle := hnone _ t hstep ()
  omega

end RunnerSwarm
