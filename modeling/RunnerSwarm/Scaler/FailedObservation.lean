import RunnerSwarm.Scaler.Inspection

/-!
# Ticks whose observations fail

`Failures` records which observations of an inspection fail: the runner list, or one of its three
`docker ps` calls by its exit status. The question is what a tick may still do after a failure, and
likewise whether `stop_container` reports a container gone that is not.

A runner list that is missing ends the inspection before it decides anything, and a personal tick
with it. The exit status of `docker ps` is dropped, so a failed listing counts as an empty host:

* `failSafeSingle_iff`, `failSafePersonal_iff` and `failSafeTickWide_iff` say for which failures the
  ticks are safe; a pattern is unsafe when some tick with these failures acts on them;
* `StopCall.honest_iff` says when `stop_container` tells the truth.
-/

namespace RunnerSwarm

/-! ### Patterns of failure -/

/-- How the observations of an inspection end: the runner list is there, and the exit statuses. -/
structure Failures where
  runnerList : Bool
  exited : ℕ
  running : ℕ
  stuck : ℕ
  deriving DecidableEq

def Observations.failures (obs : Observations) : Failures where
  runnerList := obs.runners.isSome
  exited := obs.exited.code
  running := obs.running.code
  stuck := obs.stuck.code

namespace Failures

/-- The three listings exit with zero. -/
def ListingsOk (f : Failures) : Prop := f.exited = 0 ∧ f.running = 0 ∧ f.stuck = 0

/-- Nothing failed. -/
def AllOk (f : Failures) : Prop := f.runnerList = true ∧ f.ListingsOk

end Failures

/-! ### Safe ticks -/

/-- No runner is started or deregistered and no slot is granted. -/
structure TickEffects.Inactive (e : TickEffects) : Prop where
  started : e.started = 0
  granted : e.granted = 0
  deregistered : e.deregistered = []

/-- The global listing was asked for and failed. -/
def TickEffects.CapFailed (e : TickEffects) (capCode : ℕ) : Prop :=
  e.capListed = true ∧ capCode ≠ 0

/-- A pool's tick with these failures does nothing after one. -/
def FailSafeSingle (f : Failures) (capCode : ℕ) : Prop :=
  ∀ pool obs stopped cap, obs.failures = f → cap.listed.code = capCode →
    ¬ f.AllOk ∨ (tickSingle pool obs stopped cap).CapFailed capCode →
    (tickSingle pool obs stopped cap).Inactive ∧ (tickSingle pool obs stopped cap).killed = []

/-- A personal tick does nothing after a failure, and an inspection with a failure of its own kills
nothing. -/
def FailSafePersonal (repos : List String) (f : String → Failures) (capCode : ℕ) : Prop :=
  ∀ pool obs draining cap, (∀ repo, (obs repo).failures = f repo) → cap.listed.code = capCode →
    ((∃ repo ∈ repos, ¬ (f repo).AllOk) ∨
        (tickPersonal pool repos obs draining cap).CapFailed capCode →
      (tickPersonal pool repos obs draining cap).Inactive) ∧
    ∀ repo ∈ repos, ¬ (f repo).AllOk →
      (inspectPool (pool.forRepository repo) (obs repo)).killed = []

/-- The same, when after a failure no other inspection of the tick may kill either. -/
def FailSafeTickWide (repos : List String) (f : String → Failures) (capCode : ℕ) : Prop :=
  ∀ pool obs draining cap, (∀ repo, (obs repo).failures = f repo) → cap.listed.code = capCode →
    (∃ repo ∈ repos, ¬ (f repo).AllOk) ∨
        (tickPersonal pool repos obs draining cap).CapFailed capCode →
      (tickPersonal pool repos obs draining cap).Inactive ∧
        (tickPersonal pool repos obs draining cap).killed = []

/-! ### Without the runner list -/

section NoRunnerList

variable {pool : PoolConfig} {repos : List String} {obs : String → Observations} {draining : Bool}
  {cap : CapView}

theorem runners_eq_none {o : Observations} (h : o.failures.runnerList = false) :
    o.runners = none := by
  cases hr : o.runners with
  | none => rfl
  | some runners =>
    rw [Observations.failures, hr] at h
    cases h

theorem tickSingle_noRunners {o : Observations} {stopped : Bool} (h : o.runners = none) :
    (tickSingle pool o stopped cap).Inactive ∧ (tickSingle pool o stopped cap).killed = [] := by
  obtain ⟨hkilled, herror⟩ : (inspectPool pool o).killed = [] ∧
      (inspectPool pool o).outcome = .error .runtimeError := inspectPool_noRunners h
  unfold tickSingle
  dsimp only
  rw [herror]
  exact ⟨⟨rfl, rfl, rfl⟩, hkilled⟩

theorem tickPersonal_noRunners {repo : String} (hrepo : repo ∈ repos)
    (h : (obs repo).runners = none) : (tickPersonal pool repos obs draining cap).Inactive := by
  have hnone : collectInspections
      (repos.map fun r => inspectPool (pool.forRepository r) (obs r)) = none :=
    collectInspections_none (List.mem_map_of_mem hrepo) (inspectPool_noRunners h).2
  unfold tickPersonal
  dsimp only
  rw [hnone]
  exact ⟨rfl, rfl, rfl⟩

theorem tickPersonal_nil (pool : PoolConfig) (obs : String → Observations) (draining : Bool)
    (cap : CapView) : (tickPersonal pool [] obs draining cap).Inactive := by
  have hrequest : personalRequest pool [] = 0 := Nat.min_zero _
  have hgranted : cap.reserve 0 = 0 := rfl
  have heq : tickPersonal pool [] obs draining cap =
      { granted := cap.reserve 0, spawns := personalAllocations [] (cap.reserve 0),
        capListed := cap.lists 0 } := by
    cases draining
    · rw [← hrequest]
      rfl
    · rfl
  rw [heq, hgranted]
  exact ⟨rfl, rfl, rfl⟩

end NoRunnerList

/-! ### Ticks that act on a failure -/

/-- A pool for the ticks below. -/
def failingPool : PoolConfig := { name := "p", pat := "t", owner := "o", scope := "personal" }

/-- A queued job, no container listed as running, and an old container GitHub does not know. -/
def failingObs (f : Failures) : Observations where
  exited := ⟨[], f.exited⟩
  running := ⟨[], f.running⟩
  runners := if f.runnerList then some [] else none
  stuck := ⟨[("gh-runner-p-0a1b2c3d", "2 hours ago")], f.stuck⟩
  runningJob _ := some false
  queued := .ok 1

/-- A cap of ten. -/
def failingCap (code : ℕ) : CapView := ⟨10, 0, ⟨[], code⟩⟩

theorem failingObs_failures (f : Failures) : (failingObs f).failures = f := by
  rcases f with ⟨_ | _, _, _, _⟩ <;> rfl

theorem two_hours : (match parseRunningMinutes "2 hours ago" with
    | none => false
    | some minutes => !minutes.lt (.finite 8)) = true := by
  decide +kernel

section Acting

variable {pool : PoolConfig} {repos : List String} {f : Failures}

theorem failingObs_killed (hpool : pool.stuckTimeout = 8) (hf : f.runnerList = true) :
    (inspectPool pool (failingObs f)).killed ≠ [] := by
  have hmem : "gh-runner-p-0a1b2c3d" ∈ (inspectPool pool (failingObs f)).killed := by
    unfold inspectPool
    simp only [failingObs, hf, if_true, hpool]
    refine List.mem_map.2 ⟨("gh-runner-p-0a1b2c3d", "2 hours ago"), ?_, rfl⟩
    refine List.mem_filter.2 ⟨List.mem_singleton_self _, ?_⟩
    simp only [Bool.and_eq_true]
    exact ⟨⟨rfl, two_hours⟩, rfl⟩
  exact List.ne_nil_of_mem hmem

theorem failingObs_outcome (hf : f.runnerList = true) :
    (inspectPool pool (failingObs f)).outcome = .ok ⟨pool, 0, 1, 0, 0, []⟩ := by
  unfold inspectPool
  simp only [failingObs, hf, if_true]
  rfl

/-- All inspections of the tick succeed. -/
theorem failingObs_collect (pool : PoolConfig) {fs : String → Failures}
    (hf : ∀ repo ∈ repos, (fs repo).runnerList = true) :
    ∃ is, collectInspections (repos.map fun repo =>
        inspectPool (pool.forRepository repo) (failingObs (fs repo))) = some is ∧
      (is.map (·.running)).sum = 0 ∧ (is.map (·.needed)).sum = repos.length := by
  have hmap : (repos.map fun repo => inspectPool (pool.forRepository repo)
        (failingObs (fs repo))).mapM (fun r : InspectionRun => r.outcome.toOption) =
      some (repos.map fun repo => ⟨pool.forRepository repo, 0, 1, 0, 0, []⟩) := by
    induction repos with
    | nil => rfl
    | cons repo repos ih =>
      rw [List.map_cons, List.mapM_cons, ih fun r hr => hf r (List.mem_cons_of_mem _ hr),
        failingObs_outcome (hf repo List.mem_cons_self)]
      rfl
  refine ⟨_, by rw [collectInspections, hmap]; rfl, ?_, ?_⟩
  · rw [((List.perm_insertionSort _ _).map _).sum_eq, List.map_map]
    exact List.sum_eq_zero fun n hn => by
      obtain ⟨repo, -, rfl⟩ := List.mem_map.1 hn
      rfl
  · rw [((List.perm_insertionSort _ _).map _).sum_eq, List.map_map]
    have hone : (repos.map (PoolInspection.needed ∘
        fun repo => ⟨pool.forRepository repo, 0, 1, 0, 0, []⟩)) = repos.map fun _ => 1 :=
      List.map_congr_left fun _ _ => rfl
    rw [hone, List.map_const', List.sum_replicate, smul_eq_mul, Nat.mul_one]

/-- A slot is granted after a failed global listing. -/
theorem failingObs_granted {fs : String → Failures} (hrepos : repos ≠ [])
    (hf : ∀ repo ∈ repos, (fs repo).runnerList = true) (code : ℕ) :
    (tickPersonal failingPool repos (fun repo => failingObs (fs repo)) false
        (failingCap code)).granted ≠ 0 ∧
      (tickPersonal failingPool repos (fun repo => failingObs (fs repo)) false
        (failingCap code)).capListed = true := by
  obtain ⟨is, his, hrunning, hneeded⟩ := failingObs_collect failingPool hf
  have hlen : 0 < repos.length := List.length_pos_of_ne_nil hrepos
  have hrequest : 0 < personalRequest failingPool is := by
    unfold personalRequest
    dsimp only
    rw [hrunning, hneeded]
    have hmax : (failingPool.maxRunners - ((0 : ℕ) : ℤ)).toNat = 3 := rfl
    omega
  have hlists : (failingCap code).lists (personalRequest failingPool is) = true := by
    simp only [CapView.lists, failingCap, Bool.and_eq_true, decide_eq_true_eq]
    exact ⟨hrequest.ne', by norm_num⟩
  unfold tickPersonal
  dsimp only
  rw [his]
  refine ⟨?_, hlists⟩
  simp only [Bool.false_eq_true, if_false, CapView.reserve, hlists, if_true]
  have hroom : headroom (failingCap code).cap (runningContainers (failingCap code).listed).length
      (failingCap code).reserved = 10 := rfl
  rw [hroom]
  omega

theorem tickSingle_killed {o : Observations} {stopped : Bool} {cap : CapView} :
    (tickSingle pool o stopped cap).killed = (inspectPool pool o).killed := by
  unfold tickSingle
  dsimp only
  cases (inspectPool pool o).outcome <;> rfl

end Acting

/-! ### Which failures are safe -/

theorem not_allOk_iff {f : Failures} :
    ¬ f.AllOk ↔ f.runnerList = false ∨ (f.runnerList = true ∧ ¬ f.ListingsOk) := by
  rw [Failures.AllOk, not_and_or, Bool.not_eq_true]
  cases f.runnerList <;> simp

/-- The tick of a pool of its own is safe without a runner list, and when every listing it may ask
for exits with zero. -/
theorem failSafeSingle_iff (f : Failures) (capCode : ℕ) :
    FailSafeSingle f capCode ↔ f.runnerList = false ∨ (f.ListingsOk ∧ capCode = 0) := by
  constructor
  · intro hsafe
    by_contra hcon
    rw [not_or, Bool.not_eq_false, not_and] at hcon
    obtain ⟨hlist, hcodes⟩ := hcon
    have htick := hsafe failingPool (failingObs f) false (failingCap capCode)
      (failingObs_failures f) rfl
    by_cases hok : f.ListingsOk
    · have heffects : (tickSingle failingPool (failingObs f) false (failingCap capCode)).granted = 1 ∧
          (tickSingle failingPool (failingObs f) false (failingCap capCode)).capListed = true := by
        unfold tickSingle
        dsimp only
        rw [failingObs_outcome hlist]
        exact ⟨rfl, rfl⟩
      have hgranted := (htick (.inr ⟨heffects.2, hcodes hok⟩)).1.granted
      rw [heffects.1] at hgranted
      cases hgranted
    · have hkilled := (htick (.inl fun hall => hok hall.2)).2
      rw [tickSingle_killed] at hkilled
      exact failingObs_killed rfl hlist hkilled
  · rintro (hlist | ⟨hok, rfl⟩) pool obs stopped cap hobs - hfail
    · exact tickSingle_noRunners (runners_eq_none (hobs ▸ hlist))
    · rcases hfail with hfail | ⟨-, hcode⟩
      · rcases not_allOk_iff.1 hfail with hlist | ⟨-, hnot⟩
        · exact tickSingle_noRunners (runners_eq_none (hobs ▸ hlist))
        · exact absurd hok hnot
      · exact absurd rfl hcode

section Personal

variable (repos : List String) (f : String → Failures) (capCode : ℕ)

/-- A personal tick is safe when every inspection with a runner list has its listings exit with
zero and, unless some runner list is missing, the global listing does. -/
theorem failSafePersonal_iff :
    FailSafePersonal repos f capCode ↔
      (∀ repo ∈ repos, (f repo).runnerList = true → (f repo).ListingsOk) ∧
        (repos = [] ∨ (∃ repo ∈ repos, (f repo).runnerList = false) ∨ capCode = 0) := by
  constructor
  · intro hsafe
    have htick := hsafe failingPool (fun repo => failingObs (f repo)) false (failingCap capCode)
      (fun repo => failingObs_failures (f repo)) rfl
    have hok : ∀ repo ∈ repos, (f repo).runnerList = true → (f repo).ListingsOk := by
      intro repo hrepo hlist
      by_contra hnot
      exact failingObs_killed rfl hlist (htick.2 repo hrepo fun hall => hnot hall.2)
    refine ⟨hok, ?_⟩
    by_contra hcon
    simp only [not_or, not_exists, not_and, Bool.not_eq_false] at hcon
    obtain ⟨hrepos, hlists, hcode⟩ := hcon
    obtain ⟨hgranted, hlisted⟩ := failingObs_granted hrepos hlists capCode
    exact hgranted (htick.1 (.inr ⟨hlisted, hcode⟩)).granted
  · rintro ⟨hok, hrest⟩ pool obs draining cap hobs -
    refine ⟨fun hfail => ?_, fun repo hrepo hfail => ?_⟩
    · by_cases hlist : ∃ repo ∈ repos, (f repo).runnerList = false
      · obtain ⟨repo, hrepo, hlist⟩ := hlist
        exact tickPersonal_noRunners hrepo (runners_eq_none (hobs repo ▸ hlist))
      · rcases hfail with ⟨repo, hrepo, hfail⟩ | ⟨-, hcode⟩
        · rcases not_allOk_iff.1 hfail with hmissing | ⟨hthere, hnot⟩
          · exact absurd ⟨repo, hrepo, hmissing⟩ hlist
          · exact absurd (hok repo hrepo hthere) hnot
        · rcases hrest with rfl | hmissing | hzero
          · exact tickPersonal_nil pool obs draining cap
          · exact absurd hmissing hlist
          · exact absurd hzero hcode
    · rcases not_allOk_iff.1 hfail with hmissing | ⟨hthere, hnot⟩
      · exact (inspectPool_noRunners (runners_eq_none (hobs repo ▸ hmissing))).1
      · exact absurd (hok repo hrepo hthere) hnot

/-- No inspection at all reaps after a failure only when every runner list is missing or nothing
fails. -/
theorem failSafeTickWide_iff :
    FailSafeTickWide repos f capCode ↔
      (∀ repo ∈ repos, (f repo).runnerList = false) ∨
        ((∀ repo ∈ repos, (f repo).AllOk) ∧ capCode = 0) := by
  constructor
  · intro hsafe
    have htick := hsafe failingPool (fun repo => failingObs (f repo)) false (failingCap capCode)
      (fun repo => failingObs_failures (f repo)) rfl
    by_contra hcon
    simp only [not_or, not_forall, Bool.not_eq_false] at hcon
    obtain ⟨⟨repo, hrepo, hlist⟩, hcodes⟩ := hcon
    by_cases hall : ∀ repo ∈ repos, (f repo).AllOk
    · have hcode : capCode ≠ 0 := fun hzero => hcodes ⟨hall, hzero⟩
      obtain ⟨hgranted, hlisted⟩ := failingObs_granted (List.ne_nil_of_mem hrepo)
        (fun r hr => (hall r hr).1) capCode
      exact hgranted (htick (.inr ⟨hlisted, hcode⟩)).1.granted
    · simp only [not_forall] at hall
      obtain ⟨bad, hbad, hnot⟩ := hall
      have hkilled := (htick (.inl ⟨bad, hbad, hnot⟩)).2
      rw [tickPersonal_killed, List.flatMap_eq_nil_iff] at hkilled
      exact failingObs_killed rfl hlist (hkilled repo hrepo)
  · rintro (hmissing | ⟨hall, rfl⟩) pool obs draining cap hobs - hfail
    · have hnone : ∀ repo ∈ repos, (obs repo).runners = none := fun repo hrepo =>
        runners_eq_none (hobs repo ▸ hmissing repo hrepo)
      refine ⟨?_, ?_⟩
      · cases repos with
        | nil => exact tickPersonal_nil pool obs draining cap
        | cons repo rest =>
          exact tickPersonal_noRunners List.mem_cons_self (hnone repo List.mem_cons_self)
      · rw [tickPersonal_killed, List.flatMap_eq_nil_iff]
        exact fun repo hrepo => (inspectPool_noRunners (hnone repo hrepo)).1
    · rcases hfail with ⟨repo, hrepo, hfail⟩ | ⟨-, hcode⟩
      · exact absurd (hall repo hrepo) hfail
      · exact absurd rfl hcode

end Personal

/-! ### Stopping a container -/

/-- What `stop_container` meets for the name of a runner container. `state` is the container when
the calls are over: `docker rm` exits with zero only when it is gone, and a failing `docker ps`
prints nothing. -/
structure StopCall (F : NameFilter) where
  name : String
  rmCode : ℕ
  listed : CommandResult (List String)
  state : Option ContainerState
  runner : startsWith name "gh-runner-" = true
  named : DockerName name
  rm_zero : rmCode = 0 → state = none
  listed_zero : listed.code = 0 → (name ∈ listed.output ↔
    state = some .running ∧ F.selects (beforeLastDash name) name = true)
  listed_failed : listed.code ≠ 0 → listed.output = []

namespace StopCall

variable {F : NameFilter}

/-- What `stop_container` returns. -/
def result (c : StopCall F) : Bool := stopContainer c.name c.rmCode c.listed

/-- It returns true only for a container that is gone. -/
def Honest (c : StopCall F) : Prop := c.result = true → c.state = none

theorem dash_mem (c : StopCall F) : '-' ∈ c.name.toList := by
  have hstart := List.isPrefixOf_iff_prefix.1 c.runner
  exact hstart.subset (by decide)

theorem name_ne_empty (c : StopCall F) : c.name ≠ "" := by
  intro h
  have hmem := c.dash_mem
  rw [h] at hmem
  cases hmem

theorem honest_iff (c : StopCall F) :
    c.Honest ↔ c.state = none ∨ (c.listed.code = 0 ∧ c.state = some .running) := by
  by_cases hgone : c.state = none
  · exact ⟨fun _ => .inl hgone, fun _ _ => hgone⟩
  · have hcode : c.rmCode ≠ 0 := fun h => hgone (c.rm_zero h)
    have hlisted : c.name ∈ runningContainers c.listed ↔ c.name ∈ c.listed.output := by
      simp [runningContainers, c.name_ne_empty]
    have hresult : c.result = true ↔ c.name ∉ c.listed.output := by
      simp [result, stopContainer, hcode, hlisted]
    rw [Honest, hresult, or_iff_right hgone]
    have hselects := F.selects_beforeLastDash c.named c.dash_mem
    by_cases hps : c.listed.code = 0
    · rw [c.listed_zero hps, hselects]
      simp [hgone, hps]
    · rw [c.listed_failed hps]
      simp [hgone, hps]

end StopCall

/-! ### Both together -/

/-- **Failed observations.** For which failures the ticks are safe, and when `stop_container` tells
the truth. -/
theorem failedObservations_iff (F : NameFilter) :
    (∀ f capCode, FailSafeSingle f capCode ↔
      f.runnerList = false ∨ (f.ListingsOk ∧ capCode = 0)) ∧
    (∀ repos f capCode, FailSafePersonal repos f capCode ↔
      (∀ repo ∈ repos, (f repo).runnerList = true → (f repo).ListingsOk) ∧
        (repos = [] ∨ (∃ repo ∈ repos, (f repo).runnerList = false) ∨ capCode = 0)) ∧
    (∀ repos f capCode, FailSafeTickWide repos f capCode ↔
      (∀ repo ∈ repos, (f repo).runnerList = false) ∨
        ((∀ repo ∈ repos, (f repo).AllOk) ∧ capCode = 0)) ∧
    ∀ c : StopCall F, c.Honest ↔
      c.state = none ∨ (c.listed.code = 0 ∧ c.state = some .running) :=
  ⟨failSafeSingle_iff, failSafePersonal_iff, failSafeTickWide_iff, StopCall.honest_iff⟩

/-- A pool that keeps one idle runner. -/
def outagePool : PoolConfig := { name := "p", pat := "t", owner := "o", repo := "r" }

/-- Its runner is idle and its container runs; the listing of running containers fails. -/
def outageObs : Observations where
  exited := ⟨[], 0⟩
  running := ⟨[], 1⟩
  runners := some [⟨1, "gh-runner-p-0a1b2c3d", "online", false⟩]
  stuck := ⟨[("gh-runner-p-0a1b2c3d", "2 hours ago")], 0⟩
  runningJob _ := some false
  queued := .ok 0

/-- The tick starts another runner and kills the one GitHub lists online. -/
theorem not_failSafeSingle : ¬ ∀ f capCode, FailSafeSingle f capCode := by
  intro h
  let cap : CapView := ⟨0, 0, ⟨[], 0⟩⟩
  have htick := h ⟨true, 0, 1, 0⟩ 0 outagePool outageObs false cap rfl rfl
    (.inl fun hall => absurd hall.2.2.1 (by decide))
  have heffects : (tickSingle outagePool outageObs false cap).started = 1 ∧
      (tickSingle outagePool outageObs false cap).killed = ["gh-runner-p-0a1b2c3d"] := by
    decide +kernel
  rw [htick.2] at heffects
  cases heffects.2

end RunnerSwarm
