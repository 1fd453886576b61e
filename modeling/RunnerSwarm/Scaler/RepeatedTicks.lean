import RunnerSwarm.Scaler.FairShares
import RunnerSwarm.Scaler.HotHost

/-!
# Ticks one after the other

A tick decides from one look at the host and remembers nothing of the ticks before it. While the
jobs of a queue are not picked up, the next tick counts them again, and only the containers it
lists keep it from starting a second runner for each.

`Fleet` is what the ticks of a pool have left on the host, and `Fleet.step` a tick: some of the
spawns that it was granted succeed, and containers may be gone. `Fleet.Listed` says that the listings
of the tick name the containers that are alive, as they do unless `docker ps` fails, whose exit
status is dropped.

* `single_run`: a pool with the queue to itself, or with a share of it that may change from tick to
  tick, never has more containers than at first or than it wanted at some tick;
* `personal_run`: no repository has more than at first or than its jobs need, nor has the account
  more than at first or than its limit;
* `notTwice` is both, and `twice` a pool that starts two runners for one job after a failed listing.
-/

namespace RunnerSwarm

/-! ### The containers of the pools -/

/-- A container and the pool it was started for. -/
structure OwnedContainer where
  pool : String
  name : String
  deriving DecidableEq

/-- The containers alive. No two have the same name. -/
structure Fleet where
  containers : List OwnedContainer
  distinct : (containers.map (·.name)).Nodup

/-- A tick, with what becomes of it on the host. -/
structure FleetTick where
  input : TickInput
  /-- Names of containers that have exited or were removed. -/
  gone : List String
  /-- The spawns that succeeded. -/
  started : List OwnedContainer

/-- How many runners a tick may start for the pool of this name. -/
def TickEffects.spawnsFor (e : TickEffects) (name : String) : ℕ :=
  ((e.spawns.filter fun s => s.1.name = name).map Prod.snd).sum

namespace Fleet

/-- The containers of a pool. -/
def count (f : Fleet) (name : String) : ℕ := f.containers.countP (·.pool = name)

/-- The containers of all repositories of a personal pool. -/
def accountCount (f : Fleet) (pool : PoolConfig) (repos : RepositoryNames) : ℕ :=
  (repos.names.map fun repo => f.count (pool.forRepository repo).name).sum

/-- The containers that are still there. -/
def kept (f : Fleet) (gone : List String) : List OwnedContainer :=
  f.containers.filter (·.name ∉ gone)

/-- One tick: each pool gets at most the runners the tick may start for it, with new names. -/
def step (ρ : Rounding) (f : Fleet) (a : FleetTick) : Option Fleet :=
  if h : (∀ c ∈ a.started, a.started.countP (·.pool = c.pool) ≤
        (a.input.effects ρ).spawnsFor c.pool) ∧
      ((f.kept a.gone ++ a.started).map (·.name)).Nodup then
    some ⟨f.kept a.gone ++ a.started, h.2⟩
  else none

/-- The listing of an inspection names the containers of its pool that are alive. -/
def ListedBy (f : Fleet) (gone : List String) (name : String) (obs : Observations) : Prop :=
  ∀ c ∈ f.kept gone, c.pool = name → c.name ∈ runningContainers obs.running

/-- All inspections of the tick list what is alive. -/
def Listed (f : Fleet) (a : FleetTick) : Prop :=
  if a.input.pool.isPersonalLevel then
    ∀ repos, a.input.repositories = .ok repos → ∀ repo ∈ repos.names,
      f.ListedBy a.gone (a.input.pool.forRepository repo).name (a.input.repoObs repo)
  else f.ListedBy a.gone a.input.pool.name a.input.obs

end Fleet

/-- What a tick of a pool of its own wants: `desired` of its inspection. -/
def TickInput.desired (ρ : Rounding) (t : TickInput) : ℤ :=
  match (inspectPool t.pool (t.observed ρ)).outcome with
  | .ok i => min t.pool.maxRunners (max t.pool.minIdle ((i.busy : ℤ) + i.queued))
  | .error _ => 0

/-- The largest number the ticks want. -/
def largestDesired (ρ : Rounding) (l : List FleetTick) : ℤ :=
  (l.map fun a => a.input.desired ρ).foldr max 0

variable {ρ : Rounding} {f g : Fleet} {a : FleetTick} {name : String}

/-! ### One tick -/

namespace Fleet

/-- **A tick only adds** what it started for a pool, and it may start that much. -/
theorem step_count (h : f.step ρ a = some g) :
    g.count name = (f.kept a.gone).countP (·.pool = name) + a.started.countP (·.pool = name) ∧
      a.started.countP (·.pool = name) ≤ (a.input.effects ρ).spawnsFor name := by
  unfold step at h
  split_ifs at h with hcond
  obtain rfl := Option.some.inj h
  refine ⟨List.countP_append, ?_⟩
  by_cases hnone : a.started.countP (·.pool = name) = 0
  · rw [hnone]
    exact Nat.zero_le _
  · obtain ⟨c, hc, hname⟩ := List.countP_pos_iff.1 (Nat.pos_of_ne_zero hnone)
    have hle := hcond.1 c hc
    rwa [of_decide_eq_true hname] at hle

theorem kept_le (gone : List String) :
    (f.kept gone).countP (·.pool = name) ≤ f.count name :=
  List.filter_sublist.countP_le

/-- A listing that names the containers alive is as long as they are many. -/
theorem kept_le_listed {gone : List String} {obs : Observations} (h : f.ListedBy gone name obs) :
    (f.kept gone).countP (·.pool = name) ≤ (runningContainers obs.running).dedup.length := by
  rw [List.countP_eq_length_filter, ← List.length_map (f := OwnedContainer.name)]
  have hnodup : (((f.kept gone).filter (·.pool = name)).map (·.name)).Nodup :=
    f.distinct.sublist ((List.filter_sublist.trans List.filter_sublist).map _)
  refine (List.subperm_of_subset hnodup fun n hn => ?_).length_le
  obtain ⟨c, hc, rfl⟩ := List.mem_map.1 hn
  obtain ⟨hkept, hpool⟩ := List.mem_filter.1 hc
  exact List.mem_dedup.2 (h c hkept (of_decide_eq_true hpool))

end Fleet

/-- The length of the listing is what an inspection counts as running. -/
theorem inspectPool_running {pool : PoolConfig} {obs : Observations} {i : PoolInspection}
    (h : (inspectPool pool obs).outcome = .ok i) :
    i.running = (runningContainers obs.running).dedup.length := by
  obtain ⟨runners, queued, -, -, rfl⟩ := inspectPool_ok h
  rfl

/-! ### A pool of its own -/

section Single

variable {pool : PoolConfig} {obs : Observations} {cap : CapView} {stopped : Bool}

/-- A tick starts no more than is missing to what it wants. -/
theorem tickSingle_spawnsFor {i : PoolInspection} (h : (inspectPool pool obs).outcome = .ok i)
    (name : String) : (tickSingle pool obs stopped cap).spawnsFor name ≤
      (min pool.maxRunners (max pool.minIdle ((i.busy : ℤ) + i.queued)) - i.running).toNat := by
  have hspawn : (if stopped then 0 else calculateSpawnCount pool i) ≤
      calculateSpawnCount pool i := by
    cases stopped
    · exact le_rfl
    · exact Nat.zero_le _
  have hgranted := (cap.reserve_le (if stopped then 0 else calculateSpawnCount pool i)).trans hspawn
  unfold tickSingle TickEffects.spawnsFor
  dsimp only
  rw [h]
  dsimp only
  generalize cap.reserve (if stopped then 0 else calculateSpawnCount pool i) = granted at hgranted ⊢
  rw [List.filter_cons, List.filter_nil]
  split_ifs
  · rw [List.map_singleton, List.sum_singleton]
    exact hgranted
  · exact Nat.zero_le _

theorem tickSingle_spawnsFor_error {e : PyError} (h : (inspectPool pool obs).outcome = .error e)
    (name : String) : (tickSingle pool obs stopped cap).spawnsFor name = 0 := by
  unfold tickSingle
  dsimp only
  rw [h]
  rfl

/-- The same for a whole tick, which may also do nothing. -/
theorem single_spawnsFor {t : TickInput} (hkind : t.pool.isPersonalLevel = false) (name : String) :
    (t.effects ρ).spawnsFor name ≤
      (t.desired ρ - (runningContainers t.obs.running).dedup.length).toNat := by
  have hnone : TickEffects.spawnsFor {} name = 0 := rfl
  unfold TickInput.effects
  split_ifs with hpaused hpoll hpersonal
  · rw [hnone]
    exact Nat.zero_le _
  · rw [hnone]
    exact Nat.zero_le _
  · rw [hkind] at hpersonal
    cases hpersonal
  · unfold TickInput.desired
    cases hout : (inspectPool t.pool (t.observed ρ)).outcome with
    | error e =>
      rw [tickSingle_spawnsFor_error hout]
      exact Nat.zero_le _
    | ok i =>
      have hle := @tickSingle_spawnsFor t.pool (t.observed ρ) t.cap (t.state.draining || t.hot) i
        hout name
      rw [inspectPool_running hout] at hle
      exact hle

/-- **A tick of a pool of its own** leaves no more containers than there were, or than it wants. -/
theorem single_step (hkind : a.input.pool.isPersonalLevel = false)
    (hname : a.input.pool.name = name) (hlisted : f.Listed a) (h : f.step ρ a = some g) :
    (g.count name : ℤ) ≤ max (f.count name : ℤ) (a.input.desired ρ) := by
  obtain ⟨hcount, hstarted⟩ := @Fleet.step_count ρ f g a name h
  have hkept : (f.kept a.gone).countP (·.pool = name) ≤ f.count name := f.kept_le a.gone
  have hspawns : a.started.countP (·.pool = name) ≤
      (a.input.desired ρ - (runningContainers a.input.obs.running).dedup.length).toNat :=
    hstarted.trans (single_spawnsFor hkind name)
  unfold Fleet.Listed at hlisted
  rw [hkind, if_neg Bool.false_ne_true, hname] at hlisted
  have hrunning := Fleet.kept_le_listed hlisted
  omega

/-- **The ticks of a pool of its own.** -/
theorem single_run {l : List FleetTick}
    (hkind : ∀ a ∈ l, a.input.pool.isPersonalLevel = false ∧ a.input.pool.name = name)
    (hlisted : Along (Fleet.step ρ) Fleet.Listed f l) (h : run (Fleet.step ρ) f l = some g) :
    (g.count name : ℤ) ≤ max (f.count name : ℤ) (largestDesired ρ l) := by
  have hlargest : ∀ a ∈ l, a.input.desired ρ ≤ largestDesired ρ l := fun a ha =>
    List.le_max_of_le' 0 (List.mem_map_of_mem ha) le_rfl
  have hok := along_and hlisted (@along_of_actions _ _ (Fleet.step ρ)
    (fun a => (a.input.pool.isPersonalLevel = false ∧ a.input.pool.name = name) ∧
      a.input.desired ρ ≤ largestDesired ρ l) l (fun a ha => ⟨hkind a ha, hlargest a ha⟩) f)
  refine run_invariant
    (I := fun u => (u.count name : ℤ) ≤ max (f.count name : ℤ) (largestDesired ρ l))
    (fun u a v hu hok hv => ?_) (le_max_left _ _) hok h
  obtain ⟨hlist, ⟨hkind, hname⟩, hle⟩ := hok
  have hstep := single_step hkind hname hlist hv
  exact hstep.trans (max_le hu (hle.trans (le_max_right _ _)))

end Single

/-! ### A personal pool -/

section Personal

variable {pool : PoolConfig} {repos : List String} {obs : String → Observations} {cap : CapView}
  {draining : Bool} {is : List PoolInspection}

theorem forRepository_name_inj {r s : String}
    (h : (pool.forRepository r).name = (pool.forRepository s).name) : r = s := by
  have hlist : pool.name.toList ++ '-' :: r.toList = pool.name.toList ++ '-' :: s.toList := by
    simpa [PoolConfig.forRepository, String.toList_append] using congrArg String.toList h
  have htail := List.append_cancel_left hlist
  exact String.toList_injective (List.cons_injective htail)

/-- The inspections of a personal tick are those of its repositories, in another order. -/
theorem collectInspections_repos (h : collectInspections
      (repos.map fun repo => inspectPool (pool.forRepository repo) (obs repo)) = some is) :
    ∃ collected, is.Perm collected ∧ List.Forall₂ (fun repo i =>
      (inspectPool (pool.forRepository repo) (obs repo)).outcome = .ok i) repos collected := by
  obtain ⟨collected, hperm, hall⟩ := collectInspections_some h
  exact ⟨collected, hperm, List.forall₂_map_left_iff.1 hall⟩

theorem forall₂_pool {collected : List PoolInspection} (hall : List.Forall₂ (fun repo i =>
      (inspectPool (pool.forRepository repo) (obs repo)).outcome = .ok i) repos collected) :
    collected.map (·.pool) = repos.map pool.forRepository := by
  induction hall with
  | nil => rfl
  | cons hok _ ih => rw [List.map_cons, List.map_cons, ih, inspectPool_pool hok]

theorem collectInspections_names (hd : repos.Nodup) (h : collectInspections
      (repos.map fun repo => inspectPool (pool.forRepository repo) (obs repo)) = some is) :
    (is.map fun i => i.pool.name).Nodup := by
  obtain ⟨collected, hperm, hall⟩ := collectInspections_repos h
  have hnames : collected.map (fun i => i.pool.name) =
      repos.map fun repo => (pool.forRepository repo).name := by
    have hpools := congrArg (List.map PoolConfig.name) (forall₂_pool hall)
    rwa [List.map_map, List.map_map] at hpools
  rw [(hperm.map _).nodup_iff, hnames]
  exact hd.map fun _ _ => forRepository_name_inj

/-- The slots a personal tick is granted. -/
def personalGranted (pool : PoolConfig) (is : List PoolInspection) (draining : Bool)
    (cap : CapView) : ℕ :=
  cap.reserve (if draining then 0 else personalRequest pool is)

theorem personalGranted_le (pool : PoolConfig) (is : List PoolInspection) (draining : Bool)
    (cap : CapView) : personalGranted pool is draining cap ≤ personalRequest pool is := by
  refine (cap.reserve_le _).trans ?_
  cases draining
  · exact le_rfl
  · exact Nat.zero_le _

/-- What a personal tick may start for a repository: what the round robin allocates. -/
theorem tickPersonal_spawnsFor (hd : repos.Nodup) (h : collectInspections
      (repos.map fun repo => inspectPool (pool.forRepository repo) (obs repo)) = some is)
    {i : PoolInspection} (hi : i ∈ is) :
    (tickPersonal pool repos obs draining cap).spawnsFor i.pool.name =
      (allocated is (personalGranted pool is draining cap)).allocations i.pool.repo := by
  have hperm : (orderedInspections is).Perm is := perm_orderedInspections is
  have hnames : ((orderedInspections is).map fun j => j.pool.name).Nodup :=
    (hperm.map _).nodup_iff.2 (collectInspections_names hd h)
  unfold tickPersonal TickEffects.spawnsFor
  dsimp only
  rw [h]
  dsimp only
  rw [personalAllocations_eq, List.filter_map, List.map_map]
  exact sum_filter_key hnames (hperm.symm.subset hi) _

/-- **The spawns of a personal tick** are the granted slots, all of them. -/
theorem sum_spawnsFor (hd : repos.Nodup) (h : collectInspections
      (repos.map fun repo => inspectPool (pool.forRepository repo) (obs repo)) = some is) :
    (repos.map fun repo => (tickPersonal pool repos obs draining cap).spawnsFor
      (pool.forRepository repo).name).sum = personalGranted pool is draining cap := by
  obtain ⟨collected, hperm, hall⟩ := collectInspections_repos h
  have hrepos : (repos.map fun repo => (tickPersonal pool repos obs draining cap).spawnsFor
        (pool.forRepository repo).name) =
      collected.map fun i => (tickPersonal pool repos obs draining cap).spawnsFor i.pool.name := by
    have hpools := congrArg (List.map fun p : PoolConfig =>
      (tickPersonal pool repos obs draining cap).spawnsFor p.name) (forall₂_pool hall)
    rw [List.map_map, List.map_map] at hpools
    exact hpools.symm
  have hspawns :
      (is.map fun i => (tickPersonal pool repos obs draining cap).spawnsFor i.pool.name) =
      is.map fun i =>
        (allocated is (personalGranted pool is draining cap)).allocations i.pool.repo :=
    List.map_congr_left fun i hi => tickPersonal_spawnsFor hd h hi
  have hneeded : personalGranted pool is draining cap ≤ (is.map (·.needed)).sum :=
    (personalGranted_le pool is draining cap).trans (min_le_right _ _)
  have hsum := personalAllocations_sum ⟨is, collectInspections_distinct hd h⟩ hneeded
  rw [personalAllocations_eq, List.map_map] at hsum
  rw [hrepos, ← (hperm.map _).sum_eq, hspawns,
    ← ((perm_orderedInspections is).map _).sum_eq]
  exact hsum

/-- What the inspections count as running, by repository. -/
theorem sum_running (h : collectInspections
      (repos.map fun repo => inspectPool (pool.forRepository repo) (obs repo)) = some is) :
    (is.map (·.running)).sum =
      (repos.map fun repo => (runningContainers (obs repo).running).dedup.length).sum := by
  obtain ⟨collected, hperm, hall⟩ := collectInspections_repos h
  rw [(hperm.map _).sum_eq]
  clear h hperm
  induction hall with
  | nil => rfl
  | cons hok _ ih => rw [List.map_cons, List.map_cons, List.sum_cons, List.sum_cons, ih,
      inspectPool_running hok]

/-- A tick of a personal pool starts nothing, or is the tick of its inspections. -/
theorem personal_effects {t : TickInput} (hkind : t.pool.isPersonalLevel = true) :
    (∀ name, (t.effects ρ).spawnsFor name = 0) ∨
      ∃ repos, t.repositories = .ok repos ∧ ∃ is,
        collectInspections (t.repositoryRuns repos) = some is ∧
          t.effects ρ = tickPersonal t.pool repos.names t.repoObs t.state.draining t.cap := by
  have hnone : ∀ name, TickEffects.spawnsFor {} name = 0 := fun _ => rfl
  unfold TickInput.effects
  split_ifs with hpaused hpoll
  · exact Or.inl hnone
  · exact Or.inl hnone
  · cases hrepos : t.repositories with
    | error e => exact Or.inl hnone
    | ok repos =>
      dsimp only
      split_ifs with hempty
      · exact Or.inl hnone
      · cases his : collectInspections (t.repositoryRuns repos) with
        | none =>
          refine Or.inl fun name => ?_
          unfold TickInput.repositoryRuns at his
          unfold tickPersonal
          dsimp only
          rw [his]
          rfl
        | some is => exact Or.inr ⟨repos, rfl, is, his, rfl⟩

/-- **A personal tick** leaves no more containers of a repository than there were, or than its jobs
need. -/
theorem personal_step {rs : RepositoryNames} (hkind : a.input.pool.isPersonalLevel = true)
    (hrepos : ∀ rs', a.input.repositories = .ok rs' → rs' = rs) (hlisted : f.Listed a)
    (h : f.step ρ a = some g) {repo : String} (hrepo : repo ∈ rs.names) {wanted : ℕ}
    (hwanted : ∀ i, (inspectPool (a.input.pool.forRepository repo) (a.input.repoObs repo)).outcome =
      .ok i → i.busy + i.queued ≤ wanted) :
    g.count (a.input.pool.forRepository repo).name ≤
      max (f.count (a.input.pool.forRepository repo).name) wanted := by
  obtain ⟨hcount, hstarted⟩ :=
    @Fleet.step_count ρ f g a (a.input.pool.forRepository repo).name h
  have hkept := @Fleet.kept_le f (a.input.pool.forRepository repo).name a.gone
  rcases personal_effects (ρ := ρ) hkind with hnone | ⟨rs', hrs, is, his, heffects⟩
  · rw [hnone] at hstarted
    omega
  · obtain rfl := hrepos rs' hrs
    unfold Fleet.Listed at hlisted
    rw [if_pos hkind] at hlisted
    have hrunning := Fleet.kept_le_listed (hlisted rs' hrs repo hrepo)
    -- The inspection of the repository is among those of the tick.
    obtain ⟨collected, hperm, hall⟩ := collectInspections_repos his
    obtain ⟨i, hi, hok⟩ := exists_mem_of_forall₂_left hall hrepo
    have hmem : i ∈ is := hperm.symm.subset hi
    have hpool : i.pool = a.input.pool.forRepository repo := inspectPool_pool hok
    have hdistinct := collectInspections_distinct rs'.distinct his
    rw [heffects, ← hpool, tickPersonal_spawnsFor rs'.distinct his hmem] at hstarted
    have hle := hstarted.trans (allocated_le hdistinct _ hmem)
    unfold PoolInspection.needed at hle
    have hneed := hwanted i hok
    rw [inspectPool_running hok] at hle
    rw [← hpool] at hcount hkept hrunning ⊢
    omega

/-- **A personal tick** leaves no more containers of the account than there were, or than its limit
allows. -/
theorem personal_step_sum {rs : RepositoryNames} (hkind : a.input.pool.isPersonalLevel = true)
    (hrepos : ∀ rs', a.input.repositories = .ok rs' → rs' = rs) (hlisted : f.Listed a)
    (h : f.step ρ a = some g) :
    (g.accountCount a.input.pool rs : ℤ) ≤
      max (f.accountCount a.input.pool rs : ℤ) a.input.pool.maxRunners := by
  unfold Fleet.accountCount
  have hkept : (rs.names.map fun repo => (f.kept a.gone).countP
        (·.pool = (a.input.pool.forRepository repo).name)).sum ≤
      (rs.names.map fun repo => f.count (a.input.pool.forRepository repo).name).sum :=
    List.sum_le_sum fun repo _ => f.kept_le a.gone
  have hcount : (rs.names.map fun repo => g.count (a.input.pool.forRepository repo).name).sum ≤
      (rs.names.map fun repo => (f.kept a.gone).countP
        (·.pool = (a.input.pool.forRepository repo).name)).sum +
      (rs.names.map fun repo =>
        (a.input.effects ρ).spawnsFor (a.input.pool.forRepository repo).name).sum := by
    rw [← List.sum_map_add]
    refine List.sum_le_sum fun repo _ => ?_
    obtain ⟨hsplit, hstarted⟩ :=
      @Fleet.step_count ρ f g a (a.input.pool.forRepository repo).name h
    omega
  rcases personal_effects (ρ := ρ) hkind with hnone | ⟨rs', hrs, is, his, heffects⟩
  · have hzero : (rs.names.map fun repo =>
        (a.input.effects ρ).spawnsFor (a.input.pool.forRepository repo).name).sum = 0 := by
      simp only [hnone, List.map_const', List.sum_replicate, smul_zero]
    omega
  · obtain rfl := hrepos rs' hrs
    unfold Fleet.Listed at hlisted
    rw [if_pos hkind] at hlisted
    have hrunning : (rs'.names.map fun repo => (f.kept a.gone).countP
          (·.pool = (a.input.pool.forRepository repo).name)).sum ≤
        (rs'.names.map fun repo =>
          (runningContainers (a.input.repoObs repo).running).dedup.length).sum :=
      List.sum_le_sum fun repo hrepo => Fleet.kept_le_listed (hlisted rs' hrs repo hrepo)
    rw [heffects, sum_spawnsFor rs'.distinct his] at hcount
    have hgranted := personalGranted_le a.input.pool is a.input.state.draining a.input.cap
    unfold personalRequest at hgranted
    rw [sum_running his] at hgranted
    dsimp only at hgranted
    omega

end Personal

/-- The ticks of a personal pool, while its repositories and what their jobs need stay the same. -/
structure PersonalTicks (pool : PoolConfig) (repos : RepositoryNames) (wanted : String → ℕ)
    (a : FleetTick) : Prop where
  samePool : a.input.pool = pool
  sameRepositories : ∀ rs, a.input.repositories = .ok rs → rs = repos
  wanted : ∀ repo ∈ repos.names, ∀ i, (inspectPool (pool.forRepository repo)
    (a.input.repoObs repo)).outcome = .ok i → i.busy + i.queued = wanted repo

/-- **The ticks of a personal pool.** -/
theorem personal_run {pool : PoolConfig} (hkind : pool.isPersonalLevel = true)
    {repos : RepositoryNames} {wanted : String → ℕ} {l : List FleetTick}
    (hticks : ∀ a ∈ l, PersonalTicks pool repos wanted a)
    (hlisted : Along (Fleet.step ρ) Fleet.Listed f l) (h : run (Fleet.step ρ) f l = some g) :
    (∀ repo ∈ repos.names, g.count (pool.forRepository repo).name ≤
      max (f.count (pool.forRepository repo).name) (wanted repo)) ∧
    (g.accountCount pool repos : ℤ) ≤ max (f.accountCount pool repos : ℤ) pool.maxRunners := by
  have hok := along_and hlisted (@along_of_actions _ _ (Fleet.step ρ) _ l hticks f)
  refine run_invariant (I := fun u => (∀ repo ∈ repos.names,
      u.count (pool.forRepository repo).name ≤
        max (f.count (pool.forRepository repo).name) (wanted repo)) ∧
      (u.accountCount pool repos : ℤ) ≤ max (f.accountCount pool repos : ℤ) pool.maxRunners)
    (fun u a v hu hok hv => ?_) ⟨fun _ _ => le_max_left _ _, le_max_left _ _⟩ hok h
  obtain ⟨hlist, hsame, hrepos, hwanted⟩ := hok
  subst hsame
  refine ⟨fun repo hrepo => ?_, ?_⟩
  · have hstep := personal_step hkind hrepos hlist hv hrepo fun i hi => (hwanted repo hrepo i hi).le
    exact hstep.trans (max_le (hu.1 repo hrepo) (le_max_right _ _))
  · have hstep := personal_step_sum hkind hrepos hlist hv
    exact hstep.trans (max_le hu.2 (le_max_right _ _))

/-- **No job is provisioned for twice**, in a run whose listings name what is alive. -/
theorem notTwice (ρ : Rounding) (f g : Fleet) (l : List FleetTick)
    (hlisted : Along (Fleet.step ρ) Fleet.Listed f l) (h : run (Fleet.step ρ) f l = some g) :
    (∀ name, (∀ a ∈ l, a.input.pool.isPersonalLevel = false ∧ a.input.pool.name = name) →
      (g.count name : ℤ) ≤ max (f.count name : ℤ) (largestDesired ρ l)) ∧
    ∀ pool repos wanted, pool.isPersonalLevel = true →
      (∀ a ∈ l, PersonalTicks pool repos wanted a) →
      (∀ repo ∈ repos.names, g.count (pool.forRepository repo).name ≤
        max (f.count (pool.forRepository repo).name) (wanted repo)) ∧
      (g.accountCount pool repos : ℤ) ≤ max (f.accountCount pool repos : ℤ) pool.maxRunners :=
  ⟨fun _ hkind => single_run hkind hlisted h,
    fun _ _ _ hkind hticks => personal_run hkind hticks hlisted h⟩

/-! ### One job, two runners -/

/-- A pool that starts a runner when a job is queued. -/
def onDemandPool : PoolConfig := { name := "ci", pat := "token", owner := "acme", minIdle := 0 }

/-- A tick that finds one queued job, no runner at GitHub yet, and this answer to `docker ps`. -/
def oneJobInput (running : CommandResult (List String)) : TickInput where
  pool := onDemandPool
  state := {}
  now := 0
  nextPollAt := 0
  federation := none
  obs := { queuedObs with running := running }
  scan := .ok ⟨1, 0, [.finite 5]⟩
  repositories := .ok ⟨[], List.nodup_nil⟩
  repoObs _ := queuedObs
  cap := ⟨0, 0, ⟨[], 0⟩⟩

/-- A host without containers. -/
def noFleet : Fleet := ⟨[], List.nodup_nil⟩

/-- A tick that starts a runner for the job, and another after the listing `running`. -/
def twoTicks (running : CommandResult (List String)) (again : List OwnedContainer) :
    List FleetTick :=
  [⟨oneJobInput ⟨[], 0⟩, [], [⟨"ci", "gh-runner-ci-0a1b2c3d"⟩]⟩, ⟨oneJobInput running, [], again⟩]

/-- **The listing of the second tick fails**, and it starts a second runner for the one job. -/
theorem twice : ∃ g, run (Fleet.step .exact) noFleet
      (twoTicks ⟨[], 1⟩ [⟨"ci", "gh-runner-ci-1a1b2c3d"⟩]) = some g ∧
    (∀ a ∈ twoTicks ⟨[], 1⟩ [⟨"ci", "gh-runner-ci-1a1b2c3d"⟩],
      a.input.pool.isPersonalLevel = false ∧ a.input.pool.name = "ci") ∧
    ¬ (g.count "ci" : ℤ) ≤ max (noFleet.count "ci" : ℤ)
      (largestDesired .exact (twoTicks ⟨[], 1⟩ [⟨"ci", "gh-runner-ci-1a1b2c3d"⟩])) := by
  have hcount : (run (Fleet.step .exact) noFleet
      (twoTicks ⟨[], 1⟩ [⟨"ci", "gh-runner-ci-1a1b2c3d"⟩])).map (fun g => g.count "ci") = some 2 := by
    decide +kernel
  obtain ⟨g, hg, htwo⟩ := Option.map_eq_some_iff.1 hcount
  refine ⟨g, hg, by decide +kernel, ?_⟩
  rw [htwo]
  decide +kernel

/-- When the second tick lists the runner, it starts none. -/
theorem notTwice_listed : ∃ g, run (Fleet.step .exact) noFleet
      (twoTicks ⟨["gh-runner-ci-0a1b2c3d"], 0⟩ []) = some g ∧
    (g.count "ci" : ℤ) ≤ max (noFleet.count "ci" : ℤ)
      (largestDesired .exact (twoTicks ⟨["gh-runner-ci-0a1b2c3d"], 0⟩ [])) := by
  have hsome : ((run (Fleet.step .exact) noFleet
      (twoTicks ⟨["gh-runner-ci-0a1b2c3d"], 0⟩ [])).map fun g => g.count "ci") = some 1 := by
    decide +kernel
  obtain ⟨g, hg, -⟩ := Option.map_eq_some_iff.1 hsome
  have hlisted : Along (Fleet.step .exact) Fleet.Listed noFleet
      (twoTicks ⟨["gh-runner-ci-0a1b2c3d"], 0⟩ []) := by
    refine ⟨fun c hc => absurd hc List.not_mem_nil,
      fun t ht => ⟨fun c hc _ => ?_, fun _ _ => trivial⟩⟩
    have hfirst : (Fleet.step .exact noFleet ⟨oneJobInput ⟨[], 0⟩, [],
        [⟨"ci", "gh-runner-ci-0a1b2c3d"⟩]⟩).map (·.containers) =
        some [⟨"ci", "gh-runner-ci-0a1b2c3d"⟩] := by
      decide +kernel
    rw [ht, Option.map_some, Option.some_inj] at hfirst
    have hmem : c ∈ t.containers := (List.mem_filter.1 hc).1
    rw [hfirst, List.mem_singleton] at hmem
    rw [hmem]
    decide +kernel
  exact ⟨g, hg, (notTwice .exact noFleet g _ hlisted hg).1 "ci" (by decide +kernel)⟩

end RunnerSwarm
