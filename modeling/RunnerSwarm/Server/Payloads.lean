import Mathlib.Data.String.Basic
import RunnerSwarm.Server.Deps

/-!
# JSON and Prometheus views

What `/api/state` and `/metrics` show of the store and the containers.

A personal pool is inspected repository by repository, and each repository leaves its snapshots
under the name `{pool}-{repo}`; `groupSnapshots` gives them back to the pool.

* `poolToDict_congr`: what is shown of a pool does not depend on its PAT;
* `parentOf_eq_some`: the pool a snapshot is given to has the longest name that fits;
* `statePayload_congr` and `prometheus_congr`: of the configuration both show only what
  `poolToDict` does, so no PAT.
-/

namespace RunnerSwarm

/-! ### Pools -/

/-- `pool_to_dict`: the PAT is never included. -/
def poolToDict (p : PoolConfig) : List (String × Json) :=
  [("name", .str p.name), ("owner", .str p.owner), ("repo", .str p.repo), ("scope", .str p.scope),
    ("repo_discovery_ttl", .int p.repoDiscoveryTtl),
    ("github_poll_interval", .int p.githubPollInterval),
    ("queued_min_age", .int p.queuedMinAge), ("instance", .str p.instance),
    ("stuck_timeout", .int p.stuckTimeout), ("repo_check_workers", .int p.repoCheckWorkers),
    ("runner_operation_workers", .int p.runnerOperationWorkers),
    ("max_runners", .int p.maxRunners), ("min_idle", .int p.minIdle),
    ("runner_labels", .str p.runnerLabels), ("runner_image", .str p.runnerImage),
    ("memory_limit", .str p.memoryLimit), ("cpu_limit", .float p.cpuLimit),
    ("work_tmpfs_size", .str p.workTmpfsSize), ("network_mode", .str p.networkMode),
    ("include_public_repos", .bool p.includePublicRepos), ("exclude_repos", .str p.excludeRepos),
    ("job_started_hook", .str p.jobStartedHook), ("provider", .str p.provider),
    ("base_url", .str p.baseUrl), ("display", .str p.display),
    ("container_prefix", .str p.containerPrefix)]

/-- **No PAT is shown**: two pools that differ in nothing else are shown alike. -/
theorem poolToDict_congr {p q : PoolConfig} (h : { p with pat := q.pat } = q) :
    poolToDict p = poolToDict q := by
  rw [← h]
  rfl

/-! ### Snapshots of repositories -/

/-- `COUNTERS`, with the columns they name. -/
def counters : List (String × (SnapshotRow → ℤ)) :=
  [("containers", (·.containers)), ("online", (·.online)), ("idle", (·.idle)), ("busy", (·.busy)),
    ("queued", (·.queued))]

/-- `sorted(pool_names, key=len, reverse=True)`. -/
def longestFirst (poolNames : List String) : List String :=
  poolNames.insertionSort fun a b => b.length ≤ a.length

/-- The pool that gets the snapshot stored under `key`; a pool keeps its own. -/
def parentOf (poolNames : List String) (key : String) : Option String :=
  if key ∈ poolNames then none
  else (longestFirst poolNames).find? fun name => startsWith key (name ++ "-")

/-- `group_snapshots`, at one pool. -/
def groupSnapshots (poolNames : List String) (snapshots : Table String SnapshotRow)
    (name : String) : List SnapshotRow :=
  ((snapshots.rows.filter fun entry => parentOf poolNames entry.1 = some name).map
    Prod.snd).insertionSort fun a b => a.pool ≤ b.pool

theorem mem_longestFirst {poolNames : List String} {name : String} :
    name ∈ longestFirst poolNames ↔ name ∈ poolNames :=
  (List.perm_insertionSort _ poolNames).mem_iff

theorem longestFirst_pairwise (poolNames : List String) :
    (longestFirst poolNames).Pairwise fun a b => b.length ≤ a.length := by
  have htotal : Std.Total fun a b : String => b.length ≤ a.length := ⟨fun _ _ => Nat.le_total _ _⟩
  have htrans : IsTrans String fun a b => b.length ≤ a.length := ⟨fun _ _ _ hab hbc => hbc.trans hab⟩
  exact List.pairwise_insertionSort _ poolNames

/-- What `find?` returns stands before everything else that satisfies the condition. -/
theorem find?_pairwise {α : Type*} {R : α → α → Prop} [Std.Refl R] {l : List α} {p : α → Bool}
    {a b : α} (hl : l.Pairwise R) (hfind : l.find? p = some a) (hb : b ∈ l) (hp : p b = true) :
    R a b := by
  induction l with
  | nil => cases hb
  | cons c l ih =>
    obtain ⟨hc, hrest⟩ := List.pairwise_cons.1 hl
    rw [List.find?_cons] at hfind
    rcases List.mem_cons.1 hb with rfl | hb
    · rw [hp] at hfind
      obtain rfl := Option.some.inj hfind
      exact Std.Refl.refl _
    · cases hpc : p c with
      | true =>
        rw [hpc] at hfind
        obtain rfl := Option.some.inj hfind
        exact hc b hb
      | false =>
        rw [hpc] at hfind
        exact ih hrest hfind hb

/-- **The longest name that fits** gets the snapshot. -/
theorem parentOf_eq_some {poolNames : List String} {key name : String}
    (h : parentOf poolNames key = some name) :
    name ∈ poolNames ∧ startsWith key (name ++ "-") = true ∧ key ∉ poolNames ∧
      ∀ other ∈ poolNames, startsWith key (other ++ "-") = true → other.length ≤ name.length := by
  unfold parentOf at h
  split_ifs at h with hkey
  have hrefl : Std.Refl fun a b : String => b.length ≤ a.length := ⟨fun _ => le_refl _⟩
  refine ⟨mem_longestFirst.1 (List.mem_of_find?_eq_some h), ?_, hkey, fun other hother hfits => ?_⟩
  · have hfits := List.find?_some h
    exact hfits
  · have hfirst := longestFirst_pairwise poolNames
    exact @find?_pairwise _ _ hrefl _ _ _ _ hfirst h (mem_longestFirst.2 hother) hfits

/-- A pool is given nothing but snapshots that are nobody's own. -/
theorem mem_groupSnapshots {poolNames : List String} {snapshots : Table String SnapshotRow}
    {name : String} {row : SnapshotRow} :
    row ∈ groupSnapshots poolNames snapshots name ↔
      ∃ key, snapshots.get key = some row ∧ parentOf poolNames key = some name := by
  unfold groupSnapshots
  rw [List.mem_insertionSort, List.mem_map]
  constructor
  · rintro ⟨⟨key, _⟩, hmem, rfl⟩
    obtain ⟨hrow, hparent⟩ := List.mem_filter.1 hmem
    exact ⟨key, Table.get_eq_some_iff.2 hrow, by simpa using hparent⟩
  · rintro ⟨key, hrow, hparent⟩
    refine ⟨(key, row), List.mem_filter.2 ⟨Table.get_eq_some_iff.1 hrow, ?_⟩, rfl⟩
    simpa using hparent

/-- `max((…), default=0.0)`. -/
def maxOrZero (xs : List ℚ) : ℚ := xs.max?.getD 0

/-- `_rollup`. -/
def rollup (own : Option SnapshotRow) (children : List SnapshotRow) : List (String × Json) :=
  match own with
  | some row =>
      counters.map (fun c => (c.1, .int (c.2 row))) ++
        [("duration", jsonNumber row.duration), ("last_tick", jsonNumber row.ts)]
  | none =>
      counters.map (fun c => (c.1, .int (children.map c.2).sum)) ++
        [("duration", jsonNumber (maxOrZero (children.map (·.duration)))),
          ("last_tick", jsonNumber (maxOrZero (children.map (·.ts))))]

/-! ### `/api/state` -/

/-- `state_for`. -/
def EffectiveConfig.stateFor (effective : EffectiveConfig) (poolName : String) : PoolState :=
  (effective.states.get poolName).getD {}

/-- A repository with something to show. -/
def repoJson (row : SnapshotRow) : Option Json :=
  if counters.any fun c => c.2 row ≠ 0 then
    some (.dict (counters.map (fun c => (c.1, .int (c.2 row))) ++ [("name", .str row.pool)]))
  else none

/-- One entry of `pools`. -/
def poolPayload (effective : EffectiveConfig) (snapshots : Table String SnapshotRow)
    (pool : PoolConfig) : Json :=
  let kids := groupSnapshots (effective.pools.map (·.name)) snapshots pool.name
  let state := effective.stateFor pool.name
  .dict ([("config", .dict (poolToDict pool)), ("paused", .bool state.paused),
      ("draining", .bool state.draining)] ++
    rollup (snapshots.get pool.name) kids ++
    [("repos", .list (kids.filterMap repoJson)), ("repo_count", .int kids.length)])

/-- One entry of `containers`. -/
def containerPayload (store : Store) (isProtected : List String) (info : ContainerInfo) : Json :=
  .dict [("name", .str info.name), ("image", .str info.image), ("status", .str info.status),
    ("running_for", .str info.runningFor), ("minutes", .float info.minutes.roundTenth),
    ("protected", .bool (info.name ∈ isProtected)),
    ("github", (store.runnerStatus.get info.name).elim (.dict []) RunnerStatus.json),
    ("job", (jobsByRunner store.runnerJobs info.name).elim .null CurrentJob.json)]

/-- `_state_payload`, from the resolved configuration. -/
def statePayload (site : Site) (w : World) (docker : DockerAnswers) (now : ℚ)
    (effective : EffectiveConfig) : List (String × Json) :=
  let snapshots := w.store.latestSnapshots
  let containers := (containerDetails site.nameFilter docker w.containers
    globalContainerPrefix).filter (·.name ≠ orchestratorContainer)
  [("pools", .list (effective.pools.map (poolPayload effective snapshots))),
    ("containers",
      .list (containers.map (containerPayload w.store effective.protectedContainers))),
    ("jobs", .list ((w.store.recentJobs 25).map fun job => job.2.json job.1)),
    ("version", .str site.version),
    ("globals", .dict [("max_total_runners", .int effective.maxTotalRunners),
      ("max_runner_lifetime", .int effective.maxRunnerLifetime),
      ("paused", .bool effective.paused), ("total_containers", .int containers.length)]),
    ("rate_limit", .dict w.rateLimit),
    ("events", .list ((w.store.recentEvents 25).map EventRow.json))] ++
    w.hostState ++ [("ts", jsonNumber now)]

/-! ### `/metrics` -/

/-- The metrics of a pool, with their help texts. -/
def poolMetrics : List (String × String × (SnapshotRow → ℤ)) :=
  [("containers", "Runner containers currently running.", (·.containers)),
    ("online", "Runners GitHub reports online.", (·.online)),
    ("idle", "Online runners not executing a job.", (·.idle)),
    ("busy", "Online runners executing a job.", (·.busy)),
    ("queued", "Queued jobs waiting for a runner.", (·.queued))]

/-- The two comment lines before the samples of a metric. -/
def metricHeader (name help : String) : List String :=
  ["# HELP " ++ name ++ " " ++ help, "# TYPE " ++ name ++ " gauge"]

/-- A sample with one label. -/
def sampleLine (name label key value : String) : String :=
  name ++ "\x7b" ++ label ++ "=\"" ++ key ++ "\"\x7d " ++ value

/-- The keys a series is emitted for: the snapshots', else the pools'. -/
def metricKeys (effective : EffectiveConfig) (snapshots : Table String SnapshotRow) : List String :=
  let keys := (snapshots.rows.map Prod.fst).insertionSort (· ≤ ·)
  if keys = [] then effective.pools.map (·.name) else keys

/-- The lines of one metric. -/
def poolMetricLines (keys : List String) (snapshots : Table String SnapshotRow)
    (metric : String × String × (SnapshotRow → ℤ)) : List String :=
  metricHeader ("rorch_pool_" ++ metric.1) metric.2.1 ++ keys.map fun key =>
    sampleLine ("rorch_pool_" ++ metric.1) "pool" key
      (toString ((snapshots.get key).elim 0 metric.2.2))

/-- `_prometheus`, from the resolved configuration. -/
def prometheus (w : World) (now : ℚ) (effective : EffectiveConfig) : String :=
  let snapshots := w.store.latestSnapshots
  let counts := (w.store.eventCountsSince now (.finite 24)).rows.insertionSort fun a b => a.1 ≤ b.1
  let lines := poolMetrics.flatMap (poolMetricLines (metricKeys effective snapshots) snapshots) ++
    metricHeader "rorch_events_24h" "Runner lifecycle events in the last 24 hours." ++
    counts.map (fun c => sampleLine "rorch_events_24h" "event" c.1 (toString c.2)) ++
    metricHeader "rorch_max_total_runners" "Global ceiling (0 = unlimited)." ++
    ["rorch_max_total_runners " ++ toString effective.maxTotalRunners] ++
    metricHeader "rorch_paused" "Whether all provisioning is paused." ++
    ["rorch_paused " ++ if effective.paused then "1" else "0"] ++
    match getItem w.rateLimit "remaining" with
    | none => []
    | some .null => []
    | some remaining =>
        metricHeader "rorch_github_rate_remaining" "Last seen GitHub API budget." ++
          ["rorch_github_rate_remaining " ++ pyStr remaining]
  "\n".intercalate lines ++ "\n"

/-! ### No PAT is shown -/

/-- The configuration with other PATs. -/
def EffectiveConfig.withPats (effective : EffectiveConfig) (pat : PoolConfig → String) :
    EffectiveConfig :=
  { effective with pools := effective.pools.map fun p => { p with pat := pat p } }

variable (effective : EffectiveConfig) (pat : PoolConfig → String)

theorem names_withPats :
    (effective.withPats pat).pools.map (·.name) = effective.pools.map (·.name) := by
  rw [EffectiveConfig.withPats, List.map_map]
  rfl

theorem statePayload_congr (site : Site) (w : World) (docker : DockerAnswers) (now : ℚ) :
    statePayload site w docker now (effective.withPats pat) =
      statePayload site w docker now effective := by
  have hpool : ∀ snapshots p, poolPayload (effective.withPats pat) snapshots { p with pat := pat p } =
      poolPayload effective snapshots p := fun snapshots p => by
    unfold poolPayload
    rw [names_withPats]
    rfl
  have hpools : ∀ snapshots, (effective.withPats pat).pools.map
      (poolPayload (effective.withPats pat) snapshots) =
      effective.pools.map (poolPayload effective snapshots) := fun snapshots => by
    rw [EffectiveConfig.withPats, List.map_map]
    exact List.map_congr_left fun p _ => hpool snapshots p
  unfold statePayload
  dsimp only
  rw [hpools]
  rfl

theorem prometheus_congr (w : World) (now : ℚ) :
    prometheus w now (effective.withPats pat) = prometheus w now effective := by
  unfold prometheus metricKeys
  rw [names_withPats]
  rfl

end RunnerSwarm
