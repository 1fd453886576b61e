import RunnerSwarm.Config.Identity
import RunnerSwarm.Config.Loader
import RunnerSwarm.Lib.Text

/-!
# What the orchestrator starts with

`loadConfig` takes the pools from `config.yml`, or a single one from the environment when there is
no such file, and `loadMaxTotalRunners` and `loadMaxRunnerLifetime` the global bounds. What they
return is the base of the resolver (`BuiltFrom`).

The loader writes some fields in one form: without capitals, without blanks at the ends. An override
keeps part of this.

* `Settled`: the fields of a pool that are in this form wherever they come from;
* `resolve_settled`: they are, in every pool of an effective configuration;
* `resolve_bounds`: its bounds are not negative.
-/

namespace RunnerSwarm

section Sources

variable (safeLoad : String → Except PyError Json)
  (lookup : String → Except PyError (Option String))

/-- `os.environ.get(name, default)`. -/
def envGet (name default : String) : Except PyError String := do
  return (← lookup name).getD default

/-- `int(os.environ.get(name, default))`. -/
def envInt (name default : String) : Except PyError ℤ := do
  pyInt (.str (← envGet lookup name default))

/-- `_load_from_env`. -/
def loadFromEnv : Except PyError PoolConfig := do
  let scope := lower (← envGet lookup "GITHUB_SCOPE" "organization")
  return {
    name := "default"
    pat := ← envGet lookup "GITHUB_PAT" ""
    owner := ← envGet lookup "GITHUB_OWNER" ""
    repo := ← envGet lookup "GITHUB_REPO" ""
    scope := scope
    repoDiscoveryTtl := ← envInt lookup "REPO_DISCOVERY_TTL" "600"
    githubPollInterval := ← envInt lookup "GITHUB_POLL_INTERVAL" "60"
    stuckTimeout := ← envInt lookup "STUCK_TIMEOUT" "8"
    repoCheckWorkers := ← envInt lookup "REPO_CHECK_WORKERS" "6"
    runnerOperationWorkers := ← envInt lookup "RUNNER_OPERATION_WORKERS" "4"
    maxRunners := ← envInt lookup "MAX_RUNNERS" "3"
    minIdle := ← envInt lookup "MIN_IDLE" (if scope = "personal" then "0" else "1")
    runnerLabels := ← envGet lookup "RUNNER_LABELS" "self-hosted,linux,x64,docker"
    runnerImage := ← envGet lookup "RUNNER_IMAGE" defaultRunnerImage
    networkMode := lower (← envGet lookup "RUNNER_NETWORK_MODE" "host")
    workTmpfsSize := strip (← envGet lookup "RUNNER_WORK_TMPFS_SIZE" "auto")
    includePublicRepos :=
      lower (← envGet lookup "INCLUDE_PUBLIC_REPOS" "") ∈ ["1", "true", "yes"]
    excludeRepos := ← envGet lookup "EXCLUDE_REPOS" "" }

/-- `load_config`, on the text of the file if there is one. -/
def loadConfig : Option String → Except PyError (List PoolConfig)
  | some text => do loadFromYaml (fun name => envGet lookup name "") (← safeLoad text)
  | none => do return [← loadFromEnv lookup]

/-- The value of a global bound, from `key` of the file or from an environment variable. -/
def readBound (key name : String) : Option String → Except PyError ℤ
  | some text => do
      let raw ← safeLoad text
      let config ← asDict (if pyBool raw then raw else .dict [])
      pyInt (getOr config key (.int 0))
  | none => envInt lookup name "0"

/-- A global bound; `none` is the exit because of a negative one. -/
def loadBound (key name : String) (file : Option String) : Except PyError (Option ℤ) := do
  let value ← readBound safeLoad lookup key name file
  return if value < 0 then none else some value

/-- `load_max_total_runners`. -/
def loadMaxTotalRunners : Option String → Except PyError (Option ℤ) :=
  loadBound safeLoad lookup "max_total_runners" "MAX_TOTAL_RUNNERS"

/-- `load_max_runner_lifetime`. -/
def loadMaxRunnerLifetime : Option String → Except PyError (Option ℤ) :=
  loadBound safeLoad lookup "max_runner_lifetime" "MAX_RUNNER_LIFETIME"

/-- The resolver that `_build_runtime` constructs from the file and the environment. -/
structure BuiltFrom (file : Option String) (r : ConfigResolver) : Prop where
  pools : loadConfig safeLoad lookup file = .ok r.basePools
  maxTotal : loadMaxTotalRunners safeLoad lookup file = .ok (some r.baseMaxTotal)
  maxLifetime : loadMaxRunnerLifetime safeLoad lookup file = .ok (some r.baseMaxLifetime)
  environ : r.environ = fun name => envGet lookup name ""

end Sources

/-! ### The form of the fields -/

theorem lower_lower (s : String) : lower (lower s) = lower s := by
  unfold lower
  rw [String.toList_ofList, lowerChars_lowerChars]

theorem stripChars_eq (s : List Char) : stripChars s = trimEnds isSpace s := rfl

theorem strip_eq_self_iff {s : String} : strip s = s ↔ Trimmed isSpace s.toList := by
  rw [← trimEnds_eq_self_iff, ← String.toList_inj]
  unfold strip
  rw [String.toList_ofList, stripChars_eq]

theorem strip_strip (s : String) : strip (strip s) = strip s := by
  rw [strip_eq_self_iff]
  unfold strip
  rw [String.toList_ofList, stripChars_eq]
  exact trimmed_trimEnds _ _

/-- A base URL is loaded as it is when it is neither trimmed nor loses a slash at its end. -/
theorem rstripChar_strip_eq_self_iff {s : String} {c : Char} :
    rstripChar (strip s) c = s ↔ strip s = s ∧ rstripChar s c = s := by
  rw [← String.toList_inj, ← String.toList_inj, ← String.toList_inj]
  unfold rstripChar strip
  rw [String.toList_ofList, String.toList_ofList, String.toList_ofList, stripChars_eq]
  exact rdropWhile_trimEnds_eq_self_iff

/-- The fields are in the form in which the loader writes them. -/
structure Settled (p : PoolConfig) : Prop where
  scope : lower p.scope = p.scope
  networkMode : lower p.networkMode = p.networkMode
  provider : lower p.provider = p.provider
  jobStartedHook : strip p.jobStartedHook = p.jobStartedHook
  baseUrl : rstripChar p.baseUrl '/' = p.baseUrl

variable {safeLoad : String → Except PyError Json}
  {lookup : String → Except PyError (Option String)} {environ : String → Except PyError String}
  {config defaults : List (String × Json)} {globalPat : String} {item raw : Json} {p : PoolConfig}
  {pools : List PoolConfig}

theorem loadPool_settled (h : loadPool environ config defaults globalPat item = .ok p) :
    Settled p := by
  have hurl := loadPool_baseUrl h
  obtain ⟨kvs, -, h⟩ := bind_eq_ok h
  obtain ⟨own, -, h⟩ := bind_eq_ok h
  -- the fields that may raise
  repeat obtain ⟨_, -, h⟩ := bind_eq_ok h
  cases h
  exact ⟨lower_lower _, lower_lower _, lower_lower _, strip_strip _, hurl⟩

/-- The defaults are settled. -/
theorem settled_default (name pat owner : String) :
    Settled { name := name, pat := pat, owner := owner } := by
  have hscope : lower "organization" = "organization" := by decide +kernel
  have hnetwork : lower "host" = "host" := by decide +kernel
  have hprovider : lower "github" = "github" := by decide +kernel
  have hhook : strip "" = "" := by decide +kernel
  have hurl : rstripChar "" '/' = "" := by decide +kernel
  exact ⟨hscope, hnetwork, hprovider, hhook, hurl⟩

theorem loadFromEnv_settled (h : loadFromEnv lookup = .ok p) : Settled p := by
  unfold loadFromEnv at h
  repeat obtain ⟨_, -, h⟩ := bind_eq_ok h
  cases h
  exact { settled_default "default" "" "" with
    scope := lower_lower _
    networkMode := lower_lower _ }

/-- The loaded pools are settled. -/
theorem loadConfig_settled {file : Option String}
    (h : loadConfig safeLoad lookup file = .ok pools) : ∀ p ∈ pools, Settled p := by
  cases file with
  | some text =>
    obtain ⟨raw, -, h⟩ := bind_eq_ok h
    obtain ⟨config, defaults, globalPat, items, -, hloaded⟩ := loadFromYaml_ok h
    intro p hp
    obtain ⟨item, -, hitem⟩ := exists_mem_of_forall₂ hloaded hp
    exact loadPool_settled hitem
  | none =>
    obtain ⟨pool, hpool, h⟩ := bind_eq_ok h
    cases h
    intro p hp
    rw [List.mem_singleton.1 hp]
    exact loadFromEnv_settled hpool

/-! ### Overrides -/

/-- A row sets none of the settled fields to anything else. -/
theorem Settled.set (h : Settled p) {field : String × FieldValue} (hfield : Coerced field) :
    Settled (p.set field) := by
  obtain ⟨value, hvalue⟩ := hfield
  unfold PoolConfig.set
  split
  all_goals try exact ⟨h.scope, h.networkMode, h.provider, h.jobStartedHook, h.baseUrl⟩
  · cases hvalue
    exact { h with scope := lower_lower _ }
  · cases hvalue
    exact { h with networkMode := lower_lower _ }

theorem Settled.foldl (h : Settled p) {fields : List (String × FieldValue)}
    (hfields : ∀ field ∈ fields, Coerced field) : Settled (fields.foldl PoolConfig.set p) := by
  induction fields generalizing p with
  | nil => exact h
  | cons field fields ih =>
    exact ih (h.set (hfields field List.mem_cons_self)) fun f hf =>
      hfields f (List.mem_cons_of_mem field hf)

variable {r : ConfigResolver} {db : Database} {e : EffectiveConfig}

/-- **Every pool of an effective configuration is settled.** -/
theorem resolve_settled (hbase : ∀ p ∈ r.basePools, Settled p) (h : r.resolve db = .ok e) :
    ∀ p ∈ e.pools, Settled p := by
  obtain ⟨pools, left, created, -, hresolved, hcreated, hpools, -⟩ := resolve_inv h
  intro p hp
  rw [hpools] at hp
  rcases List.mem_append.1 hp with hp | hp
  · obtain ⟨base, hmem, fields, hfields, rfl⟩ := mem_resolveBase_foldl hresolved hp
    exact (hbase base hmem).foldl hfields
  · obtain ⟨entry, -, hentry⟩ := resolveCreated_entry hcreated hp
    unfold resolveEntry at hentry
    split_ifs at hentry
    · cases hentry
    · obtain ⟨pat, owner, fields, hfields, hbuilt⟩ := buildUiPool_foldl hentry
      rw [hbuilt]
      exact (settled_default _ _ _).foldl hfields

/-! ### The global bounds -/

theorem loadBound_nonneg {key name : String} {file : Option String} {bound : ℤ}
    (h : loadBound safeLoad lookup key name file = .ok (some bound)) : 0 ≤ bound := by
  obtain ⟨value, -, h⟩ := bind_eq_ok h
  by_cases hneg : value < 0
  · rw [if_pos hneg] at h
    cases h
  · rw [if_neg hneg] at h
    cases h
    exact not_lt.1 hneg

theorem asInt_nonneg {values : Table String String} {key : String} {fallback : ℤ}
    (h : 0 ≤ fallback) : 0 ≤ asInt values key fallback := by
  unfold asInt
  split
  · exact h
  · split
    · exact h
    · split_ifs with hparsed
      · exact hparsed
      · exact h

/-- The global bounds of an effective configuration are not negative. -/
theorem resolve_bounds (htotal : 0 ≤ r.baseMaxTotal) (hlifetime : 0 ≤ r.baseMaxLifetime)
    (h : r.resolve db = .ok e) : 0 ≤ e.maxTotalRunners ∧ 0 ≤ e.maxRunnerLifetime := by
  obtain ⟨pools, left, created, -, -, -, -, rfl⟩ := resolve_inv h
  exact ⟨asInt_nonneg htotal, asInt_nonneg hlifetime⟩

end RunnerSwarm
