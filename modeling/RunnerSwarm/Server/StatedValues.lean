import RunnerSwarm.Config.Excluded
import RunnerSwarm.Config.LoadConfig
import RunnerSwarm.Server.AcceptedEdits

/-!
# The values a file states, and those a patch sets

A tunable field can be stated in `config.yml` or patched through the API, and the two convert the
value apart. `PoolConfig` does not check the types of its fields and the loader converts some of
them only, so `loadValues` gives its arguments as the values they are.

* `loadValues_setItem`: stating another value for a tunable field changes that field;
* `patched_find`: what runs after a patch of one field is accepted;
* `patched_eq_stated_iff`: when the two are the same. A list of excluded repositories is not: the
  loader joins it with commas, and a patch keeps what `str` makes of it.
-/

namespace RunnerSwarm

/-! ### Values -/

/-- The fields of a pool with their values. -/
def PoolConfig.values (p : PoolConfig) : List (String × Json) :=
  [("name", .str p.name), ("pat", .str p.pat), ("owner", .str p.owner), ("repo", .str p.repo),
    ("scope", .str p.scope), ("repo_discovery_ttl", .int p.repoDiscoveryTtl),
    ("github_poll_interval", .int p.githubPollInterval),
    ("queued_min_age", .int p.queuedMinAge), ("instance", .str p.instance),
    ("stuck_timeout", .int p.stuckTimeout), ("repo_check_workers", .int p.repoCheckWorkers),
    ("runner_operation_workers", .int p.runnerOperationWorkers),
    ("max_runners", .int p.maxRunners), ("min_idle", .int p.minIdle),
    ("runner_labels", .str p.runnerLabels), ("runner_image", .str p.runnerImage),
    ("memory_limit", .str p.memoryLimit), ("cpu_limit", .float p.cpuLimit),
    ("work_tmpfs_size", .str p.workTmpfsSize), ("network_mode", .str p.networkMode),
    ("include_public_repos", .bool p.includePublicRepos), ("exclude_repos", .str p.excludeRepos),
    ("job_started_hook", .str p.jobStartedHook), ("provider", .str p.provider),
    ("base_url", .str p.baseUrl)]

/-- The values with another one for a field. -/
def withValue (values : List (String × Json)) (field : String) (value : Json) :
    List (String × Json) :=
  values.map fun kv => if kv.1 = field then (field, value) else kv

/-- The fields that the loader takes as they are stated. -/
def unconvertedFields : List String :=
  ["max_runners", "min_idle", "runner_labels", "runner_image", "memory_limit"]

/-- What the loader makes of the value of a tunable field. -/
def statedValue (field : String) (value : Json) : Except PyError Json :=
  if field ∈ unconvertedFields then .ok value
  else if field ∈ numericInt then .int <$> pyInt value
  else if field = "cpu_limit" then .float <$> pyFloat value
  else if field = "work_tmpfs_size" then .ok (.str (asSize value))
  else if field = "network_mode" then .ok (.str (lower (pyStr value)))
  else .ok (.str (asCsv value))

/-- What an override makes of the values of a pool. -/
def overlaidValues (data values : List (String × Json)) :
    Except PyError (List (String × Json)) := do
  let fields ← coercePoolFields data
  return (fields.filter fun f => f.1 ∈ tunableFields).foldl
    (fun values f => withValue values f.1 f.2.json) values

section Loader

variable (environ : String → Except PyError String)

/-- The arguments that `_load_from_yaml` calls `PoolConfig` with, for the items of a pool. -/
def loadValues (config defaults : List (String × Json)) (globalPat : String)
    (p : List (String × Json)) : Except PyError (List (String × Json)) := do
  let setting (key : String) (default : Json) := getOr p key (getOr defaults key default)
  let provider := lower (pyStr (getOr p "provider" (.str "github")))
  let own ← resolveEnv environ (getOr p "pat" (.str ""))
  let scope := lower (pyStr (getOr p "scope" (.str "organization")))
  let name ← requireItem p "name"
  let owner ← requireItem p "owner"
  let repoDiscoveryTtl ← pyInt (setting "repo_discovery_ttl" (.int 600))
  let githubPollInterval ← pyInt (setting "github_poll_interval" (.int 60))
  let queuedMinAge ← pyInt (setting "queued_min_age" (.int 0))
  let stuckTimeout ← pyInt (setting "stuck_timeout" (.int 8))
  let repoCheckWorkers ← pyInt (setting "repo_check_workers" (.int 6))
  let runnerOperationWorkers ← pyInt (setting "runner_operation_workers" (.int 4))
  let cpuLimit ← pyFloat (setting "cpu_limit" (.float (.finite (3 / 2))))
  return [("name", name), ("pat", .str (poolPat provider own globalPat)), ("owner", owner),
    ("repo", getOr p "repo" (.str "")), ("scope", .str scope),
    ("repo_discovery_ttl", .int repoDiscoveryTtl),
    ("github_poll_interval", .int githubPollInterval), ("queued_min_age", .int queuedMinAge),
    ("instance", .str (lower (strip (pyStr (getOr config "instance" (.str "")))))),
    ("stuck_timeout", .int stuckTimeout), ("repo_check_workers", .int repoCheckWorkers),
    ("runner_operation_workers", .int runnerOperationWorkers),
    ("max_runners", setting "max_runners" (.int 3)),
    ("min_idle", getOr p "min_idle"
      (if scope = "personal" then .int 0 else getOr defaults "min_idle" (.int 1))),
    ("runner_labels", setting "runner_labels" (.str "self-hosted,linux,x64,docker")),
    ("runner_image", setting "runner_image" (.str defaultRunnerImage)),
    ("memory_limit", setting "memory_limit" (.str "2g")), ("cpu_limit", .float cpuLimit),
    ("work_tmpfs_size", .str (asSize (setting "work_tmpfs_size" (.str "auto")))),
    ("network_mode", .str (lower (pyStr (setting "network_mode" (.str "host"))))),
    ("include_public_repos", .bool (pyBool (setting "include_public_repos" (.bool false)))),
    ("exclude_repos", .str (asCsv (setting "exclude_repos" (.str "")))),
    ("job_started_hook", .str (strip (pyStr (getOr p "job_started_hook" (.str ""))))),
    ("provider", .str provider),
    ("base_url", .str (rstripChar (strip (pyStr (getOr p "base_url" (.str "")))) '/'))]

end Loader

/-! ### What is stated -/

/-- The value of a key after it is set in every item that has it. -/
theorem getItem_map (kvs : List (String × Json)) (key : String) (value : Json) (other : String) :
    getItem (kvs.map fun old => if old.1 = key then (key, value) else old) other =
      if other = key ∧ key ∈ kvs.map Prod.fst then some value else getItem kvs other := by
  induction kvs with
  | nil => simp [getItem]
  | cons kv kvs ih =>
    obtain ⟨k, v⟩ := kv
    rw [List.map_cons]
    by_cases hkey : k = key
    · subst hkey
      rw [if_pos rfl, getItem_cons, getItem_cons, ih]
      by_cases hother : k = other
      · simp [hother]
      · simp [hother, Ne.symm hother]
    · rw [if_neg hkey, getItem_cons, getItem_cons, ih]
      by_cases hother : k = other
      · subst hother
        simp [hkey]
      · simp only [hother, List.map_cons, List.mem_cons, Ne.symm hkey, if_false, false_or]

theorem getItem_setItem (kvs : List (String × Json)) (key : String) (value : Json)
    (other : String) : getItem (setItem kvs (key, value)) other =
      if other = key then some value else getItem kvs other := by
  unfold setItem
  dsimp only
  split_ifs with hmem hother hother
  · rw [getItem_map, if_pos ⟨hother, hmem⟩]
  · rw [getItem_map, if_neg fun h => hother h.1]
  · subst hother
    have hnone : kvs.find? (fun kv => kv.1 == other) = none := by
      rw [List.find?_eq_none]
      intro kv hkv heq
      exact hmem (List.mem_map.2 ⟨kv, hkv, beq_iff_eq.1 heq⟩)
    simp [getItem, List.find?_append, hnone]
  · simp [getItem, List.find?_append, Ne.symm hother]

theorem getOr_setItem (kvs : List (String × Json)) (key : String) (value : Json) (other : String)
    (default : Json) : getOr (setItem kvs (key, value)) other default =
      if other = key then value else getOr kvs other default := by
  unfold getOr
  rw [getItem_setItem]
  split_ifs
  · rfl
  · rfl

variable {environ : String → Except PyError String} {config defaults kvs : List (String × Json)}
  {globalPat field : String} {base : PoolConfig} {value : Json}

/-- How the fields of a loaded pool come from the items. -/
structure LoadedFrom (environ : String → Except PyError String)
    (config defaults : List (String × Json)) (globalPat : String) (kvs : List (String × Json))
    (p : PoolConfig) : Prop where
  pat : ∃ own, resolveEnv environ (getOr kvs "pat" (.str "")) = .ok own ∧
    p.pat = poolPat p.provider own globalPat
  name : requireItem kvs "name" = .ok (.str p.name)
  owner : requireItem kvs "owner" = .ok (.str p.owner)
  repo : getOr kvs "repo" (.str "") = .str p.repo
  scope : lower (pyStr (getOr kvs "scope" (.str "organization"))) = p.scope
  repoDiscoveryTtl : pyInt (getOr kvs "repo_discovery_ttl"
    (getOr defaults "repo_discovery_ttl" (.int 600))) = .ok p.repoDiscoveryTtl
  githubPollInterval : pyInt (getOr kvs "github_poll_interval"
    (getOr defaults "github_poll_interval" (.int 60))) = .ok p.githubPollInterval
  queuedMinAge : pyInt (getOr kvs "queued_min_age"
    (getOr defaults "queued_min_age" (.int 0))) = .ok p.queuedMinAge
  «instance» : lower (strip (pyStr (getOr config "instance" (.str "")))) = p.instance
  stuckTimeout : pyInt (getOr kvs "stuck_timeout"
    (getOr defaults "stuck_timeout" (.int 8))) = .ok p.stuckTimeout
  repoCheckWorkers : pyInt (getOr kvs "repo_check_workers"
    (getOr defaults "repo_check_workers" (.int 6))) = .ok p.repoCheckWorkers
  runnerOperationWorkers : pyInt (getOr kvs "runner_operation_workers"
    (getOr defaults "runner_operation_workers" (.int 4))) = .ok p.runnerOperationWorkers
  maxRunners : getOr kvs "max_runners" (getOr defaults "max_runners" (.int 3)) = .int p.maxRunners
  minIdle : getOr kvs "min_idle" (if p.scope = "personal" then .int 0
    else getOr defaults "min_idle" (.int 1)) = .int p.minIdle
  runnerLabels : getOr kvs "runner_labels" (getOr defaults "runner_labels"
    (.str "self-hosted,linux,x64,docker")) = .str p.runnerLabels
  runnerImage : getOr kvs "runner_image" (getOr defaults "runner_image"
    (.str defaultRunnerImage)) = .str p.runnerImage
  memoryLimit : getOr kvs "memory_limit" (getOr defaults "memory_limit" (.str "2g")) =
    .str p.memoryLimit
  cpuLimit : pyFloat (getOr kvs "cpu_limit"
    (getOr defaults "cpu_limit" (.float (.finite (3 / 2))))) = .ok p.cpuLimit
  workTmpfsSize : asSize (getOr kvs "work_tmpfs_size"
    (getOr defaults "work_tmpfs_size" (.str "auto"))) = p.workTmpfsSize
  networkMode : lower (pyStr (getOr kvs "network_mode"
    (getOr defaults "network_mode" (.str "host")))) = p.networkMode
  includePublicRepos : pyBool (getOr kvs "include_public_repos"
    (getOr defaults "include_public_repos" (.bool false))) = p.includePublicRepos
  excludeRepos : asCsv (getOr kvs "exclude_repos" (getOr defaults "exclude_repos" (.str ""))) =
    p.excludeRepos
  jobStartedHook : strip (pyStr (getOr kvs "job_started_hook" (.str ""))) = p.jobStartedHook
  provider : lower (pyStr (getOr kvs "provider" (.str "github"))) = p.provider
  baseUrl : rstripChar (strip (pyStr (getOr kvs "base_url" (.str "")))) '/' = p.baseUrl

theorem asText_eq_ok {s : String} (h : asText value = .ok s) : value = .str s := by
  cases value <;> cases h
  rfl

theorem asNumber_eq_ok {n : ℤ} (h : asNumber value = .ok n) : value = .int n := by
  cases value <;> cases h
  rfl

theorem loadedFrom_of_loadPool
    (h : loadPool environ config defaults globalPat (.dict kvs) = .ok base) :
    LoadedFrom environ config defaults globalPat kvs base := by
  obtain ⟨p, hp, h⟩ := bind_eq_ok h
  obtain rfl := Except.ok.inj hp
  obtain ⟨own, hown, h⟩ := bind_eq_ok h
  obtain ⟨nameItem, hnameItem, h⟩ := bind_eq_ok h
  obtain ⟨name, hname, h⟩ := bind_eq_ok h
  obtain ⟨ownerItem, hownerItem, h⟩ := bind_eq_ok h
  obtain ⟨owner, howner, h⟩ := bind_eq_ok h
  obtain ⟨repo, hrepo, h⟩ := bind_eq_ok h
  obtain ⟨repoDiscoveryTtl, hrepoDiscoveryTtl, h⟩ := bind_eq_ok h
  obtain ⟨githubPollInterval, hgithubPollInterval, h⟩ := bind_eq_ok h
  obtain ⟨queuedMinAge, hqueuedMinAge, h⟩ := bind_eq_ok h
  obtain ⟨stuckTimeout, hstuckTimeout, h⟩ := bind_eq_ok h
  obtain ⟨repoCheckWorkers, hrepoCheckWorkers, h⟩ := bind_eq_ok h
  obtain ⟨runnerOperationWorkers, hrunnerOperationWorkers, h⟩ := bind_eq_ok h
  obtain ⟨maxRunners, hmaxRunners, h⟩ := bind_eq_ok h
  obtain ⟨minIdle, hminIdle, h⟩ := bind_eq_ok h
  obtain ⟨runnerLabels, hrunnerLabels, h⟩ := bind_eq_ok h
  obtain ⟨runnerImage, hrunnerImage, h⟩ := bind_eq_ok h
  obtain ⟨memoryLimit, hmemoryLimit, h⟩ := bind_eq_ok h
  obtain ⟨cpuLimit, hcpuLimit, h⟩ := bind_eq_ok h
  cases h
  exact {
    pat := ⟨own, hown, rfl⟩
    name := hnameItem.trans (congrArg _ (asText_eq_ok hname))
    owner := hownerItem.trans (congrArg _ (asText_eq_ok howner))
    repo := asText_eq_ok hrepo
    scope := rfl
    repoDiscoveryTtl := hrepoDiscoveryTtl
    githubPollInterval := hgithubPollInterval
    queuedMinAge := hqueuedMinAge
    «instance» := rfl
    stuckTimeout := hstuckTimeout
    repoCheckWorkers := hrepoCheckWorkers
    runnerOperationWorkers := hrunnerOperationWorkers
    maxRunners := asNumber_eq_ok hmaxRunners
    minIdle := asNumber_eq_ok hminIdle
    runnerLabels := asText_eq_ok hrunnerLabels
    runnerImage := asText_eq_ok hrunnerImage
    memoryLimit := asText_eq_ok hmemoryLimit
    cpuLimit := hcpuLimit
    workTmpfsSize := rfl
    networkMode := rfl
    includePublicRepos := rfl
    excludeRepos := rfl
    jobStartedHook := rfl
    provider := rfl
    baseUrl := rfl }

/-- The arguments of a pool that loads are its values. -/
theorem loadValues_eq (h : loadPool environ config defaults globalPat (.dict kvs) = .ok base) :
    loadValues environ config defaults globalPat kvs = .ok base.values := by
  have hl := loadedFrom_of_loadPool h
  obtain ⟨own, hown, hpat⟩ := hl.pat
  simp [loadValues, PoolConfig.values, hown, hpat, hl.name, hl.owner, hl.repo, hl.scope,
    hl.repoDiscoveryTtl, hl.githubPollInterval, hl.queuedMinAge, hl.instance, hl.stuckTimeout,
    hl.repoCheckWorkers, hl.runnerOperationWorkers, hl.maxRunners, hl.minIdle, hl.runnerLabels,
    hl.runnerImage, hl.memoryLimit, hl.cpuLimit, hl.workTmpfsSize, hl.networkMode,
    hl.includePublicRepos, hl.excludeRepos, hl.jobStartedHook, hl.provider, hl.baseUrl, bind,
    Except.bind, pure, Except.pure]

/-- **A stated value** changes its own field. -/
theorem loadValues_setItem (h : loadPool environ config defaults globalPat (.dict kvs) = .ok base)
    (hfield : field ∈ tunableFields) :
    loadValues environ config defaults globalPat (setItem kvs (field, value)) =
      withValue base.values field <$> statedValue field value := by
  have hl := loadedFrom_of_loadPool h
  obtain ⟨own, hown, hpat⟩ := hl.pat
  have hrequire : ∀ key, key ≠ field →
      requireItem (setItem kvs (field, value)) key = requireItem kvs key := by
    intro key hkey
    unfold requireItem
    rw [getItem_setItem, if_neg hkey]
  simp only [tunableFields, List.mem_cons, List.not_mem_nil, or_false] at hfield
  -- every other argument is what it was
  rcases hfield with rfl | rfl | rfl | rfl | rfl | rfl | rfl | rfl | rfl | rfl | rfl | rfl | rfl |
    rfl | rfl
  all_goals
    simp [loadValues, statedValue, withValue, PoolConfig.values, unconvertedFields, numericInt,
      getOr_setItem, hrequire, hown, hpat, hl.name, hl.owner, hl.repo, hl.scope,
      hl.repoDiscoveryTtl, hl.githubPollInterval, hl.queuedMinAge, hl.instance, hl.stuckTimeout,
      hl.repoCheckWorkers, hl.runnerOperationWorkers, hl.maxRunners, hl.minIdle, hl.runnerLabels,
      hl.runnerImage, hl.memoryLimit, hl.cpuLimit, hl.workTmpfsSize, hl.networkMode,
      hl.includePublicRepos, hl.excludeRepos, hl.jobStartedHook, hl.provider, hl.baseUrl, bind,
      Except.bind, pure, Except.pure]
  -- what is left are the numbers, whose conversion may raise
  all_goals rfl

/-! ### What is patched -/

/-- A coerced value has the type of its field. -/
theorem coercePoolField_type {coerced : FieldValue}
    (h : coercePoolField field value = .ok coerced) :
    (field ∈ numericInt ∧ ∃ n, pyInt value = .ok n ∧ coerced = .int n) ∨
      (field = "cpu_limit" ∧ ∃ x, pyFloat value = .ok x ∧ coerced = .float x) ∨
      (field ∉ numericInt ∧ field ≠ "cpu_limit" ∧
        coerced = .str (if field = "network_mode" ∨ field = "scope" then lower (pyStr value)
          else pyStr value)) := by
  unfold coercePoolField at h
  split_ifs at h with hint hcpu hlower
  · obtain ⟨n, hn, h⟩ := bind_eq_ok h
    cases h
    exact .inl ⟨hint, n, hn, rfl⟩
  · obtain ⟨x, hx, h⟩ := bind_eq_ok h
    cases h
    exact .inr (.inl ⟨hcpu, x, hx, rfl⟩)
  · cases h
    exact .inr (.inr ⟨hint, hcpu, by rw [if_pos hlower]⟩)
  · cases h
    exact .inr (.inr ⟨hint, hcpu, by rw [if_neg hlower]⟩)

/-- A value that is set is the value of its field. -/
theorem values_set {coerced : FieldValue} (hfield : field ∈ tunableFields)
    (h : coercePoolField field value = .ok coerced) :
    (base.set (field, coerced)).values = withValue base.values field coerced.json := by
  simp only [tunableFields, List.mem_cons, List.not_mem_nil, or_false] at hfield
  rcases coercePoolField_type h with ⟨hint, n, -, rfl⟩ | ⟨rfl, x, -, rfl⟩ | ⟨hint, hcpu, rfl⟩
  · simp only [numericInt, List.mem_cons, List.not_mem_nil, or_false] at hint
    rcases hint with rfl | rfl | rfl | rfl | rfl | rfl | rfl | rfl
    all_goals simp [PoolConfig.set, PoolConfig.values, withValue, FieldValue.json]
  · simp [PoolConfig.set, PoolConfig.values, withValue, FieldValue.json]
  · rcases hfield with rfl | rfl | rfl | rfl | rfl | rfl | rfl | rfl | rfl | rfl | rfl | rfl | rfl |
      rfl | rfl
    all_goals first
      | exact absurd (by decide) hint
      | exact absurd rfl hcpu
      | simp [PoolConfig.set, PoolConfig.values, withValue, FieldValue.json]

/-- A coerced value is not changed by another coercion. -/
theorem coercePoolField_json {coerced : FieldValue}
    (h : coercePoolField field value = .ok coerced) :
    coercePoolField field coerced.json = .ok coerced := by
  unfold coercePoolField
  rcases coercePoolField_type h with ⟨hint, n, -, rfl⟩ | ⟨rfl, x, -, rfl⟩ | ⟨hint, hcpu, rfl⟩
  · rw [if_pos hint]
    rfl
  · rfl
  · rw [if_neg hint, if_neg hcpu]
    split_ifs with hlower
    · exact congrArg (fun s => Except.ok (FieldValue.str s)) (lower_lower _)
    · rfl

theorem coercePoolFields_snoc (data : List (String × Json)) :
    coercePoolFields (data ++ [(field, value)]) = (do
      let fields ← coercePoolFields data
      let coerced ← coercePoolField field value
      return fields ++ [(field, coerced)]) := by
  unfold coercePoolFields
  rw [List.mapM_append]
  congr
  funext fields
  rw [List.mapM_cons, List.mapM_nil]
  cases coercePoolField field value <;> rfl

/-- An override of one more field. -/
theorem applyOverride_snoc {data : List (String × Json)} {coerced : FieldValue}
    (hfield : field ∈ tunableFields) (h : coercePoolField field value = .ok coerced) :
    applyOverride base (.dict (data ++ [(field, coerced.json)])) =
      (fun p => p.set (field, coerced)) <$> applyOverride base (.dict data) := by
  unfold applyOverride
  dsimp only
  rw [coercePoolFields_snoc, coercePoolField_json h]
  cases coercePoolFields data with
  | error e => rfl
  | ok fields =>
    have hlast : [(field, coerced)].filter (fun f => f.1 ∈ tunableFields) = [(field, coerced)] :=
      List.filter_cons_of_pos (decide_eq_true hfield)
    have hkept : (fields ++ [(field, coerced)]).filter (fun f => f.1 ∈ tunableFields) =
        fields.filter (fun f => f.1 ∈ tunableFields) ++ [(field, coerced)] := by
      rw [List.filter_append, hlast]
    show Except.ok (((fields ++ [(field, coerced)]).filter
      fun f => f.1 ∈ tunableFields).foldl PoolConfig.set base) = Except.ok _
    rw [hkept, List.foldl_append]
    rfl

/-- What a patch of one field merges into the overrides. -/
theorem mergeFields_single {data merged : List (String × Json)}
    (h : Site.mergeFields data [(field, value)] = .ok (some merged)) :
    ∃ coerced, coercePoolField field value = .ok coerced ∧
      merged = setItem data (field, coerced.json) := by
  unfold Site.mergeFields at h
  have hfields : coercePoolFields [(field, value)] =
      (fun coerced => [(field, coerced)]) <$> coercePoolField field value := by
    rw [← List.nil_append [(field, value)], coercePoolFields_snoc]
    rfl
  rw [hfields] at h
  cases hcoerced : coercePoolField field value with
  | error e =>
    rw [hcoerced] at h
    cases e <;> cases h
  | ok coerced =>
    rw [hcoerced] at h
    exact ⟨coerced, rfl, (Option.some.inj (Except.ok.inj h)).symm⟩

/-- What an override makes of a pool, in values. -/
theorem overlaidValues_eq (data : List (String × Json)) :
    overlaidValues data base.values = PoolConfig.values <$> applyOverride base (.dict data) := by
  unfold overlaidValues applyOverride
  dsimp only
  cases hfields : coercePoolFields data with
  | error e => rfl
  | ok fields =>
    have hcoerced : ∀ f ∈ fields.filter (fun f => f.1 ∈ tunableFields),
        f.1 ∈ tunableFields ∧ Coerced f := by
      intro f hf
      obtain ⟨hmem, htunable⟩ := List.mem_filter.1 hf
      exact ⟨of_decide_eq_true htunable, coerced_of_coercePoolFields hfields f hmem⟩
    refine congrArg Except.ok ?_
    generalize fields.filter (fun f => f.1 ∈ tunableFields) = kept at hcoerced
    clear hfields
    induction kept generalizing base with
    | nil => rfl
    | cons f kept ih =>
      obtain ⟨htunable, _, hvalue⟩ := hcoerced f List.mem_cons_self
      rw [List.foldl_cons, ← values_set htunable hvalue]
      exact ih fun f hf => hcoerced f (List.mem_cons_of_mem _ hf)

theorem withValue_comm {values : List (String × Json)} {other : String} {new : Json}
    (h : other ≠ field) : withValue (withValue values field value) other new =
      withValue (withValue values other new) field value := by
  unfold withValue
  rw [List.map_map, List.map_map]
  refine List.map_congr_left fun kv _ => ?_
  simp only [Function.comp]
  by_cases hfield : kv.1 = field
  · subst hfield
    simp [Ne.symm h]
  · by_cases hother : kv.1 = other
    · subst hother
      simp [h]
    · simp [hfield, hother]

/-- A field that is not overridden keeps the value that is stated. -/
theorem overlaidValues_withValue {data values : List (String × Json)}
    (hfresh : field ∉ data.map Prod.fst) :
    overlaidValues data (withValue values field value) =
      (fun values => withValue values field value) <$> overlaidValues data values := by
  unfold overlaidValues
  cases hfields : coercePoolFields data with
  | error e => rfl
  | ok fields =>
    have hother : ∀ f ∈ fields.filter (fun f => f.1 ∈ tunableFields), f.1 ≠ field := by
      rintro f hf rfl
      refine hfresh ?_
      rw [← coercePoolFields_keys hfields]
      exact List.mem_map_of_mem (List.mem_filter.1 hf).1
    refine congrArg Except.ok ?_
    generalize fields.filter (fun f => f.1 ∈ tunableFields) = kept at hother
    clear hfields
    induction kept generalizing values with
    | nil => rfl
    | cons f kept ih =>
      rw [List.foldl_cons, withValue_comm (hother f List.mem_cons_self)]
      exact ih fun f hf => hother f (List.mem_cons_of_mem _ hf)

section Patched

variable {q : ControlRequest} {w : World} {e : EffectiveConfig} {name : String}
  {data : List (String × Json)}

/-- What the database overrides of a pool. -/
def Database.overridden (db : Database) (name : String) : Except PyError (List (String × Json)) :=
  (db.storedEntry name).elim (.ok []) fun entry => dictOf entry.data

/-- **What runs after a patch of one field** that was not overridden. -/
theorem patched_find (hbase : q.deps.basePool name = some base)
    (hdata : w.store.toDatabase.overridden name = .ok data) (hfresh : field ∉ data.map Prod.fst)
    (hname : ¬ w.store.MistakesPool name) (hroute : q.route = .patchPool name)
    (hbody : q.request.jsonBody = [(field, value)]) (haccepted : q.Accepted w)
    (he : q.deps.resolver.resolve (q.run w).2.store.toDatabase = .ok e) :
    field ∈ tunableFields ∧ ∃ running coerced, applyOverride base (.dict data) = .ok running ∧
      coercePoolField field value = .ok coerced ∧
      e.pools.find? (·.name = name) = some (running.set (field, coerced)) := by
  obtain ⟨edit, row, hedit, hworld⟩ :=
    ControlRequest.edits_of_accepted (by rw [hroute]; rfl) haccepted
  rw [hroute] at hedit
  rw [hworld] at he
  cases hedit with
  | @patched _ entry data' merged candidate hfields hentry hknown hdata' hmerged happroved =>
    rw [entry_eq_stored hentry] at hdata'
    obtain rfl : data = data' := Except.ok.inj (hdata.symm.trans hdata')
    rw [hbody] at hfields hmerged
    have hfield : field ∈ tunableFields := by
      have hkey := unknownFields_eq_nil hfields _ List.mem_cons_self
      rwa [if_neg Bool.false_ne_true, List.append_nil] at hkey
    obtain ⟨coerced, hcoerced, hset⟩ := mergeFields_single hmerged
    have hmerged : merged = data ++ [(field, coerced.json)] := hset.trans (if_neg hfresh)
    subst hmerged
    -- the row is laid over the first pool of its name
    have hnamed := resolve_named he name
    have hstored : (w.edited (.setOverride name (.dict (data ++ [(field, coerced.json)]))
        (entry.elim "yaml" (·.origin)) false) row).store.toDatabase.storedEntry name =
          some ⟨.dict (data ++ [(field, coerced.json)]), entry.elim "yaml" (·.origin), false⟩ := by
      unfold Database.storedEntry
      show ((w.store.setPoolOverride name _ _ _).poolOverrides.get name).bind _ = _
      rw [get_setPoolOverride hname]
      rfl
    have hhead : (q.deps.resolver.basePools.filter (·.name = name)).head? = some base := by
      rw [List.head?_filter]
      exact hbase
    obtain ⟨others, hothers⟩ := List.head?_eq_some_iff.1 hhead
    unfold ConfigResolver.namedPools at hnamed
    rw [hothers, hstored] at hnamed
    dsimp only [Option.elim] at hnamed
    dsimp only [resolveOne] at hnamed
    rw [if_neg Bool.false_ne_true, applyOverride_snoc hfield hcoerced] at hnamed
    cases hrunning : applyOverride base (.dict data) with
    | error err =>
      rw [hrunning] at hnamed
      cases hnamed
    | ok running =>
      refine ⟨hfield, running, coerced, rfl, hcoerced, ?_⟩
      rw [hrunning] at hnamed
      have hpools : [running.set (field, coerced)] ++ others =
          e.pools.filter (·.name = name) := Except.ok.inj hnamed
      rw [← List.head?_filter, ← hpools]
      rfl

end Patched

/-! ### Lists as texts -/

theorem length_stripChars_le (s : List Char) : (stripChars s).length ≤ s.length := by
  rw [stripChars_eq]
  exact (List.rdropWhile_prefix _ _).length_le.trans (List.dropWhile_suffix _).length_le

/-- `repr` writes every character at least once. -/
theorem length_reprString (s : String) : s.toList.length ≤ (reprString s).toList.length := by
  have hchar : ∀ q c, 1 ≤ (reprChar q c).length := by
    intro q c
    unfold reprChar
    split_ifs <;> simp
  have hchars : ∀ q, s.toList.length ≤ (s.toList.flatMap (reprChar q)).length := by
    intro q
    rw [List.length_flatMap]
    calc s.toList.length = (s.toList.map fun _ => 1).sum := by simp
      _ ≤ (s.toList.map fun c => (reprChar q c).length).sum :=
        List.sum_le_sum fun c _ => hchar q c
  unfold reprString
  dsimp only
  rw [String.toList_ofList, List.length_cons, List.length_append]
  have := hchars (if (s.toList.contains '\'' && !s.toList.contains '"') = true then '"' else '\'')
  omega

theorem length_pyStr_le (x : Json) : (pyStr x).toList.length ≤ (pyRepr x).toList.length := by
  cases x with
  | str s =>
    unfold pyStr pyRepr
    exact length_reprString s
  | _ => exact le_refl _

theorem pyReprs_eq_map (xs : List Json) : pyReprs xs = xs.map pyRepr := by
  induction xs with
  | nil => unfold pyReprs; rfl
  | cons x xs ih =>
    unfold pyReprs
    rw [ih, List.map_cons]

/-- **A list is not written as its elements with commas between them.** -/
theorem asCsv_list_ne (xs : List Json) : asCsv (.list xs) ≠ pyStr (.list xs) := by
  intro heq
  let parts := (xs.map fun x => strip (pyStr x)).filter (· ≠ "")
  have hcsv : (asCsv (.list xs)).toList.length =
      (parts.map fun part => part.toList.length).sum + (parts.length - 1) := by
    unfold asCsv
    rw [String.toList_intercalate, length_intercalate, List.map_map, List.length_map]
    exact congrArg _ (Nat.one_mul _)
  have hrepr : (pyStr (.list xs)).toList.length =
      (xs.map fun x => (pyRepr x).toList.length).sum + 2 * (xs.length - 1) + 2 := by
    have htext : pyStr (.list xs) = "[" ++ ", ".intercalate (xs.map pyRepr) ++ "]" := by
      show pyRepr (.list xs) = _
      rw [pyRepr, pyReprs_eq_map]
    rw [htext, String.toList_append, String.toList_append, String.toList_intercalate,
      List.length_append, List.length_append, length_intercalate, List.map_map, List.map_map,
      List.length_map, List.length_map]
    exact congrArg (· + 1) (Nat.add_comm 1 _)
  have hfewer : parts.length ≤ xs.length :=
    (List.length_filter_le _ _).trans (List.length_map _).le
  have hshorter : (parts.map fun part => part.toList.length).sum ≤
      (xs.map fun x => (pyRepr x).toList.length).sum := by
    calc (parts.map fun part => part.toList.length).sum
        ≤ ((xs.map fun x => strip (pyStr x)).map fun part => part.toList.length).sum :=
          (List.filter_sublist.map _).sum_le_sum fun _ _ => Nat.zero_le _
      _ ≤ (xs.map fun x => (pyRepr x).toList.length).sum := by
          rw [List.map_map]
          refine List.sum_le_sum fun x _ => ?_
          simp only [Function.comp, strip, String.toList_ofList]
          exact (length_stripChars_le _).trans (length_pyStr_le x)
  rw [heq, hrepr] at hcsv
  omega

/-! ### Both -/

/-- The value of a number. -/
def numberOf : Json → Option PyFloat
  | .int n => some (.finite n)
  | .bool b => some (.finite (if b then 1 else 0))
  | .float x => some x
  | _ => none

/-- `a == b`: numbers are compared by what they are worth. -/
def SameValue (a b : Json) : Prop := a = b ∨ ∃ x, numberOf a = some x ∧ numberOf b = some x

/-- **Two pools are equal**, field by field. -/
def SameValues (a b : List (String × Json)) : Prop :=
  List.Forall₂ (fun x y => x.1 = y.1 ∧ SameValue x.2 y.2) a b

/-- The values that mean the same to a patch and to the file. -/
def TakenAlike (field : String) (value : Json) : Prop :=
  if field = "max_runners" ∨ field = "min_idle" then ∃ n : ℤ, numberOf value = some (.finite n)
  else if field ∈ unconvertedFields then ∃ s, value = .str s
  else if field = "work_tmpfs_size" then value ≠ .null ∧ strip (pyStr value) = pyStr value
  else if field = "exclude_repos" then (∀ xs, value ≠ .list xs) ∧
    (pyBool value = true ∨ value = .str "") ∧ strip (pyStr value) = pyStr value
  else True

theorem sameValues_withValue_iff {values : List (String × Json)} {a b : Json}
    (hfield : field ∈ values.map Prod.fst) :
    SameValues (withValue values field a) (withValue values field b) ↔ SameValue a b := by
  unfold SameValues withValue
  rw [List.forall₂_map_left_iff, List.forall₂_map_right_iff, List.forall₂_same]
  constructor
  · intro h
    obtain ⟨kv, hkv, rfl⟩ := List.mem_map.1 hfield
    simpa using (h kv hkv).2
  · intro h kv _
    split_ifs
    · exact ⟨rfl, h⟩
    · exact ⟨rfl, .inl rfl⟩

theorem mem_values (hfield : field ∈ tunableFields) : field ∈ base.values.map Prod.fst := by
  have hkeys : base.values.map Prod.fst =
      ({ name := "", pat := "", owner := "" } : PoolConfig).values.map Prod.fst := rfl
  have htunable : ∀ f ∈ tunableFields, f ∈
      ({ name := "", pat := "", owner := "" } : PoolConfig).values.map Prod.fst := by decide
  rw [hkeys]
  exact htunable field hfield

theorem sameValue_str_iff {s : String} : SameValue (.str s) value ↔ value = .str s := by
  unfold SameValue
  constructor
  · rintro (rfl | ⟨x, hx, -⟩)
    · rfl
    · cases hx
  · exact fun h => .inl h.symm

/-- A number is converted to itself when it has no fraction. -/
theorem sameValue_int_iff {n : ℤ} (h : pyInt value = .ok n) :
    SameValue (.int n) value ↔ ∃ m : ℤ, numberOf value = some (.finite m) := by
  constructor
  · rintro (rfl | ⟨x, hx, hvalue⟩)
    · exact ⟨n, rfl⟩
    · exact ⟨n, hvalue.trans hx.symm⟩
  · rintro ⟨m, hm⟩
    refine .inr ⟨.finite n, rfl, ?_⟩
    cases value with
    | int k =>
      cases h
      rfl
    | bool b =>
      cases h
      cases b <;> simp [numberOf]
    | float x =>
      obtain rfl := Option.some.inj hm
      have hn : truncate (m : ℚ) = n := Except.ok.inj h
      rw [← hn]
      unfold truncate
      split_ifs <;> simp [numberOf]
    | _ => cases hm

theorem asSize_eq_iff : asSize value = pyStr value ↔
    value ≠ .null ∧ strip (pyStr value) = pyStr value := by
  cases value with
  | null => exact iff_of_false (by decide) fun h => h.1 rfl
  | _ => exact (and_iff_right nofun).symm

/-- A value that is false is written with some text, unless it is the empty one. -/
theorem pyStr_ne_empty (h : pyBool value = false) (hstr : value ≠ .str "") : pyStr value ≠ "" := by
  cases value with
  | null => decide
  | bool b =>
    obtain rfl : b = false := h
    decide
  | int n =>
    obtain rfl : n = 0 := by simpa [pyBool] using h
    decide
  | float x =>
    obtain rfl : x = .finite 0 := by simpa [pyBool] using h
    decide
  | str s => exact absurd (by simpa [pyBool] using h) fun hs => hstr (congrArg _ hs)
  | list xs =>
    obtain rfl : xs = [] := by simpa [pyBool] using h
    decide
  | dict kvs =>
    obtain rfl : kvs = [] := by simpa [pyBool] using h
    decide

theorem asCsv_eq_iff : asCsv value = pyStr value ↔ (∀ xs, value ≠ .list xs) ∧
    (pyBool value = true ∨ value = .str "") ∧ strip (pyStr value) = pyStr value := by
  have hplain : ∀ x : Json, (∀ xs, x ≠ .list xs) → (∀ s, x ≠ .str s) →
      asCsv x = if pyBool x then strip (pyStr x) else "" := by
    intro x hlist hstr
    cases x with
    | list xs => exact absurd rfl (hlist xs)
    | _ => rfl
  by_cases hlist : ∃ xs, value = .list xs
  · obtain ⟨xs, rfl⟩ := hlist
    exact iff_of_false (asCsv_list_ne xs) fun h => h.1 xs rfl
  · have hnot : ∀ xs, value ≠ .list xs := fun xs heq => hlist ⟨xs, heq⟩
    rw [and_iff_right hnot]
    by_cases hstr : ∃ s, value = .str s
    · obtain ⟨s, rfl⟩ := hstr
      have htruth : pyBool (.str s) = true ∨ Json.str s = .str "" := by
        by_cases hs : s = ""
        · exact .inr (congrArg _ hs)
        · exact .inl (decide_eq_true hs)
      rw [asCsv_str, and_iff_right htruth]
      rfl
    · have hno : ∀ s, value ≠ .str s := fun s heq => hstr ⟨s, heq⟩
      rw [hplain value hnot hno, or_iff_left (hno "")]
      cases htruth : pyBool value with
      | true => exact (and_iff_right rfl).symm
      | false =>
        refine iff_of_false (fun h => ?_) fun h => Bool.false_ne_true h.1
        exact pyStr_ne_empty htruth (hno "") h.symm

/-- What is coerced and what is stated are the same when the value is taken alike. -/
theorem sameValue_iff {coerced : FieldValue} {stated : Json} (hfield : field ∈ tunableFields)
    (hcoerced : coercePoolField field value = .ok coerced)
    (hstated : statedValue field value = .ok stated) :
    SameValue coerced.json stated ↔ TakenAlike field value := by
  simp only [tunableFields, List.mem_cons, List.not_mem_nil, or_false] at hfield
  unfold statedValue at hstated
  unfold TakenAlike
  rcases coercePoolField_type hcoerced with ⟨hint, n, hn, rfl⟩ | ⟨rfl, x, hx, rfl⟩ |
    ⟨hint, hcpu, rfl⟩
  · by_cases hlimit : field = "max_runners" ∨ field = "min_idle"
    · have hunconverted : field ∈ unconvertedFields := by
        rcases hlimit with rfl | rfl <;> decide
      rw [if_pos hunconverted] at hstated
      obtain rfl := Except.ok.inj hstated
      rw [if_pos hlimit]
      exact sameValue_int_iff hn
    · have hconverted : field ∉ unconvertedFields ∧ field ≠ "work_tmpfs_size" ∧
          field ≠ "exclude_repos" := by
        simp only [numericInt, List.mem_cons, List.not_mem_nil, or_false] at hint
        rcases hint with rfl | rfl | rfl | rfl | rfl | rfl | rfl | rfl
        all_goals first
          | exact absurd (by decide) hlimit
          | decide
      rw [if_neg hconverted.1, if_pos hint, hn] at hstated
      cases hstated
      rw [if_neg hlimit, if_neg hconverted.1, if_neg hconverted.2.1, if_neg hconverted.2.2]
      exact iff_of_true (.inl rfl) trivial
  · rw [if_neg (by decide), if_neg (by decide), if_pos rfl, hx] at hstated
    cases hstated
    rw [if_neg (by decide), if_neg (by decide), if_neg (by decide), if_neg (by decide)]
    exact iff_of_true (.inl rfl) trivial
  · have hlimit : ¬ (field = "max_runners" ∨ field = "min_idle") := by
      rintro (rfl | rfl)
      · exact hint (by decide)
      · exact hint (by decide)
    rw [if_neg hlimit]
    by_cases hunconverted : field ∈ unconvertedFields
    · have hplain : ¬ (field = "network_mode" ∨ field = "scope") := by
        rintro (rfl | rfl)
        · exact absurd hunconverted (by decide)
        · exact absurd hunconverted (by decide)
      rw [if_pos hunconverted] at hstated ⊢
      obtain rfl := Except.ok.inj hstated
      rw [if_neg hplain]
      show SameValue (.str (pyStr value)) value ↔ _
      rw [sameValue_str_iff]
      constructor
      · exact fun heq => ⟨_, heq⟩
      · rintro ⟨s, rfl⟩
        rfl
    · rw [if_neg hunconverted, if_neg hint, if_neg hcpu] at hstated
      rw [if_neg hunconverted]
      -- three fields are left
      by_cases hsize : field = "work_tmpfs_size"
      · subst hsize
        rw [if_pos rfl] at hstated ⊢
        cases hstated
        exact sameValue_str_iff.trans (Iff.trans (by simp) asSize_eq_iff)
      rw [if_neg hsize] at hstated ⊢
      by_cases hmode : field = "network_mode"
      · subst hmode
        cases hstated
        exact iff_of_true (.inl (congrArg Json.str (if_pos (.inl rfl)))) trivial
      rw [if_neg hmode] at hstated
      cases hstated
      have hexclude : field = "exclude_repos" := by
        simp only [unconvertedFields, numericInt, List.mem_cons, List.not_mem_nil, or_false,
          not_or] at hunconverted hint
        tauto
      subst hexclude
      rw [if_pos rfl]
      exact sameValue_str_iff.trans (Iff.trans (by simp) asCsv_eq_iff)

/-- **A patched value is the stated one** exactly when it is taken alike, whatever else the database
overrides, where it does not take the name for another one. -/
theorem patched_eq_stated_iff {q : ControlRequest} {w : World} {e : EffectiveConfig}
    {name : String} {data stated effective : List (String × Json)} {patched : PoolConfig}
    (hload : loadPool environ config defaults globalPat (.dict kvs) = .ok base)
    (hbase : q.deps.basePool name = some base)
    (hdata : w.store.toDatabase.overridden name = .ok data) (hfresh : field ∉ data.map Prod.fst)
    (hname : ¬ w.store.MistakesPool name) (hroute : q.route = .patchPool name)
    (hbody : q.request.jsonBody = [(field, value)]) (haccepted : q.Accepted w)
    (he : q.deps.resolver.resolve (q.run w).2.store.toDatabase = .ok e)
    (hpatched : e.pools.find? (·.name = name) = some patched)
    (hstated : loadValues environ config defaults globalPat (setItem kvs (field, value)) =
      .ok stated)
    (heffective : overlaidValues data stated = .ok effective) :
    SameValues patched.values effective ↔ TakenAlike field value := by
  obtain ⟨hfield, running, coerced, hrunning, hcoerced, hfind⟩ :=
    patched_find hbase hdata hfresh hname hroute hbody haccepted he
  obtain rfl := Option.some.inj (hpatched.symm.trans hfind)
  rw [loadValues_setItem hload hfield] at hstated
  cases hvalue : statedValue field value with
  | error err =>
    rw [hvalue] at hstated
    cases hstated
  | ok new =>
    rw [hvalue] at hstated
    obtain rfl : withValue base.values field new = stated := Except.ok.inj hstated
    rw [overlaidValues_withValue hfresh, overlaidValues_eq, hrunning] at heffective
    obtain rfl : withValue running.values field new = effective := Except.ok.inj heffective
    rw [values_set hfield hcoerced, sameValues_withValue_iff (mem_values hfield)]
    exact sameValue_iff hfield hcoerced hvalue

/-- The items of a pool in `config.yml`, and the pool. -/
def statedItems : List (String × Json) :=
  [("name", .str "ci"), ("owner", .str "acme"), ("pat", .str "ghp")]

def statedPool : PoolConfig :=
  { name := "ci", pat := "ghp", owner := "acme", cpuLimit := .finite (3 / 2) }

/-- A patch of one of its fields. -/
def patchField (field : String) (value : Json) : ControlRequest where
  deps := ⟨plainSite [statedPool], "s3cret", ""⟩
  route := .patchPool "ci"
  request := { method := .patch, path := ["api", "config", "pools", "ci"], body := some (.dict
    [(field, value)]) }

theorem patched_eq_stated_iff_number : ∃ e stated,
    (patchField "max_runners" (.int 5)).deps.resolver.resolve
      ((patchField "max_runners" (.int 5)).run .empty).2.store.toDatabase = .ok e ∧
    loadValues (fun _ => .ok "") [] [] "" (setItem statedItems ("max_runners", .int 5)) =
      .ok stated ∧
    (SameValues { statedPool with maxRunners := 5 }.values stated ↔
      TakenAlike "max_runners" (.int 5)) :=
  ⟨_, _, rfl, rfl, @patched_eq_stated_iff (fun _ => .ok "") [] [] statedItems "" "max_runners"
    statedPool (.int 5) (patchField "max_runners" (.int 5)) .empty _ "ci" [] _ _
    { statedPool with maxRunners := 5 } rfl rfl rfl List.not_mem_nil (by decide) rfl rfl
    ⟨_, rfl, by decide, by decide⟩ rfl rfl rfl rfl⟩

/-- Two patterns, as a list. -/
def excludeList : Json := .list [.str "legacy-*", .str "scratch"]

/-- **A list that is patched excludes nothing**: it is kept as the text that Python prints. In
`config.yml` the same list excludes the repositories. -/
theorem patched_list_excludes_nothing :
    (patchField "exclude_repos" excludeList).Accepted .empty ∧
    (∃ e patched, (patchField "exclude_repos" excludeList).deps.resolver.resolve
        ((patchField "exclude_repos" excludeList).run .empty).2.store.toDatabase = .ok e ∧
      e.pools = [patched] ∧ patched.excludeRepos = "['legacy-*', 'scratch']" ∧
      patched.excludesRepo "scratch" = false) ∧
    ∃ stated, loadPool (fun _ => .ok "") [] [] ""
        (.dict (setItem statedItems ("exclude_repos", excludeList))) = .ok stated ∧
      validationErrors [stated] = .ok [] ∧ stated.excludeRepos = "legacy-*,scratch" ∧
      stated.excludesRepo "scratch" = true :=
  ⟨⟨_, rfl, by decide, by decide⟩, ⟨_, _, rfl, rfl, rfl, by decide +kernel⟩, _, rfl,
    by decide +kernel, by decide +kernel, by decide +kernel⟩

end RunnerSwarm
