import RunnerSwarm.Config.Pool
import RunnerSwarm.Lib.Loop

/-!
# Loading the pools of `config.yml`

`loadFromYaml` builds the pools from what `yaml.safe_load` returns. The token of a pool may be given
in its own item, as a reference to an environment variable or not; the pools of GitHub that have
none share a global one.

`PoolConfig` does not check the types of its fields. Here a value that is not converted has to be of
the type of its field.

* `loadPool_gitea`: the token of a Gitea pool is its own one;
* `loadPool_baseUrl`: the base URL of a loaded pool does not end with a slash;
* `loadFromYaml_ok`: the loaded pools are those of the items, one by one.
-/

namespace RunnerSwarm

theorem getItem_cons (k : String) (v : Json) (kvs : List (String × Json)) (key : String) :
    getItem ((k, v) :: kvs) key = if k = key then some v else getItem kvs key := by
  unfold getItem
  rw [List.find?_cons]
  by_cases hkey : k = key
  · rw [if_pos hkey, hkey, beq_self_eq_true]
    rfl
  · rw [if_neg hkey, beq_eq_false_iff_ne.2 hkey]

/-- `d.get(key, default)`. -/
def getOr (kvs : List (String × Json)) (key : String) (default : Json) : Json :=
  (getItem kvs key).getD default

/-- `d[key]`. -/
def requireItem (kvs : List (String × Json)) (key : String) : Except PyError Json :=
  match getItem kvs key with
  | some value => .ok value
  | none => .error .keyError

/-- A value for a field of type `str`. -/
def asText : Json → Except PyError String
  | .str s => .ok s
  | _ => .error .typeError

/-- A value for a field of type `int`. -/
def asNumber : Json → Except PyError ℤ
  | .int n => .ok n
  | _ => .error .typeError

/-- The object `get` is called on. -/
def asDict : Json → Except PyError (List (String × Json))
  | .dict kvs => .ok kvs
  | _ => .error .attributeError

/-- What a `for` loop runs over. -/
def asIterable : Json → Except PyError (List Json)
  | .list xs => .ok xs
  | .dict kvs => .ok (kvs.map fun kv => .str kv.1)
  | .str s => .ok (s.toList.map fun c => .str (String.ofList [c]))
  | _ => .error .typeError

/-- `_as_csv`. -/
def asCsv : Json → String
  | .list xs => ",".intercalate ((xs.map fun x => strip (pyStr x)).filter (· ≠ ""))
  | x => if pyBool x then strip (pyStr x) else ""

theorem asCsv_str (s : String) : asCsv (.str s) = strip s := by
  have hempty : strip "" = "" := by decide +kernel
  by_cases hs : s = ""
  · rw [hs, hempty]
    rfl
  · exact if_pos (decide_eq_true hs)

/-- `_as_size`. -/
def asSize : Json → String
  | .null => ""
  | x => strip (pyStr x)

section Loader

variable (environ : String → Except PyError String)

/-- `resolve_env`, and nothing for a value that is false: it gives way to the next one. -/
def resolveEnv (value : Json) : Except PyError String :=
  if !pyBool value then .ok ""
  else
    match value with
    | .str s =>
        if startsWith s "$\x7b" && s.toList.getLast? = some (Char.ofNat 125) then
          environ (String.ofList (s.toList.drop 2).dropLast)
        else .ok s
    | _ => .error .attributeError

/-- The token of a pool, from its own one and the global one. -/
def poolPat (provider own globalPat : String) : String :=
  if own ≠ "" then own else if provider = "github" then globalPat else ""

/-- One pool of `_load_from_yaml`. -/
def loadPool (config defaults : List (String × Json)) (globalPat : String) (item : Json) :
    Except PyError PoolConfig := do
  let p ← asDict item
  let setting (key : String) (default : Json) := getOr p key (getOr defaults key default)
  let provider := lower (pyStr (getOr p "provider" (.str "github")))
  -- a Gitea pool must not inherit the GitHub token: it would go to another server
  let own ← resolveEnv environ (getOr p "pat" (.str ""))
  let scope := lower (pyStr (getOr p "scope" (.str "organization")))
  let globalMin := getOr defaults "min_idle" (.int 1)
  return {
    name := ← asText (← requireItem p "name")
    pat := poolPat provider own globalPat
    owner := ← asText (← requireItem p "owner")
    repo := ← asText (getOr p "repo" (.str ""))
    scope := scope
    repoDiscoveryTtl := ← pyInt (setting "repo_discovery_ttl" (.int 600))
    githubPollInterval := ← pyInt (setting "github_poll_interval" (.int 60))
    queuedMinAge := ← pyInt (setting "queued_min_age" (.int 0))
    «instance» := lower (strip (pyStr (getOr config "instance" (.str ""))))
    stuckTimeout := ← pyInt (setting "stuck_timeout" (.int 8))
    repoCheckWorkers := ← pyInt (setting "repo_check_workers" (.int 6))
    runnerOperationWorkers := ← pyInt (setting "runner_operation_workers" (.int 4))
    maxRunners := ← asNumber (setting "max_runners" (.int 3))
    minIdle := ← asNumber (getOr p "min_idle" (if scope = "personal" then .int 0 else globalMin))
    runnerLabels := ← asText (setting "runner_labels" (.str "self-hosted,linux,x64,docker"))
    runnerImage := ← asText (setting "runner_image" (.str defaultRunnerImage))
    memoryLimit := ← asText (setting "memory_limit" (.str "2g"))
    cpuLimit := ← pyFloat (setting "cpu_limit" (.float (.finite (3 / 2))))
    workTmpfsSize := asSize (setting "work_tmpfs_size" (.str "auto"))
    networkMode := lower (pyStr (setting "network_mode" (.str "host")))
    includePublicRepos := pyBool (setting "include_public_repos" (.bool false))
    excludeRepos := asCsv (setting "exclude_repos" (.str ""))
    jobStartedHook := strip (pyStr (getOr p "job_started_hook" (.str "")))
    provider := provider
    baseUrl := rstripChar (strip (pyStr (getOr p "base_url" (.str "")))) '/' }

/-- `raw.get("pools", [])`. -/
def poolItems (raw : Json) : Except PyError (List Json) := do
  asIterable (getOr (← asDict raw) "pools" (.list []))

/-- `_load_from_yaml`. -/
def loadFromYaml (raw : Json) : Except PyError (List PoolConfig) := do
  let config ← asDict raw
  let defaults ← asDict (getOr config "defaults" (.dict []))
  let own ← resolveEnv environ (getOr defaults "pat" (.str ""))
  let globalPat ← (if own ≠ "" then .ok own else environ "GITHUB_PAT")
  let items ← poolItems raw
  items.mapM (loadPool environ config defaults globalPat)

end Loader

variable {environ : String → Except PyError String} {config defaults : List (String × Json)}
  {globalPat : String} {item raw : Json} {p : PoolConfig} {pools : List PoolConfig}

/-- What a loaded pool has for its forge. -/
theorem loadPool_ok (h : loadPool environ config defaults globalPat item = .ok p) :
    ∃ kvs own, item = .dict kvs ∧ resolveEnv environ (getOr kvs "pat" (.str "")) = .ok own ∧
      p.pat = poolPat p.provider own globalPat ∧ ∃ url, p.baseUrl = rstripChar url '/' := by
  obtain ⟨kvs, hkvs, h⟩ := bind_eq_ok h
  obtain ⟨own, hown, h⟩ := bind_eq_ok h
  have hitem : item = .dict kvs := by
    cases item <;> cases hkvs
    rfl
  -- the other fields
  repeat obtain ⟨_, -, h⟩ := bind_eq_ok h
  cases h
  exact ⟨kvs, own, hitem, hown, rfl, _, rfl⟩

/-- **The token of a Gitea pool** is its own one. -/
theorem loadPool_gitea (h : loadPool environ config defaults globalPat item = .ok p)
    (hgitea : p.isGitea = true) :
    ∃ kvs, item = .dict kvs ∧ resolveEnv environ (getOr kvs "pat" (.str "")) = .ok p.pat := by
  obtain ⟨kvs, own, hitem, hown, hpat, -⟩ := loadPool_ok h
  have hprovider : p.provider = "gitea" := of_decide_eq_true hgitea
  refine ⟨kvs, hitem, ?_⟩
  rw [hpat, hprovider, hown]
  unfold poolPat
  by_cases hempty : own = ""
  · rw [hempty]
    rfl
  · rw [if_pos hempty]

/-- The base URL of a loaded pool does not end with a slash. -/
theorem loadPool_baseUrl (h : loadPool environ config defaults globalPat item = .ok p) :
    rstripChar p.baseUrl '/' = p.baseUrl := by
  obtain ⟨-, -, -, -, -, url, hurl⟩ := loadPool_ok h
  rw [hurl]
  unfold rstripChar
  rw [String.toList_ofList, List.rdropWhile_idempotent]

/-- **The loaded pools** are those of the items, in their order. -/
theorem loadFromYaml_ok (h : loadFromYaml environ raw = .ok pools) :
    ∃ config defaults globalPat items, poolItems raw = .ok items ∧
      List.Forall₂ (fun item p => loadPool environ config defaults globalPat item = .ok p)
        items pools := by
  obtain ⟨config, -, h⟩ := bind_eq_ok h
  obtain ⟨defaults, -, h⟩ := bind_eq_ok h
  obtain ⟨own, -, h⟩ := bind_eq_ok h
  obtain ⟨globalPat, -, h⟩ := bind_eq_ok h
  obtain ⟨items, hitems, h⟩ := bind_eq_ok h
  exact ⟨config, defaults, globalPat, items, hitems, forall₂_of_mapM h⟩

end RunnerSwarm
