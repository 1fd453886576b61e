import RunnerSwarm.Config.Pool
import RunnerSwarm.Lib.Loop
import RunnerSwarm.Lib.Table

/-!
# The effective configuration

`resolve` lays the rows of the database over the pools of `config.yml`: a row named like such a
pool overrides fields of it or disables it, and a row that the API created defines a pool of its
own, whose token is read from the environment.

The data of a row is any JSON. `coercePoolFields` applies `int` and `float` to it, which may raise,
and the size checks of `validationErrors` may as well; neither is inside the handlers that fall
back or skip.
-/

namespace RunnerSwarm

/-! ### The database -/

/-- What `json.loads` makes of a stored text: a value, a `ValueError`, or a `RecursionError` for one
nested too deep. -/
inductive Decoded
  | value (data : Json)
  | malformed
  | tooDeep

/-- A row of `pool_overrides`, without its key. -/
structure OverrideRow where
  data : Decoded
  origin : String
  disabled : Bool

/-- Operator-set control flags for one pool. -/
structure PoolState where
  paused : Bool := false
  draining : Bool := false
  deriving DecidableEq

/-- The tables that configure the orchestrator. -/
structure Database where
  poolOverrides : Table String OverrideRow
  globalOverrides : Table String String
  poolState : Table String PoolState
  protectedContainers : List String

/-- A value of the dict `pool_overrides` returns. -/
structure OverrideEntry where
  data : Json
  origin : String
  disabled : Bool

/-- `pool_overrides` on the rows of the table. -/
def readOverrides : List (String × OverrideRow) → Except PyError (List (String × OverrideEntry))
  | [] => .ok []
  | (pool, row) :: rows =>
      match row.data with
      | .tooDeep => .error .recursionError
      | .malformed => readOverrides rows
      | .value data => do
          let entries ← readOverrides rows
          return (pool, ⟨data, row.origin, row.disabled⟩) :: entries

/-! ### Fields -/

/-- `TUNABLE_FIELDS`. -/
def tunableFields : List String :=
  ["max_runners", "min_idle", "runner_labels", "runner_image", "memory_limit", "cpu_limit",
    "work_tmpfs_size", "repo_discovery_ttl", "github_poll_interval", "queued_min_age",
    "stuck_timeout", "repo_check_workers", "runner_operation_workers", "network_mode",
    "exclude_repos"]

/-- `IDENTITY_FIELDS`. -/
def identityFields : List String := ["name", "owner", "repo", "scope"]

/-- `_NUMERIC_INT`. -/
def numericInt : List String :=
  ["max_runners", "min_idle", "repo_discovery_ttl", "github_poll_interval", "queued_min_age",
    "stuck_timeout", "repo_check_workers", "runner_operation_workers"]

/-- A coerced value. -/
inductive FieldValue
  | int (n : ℤ)
  | float (x : PyFloat)
  | str (s : String)

/-- The body of the loop in `coerce_pool_fields`. -/
def coercePoolField (key : String) (value : Json) : Except PyError FieldValue :=
  if key ∈ numericInt then .int <$> pyInt value
  else if key = "cpu_limit" then .float <$> pyFloat value
  else if key = "network_mode" ∨ key = "scope" then .ok (.str (lower (pyStr value)))
  else .ok (.str (pyStr value))

/-- `coerce_pool_fields` on the items of a dict. -/
def coercePoolFields (data : List (String × Json)) : Except PyError (List (String × FieldValue)) :=
  data.mapM fun kv => do
    let value ← coercePoolField kv.1 kv.2
    return (kv.1, value)

/-- One field of `replace(pool, …)` or `PoolConfig(…)`; the coerced value has the field's type. -/
def PoolConfig.set (p : PoolConfig) (field : String × FieldValue) : PoolConfig :=
  match field with
  | ("repo", .str s) => { p with repo := s }
  | ("scope", .str s) => { p with scope := s }
  | ("max_runners", .int n) => { p with maxRunners := n }
  | ("min_idle", .int n) => { p with minIdle := n }
  | ("runner_labels", .str s) => { p with runnerLabels := s }
  | ("runner_image", .str s) => { p with runnerImage := s }
  | ("memory_limit", .str s) => { p with memoryLimit := s }
  | ("cpu_limit", .float x) => { p with cpuLimit := x }
  | ("work_tmpfs_size", .str s) => { p with workTmpfsSize := s }
  | ("repo_discovery_ttl", .int n) => { p with repoDiscoveryTtl := n }
  | ("github_poll_interval", .int n) => { p with githubPollInterval := n }
  | ("queued_min_age", .int n) => { p with queuedMinAge := n }
  | ("stuck_timeout", .int n) => { p with stuckTimeout := n }
  | ("repo_check_workers", .int n) => { p with repoCheckWorkers := n }
  | ("runner_operation_workers", .int n) => { p with runnerOperationWorkers := n }
  | ("network_mode", .str s) => { p with networkMode := s }
  | ("exclude_repos", .str s) => { p with excludeRepos := s }
  | _ => p

/-- `_apply`. What is not a dict has no `items`. -/
def applyOverride (base : PoolConfig) : Json → Except PyError PoolConfig
  | .dict data => do
      let fields ← coercePoolFields data
      return (fields.filter fun f => f.1 ∈ tunableFields).foldl PoolConfig.set base
  | _ => .error .attributeError

/-- `PoolConfig(name=name, pat=pat, **fields)`, `none` for the `TypeError` without an owner. -/
def constructPool (name pat : String) (fields : List (String × FieldValue)) : Option PoolConfig :=
  match fields.find? fun f => f.1 = "owner" with
  | some (_, .str owner) =>
      some (fields.foldl PoolConfig.set { name := name, pat := pat, owner := owner })
  | _ => none

/-- The environment variable that holds the token of a created pool. -/
def patEnv (data : List (String × Json)) : String :=
  (getItem data "pat_env").elim "GITHUB_PAT" pyStr

/-- The arguments a created pool is constructed from, before their coercion. -/
def definitionItems (data : List (String × Json)) : List (String × Json) :=
  data.filter fun kv => kv.1 ∈ tunableFields ++ identityFields

/-- `_build_ui_pool`. `environ` is `os.environ.get(…, "")`, which raises for a name that cannot be
encoded. -/
def buildUiPool (environ : String → Except PyError String) (name : String) :
    Json → Except PyError (Option PoolConfig)
  | .dict data => do
      let pat ← environ (patEnv data)
      if pat = "" then return none
      let fields ← coercePoolFields (definitionItems data)
      match constructPool name pat (fields.filter fun f => f.1 ≠ "name") with
      | none => return none
      | some pool =>
          let errors ← validationErrors [pool]
          return if errors = [] then some pool else none
  | _ => .error .attributeError

/-! ### Resolution -/

/-- `_as_int`. -/
def asInt (values : Table String String) (key : String) (fallback : ℤ) : ℤ :=
  match values.get key with
  | none => fallback
  | some raw =>
      match intOfString raw with
      | none => fallback
      | some parsed => if 0 ≤ parsed then parsed else fallback

/-- The entry `pop` finds for a name. -/
def entryFor (name : String) (overrides : List (String × OverrideEntry)) : Option OverrideEntry :=
  (overrides.find? fun e => e.1 = name).map Prod.snd

/-- What becomes of a pool of `config.yml` with its entry. -/
def resolveOne (base : PoolConfig) : Option OverrideEntry → Except PyError (List PoolConfig)
  | none => .ok [base]
  | some entry =>
      if entry.disabled then .ok [] else (fun pool => [pool]) <$> applyOverride base entry.data

/-- The loop over the pools of `config.yml`: their resolved pools and the entries left over. -/
def resolveBase : List PoolConfig → List (String × OverrideEntry) →
    Except PyError (List PoolConfig × List (String × OverrideEntry))
  | [], overrides => .ok ([], overrides)
  | base :: rest, overrides => do
      let own ← resolveOne base (entryFor base.name overrides)
      let (pools, left) ← resolveBase rest (overrides.filter fun e => e.1 ≠ base.name)
      return (own ++ pools, left)

/-- What becomes of an entry without a counterpart in `config.yml`. -/
def resolveEntry (environ : String → Except PyError String) (name : String)
    (entry : OverrideEntry) : Except PyError (Option PoolConfig) :=
  if entry.origin ≠ "ui" ∨ entry.disabled = true then .ok none
  else buildUiPool environ name entry.data

/-- The loop over the entries that no pool of `config.yml` has taken. -/
def resolveCreated (environ : String → Except PyError String) :
    List (String × OverrideEntry) → Except PyError (List PoolConfig)
  | [] => .ok []
  | e :: rest => do
      let created ← resolveEntry environ e.1 e.2
      let pools ← resolveCreated environ rest
      return created.toList ++ pools

structure EffectiveConfig where
  pools : List PoolConfig
  maxTotalRunners : ℤ
  maxRunnerLifetime : ℤ
  paused : Bool
  states : Table String PoolState
  protectedContainers : List String

/-- `ConfigResolver`, with the environment it reads. -/
structure ConfigResolver where
  basePools : List PoolConfig
  baseMaxTotal : ℤ
  baseMaxLifetime : ℤ
  environ : String → Except PyError String

namespace ConfigResolver

/-- `resolve` with a store. -/
def resolve (r : ConfigResolver) (db : Database) : Except PyError EffectiveConfig := do
  let overrides ← readOverrides db.poolOverrides.rows
  let (pools, left) ← resolveBase r.basePools overrides
  let created ← resolveCreated r.environ left
  return {
    pools := pools ++ created
    maxTotalRunners := asInt db.globalOverrides "max_total_runners" r.baseMaxTotal
    maxRunnerLifetime := asInt db.globalOverrides "max_runner_lifetime" r.baseMaxLifetime
    paused := (db.globalOverrides.get "paused").getD "0" = "1"
    states := db.poolState
    protectedContainers := db.protectedContainers }

/-- `resolve` without one. -/
def resolveWithoutStore (r : ConfigResolver) : EffectiveConfig where
  pools := r.basePools
  maxTotalRunners := r.baseMaxTotal
  maxRunnerLifetime := r.baseMaxLifetime
  paused := false
  states := Table.empty
  protectedContainers := []

end ConfigResolver

end RunnerSwarm
