import RunnerSwarm.Python

/-!
# Pool configuration

`PoolConfig` with its derived properties, and `validationErrors`, the checks a configuration has
to pass before the orchestrator starts or the API accepts an edit.

A size such as `4g` is read with `int`, which refuses more than 4300 digits by a `ValueError`; so
`parseSize`, and with it every property and check that reads a size, can raise.
-/

namespace RunnerSwarm

/-- `DEFAULT_RUNNER_IMAGE`. -/
def defaultRunnerImage : String := "ghcr.io/mechemsi/rorch-runner:\x7bversion\x7d"

/-- `AUTO_WORK_TMPFS_FALLBACK`: the work tmpfs when `memory_limit` is not a plain size. -/
def autoWorkTmpfsFallback : String := "4g"

/-- Configuration for a single runner pool. -/
structure PoolConfig where
  name : String
  pat : String
  owner : String
  repo : String := ""
  scope : String := "organization"
  repoDiscoveryTtl : ℤ := 600
  githubPollInterval : ℤ := 60
  queuedMinAge : ℤ := 0
  /-- Set when several orchestrators serve the same pools. -/
  «instance» : String := ""
  stuckTimeout : ℤ := 8
  repoCheckWorkers : ℤ := 6
  runnerOperationWorkers : ℤ := 4
  maxRunners : ℤ := 3
  minIdle : ℤ := 1
  runnerLabels : String := "self-hosted,linux,x64,docker"
  runnerImage : String := defaultRunnerImage
  memoryLimit : String := "2g"
  cpuLimit : PyFloat := .finite 0
  workTmpfsSize : String := "auto"
  networkMode : String := "host"
  includePublicRepos : Bool := false
  excludeRepos : String := ""
  jobStartedHook : String := ""
  provider : String := "github"
  baseUrl : String := ""
  deriving DecidableEq

/-! ### Sizes -/

/-- `re.IGNORECASE` on a unit letter: the Kelvin sign is a `k` too. -/
def foldUnit (c : Char) : Char := if c.toNat = 0x212a then 'k' else c.toLower

/-- The unit after the digits of a size: `[kmg]?b?`, in either case. -/
def sizeUnit (rest : List Char) : Option ℕ :=
  match rest.map foldUnit with
  | [] | ['b'] => some 1
  | ['k'] | ['k', 'b'] => some 1024
  | ['m'] | ['m', 'b'] => some (1024 ^ 2)
  | ['g'] | ['g', 'b'] => some (1024 ^ 3)
  | _ => none

/-- Bytes in a Docker-style size such as `4g` or `512m`; `none` if malformed. -/
def parseSize (value : String) : Except PyError (Option ℕ) :=
  let s := stripChars value.toList
  let digits := s.takeWhile fun c => (digitValue c).isSome
  match sizeUnit (s.drop digits.length) with
  | none => .ok none
  | some unit =>
      if digits = [] then .ok none
      else if maxStrDigits < digits.length then .error .valueError
      else .ok (some (ofDigits (digits.filterMap digitValue) * unit))

namespace PoolConfig

variable (p : PoolConfig)

def isGitea : Bool := p.provider = "gitea"

def isPersonalLevel : Bool := p.repo = "" && p.scope = "personal"

def isOrgLevel : Bool := p.repo = "" && !p.isPersonalLevel

def display : String :=
  if p.isPersonalLevel then p.owner ++ " [personal: all repos]"
  else if p.isOrgLevel then p.owner ++ " [org]" else p.owner ++ "/" ++ p.repo

/-- The pool name as it appears in container names. -/
def safeName : String := replaceChar (replaceChar (lower p.name) ' ' '-') '/' '-'

def containerPrefix : String :=
  if p.instance ≠ "" then "gh-runner-" ++ p.instance ++ "-" ++ p.safeName
  else "gh-runner-" ++ p.safeName

def apiRunnersPath : String :=
  if p.repo ≠ "" then "/repos/" ++ p.owner ++ "/" ++ p.repo ++ "/actions/runners"
  else "/orgs/" ++ p.owner ++ "/actions/runners"

/-- Labels the runner registers with: the configured ones plus the defaults `config.sh` adds. -/
def labelSet : List String :=
  let configured := (p.runnerLabels.toList.splitOn ',').map fun l => lower (strip (String.ofList l))
  (if p.isGitea then configured else configured ++ ["self-hosted", "linux", "x64"]).filter (· ≠ "")

/-- Whether a job asking for `labels` can run on this pool's runners. -/
def servesLabels (labels : List String) : Bool := labels.all fun l => lower l ∈ p.labelSet

/-- A repository-scoped runtime pool derived from this pool. -/
def forRepository (repo : String) : PoolConfig :=
  { p with name := p.name ++ "-" ++ repo, repo := repo, scope := "repository", minIdle := 0 }

/-- Docker reads size=0 as "unbounded", so every zero spelling means off. -/
def workTmpfsEnabled : Except PyError Bool := do
  let size := strip p.workTmpfsSize
  if size = "" then return false
  return (← parseSize size) ≠ some 0

/-- The `size=` for the work dir tmpfs, or `""` when it is disabled. -/
def effectiveWorkTmpfsSize : Except PyError String := do
  let size := strip p.workTmpfsSize
  if !(← p.workTmpfsEnabled) then return ""
  if lower size ≠ "auto" then return size
  match ← parseSize p.memoryLimit with
  | none | some 0 => return autoWorkTmpfsFallback
  | some memory => return (← strOfInt (memory / 2 / 1024 ^ 2 : ℕ)) ++ "m"

/-- The tmpfs is enabled and its size is malformed. -/
def badWorkTmpfsSize : Except PyError Bool := do
  if !(← p.workTmpfsEnabled) then return false
  return (← parseSize (← p.effectiveWorkTmpfsSize)) = none

end PoolConfig

/-! ### Validation -/

/-- `re.fullmatch(r"[a-z0-9]+", s)`. -/
def isLowerAlnum (s : String) : Bool :=
  s ≠ "" && s.toList.all fun c => c.isLower || c.isDigit

/-- One message when the check fails. -/
def errorIf (failed : Bool) (message : String) : List String := if failed then [message] else []

/-- The messages about one pool. -/
def poolErrors (p : PoolConfig) : Except PyError (List String) := do
  let who := "Pool '" ++ p.name ++ "': "
  let badTmpfs ← p.badWorkTmpfsSize
  return errorIf (p.pat = "" || startsWith p.pat "$\x7b")
      (who ++ "pat is missing or unresolved (got: '" ++ p.pat ++ "')") ++
    errorIf (p.owner = "") (who ++ "owner is required") ++
    errorIf (p.provider ≠ "github" && p.provider ≠ "gitea")
      (who ++ "unsupported provider '" ++ p.provider ++ "'") ++
    errorIf (p.isGitea && !startsWith p.baseUrl "http://" && !startsWith p.baseUrl "https://")
      (who ++ "a gitea pool needs base_url (http:// or https://)") ++
    errorIf (p.provider = "github" && p.baseUrl ≠ "")
      (who ++ "base_url only applies to provider gitea") ++
    errorIf (p.scope ≠ "organization" && p.scope ≠ "personal" && p.scope ≠ "repository")
      (who ++ "unsupported scope '" ++ p.scope ++ "'") ++
    errorIf (p.scope = "personal" && p.repo ≠ "")
      (who ++ "personal scope cannot also set repo") ++
    errorIf (p.scope = "repository" && p.repo = "") (who ++ "repository scope requires repo") ++
    errorIf (p.repoDiscoveryTtl < 0) (who ++ "repo_discovery_ttl cannot be negative") ++
    errorIf (p.githubPollInterval ≠ 0 &&
        !(15 ≤ p.githubPollInterval && p.githubPollInterval ≤ 3600))
      (who ++ "github_poll_interval must be 0 or between 15 and 3600") ++
    errorIf (!(0 ≤ p.queuedMinAge && p.queuedMinAge ≤ 86400))
      (who ++ "queued_min_age must be between 0 and 86400 seconds") ++
    errorIf (p.instance ≠ "" && !isLowerAlnum p.instance)
      ("instance '" ++ p.instance ++ "' must be lowercase letters and digits only") ++
    errorIf (!(1 ≤ p.stuckTimeout && p.stuckTimeout ≤ 1440))
      (who ++ "stuck_timeout must be between 1 and 1440 minutes") ++
    errorIf (!(1 ≤ p.repoCheckWorkers && p.repoCheckWorkers ≤ 32))
      (who ++ "repo_check_workers must be between 1 and 32") ++
    errorIf (!(1 ≤ p.runnerOperationWorkers && p.runnerOperationWorkers ≤ 16))
      (who ++ "runner_operation_workers must be between 1 and 16") ++
    errorIf (p.maxRunners < 0) (who ++ "max_runners cannot be negative") ++
    errorIf (p.minIdle < 0) (who ++ "min_idle cannot be negative") ++
    errorIf (p.networkMode ≠ "host" && p.networkMode ≠ "bridge")
      (who ++ "network_mode must be 'host' or 'bridge'") ++
    errorIf badTmpfs
      (who ++ "work_tmpfs_size must be 'auto', a size like '4g' or '512m', or '0' to disable " ++
        "(got: '" ++ p.workTmpfsSize ++ "')") ++
    errorIf (p.jobStartedHook ≠ "" && !startsWith p.jobStartedHook "/")
      (who ++ "job_started_hook must be an absolute host path")

/-- One message per invalid pool setting; empty means the config is usable. -/
def validationErrors (pools : List PoolConfig) : Except PyError (List String) := do
  return (← pools.mapM poolErrors).flatten

end RunnerSwarm
