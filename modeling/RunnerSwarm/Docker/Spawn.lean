import RunnerSwarm.Docker.Client
import RunnerSwarm.GitHub.Forges
import RunnerSwarm.Store.History

/-!
# Starting a runner

`spawnRunner` is `spawn_runner`: it looks for the image, asks the forge for a registration token
when the pool is a Gitea pool, and calls `docker run`. What the method meets outside is a
`SpawnHost`.

* `spawnArgs` are the arguments of `docker`, options with their values but for `-d`;
* `containerEnv` is the environment the started container gets from such arguments, and
  `containerEnv_spawnArgs` what it is for the arguments of a pool;
* `spawnRunner_ran`: the cases in which `docker run` is called.
-/

namespace RunnerSwarm

def runnerWorkDir : String := "/home/runner/actions-runner/_work"

/-- `RUNNER_UID` and `RUNNER_GID`. -/
def runnerUser : String := "uid=1000,gid=1000"

def jobStartedHookPath : String := "/opt/rorch/job-started-hook.sh"

def toolCacheDir : String := "/opt/hostedtoolcache"

/-- `TOOL_CACHE_ENV`. -/
def toolCacheEnv : List String := ["RUNNER_TOOL_CACHE", "AGENT_TOOLSDIRECTORY"]

/-- `_CACHE_MOUNTS`: the directories of the host and of the container. -/
def cacheMounts : List (String × String) :=
  [("cache", "/home/runner/.cache"), ("npm", "/home/runner/.npm"),
    ("composer", "/home/runner/.composer"), ("nuget", "/home/runner/.nuget")]

/-- `expand_image`, with the version of the orchestrator. -/
def expandImage (image version : String) : String :=
  if hasText image "\x7bversion\x7d" then
    replaceText image "\x7bversion\x7d"
      (if version ≠ "" ∧ version ≠ "unknown" then version else "latest")
  else image

/-! ### The arguments of `docker run` -/

/-- Options and their values, as arguments. -/
def optionArgs (options : List (String × String)) : List String :=
  options.flatMap fun option => [option.1, option.2]

/-- A variable of the environment, as an option. -/
def envOption (var : String × String) : String × String := ("-e", var.1 ++ "=" ++ var.2)

namespace PoolConfig

variable (p : PoolConfig)

/-- The directory of the pool's caches on the host. -/
def cacheBase : String := "/opt/runner-cache/" ++ p.containerPrefix

/-- The tmpfs over the work directory. -/
def workTmpfsOptions : Except PyError (List (String × String)) := do
  if !(← p.workTmpfsEnabled) then return []
  let size ← p.effectiveWorkTmpfsSize
  return [("--tmpfs", runnerWorkDir ++ ":rw,exec,size=" ++ size ++ "," ++ runnerUser)]

/-- What the runner registers with: its forge and a secret. -/
def credentials (token : String) : List (String × String) :=
  if p.isGitea then
    [("RORCH_PROVIDER", "gitea"), ("GITEA_URL", p.baseUrl),
      ("GITEA_RUNNER_REGISTRATION_TOKEN", token)]
  else [("GITHUB_PAT", p.pat)]

/-- The variables of every runner. -/
def runnerEnv (name : String) : List (String × String) :=
  [("GITHUB_OWNER", p.owner), ("GITHUB_REPO", p.repo), ("RUNNER_NAME", name),
    ("RUNNER_LABELS", p.runnerLabels)] ++ toolCacheEnv.map (·, toolCacheDir)

def hookOptions : List (String × String) :=
  if p.jobStartedHook ≠ "" then
    [("--mount", "type=bind,src=" ++ p.jobStartedHook ++ ",dst=" ++ jobStartedHookPath ++
        ",readonly"),
      envOption ("ACTIONS_RUNNER_HOOK_JOB_STARTED", jobStartedHookPath)]
  else []

def cpuOptions : List (String × String) :=
  if PyFloat.lt (.finite 0) p.cpuLimit then [("--cpus", p.cpuLimit.repr)] else []

/-- The options of `docker run`, in their order. -/
def spawnOptions (name token : String) (tmpfs : List (String × String)) : List (String × String) :=
  [("--name", name), ("--restart", "no"), ("--network", p.networkMode),
      ("--memory", p.memoryLimit), ("--memory-swap", p.memoryLimit), ("--pids-limit", "512"),
      ("-v", "/var/run/docker.sock:/var/run/docker.sock"),
      ("-v", toolCacheDir ++ ":" ++ toolCacheDir)] ++
    (cacheMounts.map fun mount => ("-v", p.cacheBase ++ "/" ++ mount.1 ++ ":" ++ mount.2)) ++
    tmpfs ++ (p.credentials token ++ p.runnerEnv name).map envOption ++ p.hookOptions ++
    p.cpuOptions

/-- The arguments of `docker`. -/
def spawnArgs (image name token : String) (tmpfs : List (String × String)) : List String :=
  "run" :: "-d" :: optionArgs (p.spawnOptions name token tmpfs) ++ [image]

end PoolConfig

/-- What `spawn_runner` meets. -/
structure SpawnHost where
  /-- `get_version()`. -/
  version : String
  /-- `ensure_image`. -/
  imageUsable : String → Bool
  /-- The digits of the container's name. -/
  uid : String
  /-- `_registration_token`. -/
  registrationToken : Option (PoolConfig → Option String)
  /-- The exit code of `docker`. -/
  exec : List String → ℤ

/-- What `_record` is called with. -/
structure SpawnRecord where
  event : String
  container : String
  pool : String
  reason : String
  deriving DecidableEq

/-- The result of `spawn_runner`, the arguments it has called `docker` with, and what it records. -/
structure SpawnedRunner where
  started : Bool
  args : Option (List String)
  record : SpawnRecord
  deriving DecidableEq

/-- The token for the pool, empty when there is none. -/
def SpawnHost.token (host : SpawnHost) (p : PoolConfig) : String :=
  (host.registrationToken.bind fun registrationToken => registrationToken p).getD ""

/-- `spawn_runner`. -/
def spawnRunner (host : SpawnHost) (p : PoolConfig) : Except PyError SpawnedRunner := do
  let image := expandImage p.runnerImage host.version
  if !host.imageUsable image then
    return ⟨false, none, ⟨eventSpawnFailed, "", p.name, "image " ++ image ++ " unusable"⟩⟩
  let name := p.containerPrefix ++ "-" ++ host.uid
  let tmpfs ← p.workTmpfsOptions
  if p.isGitea && host.token p = "" then
    return ⟨false, none, ⟨eventSpawnFailed, "", p.name, "no Gitea registration token"⟩⟩
  let args := p.spawnArgs image name (host.token p) tmpfs
  let code := host.exec args
  if code = 0 then return ⟨true, some args, ⟨eventSpawn, name, p.name, p.display⟩⟩
  return ⟨false, some args, ⟨eventSpawnFailed, name, p.name, "docker run exit " ++ toString code⟩⟩

/-- **When `docker run` is called**, and with which arguments. -/
theorem spawnRunner_ran {host : SpawnHost} {p : PoolConfig} {s : SpawnedRunner} {args : List String}
    (h : spawnRunner host p = .ok s) (hargs : s.args = some args) :
    (p.isGitea = true → host.token p ≠ "") ∧ ∃ tmpfs, p.workTmpfsOptions = .ok tmpfs ∧
      args = p.spawnArgs (expandImage p.runnerImage host.version)
        (p.containerPrefix ++ "-" ++ host.uid) (host.token p) tmpfs := by
  unfold spawnRunner at h
  dsimp only at h
  split_ifs at h with himage htoken
  · cases h
    cases hargs
  · obtain ⟨tmpfs, -, h⟩ := bind_eq_ok h
    cases h
    cases hargs
  · have hneeded : p.isGitea = true → host.token p ≠ "" := by
      intro hgitea hempty
      rw [hgitea, decide_eq_true hempty] at htoken
      exact htoken rfl
    obtain ⟨tmpfs, htmpfs, h⟩ := bind_eq_ok h
    refine ⟨hneeded, tmpfs, htmpfs, ?_⟩
    split_ifs at h with hcode
    · cases h
      exact (Option.some.inj hargs).symm
    · cases h
      exact (Option.some.inj hargs).symm

/-! ### The environment of a container -/

/-- The options of `docker run` that take a value, as far as they are used. -/
def dockerOptions : List String :=
  ["--name", "--restart", "--network", "--memory", "--memory-swap", "--pids-limit", "-v", "--tmpfs",
    "-e", "--mount", "--cpus"]

/-- How `docker run` reads its options, up to the image. -/
def runOptions : List String → List (String × String)
  | [] => []
  | option :: rest =>
      if option = "-d" then runOptions rest
      else
        match rest with
        | [] => []
        | value :: rest =>
            if option ∈ dockerOptions then (option, value) :: runOptions rest else []

/-- A variable as `-e` takes it. -/
def splitEnv (text : String) : String × String :=
  (String.ofList (text.toList.takeWhile (· ≠ '=')),
    String.ofList (text.toList.dropWhile (· ≠ '=')).tail)

/-- The variables `docker run` sets, for the arguments after `run`. -/
def containerEnv (args : List String) : List (String × String) :=
  ((runOptions args.tail).filter (·.1 = "-e")).map fun option => splitEnv option.2

theorem runOptions_cons {option : String} (h : option ∈ dockerOptions) (value : String)
    (rest : List String) :
    runOptions (option :: value :: rest) = (option, value) :: runOptions rest := by
  have hflag : option ≠ "-d" := by
    rintro rfl
    revert h
    decide
  rw [runOptions, if_neg hflag, if_pos h]

theorem runOptions_optionArgs {options : List (String × String)}
    (h : ∀ option ∈ options, option.1 ∈ dockerOptions) (rest : List String) :
    runOptions (optionArgs options ++ rest) = options ++ runOptions rest := by
  induction options with
  | nil => rfl
  | cons option options ih =>
    have hrest := ih fun o ho => h o (.tail option ho)
    have hargs : optionArgs (option :: options) ++ rest =
        option.1 :: option.2 :: (optionArgs options ++ rest) := rfl
    rw [hargs, runOptions_cons (h option (.head options)), hrest, List.cons_append]

/-- **A variable arrives** as it was passed. -/
theorem splitEnv_envOption {var : String × String} (h : '=' ∉ var.1.toList) :
    splitEnv (envOption var).2 = var := by
  obtain ⟨name, value⟩ := var
  have hname : ∀ c ∈ name.toList, (decide (c ≠ '=')) = true := fun c hc =>
    decide_eq_true fun heq => h (heq ▸ hc)
  have htext : (name ++ "=" ++ value).toList = name.toList ++ '=' :: value.toList := by
    rw [String.toList_append, String.toList_append, List.append_assoc]
    rfl
  unfold splitEnv envOption
  dsimp only
  rw [htext, List.takeWhile_append_of_pos hname, List.dropWhile_append_of_pos hname]
  simp

namespace PoolConfig

variable {p : PoolConfig} {tmpfs : List (String × String)}

theorem workTmpfsOptions_ok (h : p.workTmpfsOptions = .ok tmpfs) :
    ∀ option ∈ tmpfs, option.1 = "--tmpfs" := by
  unfold workTmpfsOptions at h
  obtain ⟨enabled, -, h⟩ := bind_eq_ok h
  split_ifs at h
  · cases h
    exact fun _ hoption => absurd hoption List.not_mem_nil
  · obtain ⟨size, -, h⟩ := bind_eq_ok h
    cases h
    intro option hoption
    rw [List.mem_singleton.1 hoption]

/-- Every option of `spawn_runner` takes a value. -/
theorem spawnOptions_valued (h : p.workTmpfsOptions = .ok tmpfs) (name token : String) :
    ∀ option ∈ p.spawnOptions name token tmpfs, option.1 ∈ dockerOptions := by
  have hmount : "-v" ∈ dockerOptions := by decide
  have henv : "-e" ∈ dockerOptions := by decide
  unfold spawnOptions
  simp only [List.forall_mem_append]
  refine ⟨⟨⟨⟨⟨?_, ?_⟩, ?_⟩, ?_⟩, ?_⟩, ?_⟩
  · simp [dockerOptions]
  · exact List.forall_mem_map.2 fun _ _ => hmount
  · intro option hoption
    rw [workTmpfsOptions_ok h option hoption]
    decide
  · exact List.forall_mem_map.2 fun _ _ => henv
  · unfold hookOptions
    split_ifs
    · simp [dockerOptions, envOption]
    · simp
  · unfold cpuOptions
    split_ifs
    · simp [dockerOptions]
    · simp

/-- The variable of the hook. -/
def hookEnv (p : PoolConfig) : List (String × String) :=
  if p.jobStartedHook ≠ "" then [("ACTIONS_RUNNER_HOOK_JOB_STARTED", jobStartedHookPath)] else []

/-- The options of `spawn_runner` that set a variable. -/
theorem filter_spawnOptions (h : p.workTmpfsOptions = .ok tmpfs) (name token : String) :
    (p.spawnOptions name token tmpfs).filter (·.1 = "-e") =
      (p.credentials token ++ p.runnerEnv name ++ p.hookEnv).map envOption := by
  have hset : ∀ vars : List (String × String),
      (vars.map envOption).filter (·.1 = "-e") = vars.map envOption := fun vars =>
    List.filter_eq_self.2 (List.forall_mem_map.2 fun _ _ => decide_eq_true rfl)
  have htmpfs : tmpfs.filter (·.1 = "-e") = [] := by
    refine List.filter_eq_nil_iff.2 fun option hoption => ?_
    rw [workTmpfsOptions_ok h option hoption]
    decide
  have hmounts : (cacheMounts.map fun mount =>
      ("-v", p.cacheBase ++ "/" ++ mount.1 ++ ":" ++ mount.2)).filter (·.1 = "-e") = [] := by
    have hname : ¬ decide ("-v" = "-e") = true := by decide
    exact List.filter_eq_nil_iff.2 (List.forall_mem_map.2 fun _ _ => hname)
  have hhook : p.hookOptions.filter (·.1 = "-e") = p.hookEnv.map envOption := by
    unfold hookOptions hookEnv
    split_ifs
    · rfl
    · rfl
  have hcpu : p.cpuOptions.filter (·.1 = "-e") = [] := by
    unfold cpuOptions
    split_ifs
    · rfl
    · rfl
  unfold spawnOptions
  rw [List.filter_append, List.filter_append, List.filter_append, List.filter_append,
    List.filter_append, htmpfs, hmounts, hset, hhook, hcpu]
  simp only [List.append_nil, List.map_append]
  rfl

/-- No name of a variable contains an equals sign. -/
theorem equals_not_mem_names (name token : String) :
    ∀ var ∈ p.credentials token ++ p.runnerEnv name ++ p.hookEnv, '=' ∉ var.1.toList := by
  simp only [List.forall_mem_append]
  refine ⟨⟨?_, ?_⟩, ?_⟩
  · unfold credentials
    split_ifs
    · simp
    · simp
  · simp [runnerEnv, toolCacheEnv]
  · unfold hookEnv
    split_ifs
    · simp
    · simp

/-- **The environment of a runner.** -/
theorem containerEnv_spawnArgs (h : p.workTmpfsOptions = .ok tmpfs) (image name token : String) :
    containerEnv (p.spawnArgs image name token tmpfs) =
      p.credentials token ++ p.runnerEnv name ++ p.hookEnv := by
  have hlast : runOptions [image] = [] := by
    rw [runOptions]
    split_ifs
    · rfl
    · rfl
  have hoptions : runOptions (p.spawnArgs image name token tmpfs).tail =
      p.spawnOptions name token tmpfs := by
    have hrest := runOptions_optionArgs (spawnOptions_valued h name token) [image]
    rw [hlast, List.append_nil] at hrest
    exact hrest
  unfold containerEnv
  rw [hoptions, filter_spawnOptions h, List.map_map]
  exact (List.map_congr_left fun var hvar =>
    splitEnv_envOption (equals_not_mem_names name token var hvar)).trans (List.map_id _)

end PoolConfig

end RunnerSwarm
