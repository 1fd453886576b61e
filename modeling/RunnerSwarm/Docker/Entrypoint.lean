import RunnerSwarm.Config.Validated
import RunnerSwarm.Docker.Spawn

/-!
# What a started runner registers at

`entrypoint` is `entrypoint.sh` of the runner image, from the environment the container has to the
registration of the runner. `spawn_runner` and the script have to agree on what a pool is.

* `registers_iff`: they agree for the pools that have a repository;
* for a pool of an organisation the script wants a repository and stops.
-/

namespace RunnerSwarm

/-! ### The script -/

/-- `ENV` of the Dockerfile. -/
def imageEnv : List (String × String) :=
  [("DEBIAN_FRONTEND", "noninteractive"), ("RUNNER_TOOL_CACHE", toolCacheDir),
    ("AGENT_TOOLSDIRECTORY", toolCacheDir), ("RUNNER_VERSION", "2.338.2")]

/-- `${name}`: empty when the variable is not set; a later setting overrides an earlier one. -/
def envVar (env : List (String × String)) (name : String) : String :=
  env.foldl (fun value var => if var.1 = name then var.2 else value) ""

/-- `${name:-default}`. -/
def envVarOr (env : List (String × String)) (name default : String) : String :=
  if envVar env name = "" then default else envVar env name

/-- The script runs for Gitea. -/
def isGiteaEnv (env : List (String × String)) : Bool :=
  envVarOr env "RORCH_PROVIDER" "github" = "gitea"

/-- `required_vars`. -/
def requiredVars (env : List (String × String)) : List String :=
  if isGiteaEnv env then
    ["GITEA_RUNNER_REGISTRATION_TOKEN", "GITEA_URL", "GITHUB_OWNER", "GITHUB_REPO", "RUNNER_NAME"]
  else ["GITHUB_PAT", "GITHUB_OWNER", "GITHUB_REPO", "RUNNER_NAME"]

/-- `${value%/}`. -/
def dropSlash (value : String) : String :=
  if value.toList.getLast? = some '/' then String.ofList value.toList.dropLast else value

/-- `GITEA_LABELS`: without blanks, and with `:host` after each label. -/
def giteaLabels (labels : String) : String :=
  String.ofList ([','].intercalate (((labels.toList.filter (· ≠ ' ')).splitOn ',').map fun label =>
    if label = [] then [] else label ++ ":host".toList))

/-- How a runner is registered: by `config.sh`, with a token that the script asks for at `tokenUrl`,
or by `gitea-runner`, with the token it was given. -/
inductive Registration
  | github (url tokenUrl pat name labels group : String)
  | gitea (server token name labels : String)
  deriving DecidableEq

/-- The registration the script makes in an environment. -/
def registration (env : List (String × String)) : Registration :=
  let name := envVar env "RUNNER_NAME"
  let labels := envVarOr env "RUNNER_LABELS" "self-hosted,linux,x64,docker"
  let scope := envVar env "GITHUB_OWNER" ++ "/" ++ envVar env "GITHUB_REPO"
  if isGiteaEnv env then
    .gitea (dropSlash (envVar env "GITEA_URL")) (envVar env "GITEA_RUNNER_REGISTRATION_TOKEN") name
      (giteaLabels labels)
  else
    .github ("https://github.com/" ++ scope)
      ("https://api.github.com/repos/" ++ scope ++ "/actions/runners/registration-token")
      (envVar env "GITHUB_PAT") name labels (envVarOr env "RUNNER_GROUP" "Default")

/-- What the script meets: whether `docker info` works, and what `curl` and `jq` print for a token
and an address. -/
structure RunnerSite where
  dockerInfo : Bool
  fetchToken : (pat url : String) → String

/-- The script, up to its registration. -/
def entrypoint (site : RunnerSite) (env : List (String × String)) : Except String Registration :=
  match (requiredVars env).find? fun var => envVar env var = "" with
  | some var => .error ("ERROR: " ++ var ++ " is required")
  | none =>
      if !site.dockerInfo then
        .error "ERROR: Cannot connect to Docker socket at /var/run/docker.sock"
      else
        match registration env with
        | .gitea server token name labels => .ok (.gitea server token name labels)
        | .github url tokenUrl pat name labels group =>
            let token := site.fetchToken pat tokenUrl
            if token = "" ∨ token = "null" then
              .error "ERROR: Failed to get registration token. Check GITHUB_PAT and repo access."
            else .ok (.github url tokenUrl pat name labels group)

/-- Nothing outside fails. -/
def RunnerSite.Works (site : RunnerSite) : Prop :=
  site.dockerInfo = true ∧
    ∀ pat url, site.fetchToken pat url ≠ "" ∧ site.fetchToken pat url ≠ "null"

/-- The script stops at its first variable that is empty. -/
theorem entrypoint_ok_iff {site : RunnerSite} (hworks : site.Works) {env : List (String × String)}
    {r : Registration} :
    entrypoint site env = .ok r ↔
      (∀ var ∈ requiredVars env, envVar env var ≠ "") ∧ r = registration env := by
  cases hfind : (requiredVars env).find? fun var => decide (envVar env var = "") with
  | some var =>
    have hempty : envVar env var = "" := by simpa using List.find?_some hfind
    have hstop : entrypoint site env = .error ("ERROR: " ++ var ++ " is required") := by
      unfold entrypoint
      rw [hfind]
    rw [hstop]
    exact iff_of_false nofun fun h => h.1 var (List.mem_of_find?_eq_some hfind) hempty
  | none =>
    have hset : ∀ var ∈ requiredVars env, envVar env var ≠ "" := fun var hvar hempty =>
      List.find?_eq_none.1 hfind var hvar (decide_eq_true hempty)
    have hregisters : entrypoint site env = .ok (registration env) := by
      unfold entrypoint
      rw [hfind, hworks.1]
      dsimp only
      cases registration env with
      | gitea server token name labels => rfl
      | github url tokenUrl pat name labels group =>
        dsimp only
        rw [if_neg (not_or.2 (hworks.2 pat tokenUrl))]
        rfl
    rw [hregisters, and_iff_right hset]
    exact ⟨fun h => (Except.ok.inj h).symm, fun h => congrArg _ h.symm⟩

/-! ### What a pool is to both -/

/-- The pools a tick of a pool starts runners for, in the repositories of a personal account. -/
def PoolConfig.tickTargets (p : PoolConfig) (repos : List String) : List PoolConfig :=
  if p.isPersonalLevel then repos.map p.forRepository else [p]

/-- A tick, or a call of the scale endpoint, starts runners for this pool. -/
def SpawnTarget (pools : List PoolConfig) (p : PoolConfig) : Prop :=
  ∃ q ∈ pools, p = q ∨ ∃ repos, p ∈ q.tickTargets repos

/-- `GiteaClient.registration_token`, from the tokens in the answers to `POST` requests. -/
def giteaRegistrationToken (post : (pat url : String) → Option String) (p : PoolConfig) :
    Option String :=
  (post p.pat (p.requestUrl .registrationToken)).filter (· ≠ "")

/-- The host as the orchestrator connects it: tokens come from the forge. -/
def SpawnHost.withForge (host : SpawnHost) (post : (pat url : String) → Option String) :
    SpawnHost :=
  { host with registrationToken := some (giteaRegistrationToken post) }

/-- The variables of a started container. -/
def runnerContainer (args : List String) : List (String × String) := imageEnv ++ containerEnv args

/-- The registration is in the scope of the pool, that is where the scaler lists its runners: it is
made at the server of the pool, with a token from below the list. -/
def Registration.InScope (post : (pat url : String) → Option String) (p : PoolConfig) :
    Registration → Prop
  | .github url tokenUrl pat _ _ _ =>
      p.isGitea = false ∧ url = p.registrationUrl ∧
        tokenUrl = p.requestUrl .listRunners ++ "/registration-token" ∧ pat = p.pat
  | .gitea server token _ _ =>
      p.isGitea = true ∧ rstripChar server '/' = rstripChar p.baseUrl '/' ∧
        post p.pat (p.requestUrl .listRunners ++ "/registration-token") = some token

/-- The container of a pool registers its runner where the scaler looks for it. -/
def Registers (post : (pat url : String) → Option String) (p : PoolConfig) (args : List String) :
    Prop :=
  (∀ var ∈ requiredVars (runnerContainer args), envVar (runnerContainer args) var ≠ "") ∧
    ∀ site : RunnerSite, site.Works →
      ∃ r, entrypoint site (runnerContainer args) = .ok r ∧ r.InScope post p

theorem hasForge_of_spawnTarget {pools : List PoolConfig} (hvalid : validationErrors pools = .ok [])
    {p : PoolConfig} (hp : SpawnTarget pools p) : p.HasForge := by
  obtain ⟨q, hq, h⟩ := hp
  have hforge := hasForge_of_poolErrors (validationErrors_nil hvalid q hq)
  rcases h with rfl | ⟨repos, htarget⟩
  · exact hforge
  · unfold PoolConfig.tickTargets at htarget
    split_ifs at htarget
    · obtain ⟨repo, -, rfl⟩ := List.mem_map.1 htarget
      exact ⟨hforge.pat, hforge.owner, hforge.provider, hforge.baseUrl⟩
    · rwa [List.mem_singleton.1 htarget]

/-! ### The environment of a pool's container -/

section Environment

variable {p : PoolConfig} {env : List (String × String)} {name token : String}

/-- The environment of a container of the pool. -/
structure PoolEnv (p : PoolConfig) (name token : String) (env : List (String × String)) : Prop where
  owner : envVar env "GITHUB_OWNER" = p.owner
  repo : envVar env "GITHUB_REPO" = p.repo
  name : envVar env "RUNNER_NAME" = name
  gitea : p.isGitea = true → isGiteaEnv env = true ∧ envVar env "GITEA_URL" = p.baseUrl ∧
    envVar env "GITEA_RUNNER_REGISTRATION_TOKEN" = token
  github : p.isGitea = false → isGiteaEnv env = false ∧ envVar env "GITHUB_PAT" = p.pat

/-- A variable that is set twice. -/
theorem envVar_append (env env' : List (String × String)) (name : String) :
    envVar (env ++ env') name =
      env'.foldl (fun value var => if var.1 = name then var.2 else value) (envVar env name) :=
  List.foldl_append

/-- The variable of the hook is none of the others. -/
theorem envVar_hookEnv {var : String} (hvar : var ≠ "ACTIONS_RUNNER_HOOK_JOB_STARTED")
    (env : List (String × String)) : envVar (env ++ p.hookEnv) var = envVar env var := by
  rw [envVar_append]
  unfold PoolConfig.hookEnv
  split_ifs
  · exact if_neg hvar.symm
  · rfl

theorem poolEnv_spawnArgs {tmpfs : List (String × String)} (h : p.workTmpfsOptions = .ok tmpfs)
    (image name token : String) :
    PoolEnv p name token (runnerContainer (p.spawnArgs image name token tmpfs)) := by
  unfold runnerContainer
  rw [PoolConfig.containerEnv_spawnArgs h, ← List.append_assoc]
  refine ⟨?_, ?_, ?_, fun hgitea => ⟨?_, ?_, ?_⟩, fun hgithub => ⟨?_, ?_⟩⟩
  · rw [envVar_hookEnv (by decide)]
    simp [envVar, PoolConfig.runnerEnv, toolCacheEnv]
  · rw [envVar_hookEnv (by decide)]
    simp [envVar, PoolConfig.runnerEnv, toolCacheEnv]
  · rw [envVar_hookEnv (by decide)]
    simp [envVar, PoolConfig.runnerEnv, toolCacheEnv]
  · unfold isGiteaEnv envVarOr
    rw [envVar_hookEnv (by decide)]
    simp [envVar, PoolConfig.runnerEnv, toolCacheEnv, PoolConfig.credentials, hgitea]
  · rw [envVar_hookEnv (by decide)]
    simp [envVar, PoolConfig.runnerEnv, toolCacheEnv, PoolConfig.credentials, hgitea]
  · rw [envVar_hookEnv (by decide)]
    simp [envVar, PoolConfig.runnerEnv, toolCacheEnv, PoolConfig.credentials, hgitea]
  · unfold isGiteaEnv envVarOr
    rw [envVar_hookEnv (by decide)]
    simp [envVar, imageEnv, PoolConfig.runnerEnv, toolCacheEnv, PoolConfig.credentials, hgithub]
  · rw [envVar_hookEnv (by decide)]
    simp [envVar, PoolConfig.runnerEnv, toolCacheEnv, PoolConfig.credentials, hgithub]

/-- The script asks for a repository, and the rest a validated pool has. -/
theorem required_iff (h : PoolEnv p name token env) (hforge : p.HasForge) (hname : name ≠ "")
    (htoken : p.isGitea = true → token ≠ "") :
    (∀ var ∈ requiredVars env, envVar env var ≠ "") ↔ p.repo ≠ "" := by
  unfold requiredVars
  cases hgitea : p.isGitea with
  | true =>
    obtain ⟨henv, hurl, htok⟩ := h.gitea hgitea
    rw [if_pos henv]
    simp [h.owner, h.repo, h.name, hurl, htok, hforge.owner, hforge.baseUrl hgitea, hname,
      htoken hgitea]
  | false =>
    obtain ⟨henv, hpat⟩ := h.github hgitea
    rw [if_neg (by rw [henv]; exact Bool.false_ne_true)]
    simp [h.owner, h.repo, h.name, hpat, hforge.owner, hforge.pat, hname]

theorem rstripChar_dropSlash (s : String) : rstripChar (dropSlash s) '/' = rstripChar s '/' := by
  unfold dropSlash rstripChar
  split_ifs with hlast
  · obtain ⟨start, hstart⟩ := List.getLast?_eq_some_iff.1 hlast
    have hslash : (decide ('/' = '/')) = true := decide_eq_true rfl
    rw [hstart, List.dropLast_concat, String.toList_ofList,
      List.rdropWhile_concat_pos (· = '/') start '/' hslash]
  · rfl

/-- **The registration of a pool with a repository** is in its scope. -/
theorem registration_inScope {post : (pat url : String) → Option String}
    (h : PoolEnv p name token env) (hrepo : p.repo ≠ "")
    (htoken : p.isGitea = true →
      post p.pat (p.requestUrl .listRunners ++ "/registration-token") = some token) :
    (registration env).InScope post p := by
  unfold registration
  dsimp only
  cases hgitea : p.isGitea with
  | true =>
    obtain ⟨henv, hurl, htok⟩ := h.gitea hgitea
    rw [if_pos henv]
    refine ⟨hgitea, ?_, ?_⟩
    · rw [hurl]
      exact rstripChar_dropSlash p.baseUrl
    · rw [htok]
      exact htoken hgitea
  | false =>
    obtain ⟨henv, hpat⟩ := h.github hgitea
    rw [if_neg (by rw [henv]; exact Bool.false_ne_true)]
    refine ⟨hgitea, ?_, ?_, hpat⟩
    · unfold PoolConfig.registrationUrl
      rw [if_pos hrepo, h.owner, h.repo]
      simp [String.append_assoc]
    · have hlist : p.requestUrl .listRunners = githubApiBase ++ p.apiRunnersPath := by
        unfold PoolConfig.requestUrl PoolConfig.apiBase PoolConfig.sentPath
        rw [hgitea]
        rfl
      have hstart : "https://api.github.com/repos/" = githubApiBase ++ "/repos/" := by decide
      have hend : "/actions/runners/registration-token" =
          "/actions/runners" ++ "/registration-token" := by decide
      rw [hlist, h.owner, h.repo, hstart, hend]
      unfold PoolConfig.apiRunnersPath
      rw [if_pos hrepo]
      simp only [String.append_assoc]

end Environment

/-- **When a started runner registers where the scaler looks for it**: when its pool has a
repository. -/
theorem registers_iff {pools : List PoolConfig} (hvalid : validationErrors pools = .ok [])
    {p : PoolConfig} (hp : SpawnTarget pools p) {host : SpawnHost}
    {post : (pat url : String) → Option String} {s : SpawnedRunner}
    (hspawn : spawnRunner (host.withForge post) p = .ok s) {args : List String}
    (hargs : s.args = some args) :
    Registers post p args ↔ p.repo ≠ "" := by
  have hforge := hasForge_of_spawnTarget hvalid hp
  obtain ⟨htoken, tmpfs, htmpfs, rfl⟩ := spawnRunner_ran hspawn hargs
  have henv := poolEnv_spawnArgs htmpfs (expandImage p.runnerImage (host.withForge post).version)
    (p.containerPrefix ++ "-" ++ (host.withForge post).uid) ((host.withForge post).token p)
  have hname : p.containerPrefix ++ "-" ++ (host.withForge post).uid ≠ "" := fun hempty =>
    absurd (congrArg String.toList hempty) (by simp)
  have htokens : p.isGitea = true →
      post p.pat (p.requestUrl .listRunners ++ "/registration-token") =
        some ((host.withForge post).token p) := by
    intro hgitea
    have hneeded := htoken hgitea
    have hasked : (host.withForge post).token p = (giteaRegistrationToken post p).getD "" := rfl
    rw [hasked] at hneeded ⊢
    unfold giteaRegistrationToken at hneeded ⊢
    rw [requestUrl_registrationToken] at hneeded ⊢
    cases hanswer : post p.pat (p.requestUrl .listRunners ++ "/registration-token") with
    | none =>
      rw [hanswer] at hneeded
      exact absurd rfl hneeded
    | some token =>
      rw [hanswer] at hneeded
      rw [Option.filter_some] at hneeded ⊢
      split_ifs at hneeded ⊢
      · rfl
      · exact absurd rfl hneeded
  have hrequired := required_iff henv hforge hname htoken
  unfold Registers
  generalize runnerContainer _ = env at henv hrequired ⊢
  rw [hrequired]
  refine and_iff_left_of_imp fun hrepo site hworks => ?_
  exact ⟨_, (entrypoint_ok_iff hworks).2 ⟨hrequired.2 hrepo, rfl⟩,
    registration_inScope henv hrepo htokens⟩

/-- A host on which everything works. -/
def runnerHost : SpawnHost where
  version := "1.4.0"
  imageUsable _ := true
  uid := "0a1b2c3d"
  registrationToken := none
  exec _ := 0

/-- A forge that gives out one token. -/
def oneToken (_pat _url : String) : Option String := some "registration"

/-- A personal account on a Gitea server. -/
def giteaAccount : PoolConfig :=
  { name := "home", pat := "secret", owner := "me", scope := "personal", provider := "gitea",
    baseUrl := "https://git.example" }

/-- An organisation on GitHub. -/
def orgLevelPool : PoolConfig := { name := "my-org", pat := "secret", owner := "my-org" }

/-- A repository of a personal account. -/
theorem registers_derived :
    ∃ s args,
      spawnRunner (runnerHost.withForge oneToken) (giteaAccount.forRepository "app") = .ok s ∧
      s.args = some args ∧ Registers oneToken (giteaAccount.forRepository "app") args := by
  have htarget : SpawnTarget [giteaAccount] (giteaAccount.forRepository "app") :=
    ⟨giteaAccount, List.mem_singleton.2 rfl, .inr ⟨["app"], List.mem_singleton.2 rfl⟩⟩
  have hvalid : validationErrors [giteaAccount] = .ok [] := by rfl
  refine ⟨_, _, rfl, rfl, ?_⟩
  exact (@registers_iff _ hvalid _ htarget runnerHost oneToken _ rfl _ rfl).2 (by decide)

/-- **A pool of an organisation**: its container is started, and the script stops. -/
theorem not_registers :
    validationErrors [orgLevelPool] = .ok [] ∧ SpawnTarget [orgLevelPool] orgLevelPool ∧
      ∃ s args, spawnRunner (runnerHost.withForge oneToken) orgLevelPool = .ok s ∧
        s.started = true ∧ s.args = some args ∧ ¬ Registers oneToken orgLevelPool args := by
  refine ⟨by rfl, ⟨orgLevelPool, List.mem_singleton.2 rfl, .inl rfl⟩, _, _, rfl, rfl, rfl,
    fun h => ?_⟩
  have hrepo := h.1 "GITHUB_REPO" (by decide +kernel)
  exact hrepo (by decide +kernel)

end RunnerSwarm
