import RunnerSwarm.Config.LoadConfig
import RunnerSwarm.Server.ReadRoutes

/-!
# The exported configuration

`GET /api/config/export` writes the effective configuration as YAML, for copying back into
`config.yml`. The document and the loader are written apart: a pool is exported with its `instance`,
which the loader reads at the top of the file only, and every pool refers to `GITHUB_PAT`, a Gitea
pool too.

* `loadConfig_exportDocument`: what the document is loaded as, whatever the configuration;
* `exportConfig_restores`: when this is the configuration again.
-/

namespace RunnerSwarm

namespace EffectiveConfig

/-- The items of the document that `export_config` dumps. -/
def exportItems (effective : EffectiveConfig) : List (String × Json) :=
  [("max_total_runners", .int effective.maxTotalRunners),
    ("max_runner_lifetime", .int effective.maxRunnerLifetime),
    ("pools", .list (effective.pools.map exportPool))]

def exportDocument (effective : EffectiveConfig) : Json := .dict effective.exportItems

end EffectiveConfig

/-- The pool that is loaded for an exported one. -/
def PoolConfig.reloaded (p : PoolConfig) (githubPat : String) : PoolConfig :=
  { p with
    pat := githubPat
    scope := lower p.scope
    «instance» := ""
    workTmpfsSize := strip p.workTmpfsSize
    networkMode := lower p.networkMode
    excludeRepos := strip p.excludeRepos
    jobStartedHook := strip p.jobStartedHook
    provider := lower p.provider
    baseUrl := rstripChar (strip p.baseUrl) '/' }

variable {environ : String → Except PyError String} {githubPat : String} {p : PoolConfig}

theorem resolveEnv_githubPat :
    resolveEnv environ (.str "$\x7bGITHUB_PAT\x7d") = environ "GITHUB_PAT" := by
  have hname : String.ofList ("$\x7bGITHUB_PAT\x7d".toList.drop 2).dropLast = "GITHUB_PAT" := by
    decide +kernel
  have href : (startsWith "$\x7bGITHUB_PAT\x7d" "$\x7b" &&
      "$\x7bGITHUB_PAT\x7d".toList.getLast? = some (Char.ofNat 125)) = true := by
    decide +kernel
  unfold resolveEnv
  rw [if_neg (by decide +kernel)]
  dsimp only
  rw [if_pos href, hname]

/-- A pool that refers to the global token has it, whatever its forge. -/
theorem poolPat_self (provider pat : String) : poolPat provider pat pat = pat := by
  unfold poolPat
  split_ifs with hpat
  · rfl
  · rfl
  · exact (not_not.1 hpat).symm

/-- **What an exported pool is loaded as.** -/
theorem loadPool_exportPool (h : environ "GITHUB_PAT" = .ok githubPat)
    {config : List (String × Json)} (hconfig : getItem config "instance" = none) :
    loadPool environ config [] githubPat (exportPool p) = .ok (p.reloaded githubPat) := by
  have hinstance : lower (strip "") = "" := by decide +kernel
  simp [exportPool, poolToDict, loadPool, asDict, getOr, getItem_cons, hconfig, requireItem, asText,
    asNumber, pyInt, pyFloat, pyStr, pyBool, resolveEnv_githubPat, h, bind, Except.bind, pure,
    Except.pure, PoolConfig.reloaded, asSize, asCsv_str, poolPat_self, hinstance]

variable {safeLoad : String → Except PyError Json}
  {lookup : String → Except PyError (Option String)} {effective : EffectiveConfig} {text : String}

/-- The exported text is loaded, with the token `githubPat` for every pool. -/
theorem loadConfig_exportDocument (hpat : envGet lookup "GITHUB_PAT" "" = .ok githubPat)
    (htext : safeLoad text = .ok effective.exportDocument) :
    loadConfig safeLoad lookup (some text) =
      .ok (effective.pools.map fun p => p.reloaded githubPat) := by
  have hconfig : getItem effective.exportItems "instance" = none := by
    simp [EffectiveConfig.exportItems, getItem]
  have hpools : (effective.pools.map exportPool).mapM
      (loadPool (fun name => envGet lookup name "") effective.exportItems [] githubPat) =
        .ok (effective.pools.map fun p => p.reloaded githubPat) := by
    rw [List.mapM_map]
    exact mapM_eq_ok fun p _ => loadPool_exportPool hpat hconfig
  have hdefaults : getOr effective.exportItems "defaults" (.dict []) = .dict [] := by
    simp [EffectiveConfig.exportItems, getOr, getItem]
  have hitems : getOr effective.exportItems "pools" (.list []) =
      .list (effective.pools.map exportPool) := by
    simp [EffectiveConfig.exportItems, getOr, getItem]
  have hown : resolveEnv (fun name => envGet lookup name "") (getOr [] "pat" (.str "")) = .ok "" :=
    rfl
  -- The file has no defaults, and so no token of its own.
  unfold loadConfig
  simp [htext, EffectiveConfig.exportDocument, loadFromYaml, poolItems, asDict, asIterable,
    hdefaults, hitems, hown, hpat, hpools, bind, Except.bind, -List.mapM_map]

theorem loadBound_exportDocument {key name : String} {value : ℤ} (hvalue : 0 ≤ value)
    (hkey : getItem effective.exportItems key = some (.int value))
    (htext : safeLoad text = .ok effective.exportDocument) :
    loadBound safeLoad lookup key name (some text) = .ok (some value) := by
  have hread : readBound safeLoad lookup key name (some text) = .ok value := by
    unfold readBound
    dsimp only
    rw [htext]
    show pyInt (getOr effective.exportItems key (.int 0)) = .ok value
    unfold getOr
    rw [hkey]
    rfl
  unfold loadBound
  rw [hread]
  exact congrArg Except.ok (if_neg (not_lt.2 hvalue))

/-! ### When the configuration is restored -/

section

variable (safeLoad : String → Except PyError Json)
  (lookup : String → Except PyError (Option String)) (githubPat : String)

/-- Loading `text` gives the configuration again: every field of the pools but the token, and the
global bounds. A pool with the value of `GITHUB_PAT` has it again; a Gitea pool is not given it. -/
structure Restored (effective : EffectiveConfig) (text : String) : Prop where
  pools : ∃ loaded, loadConfig safeLoad lookup (some text) = .ok loaded ∧
    List.Forall₂ (fun p q : PoolConfig =>
      { q with pat := p.pat } = p ∧ (p.pat = githubPat → q.pat = githubPat))
      effective.pools loaded ∧
    ∀ q ∈ loaded, q.isGitea = true → githubPat ≠ "" → q.pat ≠ githubPat
  maxTotalRunners : loadMaxTotalRunners safeLoad lookup (some text) =
    .ok (some effective.maxTotalRunners)
  maxRunnerLifetime : loadMaxRunnerLifetime safeLoad lookup (some text) =
    .ok (some effective.maxRunnerLifetime)

/-- A pool that its export stands for: one of a file without `instance`, not of Gitea while there is
a `GITHUB_PAT`, and with no blanks around the texts that only the loader trims. -/
structure Exportable (p : PoolConfig) : Prop where
  «instance» : p.instance = ""
  gitea : p.isGitea = true → githubPat = ""
  workTmpfsSize : Trimmed isSpace p.workTmpfsSize.toList
  excludeRepos : Trimmed isSpace p.excludeRepos.toList
  baseUrl : Trimmed isSpace p.baseUrl.toList

end

/-- The fields that the loader may change in a settled pool. -/
theorem reloaded_eq_iff (h : Settled p) :
    { p.reloaded githubPat with pat := p.pat } = p ↔
      p.instance = "" ∧ strip p.workTmpfsSize = p.workTmpfsSize ∧
        strip p.excludeRepos = p.excludeRepos ∧ strip p.baseUrl = p.baseUrl := by
  constructor
  · intro heq
    have hinstance := congrArg PoolConfig.instance heq
    have hsize := congrArg PoolConfig.workTmpfsSize heq
    have hexclude := congrArg PoolConfig.excludeRepos heq
    have hurl := congrArg PoolConfig.baseUrl heq
    dsimp only [PoolConfig.reloaded] at hinstance hsize hexclude hurl
    exact ⟨hinstance.symm, hsize, hexclude, (rstripChar_strip_eq_self_iff.1 hurl).1⟩
  · rintro ⟨hinstance, hsize, hexclude, hurl⟩
    unfold PoolConfig.reloaded
    rw [h.scope, h.networkMode, h.provider, h.jobStartedHook, hsize, hexclude, hurl, h.baseUrl]
    cases p
    cases hinstance
    rfl

theorem restored_iff (hsettled : ∀ p ∈ effective.pools, Settled p)
    (htotal : 0 ≤ effective.maxTotalRunners) (hlifetime : 0 ≤ effective.maxRunnerLifetime)
    (hpat : envGet lookup "GITHUB_PAT" "" = .ok githubPat)
    (htext : safeLoad text = .ok effective.exportDocument) :
    Restored safeLoad lookup githubPat effective text ↔
      ∀ p ∈ effective.pools, Exportable githubPat p := by
  have hloaded := loadConfig_exportDocument hpat htext
  constructor
  · rintro ⟨⟨loaded, hload, hsame, hgitea⟩, -, -⟩ p hp
    obtain rfl := Except.ok.inj (hloaded.symm.trans hload)
    rw [List.forall₂_map_right_iff, List.forall₂_same] at hsame
    obtain ⟨hinstance, hsize, hexclude, hurl⟩ := (reloaded_eq_iff (hsettled p hp)).1 (hsame p hp).1
    refine ⟨hinstance, fun hforge => ?_, strip_eq_self_iff.1 hsize, strip_eq_self_iff.1 hexclude,
      strip_eq_self_iff.1 hurl⟩
    -- A Gitea pool is loaded as one, with the token of GitHub.
    by_contra hset
    refine hgitea (p.reloaded githubPat) (List.mem_map_of_mem hp) ?_ hset rfl
    unfold PoolConfig.isGitea PoolConfig.reloaded
    rw [(hsettled p hp).provider]
    exact hforge
  · intro hpools
    refine ⟨⟨_, hloaded, ?_, ?_⟩, ?_, ?_⟩
    · rw [List.forall₂_map_right_iff, List.forall₂_same]
      intro p hp
      have hp' := hpools p hp
      refine ⟨(reloaded_eq_iff (hsettled p hp)).2 ⟨hp'.instance, ?_, ?_, ?_⟩, fun _ => rfl⟩
      · exact strip_eq_self_iff.2 hp'.workTmpfsSize
      · exact strip_eq_self_iff.2 hp'.excludeRepos
      · exact strip_eq_self_iff.2 hp'.baseUrl
    · intro q hq hforge hset
      obtain ⟨p, hp, rfl⟩ := List.mem_map.1 hq
      unfold PoolConfig.isGitea PoolConfig.reloaded at hforge
      rw [(hsettled p hp).provider] at hforge
      exact absurd ((hpools p hp).gitea hforge) hset
    · exact loadBound_exportDocument htotal (by simp [EffectiveConfig.exportItems, getItem]) htext
    · exact loadBound_exportDocument hlifetime (by simp [EffectiveConfig.exportItems, getItem])
        htext

theorem exportConfig_eq {site : Site} {w : World}
    (h : site.resolver.resolve w.store.toDatabase = .ok effective) :
    site.exportConfig w =
      .ok (textAnswer "text/yaml" (site.safeDump effective.exportDocument)) := by
  unfold Site.exportConfig
  rw [h]
  rfl

/-- **The exported configuration is loaded as it is** exactly when every pool is exportable. -/
theorem exportConfig_restores (site : Site) (w : World) {file : Option String}
    {response : Response} (hbuilt : BuiltFrom safeLoad lookup file site.resolver)
    (hresolve : site.resolver.resolve w.store.toDatabase = .ok effective)
    (hpat : envGet lookup "GITHUB_PAT" "" = .ok githubPat)
    (hyaml : safeLoad (site.safeDump effective.exportDocument) = .ok effective.exportDocument)
    (hresponse : site.exportConfig w = .ok response) :
    Restored safeLoad lookup githubPat effective response.body ↔
      ∀ p ∈ effective.pools, Exportable githubPat p := by
  obtain rfl := Except.ok.inj ((exportConfig_eq hresolve).symm.trans hresponse)
  have hsettled := resolve_settled (loadConfig_settled hbuilt.pools) hresolve
  obtain ⟨htotal, hlifetime⟩ := resolve_bounds (loadBound_nonneg hbuilt.maxTotal)
    (loadBound_nonneg hbuilt.maxLifetime) hresolve
  exact restored_iff hsettled htotal hlifetime hpat hyaml

/-! ### A pool with overrides beside a created one -/

/-- A string that needs no quotes, unless it is empty. -/
def plainScalar (s : String) : String := if s = "" then "''" else s

/-- What PyYAML writes for a pool of such strings; `cpuLimit` is the text of the number. -/
def poolText (p : PoolConfig) (cpuLimit : String) : List String :=
  ["- name: " ++ p.name, "  owner: " ++ p.owner, "  repo: " ++ plainScalar p.repo,
    "  scope: " ++ p.scope, "  repo_discovery_ttl: " ++ toString p.repoDiscoveryTtl,
    "  github_poll_interval: " ++ toString p.githubPollInterval,
    "  queued_min_age: " ++ toString p.queuedMinAge, "  instance: " ++ plainScalar p.instance,
    "  stuck_timeout: " ++ toString p.stuckTimeout,
    "  repo_check_workers: " ++ toString p.repoCheckWorkers,
    "  runner_operation_workers: " ++ toString p.runnerOperationWorkers,
    "  max_runners: " ++ toString p.maxRunners, "  min_idle: " ++ toString p.minIdle,
    "  runner_labels: " ++ p.runnerLabels, "  runner_image: " ++ p.runnerImage,
    "  memory_limit: " ++ p.memoryLimit, "  cpu_limit: " ++ cpuLimit,
    "  work_tmpfs_size: " ++ p.workTmpfsSize, "  network_mode: " ++ p.networkMode,
    "  include_public_repos: " ++ (if p.includePublicRepos then "true" else "false"),
    "  exclude_repos: " ++ plainScalar p.excludeRepos,
    "  job_started_hook: " ++ plainScalar p.jobStartedHook, "  provider: " ++ p.provider,
    "  base_url: " ++ plainScalar p.baseUrl, "  pat: $\x7bGITHUB_PAT\x7d"]

/-- The whole document. -/
def exportText (maxTotalRunners maxRunnerLifetime : ℤ) (pools : List (PoolConfig × String)) :
    String :=
  "\n".intercalate (["max_total_runners: " ++ toString maxTotalRunners,
    "max_runner_lifetime: " ++ toString maxRunnerLifetime, "pools:"] ++
      pools.flatMap (fun p => poolText p.1 p.2) ++ [""])

def hostConfig : String :=
  "\n".intercalate ["max_total_runners: 8", "max_runner_lifetime: 360", "pools:", "- name: ci",
    "  owner: acme", "  repo: app", "  max_runners: 6", "  cpu_limit: 1.5",
    "  network_mode: bridge", "  exclude_repos: legacy-*", "  pat: $\x7bGITHUB_PAT\x7d", ""]

/-- What PyYAML reads. -/
def hostRaw : Json :=
  .dict [("max_total_runners", .int 8), ("max_runner_lifetime", .int 360),
    ("pools", .list [.dict [("name", .str "ci"), ("owner", .str "acme"), ("repo", .str "app"),
      ("max_runners", .int 6), ("cpu_limit", .float (.finite (3 / 2))),
      ("network_mode", .str "bridge"), ("exclude_repos", .str "legacy-*"),
      ("pat", .str "$\x7bGITHUB_PAT\x7d")]])]

def hostEnv (name : String) : Except PyError (Option String) :=
  .ok (if name = "GITHUB_PAT" then some "ghp" else none)

def hostPool : PoolConfig where
  name := "ci"
  pat := "ghp"
  owner := "acme"
  repo := "app"
  maxRunners := 6
  cpuLimit := .finite (3 / 2)
  networkMode := "bridge"
  excludeRepos := "legacy-*"

/-- An override of the pool, a pool that was created, and another bound. -/
def hostWorld : World :=
  { World.empty with
    store := ((World.empty.store.setPoolOverride "ci"
      (.dict [("max_runners", .int 9), ("memory_limit", .str "4g")]) "yaml" false).setPoolOverride
        "gpu" (.dict [("owner", .str "acme"), ("runner_labels", .str "gpu"), ("min_idle", .int 0)])
          "ui" false).setGlobal "max_total_runners" "12" }

/-- The configuration they make. -/
def hostEffective : EffectiveConfig where
  pools := [{ hostPool with maxRunners := 9, memoryLimit := "4g" },
    { name := "gpu", pat := "ghp", owner := "acme", runnerLabels := "gpu", minIdle := 0 }]
  maxTotalRunners := 12
  maxRunnerLifetime := 360
  paused := false
  states := Table.empty
  protectedContainers := []

def hostExport : String := exportText 12 360 (hostEffective.pools.zip ["1.5", "0.0"])

def hostSite : Site :=
  { plainSite [hostPool] with
    resolver := ⟨[hostPool], 8, 360, fun name => envGet hostEnv name ""⟩
    safeDump := fun _ => hostExport }

/-- `safe_load` on the two texts. -/
def hostLoad (text : String) : Except PyError Json :=
  .ok (if text = hostConfig then hostRaw else hostEffective.exportDocument)

/-- The export of that configuration, as a `config.yml`. -/
theorem exportConfig_restores_host :
    Restored hostLoad hostEnv "ghp" hostEffective hostExport := by
  have hpools : loadConfig hostLoad hostEnv (some hostConfig) = .ok [hostPool] := by
    decide +kernel
  have htotal : loadMaxTotalRunners hostLoad hostEnv (some hostConfig) = .ok (some 8) := by
    decide +kernel
  have hlifetime : loadMaxRunnerLifetime hostLoad hostEnv (some hostConfig) = .ok (some 360) := by
    decide +kernel
  have hresolve : hostSite.resolver.resolve hostWorld.store.toDatabase = .ok hostEffective := rfl
  have hother : hostExport ≠ hostConfig := by decide +kernel
  refine (exportConfig_restores hostSite hostWorld ⟨hpools, htotal, hlifetime, rfl⟩ hresolve rfl
    (congrArg Except.ok (if_neg hother)) (exportConfig_eq hresolve)).2 fun p hp => ?_
  simp only [hostEffective, List.mem_cons, List.not_mem_nil, or_false] at hp
  rcases hp with rfl | rfl
  · exact ⟨rfl, nofun, by decide +kernel, by decide +kernel, by decide +kernel⟩
  · exact ⟨rfl, nofun, by decide +kernel, by decide +kernel, by decide +kernel⟩

/-! ### A Gitea pool of an overflow host -/

def forgeConfig : String :=
  "\n".intercalate ["instance: b", "pools:", "- name: forge", "  owner: acme", "  provider: gitea",
    "  base_url: https://git.acme.dev", "  pat: $\x7bGITEA_PAT\x7d", ""]

/-- What PyYAML reads. -/
def forgeRaw : Json :=
  .dict [("instance", .str "b"), ("pools", .list [.dict [("name", .str "forge"),
    ("owner", .str "acme"), ("provider", .str "gitea"), ("base_url", .str "https://git.acme.dev"),
    ("pat", .str "$\x7bGITEA_PAT\x7d")]])]

def forgeEnv (name : String) : Except PyError (Option String) :=
  .ok (if name = "GITHUB_PAT" then some "ghp"
    else if name = "GITEA_PAT" then some "gta" else none)

def forgePool : PoolConfig where
  name := "forge"
  pat := "gta"
  owner := "acme"
  «instance» := "b"
  cpuLimit := .finite (3 / 2)
  provider := "gitea"
  baseUrl := "https://git.acme.dev"

def forgeExport : String := exportText 0 0 [(forgePool, "1.5")]

def forgeSite : Site :=
  { plainSite [forgePool] with
    resolver := ⟨[forgePool], 0, 0, fun name => envGet forgeEnv name ""⟩
    safeDump := fun _ => forgeExport }

/-- There are no overrides. -/
theorem resolve_forgeSite : forgeSite.resolver.resolve World.empty.store.toDatabase =
    .ok forgeSite.resolver.resolveWithoutStore :=
  resolve_empty _

/-- `safe_load` on the two texts. -/
def forgeLoad (text : String) : Except PyError Json :=
  .ok (if text = forgeConfig then forgeRaw
    else forgeSite.resolver.resolveWithoutStore.exportDocument)

/-- The pool loses its `instance`, and is given the token of GitHub for its own server. -/
theorem exportConfig_not_restored :
    ¬ ∀ (safeLoad : String → Except PyError Json)
      (lookup : String → Except PyError (Option String)) (githubPat : String)
      (effective : EffectiveConfig) (site : Site) (w : World) (file : Option String)
      (response : Response), BuiltFrom safeLoad lookup file site.resolver →
      site.resolver.resolve w.store.toDatabase = .ok effective →
      envGet lookup "GITHUB_PAT" "" = .ok githubPat →
      safeLoad (site.safeDump effective.exportDocument) = .ok effective.exportDocument →
      site.exportConfig w = .ok response →
      Restored safeLoad lookup githubPat effective response.body := by
  intro h
  have hpools : loadConfig forgeLoad forgeEnv (some forgeConfig) = .ok [forgePool] := by
    decide +kernel
  have htotal : loadMaxTotalRunners forgeLoad forgeEnv (some forgeConfig) = .ok (some 0) := by
    decide +kernel
  have hlifetime : loadMaxRunnerLifetime forgeLoad forgeEnv (some forgeConfig) = .ok (some 0) := by
    decide +kernel
  have hother : forgeExport ≠ forgeConfig := by decide +kernel
  have hyaml : forgeLoad forgeExport =
      .ok forgeSite.resolver.resolveWithoutStore.exportDocument :=
    congrArg Except.ok (if_neg hother)
  have hrestored := h forgeLoad forgeEnv "ghp" _ forgeSite World.empty (some forgeConfig) _
    ⟨hpools, htotal, hlifetime, rfl⟩ resolve_forgeSite rfl hyaml
    (exportConfig_eq resolve_forgeSite)
  obtain ⟨loaded, hloaded, -, hgitea⟩ := hrestored.pools
  obtain rfl := Except.ok.inj ((loadConfig_exportDocument rfl hyaml).symm.trans hloaded)
  have htoken : (forgePool.reloaded "ghp").isGitea = true := by decide +kernel
  exact hgitea (forgePool.reloaded "ghp") List.mem_cons_self htoken (by decide) rfl

end RunnerSwarm
