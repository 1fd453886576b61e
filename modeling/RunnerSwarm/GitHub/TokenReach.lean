import RunnerSwarm.Config.Identity
import RunnerSwarm.Config.Loader
import RunnerSwarm.Config.Validated
import RunnerSwarm.Docker.Spawn
import RunnerSwarm.GitHub.ForgeTraffic

/-!
# Where the tokens get

A token is for the server of its pool. It is in `config.yml`, it goes into the requests for the
pool, and for the pools of GitHub into their containers. The orchestrator never sends it elsewhere by
itself, but a server can answer by a redirection, and then the token goes where the server says.

* `TokenReach` says that every token stays with its server, at each of these places;
* `tokenReach_iff`: it holds of a run exactly when no redirection leads out of its pool's forge;
* `not_tokenReach`: a server that redirects a listing to another one.
-/

namespace RunnerSwarm

/-! ### The pools that tokens are used for -/

/-- A pool that the orchestrator works on: one of the effective configuration, or derived from it
for a repository. -/
def ConfigResolver.WorksOn (r : ConfigResolver) (p : PoolConfig) : Prop :=
  ∃ e, (e = r.resolveWithoutStore ∨ ∃ db, r.resolve db = .ok e) ∧
    ∃ q ∈ e.pools, p = q ∨ ∃ repo, p = q.forRepository repo

/-- An address at the server of a pool. -/
def PoolConfig.AtServer (p : PoolConfig) (url : String) : Prop :=
  (p.provider = "github" ∧ startsWith url "https://api.github.com/" = true) ∨
    (p.provider = "gitea" ∧ startsWith url (p.baseUrl ++ "/api/v1/") = true)

/-- What the loader and `validate_pools` give for the forge of a pool. -/
structure PoolConfig.KnownServer (p : PoolConfig) : Prop where
  provider : p.provider = "github" ∨ p.provider = "gitea"
  baseUrl : rstripChar p.baseUrl '/' = p.baseUrl

section WorksOn

variable {r : ConfigResolver} {p : PoolConfig}

theorem knownServer_of_worksOn (hbase : ∀ base ∈ r.basePools, base.KnownServer)
    (h : r.WorksOn p) : p.KnownServer := by
  obtain ⟨e, he, q, hq, hp⟩ := h
  have hknown : q.KnownServer := by
    rcases he with rfl | ⟨db, hdb⟩
    · exact hbase q hq
    · rcases resolve_origin hdb hq with ⟨base, hmem, hsame⟩ | hcreated
      · have hb := hbase base hmem
        exact ⟨hsame.provider ▸ hb.provider, hsame.baseUrl ▸ hb.baseUrl⟩
      · exact ⟨.inl hcreated.provider, by rw [hcreated.baseUrl]; rfl⟩
  rcases hp with rfl | ⟨repo, rfl⟩
  · exact hknown
  · exact ⟨hknown.provider, hknown.baseUrl⟩

/-- The forge of a pool is at its server. -/
theorem atServer_iff (h : p.KnownServer) {url : String} :
    p.AtServer url ↔ p.forgeKey.Contains url := by
  unfold PoolConfig.AtServer ForgeKey.Contains
  rw [apiBase_forgeKey]
  unfold PoolConfig.apiBase PoolConfig.isGitea
  rcases h.provider with hgithub | hgitea
  · have hother : ¬ p.provider = "gitea" := by
      rw [hgithub]
      decide
    rw [decide_eq_false hother, if_neg Bool.false_ne_true]
    exact ⟨fun h => (h.resolve_right fun h => hother h.1).2, fun h => .inl ⟨hgithub, h⟩⟩
  · have hother : ¬ p.provider = "github" := by
      rw [hgitea]
      decide
    have hbase : giteaApiBase p.baseUrl ++ "/" = p.baseUrl ++ "/api/v1/" := by
      unfold giteaApiBase
      rw [h.baseUrl, String.append_assoc]
      rfl
    rw [decide_eq_true hgitea, if_pos rfl, hbase]
    exact ⟨fun h => (h.resolve_left fun h => hother h.1).2, fun h => .inr ⟨hgitea, h⟩⟩

end WorksOn

/-! ### Containers -/

/-- The token of a Gitea pool is not among the arguments of `docker`. -/
theorem spawnArgs_pat {p : PoolConfig} (hgitea : p.isGitea = true) (pat image name token : String)
    (tmpfs : List (String × String)) :
    { p with pat := pat }.spawnArgs image name token tmpfs =
      p.spawnArgs image name token tmpfs := by
  have hcredentials : { p with pat := pat }.credentials token = p.credentials token := by
    have hgitea' : { p with pat := pat }.isGitea = true := hgitea
    unfold PoolConfig.credentials
    rw [if_pos hgitea, if_pos hgitea']
  unfold PoolConfig.spawnArgs PoolConfig.spawnOptions
  rw [hcredentials]
  rfl

/-- **What a Gitea pool's container gets** does not depend on the token of the pool, only on the
registration token. -/
theorem spawnRunner_pat {host : SpawnHost} {p : PoolConfig} (hgitea : p.isGitea = true)
    {pat : String} (htoken : host.token { p with pat := pat } = host.token p) :
    spawnRunner host { p with pat := pat } = spawnRunner host p := by
  unfold spawnRunner
  rw [htoken]
  simp only [spawnArgs_pat hgitea]
  rfl

/-! ### All places -/

section TokenReach

variable {ι δ β γ : Type*}

/-- The token of a Gitea pool is the one in the pool's own item. -/
def OwnToken (environ : String → Except PyError String) (item : Json) (p : PoolConfig) : Prop :=
  p.isGitea = true →
    ∃ kvs, item = .dict kvs ∧ resolveEnv environ (getOr kvs "pat" (.str "")) = .ok p.pat

/-- A token only ever reaches its own server. -/
structure TokenReach (environ : String → Except PyError String) (raw : Json) (r : ConfigResolver)
    (x : ForgeTraffic ι δ β γ) (s : Forges ι δ β γ) : Prop where
  /-- A request carries the token of its pool and goes to the pool's server. -/
  requests : ∀ q ∈ s.http,
    q.pat = (x.pool q.call).pat ∧ (x.pool q.call).AtServer q.url
  /-- What a call returns was obtained for its pool's server, and from there. -/
  responses : ∀ i data, s.returned x i = some data →
    data.forge = (x.pool i).forgeKey ∧ (x.pool i).AtServer data.url
  /-- The token of a Gitea pool has no part in its `docker run`. -/
  containers : ∀ host p pat, r.WorksOn p → p.isGitea = true →
    host.token { p with pat := pat } = host.token p →
      spawnRunner host { p with pat := pat } = spawnRunner host p
  /-- A Gitea pool without a token of its own is loaded without one. -/
  loaded : ∃ items, poolItems raw = .ok items ∧
    List.Forall₂ (OwnToken environ) items r.basePools
  /-- No override row moves a pool or its token. -/
  overlay : ∀ db e, r.resolve db = .ok e → KeepsIdentity r.basePools e.pools

variable {environ : String → Except PyError String} {raw : Json} {pools : List PoolConfig}

theorem ownToken_of_load (h : loadFromYaml environ raw = .ok pools) :
    ∃ items, poolItems raw = .ok items ∧ List.Forall₂ (OwnToken environ) items pools := by
  obtain ⟨config, defaults, globalPat, items, hitems, hpools⟩ := loadFromYaml_ok h
  exact ⟨items, hitems, hpools.imp fun _ _ hload hgitea => loadPool_gitea hload hgitea⟩

theorem knownServer_of_load (h : loadFromYaml environ raw = .ok pools)
    (hvalid : validationErrors pools = .ok []) : ∀ p ∈ pools, p.KnownServer := by
  intro p hp
  obtain ⟨config, defaults, globalPat, items, -, hpools⟩ := loadFromYaml_ok h
  obtain ⟨item, -, hload⟩ := exists_mem_of_forall₂ hpools hp
  exact ⟨(hasForge_of_poolErrors (validationErrors_nil hvalid p hp)).provider,
    loadPool_baseUrl hload⟩

variable [DecidableEq ι] [DecidableEq δ]

/-- **Where the tokens get**: only to their servers, in exactly the runs in which no request is
redirected to an address outside the API of its pool's forge. -/
theorem tokenReach_iff {r : ConfigResolver} (hload : loadFromYaml environ raw = .ok r.basePools)
    (hvalid : validationErrors r.basePools = .ok []) {x : ForgeTraffic ι δ β γ}
    (hworks : ∀ i, r.WorksOn (x.pool i)) {reserve maxConcurrentRequests : ℤ} {clock : ℚ}
    {content : (pat path : String) → Served β} {l : List (ForgeAction ι β)}
    {s : Forges ι δ β γ}
    (hrun : run (forgeStep x) (Forges.init x reserve maxConcurrentRequests clock content) l =
      some s) :
    TokenReach environ raw r x s ↔ Along (forgeStep x) (NoForeignRedirect x)
      (Forges.init x reserve maxConcurrentRequests clock content) l := by
  have hknown : ∀ i, (x.pool i).KnownServer := fun i =>
    knownServer_of_worksOn (knownServer_of_load hload hvalid) (hworks i)
  constructor
  · intro h
    exact noForeignRedirect_of_http hrun fun q hq =>
      (atServer_iff (hknown q.call)).1 (h.requests q hq).2
  · intro hok
    have hcontained := contained_run hok hrun
    refine ⟨?_, ?_, fun _ _ _ _ hgitea htoken => spawnRunner_pat hgitea htoken,
      ownToken_of_load hload, fun _ _ hdb => resolve_keepsIdentity hdb⟩
    · intro q hq
      obtain ⟨hpat, hurl⟩ := hcontained.http q hq
      exact ⟨hpat, (atServer_iff (hknown q.call)).2 hurl⟩
    · intro i data hdata
      obtain ⟨hforge, hurl⟩ := hcontained.returned hdata
      exact ⟨hforge, (atServer_iff (hknown i)).2 hurl⟩

end TokenReach

/-! ### A server that redirects -/

/-- A `config.yml` with one pool, of a Gitea server. -/
def redirectedConfig : Json :=
  .dict [("pools", .list [.dict [("name", .str "ci"), ("owner", .str "acme"), ("repo", .str "app"),
    ("scope", .str "repository"), ("provider", .str "gitea"), ("pat", .str "secret"),
    ("base_url", .str "http://git.example/")]])]

def redirectedPool : PoolConfig :=
  { name := "ci", pat := "secret", owner := "acme", repo := "app", scope := "repository"
    cpuLimit := .finite (3 / 2), provider := "gitea", baseUrl := "http://git.example" }

def redirectedResolver : ConfigResolver := ⟨[redirectedPool], 0, 0, fun _ => .ok ""⟩

/-- One listing of the pool's runners. -/
def redirectedListing : ForgeTraffic Unit String String String where
  call _ := ⟨redirectedPool, .listRunners, nofun⟩
  digest := id
  loads := some
  isNone _ := false

/-- The listing is redirected to an address and answered from there. -/
def redirectedTo (url : String) : List (ForgeAction Unit String) :=
  [.request .check (), .request .takeSlot (), .send (), .redirect () 302 url,
    .answer () (.ok 200 (fun _ => none) "[]"), .request .handle ()]

/-- The run from new clients. -/
def redirectedRun (url : String) : Option (Forges Unit String String String) :=
  run (forgeStep redirectedListing)
    (Forges.init redirectedListing 100 8 0 fun _ _ => ⟨.github, "", ""⟩) (redirectedTo url)

theorem redirectedConfig_loaded :
    loadFromYaml (fun _ => .ok "") redirectedConfig = .ok redirectedResolver.basePools := by
  rfl

theorem redirectedPool_valid : validationErrors redirectedResolver.basePools = .ok [] := by
  decide +kernel

theorem worksOn_redirectedPool (i : Unit) :
    redirectedResolver.WorksOn (redirectedListing.pool i) :=
  ⟨_, .inl rfl, _, .head _, .inl rfl⟩

/-- **The token of the Gitea pool is sent to another server.** -/
theorem not_tokenReach :
    loadFromYaml (fun _ => .ok "") redirectedConfig = .ok redirectedResolver.basePools ∧
      validationErrors redirectedResolver.basePools = .ok [] ∧
      (∀ i, redirectedResolver.WorksOn (redirectedListing.pool i)) ∧
      ∃ s, redirectedRun "https://other.example/" = some s ∧
        (∃ q ∈ s.http, q.pat = redirectedPool.pat ∧
          startsWith q.url (redirectedPool.baseUrl ++ "/api/v1") = false) ∧
        ¬ TokenReach (fun _ => .ok "") redirectedConfig redirectedResolver redirectedListing s := by
  have hrun : (redirectedRun "https://other.example/").map (·.http) =
      some [⟨(), "secret", "http://git.example/api/v1/repos/acme/app/actions/runners"⟩,
        ⟨(), "secret", "https://other.example/"⟩] := by
    decide +kernel
  obtain ⟨s, hs, hhttp⟩ := Option.map_eq_some_iff.1 hrun
  have hsent : ⟨(), "secret", "https://other.example/"⟩ ∈ s.http := by
    rw [hhttp]
    exact .tail _ (.head _)
  refine ⟨redirectedConfig_loaded, redirectedPool_valid, worksOn_redirectedPool, s, hs,
    ⟨_, hsent, rfl, by decide +kernel⟩, fun h => ?_⟩
  rcases (h.requests _ hsent).2 with ⟨hprovider, -⟩ | ⟨-, hurl⟩
  · exact absurd hprovider (by decide)
  · exact absurd hurl (by decide +kernel)

/-- The token stays when the redirection leads to another address of the API. -/
theorem tokenReach_redirected :
    ∃ s, redirectedRun "http://git.example/api/v1/runners" = some s ∧
      TokenReach (fun _ => .ok "") redirectedConfig redirectedResolver redirectedListing s := by
  have hrun : (redirectedRun "http://git.example/api/v1/runners").isSome = true := by
    decide +kernel
  obtain ⟨s, hs⟩ := Option.isSome_iff_exists.1 hrun
  refine ⟨s, hs, (tokenReach_iff redirectedConfig_loaded redirectedPool_valid
    worksOn_redirectedPool hs).2 ?_⟩
  decide +kernel

end RunnerSwarm
