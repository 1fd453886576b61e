import RunnerSwarm.Config.Excluded
import RunnerSwarm.GitHub.Forges
import RunnerSwarm.GitHub.ScanCount
import RunnerSwarm.Lib.Paging

/-!
# The repositories a pool covers

A pool without a repository of its own discovers them. For a personal account `listRepositories`
asks for page after page and filters what it is given; for an organisation `poolRepositories` takes
every name of one answer.

* `listRepositories_account`: the list is complete, filtered, sorted and without duplicates, and a
  page that fails leaves no list at all;
* `discovery_filtered_iff`: the repositories a pool scans are those its settings admit exactly when
  it is a personal pool, or the organisation has no others.

The state of a repository is a `RepoEntry`. `get` is `_get`: data, nothing, or an error that is
raised; what is not a list of repositories counts as nothing.
-/

namespace RunnerSwarm

/-- An entry of a list of repositories. `isPrivate` may be missing. -/
structure RepoEntry where
  owner : String
  name : String
  archived : Bool
  disabled : Bool
  isPrivate : Option Bool
  deriving DecidableEq

/-- What `_get` returns for each request for repositories. -/
abbrev RepoAnswers := ForgeRequest → Except GitHubError (Option (List RepoEntry))

section Discovery

variable (pool : PoolConfig)

/-- The body of the loop over the entries of a page. -/
def addRepository (found : List String) (repo : RepoEntry) : List String :=
  if lower repo.owner ≠ lower pool.owner || repo.name = "" then found
  else if repo.archived || repo.disabled then found
  -- no visibility counts as private
  else if !repo.isPrivate.getD true && !pool.includePublicRepos then found
  else if pool.excludesRepo repo.name then found
  else found.insert repo.name

/-- `sorted(repositories)`. -/
def sortedNames (found : List String) : List String := found.insertionSort (· ≤ ·)

/-- `list_repositories`. -/
def listRepositories (get : RepoAnswers) (fuel : ℕ) :
    Option (Except GitHubError (Option (List String))) :=
  (askPages pool.repoPageSize (fun page => get (.repositories page)) (addRepository pool) fuel 1
    []).map fun result => result.map fun found => found.map sortedNames

/-- `_pool_repositories`. -/
def poolRepositories (get : RepoAnswers) (fuel : ℕ) :
    Option (Except GitHubError (Option (List String))) :=
  if pool.isPersonalLevel then listRepositories pool get fuel
  else some ((get .orgRepositories).map fun repos => repos.map fun repos => repos.map (·.name))

/-! ### The filter -/

/-- The repository belongs to the owner of the pool. -/
def RepoEntry.OwnedBy (repo : RepoEntry) : Prop := lower repo.owner = lower pool.owner

/-- The settings of the pool admit the repository. -/
structure RepoEntry.Admitted (repo : RepoEntry) : Prop where
  active : repo.archived = false ∧ repo.disabled = false
  hidden : repo.isPrivate.getD true = true ∨ pool.includePublicRepos = true
  kept : pool.excludesRepo repo.name = false

end Discovery

variable {pool : PoolConfig} {found : List String} {account : List RepoEntry} {name : String}

theorem addRepository_eq (pool : PoolConfig) (found : List String) (repo : RepoEntry) :
    (repo.OwnedBy pool ∧ repo.name ≠ "" ∧ repo.Admitted pool ∧
        addRepository pool found repo = found.insert repo.name) ∨
      (¬ (repo.OwnedBy pool ∧ repo.name ≠ "" ∧ repo.Admitted pool) ∧
        addRepository pool found repo = found) := by
  unfold addRepository
  split_ifs with howned hactive hhidden hkept
  · refine Or.inr ⟨fun h => ?_, rfl⟩
    simp only [Bool.or_eq_true, decide_eq_true_eq] at howned
    rcases howned with hother | hempty
    · exact hother h.1
    · exact h.2.1 hempty
  · refine Or.inr ⟨fun h => ?_, rfl⟩
    simp [h.2.2.active] at hactive
  · refine Or.inr ⟨fun h => ?_, rfl⟩
    rcases h.2.2.hidden with h' | h' <;> simp [h'] at hhidden
  · refine Or.inr ⟨fun h => ?_, rfl⟩
    rw [h.2.2.kept] at hkept
    cases hkept
  · simp only [Bool.or_eq_true, decide_eq_true_eq, not_or, not_not] at howned
    refine Or.inl ⟨howned.1, howned.2, ⟨?_, ?_, Bool.eq_false_iff.2 hkept⟩, rfl⟩
    · simpa using hactive
    · simp only [Bool.and_eq_true, Bool.not_eq_true', not_and_or, Bool.not_eq_false] at hhidden
      exact hhidden

/-- **What the loop has found.** -/
theorem mem_found_iff : name ∈ account.foldl (addRepository pool) found ↔ name ∈ found ∨
    ∃ repo ∈ account, repo.name = name ∧ repo.OwnedBy pool ∧ name ≠ "" ∧ repo.Admitted pool := by
  induction account generalizing found with
  | nil => simp
  | cons repo account ih =>
    rw [List.foldl_cons, ih, List.exists_mem_cons_iff, ← or_assoc]
    refine or_congr_left ?_
    rcases addRepository_eq pool found repo with
      ⟨howned, hnamed, hadmitted, heq⟩ | ⟨hnot, heq⟩
    · rw [heq, List.mem_insert_iff, or_comm]
      refine or_congr_right ⟨?_, fun h => h.1.symm⟩
      rintro rfl
      exact ⟨rfl, howned, hnamed, hadmitted⟩
    · rw [heq]
      refine (or_iff_left ?_).symm
      rintro ⟨rfl, h⟩
      exact hnot h

theorem found_nodup (h : found.Nodup) : (account.foldl (addRepository pool) found).Nodup := by
  induction account generalizing found with
  | nil => exact h
  | cons repo account ih =>
    rw [List.foldl_cons]
    refine ih ?_
    rcases addRepository_eq pool found repo with ⟨-, -, -, heq⟩ | ⟨-, heq⟩
    · rw [heq]
      exact h.insert
    · rwa [heq]

/-- Sorted without duplicates. -/
theorem sortedNames_pairwise (h : found.Nodup) : (sortedNames found).Pairwise (· < ·) := by
  have hsorted : (sortedNames found).Pairwise (· ≤ ·) := List.pairwise_insertionSort _ found
  have hnodup : (sortedNames found).Nodup := (List.perm_insertionSort _ found).nodup_iff.2 h
  refine (hsorted.and hnodup).imp fun hab => ?_
  by_contra hlt
  exact hab.2 (String.le_antisymm hab.1 (String.not_lt.1 hlt))

theorem mem_sortedNames : name ∈ sortedNames found ↔ name ∈ found :=
  (List.perm_insertionSort _ found).mem_iff

theorem repoPageSize_pos (pool : PoolConfig) : 0 < pool.repoPageSize := by
  unfold PoolConfig.repoPageSize
  split_ifs <;> decide

/-! ### Personal accounts -/

/-- The pages of an account up to one of them are served. -/
def ServesPages (pool : PoolConfig) (get : RepoAnswers) (account : List RepoEntry)
    (upTo : ℕ) : Prop :=
  ∀ page, 1 ≤ page → page ≤ upTo →
    get (.repositories page) = .ok (some (pageOf pool.repoPageSize account page))

section Account

variable {get : RepoAnswers} {fuel : ℕ}

theorem listRepositories_served
    (h : ServesPages pool get account (lastPage pool.repoPageSize account))
    (hfuel : lastPage pool.repoPageSize account ≤ fuel) :
    listRepositories pool get fuel =
      some (.ok (some (sortedNames (account.foldl (addRepository pool) [])))) := by
  unfold listRepositories
  rw [askPages_served (repoPageSize_pos pool) [] h hfuel]
  rfl

theorem mem_served {names : List String}
    (h : names = sortedNames (account.foldl (addRepository pool) [])) : name ∈ names ↔
      ∃ repo ∈ account, repo.name = name ∧ repo.OwnedBy pool ∧ name ≠ "" ∧ repo.Admitted pool := by
  rw [h, mem_sortedNames, mem_found_iff]
  exact or_iff_right List.not_mem_nil

end Account

/-- **What `list_repositories` returns**: of an account that is served page by page, the sorted
names that belong to the owner and that the settings of the pool admit, each once; when a page
fails, nothing, and when one raises, its error. -/
theorem listRepositories_account (pool : PoolConfig) (get : RepoAnswers)
    (account : List RepoEntry) :
    (ServesPages pool get account (lastPage pool.repoPageSize account) → ∃ names,
      (∀ fuel, lastPage pool.repoPageSize account ≤ fuel →
        listRepositories pool get fuel = some (.ok (some names))) ∧
      names.Pairwise (· < ·) ∧
      ∀ name, name ∈ names ↔ ∃ repo ∈ account,
        repo.name = name ∧ repo.OwnedBy pool ∧ name ≠ "" ∧ repo.Admitted pool) ∧
    ∀ page, page ≠ 0 → page ≤ lastPage pool.repoPageSize account →
      ServesPages pool get account (page - 1) →
      ∀ fuel, lastPage pool.repoPageSize account ≤ fuel →
        (get (.repositories page) = .ok none →
          listRepositories pool get fuel = some (.ok none)) ∧
        ∀ e, get (.repositories page) = .error e →
          listRepositories pool get fuel = some (.error e) := by
  constructor
  · intro hserved
    exact ⟨_, fun fuel hfuel => listRepositories_served hserved hfuel,
      sortedNames_pairwise (found_nodup List.nodup_nil), fun name => mem_served rfl⟩
  · intro page hpage hlast hserved fuel hfuel
    have hdecides := askPages_unserved (addRepository pool) [] (Nat.pos_of_ne_zero hpage)
      hlast (fun k hone hk => hserved k hone (Nat.le_sub_one_of_lt hk)) hfuel
    unfold listRepositories
    constructor
    · intro hnone
      rw [hdecides.1 hnone]
      rfl
    · intro e herror
      rw [hdecides.2 e herror]
      rfl

/-- A pool for the repositories of an account. -/
def ownerPool : PoolConfig := { name := "me", pat := "t", owner := "Acme", scope := "personal" }

/-- An account with as many repositories as a page has entries. -/
def fullAccount : List RepoEntry :=
  (List.range 100).map fun i => ⟨"acme", "r" ++ toString i, false, false, none⟩

/-- A server that lists an account. -/
def accountAnswers (pool : PoolConfig) (account : List RepoEntry) : RepoAnswers
  | .repositories page => .ok (some (pageOf pool.repoPageSize account page))
  | .orgRepositories => .ok (some account)
  | _ => .ok none

theorem listRepositories_account_full : ∃ names,
    listRepositories ownerPool (accountAnswers ownerPool fullAccount) 2 =
      some (.ok (some names)) := by
  obtain ⟨names, hnames, -⟩ := (listRepositories_account ownerPool
    (accountAnswers ownerPool fullAccount) fullAccount).1 fun _ _ _ => rfl
  exact ⟨names, hnames 2 (by decide +kernel)⟩

/-! ### Scans of what was discovered -/

/-- The server lists these repositories to the pool: an account in pages, or an organisation, whose
repositories are its own, at once. -/
def Lists (pool : PoolConfig) (get : RepoAnswers) (listing : List RepoEntry) : Prop :=
  if pool.isPersonalLevel then ServesPages pool get listing (lastPage pool.repoPageSize listing)
  else get .orgRepositories = .ok (some listing) ∧ ∀ repo ∈ listing, repo.OwnedBy pool

/-- The contents agree on the runs and the jobs of every repository the pool's settings admit. -/
def SameAdmitted (pool : PoolConfig) (listing : List RepoEntry)
    (content content' : GitHubContent) : Prop :=
  ∀ repo ∈ listing, repo.OwnedBy pool → repo.Admitted pool →
    content.runs repo.name = content'.runs repo.name ∧
      content.jobs repo.name = content'.jobs repo.name

section Filter

variable {get : RepoAnswers} {listing : List RepoEntry} {fuel : ℕ} {names : List String}

/-- Only listed names of the owner are scanned. -/
theorem exists_listed (hlists : Lists pool get listing)
    (hfuel : lastPage pool.repoPageSize listing ≤ fuel)
    (hnames : poolRepositories pool get fuel = some (.ok (some names))) (h : name ∈ names) :
    ∃ repo ∈ listing, repo.name = name ∧ repo.OwnedBy pool ∧
      (pool.isPersonalLevel = true → repo.Admitted pool) := by
  unfold Lists at hlists
  unfold poolRepositories at hnames
  split_ifs at hlists hnames with hpersonal
  · rw [listRepositories_served hlists hfuel] at hnames
    obtain ⟨repo, hrepo, hname, howned, -, hadmitted⟩ :=
      (mem_served (by simpa using hnames.symm)).1 h
    exact ⟨repo, hrepo, hname, howned, fun _ => hadmitted⟩
  · rw [hlists.1] at hnames
    obtain rfl : listing.map (·.name) = names := by simpa [Except.map] using hnames
    obtain ⟨repo, hrepo, hname⟩ := List.mem_map.1 h
    exact ⟨repo, hrepo, hname, hlists.2 repo hrepo, fun hno => absurd hno hpersonal⟩

/-- An organisation's repositories are all scanned. -/
theorem scanned_of_org (hlists : Lists pool get listing) (horg : ¬ pool.isPersonalLevel = true)
    (hnames : poolRepositories pool get fuel = some (.ok (some names))) {repo : RepoEntry}
    (h : repo ∈ listing) : repo.OwnedBy pool ∧ repo.name ∈ names := by
  unfold Lists at hlists
  unfold poolRepositories at hnames
  rw [if_neg horg] at hlists hnames
  rw [hlists.1] at hnames
  obtain rfl : listing.map (·.name) = names := by simpa [Except.map] using hnames
  exact ⟨hlists.2 repo h, List.mem_map_of_mem h⟩

end Filter

/-- An organisation with a public and a private repository. -/
def mixedListing : List RepoEntry :=
  [⟨"acme", "www", false, false, some false⟩, ⟨"acme", "app", false, false, some true⟩]

/-- A pool for the repositories of an organisation. -/
def acmePool : PoolConfig := { name := "ci", pat := "t", owner := "acme", runnerLabels := "x64" }

/-- A job for the pool's labels is queued in `www`. -/
def wwwContent : GitHubContent where
  repositories := ["www", "app"]
  runs repo status := if repo = "www" && status = "queued" then [⟨1, "ci", "", ""⟩] else []
  jobs _ _ := [⟨7, "build", "", "queued", "", "", "", some 10, ["x64"]⟩]

/-- **A public repository is scanned for a pool of an organisation** that has not opted in, and its
job counts. A personal pool with the same listing leaves it out. -/
theorem public_repository_scanned :
    poolRepositories acmePool (accountAnswers acmePool mixedListing) 1 =
        some (.ok (some ["www", "app"])) ∧
      acmePool.includePublicRepos = false ∧
      getQueuedCount acmePool wwwContent (fun _ => .ok) 20 = .ok (1, []) ∧
      poolRepositories ownerPool (accountAnswers ownerPool mixedListing) 1 =
        some (.ok (some ["app"])) := by
  decide +kernel

/-- **When every repository a pool scans is one its settings admit**: for a personal pool, and for
an organisation that has no others. Then what is queued elsewhere changes no count. -/
theorem discovery_filtered_iff {pool : PoolConfig} (hdiscovers : pool.repo = "") {get : RepoAnswers}
    {listing : List RepoEntry} (hlists : Lists pool get listing) {fuel : ℕ}
    (hfuel : lastPage pool.repoPageSize listing ≤ fuel) {names : List String}
    (hnames : poolRepositories pool get fuel = some (.ok (some names))) :
    ((∀ name ∈ names, ∃ repo ∈ listing, repo.name = name ∧ repo.OwnedBy pool ∧
        repo.Admitted pool) ∧
      ∀ content content' answers now, content.repositories = names →
        content'.repositories = names → SameAdmitted pool listing content content' →
        getQueuedCount pool content answers now = getQueuedCount pool content' answers now) ↔
    (pool.isPersonalLevel = true ∨
      ∀ repo ∈ listing, ∃ repo' ∈ listing, repo'.name = repo.name ∧ repo'.Admitted pool) := by
  constructor
  · rintro ⟨hadmitted, -⟩
    by_cases hpersonal : pool.isPersonalLevel = true
    · exact Or.inl hpersonal
    · refine Or.inr fun repo hrepo => ?_
      have hscanned := (scanned_of_org hlists hpersonal hnames hrepo).2
      obtain ⟨repo', hrepo', hname, -, hadmitted'⟩ := hadmitted repo.name hscanned
      exact ⟨repo', hrepo', hname, hadmitted'⟩
  · intro hcondition
    have hadmitted : ∀ name ∈ names, ∃ repo ∈ listing, repo.name = name ∧ repo.OwnedBy pool ∧
        repo.Admitted pool := by
      intro name hname
      obtain ⟨repo, hrepo, rfl, howned, hpersonal⟩ := exists_listed hlists hfuel hnames hname
      rcases hcondition with hlevel | hall
      · exact ⟨repo, hrepo, rfl, howned, hpersonal hlevel⟩
      · by_cases hlevel : pool.isPersonalLevel = true
        · exact ⟨repo, hrepo, rfl, howned, hpersonal hlevel⟩
        · obtain ⟨repo', hrepo', hsame, hadmitted⟩ := hall repo hrepo
          exact ⟨repo', hrepo', hsame, (scanned_of_org hlists hlevel hnames hrepo').1, hadmitted⟩
    refine ⟨hadmitted, fun content content' answers now hcontent hcontent' hsame => ?_⟩
    unfold getQueuedCount
    rw [scanQueue_congr (fun _ => hcontent.trans hcontent'.symm) fun repo hrepo => ?_]
    unfold GitHubContent.poolRepositories at hrepo
    rw [if_neg (not_not.2 hdiscovers), hcontent] at hrepo
    obtain ⟨entry, hentry, rfl, howned, hentryAdmitted⟩ := hadmitted repo hrepo
    obtain ⟨hruns, hjobs⟩ := hsame entry hentry howned hentryAdmitted
    exact ⟨fun status _ => congrFun hruns status, fun _ _ run _ => congrFun hjobs run.id⟩

theorem discovery_filtered_iff_account : ∃ repo ∈ mixedListing, repo.name = "app" ∧
    repo.OwnedBy ownerPool ∧ repo.Admitted ownerPool :=
  ((@discovery_filtered_iff ownerPool rfl (accountAnswers ownerPool mixedListing) mixedListing
    (fun _ _ _ => rfl) 1 (by decide +kernel) ["app"] (by decide +kernel)).2 (Or.inl rfl)).1 "app"
    List.mem_cons_self

end RunnerSwarm
