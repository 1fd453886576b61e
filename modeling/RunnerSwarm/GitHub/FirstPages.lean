import RunnerSwarm.GitHub.Discovery
import RunnerSwarm.Lib.Ordered

/-!
# First pages

Of the lists that a queue scan reads, only the repositories of a personal account are asked for page
by page, until a page is shorter than it was asked for. The repositories of an organisation, the
runs of a status and the jobs of a run are asked for once, so what does not fit on the first page is
not seen, and no request fails.

* `perPage` is the page size a request names, and `PageLimits` are the server's own sizes;
* `ForgeContent` is what a forge holds, and `firstPages` what a scan is given of it;
  `poolRepositories_answers` connects its repositories with `_pool_repositories`;
* `seesEverything_iff`: a scan sees everything exactly when each of these lists fits on one page.
-/

namespace RunnerSwarm

/-- `per_page` in the path of a request. -/
def PoolConfig.perPage (p : PoolConfig) : ForgeRequest → Option ℕ
  | .repositories _ => some p.repoPageSize
  | .orgRepositories => some 100
  | .runs _ _ => some 50
  | .jobs _ _ => some 50
  | _ => none

/-- The page sizes of a server: without `per_page`, and the greatest one. -/
structure PageLimits where
  standard : ℕ
  greatest : ℕ

/-- The entries on a page of the answer. -/
def PageLimits.pageSize (limits : PageLimits) (p : PoolConfig) (request : ForgeRequest) : ℕ :=
  min ((p.perPage request).getD limits.standard) limits.greatest

/-- GitHub, as its API documents. -/
def githubPages : PageLimits := ⟨30, 100⟩

/-- What a forge holds for an owner: repositories, the active runs of each with their status, each
run once, and the jobs of each run. -/
structure ForgeContent where
  repositories : List RepoEntry
  activeRuns : (repo : String) → List (String × WorkflowRun)
  distinct : ∀ repo, ((activeRuns repo).map (·.2.id)).Nodup
  jobs : (repo : String) → (runId : ℤ) → List WorkflowJob

/-- The names a pool makes of the repositories it is given. -/
def PoolConfig.scannedNames (p : PoolConfig) (repos : List RepoEntry) : List String :=
  if p.isPersonalLevel then sortedNames (repos.foldl (addRepository p) [])
  else repos.map (·.name)

namespace ForgeContent

/-- The runs of a status. -/
def runs (content : ForgeContent) (repo status : String) : List WorkflowRun :=
  ((content.activeRuns repo).filter (·.1 = status)).map Prod.snd

/-- All of it, as a pool sees it. -/
def whole (content : ForgeContent) (p : PoolConfig) : GitHubContent where
  repositories := p.scannedNames content.repositories
  runs := content.runs
  jobs := content.jobs

/-- The repositories on the pages that are asked for. A page of an account that the server makes
shorter than it was asked for is the last one. -/
def givenRepositories (content : ForgeContent) (limits : PageLimits) (p : PoolConfig) :
    List RepoEntry :=
  if p.isPersonalLevel then
    if p.repoPageSize ≤ limits.greatest then content.repositories
    else pageOf (limits.pageSize p (.repositories 1)) content.repositories 1
  else pageOf (limits.pageSize p .orgRepositories) content.repositories 1

/-- What the requests of a scan are answered with. -/
def firstPages (content : ForgeContent) (limits : PageLimits) (p : PoolConfig) : GitHubContent where
  repositories := p.scannedNames (content.givenRepositories limits p)
  runs repo status := pageOf (limits.pageSize p (.runs repo status)) (content.runs repo status) 1
  jobs repo runId := pageOf (limits.pageSize p (.jobs repo runId)) (content.jobs repo runId) 1

/-- The answers to the requests for repositories. -/
def answers (content : ForgeContent) (limits : PageLimits) (p : PoolConfig) : RepoAnswers
  | .repositories page =>
      .ok (some (pageOf (limits.pageSize p (.repositories page)) content.repositories page))
  | .orgRepositories =>
      .ok (some (pageOf (limits.pageSize p .orgRepositories) content.repositories 1))
  | _ => .ok none

end ForgeContent

section Pages

variable {content : ForgeContent} {limits : PageLimits} {p : PoolConfig} {repo status : String}
  {run : WorkflowRun} {now : ℚ}

/-- **What `_pool_repositories` returns** of the answers. -/
theorem poolRepositories_answers {fuel : ℕ}
    (hfuel : lastPage p.repoPageSize content.repositories ≤ fuel) :
    poolRepositories p (content.answers limits p) fuel =
      some (.ok (some (p.scannedNames (content.givenRepositories limits p)))) := by
  unfold poolRepositories PoolConfig.scannedNames ForgeContent.givenRepositories
  by_cases hpersonal : p.isPersonalLevel = true
  · rw [if_pos hpersonal, if_pos hpersonal, if_pos hpersonal]
    by_cases hgranted : p.repoPageSize ≤ limits.greatest
    · rw [if_pos hgranted]
      refine listRepositories_served (fun page _ _ => ?_) hfuel
      show Except.ok (some (pageOf (min p.repoPageSize limits.greatest) _ page)) = _
      rw [min_eq_left hgranted]
    · rw [if_neg hgranted]
      obtain ⟨rest, rfl⟩ : ∃ rest, fuel = rest + 1 :=
        Nat.exists_eq_add_one.2 ((Nat.succ_pos _).trans_le hfuel)
      have hshort : (pageOf (limits.pageSize p (.repositories 1)) content.repositories 1).length <
          p.repoPageSize := by
        have hle : limits.pageSize p (.repositories 1) ≤ limits.greatest := min_le_right _ _
        rw [pageOf_one, List.length_take]
        omega
      unfold listRepositories askPages ForgeContent.answers
      simp only [if_pos hshort]
      rfl
  · rw [if_neg hpersonal, if_neg hpersonal, if_neg hpersonal]
    rfl

theorem mem_runs : run ∈ content.runs repo status ↔ (status, run) ∈ content.activeRuns repo := by
  unfold ForgeContent.runs
  rw [List.mem_map]
  constructor
  · rintro ⟨⟨status', run'⟩, h, rfl⟩
    obtain ⟨hmem, hstatus⟩ := List.mem_filter.1 h
    rwa [← of_decide_eq_true hstatus]
  · exact fun h => ⟨_, List.mem_filter.2 ⟨h, decide_eq_true rfl⟩, rfl⟩

/-- A run has one status. -/
theorem status_unique {status' : String} (h : run ∈ content.runs repo status)
    (h' : run ∈ content.runs repo status') : status = status' := by
  have hpair := List.inj_on_of_nodup_map (content.distinct repo) (mem_runs.1 h) (mem_runs.1 h') rfl
  exact congrArg Prod.fst hpair

theorem runs_nodup : (content.runs repo status).Nodup := by
  have hids : ((content.runs repo status).map (·.id)).Nodup := by
    unfold ForgeContent.runs
    rw [List.map_map]
    exact (content.distinct repo).sublist (List.filter_sublist.map _)
  exact hids.of_map _

/-- The runs a scan reads when all requests succeed, for what it is given of a forge. -/
theorem mem_readRuns_iff {github : GitHubContent}
    (hgiven : ∀ status, github.runs repo status ⊆ content.runs repo status) :
    run ∈ readRuns github (fun _ => .ok) repo ↔
      ∃ status ∈ activeRunStatuses, run ∈ github.runs repo status := by
  have hlist : ∀ run ∈ readRuns github (fun _ => .ok) repo,
      ∃ status ∈ activeRunStatuses, run ∈ github.runs repo status := fun run h =>
    List.mem_flatMap.1 (firstSeen_sublist.subset (List.mem_filter.1 h).1)
  refine ⟨hlist run, fun h => ?_⟩
  obtain ⟨status, hstatus, hrun⟩ := h
  have hid : run.id ∈ (readRuns github (fun _ => .ok) repo).map (·.id) :=
    mem_readRuns_ids.2 ⟨rfl, status, hstatus, rfl, run, hrun, rfl⟩
  obtain ⟨run', hrun', hsame⟩ := List.mem_map.1 hid
  obtain ⟨status', -, hlisted⟩ := hlist run' hrun'
  -- Both are active runs of the repository, so the id tells them apart.
  have hpair := List.inj_on_of_nodup_map (content.distinct repo)
    (mem_runs.1 (hgiven status' hlisted)) (mem_runs.1 (hgiven status hrun)) hsame
  obtain ⟨-, rfl⟩ := Prod.mk.inj hpair
  exact hrun'

theorem firstPages_runs_subset :
    (content.firstPages limits p).runs repo status ⊆ content.runs repo status :=
  List.take_subset _ _

end Pages

/-- A scan is given all repositories, reads every active run with all its jobs, and counts what it
would count with everything on one page. -/
structure SeesEverything (content : ForgeContent) (limits : PageLimits) (p : PoolConfig)
    (now : ℚ) : Prop where
  repositories : p.repo = "" →
    (content.firstPages limits p).repositories = (content.whole p).repositories
  runs : ∀ repo ∈ (content.whole p).poolRepositories p, ∀ status ∈ activeRunStatuses,
    ∀ run ∈ content.runs repo status,
      run ∈ readRuns (content.firstPages limits p) (fun _ => .ok) repo
  jobs : ∀ repo ∈ (content.whole p).poolRepositories p, ∀ status ∈ activeRunStatuses,
    ∀ run ∈ content.runs repo status,
      (content.firstPages limits p).jobs repo run.id = content.jobs repo run.id
  count : getQueuedCount p (content.firstPages limits p) (fun _ => .ok) now =
    getQueuedCount p (content.whole p) (fun _ => .ok) now

/-- The pool covers the repository. -/
def RepoEntry.CoveredBy (repo : RepoEntry) (p : PoolConfig) : Prop :=
  repo.OwnedBy p ∧ repo.name ≠ "" ∧ repo.Admitted p

/-- Every list a scan asks for once fits on a page, and an account is given in pages of the size that
is asked for, or has nothing new to cover beyond the first one. -/
structure FitsOnPages (content : ForgeContent) (limits : PageLimits) (p : PoolConfig) : Prop where
  repositories : p.isOrgLevel = true →
    content.repositories.length ≤ limits.pageSize p .orgRepositories
  account : p.isPersonalLevel = true → p.repoPageSize ≤ limits.greatest ∨
    ∀ repo ∈ content.repositories.drop limits.greatest, repo.CoveredBy p →
      ∃ shown ∈ content.repositories.take limits.greatest,
        shown.name = repo.name ∧ shown.CoveredBy p
  runs : ∀ repo ∈ (content.whole p).poolRepositories p, ∀ status ∈ activeRunStatuses,
    (content.runs repo status).length ≤ limits.pageSize p (.runs repo status)
  jobs : ∀ repo ∈ (content.whole p).poolRepositories p, ∀ status ∈ activeRunStatuses,
    ∀ run ∈ content.runs repo status,
      (content.jobs repo run.id).length ≤ limits.pageSize p (.jobs repo run.id)

section Everything

variable {content : ForgeContent} {limits : PageLimits} {p : PoolConfig} {now : ℚ}

/-- A status whose runs are all read has them on one page. -/
theorem length_runs_le {repo status : String} (hread : ∀ run ∈ content.runs repo status,
      run ∈ readRuns (content.firstPages limits p) (fun _ => .ok) repo) :
    (content.runs repo status).length ≤ limits.pageSize p (.runs repo status) := by
  have hsubset : content.runs repo status ⊆
      pageOf (limits.pageSize p (.runs repo status)) (content.runs repo status) 1 := by
    intro run hrun
    obtain ⟨status', -, hpage⟩ :=
      (mem_readRuns_iff fun _ => firstPages_runs_subset).1 (hread run hrun)
    obtain rfl := status_unique hrun (firstPages_runs_subset hpage)
    exact hpage
  have hlength := (runs_nodup.subperm hsubset).length_le
  rw [pageOf_one, List.length_take] at hlength
  omega

/-- The names of an account depend on which repositories the pool covers. -/
theorem accountNames_congr {repos repos' : List RepoEntry} (h : ∀ name,
      (∃ repo ∈ repos, repo.name = name ∧ repo.CoveredBy p) ↔
        ∃ repo ∈ repos', repo.name = name ∧ repo.CoveredBy p) :
    sortedNames (repos.foldl (addRepository p) []) =
      sortedNames (repos'.foldl (addRepository p) []) := by
  have hmem : ∀ (repos : List RepoEntry) (name : String),
      name ∈ repos.foldl (addRepository p) [] ↔
        ∃ repo ∈ repos, repo.name = name ∧ repo.CoveredBy p := by
    intro repos name
    rw [mem_found_iff, or_iff_right List.not_mem_nil]
    refine exists_congr fun repo => and_congr_right fun _ => and_congr_right fun hname => ?_
    subst hname
    exact Iff.rfl
  refine insertionSort_perm (fun a _ b _ => String.le_antisymm) ?_
  rw [List.perm_ext_iff_of_nodup (found_nodup List.nodup_nil) (found_nodup List.nodup_nil)]
  intro name
  rw [hmem, hmem]
  exact h name

/-- An account is given in pages of the size asked for, or its first page has all that is covered. -/
theorem accountNames_eq_iff (content : ForgeContent)
    (hgranted : ¬ p.repoPageSize ≤ limits.greatest) :
    sortedNames ((pageOf (limits.pageSize p (.repositories 1)) content.repositories 1).foldl
        (addRepository p) []) =
      sortedNames (content.repositories.foldl (addRepository p) []) ↔
      ∀ repo ∈ content.repositories.drop limits.greatest, repo.CoveredBy p →
        ∃ shown ∈ content.repositories.take limits.greatest,
          shown.name = repo.name ∧ shown.CoveredBy p := by
  have hpage : pageOf (limits.pageSize p (.repositories 1)) content.repositories 1 =
      content.repositories.take limits.greatest := by
    show content.repositories.take (min p.repoPageSize limits.greatest) = _
    rw [min_eq_right (by omega)]
  rw [hpage]
  constructor
  · intro h repo hrepo hcovered
    have hname : repo.name ∈ sortedNames (content.repositories.foldl (addRepository p) []) :=
      (mem_served rfl).2 ⟨repo, List.mem_of_mem_drop hrepo, rfl, hcovered⟩
    rw [← h, mem_served rfl] at hname
    obtain ⟨shown, hshown, hsame, howned, hnamed, hadmitted⟩ := hname
    exact ⟨shown, hshown, hsame, howned, hsame ▸ hnamed, hadmitted⟩
  · intro h
    apply accountNames_congr
    intro name
    constructor
    · rintro ⟨repo, hrepo, hcovered⟩
      exact ⟨repo, List.mem_of_mem_take hrepo, hcovered⟩
    · rintro ⟨repo, hrepo, rfl, hcovered⟩
      rw [← List.take_append_drop limits.greatest content.repositories] at hrepo
      rcases List.mem_append.1 hrepo with hrepo | hrepo
      · exact ⟨repo, hrepo, rfl, hcovered⟩
      · exact h repo hrepo hcovered

theorem repo_of_isOrgLevel (h : p.isOrgLevel = true) : p.repo = "" := by
  unfold PoolConfig.isOrgLevel at h
  simp only [Bool.and_eq_true, decide_eq_true_eq] at h
  exact h.1

theorem repo_of_isPersonalLevel (h : p.isPersonalLevel = true) : p.repo = "" := by
  unfold PoolConfig.isPersonalLevel at h
  simp only [Bool.and_eq_true, decide_eq_true_eq] at h
  exact h.1

/-- **When all repositories are given.** -/
theorem firstPages_repositories_iff (content : ForgeContent) (limits : PageLimits)
    (hrepo : p.repo = "") :
    (content.firstPages limits p).repositories = (content.whole p).repositories ↔
      (p.isOrgLevel = true →
        content.repositories.length ≤ limits.pageSize p .orgRepositories) ∧
      (p.isPersonalLevel = true → p.repoPageSize ≤ limits.greatest ∨
        ∀ repo ∈ content.repositories.drop limits.greatest, repo.CoveredBy p →
          ∃ shown ∈ content.repositories.take limits.greatest,
            shown.name = repo.name ∧ shown.CoveredBy p) := by
  have horg : p.isOrgLevel = !p.isPersonalLevel := by
    unfold PoolConfig.isOrgLevel
    simp [hrepo]
  rw [horg]
  unfold ForgeContent.firstPages ForgeContent.whole ForgeContent.givenRepositories
    PoolConfig.scannedNames
  dsimp only
  cases hpersonal : p.isPersonalLevel with
  | true =>
    by_cases hgranted : p.repoPageSize ≤ limits.greatest
    · simp [hgranted]
    · simpa [hgranted] using accountNames_eq_iff content hgranted
  | false =>
    have hnames : (pageOf (limits.pageSize p .orgRepositories) content.repositories 1).map
        (·.name) = content.repositories.map (·.name) ↔
          content.repositories.length ≤ limits.pageSize p .orgRepositories := by
      constructor
      · intro h
        have hlength := congrArg List.length h
        rw [List.length_map, List.length_map, pageOf_one, List.length_take] at hlength
        omega
      · intro h
        rw [pageOf_one_eq_self_iff.2 h]
    simpa using hnames

theorem firstPages_runs {repo status : String}
    (h : (content.runs repo status).length ≤ limits.pageSize p (.runs repo status)) :
    (content.firstPages limits p).runs repo status = content.runs repo status :=
  pageOf_one_eq_self_iff.2 h

/-- Where everything fits, the count is that of the whole. -/
theorem count_of_fits (h : FitsOnPages content limits p) :
    getQueuedCount p (content.firstPages limits p) (fun _ => .ok) now =
      getQueuedCount p (content.whole p) (fun _ => .ok) now := by
  have hpools : (content.firstPages limits p).poolRepositories p =
      (content.whole p).poolRepositories p := by
    unfold GitHubContent.poolRepositories
    split_ifs with hrepo
    · rfl
    · exact (firstPages_repositories_iff _ _ (not_not.1 hrepo)).2 ⟨h.repositories, h.account⟩
  have hscan : scanQueue p (content.firstPages limits p) (fun _ => .ok) now =
      scanQueue p (content.whole p) (fun _ => .ok) now := by
    refine scanQueue_congr (fun hrepo => (firstPages_repositories_iff _ _ hrepo).2
      ⟨h.repositories, h.account⟩) fun repo hrepo => ?_
    rw [hpools] at hrepo
    refine ⟨fun status hstatus => firstPages_runs (h.runs repo hrepo status hstatus),
      fun status hstatus run hrun => ?_⟩
    exact pageOf_one_eq_self_iff.2
      (h.jobs repo hrepo status hstatus run (firstPages_runs_subset hrun))
  unfold getQueuedCount
  rw [hscan]

/-- A queued job for any runner. -/
def anyJob (id : ℕ) : WorkflowJob := ⟨id, "build", "", "queued", "", "", "", some 10, []⟩

/-- An organisation of 101 repositories; the first has 51 queued runs, and the first of these 51
queued jobs. -/
def crowdedForge : ForgeContent where
  repositories := (List.range 101).map fun i => ⟨"acme", "r" ++ toString i, false, false, none⟩
  activeRuns repo :=
    if repo = "r0" then (List.range 51).map fun i : ℕ => ("queued", ⟨i, "ci", "", ""⟩)
    else if repo = "r100" then [("queued", ⟨51, "ci", "", ""⟩)]
    else []
  distinct := fun repo => by
    split_ifs <;> decide +kernel
  jobs _ runId := if runId = 0 then (List.range 51).map anyJob else [anyJob 51]

/-- **What a scan leaves out**: of the 101 queued jobs of a repository one beyond the first page of
jobs and one of a run beyond the first page of runs, and of an organisation the last repository. -/
theorem scan_leaves_out :
    getQueuedCount { eagerPool with repo := "r0" }
        (crowdedForge.firstPages githubPages { eagerPool with repo := "r0" }) (fun _ => .ok) 20 =
      .ok (99, []) ∧
    getQueuedCount { eagerPool with repo := "r0" }
        (crowdedForge.whole { eagerPool with repo := "r0" }) (fun _ => .ok) 20 = .ok (101, []) ∧
    "r100" ∈ (crowdedForge.whole { eagerPool with repo := "" }).repositories ∧
    "r100" ∉ (crowdedForge.firstPages githubPages { eagerPool with repo := "" }).repositories := by
  decide +kernel

/-- **When a scan sees everything**: when each list it asks for once fits on one page. -/
theorem seesEverything_iff (content : ForgeContent) (limits : PageLimits) (p : PoolConfig)
    (now : ℚ) : SeesEverything content limits p now ↔ FitsOnPages content limits p := by
  constructor
  · intro h
    have hgiven : p.repo = "" → _ := fun hrepo =>
      (firstPages_repositories_iff content limits hrepo).1
        (h.repositories hrepo)
    refine ⟨fun horg => (hgiven (repo_of_isOrgLevel horg)).1 horg,
      fun hpersonal => (hgiven (repo_of_isPersonalLevel hpersonal)).2 hpersonal,
      fun repo hrepo status hstatus => length_runs_le (h.runs repo hrepo status hstatus),
      fun repo hrepo status hstatus run hrun =>
        pageOf_one_eq_self_iff.1 (h.jobs repo hrepo status hstatus run hrun)⟩
  · intro h
    refine ⟨fun hrepo => (firstPages_repositories_iff _ _ hrepo).2 ⟨h.repositories, h.account⟩,
      fun repo hrepo status hstatus run hrun => ?_, fun repo hrepo status hstatus run hrun =>
        pageOf_one_eq_self_iff.2 (h.jobs repo hrepo status hstatus run hrun), count_of_fits h⟩
    refine (mem_readRuns_iff fun _ => firstPages_runs_subset).2 ⟨status, hstatus, ?_⟩
    rwa [firstPages_runs (h.runs repo hrepo status hstatus)]

end Everything

end RunnerSwarm
