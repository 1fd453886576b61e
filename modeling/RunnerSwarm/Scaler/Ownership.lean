import RunnerSwarm.Scaler.Inspection
import RunnerSwarm.Lib.Text

/-!
# Which inspection a container belongs to

The inspections of a personal pool share one host, and each claims the containers whose name starts
with its own prefix and a dash. A repository name may contain dashes, so the prefix of `app` and a
dash also starts the name of a container of `app-web`.

`OwnInspectionsOnly` says that no inspection sees a container of another repository, and what the
tick relies on for that reason: each live container counts once in the pool's total, a repository
does not take the containers of another for its own, and a runner that is online is not killed.
`ownInspectionsOnly_iff` finds out when this is so: exactly when no discovered name continues
another one at a dash. Names are compared as Docker matches them, in lower case and with a dot in
the shorter one standing for any character.

`NameFilter` is the part of Docker that is assumed; each listing may find another state of the host.
-/

namespace RunnerSwarm

/-! ### The host -/

/-- A container on the host. Docker gives out no other names. -/
structure HostContainer where
  name : String
  state : ContainerState
  status : String
  runningFor : String
  named : DockerName name

/-- What one inspection meets: the host at each of its three listings, and the other answers. -/
structure HostView where
  atExited : List HostContainer
  atRunning : List HostContainer
  atStuck : List HostContainer
  runners : Option (List RunnerInfo)
  runningJob : String → Option Bool
  queued : Except PyError ℕ

/-- The containers a listing shows. -/
def shown (F : NameFilter) (start : String) (state : ContainerState)
    (host : List HostContainer) : List HostContainer :=
  host.filter fun c => F.selects start c.name && c.state = state

/-- The answers to the calls of `_inspect_pool`. -/
def HostView.observe (F : NameFilter) (pool : PoolConfig) (v : HostView) : Observations where
  exited := ⟨(shown F pool.containerPrefix .exited v.atExited).map fun c => (c.name, c.status), 0⟩
  running := ⟨(shown F pool.containerPrefix .running v.atRunning).map (·.name), 0⟩
  runners := v.runners
  stuck := ⟨(shown F pool.containerPrefix .running v.atStuck).map fun c => (c.name, c.runningFor), 0⟩
  runningJob := v.runningJob
  queued := v.queued

/-- The same host without the container of this name. -/
def HostView.without (v : HostView) (name : String) : HostView :=
  { v with
    atExited := v.atExited.filter (·.name ≠ name)
    atRunning := v.atRunning.filter (·.name ≠ name)
    atStuck := v.atStuck.filter (·.name ≠ name) }

/-- The inspection of one repository of a personal pool. -/
def inspectRepository (F : NameFilter) (pool : PoolConfig) (v : HostView) (repo : String) :
    InspectionRun :=
  inspectPool (pool.forRepository repo) (v.observe F (pool.forRepository repo))

/-- The names in `running_names` of one repository. -/
def runningNames (F : NameFilter) (pool : PoolConfig) (v : HostView) (repo : String) :
    List String :=
  (runningContainers (v.observe F (pool.forRepository repo)).running).dedup

/-- `total_running` of a personal tick. -/
def totalRunning (F : NameFilter) (pool : PoolConfig) (repos : List String)
    (views : String → HostView) : ℕ :=
  (repos.map fun repo => (runningNames F pool (views repo) repo).length).sum

/-- Each container of a repository is left to that repository's inspection. -/
structure OwnInspectionsOnly (F : NameFilter) (pool : PoolConfig) (repos : List String) : Prop where
  /-- It is not listed as running, not considered for killing and not removed by another one. -/
  unseen : ∀ r ∈ repos, ∀ s ∈ repos, r ≠ s → ∀ name, (pool.forRepository r).Spawns name →
    ∀ v : HostView, name ∉ runningNames F pool v s ∧
      name ∉ (v.observe F (pool.forRepository s)).stuck.output.map Prod.fst ∧
      name ∉ (inspectRepository F pool v s).removed ∧
      name ∉ (inspectRepository F pool v s).killed
  /-- The demand another inspection reports does not depend on it. -/
  uncovered : ∀ r ∈ repos, ∀ s ∈ repos, r ≠ s → ∀ name, (pool.forRepository r).Spawns name →
    ∀ v : HostView, inspectRepository F pool (v.without name) s = inspectRepository F pool v s
  /-- While it runs it adds one to the total. -/
  countedOnce : ∀ r ∈ repos, ∀ name, (pool.forRepository r).Spawns name →
    ∀ views : String → HostView,
      (∃ c ∈ (views r).atRunning, c.name = name ∧ c.state = .running) →
      totalRunning F pool repos views =
        totalRunning F pool repos (fun s => (views s).without name) + 1
  /-- While it runs and GitHub lists its runner online, the tick does not kill it. -/
  spared : ∀ r ∈ repos, ∀ name, (pool.forRepository r).Spawns name →
    ∀ views : String → HostView,
      (∃ c ∈ (views r).atRunning, c.name = name ∧ c.state = .running) →
      (∃ runners, (views r).runners = some runners ∧
        ∃ runner ∈ runners, runner.name = name ∧ runner.status = "online") →
      ∀ draining cap, name ∉ (tickPersonal pool repos
        (fun s => (views s).observe F (pool.forRepository s)) draining cap).killed

/-- `r` is `s`, a dash and more, to a filter on the name. -/
def Continues (r s : String) : Bool :=
  dotPrefix ((lower s).toList ++ ['-']) ((lower r).toList ++ ['-'])

/-! ### The prefix of a repository -/

/-- What `safe_name` makes of a character of the lower-case name. -/
def safeChar (c : Char) : Char :=
  if (if c = ' ' then '-' else c) = '/' then '-' else if c = ' ' then '-' else c

theorem safeName_toList (p : PoolConfig) :
    p.safeName.toList = (lower p.name).toList.map safeChar := by
  simp only [PoolConfig.safeName, replaceChar, String.toList_ofList, List.map_map]
  rfl

theorem toNat_lt_of_isNameChar {c : Char} (h : isNameChar c = true) : c.toNat < 128 := by
  have hval : c.val.toNat = c.toNat := rfl
  simp only [isNameChar, Char.isAlphanum, Char.isAlpha, Char.isUpper, Char.isLower, Char.isDigit,
    Bool.or_eq_true, Bool.and_eq_true, decide_eq_true_eq, ge_iff_le, UInt32.le_iff_toNat_le] at h
  rcases h with (((((⟨-, hc⟩ | ⟨-, hc⟩) | ⟨-, hc⟩) | rfl) | rfl) | rfl)
  · exact lt_of_le_of_lt (hval ▸ hc) (by decide)
  · exact lt_of_le_of_lt (hval ▸ hc) (by decide)
  · exact lt_of_le_of_lt (hval ▸ hc) (by decide)
  · decide
  · decide
  · decide

theorem isNameChar_toLower {c : Char} (h : isNameChar c = true) : isNameChar c.toLower = true := by
  rcases toLower_cases c with hc | hc
  · rwa [hc]
  · simp [isNameChar, Char.isAlphanum, Char.isAlpha, hc]

/-- A character of a container name stays. -/
theorem safeChar_of_isNameChar {c : Char} (h : isNameChar c = true) : safeChar c = c := by
  have hspace : c ≠ ' ' := by
    rintro rfl
    exact absurd h (by decide)
  have hslash : c ≠ '/' := by
    rintro rfl
    exact absurd h (by decide)
  simp only [safeChar, if_neg hspace, if_neg hslash]

theorem dockerName_lower {repo : String} (h : DockerName repo) : DockerName (lower repo) := by
  intro c hc
  rw [lower, String.toList_ofList,
    lowerChars_ascii fun d hd => toNat_lt_of_isNameChar (h d hd)] at hc
  obtain ⟨d, hd, rfl⟩ := List.mem_map.1 hc
  exact isNameChar_toLower (h d hd)

/-- A dash ends a word, so what stands before it has no say in the letters after it. -/
theorem lower_append_dash (name repo : String) :
    (lower (name ++ "-" ++ repo)).toList = (lower name).toList ++ '-' :: (lower repo).toList := by
  have hdash : endsWord '-' = true := by decide +kernel
  simp only [lower, String.toList_ofList, String.toList_append, List.append_assoc]
  exact lowerChars_append_cons hdash name.toList repo.toList

/-- The prefix of a derived pool is that of the pool, a dash and the repository. -/
theorem forRepository_containerPrefix (pool : PoolConfig) (repo : String) :
    (pool.forRepository repo).containerPrefix.toList =
      pool.containerPrefix.toList ++ '-' :: (lower repo).toList.map safeChar := by
  have hname : (pool.forRepository repo).safeName.toList =
      pool.safeName.toList ++ '-' :: (lower repo).toList.map safeChar := by
    rw [safeName_toList, safeName_toList]
    simp only [PoolConfig.forRepository, lower_append_dash, List.map_append]
    rfl
  have hinst : (pool.forRepository repo).instance = pool.instance := rfl
  unfold PoolConfig.containerPrefix
  rw [hinst]
  split <;> simp only [String.toList_append, hname, List.append_assoc]

/-- In a repository name every character is one that a container name may have. -/
theorem map_safeChar {repo : String} (h : DockerName repo) :
    (lower repo).toList.map safeChar = (lower repo).toList := by
  conv_rhs => rw [← List.map_id (lower repo).toList]
  exact List.map_congr_left fun c hc => safeChar_of_isNameChar (dockerName_lower h c hc)

section Matching

variable {F : NameFilter} {pool : PoolConfig} {r s name : String}

theorem dockerName_ofRepository (hpool : DockerName pool.containerPrefix) (hr : DockerName r) :
    DockerName (pool.forRepository r).containerPrefix := by
  intro c hc
  rw [forRepository_containerPrefix, map_safeChar hr, List.mem_append, List.mem_cons] at hc
  rcases hc with hc | rfl | hc
  · exact hpool c hc
  · rfl
  · exact dockerName_lower hr c hc

/-- A pool whose prefix Docker refuses spawns nothing. -/
theorem pool_dockerName_of_spawns (h : (pool.forRepository r).Spawns name)
    (hname : DockerName name) : DockerName pool.containerPrefix := by
  obtain ⟨uid, -, -, huid⟩ := h
  intro c hc
  refine hname c ?_
  rw [huid, forRepository_containerPrefix]
  exact List.mem_append_left _ (List.mem_append_left _ hc)

/-- **Which filter matches.** The listing of `s` shows a container of `r` exactly when `r`
continues `s`. -/
theorem selects_iff_continues (hr : DockerName r) (hs : DockerName s)
    (h : (pool.forRepository r).Spawns name) (hname : DockerName name) :
    F.selects (pool.forRepository s).containerPrefix name = Continues r s := by
  have hpool := pool_dockerName_of_spawns h hname
  obtain ⟨uid, -, hhex, huid⟩ := h
  rw [F.spec _ _ (dockerName_ofRepository hpool hs) hname, huid,
    dotPrefix_dash_append (dash_not_hex hhex), forRepository_containerPrefix,
    forRepository_containerPrefix, map_safeChar hr, map_safeChar hs, List.append_assoc,
    List.append_assoc, dotPrefix_append_left, List.cons_append, List.cons_append,
    dotPrefix_cons_dash]
  rfl

theorem continues_self (r : String) : Continues r r = true := by
  have h := dotPrefix_self_append ((lower r).toList ++ ['-']) []
  rwa [List.append_nil] at h

theorem ne_empty_of_spawns (h : (pool.forRepository r).Spawns name) : name ≠ "" := by
  obtain ⟨uid, -, -, huid⟩ := h
  rintro rfl
  exact absurd huid.symm (by simp)

end Matching

/-! ### Listings -/

section Listings

variable {F : NameFilter} {pool : PoolConfig} {repos : List String} {r s name : String}
  {v : HostView}

/-- The repositories a personal pool discovers. Names on GitHub are made of letters, digits,
dashes, underscores and dots. -/
structure Discovered (repos : List String) : Prop where
  distinct : repos.Nodup
  named : ∀ r ∈ repos, DockerName r

theorem mem_runningNames : name ∈ runningNames F pool v s ↔ name ≠ "" ∧
    ∃ c ∈ shown F (pool.forRepository s).containerPrefix .running v.atRunning, c.name = name := by
  simp only [runningNames, runningContainers, HostView.observe, List.mem_dedup, List.mem_filter,
    List.mem_map, decide_eq_true_eq]
  exact and_comm

theorem shown_without {start : String} {state : ContainerState} {host : List HostContainer}
    (h : ∀ c ∈ shown F start state host, c.name ≠ name) :
    shown F start state (host.filter (·.name ≠ name)) = shown F start state host := by
  unfold shown at h ⊢
  rw [List.filter_comm, List.filter_eq_self]
  exact fun c hc => decide_eq_true (h c hc)

/-- A container of another repository that is not continued is not shown. -/
theorem not_shown (hr : DockerName r) (hs : DockerName s)
    (h : (pool.forRepository r).Spawns name)
    (hforeign : DockerName pool.containerPrefix → Continues r s = false)
    (state : ContainerState) (host : List HostContainer) :
    ∀ c ∈ shown F (pool.forRepository s).containerPrefix state host, c.name ≠ name := by
  rintro c hc rfl
  obtain ⟨-, hc⟩ := List.mem_filter.1 hc
  rw [selects_iff_continues hr hs h c.named,
    hforeign (pool_dockerName_of_spawns h c.named)] at hc
  cases hc

/-- The own listing shows a running container. -/
theorem mem_runningNames_own (hr : DockerName r) (h : (pool.forRepository r).Spawns name)
    (hlive : ∃ c ∈ v.atRunning, c.name = name ∧ c.state = .running) :
    name ∈ runningNames F pool v r := by
  obtain ⟨c, hc, rfl, hstate⟩ := hlive
  refine mem_runningNames.2 ⟨ne_empty_of_spawns h, c, List.mem_filter.2 ⟨hc, ?_⟩, rfl⟩
  rw [selects_iff_continues hr hr h c.named, continues_self, hstate]
  rfl

/-- Without a listed container there is one name less. -/
theorem runningNames_without (h : name ∈ runningNames F pool v s) :
    (runningNames F pool v s).length = (runningNames F pool (v.without name) s).length + 1 := by
  have herase : (runningNames F pool (v.without name) s).toFinset =
      (runningNames F pool v s).toFinset.erase name := by
    ext n
    simp only [Finset.mem_erase, List.mem_toFinset, mem_runningNames, shown, HostView.without,
      List.mem_filter, decide_eq_true_eq]
    constructor
    · rintro ⟨hne, c, ⟨⟨hc, hother⟩, hsel⟩, rfl⟩
      exact ⟨hother, hne, c, ⟨hc, hsel⟩, rfl⟩
    · rintro ⟨hother, hne, c, ⟨hc, hsel⟩, rfl⟩
      exact ⟨hne, c, ⟨⟨hc, hother⟩, hsel⟩, rfl⟩
  have hcard := Finset.card_erase_add_one (List.mem_toFinset.2 h)
  have hlen : ∀ w, (runningNames F pool w s).toFinset.card = (runningNames F pool w s).length :=
    fun w => List.toFinset_card_of_nodup (List.nodup_dedup _)
  rw [← herase, hlen, hlen] at hcard
  exact hcard.symm

theorem runningNames_without_of_not_shown
    (h : ∀ c ∈ shown F (pool.forRepository s).containerPrefix .running v.atRunning,
      c.name ≠ name) :
    runningNames F pool (v.without name) s = runningNames F pool v s := by
  simp only [runningNames, HostView.observe, HostView.without]
  rw [shown_without h]

/-- `running` of an inspection is the number of its names. -/
theorem inspectRepository_running {i : PoolInspection}
    (h : (inspectRepository F pool v s).outcome = .ok i) :
    i.running = (runningNames F pool v s).length := by
  obtain ⟨runners, queued, -, -, rfl⟩ := inspectPool_ok h
  rfl

/-- The total of the inspections a tick goes on with. -/
theorem sum_running_eq_totalRunning {views : String → HostView} {is : List PoolInspection}
    (h : collectInspections (repos.map fun repo => inspectRepository F pool (views repo) repo) =
      some is) :
    (is.map (·.running)).sum = totalRunning F pool repos views := by
  obtain ⟨collected, hperm, hall⟩ := collectInspections_some h
  rw [(hperm.map _).sum_eq]
  clear h hperm
  rw [List.forall₂_map_left_iff] at hall
  induction hall with
  | nil => rfl
  | cons hok _ ih =>
    rw [List.map_cons, List.sum_cons, ih, inspectRepository_running hok]
    rfl

theorem mem_tickPersonal_killed {obs : String → Observations} {draining : Bool} {cap : CapView}
    (h : name ∈ (tickPersonal pool repos obs draining cap).killed) :
    ∃ s ∈ repos, name ∈ (inspectPool (pool.forRepository s) (obs s)).killed := by
  rw [tickPersonal_killed, List.mem_flatMap] at h
  exact h

end Listings

/-! ### Ownership -/

section Ownership

variable {F : NameFilter} {pool : PoolConfig} {repos : List String}

/-- No discovered name continues another one. -/
def NoneContinues (pool : PoolConfig) (repos : List String) : Prop :=
  DockerName pool.containerPrefix → ∀ r ∈ repos, ∀ s ∈ repos, r ≠ s → Continues r s = false

instance (pool : PoolConfig) (repos : List String) : Decidable (NoneContinues pool repos) :=
  inferInstanceAs (Decidable (_ → _))

namespace NoneContinues

variable (hrepos : Discovered repos) (hnone : NoneContinues pool repos)
include hrepos hnone

theorem not_shown {r s name : String} (hr : r ∈ repos) (hs : s ∈ repos) (hne : r ≠ s)
    (h : (pool.forRepository r).Spawns name) (state : ContainerState)
    (host : List HostContainer) :
    ∀ c ∈ shown F (pool.forRepository s).containerPrefix state host, c.name ≠ name :=
  RunnerSwarm.not_shown (hrepos.named r hr) (hrepos.named s hs) h
    (fun hpool => hnone hpool r hr s hs hne) state host

theorem unseen {r s name : String} (hr : r ∈ repos) (hs : s ∈ repos) (hne : r ≠ s)
    (h : (pool.forRepository r).Spawns name) (v : HostView) :
    name ∉ runningNames F pool v s ∧
      name ∉ (v.observe F (pool.forRepository s)).stuck.output.map Prod.fst ∧
      name ∉ (inspectRepository F pool v s).removed ∧
      name ∉ (inspectRepository F pool v s).killed := by
  have hnot := hnone.not_shown (F := F) hrepos hr hs hne h
  have hstuck : name ∉ (v.observe F (pool.forRepository s)).stuck.output.map Prod.fst := by
    simp only [HostView.observe, List.map_map, List.mem_map, Function.comp]
    rintro ⟨c, hc, hname⟩
    exact hnot _ _ c hc hname
  refine ⟨fun hmem => ?_, hstuck, fun hmem => ?_, fun hmem => ?_⟩
  · obtain ⟨-, c, hc, hname⟩ := mem_runningNames.1 hmem
    exact hnot _ _ c hc hname
  · rw [inspectRepository, inspectPool_removed] at hmem
    simp only [cleanupExited, HostView.observe, List.map_map, List.mem_map, Function.comp] at hmem
    obtain ⟨c, hc, hname⟩ := hmem
    exact hnot _ _ c hc hname
  · obtain ⟨-, -, hmem, -⟩ := mem_inspectPool_killed hmem
    exact hstuck hmem

theorem uncovered {r s name : String} (hr : r ∈ repos) (hs : s ∈ repos) (hne : r ≠ s)
    (h : (pool.forRepository r).Spawns name) (v : HostView) :
    inspectRepository F pool (v.without name) s = inspectRepository F pool v s := by
  have hnot := hnone.not_shown (F := F) hrepos hr hs hne h
  simp only [inspectRepository, HostView.observe, HostView.without]
  rw [shown_without (hnot _ _), shown_without (hnot _ _), shown_without (hnot _ _)]

theorem countedOnce {r name : String} (hr : r ∈ repos) (h : (pool.forRepository r).Spawns name)
    (views : String → HostView)
    (hlive : ∃ c ∈ (views r).atRunning, c.name = name ∧ c.state = .running) :
    totalRunning F pool repos views =
      totalRunning F pool repos (fun s => (views s).without name) + 1 := by
  have hown := runningNames_without (mem_runningNames_own (F := F) (hrepos.named r hr) h hlive)
  have hothers : (repos.erase r).map (fun s => (runningNames F pool (views s) s).length) =
      (repos.erase r).map fun s => (runningNames F pool ((views s).without name) s).length := by
    refine List.map_congr_left fun s hs => ?_
    obtain ⟨hne, hs⟩ := (hrepos.distinct.mem_erase_iff).1 hs
    rw [runningNames_without_of_not_shown
      (hnone.not_shown hrepos hr hs (Ne.symm hne) h .running (views s).atRunning)]
  unfold totalRunning
  rw [← List.sum_map_erase _ hr, ← List.sum_map_erase _ hr, hothers, hown]
  exact Nat.add_right_comm _ 1 _

theorem spared {r name : String} (hr : r ∈ repos) (h : (pool.forRepository r).Spawns name)
    (views : String → HostView)
    (hlive : ∃ c ∈ (views r).atRunning, c.name = name ∧ c.state = .running)
    (honline : ∃ runners, (views r).runners = some runners ∧
      ∃ runner ∈ runners, runner.name = name ∧ runner.status = "online")
    (draining : Bool) (cap : CapView) :
    name ∉ (tickPersonal pool repos
      (fun s => (views s).observe F (pool.forRepository s)) draining cap).killed := by
  intro hmem
  obtain ⟨s, hs, hkilled⟩ := mem_tickPersonal_killed hmem
  by_cases hne : r = s
  · subst hne
    obtain ⟨runners, hrunners, -, hsafe⟩ := mem_inspectPool_killed hkilled
    obtain ⟨runners', hrunners', runner, hrunner, hname, hstatus⟩ := honline
    obtain rfl : runners' = runners := Option.some.inj (hrunners'.symm.trans hrunners)
    refine hsafe ⟨?_, ?_⟩
    · exact List.mem_dedup.1 (mem_runningNames_own (F := F) (hrepos.named r hr) h hlive)
    · obtain ⟨uid, -, -, huid⟩ := h
      refine List.mem_map.2 ⟨runner, List.mem_append_left _ ?_, hname⟩
      refine List.mem_filter.2 ⟨List.mem_filter.2 ⟨hrunner, ?_⟩, decide_eq_true hstatus⟩
      rw [startsWith, List.isPrefixOf_iff_prefix, hname, huid]
      exact ⟨uid, by simp⟩
  · exact (hnone.unseen (F := F) hrepos hr hs hne h (views s)).2.2.2 hkilled

end NoneContinues

/-- A container `r` may spawn, when its name is one Docker accepts. -/
theorem exists_container {r : String} (hpool : DockerName pool.containerPrefix)
    (hr : DockerName r) :
    ∃ c : HostContainer, (pool.forRepository r).Spawns c.name ∧ c.state = .running := by
  let chars := (pool.forRepository r).containerPrefix.toList ++ '-' :: List.replicate 8 '0'
  have hnamed : DockerName (String.ofList chars) := by
    intro c hc
    rw [String.toList_ofList, List.mem_append, List.mem_cons] at hc
    rcases hc with hc | rfl | hc
    · exact dockerName_ofRepository hpool hr c hc
    · rfl
    · rw [List.eq_of_mem_replicate hc]
      rfl
  refine ⟨⟨String.ofList chars, .running, "", "", hnamed⟩, ⟨List.replicate 8 '0', rfl, ?_, ?_⟩, rfl⟩
  · intro c hc
    rw [List.eq_of_mem_replicate hc]
    rfl
  · exact String.toList_ofList

/-- **Ownership.** The containers of every repository are left to its own inspection exactly when
no discovered name continues another one. -/
theorem ownInspectionsOnly_iff (F : NameFilter) (pool : PoolConfig) (repos : List String)
    (hrepos : Discovered repos) :
    OwnInspectionsOnly F pool repos ↔ NoneContinues pool repos := by
  constructor
  · intro hown hpool r hr s hs hne
    rw [← Bool.not_eq_true]
    intro hcont
    obtain ⟨c, hspawns, hstate⟩ := exists_container hpool (hrepos.named r hr)
    let v : HostView := ⟨[], [c], [], none, fun _ => none, .ok 0⟩
    refine (hown.unseen r hr s hs hne c.name hspawns v).1 ?_
    refine mem_runningNames.2 ⟨ne_empty_of_spawns hspawns, c, ?_, rfl⟩
    refine List.mem_filter.2 ⟨List.mem_singleton_self c, ?_⟩
    rw [selects_iff_continues (hrepos.named r hr) (hrepos.named s hs) hspawns c.named, hcont,
      hstate]
    rfl
  · intro hnone
    exact {
      unseen := fun r hr s hs hne name h v => hnone.unseen hrepos hr hs hne h v
      uncovered := fun r hr s hs hne name h v => hnone.uncovered hrepos hr hs hne h v
      countedOnce := fun r hr name h views hlive => hnone.countedOnce hrepos hr h views hlive
      spared := fun r hr name h views hlive honline draining cap =>
        hnone.spared hrepos hr h views hlive honline draining cap }

/-- A filter that is its own specification. -/
def dotFilter : NameFilter where
  selects start name := dotPrefix (start.toList ++ ['-']) name.toList
  spec := dotPrefix_spec

/-- A personal pool. -/
def personalPool : PoolConfig := { name := "Home", pat := "t", owner := "me", scope := "personal" }

theorem ownInspectionsOnly_iff_apart :
    Discovered ["api", "Web-Shop"] ∧ OwnInspectionsOnly dotFilter personalPool ["api", "Web-Shop"] :=
  ⟨⟨by decide, by decide⟩,
    (ownInspectionsOnly_iff dotFilter personalPool ["api", "Web-Shop"]
      ⟨by decide, by decide⟩).2 (by decide)⟩

/-- The container of `app-web` runs, and the inspection of `app` lists it. -/
theorem not_ownInspectionsOnly :
    ¬ ∀ (F : NameFilter) (pool : PoolConfig) (repos : List String), Discovered repos →
      OwnInspectionsOnly F pool repos := by
  intro h
  have hown := h dotFilter personalPool ["app", "app-web"] ⟨by decide, by decide⟩
  let name := "gh-runner-home-app-web-0a1b2c3d"
  let v : HostView :=
    ⟨[], [⟨name, .running, "Up 5 minutes", "5 minutes ago", by decide⟩], [], none,
      fun _ => none, .ok 0⟩
  have hspawns : (personalPool.forRepository "app-web").Spawns name :=
    ⟨"0a1b2c3d".toList, by decide, List.all_eq_true.1 (by decide), by decide⟩
  have hunseen := (hown.unseen "app-web" (by decide) "app" (by decide) (by decide) name hspawns v).1
  exact hunseen (by decide)

end Ownership

end RunnerSwarm
