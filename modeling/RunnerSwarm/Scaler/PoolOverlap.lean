import Mathlib.Data.List.NodupEquivFin
import RunnerSwarm.Config.Warnings
import RunnerSwarm.Scaler.Hosts
import RunnerSwarm.Scaler.Ownership

/-!
# Pools of one configuration that take each other's runners

A pool finds its containers and runners by its prefix and a dash. The eight digits at the end of a
name contain no dash, so a pool takes a name of another one exactly when the two prefixes are equal
or the other one continues its own at a dash (`confuses_iff`). `validation_warnings` looks for a
prefix that continues another, and for a name that is given twice. It does not look for two names
with one prefix, such as `My Pool` and `my-pool`.

* `leavesAlone_iff`: what it takes that the inspections of a pool have nothing to do with a name;
* `confusions_reported_iff`: when every confusion is reported, and when pools without a report leave
  each other's runners alone.
-/

namespace RunnerSwarm

/-- Two pools at different positions of the list. -/
def AtDifferent (pools : List PoolConfig) (p q : PoolConfig) : Prop :=
  ∃ i j : ℕ, i ≠ j ∧ pools[i]? = some p ∧ pools[j]? = some q

/-- Some name of a runner of `p` is matched by the filter of `q`. -/
def Confuses (p q : PoolConfig) : Prop :=
  ∃ name, p.Spawns name ∧ startsWith name (q.containerPrefix ++ "-") = true

/-- **Every confusion is reported** under the name of the pool that matches. -/
def ReportsConfusions (pools : List PoolConfig) : Prop :=
  ∀ p q, AtDifferent pools p q → Confuses p q →
    ∃ warnings, validationWarnings pools = .ok warnings ∧ ∃ w ∈ warnings, w.Reports q.name

/-- The pools a tick inspects: one for each repository of a personal pool, else the pool itself. -/
def Inspected (q q' : PoolConfig) : Prop :=
  if q.isPersonalLevel then ∃ repo, DockerName repo ∧ q' = q.forRepository repo else q' = q

/-- A runner the pool may have. Docker accepts no other names. -/
def HasRunner (p : PoolConfig) (name : String) : Prop :=
  DockerName name ∧ ∃ p', Inspected p p' ∧ p'.Spawns name

/-- No inspection of the pool counts, reaps or deregisters the runner of this name, whatever the
host and the forge answer. -/
structure LeavesAlone (F : NameFilter) (q : PoolConfig) (name : String) : Prop where
  uncounted : ∀ q', Inspected q q' → ∀ v : HostView,
    name ∉ runningContainers (v.observe F q').running
  unremoved : ∀ q', Inspected q q' → ∀ v : HostView,
    name ∉ (inspectPool q' (v.observe F q')).removed
  unkilled : ∀ q', Inspected q q' → ∀ v : HostView,
    name ∉ (inspectPool q' (v.observe F q')).killed
  /-- Neither idle nor busy capacity. -/
  notOwn : ∀ q', Inspected q q' → ∀ runners, name ∉ (ownRunners q' runners).map (·.name)
  registered : ∀ q', Inspected q q' → ∀ (v : HostView) (i : PoolInspection),
    (inspectPool q' (v.observe F q')).outcome = .ok i → name ∉ i.offlineRunners.map (·.name)

/-- **Without a report the pools leave each other's runners alone.** -/
def QuietIsSafe (F : NameFilter) (pools : List PoolConfig) : Prop :=
  ∀ warnings, validationWarnings pools = .ok warnings →
    (∀ w ∈ warnings, ∀ name, ¬ w.Reports name) →
    ∀ p q, AtDifferent pools p q → ∀ name, HasRunner p name → LeavesAlone F q name

/-- Docker shows a pool no runner of another one that does not start with its prefix and a dash: no
dot in the prefix stands for another character. -/
def PlainlyShown (F : NameFilter) (pools : List PoolConfig) : Prop :=
  ∀ p q, AtDifferent pools p q → ∀ name, HasRunner p name → ∀ q', Inspected q q' →
    F.selects q'.containerPrefix name = true → startsWith name (q'.containerPrefix ++ "-") = true

variable {F : NameFilter} {pools : List PoolConfig} {p p' q q' : PoolConfig} {name : String}

/-! ### Prefixes -/

theorem AtDifferent.symm (h : AtDifferent pools p q) : AtDifferent pools q p := by
  obtain ⟨i, j, hne, hi, hj⟩ := h
  exact ⟨j, i, hne.symm, hj, hi⟩

theorem AtDifferent.mem (h : AtDifferent pools p q) : p ∈ pools ∧ q ∈ pools := by
  obtain ⟨i, j, -, hi, hj⟩ := h
  exact ⟨List.mem_of_getElem? hi, List.mem_of_getElem? hj⟩

/-- A name at two positions is reported. -/
theorem reportedPool_of_same_name (h : AtDifferent pools p q) (hname : p.name = q.name) :
    ReportedPool pools q.name := by
  obtain ⟨i, j, hne, hi, hj⟩ := h
  have hi' : (pools.map (·.name))[i]? = some q.name := by rw [List.getElem?_map, hi, ← hname]; rfl
  have hj' : (pools.map (·.name))[j]? = some q.name := by rw [List.getElem?_map, hj]; rfl
  obtain ⟨hilt, hi'⟩ := List.getElem?_eq_some_iff.1 hi'
  obtain ⟨hjlt, hj'⟩ := List.getElem?_eq_some_iff.1 hj'
  refine Or.inl (List.duplicate_iff_exists_distinct_get.2 ?_)
  rcases Nat.lt_or_gt_of_ne hne with hlt | hlt
  · exact ⟨⟨i, hilt⟩, ⟨j, hjlt⟩, hlt, hi'.symm, hj'.symm⟩
  · exact ⟨⟨j, hjlt⟩, ⟨i, hilt⟩, hlt, hj'.symm, hi'.symm⟩

/-- The prefix of a pool and a dash. -/
def PoolConfig.start (p : PoolConfig) : List Char := p.containerPrefix.toList ++ ['-']

theorem startsWith_start_iff {s : String} :
    startsWith s (q.containerPrefix ++ "-") = true ↔ q.start <+: s.toList := by
  unfold startsWith PoolConfig.start
  rw [List.isPrefixOf_iff_prefix, String.toList_append]
  rfl

/-- A name of `p` starts like those of `q` when the prefix of `p` and its dash do. -/
theorem start_prefix_iff_of_spawns (h : p.Spawns name) :
    q.start <+: name.toList ↔ q.start <+: p.start := by
  obtain ⟨uid, -, hhex, hname⟩ := h
  unfold PoolConfig.start
  rw [hname, prefix_sep_iff (dash_not_hex hhex)]

/-- One start begins another when the prefixes are equal or one overlaps. -/
theorem start_prefix_start_iff : q.start <+: p.start ↔
    p.containerPrefix = q.containerPrefix ∨ q.start <+: p.containerPrefix.toList := by
  unfold PoolConfig.start
  rw [List.prefix_concat_iff, List.append_left_inj, String.toList_inj, eq_comm]

/-- **When two pools are confused.** -/
theorem confuses_iff : Confuses p q ↔ q.start <+: p.start := by
  constructor
  · rintro ⟨name, hspawns, hstarts⟩
    exact (start_prefix_iff_of_spawns hspawns).1 (startsWith_start_iff.1 hstarts)
  · intro h
    refine ⟨_, p.spawns_sampleUid, startsWith_start_iff.2 ?_⟩
    exact (start_prefix_iff_of_spawns p.spawns_sampleUid).2 h

/-- A confusion is reported, unless the names differ and the prefixes do not. -/
theorem reportedPool_of_confuses (h : AtDifferent pools p q) (hstart : q.start <+: p.start)
    (hplain : p.name ≠ q.name → p.containerPrefix ≠ q.containerPrefix) :
    ReportedPool pools q.name := by
  by_cases hname : p.name = q.name
  · exact reportedPool_of_same_name h hname
  · have hoverlap := (start_prefix_start_iff.1 hstart).resolve_left (hplain hname)
    refine Or.inr ⟨q, h.mem.2, rfl, p, h.mem.1, ?_⟩
    unfold PoolConfig.overlaps
    rw [Bool.and_eq_true, decide_eq_true_eq]
    exact ⟨hname, startsWith_start_iff.2 hoverlap⟩

/-- The warnings report exactly when the sizes can be read. -/
theorem exists_reports_iff {name : String} :
    (∃ warnings, validationWarnings pools = .ok warnings ∧ ∃ w ∈ warnings, w.Reports name) ↔
      AllSizesReadable pools ∧ ReportedPool pools name := by
  constructor
  · rintro ⟨warnings, hok, hreports⟩
    exact ⟨exists_validationWarnings_iff.1 ⟨warnings, hok⟩, (reports_iff hok).1 hreports⟩
  · rintro ⟨hsizes, hreported⟩
    obtain ⟨warnings, hok⟩ := exists_validationWarnings_iff.2 hsizes
    exact ⟨warnings, hok, (reports_iff hok).2 hreported⟩

/-- When every confusion is reported. -/
theorem reportsConfusions_iff : ReportsConfusions pools ↔
    ((∃ p q, AtDifferent pools p q ∧ Confuses p q) → AllSizesReadable pools) ∧
      ∀ p q, AtDifferent pools p q → p.name ≠ q.name → p.containerPrefix = q.containerPrefix →
        ReportedPool pools q.name := by
  constructor
  · intro h
    refine ⟨fun ⟨p, q, hpq, hconf⟩ => (exists_reports_iff.1 (h p q hpq hconf)).1, ?_⟩
    intro p q hpq _ hsame
    have hconf : Confuses p q := confuses_iff.2 (start_prefix_start_iff.2 (Or.inl hsame))
    exact (exists_reports_iff.1 (h p q hpq hconf)).2
  · rintro ⟨hsizes, hsame⟩ p q hpq hconf
    refine exists_reports_iff.2 ⟨hsizes ⟨p, q, hpq, hconf⟩, ?_⟩
    by_cases hplain : p.name ≠ q.name → p.containerPrefix ≠ q.containerPrefix
    · exact reportedPool_of_confuses hpq (confuses_iff.1 hconf) hplain
    · obtain ⟨hname, hstart⟩ := Classical.not_imp.1 hplain
      exact hsame p q hpq hname (not_not.1 hstart)

/-! ### Inspections -/

/-- **What an inspection has nothing to do with:** what neither filter of it matches. -/
theorem leavesAlone_iff (hname : DockerName name) : LeavesAlone F q name ↔
    ∀ q', Inspected q q' → F.selects q'.containerPrefix name = false ∧
      startsWith name (q'.containerPrefix ++ "-") = false := by
  constructor
  · intro h q' hq'
    refine ⟨Bool.eq_false_iff.2 fun hselects => ?_, Bool.eq_false_iff.2 fun hstarts => ?_⟩
    · -- a host on which nothing but this container has exited
      let c : HostContainer := ⟨name, .exited, "", "", hname⟩
      let v : HostView := ⟨[c], [], [], none, fun _ => none, .ok 0⟩
      have hshown : c ∈ shown F q'.containerPrefix .exited v.atExited := by
        refine List.mem_filter.2 ⟨List.mem_singleton_self c, ?_⟩
        rw [hselects]
        rfl
      refine h.unremoved q' hq' v ?_
      rw [inspectPool_removed]
      exact List.mem_map.2 ⟨_, List.mem_map_of_mem hshown, rfl⟩
    · let r : RunnerInfo := { id := 0, name := name, status := "online", busy := false }
      refine h.notOwn q' hq' [r] (List.mem_map.2 ⟨r, ?_, rfl⟩)
      exact List.mem_filter.2 ⟨List.mem_singleton_self r, hstarts⟩
  · intro h
    have hshown : ∀ q', Inspected q q' → ∀ state host,
        ∀ c ∈ shown F q'.containerPrefix state host, c.name ≠ name := by
      rintro q' hq' state host c hc rfl
      have hselects := (Bool.and_eq_true_iff.1 (List.mem_filter.1 hc).2).1
      rw [(h q' hq').1] at hselects
      cases hselects
    have hown : ∀ q', Inspected q q' → ∀ runners, ∀ r ∈ ownRunners q' runners, r.name ≠ name := by
      rintro q' hq' runners r hr rfl
      have hstarts := (List.mem_filter.1 hr).2
      rw [(h q' hq').2] at hstarts
      cases hstarts
    refine ⟨fun q' hq' v hmem => ?_, fun q' hq' v hmem => ?_, fun q' hq' v hmem => ?_,
      fun q' hq' runners hmem => ?_, fun q' hq' v i hi hmem => ?_⟩
    · obtain ⟨c, hc, hcname⟩ := List.mem_map.1 (List.mem_filter.1 hmem).1
      exact hshown q' hq' _ _ c hc hcname
    · rw [inspectPool_removed] at hmem
      obtain ⟨entry, hentry, hcname⟩ := List.mem_map.1 hmem
      obtain ⟨c, hc, rfl⟩ := List.mem_map.1 hentry
      exact hshown q' hq' _ _ c hc hcname
    · obtain ⟨_, -, hlisted, -⟩ := mem_inspectPool_killed hmem
      obtain ⟨entry, hentry, hcname⟩ := List.mem_map.1 hlisted
      obtain ⟨c, hc, rfl⟩ := List.mem_map.1 hentry
      exact hshown q' hq' _ _ c hc hcname
    · obtain ⟨r, hr, hrname⟩ := List.mem_map.1 hmem
      exact hown q' hq' runners r hr hrname
    · obtain ⟨r, hr, hrname⟩ := List.mem_map.1 hmem
      obtain ⟨runners, queued, -, -, rfl⟩ := inspectPool_ok hi
      exact hown q' hq' runners r (List.mem_filter.1 hr).1 hrname

/-- The pools that are inspected start like their pool. -/
theorem Inspected.start_prefix (h : Inspected q q') : q.start <+: q'.start := by
  unfold Inspected at h
  split_ifs at h
  · obtain ⟨repo, -, rfl⟩ := h
    unfold PoolConfig.start
    rw [forRepository_containerPrefix, List.append_assoc, List.prefix_append_right_inj]
    exact List.prefix_append ['-'] _
  · rw [h]

theorem Inspected.dockerName (h : Inspected q q') (hdocker : DockerName q.containerPrefix) :
    DockerName q'.containerPrefix := by
  unfold Inspected at h
  split_ifs at h
  · obtain ⟨repo, hrepo, rfl⟩ := h
    exact dockerName_ofRepository hdocker hrepo
  · rwa [h]

/-- A runner of an inspected pool. -/
theorem hasRunner_sampleUid (h : Inspected p p') (hdocker : DockerName p.containerPrefix) :
    HasRunner p (String.ofList (p'.containerPrefix.toList ++ '-' :: PoolConfig.sampleUid)) := by
  refine ⟨fun c hc => ?_, p', h, p'.spawns_sampleUid⟩
  rw [String.toList_ofList, List.mem_append, List.mem_cons] at hc
  rcases hc with hc | rfl | hc
  · exact h.dockerName hdocker c hc
  · rfl
  · rw [List.eq_of_mem_replicate hc]
    rfl

/-- Two pools with one prefix are inspected under one prefix for some repository, or one of them
under its own. -/
theorem exists_inspected (hsame : p.containerPrefix = q.containerPrefix)
    (hpersonal : q.isPersonalLevel = true → p.isPersonalLevel = true) :
    ∃ p' q', Inspected p p' ∧ Inspected q q' ∧ q'.start <+: p'.start := by
  by_cases hq : q.isPersonalLevel = true
  · have hp : Inspected p (p.forRepository "app") := by
      unfold Inspected
      rw [if_pos (hpersonal hq)]
      exact ⟨"app", by decide, rfl⟩
    have hq' : Inspected q (q.forRepository "app") := by
      unfold Inspected
      rw [if_pos hq]
      exact ⟨"app", by decide, rfl⟩
    refine ⟨_, _, hp, hq', ?_⟩
    unfold PoolConfig.start
    rw [forRepository_containerPrefix, forRepository_containerPrefix, hsame]
  · have hq' : Inspected q q := by
      unfold Inspected
      rw [if_neg hq]
    have hp : ∃ p', Inspected p p' := by
      unfold Inspected
      split_ifs
      · exact ⟨_, "app", by decide, rfl⟩
      · exact ⟨p, rfl⟩
    obtain ⟨p', hp⟩ := hp
    have hstart : q.start = p.start := by
      unfold PoolConfig.start
      rw [hsame]
    exact ⟨p', q, hp, hq', hstart ▸ hp.start_prefix⟩

/-! ### Pools without a report -/

/-- A filter of another pool that matches a runner by its start begins the start of its pool. -/
theorem start_prefix_of_startsWith (hq : Inspected q q') (hp : Inspected p p')
    (hspawns : p'.Spawns name) (hstarts : startsWith name (q'.containerPrefix ++ "-") = true) :
    q.start <+: p.start ∨ p.start <+: q.start := by
  have hmatch : q'.start <+: p'.start :=
    (start_prefix_iff_of_spawns hspawns).1 (startsWith_start_iff.1 hstarts)
  exact List.prefix_or_prefix_of_prefix (hq.start_prefix.trans hmatch) hp.start_prefix

/-- Without a report, such a filter belongs to a pool of the same prefix. -/
theorem containerPrefix_eq_of_startsWith (hquiet : ∀ name, ¬ ReportedPool pools name)
    (hpq : AtDifferent pools p q) (hq : Inspected q q') (hp : Inspected p p')
    (hspawns : p'.Spawns name) (hstarts : startsWith name (q'.containerPrefix ++ "-") = true) :
    p.containerPrefix = q.containerPrefix := by
  by_contra hne
  rcases start_prefix_of_startsWith hq hp hspawns hstarts with hstart | hstart
  · exact hquiet _ (reportedPool_of_confuses hpq hstart fun _ => hne)
  · exact hquiet _ (reportedPool_of_confuses hpq.symm hstart fun _ => Ne.symm hne)

/-- Two pools of one prefix that Docker accepts do not both leave the other's runners alone. -/
theorem not_leavesAlone_of_prefix_eq (hsame : p.containerPrefix = q.containerPrefix)
    (hdocker : DockerName p.containerPrefix) :
    ¬ ((∀ name, HasRunner p name → LeavesAlone F q name) ∧
      ∀ name, HasRunner q name → LeavesAlone F p name) := by
  have hconflict : ∀ {p q : PoolConfig}, p.containerPrefix = q.containerPrefix →
      DockerName p.containerPrefix → (q.isPersonalLevel = true → p.isPersonalLevel = true) →
      ¬ ∀ name, HasRunner p name → LeavesAlone F q name := by
    intro p q hsame hdocker hpersonal h
    obtain ⟨p', q', hp, hq, hstart⟩ := exists_inspected hsame hpersonal
    have hrunner := hasRunner_sampleUid hp hdocker
    have halone := ((leavesAlone_iff hrunner.1).1 (h _ hrunner) q' hq).2
    have hstarts :=
      startsWith_start_iff.2 ((start_prefix_iff_of_spawns p'.spawns_sampleUid).2 hstart)
    rw [halone] at hstarts
    cases hstarts
  rintro ⟨hpq, hqp⟩
  by_cases hpersonal : q.isPersonalLevel = true → p.isPersonalLevel = true
  · exact hconflict hsame hdocker hpersonal hpq
  · -- `q` is personal and `p` is not, so `p` takes the runners of `q`
    obtain ⟨hq, -⟩ := Classical.not_imp.1 hpersonal
    exact hconflict hsame.symm (hsame ▸ hdocker) (fun _ => hq) hqp

/-- When pools without a report leave each other's runners alone. -/
theorem quietIsSafe_iff : QuietIsSafe F pools ↔
    (AllSizesReadable pools → (∀ name, ¬ ReportedPool pools name) →
      (∀ p q, AtDifferent pools p q → p.containerPrefix = q.containerPrefix →
        ¬ DockerName p.containerPrefix) ∧ PlainlyShown F pools) := by
  constructor
  · intro h hsizes hquiet
    obtain ⟨warnings, hok⟩ := exists_validationWarnings_iff.2 hsizes
    have hsafe := h warnings hok fun w hw name hreports =>
      hquiet name ((reports_iff hok).1 ⟨w, hw, hreports⟩)
    refine ⟨fun p q hpq hsame hdocker => ?_, fun p q hpq name hname q' hq' hselects => ?_⟩
    · exact not_leavesAlone_of_prefix_eq hsame hdocker ⟨hsafe p q hpq, hsafe q p hpq.symm⟩
    · rw [((leavesAlone_iff hname.1).1 (hsafe p q hpq name hname) q' hq').1] at hselects
      cases hselects
  · intro h warnings hok hnone p q hpq name hname
    have hquiet : ∀ name, ¬ ReportedPool pools name := fun name hreported => by
      obtain ⟨w, hw, hreports⟩ := (reports_iff hok).2 hreported
      exact hnone w hw name hreports
    obtain ⟨hsame, hplain⟩ := h (exists_validationWarnings_iff.1 ⟨warnings, hok⟩) hquiet
    obtain ⟨hdocker, p', hp, hspawns⟩ := hname
    refine (leavesAlone_iff hdocker).2 fun q' hq' => ?_
    have hstarts : startsWith name (q'.containerPrefix ++ "-") = false := by
      refine Bool.eq_false_iff.2 fun hstarts => ?_
      have heq := containerPrefix_eq_of_startsWith hquiet hpq hq' hp hspawns hstarts
      refine hsame p q hpq heq fun c hc => hdocker c ?_
      -- the prefix of `p` is a part of the name
      have hstart := (start_prefix_iff_of_spawns hspawns).2 hp.start_prefix
      exact hstart.subset (List.mem_append_left _ hc)
    refine ⟨Bool.eq_false_iff.2 fun hselects => ?_, hstarts⟩
    rw [hplain p q hpq name ⟨hdocker, p', hp, hspawns⟩ q' hq' hselects] at hstarts
    cases hstarts

/-- **Confusions between pools.** Each is reported if and only if the sizes can be read, when there
is one at all, and no two pools of different names share a prefix without another report. A list
without a report is safe if and only if no two of its pools share a prefix that Docker accepts, and
Docker shows no pool more than what starts like its own names. -/
theorem confusions_reported_iff (F : NameFilter) (pools : List PoolConfig) :
    (ReportsConfusions pools ↔
      ((∃ p q, AtDifferent pools p q ∧ Confuses p q) → AllSizesReadable pools) ∧
        ∀ p q, AtDifferent pools p q → p.name ≠ q.name → p.containerPrefix = q.containerPrefix →
          ReportedPool pools q.name) ∧
    (QuietIsSafe F pools ↔
      (AllSizesReadable pools → (∀ name, ¬ ReportedPool pools name) →
        (∀ p q, AtDifferent pools p q → p.containerPrefix = q.containerPrefix →
          ¬ DockerName p.containerPrefix) ∧ PlainlyShown F pools)) :=
  ⟨reportsConfusions_iff, quietIsSafe_iff⟩

/-- Two pools whose names differ in a capital and a space. -/
def likeNamed : List PoolConfig :=
  [{ name := "My Pool", pat := "t", owner := "acme", repo := "app" },
   { name := "my-pool", pat := "t", owner := "acme", repo := "web" }]

/-- **No warning, and the second pool takes the runners of the first.** -/
theorem like_named_pools_unreported :
    validationWarnings likeNamed = .ok [] ∧ ¬ ReportsConfusions likeNamed ∧
      ¬ QuietIsSafe dotFilter likeNamed := by
  have hquiet : validationWarnings likeNamed = .ok [] := by decide +kernel
  have hat : AtDifferent likeNamed
      { name := "My Pool", pat := "t", owner := "acme", repo := "app" }
      { name := "my-pool", pat := "t", owner := "acme", repo := "web" } :=
    ⟨0, 1, by decide, rfl, rfl⟩
  have hspawns : PoolConfig.Spawns { name := "My Pool", pat := "t", owner := "acme", repo := "app" }
      "gh-runner-my-pool-0a1b2c3d" :=
    ⟨"0a1b2c3d".toList, by decide, List.all_eq_true.1 (by decide), by decide +kernel⟩
  refine ⟨hquiet, fun h => ?_, fun h => ?_⟩
  · obtain ⟨warnings, hok, w, hw, -⟩ := h _ _ hat ⟨_, hspawns, by decide +kernel⟩
    obtain rfl := Except.ok.inj (hquiet.symm.trans hok)
    cases hw
  · have halone := h [] hquiet (fun w hw => absurd hw List.not_mem_nil) _ _ hat
      "gh-runner-my-pool-0a1b2c3d" ⟨by decide +kernel, _, rfl, hspawns⟩
    have hown := halone.notOwn _ rfl
      [{ id := 7, name := "gh-runner-my-pool-0a1b2c3d", status := "online", busy := true }]
    exact hown (by decide +kernel)

end RunnerSwarm
