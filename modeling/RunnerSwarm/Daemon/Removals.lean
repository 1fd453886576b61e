import RunnerSwarm.Docker.AgeLimits
import RunnerSwarm.Docker.CiContainers
import RunnerSwarm.Lib.Run
import RunnerSwarm.Scaler.Hosts
import RunnerSwarm.Scaler.Ownership
import RunnerSwarm.Server.Deps

/-!
# Removing containers

Containers are removed by the sweeps of the ticks (`cleanup_exited`, `cleanup_stuck`), by those of
the maintenance lanes (`cleanup_aged`, `cleanup_ci_containers`) and at a request
(`stop_container`). All of them run at once, on a host where other things happen too. And none of
them removes what it sees when it sees it: a sweep lists the containers first, `cleanup_stuck` asks
`docker top` for each candidate, and the names are handed to `_run_parallel`, which runs a few
`docker rm` at a time and drops those that have not begun when its time is over.

* `RemovalState.step` is one step of any of them, or of the host;
* `only_runners_removed`: in every order of steps, what is removed is a runner, or, with the reaper
  of leftovers, no container of the stack;
* `jobs_survive`: a container with a job that runs is removed by no sweep but that of the lifetime
  ceiling.
-/

namespace RunnerSwarm

/-! ### Running jobs -/

/-- `has_running_job`, from the lines of `docker top`: a header, then one for each process. -/
def hasRunningJob (top : CommandResult (List String)) : Option Bool :=
  if top.code ≠ 0 then none
  else if top.output.any (hasText · "Runner.Worker") then some true
  else
    let processes := top.output.drop 1
    let daemon := processes.filter (hasText · "gitea-runner daemon")
    some (!daemon.isEmpty && daemon.length < processes.length)

/-- The candidates of `cleanup_stuck`, before it asks for their processes. -/
def stuckCandidates (listed : CommandResult (List (String × String))) (onlineNames : List String)
    (timeoutMinutes : ℤ) : List String :=
  (listed.output.filter fun (name, runningFor) =>
    name ∉ onlineNames && overLimit timeoutMinutes runningFor).map Prod.fst

/-- `cleanup_stuck` kills the candidates without a job. -/
theorem cleanupStuck_eq (listed : CommandResult (List (String × String)))
    (onlineNames : List String) (timeoutMinutes : ℤ) (runningJob : String → Option Bool) :
    cleanupStuck listed onlineNames timeoutMinutes runningJob =
      (stuckCandidates listed onlineNames timeoutMinutes).filter
        (runningJob · = some false) := by
  unfold cleanupStuck stuckCandidates overLimit
  rw [List.filter_map, List.filter_filter]
  congr 1
  refine List.filter_congr fun row _ => ?_
  simp only [Function.comp_apply]
  exact Bool.and_comm _ _

/-- A container of the host: what the listings print of it, its age in minutes, and the lines of its
processes. -/
structure HostedContainer extends CiContainer where
  state : ContainerState
  status : String
  age : ℚ
  processes : List String
  named : DockerName name

/-- A job runs in the container: a worker of the GitHub agent, or a process beside the Gitea
daemon. -/
def HostedContainer.Working (c : HostedContainer) : Prop :=
  c.state = .running ∧ ((∃ line ∈ c.processes, hasText line "Runner.Worker" = true) ∨
    (∃ line ∈ c.processes, hasText line "gitea-runner daemon" = true) ∧
      ∃ line ∈ c.processes, hasText line "gitea-runner daemon" = false)

/-- The containers of a host. Docker has a name once. -/
structure DockerHost where
  containers : List HostedContainer
  distinct : (containers.map (·.name)).Nodup

namespace DockerHost

variable (host : DockerHost)

/-- The containers that `--filter name=^P-` leaves. -/
def matching (F : NameFilter) (start : String) : List HostedContainer :=
  host.containers.filter fun c => F.selects start c.name

/-- The answer `cleanup_exited` reads. -/
def exitedListing (F : NameFilter) (start : String) : CommandResult (List (String × String)) :=
  ⟨((host.matching F start).filter (·.state = .exited)).map fun c => (c.name, c.status), 0⟩

/-- The running containers of a prefix, with their ages. -/
def runningOf (F : NameFilter) (start : String) : RunningContainers where
  ages := ((host.matching F start).filter (·.state = .running)).map fun c => (c.name, c.age)
  distinct := by
    rw [List.map_map]
    exact host.distinct.sublist ((List.filter_sublist.trans List.filter_sublist).map _)

/-- The host, as `cleanup_ci_containers` lists it. -/
def all : CiHost where
  containers := host.containers.map (·.toCiContainer)
  distinct := by
    rw [List.map_map]
    exact host.distinct

/-- `docker top`, which fails for a container that does not run, and may fail for another. -/
def top (header : String) (answers : Bool) (name : String) : CommandResult (List String) :=
  match host.containers.find? fun c => c.name = name && c.state = .running with
  | some c => if answers then ⟨header :: c.processes, 0⟩ else ⟨[], 1⟩
  | none => ⟨[], 1⟩

/-- `docker rm -v`, with or without `-f`: without it a container that runs stays. -/
def rm (forced : Bool) (name : String) : DockerHost where
  containers := host.containers.filter fun c => c.name ≠ name || (!forced && c.state = .running)
  distinct := host.distinct.sublist (List.filter_sublist.map _)

/-- A container of that name runs a job. -/
def WorksOn (name : String) : Prop := ∃ c ∈ host.containers, c.name = name ∧ c.Working

end DockerHost

/-! ### Sweeps and removals -/

/-- A call of `cleanup_stuck`: the candidates whose processes it has not asked for, and
`to_kill`. -/
structure StuckCall where
  candidates : List String
  toKill : List String

/-- A `docker rm` that has not run. -/
structure Removal where
  name : String
  forced : Bool

/-- The host, the calls of `cleanup_stuck` that are asking, and the removals that are handed
over. -/
structure RemovalState where
  host : DockerHost
  asking : List StuckCall
  removals : List Removal

/-- What the program or the host does next. -/
inductive RemovalAction
  /-- `cleanup_exited` lists a pool. -/
  | exited (pool : PoolConfig)
  /-- `cleanup_stuck` lists a pool. -/
  | stuck (pool : PoolConfig) (onlineNames : List String)
  /-- A call of `cleanup_stuck` asks for the processes of its next candidate. -/
  | top (call : ℕ) (header : String) (answers : Bool)
  /-- It hands over what it kills. -/
  | kill (call : ℕ)
  /-- `cleanup_aged`, with the containers that are protected. -/
  | aged (maxMinutes : ℤ) (protect : List String)
  /-- `cleanup_ci_containers`. -/
  | leftovers (maxMinutes : ℤ) (patterns : List String) (now : ℚ)
  /-- A request to stop or to restart a container. -/
  | stop (name : String)
  /-- A request to scale a pool down, which has chosen a container. -/
  | scaleDown (pool : PoolConfig) (victim : String)
  /-- A `docker rm` runs. -/
  | remove (removal : ℕ)
  /-- A `docker rm` fails, or is dropped. -/
  | drop (removal : ℕ)
  /-- Anything else that happens on the host. -/
  | host (after : DockerHost)

namespace RemovalState

variable (F : NameFilter) (T : RunningFor)

/-- Names are handed to the workers. -/
def hand (s : RemovalState) (forced : Bool) (names : List String) : RemovalState :=
  { s with removals := s.removals ++ names.map (⟨·, forced⟩) }

/-- One step. -/
def step (s : RemovalState) : RemovalAction → Option RemovalState
  | .exited p => some (s.hand false (cleanupExited (s.host.exitedListing F p.containerPrefix)))
  | .stuck p onlineNames =>
      let listed := T.listing (s.host.runningOf F p.containerPrefix)
      some { s with asking :=
        s.asking ++ [⟨stuckCandidates listed onlineNames p.stuckTimeout, []⟩] }
  | .top i header answers =>
      match s.asking[i]? with
      | some ⟨name :: candidates, toKill⟩ =>
          let idle := hasRunningJob (s.host.top header answers name) = some false
          some { s with
            asking := s.asking.set i ⟨candidates, if idle then toKill ++ [name] else toKill⟩ }
      | _ => none
  | .kill i =>
      match s.asking[i]? with
      | some ⟨[], toKill⟩ => some ({ s with asking := s.asking.eraseIdx i }.hand true toKill)
      | _ => none
  | .aged maxMinutes protect =>
      let listed := T.listing (s.host.runningOf F globalContainerPrefix)
      some (s.hand true (cleanupAged listed maxMinutes (orchestratorContainer :: protect)))
  | .leftovers maxMinutes patterns now =>
      some (s.hand true
        (cleanupCiContainers (strip s.host.all.listing) maxMinutes patterns now))
  | .stop name => if isRunnerContainer name then some (s.hand true [name]) else none
  | .scaleDown p victim =>
      if victim ∈ (s.host.runningOf F p.containerPrefix).ages.map Prod.fst then
        some (s.hand true [victim])
      else none
  | .remove i =>
      match s.removals[i]? with
      | some r =>
          some { s with host := s.host.rm r.forced r.name, removals := s.removals.eraseIdx i }
      | none => none
  | .drop i =>
      if i < s.removals.length then some { s with removals := s.removals.eraseIdx i } else none
  | .host after => some { s with host := after }

end RemovalState

/-! ### What the listings show -/

/-- A name that starts like a runner's, and is not the orchestrator's. -/
def RunnerName (name : String) : Prop :=
  startsWith name "gh-runner-" = true ∧ name ≠ orchestratorContainer

/-- A pattern that begins without dots matches names that begin the same. -/
theorem exists_of_dotPrefix {b q s : List Char} (hb : '.' ∉ b) (h : dotPrefix (b ++ q) s = true) :
    ∃ rest, s = b ++ rest ∧ dotPrefix q rest = true := by
  induction b generalizing s with
  | nil => exact ⟨s, rfl, h⟩
  | cons c b ih =>
    rw [List.mem_cons, not_or] at hb
    cases s with
    | nil => cases h
    | cons d s =>
      simp only [List.cons_append, dotPrefix, Bool.and_eq_true, Bool.or_eq_true,
        decide_eq_true_eq] at h
      obtain ⟨rest, rfl, hrest⟩ := ih hb.2 h.2
      obtain rfl := h.1.resolve_left (Ne.symm hb.1)
      exact ⟨rest, rfl, hrest⟩

section Names

variable {F : NameFilter} {p : PoolConfig} {name : String}

theorem startsWith_of_toList {start : String} {rest : List Char}
    (h : name.toList = start.toList ++ rest) : startsWith name start = true := by
  unfold startsWith
  rw [h, List.isPrefixOf_iff_prefix]
  exact List.prefix_append _ _

/-- **A pool's filter shows runners only.** Behind the dash of the pool's prefix a name has
another. -/
theorem runnerName_of_selects (hpool : DockerName p.containerPrefix) (hname : DockerName name)
    (h : F.selects p.containerPrefix name = true) : RunnerName name := by
  rw [F.spec _ _ hpool hname, p.containerPrefix_toList] at h
  obtain ⟨rest, hrest, hstem⟩ := exists_of_dotPrefix (by decide) h
  refine ⟨startsWith_of_toList hrest, ?_⟩
  rintro rfl
  have horch : orchestratorContainer.toList = "gh-runner-".toList ++ "orchestrator".toList := by
    decide
  obtain rfl := List.append_cancel_left (hrest.symm.trans horch)
  have hdash : '-' ∈ "orchestrator".toList := mem_of_dotPrefix_dash hstem
  exact absurd hdash (by decide)

/-- The global filter shows what starts like a runner. -/
theorem startsWith_of_selects (hname : DockerName name)
    (h : F.selects globalContainerPrefix name = true) : startsWith name "gh-runner-" = true := by
  rw [F.spec _ _ (by decide +kernel) hname, ← List.append_nil (_ ++ ['-'])] at h
  obtain ⟨rest, hrest, -⟩ := exists_of_dotPrefix (by decide) h
  exact startsWith_of_toList hrest

end Names

namespace DockerHost

variable {host : DockerHost} {F : NameFilter} {T : RunningFor} {start name : String}

theorem mem_matching {c : HostedContainer} :
    c ∈ host.matching F start ↔ c ∈ host.containers ∧ F.selects start c.name = true :=
  List.mem_filter

/-- What `cleanup_exited` removes. -/
theorem mem_cleanupExited : name ∈ cleanupExited (host.exitedListing F start) ↔
    ∃ c ∈ host.containers, c.name = name ∧ c.state = .exited ∧ F.selects start name = true := by
  simp only [cleanupExited, exitedListing, List.map_map, List.mem_map, List.mem_filter,
    mem_matching, decide_eq_true_eq, Function.comp_apply]
  constructor
  · rintro ⟨c, ⟨⟨hc, hselects⟩, hexited⟩, rfl⟩
    exact ⟨c, hc, rfl, hexited, hselects⟩
  · rintro ⟨c, hc, rfl, hexited, hselects⟩
    exact ⟨c, ⟨⟨hc, hselects⟩, hexited⟩, rfl⟩

theorem mem_runningOf {age : ℚ} : (name, age) ∈ (host.runningOf F start).ages ↔
    ∃ c ∈ host.containers, c.name = name ∧ c.age = age ∧ c.state = .running ∧
      F.selects start name = true := by
  simp only [runningOf, List.mem_map, List.mem_filter, mem_matching, decide_eq_true_eq,
    Prod.mk.injEq]
  constructor
  · rintro ⟨c, ⟨⟨hc, hselects⟩, hrunning⟩, rfl, rfl⟩
    exact ⟨c, hc, rfl, rfl, hrunning, hselects⟩
  · rintro ⟨c, hc, rfl, rfl, hrunning, hselects⟩
    exact ⟨c, ⟨⟨hc, hselects⟩, hrunning⟩, rfl, rfl⟩

/-- The names a listing of running containers shows. -/
theorem mem_runningNames (h : name ∈ (host.runningOf F start).ages.map Prod.fst) :
    DockerName name ∧ F.selects start name = true := by
  obtain ⟨⟨name, age⟩, hmem, rfl⟩ := List.mem_map.1 h
  obtain ⟨c, -, rfl, -, -, hselects⟩ := mem_runningOf.1 hmem
  exact ⟨c.named, hselects⟩

theorem mem_stuckCandidates {running : RunningContainers} {onlineNames : List String} {limit : ℤ}
    (h : name ∈ stuckCandidates (T.listing running) onlineNames limit) :
    name ∈ running.ages.map Prod.fst := by
  unfold stuckCandidates RunningFor.listing at h
  obtain ⟨row, hrow, rfl⟩ := List.mem_map.1 h
  obtain ⟨c, hc, rfl⟩ := List.mem_map.1 (List.mem_filter.1 hrow).1
  exact List.mem_map_of_mem hc

/-- What `cleanup_aged` kills: a container that runs, is not spared, and is read as over the
ceiling. -/
theorem exists_of_mem_cleanupAged {limit : ℤ} {exclude : List String}
    (h : name ∈ cleanupAged (T.listing (host.runningOf F start)) limit exclude) :
    0 < limit ∧ name ∉ exclude ∧ ∃ c ∈ host.containers, c.name = name ∧ c.state = .running ∧
      F.selects start name = true ∧ overLimit limit (T.text c.age) = true := by
  have hmem : name ∈ (host.runningOf F start).ages.map Prod.fst := by
    unfold cleanupAged RunningFor.listing at h
    split_ifs at h
    · cases h
    obtain ⟨row, hrow, rfl⟩ := List.mem_map.1 h
    obtain ⟨c, hc, rfl⟩ := List.mem_map.1 (List.mem_filter.1 hrow).1
    exact List.mem_map_of_mem hc
  obtain ⟨⟨name, age⟩, hrow, rfl⟩ := List.mem_map.1 hmem
  obtain ⟨hlimit, hspare, hover⟩ := (mem_cleanupAged hrow).1 h
  obtain ⟨c, hc, hname, rfl, hrunning, hselects⟩ := mem_runningOf.1 hrow
  exact ⟨hlimit, hspare, c, hc, hname, hrunning, hselects, overLimit_text.2 hover⟩

/-- What `cleanup_ci_containers` removes is not protected. -/
theorem not_protected_of_leftover {limit : ℤ} {patterns : List String} {now : ℚ}
    (h : name ∈ cleanupCiContainers (strip host.all.listing) limit patterns now) :
    0 < limit ∧ isProtected name = false := by
  obtain ⟨c, -, rfl, hold, hprotected, -⟩ := mem_cleanupCiContainers.1 h
  exact ⟨hold.1, hprotected⟩

/-- A container that is gone was the one to be removed. -/
theorem mem_rm {forced : Bool} {c : HostedContainer} : c ∈ (host.rm forced name).containers ↔
    c ∈ host.containers ∧ (c.name ≠ name ∨ forced = false ∧ c.state = .running) := by
  simp only [rm, List.mem_filter, Bool.or_eq_true, Bool.and_eq_true, decide_eq_true_eq,
    Bool.not_eq_true']

/-- **A job that runs is seen**, whenever `docker top` answers. -/
theorem hasRunningJob_top (hworks : host.WorksOn name) (header : String) (answers : Bool) :
    hasRunningJob (host.top header answers name) ≠ some false := by
  obtain ⟨c, hc, hname, hrunning, hjob⟩ := hworks
  have hfind : host.containers.find? (fun c => c.name = name && c.state = .running) = some c := by
    obtain ⟨d, hd⟩ := Option.isSome_iff_exists.1
      (List.find?_isSome (p := fun c => c.name = name && c.state = .running)|>.2
        ⟨c, hc, by simp [hname, hrunning]⟩)
    have hname' := List.find?_some hd
    simp only [Bool.and_eq_true, decide_eq_true_eq] at hname'
    rw [hd, List.inj_on_of_nodup_map host.distinct (List.mem_of_find?_eq_some hd) hc
      (hname'.1.trans hname.symm)]
  unfold top
  rw [hfind]
  cases answers with
  | false => simp [hasRunningJob]
  | true =>
    unfold hasRunningJob
    simp only [if_true, ne_eq, not_true_eq_false, if_false, List.drop_one, List.tail_cons]
    split_ifs with hworker
    · simp
    rcases hjob with ⟨line, hline, hline'⟩ | ⟨⟨line, hline, hdaemon⟩, other, hother, hnot⟩
    · exact absurd (List.any_eq_true.2 ⟨line, List.mem_cons_of_mem _ hline, hline'⟩) hworker
    · have hsome : (c.processes.filter (hasText · "gitea-runner daemon")).isEmpty = false := by
        rw [List.isEmpty_eq_false_iff]
        exact List.ne_nil_of_mem (List.mem_filter.2 ⟨hline, hdaemon⟩)
      have hfewer : (c.processes.filter (hasText · "gitea-runner daemon")).length <
          c.processes.length := by
        refine List.length_filter_lt_length_iff_exists.2 ⟨other, hother, ?_⟩
        rw [hnot]
        exact Bool.false_ne_true
      simp [hsome, hfewer]

end DockerHost

/-! ### What is removed -/

/-- What may be removed: a runner, or, with the reaper of leftovers, what is not protected. -/
def MayGo (reaper : Prop) (name : String) : Prop :=
  RunnerName name ∨ reaper ∧ isProtected name = false

/-- Pools whose containers Docker accepts; and without the reaper, its ceiling is zero. -/
def RemovalAction.Allowed (reaper : Prop) : RemovalAction → Prop
  | .exited p => DockerName p.containerPrefix
  | .stuck p _ => DockerName p.containerPrefix
  | .scaleDown p _ => DockerName p.containerPrefix
  | .leftovers maxMinutes _ _ => 0 < maxMinutes → reaper
  | _ => True

/-- A step of the program. -/
def RemovalAction.ofProgram : RemovalAction → Bool
  | .host _ => false
  | _ => true

namespace RemovalState

variable {F : NameFilter} {T : RunningFor} {s t : RemovalState} {a : RemovalAction} {name : String}
  {reaper : Prop}

/-- What is handed over, or may be. -/
structure Targets (reaper : Prop) (s : RemovalState) : Prop where
  removals : ∀ r ∈ s.removals, MayGo reaper r.name
  asking : ∀ call ∈ s.asking, ∀ name ∈ call.candidates ++ call.toKill, RunnerName name

theorem Targets.hand {names : List String} (h : s.Targets reaper) (forced : Bool)
    (hnames : ∀ name ∈ names, MayGo reaper name) : (s.hand forced names).Targets reaper where
  removals r hr := by
    rcases List.mem_append.1 hr with hr | hr
    · exact h.removals r hr
    · obtain ⟨name, hname, rfl⟩ := List.mem_map.1 hr
      exact hnames name hname
  asking := h.asking

/-- A call of `cleanup_stuck` that has asked for one more candidate. -/
theorem exists_of_step_top {i : ℕ} {header : String} {answers : Bool}
    (h : step F T s (.top i header answers) = some t) :
    ∃ name candidates toKill toKill', s.asking[i]? = some ⟨name :: candidates, toKill⟩ ∧
      (toKill' = toKill ∨ toKill' = toKill ++ [name] ∧
        hasRunningJob (s.host.top header answers name) = some false) ∧
      t = { s with asking := s.asking.set i ⟨candidates, toKill'⟩ } := by
  simp only [step] at h
  split at h
  · next name candidates toKill hcall =>
    obtain rfl := Option.some.inj h
    refine ⟨name, candidates, toKill, _, hcall, ?_, rfl⟩
    split_ifs with hidle
    · exact Or.inr ⟨rfl, hidle⟩
    · exact Or.inl rfl
  · cases h

/-- A call of `cleanup_stuck` that has asked for all. -/
theorem exists_of_step_kill {i : ℕ} (h : step F T s (.kill i) = some t) :
    ∃ toKill, s.asking[i]? = some ⟨[], toKill⟩ ∧
      t = { s with asking := s.asking.eraseIdx i }.hand true toKill := by
  simp only [step] at h
  split at h
  · next toKill hcall => exact ⟨toKill, hcall, (Option.some.inj h).symm⟩
  · cases h

/-- A removal that has run. -/
theorem exists_of_step_remove {i : ℕ} (h : step F T s (.remove i) = some t) :
    ∃ r, s.removals[i]? = some r ∧
      t = { s with host := s.host.rm r.forced r.name, removals := s.removals.eraseIdx i } := by
  simp only [step] at h
  split at h
  · next r hr => exact ⟨r, hr, (Option.some.inj h).symm⟩
  · cases h

theorem Targets.step (h : s.Targets reaper) (ha : a.Allowed reaper)
    (hstep : RemovalState.step F T s a = some t) : t.Targets reaper := by
  cases a with
  | exited p =>
    obtain rfl := Option.some.inj hstep
    refine h.hand false fun name hname => ?_
    obtain ⟨c, -, rfl, -, hselects⟩ := DockerHost.mem_cleanupExited.1 hname
    exact Or.inl (runnerName_of_selects ha c.named hselects)
  | stuck p onlineNames =>
    obtain rfl := Option.some.inj hstep
    refine ⟨h.removals, fun call hcall name hname => ?_⟩
    rcases List.mem_append.1 hcall with hcall | hcall
    · exact h.asking call hcall name hname
    · obtain rfl := List.mem_singleton.1 hcall
      rw [List.append_nil] at hname
      obtain ⟨hnamed, hselects⟩ :=
        DockerHost.mem_runningNames (DockerHost.mem_stuckCandidates hname)
      exact runnerName_of_selects ha hnamed hselects
  | top i header answers =>
    obtain ⟨name, candidates, toKill, toKill', hcall, hkill, rfl⟩ := exists_of_step_top hstep
    have hbefore := h.asking _ (List.mem_of_getElem? hcall)
    refine ⟨h.removals, fun call hmem name' hname' => ?_⟩
    rcases List.mem_or_eq_of_mem_set hmem with hmem | rfl
    · exact h.asking call hmem name' hname'
    · refine hbefore name' ?_
      rcases List.mem_append.1 hname' with hname' | hname'
      · exact List.mem_append_left _ (List.mem_cons_of_mem _ hname')
      · rcases hkill with rfl | ⟨rfl, -⟩
        · exact List.mem_append_right _ hname'
        · rcases List.mem_append.1 hname' with hname' | hname'
          · exact List.mem_append_right _ hname'
          · obtain rfl := List.mem_singleton.1 hname'
            exact List.mem_append_left _ List.mem_cons_self
  | kill i =>
    obtain ⟨toKill, hcall, rfl⟩ := exists_of_step_kill hstep
    have hrest : RemovalState.Targets reaper { s with asking := s.asking.eraseIdx i } :=
      ⟨h.removals, fun call hmem => h.asking call (List.mem_of_mem_eraseIdx hmem)⟩
    exact hrest.hand true fun name hname =>
      Or.inl (h.asking _ (List.mem_of_getElem? hcall) name (List.mem_append_right _ hname))
  | aged maxMinutes protect =>
    obtain rfl := Option.some.inj hstep
    refine h.hand true fun name hname => Or.inl ?_
    obtain ⟨-, hspare, c, -, rfl, -, hselects, -⟩ := DockerHost.exists_of_mem_cleanupAged hname
    exact ⟨startsWith_of_selects c.named hselects,
      fun heq => hspare (heq ▸ List.mem_cons_self)⟩
  | leftovers maxMinutes patterns now =>
    obtain rfl := Option.some.inj hstep
    refine h.hand true fun name hname => Or.inr ?_
    obtain ⟨hlimit, hprotected⟩ := DockerHost.not_protected_of_leftover hname
    exact ⟨ha hlimit, hprotected⟩
  | stop name =>
    simp only [RemovalState.step] at hstep
    split_ifs at hstep with hrunner
    obtain rfl := Option.some.inj hstep
    refine h.hand true fun name' hname' => Or.inl ?_
    obtain rfl := List.mem_singleton.1 hname'
    simp only [isRunnerContainer, Bool.and_eq_true, decide_eq_true_eq] at hrunner
    exact ⟨hrunner.1.1.1, hrunner.1.1.2⟩
  | scaleDown p victim =>
    simp only [RemovalState.step] at hstep
    split_ifs at hstep with hvictim
    obtain rfl := Option.some.inj hstep
    refine h.hand true fun name hname => Or.inl ?_
    obtain rfl := List.mem_singleton.1 hname
    obtain ⟨hnamed, hselects⟩ := DockerHost.mem_runningNames hvictim
    exact runnerName_of_selects ha hnamed hselects
  | remove i =>
    obtain ⟨r, -, rfl⟩ := exists_of_step_remove hstep
    exact ⟨fun r hr => h.removals r (List.mem_of_mem_eraseIdx hr), h.asking⟩
  | drop i =>
    simp only [RemovalState.step] at hstep
    split_ifs at hstep
    obtain rfl := Option.some.inj hstep
    exact ⟨fun r hr => h.removals r (List.mem_of_mem_eraseIdx hr), h.asking⟩
  | host after =>
    obtain rfl := Option.some.inj hstep
    exact ⟨h.removals, h.asking⟩

/-- A step of the program changes the host by a removal only. -/
theorem host_of_step (hstep : step F T s a = some t) (ha : a.ofProgram = true) :
    t.host = s.host ∨ ∃ r ∈ s.removals, t.host = s.host.rm r.forced r.name := by
  cases a with
  | exited | stuck | aged | leftovers =>
    obtain rfl := Option.some.inj hstep
    exact Or.inl rfl
  | top =>
    obtain ⟨name, candidates, toKill, toKill', -, -, rfl⟩ := exists_of_step_top hstep
    exact Or.inl rfl
  | kill =>
    obtain ⟨toKill, -, rfl⟩ := exists_of_step_kill hstep
    exact Or.inl rfl
  | stop | scaleDown | drop =>
    simp only [step] at hstep
    split_ifs at hstep
    obtain rfl := Option.some.inj hstep
    exact Or.inl rfl
  | remove =>
    obtain ⟨r, hr, rfl⟩ := exists_of_step_remove hstep
    exact Or.inr ⟨r, List.mem_of_getElem? hr, rfl⟩
  | host => cases ha

/-- **Only runners are removed.** Whatever the order in which sweeps, requests and removals go, a
container that a step of the program takes away is a runner and not the orchestrator; or the reaper
of leftovers is on, and the container belongs neither to the runners nor to the stack. -/
theorem only_runners_removed (hs : s.asking = [] ∧ s.removals = []) {l : List RemovalAction}
    (hl : ∀ a ∈ l, a.Allowed reaper) : Along (step F T)
      (fun s a => a.ofProgram = true → ∀ t, step F T s a = some t → ∀ c ∈ s.host.containers,
        c ∉ t.host.containers → RunnerName c.name ∨ reaper ∧ isProtected c.name = false) s l := by
  have hstart : s.Targets reaper := by
    refine ⟨fun r hr => ?_, fun call hcall => ?_⟩
    · rw [hs.2] at hr
      cases hr
    · rw [hs.1] at hcall
      cases hcall
  have hallowed : Along (step F T) (fun _ a => a.Allowed reaper) s l := along_of_actions hl s
  refine along_of_invariant (fun s a t h ha hstep => h.step ha hstep)
    (fun s a h _ hprogram t hstep c hc hgone => ?_) hstart hallowed
  rcases host_of_step hstep hprogram with hsame | ⟨r, hr, hrm⟩
  · exact absurd (hsame ▸ hc) hgone
  · rw [hrm, DockerHost.mem_rm, not_and_or, not_or] at hgone
    have hname : c.name = r.name := not_not.1 (hgone.resolve_left (not_not.2 hc)).1
    rw [hname]
    exact h.removals r hr

/-- A container started on an October morning. -/
def hostedSince (age : ℚ) (name : String) (processes : List String)
    (h : isColumnText name = true ∧ (∃ c ∈ name.toList.head?, isSpace c = false) ∧
      DockerName name) : HostedContainer where
  name := name
  created := hostDatabase.created
  networks := ["bridge"]
  labels := []
  name_plain := h.1
  name_starts := h.2.1
  networks_plain := by decide
  labels_plain := fun _ hlabel => absurd hlabel List.not_mem_nil
  keys_plain := fun _ hlabel => absurd hlabel List.not_mem_nil
  state := .running
  status := "Up"
  age := age
  processes := processes
  named := h.2.2

/-- The orchestrator, a runner with a job, and one without. -/
def busyHost : DockerHost where
  containers :=
    [hostedSince 9000 "gh-runner-orchestrator" ["python -m rorch"]
        ⟨by decide +kernel, ⟨'g', rfl, by decide⟩, by decide +kernel⟩,
      hostedSince 45 "gh-runner-ci-11111111" ["Runner.Listener run", "Runner.Worker spawnclient"]
        ⟨by decide +kernel, ⟨'g', rfl, by decide⟩, by decide +kernel⟩,
      hostedSince 45 "gh-runner-ci-00000000" ["Runner.Listener run"]
        ⟨by decide +kernel, ⟨'g', rfl, by decide⟩, by decide +kernel⟩]
  distinct := by decide +kernel

/-- A tick that finds no runner online, and a sweep of the lifetime ceiling. -/
def sweepsOfTick : List RemovalAction :=
  [.exited ciPool, .stuck ciPool [], .top 0 "CMD" true, .top 0 "CMD" true, .kill 0,
    .aged 360 ["gh-runner-ci-11111111"], .remove 0]

/-- The runner without a job goes. -/
theorem only_runners_removed_sweepsOfTick :
    (run (step dotFilter dockerAges) ⟨busyHost, [], []⟩ sweepsOfTick).map
      (fun t => t.host.containers.map (·.name)) =
        some ["gh-runner-orchestrator", "gh-runner-ci-11111111"] ∧
    Along (step dotFilter dockerAges) (fun s a => a.ofProgram = true → ∀ t,
      step dotFilter dockerAges s a = some t → ∀ c ∈ s.host.containers, c ∉ t.host.containers →
        RunnerName c.name ∨ False ∧ isProtected c.name = false)
      ⟨busyHost, [], []⟩ sweepsOfTick := by
  have hpool : DockerName ciPool.containerPrefix := by decide +kernel
  refine ⟨by decide +kernel, only_runners_removed ⟨rfl, rfl⟩ fun a ha => ?_⟩
  simp only [sweepsOfTick, List.mem_cons, List.not_mem_nil, or_false] at ha
  rcases ha with rfl | rfl | rfl | rfl | rfl | rfl | rfl
  · exact hpool
  · exact hpool
  all_goals trivial

/-! ### Jobs -/

/-- Nothing that takes the container by force: no ceiling that it is read as over, no request, and
on the host its job goes on. -/
def Leaves (T : RunningFor) (name : String) (s : RemovalState) : RemovalAction → Prop
  | .aged maxMinutes protect => maxMinutes ≤ 0 ∨ name ∈ protect ∨
      ∀ c ∈ s.host.containers, c.name = name → overLimit maxMinutes (T.text c.age) = false
  | .stop victim => victim ≠ name
  | .scaleDown _ victim => victim ≠ name
  | .host after => after.WorksOn name
  | _ => True

/-- A job runs in the container, and nothing that was decided before is about to kill it. -/
structure Busy (name : String) (s : RemovalState) : Prop where
  works : s.host.WorksOn name
  removals : ∀ r ∈ s.removals, r.name = name → r.forced = false
  asking : ∀ call ∈ s.asking, name ∉ call.toKill

theorem Busy.hand {names : List String} (h : s.Busy name) (forced : Bool)
    (hnames : forced = true → name ∉ names) : (s.hand forced names).Busy name where
  works := h.works
  removals r hr hname := by
    rcases List.mem_append.1 hr with hr | hr
    · exact h.removals r hr hname
    · obtain ⟨name', hmem, rfl⟩ := List.mem_map.1 hr
      obtain rfl : name' = name := hname
      exact Bool.eq_false_iff.2 fun hforced => hnames hforced hmem
  asking := h.asking

theorem Busy.step (h : s.Busy name) (hname : isProtected name = true) (ha : s.Leaves T name a)
    (hstep : RemovalState.step F T s a = some t) : t.Busy name := by
  cases a with
  | exited p =>
    -- Without `-f`: a container that runs by then stays.
    obtain rfl := Option.some.inj hstep
    exact h.hand false fun hforced => by cases hforced
  | stuck p onlineNames =>
    obtain rfl := Option.some.inj hstep
    refine ⟨h.works, h.removals, fun call hcall => ?_⟩
    rcases List.mem_append.1 hcall with hcall | hcall
    · exact h.asking call hcall
    · obtain rfl := List.mem_singleton.1 hcall
      exact List.not_mem_nil
  | top i header answers =>
    obtain ⟨asked, candidates, toKill, toKill', hcall, hkill, rfl⟩ := exists_of_step_top hstep
    have hbefore := h.asking _ (List.mem_of_getElem? hcall)
    refine ⟨h.works, h.removals, fun call hmem => ?_⟩
    rcases List.mem_or_eq_of_mem_set hmem with hmem | rfl
    · exact h.asking call hmem
    rcases hkill with rfl | ⟨rfl, hidle⟩
    · exact hbefore
    · refine fun hmem => (List.mem_append.1 hmem).elim hbefore fun hmem => ?_
      obtain rfl := List.mem_singleton.1 hmem
      exact DockerHost.hasRunningJob_top h.works header answers hidle
  | kill i =>
    obtain ⟨toKill, hcall, rfl⟩ := exists_of_step_kill hstep
    have hrest : Busy name { s with asking := s.asking.eraseIdx i } :=
      ⟨h.works, h.removals, fun call hmem => h.asking call (List.mem_of_mem_eraseIdx hmem)⟩
    exact hrest.hand true fun _ => h.asking _ (List.mem_of_getElem? hcall)
  | aged maxMinutes protect =>
    obtain rfl := Option.some.inj hstep
    refine h.hand true fun _ hmem => ?_
    obtain ⟨hlimit, hspare, c, hc, hname', -, -, hover⟩ :=
      DockerHost.exists_of_mem_cleanupAged hmem
    rcases ha with hoff | hin | hbelow
    · exact absurd hlimit (not_lt.2 hoff)
    · exact hspare (List.mem_cons_of_mem _ hin)
    · rw [hbelow c hc hname'] at hover
      cases hover
  | leftovers maxMinutes patterns now =>
    obtain rfl := Option.some.inj hstep
    refine h.hand true fun _ hmem => ?_
    have hfree := (DockerHost.not_protected_of_leftover hmem).2
    rw [hname] at hfree
    cases hfree
  | stop victim =>
    simp only [RemovalState.step] at hstep
    split_ifs at hstep
    obtain rfl := Option.some.inj hstep
    exact h.hand true fun _ hmem => ha (List.mem_singleton.1 hmem).symm
  | scaleDown p victim =>
    simp only [RemovalState.step] at hstep
    split_ifs at hstep
    obtain rfl := Option.some.inj hstep
    exact h.hand true fun _ hmem => ha (List.mem_singleton.1 hmem).symm
  | remove i =>
    obtain ⟨r, hr, rfl⟩ := exists_of_step_remove hstep
    obtain ⟨c, hc, hname', hworking⟩ := h.works
    refine ⟨⟨c, DockerHost.mem_rm.2 ⟨hc, ?_⟩, hname', hworking⟩,
      fun r hr => h.removals r (List.mem_of_mem_eraseIdx hr), h.asking⟩
    by_cases hsame : r.name = name
    · exact Or.inr ⟨h.removals r (List.mem_of_getElem? hr) hsame, hworking.1⟩
    · exact Or.inl fun heq => hsame (heq.symm.trans hname')
  | drop i =>
    simp only [RemovalState.step] at hstep
    split_ifs at hstep
    obtain rfl := Option.some.inj hstep
    exact ⟨h.works, fun r hr => h.removals r (List.mem_of_mem_eraseIdx hr), h.asking⟩
  | host after =>
    obtain rfl := Option.some.inj hstep
    exact ⟨ha, h.removals, h.asking⟩

/-- **A job that runs is not killed.** While a job runs in a runner container that `docker top` has
not been asked for before, no sweep of a tick removes the container, whatever GitHub reports and in
whatever order the sweeps go; only a request that names it does, or the lifetime ceiling. -/
theorem jobs_survive (hname : isProtected name = true) (hs : s.Busy name)
    {l : List RemovalAction} (hl : Along (step F T) (fun s a => s.Leaves T name a) s l)
    (h : run (step F T) s l = some t) : t.host.WorksOn name :=
  (run_invariant (fun _ _ _ hbusy ha hstep => hbusy.step hname ha hstep) hs hl h).works

/-- The runner with the job stays, though GitHub reports it offline. -/
theorem jobs_survive_sweepsOfTick :
    ∃ t, run (step dotFilter dockerAges) ⟨busyHost, [], []⟩ sweepsOfTick = some t ∧
      t.host.WorksOn "gh-runner-ci-11111111" := by
  have hruns : ((run (step dotFilter dockerAges) ⟨busyHost, [], []⟩ sweepsOfTick).map
      fun t => t.removals.length) = some 0 := by
    decide +kernel
  obtain ⟨t, hrun, -⟩ := Option.map_eq_some_iff.1 hruns
  have hbusy : Busy "gh-runner-ci-11111111" ⟨busyHost, [], []⟩ := by
    refine ⟨⟨_, List.mem_cons_of_mem _ List.mem_cons_self, rfl, rfl, Or.inl
      ⟨"Runner.Worker spawnclient", List.mem_cons_of_mem _ List.mem_cons_self, ?_⟩⟩,
      fun r hr => absurd hr List.not_mem_nil, fun call hcall => absurd hcall List.not_mem_nil⟩
    decide +kernel
  have hleaves : ∀ a ∈ sweepsOfTick,
      ∀ s : RemovalState, s.Leaves dockerAges "gh-runner-ci-11111111" a := by
    intro a ha s
    simp only [sweepsOfTick, List.mem_cons, List.not_mem_nil, or_false] at ha
    rcases ha with rfl | rfl | rfl | rfl | rfl | rfl | rfl
    case inr.inr.inr.inr.inr.inl => exact Or.inr (Or.inl (List.mem_singleton_self _))
    all_goals trivial
  exact ⟨t, hrun, jobs_survive (by decide +kernel) hbusy
    (along_mono (fun s _ h => h s) (along_of_actions hleaves _)) hrun⟩

end RemovalState

end RunnerSwarm
