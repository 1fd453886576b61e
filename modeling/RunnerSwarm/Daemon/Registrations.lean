import RunnerSwarm.Docker.Entrypoint
import RunnerSwarm.Lib.Run
import RunnerSwarm.Scaler.Hosts
import RunnerSwarm.Scaler.Inspection
import RunnerSwarm.Scaler.Ownership

/-!
# Runners that are registered and gone

A runner whose container was killed stays registered. Each inspection looks for such runners: it
lists the containers first and the registered runners afterwards, and those of the pool that are
offline and have no container are deregistered when all inspections of the tick are done. Between
any two of these steps containers start and exit, on other lanes or at a request, runners register,
and GitHub reports what it will, also that a runner at work is offline.

`Registry.step` is one step of a tick, of the host or of GitHub. The digits at the end of a name are
drawn at random, so no name is given twice.

* `LaneMove` says what a step makes of what a lane has seen and found;
* `running_stays`: a tick deregisters no runner whose container runs, provided that `docker ps`
  answers and that nobody else starts a container of the pool between the two listings. The spawns
  of the tick itself do not come in between;
* `ghosts_go`: a runner that is offline and has no container when a tick of its pool begins is gone
  when the tick ends, unless the tick gives up, if the answers are complete and the deregistration
  does not fail.
-/

namespace RunnerSwarm

/-- A runner that is registered, with the address of the list it is in. -/
structure EnrolledRunner where
  scope : String
  runner : RunnerInfo
  deriving DecidableEq

/-- The address of the list of a pool's runners. -/
def PoolConfig.runnersUrl (p : PoolConfig) : String := p.requestUrl .listRunners

/-- How far the tick of a lane is. -/
inductive LaneTick
  | idle
  /-- The inspections that have listed nothing, those that have listed the containers, with the
  answer, and those that are done. -/
  | inspecting (waiting : List PoolConfig)
      (listed : List (PoolConfig × CommandResult (List String))) (done : List PoolInspection)
  /-- The operations that have not run. -/
  | operating (jobs : List RunnerJob)

/-- The runner that a job deregisters. -/
def RunnerJob.target : RunnerJob → Option (PoolConfig × RunnerInfo)
  | .deregister pool runner => some (pool, runner)
  | .spawn _ => none

namespace LaneTick

/-- The inspections between the two listings. -/
def between : LaneTick → List (PoolConfig × CommandResult (List String))
  | .inspecting _ listed _ => listed
  | _ => []

/-- The runners that are to be deregistered. -/
def found : LaneTick → List (PoolConfig × RunnerInfo)
  | .idle => []
  | .inspecting _ _ done => offlineRunners done
  | .operating jobs => jobs.filterMap RunnerJob.target

end LaneTick

/-- The host, its lanes, and what is registered. -/
structure Registry where
  /-- The names of the containers that run. -/
  running : List String
  /-- The names that have been given to a container or a runner. -/
  used : List String
  enrolled : List EnrolledRunner
  nextId : ℤ
  lanes : String → LaneTick

/-- What happens next. -/
inductive RegistryAction
  /-- A tick begins, of a pool with these repositories. -/
  | tick (pool : PoolConfig) (repos : List String)
  /-- An inspection lists the containers. -/
  | listContainers (lane : String) (inspection : ℕ) (answers : Bool)
  /-- It lists the runners, of which the answer shows some, and ends. -/
  | listRunners (lane : String) (inspection : ℕ) (answer : Option (List RunnerInfo))
      (rest : Observations)
  /-- An inspection raises. -/
  | giveUp (lane : String)
  /-- All inspections are done. -/
  | operate (lane : String) (spawns : List PoolConfig)
  /-- A job deregisters its runner. -/
  | deregister (lane : String) (job : ℕ)
  /-- A job starts a container. -/
  | spawn (lane : String) (job : ℕ) (name : String)
  /-- A job fails, or is not handed over. -/
  | fail (lane : String) (job : ℕ)
  | tickEnds (lane : String)
  /-- A request starts a container. -/
  | scaleUp (pool : PoolConfig) (name : String)
  /-- The runner of a container registers. -/
  | register (pool : PoolConfig) (name : String)
  /-- A runner of another machine does. -/
  | elsewhere (scope name : String)
  /-- GitHub takes a runner for online or offline, or gives it a job. -/
  | report (id : ℤ) (status : String) (busy : Bool)
  /-- A registration goes, as that of a runner that has done its job. -/
  | unregister (id : ℤ)
  | exit (name : String)

namespace Registry

variable (F : NameFilter)

def setLane (s : Registry) (lane : String) (phase : LaneTick) : Registry :=
  { s with lanes := Function.update s.lanes lane phase }

/-- `docker ps` for a pool. -/
def containersOf (s : Registry) (q : PoolConfig) (answers : Bool) : CommandResult (List String) :=
  if answers then ⟨s.running.filter (F.selects q.containerPrefix), 0⟩ else ⟨[], 1⟩

/-- `docker run`. -/
def starts (s : Registry) (q : PoolConfig) (name : String) : Option Registry :=
  if startsWith name (q.containerPrefix ++ "-") = true ∧ DockerName name ∧ name ∉ s.used then
    some { s with running := name :: s.running, used := name :: s.used }
  else none

/-- A runner registers. -/
def enrol (s : Registry) (scope name : String) : Registry :=
  { s with
    enrolled := s.enrolled ++ [⟨scope, ⟨s.nextId, name, "offline", false⟩⟩]
    used := name :: s.used
    nextId := s.nextId + 1 }

/-- A runner is taken from its list. -/
def remove (s : Registry) (q : PoolConfig) (id : ℤ) : Registry :=
  { s with enrolled := s.enrolled.filter fun e => !(e.scope = q.runnersUrl && e.runner.id = id) }

/-- What is left of an inspection that has listed the containers. -/
def inspected (waiting : List PoolConfig) (listed : List (PoolConfig × CommandResult (List String)))
    (done : List PoolInspection) : Except PyError PoolInspection → LaneTick
  | .ok inspection => .inspecting waiting listed (done ++ [inspection])
  | .error _ => .idle

/-- One step. -/
def step (s : Registry) : RegistryAction → Option Registry
  | .tick p repos =>
      match s.lanes p.name with
      | .idle => some (s.setLane p.name (.inspecting (p.tickTargets repos) [] []))
      | _ => none
  | .listContainers lane n answers =>
      match s.lanes lane with
      | .inspecting waiting listed done => waiting[n]?.map fun q => s.setLane lane
          (.inspecting (waiting.eraseIdx n) (listed ++ [(q, s.containersOf F q answers)]) done)
      | _ => none
  | .listRunners lane n answer rest =>
      match s.lanes lane with
      | .inspecting waiting listed done => listed[n]?.bind fun (q, running) =>
          if ∀ r ∈ answer.getD [], ⟨q.runnersUrl, r⟩ ∈ s.enrolled then
            some (s.setLane lane (inspected waiting (listed.eraseIdx n) done
              (inspectPool q { rest with running := running, runners := answer }).outcome))
          else none
      | _ => none
  | .giveUp lane =>
      match s.lanes lane with
      | .inspecting .. => some (s.setLane lane .idle)
      | _ => none
  | .operate lane spawns =>
      match s.lanes lane with
      | .inspecting [] [] done =>
          if spawns ⊆ done.map (·.pool) then
            some (s.setLane lane (.operating
              ((offlineRunners done).map (fun x => .deregister x.1 x.2) ++ spawns.map .spawn)))
          else none
      | _ => none
  | .deregister lane n =>
      match s.lanes lane with
      | .operating jobs => (jobs[n]?.bind RunnerJob.target).map fun x =>
          (s.remove x.1 x.2.id).setLane lane (.operating (jobs.eraseIdx n))
      | _ => none
  | .spawn lane n name =>
      match s.lanes lane with
      | .operating jobs =>
          match jobs[n]? with
          | some (.spawn q) =>
              (s.starts q name).map (·.setLane lane (.operating (jobs.eraseIdx n)))
          | _ => none
      | _ => none
  | .fail lane n =>
      match s.lanes lane with
      | .operating jobs => some (s.setLane lane (.operating (jobs.eraseIdx n)))
      | _ => none
  | .tickEnds lane =>
      match s.lanes lane with
      | .operating [] => some (s.setLane lane .idle)
      | _ => none
  | .scaleUp q name => s.starts q name
  | .register q name =>
      if name ∈ s.running ∧ startsWith name (q.containerPrefix ++ "-") = true then
        some (s.enrol q.runnersUrl name)
      else none
  | .elsewhere scope name => if name ∉ s.used then some (s.enrol scope name) else none
  | .report id status busy =>
      some { s with enrolled := s.enrolled.map fun e =>
        if e.runner.id = id then ⟨e.scope, { e.runner with status := status, busy := busy }⟩
        else e }
  | .unregister id => some { s with enrolled := s.enrolled.filter (·.runner.id ≠ id) }
  | .exit name => some { s with running := s.running.filter (· ≠ name) }

/-- A host without containers. -/
def init : Registry := ⟨[], [], [], 0, fun _ => .idle⟩

end Registry

/-! ### What a step makes of the host and of the list -/

namespace Registry

variable {F : NameFilter} {s t : Registry} {a : RegistryAction} {name : String}

/-- A registration that was there before, with the status it had or the one that is reported. -/
structure SameRunner (a : RegistryAction) (e' e : EnrolledRunner) : Prop where
  scope : e'.scope = e.scope
  id : e'.runner.id = e.runner.id
  name : e'.runner.name = e.runner.name
  status : e'.runner.status = e.runner.status ∨
    ∃ busy, a = .report e.runner.id e.runner.status busy

/-- What a step does apart from the lanes. -/
inductive HostMove (s : Registry) (a : RegistryAction) : Registry → Prop
  | stays (lanes : String → LaneTick) : HostMove s a { s with lanes := lanes }
  | starts (name : String) (lanes : String → LaneTick) (hnamed : DockerName name)
      (hfresh : name ∉ s.used) :
      HostMove s a { s with running := name :: s.running, used := name :: s.used, lanes := lanes }
  | enrols (scope name : String) : HostMove s a (s.enrol scope name)
  | keeps (enrolled : List EnrolledRunner) (lanes : String → LaneTick)
      (h : ∀ e ∈ enrolled, ∃ e' ∈ s.enrolled, SameRunner a e' e)
      (hids : (enrolled.map (·.runner.id)).Sublist (s.enrolled.map (·.runner.id))) :
      HostMove s a { s with enrolled := enrolled, lanes := lanes }
  | exits (name : String) : HostMove s a { s with running := s.running.filter (· ≠ name) }

theorem SameRunner.refl (a : RegistryAction) (e : EnrolledRunner) : SameRunner a e e :=
  ⟨rfl, rfl, rfl, .inl rfl⟩

theorem starts_eq_some {q : PoolConfig} (h : s.starts q name = some t) :
    DockerName name ∧ name ∉ s.used ∧
      t = { s with running := name :: s.running, used := name :: s.used } := by
  unfold starts at h
  split_ifs at h with hname
  exact ⟨hname.2.1, hname.2.2, (Option.some.inj h).symm⟩

/-- A deregistration finds its job on the lane. -/
theorem exists_of_step_deregister {lane : String} {n : ℕ}
    (h : step F s (.deregister lane n) = some t) :
    ∃ jobs pool runner, s.lanes lane = .operating jobs ∧
      jobs[n]? = some (.deregister pool runner) ∧
      t = (s.remove pool runner.id).setLane lane (.operating (jobs.eraseIdx n)) := by
  simp only [step] at h
  split at h
  · next jobs hlane =>
    obtain ⟨x, hx, rfl⟩ := Option.map_eq_some_iff.1 h
    obtain ⟨job, hjob, htarget⟩ := Option.bind_eq_some_iff.1 hx
    cases job with
    | deregister pool runner =>
      obtain rfl := Option.some.inj htarget
      exact ⟨jobs, pool, runner, hlane, hjob, rfl⟩
    | spawn => cases htarget
  · cases h

/-- A start finds its job on the lane, which is past its inspections. -/
theorem exists_of_step_spawn {lane : String} {n : ℕ} (h : step F s (.spawn lane n name) = some t) :
    ∃ jobs q, s.lanes lane = .operating jobs ∧ jobs[n]? = some (.spawn q) ∧ DockerName name ∧
      name ∉ s.used ∧
      t = ({ s with running := name :: s.running, used := name :: s.used } : Registry).setLane lane
        (.operating (jobs.eraseIdx n)) := by
  simp only [step] at h
  split at h
  · next jobs hlane =>
    split at h
    · next q hjob =>
      obtain ⟨u, hu, rfl⟩ := Option.map_eq_some_iff.1 h
      obtain ⟨hnamed, hfresh, rfl⟩ := starts_eq_some hu
      exact ⟨jobs, q, hlane, hjob, hnamed, hfresh, rfl⟩
    · cases h
  · cases h

theorem mem_enrolled_report {id : ℤ} {status : String} {busy : Bool} {e : EnrolledRunner}
    (he : e ∈ s.enrolled.map fun e => if e.runner.id = id then
      ⟨e.scope, { e.runner with status := status, busy := busy }⟩ else e) :
    ∃ e' ∈ s.enrolled, SameRunner (.report id status busy) e' e := by
  obtain ⟨e', he', rfl⟩ := List.mem_map.1 he
  refine ⟨e', he', ?_⟩
  split_ifs with hid
  · exact ⟨rfl, rfl, rfl, .inr ⟨busy, by rw [← hid]⟩⟩
  · exact .refl _ _

theorem HostMove.of_step (h : step F s a = some t) : HostMove s a t := by
  cases a with
  | deregister lane n =>
    obtain ⟨jobs, pool, runner, -, -, rfl⟩ := exists_of_step_deregister h
    exact .keeps _ _ (fun e he => ⟨e, (List.mem_filter.1 he).1, .refl _ _⟩)
      (List.filter_sublist.map _)
  | spawn lane n name =>
    obtain ⟨jobs, q, -, -, hnamed, hfresh, rfl⟩ := exists_of_step_spawn h
    exact .starts name _ hnamed hfresh
  | scaleUp q name =>
    obtain ⟨hnamed, hfresh, rfl⟩ := starts_eq_some h
    exact .starts name _ hnamed hfresh
  | register q name | elsewhere scope name =>
    simp only [step] at h
    split_ifs at h
    obtain rfl := Option.some.inj h
    exact .enrols _ _
  | report id status busy =>
    obtain rfl := Option.some.inj h
    refine .keeps _ _ (fun e he => mem_enrolled_report he) ?_
    have hids : ∀ e ∈ s.enrolled, ((·.runner.id) ∘ fun e : EnrolledRunner =>
        if e.runner.id = id then ⟨e.scope, { e.runner with status := status, busy := busy }⟩
        else e) e = e.runner.id := by
      intro e _
      dsimp only [Function.comp_apply]
      split_ifs <;> rfl
    rw [List.map_map, List.map_congr_left hids]
  | unregister id =>
    obtain rfl := Option.some.inj h
    exact .keeps _ _ (fun e he => ⟨e, (List.mem_filter.1 he).1, .refl _ _⟩)
      (List.filter_sublist.map _)
  | exit name =>
    obtain rfl := Option.some.inj h
    exact .exits name
  | listContainers lane n answers =>
    simp only [step] at h
    split at h
    · obtain ⟨q, -, rfl⟩ := Option.map_eq_some_iff.1 h
      exact .stays _
    · cases h
  | listRunners lane n answer rest =>
    simp only [step] at h
    split at h
    · obtain ⟨x, -, h⟩ := Option.bind_eq_some_iff.1 h
      split_ifs at h
      obtain rfl := Option.some.inj h
      exact .stays _
    · cases h
  | operate lane spawns =>
    simp only [step] at h
    split at h
    · split_ifs at h
      obtain rfl := Option.some.inj h
      exact .stays _
    · cases h
  | tick | giveUp | fail | tickEnds =>
    simp only [step] at h
    split at h
    · obtain rfl := Option.some.inj h
      exact .stays _
    · cases h

/-- What is known of names and numbers. -/
structure Known (s : Registry) : Prop where
  named : ∀ name ∈ s.running, DockerName name ∧ name ∈ s.used
  enrolled : ∀ e ∈ s.enrolled, e.runner.name ∈ s.used ∧ e.runner.id < s.nextId
  distinct : (s.enrolled.map (·.runner.id)).Nodup

theorem Known.eq_of_id (hs : s.Known) {e e' : EnrolledRunner} (he : e ∈ s.enrolled)
    (he' : e' ∈ s.enrolled) (hid : e.runner.id = e'.runner.id) : e = e' :=
  List.inj_on_of_nodup_map hs.distinct he he' hid

/-- A container that has stopped does not run again, and a number stands for one runner. -/
structure Follows (s : Registry) (a : RegistryAction) (t : Registry) : Prop where
  used : s.used ⊆ t.used
  nextId : s.nextId ≤ t.nextId
  running : ∀ name ∈ t.running, name ∈ s.running ∨ name ∉ s.used
  enrolled : ∀ e ∈ t.enrolled, (∃ e' ∈ s.enrolled, SameRunner a e' e) ∨ s.nextId ≤ e.runner.id

theorem HostMove.follows (h : HostMove s a t) : Follows s a t := by
  cases h with
  | stays =>
    exact ⟨fun _ h => h, le_rfl, fun _ h => .inl h, fun e he => .inl ⟨e, he, .refl _ _⟩⟩
  | starts name _ _ hfresh =>
    refine ⟨List.subset_cons_self _ _, le_rfl, fun other h => ?_,
      fun e he => .inl ⟨e, he, .refl _ _⟩⟩
    rcases List.mem_cons.1 h with rfl | h
    · exact .inr hfresh
    · exact .inl h
  | enrols scope name =>
    refine ⟨List.subset_cons_self _ _, (lt_add_one _).le, fun _ h => .inl h, fun e he => ?_⟩
    rcases List.mem_append.1 he with he | he
    · exact .inl ⟨e, he, .refl _ _⟩
    · obtain rfl := List.mem_singleton.1 he
      exact .inr le_rfl
  | keeps _ _ hkeeps _ =>
    exact ⟨fun _ h => h, le_rfl, fun _ h => .inl h, fun e he => .inl (hkeeps e he)⟩
  | exits =>
    exact ⟨fun _ h => h, le_rfl, fun _ h => .inl (List.mem_filter.1 h).1,
      fun e he => .inl ⟨e, he, .refl _ _⟩⟩

theorem Known.move (hs : s.Known) (h : HostMove s a t) : t.Known := by
  cases h with
  | stays => exact ⟨hs.named, hs.enrolled, hs.distinct⟩
  | starts name _ hnamed hfresh =>
    refine ⟨fun other h => ?_, fun e he => ?_, hs.distinct⟩
    · rcases List.mem_cons.1 h with rfl | h
      · exact ⟨hnamed, List.mem_cons_self ..⟩
      · exact ⟨(hs.named other h).1, List.mem_cons_of_mem _ (hs.named other h).2⟩
    · exact ⟨List.mem_cons_of_mem _ (hs.enrolled e he).1, (hs.enrolled e he).2⟩
  | enrols scope name =>
    refine ⟨fun other h => ⟨(hs.named other h).1, List.mem_cons_of_mem _ (hs.named other h).2⟩,
      fun e he => ?_, ?_⟩
    · rcases List.mem_append.1 he with he | he
      · exact ⟨List.mem_cons_of_mem _ (hs.enrolled e he).1,
          (hs.enrolled e he).2.trans (lt_add_one _)⟩
      · obtain rfl := List.mem_singleton.1 he
        exact ⟨List.mem_cons_self .., lt_add_one _⟩
    · -- the new number is above all others
      have hnew : s.nextId ∉ s.enrolled.map (·.runner.id) := fun hmem => by
        obtain ⟨e, he, hid⟩ := List.mem_map.1 hmem
        exact absurd hid (ne_of_lt (hs.enrolled e he).2)
      unfold enrol
      rw [List.map_append]
      exact hs.distinct.append (List.nodup_singleton _) (by simpa using hnew)
  | keeps _ _ hkeeps hids =>
    refine ⟨hs.named, fun e he => ?_, hs.distinct.sublist hids⟩
    obtain ⟨o, ho, hsame⟩ := hkeeps e he
    exact ⟨hsame.name ▸ (hs.enrolled o ho).1, hsame.id ▸ (hs.enrolled o ho).2⟩
  | exits =>
    exact ⟨fun other h => hs.named other (List.mem_filter.1 h).1, hs.enrolled, hs.distinct⟩

end Registry

/-! ### What a step makes of a lane -/

namespace Registry

variable {F : NameFilter} {s t : Registry} {a : RegistryAction} {name lane : String}

theorem found_operating_subset {jobs jobs' : List RunnerJob} (h : jobs' ⊆ jobs) :
    (LaneTick.operating jobs').found ⊆ (LaneTick.operating jobs).found :=
  List.filterMap_subset _ h

/-- What is handed over is what was found. -/
theorem found_operate (done : List PoolInspection) (spawns : List PoolConfig) :
    (LaneTick.operating ((offlineRunners done).map (fun x => .deregister x.1 x.2) ++
      spawns.map .spawn)).found = offlineRunners done := by
  have hspawns : (spawns.map RunnerJob.spawn).filterMap RunnerJob.target = [] := by
    rw [List.filterMap_map, List.filterMap_eq_nil_iff]
    intro q _
    rfl
  have htargets : ((offlineRunners done).map fun x => RunnerJob.deregister x.1 x.2).filterMap
      RunnerJob.target = offlineRunners done := by
    rw [List.filterMap_map]
    exact List.filterMap_some
  simp only [LaneTick.found, List.filterMap_append, hspawns, htargets, List.append_nil]

/-- What a step makes of the lane it is about. -/
inductive LaneStep (F : NameFilter) (s : Registry) (lane : String) :
    RegistryAction → LaneTick → LaneTick → Prop
  | tick (p : PoolConfig) (repos : List String) (h : p.name = lane) :
      LaneStep F s lane (.tick p repos) .idle (.inspecting (p.tickTargets repos) [] [])
  | lists {n : ℕ} {answers : Bool} {waiting : List PoolConfig}
      {listed : List (PoolConfig × CommandResult (List String))} {done : List PoolInspection}
      {q : PoolConfig} (h : waiting[n]? = some q) :
      LaneStep F s lane (.listContainers lane n answers) (.inspecting waiting listed done)
        (.inspecting (waiting.eraseIdx n) (listed ++ [(q, s.containersOf F q answers)]) done)
  | inspects {n : ℕ} {answer : Option (List RunnerInfo)} {rest : Observations}
      {waiting : List PoolConfig} {listed : List (PoolConfig × CommandResult (List String))}
      {done : List PoolInspection} {q : PoolConfig} {running : CommandResult (List String)}
      {i : PoolInspection} (h : listed[n]? = some (q, running))
      (answered : ∀ r ∈ answer.getD [], ⟨q.runnersUrl, r⟩ ∈ s.enrolled)
      (ok : (inspectPool q { rest with running := running, runners := answer }).outcome = .ok i) :
      LaneStep F s lane (.listRunners lane n answer rest) (.inspecting waiting listed done)
        (.inspecting waiting (listed.eraseIdx n) (done ++ [i]))
  | raises {n : ℕ} {answer : Option (List RunnerInfo)} {rest : Observations} {phase : LaneTick} :
      LaneStep F s lane (.listRunners lane n answer rest) phase .idle
  | givesUp {phase : LaneTick} : LaneStep F s lane (.giveUp lane) phase .idle
  | operates {spawns : List PoolConfig} {done : List PoolInspection} :
      LaneStep F s lane (.operate lane spawns) (.inspecting [] [] done)
        (.operating ((offlineRunners done).map (fun x => .deregister x.1 x.2) ++
          spawns.map .spawn))
  | deregisters {n : ℕ} {jobs : List RunnerJob} :
      LaneStep F s lane (.deregister lane n) (.operating jobs) (.operating (jobs.eraseIdx n))
  | spawns {n : ℕ} {jobs : List RunnerJob} {q : PoolConfig} {started : String}
      (h : jobs[n]? = some (.spawn q)) :
      LaneStep F s lane (.spawn lane n started) (.operating jobs) (.operating (jobs.eraseIdx n))
  | fails {n : ℕ} {jobs : List RunnerJob} :
      LaneStep F s lane (.fail lane n) (.operating jobs) (.operating (jobs.eraseIdx n))
  | ends : LaneStep F s lane (.tickEnds lane) (.operating []) .idle

/-- Another lane is left alone. -/
theorem lane_setLane {lane' : String} {phase : LaneTick}
    (h : LaneStep F s lane' a (s.lanes lane') phase) (u : Registry) (hu : u.lanes = s.lanes) :
    (u.setLane lane' phase).lanes lane = s.lanes lane ∨
      LaneStep F s lane a (s.lanes lane) ((u.setLane lane' phase).lanes lane) := by
  unfold setLane
  dsimp only
  rcases eq_or_ne lane lane' with rfl | hne
  · rw [Function.update_self]
    exact .inr h
  · rw [Function.update_of_ne hne, hu]
    exact .inl rfl

/-- **One step** leaves a lane as it is, or takes it on. -/
theorem lane_of_step (h : step F s a = some t) (lane : String) :
    t.lanes lane = s.lanes lane ∨ LaneStep F s lane a (s.lanes lane) (t.lanes lane) := by
  cases a with
  | tick p repos =>
    simp only [step] at h
    split at h
    · next hlane =>
      obtain rfl := Option.some.inj h
      exact lane_setLane (hlane ▸ .tick p repos rfl) s rfl
    · cases h
  | listContainers lane' n answers =>
    simp only [step] at h
    split at h
    · next hlane =>
      obtain ⟨q, hq, rfl⟩ := Option.map_eq_some_iff.1 h
      exact lane_setLane (hlane ▸ .lists hq) s rfl
    · cases h
  | listRunners lane' n answer rest =>
    simp only [step] at h
    split at h
    · next waiting listed done hlane =>
      obtain ⟨⟨q, running⟩, hn, h⟩ := Option.bind_eq_some_iff.1 h
      split_ifs at h with hanswer
      obtain rfl := Option.some.inj h
      refine lane_setLane ?_ s rfl
      cases hout : (inspectPool q { rest with running := running, runners := answer }).outcome with
      | error e => exact .raises
      | ok i => exact hlane ▸ .inspects hn hanswer hout
    · cases h
  | giveUp lane' =>
    simp only [step] at h
    split at h
    · obtain rfl := Option.some.inj h
      exact lane_setLane .givesUp s rfl
    · cases h
  | operate lane' spawns =>
    simp only [step] at h
    split at h
    · next done hlane =>
      split_ifs at h
      obtain rfl := Option.some.inj h
      exact lane_setLane (hlane ▸ .operates) s rfl
    · cases h
  | deregister lane' n =>
    obtain ⟨jobs, pool, runner, hlane, -, rfl⟩ := exists_of_step_deregister h
    exact lane_setLane (hlane ▸ .deregisters) _ rfl
  | spawn lane' n name =>
    obtain ⟨jobs, q, hlane, hjob, -, -, rfl⟩ := exists_of_step_spawn h
    exact lane_setLane (hlane ▸ .spawns hjob) _ rfl
  | fail lane' n =>
    simp only [step] at h
    split at h
    · next jobs hlane =>
      obtain rfl := Option.some.inj h
      exact lane_setLane (hlane ▸ .fails) s rfl
    · cases h
  | tickEnds lane' =>
    simp only [step] at h
    split at h
    · next hlane =>
      obtain rfl := Option.some.inj h
      exact lane_setLane (hlane ▸ .ends) s rfl
    · cases h
  | scaleUp q name =>
    obtain ⟨-, -, rfl⟩ := starts_eq_some h
    exact .inl rfl
  | register | elsewhere =>
    simp only [step] at h
    split_ifs at h
    obtain rfl := Option.some.inj h
    exact .inl rfl
  | report | unregister | exit =>
    obtain rfl := Option.some.inj h
    exact .inl rfl

/-- What becomes of the inspections of a lane that are between their listings, and of the runners
that are found. -/
inductive LaneMove (F : NameFilter) (s : Registry) (a : RegistryAction) (lane : String)
    (phase : LaneTick) : Prop
  | less (between : phase.between ⊆ (s.lanes lane).between)
      (found : phase.found ⊆ (s.lanes lane).found)
  | lists {q : PoolConfig} {n : ℕ} {answers : Bool} (action : a = .listContainers lane n answers)
      (between : phase.between ⊆
        (s.lanes lane).between ++ [(q, s.containersOf F q answers)])
      (found : phase.found ⊆ (s.lanes lane).found)
  | inspects {q : PoolConfig} {running : CommandResult (List String)}
      {answer : Option (List RunnerInfo)} {rest : Observations} {i : PoolInspection}
      (listed : (q, running) ∈ (s.lanes lane).between)
      (answered : ∀ r ∈ answer.getD [], ⟨q.runnersUrl, r⟩ ∈ s.enrolled)
      (ok : (inspectPool q { rest with running := running, runners := answer }).outcome = .ok i)
      (between : phase.between ⊆ (s.lanes lane).between)
      (found : phase.found ⊆ (s.lanes lane).found ++ offlineRunners [i])

theorem LaneMove.of_step (h : step F s a = some t) (lane : String) :
    LaneMove F s a lane (t.lanes lane) := by
  have hnil : ∀ phase : LaneTick, phase.between = [] → phase.found = [] →
      LaneMove F s a lane phase := fun phase hbetween hfound =>
    .less (hbetween ▸ List.nil_subset _) (hfound ▸ List.nil_subset _)
  rcases lane_of_step h lane with hkept | hstep
  · rw [hkept]
    exact .less (fun _ h => h) fun _ h => h
  generalize hs : s.lanes lane = phase at hstep
  generalize t.lanes lane = phase' at hstep
  cases hstep with
  | tick | raises | givesUp | ends => exact hnil _ rfl rfl
  | @lists n answers waiting listed done q =>
    refine .lists (q := q) rfl ?_ ?_
    · rw [hs]
      exact fun _ h => h
    · rw [hs]
      exact fun _ h => h
  | inspects hn answered ok =>
    refine .inspects ?_ answered ok ?_ ?_
    · rw [hs]
      exact List.mem_of_getElem? hn
    · rw [hs]
      exact List.eraseIdx_subset
    · rw [hs]
      simp only [LaneTick.found, offlineRunners, List.flatMap_append]
      exact fun _ h => h
  | operates =>
    refine .less (List.nil_subset _) ?_
    rw [found_operate, hs]
    exact fun _ h => h
  | deregisters | spawns | fails =>
    refine .less (List.nil_subset _) ?_
    rw [hs]
    exact found_operating_subset List.eraseIdx_subset

/-! ### The invariant -/

/-- `docker ps` answers, and no container starts while another inspection that takes it for its own
is between its two listings. -/
def Undisturbed (s : Registry) : RegistryAction → Prop
  | .listContainers _ _ answers => answers = true
  | .spawn lane _ name => ∀ other, other ≠ lane → ∀ x ∈ (s.lanes other).between,
      startsWith name (x.1.containerPrefix ++ "-") = false
  | .scaleUp _ name => ∀ other, ∀ x ∈ (s.lanes other).between,
      startsWith name (x.1.containerPrefix ++ "-") = false
  | _ => True

/-- The container of a runner is gone for good. -/
structure Gone (s : Registry) (r : RunnerInfo) : Prop where
  stopped : r.name ∉ s.running
  used : r.name ∈ s.used
  numbered : r.id < s.nextId
  same : ∀ e ∈ s.enrolled, e.runner.id = r.id → e.runner.name = r.name

theorem Gone.follows {r : RunnerInfo} (h : s.Gone r) (hmove : Follows s a t) : t.Gone r where
  stopped hrun := (hmove.running _ hrun).elim h.stopped fun hnew => hnew h.used
  used := hmove.used h.used
  numbered := h.numbered.trans_le hmove.nextId
  same e he hid := by
    rcases hmove.enrolled e he with ⟨e', he', hsame⟩ | hnew
    · exact hsame.name ▸ h.same e' he' (hsame.id.trans hid)
    · exact absurd (hid ▸ hnew) (not_le.2 h.numbered)

/-- What each lane has seen covers what runs, and what it has found is gone. -/
structure Sound (s : Registry) : Prop where
  known : s.Known
  covers : ∀ lane, ∀ x ∈ (s.lanes lane).between, ∀ name ∈ s.running,
    startsWith name (x.1.containerPrefix ++ "-") = true → name ∈ runningContainers x.2
  gone : ∀ lane, ∀ x ∈ (s.lanes lane).found, s.Gone x.2

/-- A container that starts belongs to no inspection between its listings. -/
theorem not_own_of_start (ha : Undisturbed s a) (h : step F s a = some t)
    (hrun : name ∈ t.running) (hnew : name ∉ s.running)
    {x : PoolConfig × CommandResult (List String)}
    (hx : x ∈ (t.lanes lane).between) :
    startsWith name (x.1.containerPrefix ++ "-") = false := by
  cases a with
  | spawn lane' n name' =>
    obtain ⟨jobs, q, -, -, -, -, rfl⟩ := exists_of_step_spawn h
    obtain rfl : name = name' := (List.mem_cons.1 hrun).resolve_right hnew
    unfold setLane at hx
    dsimp only at hx
    rcases eq_or_ne lane lane' with rfl | hne
    · rw [Function.update_self] at hx
      exact absurd hx List.not_mem_nil
    · rw [Function.update_of_ne hne] at hx
      exact ha lane hne x hx
  | scaleUp q name' =>
    obtain ⟨-, -, rfl⟩ := starts_eq_some h
    obtain rfl : name = name' := (List.mem_cons.1 hrun).resolve_right hnew
    exact ha lane x hx
  | deregister lane' n =>
    obtain ⟨jobs, pool, runner, -, -, rfl⟩ := exists_of_step_deregister h
    exact absurd hrun hnew
  | listContainers =>
    simp only [step] at h
    split at h
    · obtain ⟨q, -, rfl⟩ := Option.map_eq_some_iff.1 h
      exact absurd hrun hnew
    · cases h
  | listRunners =>
    simp only [step] at h
    split at h
    · obtain ⟨y, -, h⟩ := Option.bind_eq_some_iff.1 h
      split_ifs at h
      obtain rfl := Option.some.inj h
      exact absurd hrun hnew
    · cases h
  | operate =>
    simp only [step] at h
    split at h
    · split_ifs at h
      obtain rfl := Option.some.inj h
      exact absurd hrun hnew
    · cases h
  | tick | giveUp | fail | tickEnds =>
    simp only [step] at h
    split at h
    · obtain rfl := Option.some.inj h
      exact absurd hrun hnew
    · cases h
  | register | elsewhere =>
    simp only [step] at h
    split_ifs at h
    obtain rfl := Option.some.inj h
    exact absurd hrun hnew
  | report | unregister =>
    obtain rfl := Option.some.inj h
    exact absurd hrun hnew
  | exit =>
    obtain rfl := Option.some.inj h
    exact absurd (List.mem_filter.1 hrun).1 hnew

/-- The listing of a pool shows the containers whose names begin as those of the pool. -/
theorem mem_containersOf (hs : s.Known) {q : PoolConfig} (hrun : name ∈ s.running)
    (h : startsWith name (q.containerPrefix ++ "-") = true) :
    name ∈ runningContainers (s.containersOf F q true) := by
  unfold startsWith at h
  obtain ⟨rest, hrest⟩ := List.isPrefixOf_iff_prefix.1 h
  rw [String.toList_append] at hrest
  have hname : DockerName name := (hs.named name hrun).1
  have hstart : DockerName q.containerPrefix := fun c hc =>
    hname c (hrest ▸ List.mem_append_left _ (List.mem_append_left _ hc))
  have hselects : F.selects q.containerPrefix name = true := by
    rw [F.spec _ _ hstart hname, ← hrest]
    exact dotPrefix_self_append _ rest
  have hne : name ≠ "" := by
    rintro rfl
    simp at hrest
  exact List.mem_filter.2 ⟨List.mem_filter.2 ⟨hrun, hselects⟩, by simp [hne]⟩

/-- **What an inspection finds is gone**, when what it has seen covers what runs. -/
theorem gone_of_inspected (hs : s.Known) {q : PoolConfig} {running : CommandResult (List String)}
    {answer : Option (List RunnerInfo)} {rest : Observations} {i : PoolInspection}
    (hcovers : ∀ name ∈ s.running, startsWith name (q.containerPrefix ++ "-") = true →
      name ∈ runningContainers running)
    (hanswer : ∀ r ∈ answer.getD [], ⟨q.runnersUrl, r⟩ ∈ s.enrolled)
    (hok : (inspectPool q { rest with running := running, runners := answer }).outcome = .ok i)
    {x : PoolConfig × RunnerInfo} (hx : x ∈ offlineRunners [i]) : s.Gone x.2 := by
  obtain ⟨runners, queued, hrunners, -, rfl⟩ := inspectPool_ok hok
  obtain rfl : answer = some runners := hrunners
  simp only [offlineRunners, List.flatMap_cons, List.flatMap_nil, List.append_nil, List.mem_map,
    List.mem_filter, ownRunners, Bool.and_eq_true, decide_eq_true_eq] at hx
  obtain ⟨r, ⟨⟨hmem, hown⟩, -, hunlisted⟩, rfl⟩ := hx
  have henrolled := hanswer r hmem
  exact ⟨fun hrun => hunlisted (List.mem_dedup.2 (hcovers _ hrun hown)),
    (hs.enrolled _ henrolled).1, (hs.enrolled _ henrolled).2,
    fun e he hid => congrArg (·.runner.name) (hs.eq_of_id he henrolled hid)⟩

theorem Sound.step (hs : s.Sound) (ha : Undisturbed s a) (h : step F s a = some t) : t.Sound := by
  have hmove := HostMove.of_step h
  refine ⟨hs.known.move hmove, fun lane x hx name hrun hown => ?_, fun lane x hx => ?_⟩
  · by_cases hold : name ∈ s.running
    · cases LaneMove.of_step h lane with
      | less between => exact hs.covers lane x (between hx) name hold hown
      | lists action between =>
        rcases List.mem_append.1 (between hx) with hx | hx
        · exact hs.covers lane x hx name hold hown
        · obtain rfl := List.mem_singleton.1 hx
          subst action
          obtain rfl : _ = true := ha
          exact mem_containersOf hs.known hold hown
      | inspects _ _ _ between => exact hs.covers lane x (between hx) name hold hown
    · rw [not_own_of_start ha h hrun hold hx] at hown
      cases hown
  · refine Gone.follows ?_ hmove.follows
    cases LaneMove.of_step h lane with
    | less _ found => exact hs.gone lane x (found hx)
    | lists _ _ found => exact hs.gone lane x (found hx)
    | inspects listed answered ok _ found =>
      rcases List.mem_append.1 (found hx) with hx | hx
      · exact hs.gone lane x hx
      · exact gone_of_inspected hs.known (hs.covers lane _ listed) answered ok hx

theorem known_init : init.Known :=
  ⟨fun _ h => absurd h List.not_mem_nil, fun _ h => absurd h List.not_mem_nil, List.nodup_nil⟩

theorem sound_init : init.Sound where
  known := known_init
  covers _ _ h := absurd h List.not_mem_nil
  gone _ _ h := absurd h List.not_mem_nil

/-- **A runner whose container runs stays registered.** In every interleaving in which `docker ps`
answers, and no other lane and no request starts a container between the two listings of an
inspection that takes it for its own, no tick deregisters a runner whose container runs, whatever
GitHub says of the runner. -/
theorem running_stays {l : List RegistryAction} (hl : Along (step F) Undisturbed init l) :
    Along (step F) (fun s a => ∀ lane n t, a = .deregister lane n → step F s a = some t →
      ∀ e ∈ s.enrolled, e ∉ t.enrolled → e.runner.name ∉ s.running) init l := by
  refine along_of_invariant (fun s a t hs ha h => hs.step ha h) (fun s a hs _ => ?_) sound_init hl
  rintro lane n t rfl h e he hgone
  obtain ⟨jobs, pool, runner, hlane, hjob, rfl⟩ := exists_of_step_deregister h
  have hfound : (pool, runner) ∈ (s.lanes lane).found := by
    rw [hlane]
    exact List.mem_filterMap.2 ⟨_, List.mem_of_getElem? hjob, rfl⟩
  have hid : e.runner.id = runner.id := by
    by_contra hne
    exact hgone (List.mem_filter.2 ⟨he, by simp [hne]⟩)
  have hrunner := hs.gone lane _ hfound
  rw [hrunner.same e he hid]
  exact hrunner.stopped

/-- A runner registers, takes a job and is killed. -/
def killedRunner : List RegistryAction :=
  [.scaleUp ciPool "gh-runner-ci-00000000", .register ciPool "gh-runner-ci-00000000",
    .report 0 "online" true, .exit "gh-runner-ci-00000000", .report 0 "offline" false]

/-- What else an inspection is told of a quiet host. -/
def quietRest : Observations :=
  ⟨⟨[], 0⟩, ⟨[], 0⟩, none, ⟨[], 0⟩, fun _ => none, .ok 0⟩

/-- The steps of a tick that finds the runner. -/
def cleaningTick : List RegistryAction :=
  [.listContainers "ci" 0 true,
    .listRunners "ci" 0 (some [⟨0, "gh-runner-ci-00000000", "offline", false⟩]) quietRest,
    .operate "ci" [], .deregister "ci" 0]

/-- A runner that was killed is deregistered. -/
theorem running_stays_killedRunner :
    (run (step dotFilter) init (killedRunner ++ .tick ciPool [] :: cleaningTick)).map (·.enrolled) =
      some [] ∧
    Along (step dotFilter) (fun s a => ∀ lane n t, a = .deregister lane n →
      step dotFilter s a = some t → ∀ e ∈ s.enrolled, e ∉ t.enrolled → e.runner.name ∉ s.running)
      init (killedRunner ++ .tick ciPool [] :: cleaningTick) := by
  refine ⟨by decide +kernel,
    running_stays ⟨fun _ x hx => absurd hx List.not_mem_nil, fun t _ => ?_⟩⟩
  have hquiet : ∀ a ∈ killedRunner.tail ++ .tick ciPool [] :: cleaningTick,
      ∀ s, Undisturbed s a := by
    intro a ha s
    simp only [killedRunner, cleaningTick, List.tail_cons, List.cons_append, List.nil_append,
      List.mem_cons, List.not_mem_nil, or_false] at ha
    rcases ha with rfl | rfl | rfl | rfl | rfl | rfl | rfl | rfl | rfl
    all_goals trivial
  exact along_mono (fun s a h => h s) (along_of_actions hquiet t)

/-! ### Runners that are gone -/

/-- A tick that has yet to deregister the runner `id` of the pool. -/
inductive Pursued (q : PoolConfig) (id : ℤ) (name : String) : LaneTick → Prop
  | waiting {waiting : List PoolConfig}
      {listed : List (PoolConfig × CommandResult (List String))} {done : List PoolInspection}
      (h : q ∈ waiting) : Pursued q id name (.inspecting waiting listed done)
  | listed {waiting : List PoolConfig} {listed : List (PoolConfig × CommandResult (List String))}
      {done : List PoolInspection} {running : CommandResult (List String)}
      (h : (q, running) ∈ listed) (hname : name ∉ runningContainers running) :
      Pursued q id name (.inspecting waiting listed done)
  | found {phase : LaneTick} {r : RunnerInfo} (h : (q, r) ∈ phase.found) (hid : r.id = id) :
      Pursued q id name phase

/-- The runner `id` of the pool has no container and is offline, and the lane, in the midst of its
tick, will come to it. -/
structure Chased (q : PoolConfig) (id : ℤ) (name lane : String) (s : Registry) : Prop where
  stopped : name ∉ s.running
  used : name ∈ s.used
  numbered : id < s.nextId
  offline : ∀ e ∈ s.enrolled, e.runner.id = id →
    e.scope = q.runnersUrl ∧ e.runner.name = name ∧ e.runner.status = "offline"
  pursued : s.lanes lane = .idle ∨ (∀ e ∈ s.enrolled, e.runner.id ≠ id) ∨
    Pursued q id name (s.lanes lane)

/-- The lane begins no other tick, its requests for runners show all of a list, the deregistration
of the runner does not fail, and it stays offline. -/
def Serves (lane : String) (id : ℤ) (s : Registry) : RegistryAction → Prop
  | .tick p _ => p.name ≠ lane
  | .listRunners lane' n answer _ => lane' = lane → ∀ shown, answer = some shown →
      ∀ x, (s.lanes lane).between[n]? = some x →
        ∀ e ∈ s.enrolled, e.scope = x.1.runnersUrl → e.runner ∈ shown
  | .fail lane' n => lane' = lane → ∀ jobs, s.lanes lane = .operating jobs →
      ∀ x, jobs[n]?.bind RunnerJob.target = some x → x.2.id ≠ id
  | .report id' status _ => id' = id → status = "offline"
  | _ => True

theorem mem_eraseIdx_of_ne {α : Type*} {l : List α} {x : α} {n : ℕ} (h : x ∈ l)
    (hne : l[n]? ≠ some x) : x ∈ l.eraseIdx n := by
  obtain ⟨m, hm⟩ := List.mem_iff_getElem?.1 h
  have hmn : m ≠ n := by
    rintro rfl
    exact hne hm
  rw [List.mem_eraseIdx_iff_getElem?]
  exact ⟨m, hmn, hm⟩

/-- A job that is not the one that goes stays. -/
theorem mem_found_eraseIdx {jobs : List RunnerJob} {n : ℕ} {x : PoolConfig × RunnerInfo}
    (h : x ∈ (LaneTick.operating jobs).found) (hne : jobs[n]?.bind RunnerJob.target ≠ some x) :
    x ∈ (LaneTick.operating (jobs.eraseIdx n)).found := by
  obtain ⟨job, hjob, htarget⟩ := List.mem_filterMap.1 h
  refine List.mem_filterMap.2 ⟨job, mem_eraseIdx_of_ne hjob fun hn => hne ?_, htarget⟩
  rw [hn]
  exact htarget

/-- A complete list shows the inspection a runner that is gone. -/
theorem mem_offlineRunners {q : PoolConfig} {running : CommandResult (List String)}
    {shown : List RunnerInfo} {rest : Observations} {i : PoolInspection} {r : RunnerInfo}
    (hok : (inspectPool q { rest with running := running, runners := some shown }).outcome = .ok i)
    (hr : r ∈ shown) (hown : startsWith r.name (q.containerPrefix ++ "-") = true)
    (hstatus : r.status = "offline") (hname : r.name ∉ runningContainers running) :
    (q, r) ∈ offlineRunners [i] := by
  obtain ⟨runners, queued, hrunners, -, rfl⟩ := inspectPool_ok hok
  obtain rfl := Option.some.inj hrunners
  simp only [offlineRunners, List.flatMap_cons, List.flatMap_nil, List.append_nil, List.mem_map,
    List.mem_filter, ownRunners, Bool.and_eq_true, decide_eq_true_eq]
  exact ⟨r, ⟨⟨hr, hown⟩, hstatus, fun h => hname (List.mem_dedup.1 h)⟩, rfl⟩

/-- A runner that is not registered does not come back. -/
theorem absent_step {id : ℤ} (hmove : Follows s a t) (hnumbered : id < s.nextId)
    (h : ∀ e ∈ s.enrolled, e.runner.id ≠ id) : ∀ e ∈ t.enrolled, e.runner.id ≠ id := by
  rintro e he rfl
  rcases hmove.enrolled e he with ⟨e', he', hsame⟩ | hnew
  · exact h e' he' hsame.id
  · exact absurd hnew (not_le.2 hnumbered)

/-- **The lane comes to it.** What pursues the runner goes on, until it is deregistered or the tick
has given up. -/
theorem Pursued.step {q : PoolConfig} {id : ℤ} {name lane : String}
    (hown : startsWith name (q.containerPrefix ++ "-") = true) (hs : Chased q id name lane s)
    (hp : Pursued q id name (s.lanes lane)) (ha : Serves lane id s a) (h : step F s a = some t) :
    t.lanes lane = .idle ∨ (∀ e ∈ t.enrolled, e.runner.id ≠ id) ∨
      Pursued q id name (t.lanes lane) := by
  rcases lane_of_step h lane with hkept | hstep
  · exact .inr (.inr (hkept ▸ hp))
  by_cases hthere : ∀ e ∈ s.enrolled, e.runner.id ≠ id
  · exact .inr (.inl (absent_step (HostMove.of_step h).follows hs.numbered hthere))
  push Not at hthere
  obtain ⟨e, he, heid⟩ := hthere
  obtain ⟨hscope, hname, hstatus⟩ := hs.offline e he heid
  generalize hold : s.lanes lane = phase at hstep hp
  generalize hnew : t.lanes lane = phase' at hstep
  cases hstep with
  | tick => cases hp with
    | found hfound => exact absurd hfound List.not_mem_nil
  | raises | givesUp => exact .inl rfl
  | ends => exact .inl rfl
  | @lists n answers waiting listed done p hn =>
    refine .inr (.inr ?_)
    cases hp with
    | waiting hwaiting =>
      by_cases hpq : waiting[n]? = some q
      · obtain rfl := Option.some.inj (hn.symm.trans hpq)
        refine .listed (List.mem_append_right _ (List.mem_singleton_self _)) fun hmem => ?_
        unfold containersOf at hmem
        split_ifs at hmem
        · exact hs.stopped (List.mem_filter.1 (List.mem_filter.1 hmem).1).1
        · exact absurd hmem List.not_mem_nil
      · exact .waiting (mem_eraseIdx_of_ne hwaiting hpq)
    | listed hlisted hshown => exact .listed (List.mem_append_left _ hlisted) hshown
    | found hfound hid => exact .found hfound hid
  | @inspects n answer rest waiting listed done p running i hn answered hok =>
    refine .inr (.inr ?_)
    have hfound : offlineRunners (done ++ [i]) = offlineRunners done ++ offlineRunners [i] :=
      List.flatMap_append
    cases hp with
    | waiting hwaiting => exact .waiting hwaiting
    | @listed _ _ _ running' hlisted hshown =>
      by_cases hpq : listed[n]? = some (q, running')
      · obtain ⟨rfl, rfl⟩ := Prod.mk.inj (Option.some.inj (hn.symm.trans hpq))
        -- the inspection that ends now is told of the runner
        obtain ⟨shown, -, hanswer, -, -⟩ := inspectPool_ok hok
        obtain rfl : answer = some shown := hanswer
        have hbetween : (s.lanes lane).between[n]? = some (p, running) := by
          rw [hold]
          exact hn
        have hmem : e.runner ∈ shown := ha rfl shown rfl _ hbetween e he hscope
        refine .found (r := e.runner) ?_ heid
        change _ ∈ offlineRunners (done ++ [i])
        rw [hfound]
        refine List.mem_append_right _ (mem_offlineRunners hok hmem ?_ hstatus ?_)
        · rwa [hname]
        · rwa [hname]
      · exact .listed (mem_eraseIdx_of_ne hlisted hpq) hshown
    | found hmem hid =>
      refine .found ?_ hid
      change _ ∈ offlineRunners (done ++ [i])
      rw [hfound]
      exact List.mem_append_left _ hmem
  | operates =>
    refine .inr (.inr ?_)
    cases hp with
    | waiting hwaiting => exact absurd hwaiting List.not_mem_nil
    | listed hlisted => exact absurd hlisted List.not_mem_nil
    | found hmem hid =>
      refine .found ?_ hid
      rw [found_operate]
      exact hmem
  | @deregisters n jobs =>
    cases hp with
    | @found _ r hmem hid =>
      by_cases hjob : jobs[n]?.bind RunnerJob.target = some (q, r)
      · -- the job takes every registration of that number from the list
        obtain ⟨jobs', pool, runner, hlane, hn, rfl⟩ := exists_of_step_deregister h
        obtain rfl := LaneTick.operating.inj (hold.symm.trans hlane)
        rw [hn] at hjob
        obtain ⟨rfl, rfl⟩ := Prod.mk.inj (Option.some.inj hjob)
        refine .inr (.inl fun e' he' hid' => ?_)
        obtain ⟨hmem', hkeep⟩ := List.mem_filter.1 he'
        simp [(hs.offline e' hmem' hid').1, hid', hid] at hkeep
      · exact .inr (.inr (.found (mem_found_eraseIdx hmem hjob) hid))
  | spawns hjob =>
    cases hp with
    | found hmem hid =>
      refine .inr (.inr (.found (mem_found_eraseIdx hmem ?_) hid))
      rw [hjob]
      exact nofun
  | fails =>
    cases hp with
    | found hmem hid =>
      refine .inr (.inr (.found (mem_found_eraseIdx hmem fun hjob => ?_) hid))
      exact ha rfl _ hold _ hjob hid

theorem Chased.step {q : PoolConfig} {id : ℤ} {name lane : String}
    (hown : startsWith name (q.containerPrefix ++ "-") = true) (hs : Chased q id name lane s)
    (ha : Serves lane id s a) (h : step F s a = some t) : Chased q id name lane t := by
  have hmove : Follows s a t := (HostMove.of_step h).follows
  refine ⟨fun hrun => ?_, hmove.used hs.used, hs.numbered.trans_le hmove.nextId,
    fun e he hid => ?_, ?_⟩
  · exact (hmove.running _ hrun).elim hs.stopped fun hnew => hnew hs.used
  · rcases hmove.enrolled e he with ⟨e', he', hsame⟩ | hnew
    · obtain ⟨hscope, hname, hstatus⟩ := hs.offline e' he' (hsame.id.trans hid)
      refine ⟨hsame.scope ▸ hscope, hsame.name ▸ hname, ?_⟩
      rcases hsame.status with hsame | ⟨busy, rfl⟩
      · exact hsame ▸ hstatus
      · exact ha hid
    · exact absurd (hid ▸ hnew) (not_le.2 hs.numbered)
  · rcases hs.pursued with hidle | habsent | hp
    · rcases lane_of_step h lane with hkept | hstep
      · exact .inl (hkept.trans hidle)
      · rw [hidle] at hstep
        generalize t.lanes lane = phase' at hstep
        cases hstep with
        | tick p repos hp => exact absurd hp ha
        | raises | givesUp => exact .inl rfl
    · exact .inr (.inl (absent_step hmove hs.numbered habsent))
    · exact hp.step hown hs ha h

/-- **A runner without a container goes with the next tick.** In every interleaving, when a runner
of the pool is offline and has no container as a tick of the pool begins, and stays offline, the
tick ends with the runner deregistered or gives up on its way, provided that the answers to its
requests for runners are complete and that the deregistration of this runner does not fail. -/
theorem ghosts_go {past l : List RegistryAction} {u v : Registry} {p q : PoolConfig}
    {repos : List String} {e : EnrolledRunner} (hpast : run (step F) init past = some s)
    (hq : q ∈ p.tickTargets repos) (he : e ∈ s.enrolled) (hscope : e.scope = q.runnersUrl)
    (hown : startsWith e.runner.name (q.containerPrefix ++ "-") = true)
    (hoffline : e.runner.status = "offline") (hstopped : e.runner.name ∉ s.running)
    (htick : step F s (.tick p repos) = some u)
    (hserves : Along (step F) (Serves p.name e.runner.id) u l) (hl : run (step F) u l = some v)
    (hends : step F v (.tickEnds p.name) = some t) :
    ∀ e' ∈ t.enrolled, e'.runner.id ≠ e.runner.id := by
  have hknown : s.Known :=
    run_invariant (fun _ _ _ hs _ h => hs.move (HostMove.of_step h)) known_init
      (along_of_forall (fun _ _ => trivial) init past : Along (step F) (fun _ _ => True) init past)
      hpast
  have hbegins : Chased q e.runner.id e.runner.name p.name u := by
    simp only [step] at htick
    split at htick
    · obtain rfl := Option.some.inj htick
      refine ⟨hstopped, (hknown.enrolled e he).1, (hknown.enrolled e he).2, fun e' he' hid => ?_,
        .inr (.inr ?_)⟩
      · obtain rfl := hknown.eq_of_id he' he hid
        exact ⟨hscope, rfl, hoffline⟩
      · unfold setLane
        dsimp only
        rw [Function.update_self]
        exact .waiting hq
    · cases htick
  have hchased : Chased q e.runner.id e.runner.name p.name v :=
    run_invariant (fun _ _ _ hs ha h => hs.step hown ha h) hbegins hserves hl
  simp only [step] at hends
  split at hends
  · next hlane =>
    obtain rfl := Option.some.inj hends
    rcases hchased.pursued with hidle | habsent | hp
    · exact LaneTick.noConfusion (hidle.symm.trans hlane)
    · exact habsent
    · -- nothing is left to do
      rw [hlane] at hp
      cases hp with
      | found hfound => exact absurd hfound List.not_mem_nil
  · cases hends

/-- The runner that was killed is gone when the tick ends. -/
theorem ghosts_go_killedRunner : ∃ s u v t, run (step dotFilter) init killedRunner = some s ∧
    step dotFilter s (.tick ciPool []) = some u ∧ run (step dotFilter) u cleaningTick = some v ∧
    step dotFilter v (.tickEnds "ci") = some t ∧ ∀ e ∈ t.enrolled, e.runner.id ≠ 0 := by
  have hall : (run (step dotFilter) init
      (killedRunner ++ .tick ciPool [] :: (cleaningTick ++ [.tickEnds "ci"]))).isSome = true := by
    decide +kernel
  have hkilled : (run (step dotFilter) init killedRunner).map (fun s => (s.running, s.enrolled)) =
      some ([], [⟨ciPool.runnersUrl, ⟨0, "gh-runner-ci-00000000", "offline", false⟩⟩]) := by
    decide +kernel
  have hlisted : (run (step dotFilter) init (killedRunner ++ [.tick ciPool [],
      .listContainers "ci" 0 true])).map (·.enrolled) =
      some [⟨ciPool.runnersUrl, ⟨0, "gh-runner-ci-00000000", "offline", false⟩⟩] := by
    decide +kernel
  obtain ⟨t, ht⟩ := Option.isSome_iff_exists.1 hall
  rw [run_append] at ht
  obtain ⟨s, hs, ht⟩ := Option.bind_eq_some_iff.1 ht
  obtain ⟨u, hu, ht⟩ := Option.bind_eq_some_iff.1 ht
  rw [run_append] at ht
  obtain ⟨v, hv, ht⟩ := Option.bind_eq_some_iff.1 ht
  obtain ⟨t', ht', hend⟩ := Option.bind_eq_some_iff.1 ht
  rw [hs] at hkilled
  obtain ⟨hrunning, henrolled⟩ := Prod.mk.inj (Option.some.inj hkilled)
  have hserves : Along (step dotFilter) (Serves "ci" 0) u cleaningTick := by
    refine ⟨trivial, fun w hw => ⟨?_, fun _ _ => ⟨trivial, fun _ _ => ⟨trivial, fun _ _ =>
      trivial⟩⟩⟩⟩
    -- the answer shows the one runner there is
    rintro - shown hshown x - e he -
    rw [run_append, hs, Option.bind_some, run_cons, hu, Option.bind_some, run_cons, hw] at hlisted
    have hw' : w.enrolled = [⟨ciPool.runnersUrl, ⟨0, "gh-runner-ci-00000000", "offline", false⟩⟩] :=
      Option.some.inj hlisted
    rw [hw'] at he
    obtain rfl := List.mem_singleton.1 he
    obtain rfl := Option.some.inj hshown
    exact List.mem_singleton_self _
  have hmem : (⟨ciPool.runnersUrl, ⟨0, "gh-runner-ci-00000000", "offline", false⟩⟩ :
      EnrolledRunner) ∈ s.enrolled := henrolled ▸ List.mem_singleton_self _
  have hpool : ciPool ∈ ciPool.tickTargets [] := List.mem_singleton_self _
  exact ⟨s, u, v, t', hs, hu, hv, ht', ghosts_go hs hpool hmem rfl (by decide +kernel) rfl
    (hrunning ▸ List.not_mem_nil) hu hserves hv ht'⟩

end Registry

end RunnerSwarm
