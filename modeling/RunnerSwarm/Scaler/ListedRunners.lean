import RunnerSwarm.GitHub.FirstPages
import RunnerSwarm.Scaler.QueueCover

/-!
# The runners an inspection is told of

`listRunners` asks once for the runners of a scope, without a page size. GitHub answers with its
standard page, so of a scope with more runners than that some are not in the list, and the
inspection takes them for runners that are not there.

* `runnerInfo` is how an entry of the answer is read;
* `reportsAll_iff`: the list is complete, no container that GitHub vouches for is killed and every
  busy runner counts, exactly when the scope has no more runners than a page, or the request fails.
-/

namespace RunnerSwarm

/-- One entry of the list, `none` when it is skipped. A bool is an `int`. -/
def runnerInfo : Json → Option RunnerInfo
  | .dict kvs =>
      let id := match getItem kvs "id" with
        | some (.int n) => some n
        | some (.bool b) => some (if b then 1 else 0)
        | _ => none
      match id, getItem kvs "name" with
      | some id, some (.str name) => some
          { id := id
            name := name
            status := match getItem kvs "status" with
              | some (.str status) => status
              | _ => "unknown"
            busy := match getItem kvs "busy" with
              | some (.bool b) => b
              | _ => false }
      | _, _ => none
  | _ => none

/-- `list_runners`, from what `_get` returned. -/
def listRunners : Option Json → Option (List RunnerInfo)
  | some (.dict kvs) =>
      match getItem kvs "runners" with
      | some (.list raw) => some (raw.filterMap runnerInfo)
      | _ => none
  | _ => none

/-- A runner that is registered, with the other fields of its entry. -/
structure RegisteredRunner extends RunnerInfo where
  rest : List (String × Json)

/-- The entry of a registered runner. -/
def RegisteredRunner.json (r : RegisteredRunner) : Json :=
  .dict ([("id", .int r.id), ("name", .str r.name), ("status", .str r.status),
    ("busy", .bool r.busy)] ++ r.rest)

/-- What the request for a pool's runners is answered with. -/
def runnersAnswer (limits : PageLimits) (p : PoolConfig) (registered : List RegisteredRunner)
    (failed : Bool) : Option Json :=
  if failed then none
  else some (.dict [("total_count", .int registered.length), ("runners",
    .list ((pageOf (limits.pageSize p .listRunners) registered 1).map RegisteredRunner.json))])

section Listed

variable {limits : PageLimits} {p : PoolConfig} {registered : List RegisteredRunner}

/-- The list is the page. -/
theorem listRunners_answer : listRunners (runnersAnswer limits p registered false) =
    some ((pageOf (limits.pageSize p .listRunners) registered 1).map (·.toRunnerInfo)) := by
  have hread : ∀ page : List RegisteredRunner,
      (page.map RegisteredRunner.json).filterMap runnerInfo = page.map (·.toRunnerInfo) :=
    fun page => by
      rw [List.filterMap_map, ← List.filterMap_eq_map]
      rfl
  exact congrArg some (hread _)

/-- What GitHub says of a runner makes its container one to be left alone. -/
def RunnerInfo.VouchedFor (r : RunnerInfo) (p : PoolConfig) : Prop :=
  (startsWith r.name (p.containerPrefix ++ "-") = true ∧ r.status = "online") ∨ r.busy = true

theorem mem_aliveNames {runners : List RunnerInfo} {r : RunnerInfo} (h : r ∈ runners)
    (halive : r.VouchedFor p) : r.name ∈ aliveNames p runners := by
  unfold aliveNames ownRunners
  refine List.mem_map_of_mem (List.mem_append.2 ?_)
  rcases halive with ⟨hown, honline⟩ | hbusy
  · exact Or.inl (List.mem_filter.2 ⟨List.mem_filter.2 ⟨h, hown⟩, decide_eq_true honline⟩)
  · exact Or.inr (List.mem_filter.2 ⟨h, hbusy⟩)

/-- The busy count of an inspection. -/
theorem inspectPool_busy {obs : Observations} {runners : List RunnerInfo} {i : PoolInspection}
    (hrunners : obs.runners = some runners) (h : (inspectPool p obs).outcome = .ok i) :
    i.busy = busyOnline p runners := by
  obtain ⟨answered, queued, hanswered, -, rfl⟩ := inspectPool_ok h
  obtain rfl := Option.some.inj (hanswered.symm.trans hrunners)
  rfl

end Listed

/-- An inspection that is told of the registered runners. -/
def Observations.told (obs : Observations) (limits : PageLimits) (p : PoolConfig)
    (registered : List RegisteredRunner) (failed : Bool) : Observations :=
  { obs with runners := listRunners (runnersAnswer limits p registered failed) }

/-- The list is complete or missing; what GitHub vouches for and Docker shows is not killed; every
busy runner of the pool counts. -/
structure ReportsAll (limits : PageLimits) (p : PoolConfig) (obs : Observations)
    (registered : List RegisteredRunner) (failed : Bool) : Prop where
  lists : listRunners (runnersAnswer limits p registered failed) = none ∨
    listRunners (runnersAnswer limits p registered failed) =
      some (registered.map (·.toRunnerInfo))
  spares : ∀ r ∈ registered, r.VouchedFor p → r.name ∈ runningContainers obs.running →
    r.name ∉ (inspectPool p (obs.told limits p registered failed)).killed
  counts : ∀ i, (inspectPool p (obs.told limits p registered failed)).outcome = .ok i →
    i.busy = busyOnline p (registered.map (·.toRunnerInfo))

/-- A scope with 31 runners: thirty of other machines, and a busy one of the pool. -/
def sharedScope : List RegisteredRunner :=
  (List.range 30).map (fun i : ℕ => ⟨⟨i, "office-" ++ toString i, "online", false⟩, []⟩) ++
    [⟨⟨30, "gh-runner-ci-0a1b2c3d", "online", true⟩, []⟩]

/-- The container of the busy runner is listed; no process of a job is seen in it. -/
def busyContainer : Observations where
  exited := ⟨[], 0⟩
  running := ⟨["gh-runner-ci-0a1b2c3d"], 0⟩
  runners := none
  stuck := ⟨[("gh-runner-ci-0a1b2c3d", "10 minutes ago")], 0⟩
  runningJob _ := some false
  queued := .ok 0

/-- **The runner beyond the first page is not seen**: its container is killed, and it does not count
as busy. -/
theorem busy_runner_unlisted :
    (listRunners (runnersAnswer githubPages eagerPool sharedScope false)).map (·.length) = some 30 ∧
      (inspectPool eagerPool (busyContainer.told githubPages eagerPool sharedScope false)).killed =
        ["gh-runner-ci-0a1b2c3d"] ∧
      (inspectPool eagerPool
        (busyContainer.told githubPages eagerPool sharedScope false)).outcome.toOption.map
          (·.busy) = some 0 ∧
      busyOnline eagerPool (sharedScope.map (·.toRunnerInfo)) = 1 := by
  decide +kernel

/-- **When an inspection is told of all runners**: when the scope has no more than fit on GitHub's
standard page, or the request fails. -/
theorem reportsAll_iff (p : PoolConfig) (obs : Observations) (registered : List RegisteredRunner)
    (failed : Bool) : ReportsAll githubPages p obs registered failed ↔
      failed = true ∨ registered.length ≤ 30 := by
  cases failed with
  | true =>
    have hnone : (obs.told githubPages p registered true).runners = none := rfl
    obtain ⟨hkilled, houtcome⟩ := inspectPool_noRunners hnone
    refine iff_of_true ⟨Or.inl rfl, fun r _ _ _ => ?_, fun i hi => ?_⟩ (Or.inl rfl)
    · rw [hkilled]
      exact List.not_mem_nil
    · rw [houtcome] at hi
      cases hi
  | false =>
    have hsize : githubPages.pageSize p .listRunners = 30 := rfl
    have hlist := @listRunners_answer githubPages p registered
    rw [hsize] at hlist
    constructor
    · intro h
      right
      rcases h.lists with hnone | hall
      · rw [hlist] at hnone
        cases hnone
      · rw [hlist] at hall
        have hlength := congrArg List.length (Option.some.inj hall)
        rw [List.length_map, List.length_map, pageOf_one, List.length_take] at hlength
        omega
    · rintro (hno | hfits)
      · cases hno
      rw [pageOf_one_eq_self_iff.2 hfits] at hlist
      refine ⟨Or.inr hlist, fun r hr halive hrunning hkilled => ?_, fun i hi =>
        inspectPool_busy hlist hi⟩
      obtain ⟨runners, hrunners, -, hunlisted⟩ := mem_inspectPool_killed hkilled
      obtain rfl := Option.some.inj (hlist.symm.trans hrunners)
      exact hunlisted ⟨hrunning, mem_aliveNames (List.mem_map_of_mem hr) halive⟩

end RunnerSwarm
