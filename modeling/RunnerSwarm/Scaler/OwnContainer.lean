import RunnerSwarm.Federation.Snapshot
import RunnerSwarm.Scaler.Ownership
import RunnerSwarm.Server.Payloads

/-!
# The orchestrator's own container

The orchestrator runs in a container named `gh-runner-orchestrator`, and every global listing of
`gh-runner-` shows it. The dashboard leaves it out of its total (`dashboardTotal_eq`). The cap and
the free slots published to the peers count it as a runner (`globalListing_length`), so with a cap
one runner less is started than the cap allows: `ownContainer_iff`.
-/

namespace RunnerSwarm

/-- A host with its containers, among them the one of the orchestrator. -/
structure OrchestratorHost (F : NameFilter) where
  containers : List Container
  distinct : (containers.map (·.name)).Nodup
  named : ∀ c ∈ containers, DockerName c.name
  own : ∃ c ∈ containers, c.running = true ∧ c.name = orchestratorContainer

namespace OrchestratorHost

variable {F : NameFilter} (host : OrchestratorHost F)

/-- The running containers that `docker ps --filter name=^gh-runner-` finds. -/
def listed : List Container :=
  host.containers.filter fun c => c.running && F.selects globalContainerPrefix c.name

/-- The runner containers alive. -/
def runners : List Container := host.listed.filter (·.name ≠ orchestratorContainer)

/-- The answer to the global listing. -/
def globalListing : CommandResult (List String) := ⟨host.listed.map (·.name), 0⟩

/-- The total of the dashboard. -/
theorem dashboardTotal_eq (docker : DockerAnswers) (hps : docker.psFails = false) :
    ((containerDetails F docker host.containers globalContainerPrefix).filter
      (·.name ≠ orchestratorContainer)).length = host.runners.length := by
  unfold containerDetails runners listed
  rw [hps, if_neg Bool.false_ne_true, List.filter_map, List.length_map]
  rfl

theorem selects_orchestrator : F.selects globalContainerPrefix orchestratorContainer = true := by
  rw [F.spec _ _ (by decide +kernel) (by decide +kernel)]
  decide +kernel

/-- A selected name is not empty. -/
theorem listed_ne_empty {c : Container} (hc : c ∈ host.listed) : c.name ≠ "" := by
  intro hempty
  obtain ⟨hmem, hcond⟩ := List.mem_filter.1 hc
  have hselects := (Bool.and_eq_true_iff.1 hcond).2
  rw [F.spec _ _ (by decide +kernel) (host.named c hmem), hempty] at hselects
  exact absurd hselects (by decide +kernel)

theorem runningContainers_globalListing :
    runningContainers host.globalListing = host.listed.map (·.name) := by
  unfold runningContainers globalListing
  refine List.filter_eq_self.2 fun name hname => ?_
  obtain ⟨c, hc, rfl⟩ := List.mem_map.1 hname
  exact decide_eq_true (host.listed_ne_empty hc)

/-- **The global listing counts the orchestrator as one more runner.** -/
theorem globalListing_length :
    (runningContainers host.globalListing).length = host.runners.length + 1 := by
  obtain ⟨own, hmem, hrunning, hname⟩ := host.own
  have hlisted : own ∈ host.listed := by
    refine List.mem_filter.2 ⟨hmem, ?_⟩
    rw [hrunning, hname, selects_orchestrator]
    rfl
  have hnodup : (host.listed.map (·.name)).Nodup :=
    host.distinct.sublist (List.filter_sublist.map _)
  have hshown : orchestratorContainer ∈ host.listed.map (·.name) :=
    hname ▸ List.mem_map_of_mem hlisted
  have hrunners : host.runners.length =
      ((host.listed.map (·.name)).erase orchestratorContainer).length := by
    rw [hnodup.erase_eq_filter, List.filter_map, List.length_map]
    unfold runners
    congr 1
    exact List.filter_congr fun c _ => by simp [bne, beq_eq_decide]
  have hpos : 0 < (host.listed.map (·.name)).length := List.length_pos_of_mem hshown
  rw [host.runningContainers_globalListing, hrunners, List.length_erase_of_mem hshown]
  omega

/-- A grant is right when it is not cut off at the cap, or the cap leaves no slot. -/
theorem reserve_iff {cap : ℤ} (hcap : 0 < cap) (reserved toSpawn : ℕ) :
    (CapView.mk cap reserved host.globalListing).reserve toSpawn =
        min toSpawn (cap - host.runners.length - reserved).toNat ↔
      (toSpawn : ℤ) < max 1 (cap - host.runners.length - reserved) ∨
        cap ≤ host.runners.length + reserved := by
  have hlength := host.globalListing_length
  unfold CapView.reserve CapView.lists headroom
  rw [hlength, decide_eq_true hcap, Bool.and_true]
  dsimp only
  split_ifs with hzero
  · omega
  · have hnone : toSpawn = 0 := by simpa using hzero
    omega

/-- The published free slots are right only when there are none. -/
theorem globalFree_iff {d : Daemon} (hd : d.running = runningContainers host.globalListing)
    (hcap : 0 < d.effective.maxTotalRunners) :
    d.globalFree = some (max 0 (d.effective.maxTotalRunners - host.runners.length)) ↔
      d.effective.maxTotalRunners ≤ host.runners.length := by
  have hlength := host.globalListing_length
  unfold Daemon.globalFree
  rw [hd, hlength, if_neg hcap.ne', Option.some_inj]
  omega

/-- **The cap and the published free slots** leave the orchestrator out if and only if the cap is
already reached. -/
theorem ownContainer_iff (d : Daemon) (hd : d.running = runningContainers host.globalListing)
    (hcap : 0 < d.effective.maxTotalRunners) (reserved toSpawn : ℕ) :
    ((CapView.mk d.effective.maxTotalRunners reserved host.globalListing).reserve toSpawn =
        min toSpawn (d.effective.maxTotalRunners - host.runners.length - reserved).toNat ∧
      d.globalFree = some (max 0 (d.effective.maxTotalRunners - host.runners.length))) ↔
      d.effective.maxTotalRunners ≤ host.runners.length := by
  rw [host.reserve_iff hcap, host.globalFree_iff hd hcap]
  refine ⟨fun h => h.2, fun hfull => ⟨Or.inr ?_, hfull⟩⟩
  omega

end OrchestratorHost

/-- A host on which nothing but the orchestrator runs. -/
def quietHost (F : NameFilter) : OrchestratorHost F where
  containers := [⟨orchestratorContainer, "", "Up 2 hours", "2 hours ago", true⟩]
  distinct := List.nodup_singleton _
  named c hc := by
    rw [List.mem_singleton.1 hc]
    decide +kernel
  own := ⟨_, List.mem_singleton_self _, rfl, rfl⟩

/-- Its daemon, with a cap of one runner. -/
def quietDaemon : Daemon where
  pools := []
  effective := ⟨[], 1, 0, false, Table.empty, []⟩
  counts := Table.empty
  running := runningContainers (quietHost dotFilter).globalListing
  version := "1"
  ts := 0
  metrics := ⟨4, 4, 0, 8192, 8192, none⟩

/-- **The one slot below the cap** is neither granted nor published. -/
theorem ownContainer_takes_slot : ¬ ((CapView.mk quietDaemon.effective.maxTotalRunners 0
        (quietHost dotFilter).globalListing).reserve 1 =
      min 1 (quietDaemon.effective.maxTotalRunners - (quietHost dotFilter).runners.length - 0).toNat ∧
    quietDaemon.globalFree =
      some (max 0 (quietDaemon.effective.maxTotalRunners - (quietHost dotFilter).runners.length))) := by
  decide +kernel

theorem ownContainer_iff_quiet : ¬ quietDaemon.effective.maxTotalRunners ≤
      (quietHost dotFilter).runners.length ∧
    ∀ reserved toSpawn, ¬ ((CapView.mk quietDaemon.effective.maxTotalRunners reserved
        (quietHost dotFilter).globalListing).reserve toSpawn =
      min toSpawn
        (quietDaemon.effective.maxTotalRunners - (quietHost dotFilter).runners.length - reserved).toNat ∧
      quietDaemon.globalFree = some (max 0
        (quietDaemon.effective.maxTotalRunners - (quietHost dotFilter).runners.length))) := by
  have hroom : ¬ quietDaemon.effective.maxTotalRunners ≤ (quietHost dotFilter).runners.length := by
    decide +kernel
  refine ⟨hroom, fun reserved toSpawn h => hroom ?_⟩
  exact ((quietHost dotFilter).ownContainer_iff quietDaemon rfl (by decide) reserved toSpawn).1 h

end RunnerSwarm
