import RunnerSwarm.Scaler.Inspection

/-!
# Does a tick cover the queue?

A single pool scales to `busy + queued` runners, and `busy` counts the runners GitHub reports busy
and online. The reaper of stuck containers is more careful: a runner that GitHub reports busy is at
work, whatever else GitHub says of it. `occupied` is the latter reading of the running containers.

When the two readings differ, the runners that are offline for GitHub count as idle ones to be used,
and a tick may start too few: `spareRunners_iff` says exactly when it starts enough.
-/

namespace RunnerSwarm

variable {pool : PoolConfig} {obs : Observations} {runners : List RunnerInfo} {queued : ℕ}

/-- The running containers, as an inspection counts them. -/
def Observations.runningNames (obs : Observations) : List String :=
  (runningContainers obs.running).dedup

/-- The containers whose runner GitHub reports busy, online or not. -/
def occupied (obs : Observations) (runners : List RunnerInfo) : List String :=
  obs.runningNames.filter fun name => runners.any fun r => r.name = name && r.busy

/-- The `busy` of an inspection: own runners that are online and busy. -/
def busyOnline (pool : PoolConfig) (runners : List RunnerInfo) : ℕ :=
  ((ownRunners pool runners).filter (·.status = "online")).countP (·.busy)

/-- What a tick starts when nothing stops it and no cap is set. -/
theorem tickSingle_started_uncapped {cap : CapView} (hcap : cap.cap ≤ 0)
    (hrunners : obs.runners = some runners) (hqueued : obs.queued = .ok queued) :
    (tickSingle pool obs false cap).started =
      (min pool.maxRunners (max pool.minIdle ((busyOnline pool runners : ℤ) + queued)) -
        obs.runningNames.length).toNat := by
  have hreserve : ∀ n, cap.reserve n = n := fun n => by
    unfold CapView.reserve CapView.lists
    rw [decide_eq_false (not_lt.2 hcap), Bool.and_false, if_neg Bool.false_ne_true]
  unfold tickSingle inspectPool
  rw [hrunners, hqueued]
  dsimp only [Except.map]
  rw [hreserve]
  unfold TickEffects.started calculateSpawnCount busyOnline Observations.runningNames
  simp

/-- The counts of a tick: it leaves enough spare runners when the pool is large enough already,
keeps enough runners warm, or sees enough of the busy ones. -/
theorem covers_iff {maxRunners minIdle : ℤ} {running occupied busy queued : ℕ}
    (hrunning : (running : ℤ) ≤ maxRunners) :
    min (queued : ℤ) (maxRunners - occupied) ≤ (running : ℤ) - occupied +
        (min maxRunners (max minIdle ((busy : ℤ) + queued)) - running).toNat ↔
      min ((occupied : ℤ) + queued) maxRunners ≤ running ∨
        min ((occupied : ℤ) + queued) maxRunners ≤ minIdle ∨
        occupied ≤ busy ∨ maxRunners ≤ (busy : ℤ) + queued := by
  omega

/-- **A tick covers the queue** if and only if it sees every busy runner online, or has to scale to
`max_runners` anyway, or the pool has or keeps as many runners as it takes. -/
theorem spareRunners_iff {cap : CapView} (hcap : cap.cap ≤ 0)
    (hrunners : obs.runners = some runners) (hqueued : obs.queued = .ok queued)
    (hrunning : (obs.runningNames.length : ℤ) ≤ pool.maxRunners) :
    min (queued : ℤ) (pool.maxRunners - (occupied obs runners).length) ≤
        (obs.runningNames.length : ℤ) - (occupied obs runners).length +
          (tickSingle pool obs false cap).started ↔
      min (((occupied obs runners).length : ℤ) + queued) pool.maxRunners ≤
          obs.runningNames.length ∨
        min (((occupied obs runners).length : ℤ) + queued) pool.maxRunners ≤ pool.minIdle ∨
        (occupied obs runners).length ≤ busyOnline pool runners ∨
        pool.maxRunners ≤ (busyOnline pool runners : ℤ) + queued := by
  rw [tickSingle_started_uncapped hcap hrunners hqueued]
  exact covers_iff hrunning

/-- A pool with room for ten runners. -/
def roomyPool : PoolConfig :=
  { name := "p", pat := "t", owner := "o", repo := "r", scope := "repository", maxRunners := 10,
    minIdle := 0 }

/-- Three runners are at work and three jobs wait; GitHub reports the runners with `status`. -/
def atWorkObs (status : String) : Observations where
  exited := ⟨[], 0⟩
  running := ⟨["gh-runner-p-0a1b2c3d", "gh-runner-p-1a1b2c3d", "gh-runner-p-2a1b2c3d"], 0⟩
  runners := some [⟨1, "gh-runner-p-0a1b2c3d", status, true⟩,
    ⟨2, "gh-runner-p-1a1b2c3d", status, true⟩, ⟨3, "gh-runner-p-2a1b2c3d", status, true⟩]
  stuck := ⟨[], 0⟩
  runningJob _ := some true
  queued := .ok 3

/-- **The queue stalls** while GitHub reports the runners at work offline: nothing is started for
the three jobs, and nobody is free. -/
theorem spareRunners_stall : ∃ runners, (atWorkObs "offline").runners = some runners ∧
    (tickSingle roomyPool (atWorkObs "offline") false ⟨0, 0, ⟨[], 0⟩⟩).killed = [] ∧
    ((atWorkObs "offline").runningNames.length : ℤ) ≤ roomyPool.maxRunners ∧
    ¬ min (3 : ℤ) (roomyPool.maxRunners - (occupied (atWorkObs "offline") runners).length) ≤
      ((atWorkObs "offline").runningNames.length : ℤ) -
        (occupied (atWorkObs "offline") runners).length +
        (tickSingle roomyPool (atWorkObs "offline") false ⟨0, 0, ⟨[], 0⟩⟩).started := by
  refine ⟨_, rfl, ?_⟩
  decide +kernel

/-- Reported online, they are seen. -/
theorem spareRunners_online :
    min ((3 : ℕ) : ℤ) (roomyPool.maxRunners - (occupied (atWorkObs "online")
        ((atWorkObs "online").runners.getD [])).length) ≤
      ((atWorkObs "online").runningNames.length : ℤ) -
        (occupied (atWorkObs "online") ((atWorkObs "online").runners.getD [])).length +
        (tickSingle roomyPool (atWorkObs "online") false ⟨0, 0, ⟨[], 0⟩⟩).started := by
  have hiff := @spareRunners_iff roomyPool (atWorkObs "online")
    ((atWorkObs "online").runners.getD []) 3 ⟨0, 0, ⟨[], 0⟩⟩ le_rfl rfl rfl (by decide +kernel)
  exact hiff.2 (Or.inr (Or.inr (Or.inl (by decide +kernel))))

end RunnerSwarm
