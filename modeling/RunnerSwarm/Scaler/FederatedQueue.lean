import RunnerSwarm.Federation.Untrusted
import RunnerSwarm.GitHub.ScanCount

/-!
# The queue of a federated pool

A federated pool scans for the ages of its queued jobs and lets the federation split them. When the
split raises, the pool scales alone, on a count made from the ages of the scan it already has. The
age filter is then applied to all ages at once, where `get_queued_count` applies it run by run.

`queued_eq_countP_ages` is the invariant of the scan that makes both counts the same, and
`federatedQueue_fallback` says so.
-/

namespace RunnerSwarm

variable {pool : PoolConfig} {content : GitHubContent} {answers : ScanRequest → RequestAnswer}
  {now : ℚ} {t : Scanned}

/-- `get_queued_ages`: the ages, and what is appended to `jobs`. -/
def getQueuedAges (pool : PoolConfig) (content : GitHubContent)
    (answers : ScanRequest → RequestAnswer) (now : ℚ) :
    Except RateLimitError (List PyFloat × List JobInfo) :=
  (scanQueue pool content answers now).map fun s => (s.scan.ages, s.jobs)

/-- `_federated_queue`, with the `queue_input` of the federation. -/
def federatedQueue {ε : Type} (queueInput : String → List PyFloat → Except ε ℤ) (pool : PoolConfig)
    (content : GitHubContent) (answers : ScanRequest → RequestAnswer) (now : ℚ) :
    Except RateLimitError (ℤ × List JobInfo) := do
  let (ages, jobs) ← getQueuedAges pool content answers now
  match queueInput pool.name ages with
  | .ok queued => return (queued, jobs)
  | .error _ =>
      return ((ages.countP fun age =>
        pool.queuedMinAge = 0 || (PyFloat.finite pool.queuedMinAge).le age : ℕ), jobs)

/-- **The count of a scan is the count over its ages.** -/
theorem queued_eq_countP_ages (h : scanQueue pool content answers now = .ok t) :
    t.scan.queued = t.scan.ages.countP (oldEnough pool) := by
  obtain ⟨hqueued, -, hages, -⟩ := scanQueue_adds h
  rw [hqueued, hages, List.countP_flatMap]
  refine congrArg List.sum (List.map_congr_left fun repo _ => ?_)
  rw [Function.comp_apply, List.countP_flatMap]
  refine congrArg List.sum (List.map_congr_left fun run _ => ?_)
  exact (countP_queuedAges _).symm

/-- **The fallback is the solo count**: when the split raises, a federated pool scales on what
`get_queued_count` would have returned. Both raise the same, and both append the same jobs, whatever
the split does. -/
theorem federatedQueue_fallback {ε : Type} (queueInput : String → List PyFloat → Except ε ℤ)
    (pool : PoolConfig) (content : GitHubContent) (answers : ScanRequest → RequestAnswer)
    (now : ℚ) :
    (∀ ages jobs e, getQueuedAges pool content answers now = .ok (ages, jobs) →
      queueInput pool.name ages = .error e →
      federatedQueue queueInput pool content answers now =
        (getQueuedCount pool content answers now).map fun r => ((r.1 : ℤ), r.2)) ∧
    (federatedQueue queueInput pool content answers now).map Prod.snd =
      (getQueuedCount pool content answers now).map Prod.snd := by
  unfold federatedQueue getQueuedAges getQueuedCount
  cases h : scanQueue pool content answers now with
  | error e => exact ⟨fun _ _ _ hages => (nomatch hages), rfl⟩
  | ok t =>
    constructor
    · intro ages jobs e hages hraises
      cases hages
      have hcount := queued_eq_countP_ages h
      unfold oldEnough at hcount
      simp only [Except.map, bind, Except.bind, hraises, hcount]
      rfl
    · simp only [Except.map, bind, Except.bind]
      cases queueInput pool.name t.scan.ages <;> rfl

/-- The split of a federation, as the queue input of its scaler. -/
def Federation.splitQueue (f : Federation) (ρ : Rounding) (now : ℚ) (pool : String)
    (ages : List PyFloat) : Except SplitError ℤ :=
  (f.queueInputRaising ρ pool ages now).map Prod.fst

/-- A host that claims more cores than a float can count: the split raises. -/
def boundlessHost : Federation where
  config := { enabled := true }
  own := some
    { instanceName := "a", version := "1", ts := 0,
      host := ⟨1, 1, 0, 1, 1, none, 2 ^ 1024⟩,
      pools := ⟨[("ci", ⟨0, 0, 3⟩)], by decide⟩, globalFree := none }

theorem federatedQueue_fallback_boundless :
    federatedQueue (boundlessHost.splitQueue .exact 0) eagerPool futureContent (fun _ => .ok) 20 =
      .ok (1, []) := by
  have hraises : boundlessHost.splitQueue .exact 0 eagerPool.name [.finite 10] =
      .error .overflow := by
    decide +kernel
  rw [(federatedQueue_fallback (boundlessHost.splitQueue .exact 0) eagerPool futureContent
    (fun _ => .ok) 20).1 [.finite 10] [] _ (by decide +kernel) hraises]
  decide +kernel

end RunnerSwarm
