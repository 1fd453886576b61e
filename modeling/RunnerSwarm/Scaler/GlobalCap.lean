import Mathlib
import RunnerSwarm.Scaler.CapLedger

/-!
# The global cap and the release of slots

The two promises of `_reserve_spawns`, over all interleavings of the ticks of any number of lanes.

* `slots_accounted`: `_reserved_spawns` is the sum of the slots granted and not yet given back,
  no lane gives back more than it was granted, and a lane whose tick has ended has given back
  exactly that. It needs `SubmitOk`; `slots_not_accounted` is a run without it, in which a tick
  gives back a slot that another lane holds.
* `grants_within_cap`: a grant under a positive cap keeps everything that exists or is being
  started within it, so a constant cap is only ever exceeded by what was there at the start.
-/

namespace RunnerSwarm.Scaler

variable {ι : Type*} [DecidableEq ι] [Fintype ι]

/-! ### Every slot is released once -/

/-- Every granted slot is given back once. -/
structure SlotsAccounted (s : Scaler ι) : Prop where
  counter : (s.reservedSpawns : ℤ) =
    ∑ i, (((s.ticks i).granted : ℤ) - (s.ticks i).givenBack)
  own : ∀ i, (s.ticks i).givenBack ≤ (s.ticks i).granted
  settled : ∀ i, (s.ticks i).phase = .idle → (s.ticks i).givenBack = (s.ticks i).granted

omit [DecidableEq ι] in
theorem Ledger.slotsAccounted {s : Scaler ι} (h : Ledger s) : SlotsAccounted s where
  counter := by
    have hterm : ∀ i, ((s.ticks i).granted : ℤ) - (s.ticks i).givenBack = ((s.ticks i).held : ℤ) :=
      fun i => by
        have := (h.ticks i).balance
        omega
    rw [h.reserved, total, Nat.cast_sum]
    exact Finset.sum_congr rfl fun i _ => (hterm i).symm
  own := fun i => by
    have := (h.ticks i).balance
    omega
  settled := fun i hidle => by
    have hbal := (h.ticks i).balance
    have hzero := (h.ticks i).held_eq_zero (by rw [hidle]; rfl)
    omega

/-- **Every granted slot is released exactly once**, in every run in which `submit` never raises
with a spawn of its tick already on its way. -/
theorem slots_accounted (cap : ℤ) (live : ℕ) {l : List (CapAction ι)} {s : Scaler ι}
    (hok : Along step SubmitOk (init cap live) l) (hrun : run step (init cap live) l = some s) :
    SlotsAccounted s :=
  (ledger_run (ledger_init cap live) hok hrun).slotsAccounted

/-- A pool that keeps `n` runners. -/
def samplePool (name : String) (n : ℤ) : PoolConfig :=
  { name := name, pat := "pat", owner := "org", maxRunners := n, minIdle := n }

/-- Its tick on an empty host. -/
def samplePlan (name : String) (n : ℤ) : TickPlan :=
  .single (samplePool name n) ⟨samplePool name n, 0, 0, 0, 0, []⟩ false

/-- The second lane (`true`) holds a slot while the first one hands over one of two spawns and then
fails to submit. -/
def forgottenSpawn : List (CapAction Bool) :=
  [.beginTick true (samplePlan "b" 1), .takeLock true, .listContainers true 0, .grant true,
    .submit true, .beginTick false (samplePlan "a" 2), .takeLock false, .listContainers false 0,
    .grant false, .submit false, .submitRaises false false, .takeJob false,
    .jobEnds false 0 .started, .workerReleases false, .tickReleases false]

/-- The first lane has given back a slot of the second, so the counter is 0 while that holds one. -/
theorem slots_not_accounted :
    ¬ ∀ (l : List (CapAction Bool)) (s : Scaler Bool),
      run step (init 10 0) l = some s → SlotsAccounted s := by
  intro h
  obtain ⟨s, hs, hover⟩ : ∃ s : Scaler Bool, run step (init 10 0) forgottenSpawn = some s ∧
      (s.ticks false).granted < (s.ticks false).givenBack := ⟨_, rfl, by decide⟩
  exact absurd ((h _ s hs).own false) (by omega)

/-- The same ticks when already the first `submit` of the first lane raises. -/
theorem slots_accounted_firstSubmit : ∃ s : Scaler Bool,
    run step (init 10 0)
      (forgottenSpawn.take 9 ++ [.submitRaises false false, .tickReleases false]) = some s ∧
    SlotsAccounted s :=
  ⟨_, rfl, slots_accounted 10 0 (l := forgottenSpawn.take 9 ++
    [.submitRaises false false, .tickReleases false]) (by decide) rfl⟩

/-! ### The cap -/

/-- `docker ps` lists every container whose `docker run` has returned, and `submit` does not
raise. -/
def CapOk (s : Scaler ι) : CapAction ι → Prop
  | .listContainers _ total => s.live ≤ total
  | .submitRaises _ _ => False
  | _ => True

omit [DecidableEq ι] [Fintype ι] in
theorem CapOk.submitOk {s : Scaler ι} {a : CapAction ι} (h : CapOk s a) : SubmitOk s a := by
  cases a with
  | submitRaises i queued => exact h.elim
  | _ => trivial

instance (s : Scaler ι) : ∀ a : CapAction ι, Decidable (CapOk s a)
  | .listContainers _ total => inferInstanceAs (Decidable (s.live ≤ total))
  | .submitRaises _ _ => inferInstanceAs (Decidable False)
  | .setCap _ | .containerExits | .beginTick _ _ | .nothingToSpawn _ | .takeLock _ | .listRaises _
  | .grant _ | .submit _ | .loopEnds _ | .takeJob _ | .jobEnds _ _ _ | .workerReleases _
  | .tickReleases _ => inferInstanceAs (Decidable True)

variable {s t : Scaler ι} {a : CapAction ι}

/-- Between counting and granting, the count and the counter cover the load. -/
structure Covered (s : Scaler ι) : Prop extends Ledger s where
  covered : ∀ i plan cap listed, (s.ticks i).phase = .reserving plan cap (some listed) →
    load s ≤ listed + s.reservedSpawns

/-- The load of a step grows by what the lane is granted. -/
theorem Effect.load_le {i : ι} {u : Tick} (h : Effect s t a i u) :
    load t + (s.ticks i).granted ≤ load s + u.granted := by
  have hbal := total_update_add Tick.unfinished s.ticks i u
  have hload := h.balance
  unfold load
  rw [h.ticks]
  omega

/-- Only a grant of slots adds to the load. -/
theorem load_step (h : Ledger s) (hok : CapOk s a) (hstep : s.step a = some t)
    (hgrant : ∀ i, a = .grant i → (t.ticks i).granted ≤ (s.ticks i).granted) :
    load t ≤ load s := by
  rcases step_effect h.ticks h.held_le hok.submitOk hstep with hq | ⟨i, u, he⟩
  · have hlive := hq.live
    unfold load
    rw [hq.ticks]
    omega
  · have hload := he.load_le
    have hu : t.ticks i = u := by rw [he.ticks, Function.update_self]
    have hgr : u.granted ≤ (s.ticks i).granted := by
      cases he.lock with
      | kept _ _ hgr _ => exact hgr.le
      | taken _ _ hgr _ => exact hgr.le
      | listed _ _ hgr _ => exact hgr.le
      | dropped _ _ _ hgr =>
        rcases hgr with hgr | hgr
        · exact hgr.le
        · exact hu ▸ hgrant i hgr
      | released _ _ hgr _ => exact hgr.le
    omega

theorem Covered.step (h : Covered s) (hok : CapOk s a) (hstep : s.step a = some t) :
    Covered t := by
  refine ⟨h.toLedger.step hok.submitOk hstep, fun j plan cap listed hj => ?_⟩
  rcases step_effect h.ticks h.held_le hok.submitOk hstep with hq | ⟨i, u, he⟩
  · rw [hq.ticks] at hj
    have hcov := h.covered j plan cap listed hj
    have hlive := hq.live
    unfold load at hcov ⊢
    rw [hq.ticks, hq.reserved]
    omega
  · -- a tick that holds the lock keeps every other lane away from the counter
    have hload := he.load_le
    rw [he.ticks] at hj
    by_cases hji : j = i
    · subst hji
      rw [Function.update_self] at hj
      have hres : u.phase.isReserving = true := by rw [hj]; rfl
      cases he.lock with
      | kept _ hkeep hgr hphase =>
        have hcov := h.covered j plan cap listed (hphase hres ▸ hj)
        omega
      | taken _ _ _ hphase =>
        obtain ⟨plan', hphase⟩ := hphase
        rw [hphase] at hj
        cases hj
      | listed _ hkeep hgr hphase =>
        obtain ⟨plan', cap', n, ha, -, hafter⟩ := hphase
        rw [hafter] at hj
        cases hj
        subst ha
        have hlive : s.live ≤ listed := hok
        have hunf := h.toLedger.unfinished_le
        unfold load at hload ⊢
        omega
      | dropped _ hafter _ _ => rw [hafter] at hres; cases hres
      | released hfree _ _ hphase =>
        rw [h.lock j (hphase hres ▸ hres)] at hfree
        cases hfree
    · rw [Function.update_of_ne hji] at hj
      have hcov := h.covered j plan cap listed hj
      have hlock := h.lock j (by rw [hj]; rfl)
      cases he.lock with
      | kept _ hkeep hgr _ => omega
      | taken hfree _ _ _ => rw [hlock] at hfree; cases hfree
      | listed _ hkeep hgr _ => omega
      | dropped hbefore _ _ _ =>
        rw [h.lock i hbefore] at hlock
        exact absurd (Option.some.inj hlock).symm hji
      | released hfree _ _ _ => rw [hlock] at hfree; cases hfree

omit [DecidableEq ι] in
theorem covered_init (cap : ℤ) (live : ℕ) : Covered (init cap live : Scaler ι) where
  toLedger := ledger_init cap live
  covered := fun _ _ _ _ hph => by cases hph

/-- A positive headroom is what the cap leaves. -/
theorem grantedSlots_fits {toSpawn reserved g : ℕ} {cap : ℤ} {listed : Option ℕ} (hcap : 0 < cap)
    (hpos : 0 < g) (h : grantedSlots toSpawn reserved cap listed = some g) :
    ∃ n, listed = some n ∧ (n : ℤ) + reserved + g ≤ cap := by
  cases listed with
  | none =>
    simp only [grantedSlots] at h
    rw [if_pos hcap] at h
    cases h
  | some n =>
    refine ⟨n, rfl, ?_⟩
    have hle : g ≤ headroom cap n reserved := (Option.some.inj h) ▸ min_le_right _ _
    unfold headroom at hle
    omega

/-- A grant of `g > 0` slots under a positive cap leaves the load within the cap. -/
theorem load_grant (h : Covered s) {i : ι} {plan : TickPlan} {cap : ℤ} {listed : Option ℕ}
    (hph : (s.ticks i).phase = .reserving plan cap listed) (hcap : 0 < cap)
    (hstep : s.step (.grant i) = some t) (hpos : (s.ticks i).granted < (t.ticks i).granted) :
    (load t : ℤ) ≤ cap := by
  simp only [Scaler.step, hph] at hstep
  obtain ⟨g, hg, rfl⟩ := Option.map_eq_some_iff.1 hstep
  have hgranted : ((s.ticks i).enterLoop plan g).granted = (s.ticks i).granted + g := rfl
  have hw : (s.ticks i).phase.hasWorkers = false := by rw [hph]; rfl
  have hzero := (h.ticks i).held_eq_zero hw
  have hle := (s.ticks i).unfinished_le_held
  obtain ⟨hunf, -⟩ := Tick.enterLoop_held (h.ticks i) hw (grantedSlots_le hg)
  have hgpos : 0 < g := by
    have : (s.ticks i).granted <
        (Function.update s.ticks i ((s.ticks i).enterLoop plan g) i).granted := hpos
    rw [Function.update_self] at this
    omega
  obtain ⟨n, rfl, hfits⟩ := grantedSlots_fits hcap hgpos hg
  have hcov := h.covered i plan cap n hph
  have hmore : total Tick.unfinished
      (Function.update s.ticks i ((s.ticks i).enterLoop plan g)) =
      total Tick.unfinished s.ticks + g := total_update_more (by omega)
  show ((s.live + total Tick.unfinished
      (Function.update s.ticks i ((s.ticks i).enterLoop plan g)) : ℕ) : ℤ) ≤ cap
  unfold load at hcov
  omega

/-- The state of a run under a constant cap. -/
structure Capped (cap : ℤ) (bound : ℤ) (s : Scaler ι) : Prop extends Covered s where
  cap_eq : s.maxTotalRunners = cap
  read : ∀ i plan c listed, (s.ticks i).phase = .reserving plan c listed → c = cap
  bounded : (load s : ℤ) ≤ bound

/-- The cap a lane has read is the one it found when it took the lock. -/
theorem read_step {cap : ℤ} (h : Ledger s) (hok : SubmitOk s a) (hstep : s.step a = some t)
    (hcap : s.maxTotalRunners = cap) (hset : ∀ c, a ≠ .setCap c)
    (hread : ∀ i plan c listed, (s.ticks i).phase = .reserving plan c listed → c = cap) :
    t.maxTotalRunners = cap ∧
      ∀ i plan c listed, (t.ticks i).phase = .reserving plan c listed → c = cap := by
  rcases step_effect h.ticks h.held_le hok hstep with hq | ⟨i, u, he⟩
  · rw [hq.ticks]
    rcases hq.cap with hkeep | ⟨c, ha⟩
    · exact ⟨hkeep.trans hcap, hread⟩
    · exact absurd ha (hset c)
  · refine ⟨he.cap.trans hcap, fun j plan c listed hj => ?_⟩
    rw [he.ticks] at hj
    by_cases hji : j = i
    · subst hji
      rw [Function.update_self] at hj
      have hres : u.phase.isReserving = true := by rw [hj]; rfl
      cases he.lock with
      | kept _ _ _ hphase => exact hread j plan c listed (hphase hres ▸ hj)
      | taken _ _ _ hphase =>
        obtain ⟨plan', hphase⟩ := hphase
        rw [hphase] at hj
        obtain ⟨-, rfl, -⟩ := Phase.reserving.injEq .. ▸ hj
        exact hcap
      | listed _ _ _ hphase =>
        obtain ⟨plan', cap', n, -, hbefore, hafter⟩ := hphase
        rw [hafter] at hj
        obtain ⟨-, rfl, -⟩ := Phase.reserving.injEq .. ▸ hj
        exact hread j plan' cap' none hbefore
      | dropped _ hafter _ _ => rw [hafter] at hres; cases hres
      | released _ _ _ hphase => exact hread j plan c listed (hphase hres ▸ hj)
    · rw [Function.update_of_ne hji] at hj
      exact hread j plan c listed hj

omit [Fintype ι] in
/-- A grant comes from a lane that holds the lock. -/
theorem grant_phase {i : ι} (h : s.step (.grant i) = some t) :
    ∃ plan cap listed, (s.ticks i).phase = .reserving plan cap listed := by
  cases step_cases h with
  | @grant _ plan cap listed _ hph _ => exact ⟨plan, cap, listed, hph⟩

theorem Capped.step {cap bound : ℤ} (h : Capped cap bound s) (hcap : 0 < cap)
    (hle : cap ≤ bound) (hok : CapOk s a) (hset : ∀ c, a ≠ .setCap c)
    (hstep : s.step a = some t) : Capped cap bound t := by
  obtain ⟨hcap', hread'⟩ := read_step h.toLedger hok.submitOk hstep h.cap_eq hset h.read
  refine ⟨h.toCovered.step hok hstep, hcap', hread', ?_⟩
  by_cases hgrant : ∃ i, a = .grant i ∧ (s.ticks i).granted < (t.ticks i).granted
  · obtain ⟨i, rfl, hpos⟩ := hgrant
    obtain ⟨plan, c, listed, hph⟩ := grant_phase hstep
    obtain rfl := h.read i plan c listed hph
    exact (load_grant h.toCovered hph hcap hstep hpos).trans hle
  · have hload := load_step h.toLedger hok hstep
      (fun i ha => not_lt.1 fun hpos => hgrant ⟨i, ha, hpos⟩)
    have hbound := h.bounded
    omega

theorem covered_run {cap : ℤ} {live : ℕ} {l : List (CapAction ι)}
    (hok : Along step CapOk (init cap live) l) (hrun : run step (init cap live) l = some s) :
    Covered s :=
  run_invariant (fun _ _ _ hs ha hst => hs.step ha hst) (covered_init cap live) hok hrun

omit [DecidableEq ι] in
theorem capped_init (cap : ℤ) (live : ℕ) :
    Capped cap (max cap live) (init cap live : Scaler ι) where
  toCovered := covered_init cap live
  cap_eq := rfl
  read := fun _ _ _ _ hph => by cases hph
  bounded := by
    have hzero : total Tick.unfinished (init cap live : Scaler ι).ticks = 0 :=
      total_eq_zero fun _ => rfl
    unfold load
    rw [hzero]
    exact le_max_right _ _

/-- **The cap holds for every interleaving of ticks.** A lane that reads a cap `c > 0` and is
granted slots leaves what exists or is being started within `c`; and under a constant cap that
total never exceeds the larger of the cap and the initial number of containers. -/
theorem grants_within_cap (cap : ℤ) (live : ℕ) {l : List (CapAction ι)}
    (hok : Along step CapOk (init cap live) l) (hrun : run step (init cap live) l = some s) :
    (∀ i t plan c listed, (s.ticks i).phase = .reserving plan c listed → 0 < c →
      s.step (.grant i) = some t → (s.ticks i).granted < (t.ticks i).granted →
      (load t : ℤ) ≤ c) ∧
    (0 < cap → (∀ c, .setCap c ∉ l) → (load s : ℤ) ≤ max cap live) := by
  constructor
  · intro i t plan c listed hph hc hstep hpos
    exact load_grant (covered_run hok hrun) hph hc hstep hpos
  · intro hcap hset
    have hactions : ∀ a ∈ l, ∀ c, a ≠ CapAction.setCap c := by
      rintro a ha c rfl
      exact hset c ha
    have hconst : Along step (fun _ a => ∀ c, a ≠ CapAction.setCap c) (init cap live) l :=
      along_of_actions hactions (init cap live)
    exact (run_invariant (fun _ _ _ hs ha hst => hs.step hcap (le_max_left _ _) ha.1 ha.2 hst)
      (capped_init cap live) (along_and hok hconst) hrun).bounded

/-- Two lanes under a cap of 2: the second holds a slot, the first has counted and wants two. -/
theorem grants_within_cap_two : ∃ s : Scaler Bool,
    run step (init 2 0) (forgottenSpawn.take 8) = some s ∧
    (∀ i t plan c listed, (s.ticks i).phase = .reserving plan c listed → 0 < c →
      s.step (.grant i) = some t → (s.ticks i).granted < (t.ticks i).granted →
      (load t : ℤ) ≤ c) ∧
    (0 < (2 : ℤ) → (∀ c, .setCap c ∉ forgottenSpawn.take 8) → (load s : ℤ) ≤ max 2 (0 : ℕ)) :=
  ⟨_, rfl, grants_within_cap 2 0 (l := forgottenSpawn.take 8) (by decide) rfl⟩

end RunnerSwarm.Scaler
