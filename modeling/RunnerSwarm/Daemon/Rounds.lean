import RunnerSwarm.Daemon.Loop

/-!
# Rounds of the main loop

`LoopInv` is the invariant of the main loop: both lanes keep theirs, each job of a lane was asked
for in a round of an unpaused configuration, and the maintenance has two lanes only.

* `step_cases` and `proceed_cases` say what a step can be;
* `LoopInv.step`: every step keeps the invariant in which no `executor.submit` raises with the job
  on its queue.
-/

namespace RunnerSwarm

/-! ### Lanes between the calls of their loop -/

namespace TickLanes

variable {s t : TickLanes} {a : LaneAction}

theorem mem_jobs {job : LaneJob} : job ∈ s.jobs ↔ (∃ c ∈ s.waiting, c.job = some job) ∨
    s.inside.bind LockedPart.undecided = some job ∨ job ∈ s.queue ∨ job ∈ s.running ∨
      job ∈ s.finished.map Prod.fst ∨ job ∈ s.refused := by
  unfold jobs undecided handedOver unfinished
  simp only [List.mem_append, List.mem_filterMap, Option.mem_toList, or_assoc]

theorem mem_jobs_callSubmit {lane : String} {job : LaneJob} :
    job ∈ (s.callSubmit lane).jobs ↔ job = s.nextJob lane ∨ job ∈ s.jobs := by
  rw [mem_jobs, mem_jobs]
  have hwaiting : (∃ c ∈ s.waiting ++ [.submit (s.nextJob lane)], c.job = some job) ↔
      job = s.nextJob lane ∨ ∃ c ∈ s.waiting, c.job = some job := by
    simp only [List.mem_append, List.mem_singleton, or_and_right, exists_or, exists_eq_left,
      LaneCall.job, Option.some.injEq]
    rw [or_comm, eq_comm]
  exact (or_congr_left hwaiting).trans or_assoc

theorem mem_jobs_callForget {kept : List String} {job : LaneJob} :
    job ∈ (s.callForget kept).jobs ↔ job ∈ s.jobs := by
  rw [mem_jobs, mem_jobs]
  have hwaiting : (∃ c ∈ s.waiting ++ [.forgetExcept kept], c.job = some job) ↔
      ∃ c ∈ s.waiting, c.job = some job := by
    simp [LaneCall.job, or_and_right, exists_or]
  exact or_congr_left hwaiting

/-- Apart from new calls, a step numbers no job and brings no job. -/
theorem step_kept (h : s.step a = some t) (ha : a.isCall = false) :
    t.nextId = s.nextId ∧ t.jobs ⊆ s.jobs := by
  cases step_cases h with
  | submit hid => cases ha
  | waits hnone => cases ha
  | takeLock hinside hc =>
    obtain ⟨hn, rfl⟩ := List.getElem?_eq_some_iff.1 hc
    refine ⟨rfl, fun job hjob => ?_⟩
    rw [mem_jobs] at hjob ⊢
    rcases hjob with ⟨c, hmem, hcjob⟩ | hcjob | hrest
    · exact .inl ⟨c, List.mem_of_mem_eraseIdx hmem, hcjob⟩
    · rw [Option.bind_some, enter_undecided] at hcjob
      exact .inl ⟨_, List.getElem_mem hn, hcjob⟩
    · exact .inr (.inr hrest)
  | @endJob n e hn =>
    refine ⟨rfl, fun job hjob => ?_⟩
    have hmem := List.getElem_mem hn
    have herase : job ∈ s.running.eraseIdx n → job ∈ s.running := List.mem_of_mem_eraseIdx
    rw [mem_jobs] at hjob ⊢
    grind
  | @enqueueRaises job queued hinside =>
    refine ⟨rfl, fun other hother => ?_⟩
    rw [mem_jobs] at hother ⊢
    rw [hinside, Option.bind_some, LockedPart.undecided]
    grind
  | _ =>
    refine ⟨rfl, fun other hother => ?_⟩
    rw [mem_jobs] at hother ⊢
    grind [LockedPart.undecided]

end TickLanes

namespace MainLoop

/-! ### The steps of the loop -/

/-- What the next step of the loop can be. -/
inductive Proceeds (s : MainLoop) : MainLoop → Prop
  | checks (hphase : s.phase = .checking) :
      Proceeds s { s with phase := if s.stop then .joiningTicks else .readingOverrides }
  | noStore (hphase : s.phase = .readingOverrides) (hdb : s.database = none) :
      Proceeds s { s with phase := .refreshing s.resolver.resolveWithoutStore }
  | readsOverrides {db : Database} (hphase : s.phase = .readingOverrides)
      (hdb : s.database = some db) :
      Proceeds s { s with phase := .readingGlobals db.poolOverrides }
  | readsGlobals {db : Database} {overrides : Table String OverrideRow}
      (hphase : s.phase = .readingGlobals overrides) (hdb : s.database = some db) :
      Proceeds s { s with phase := .readingStates overrides db.globalOverrides }
  | readsStates {db : Database} {overrides : Table String OverrideRow}
      {globals : Table String String} (hphase : s.phase = .readingStates overrides globals)
      (hdb : s.database = some db) :
      Proceeds s { s with phase := .readingProtected overrides globals db.poolState }
  | resolves {db : Database} {overrides : Table String OverrideRow}
      {globals : Table String String} {states : Table String PoolState}
      {effective : EffectiveConfig}
      (hphase : s.phase = .readingProtected overrides globals states)
      (hdb : s.database = some db)
      (hresolve : s.resolver.resolve ⟨overrides, globals, states, db.protectedContainers⟩ =
        .ok effective) : Proceeds s { s with phase := .refreshing effective }
  | raises {overrides : Table String OverrideRow} {globals : Table String String}
      {states : Table String PoolState}
      (hphase : s.phase = .readingProtected overrides globals states) :
      Proceeds s { s with phase := .joiningTicks }
  | pauses {effective : EffectiveConfig} (hphase : s.phase = .refreshing effective)
      (hpaused : effective.paused = true) :
      Proceeds s { s with cap := effective.maxTotalRunners, phase := .cleaning effective }
  | goesOn {effective : EffectiveConfig} (hphase : s.phase = .refreshing effective)
      (hpaused : effective.paused = false) :
      Proceeds s
        { s with cap := effective.maxTotalRunners, phase := .ticking effective effective.pools }
  | submits {effective : EffectiveConfig} {pool : PoolConfig} {left : List PoolConfig}
      (hphase : s.phase = .ticking effective (pool :: left)) :
      Proceeds s { s with
        lanes := s.lanes.callSubmit pool.name
        ticks := s.ticks ++ [⟨s.lanes.nextId, pool, effective⟩]
        phase := .ticking effective left }
  | forgets {effective : EffectiveConfig} (hphase : s.phase = .ticking effective []) :
      Proceeds s { s with
        lanes := s.lanes.callForget (effective.pools.map (·.name))
        phase := .cleaning effective }
  | cleans {effective : EffectiveConfig} (hphase : s.phase = .cleaning effective) :
      Proceeds s { s with
        upkeep := s.upkeep.callSubmit cleanupLane
        cleanups := s.cleanups ++ [⟨s.upkeep.nextId, effective⟩]
        phase := .counting }
  | counts (hphase : s.phase = .counting) (hturn : (s.tickCount + 1) % s.pruneEvery ≠ 0) :
      Proceeds s { s with tickCount := s.tickCount + 1, phase := .waiting }
  | keepsHouse (hphase : s.phase = .counting) (hturn : (s.tickCount + 1) % s.pruneEvery = 0) :
      Proceeds s { s with
        tickCount := s.tickCount + 1
        upkeep := s.upkeep.callSubmit housekeepingLane
        housekeepings := s.housekeepings ++ [(s.upkeep.nextId, s.tickCount + 1)]
        phase := .waiting }
  | wakes (hphase : s.phase = .waiting) : Proceeds s { s with phase := .checking }
  | joinsTicks (hphase : s.phase = .joiningTicks) (hdone : s.lanes.IsDone) :
      Proceeds s { s with phase := .joiningUpkeep }
  | joinsUpkeep (hphase : s.phase = .joiningUpkeep) (hdone : s.upkeep.IsDone) :
      Proceeds s { s with phase := .stopped }

theorem proceed_cases {s t : MainLoop} (h : s.proceed = some t) : Proceeds s t := by
  unfold proceed at h
  split at h
  next hphase =>
    obtain rfl := Option.some.inj h
    exact .checks hphase
  next hphase =>
    split at h
    next hdb =>
      obtain rfl := Option.some.inj h
      exact .noStore hphase hdb
    next db hdb =>
      obtain rfl := Option.some.inj h
      exact .readsOverrides hphase hdb
  next overrides hphase =>
    obtain ⟨db, hdb, rfl⟩ := Option.map_eq_some_iff.1 h
    exact .readsGlobals hphase hdb
  next overrides globals hphase =>
    obtain ⟨db, hdb, rfl⟩ := Option.map_eq_some_iff.1 h
    exact .readsStates hphase hdb
  next overrides globals states hphase =>
    obtain ⟨db, hdb, rfl⟩ := Option.map_eq_some_iff.1 h
    cases hresolve : s.resolver.resolve ⟨overrides, globals, states, db.protectedContainers⟩ with
    | error e => exact .raises hphase
    | ok effective => exact .resolves hphase hdb hresolve
  next effective hphase =>
    cases hpaused : effective.paused with
    | true =>
      rw [hpaused] at h
      obtain rfl := Option.some.inj h
      exact .pauses hphase hpaused
    | false =>
      rw [hpaused] at h
      obtain rfl := Option.some.inj h
      exact .goesOn hphase hpaused
  next effective hphase =>
    obtain rfl := Option.some.inj h
    exact .forgets hphase
  next effective pool left hphase =>
    obtain rfl := Option.some.inj h
    exact .submits hphase
  next effective hphase =>
    obtain rfl := Option.some.inj h
    exact .cleans hphase
  next hphase =>
    split_ifs at h with hturn
    · obtain rfl := Option.some.inj h
      exact .keepsHouse hphase hturn
    · obtain rfl := Option.some.inj h
      exact .counts hphase hturn
  next hphase =>
    obtain rfl := Option.some.inj h
    exact .wakes hphase
  next hphase =>
    split_ifs at h with hdone
    obtain rfl := Option.some.inj h
    exact .joinsTicks hphase hdone
  next hphase =>
    split_ifs at h with hdone
    obtain rfl := Option.some.inj h
    exact .joinsUpkeep hphase hdone
  next => cases h

/-- What a step can be. -/
inductive LoopStep (s : MainLoop) : LoopAction → MainLoop → Prop
  | signal : LoopStep s .signal { s with stop := true }
  | edit {database : Database} (hdb : s.database.isSome = true) :
      LoopStep s (.edit database) { s with database := some database }
  | lanes {a : LaneAction} {lanes : TickLanes} (hcall : a.isCall = false)
      (hstep : s.lanes.step a = some lanes) : LoopStep s (.lanes a)
        { s with lanes := lanes, phase := if a.raises then .joiningTicks else s.phase }
  | upkeep {a : LaneAction} {upkeep : TickLanes} (hcall : a.isCall = false)
      (hstep : s.upkeep.step a = some upkeep) : LoopStep s (.upkeep a)
        { s with upkeep := upkeep, phase := if a.raises then .joiningTicks else s.phase }
  | proceed {t : MainLoop} (hlanes : s.lanes.IsQuiet) (hupkeep : s.upkeep.IsQuiet)
      (hstep : Proceeds s t) : LoopStep s .proceed t
  | readRaises (hreading : s.phase.isReading = true) :
      LoopStep s .readRaises { s with phase := .joiningTicks }

theorem step_cases {s t : MainLoop} {a : LoopAction} (h : s.step a = some t) :
    LoopStep s a t := by
  cases a with
  | signal =>
    obtain rfl := Option.some.inj h
    exact .signal
  | edit database =>
    obtain ⟨db, hdb, rfl⟩ := Option.map_eq_some_iff.1 h
    exact .edit (hdb ▸ rfl)
  | lanes a =>
    unfold step at h
    dsimp only at h
    by_cases hcall : a.isCall = true
    · rw [if_pos hcall] at h
      cases h
    · rw [if_neg hcall] at h
      obtain ⟨lanes, hstep, rfl⟩ := Option.map_eq_some_iff.1 h
      exact .lanes (Bool.eq_false_iff.2 hcall) hstep
  | upkeep a =>
    unfold step at h
    dsimp only at h
    by_cases hcall : a.isCall = true
    · rw [if_pos hcall] at h
      cases h
    · rw [if_neg hcall] at h
      obtain ⟨upkeep, hstep, rfl⟩ := Option.map_eq_some_iff.1 h
      exact .upkeep (Bool.eq_false_iff.2 hcall) hstep
  | proceed =>
    unfold step at h
    dsimp only at h
    split_ifs at h with hquiet
    exact .proceed hquiet.1 hquiet.2 (proceed_cases h)
  | readRaises =>
    unfold step at h
    dsimp only at h
    split_ifs at h with hreading
    obtain rfl := Option.some.inj h
    exact .readRaises hreading.1

/-- The settings stay. -/
theorem step_settings {s t : MainLoop} {a : LoopAction} (h : s.step a = some t) :
    t.pruneEvery = s.pruneEvery ∧ t.resolver = s.resolver := by
  cases step_cases h with
  | proceed hlanes hupkeep hproceeds => cases hproceeds <;> exact ⟨rfl, rfl⟩
  | _ => exact ⟨rfl, rfl⟩

/-! ### The invariant -/

/-- The tick counts at which housekeeping is due. -/
def houseTurns (pruneEvery tickCount : ℕ) : List ℕ :=
  (List.range' 1 tickCount).filter fun n => n % pruneEvery = 0

theorem houseTurns_succ (pruneEvery n : ℕ) : houseTurns pruneEvery (n + 1) =
    houseTurns pruneEvery n ++ if (n + 1) % pruneEvery = 0 then [n + 1] else [] := by
  unfold houseTurns
  rw [List.range'_concat, List.filter_append, Nat.one_mul, Nat.add_comm 1 n]
  split_ifs with h <;> simp [h]

/-- The invariant of the loop. -/
structure LoopInv (s : MainLoop) : Prop where
  lanes : s.lanes.LanesInv
  upkeep : s.upkeep.LanesInv
  twoWorkers : s.upkeep.maxWorkers = 2
  ticking : ∀ effective left, s.phase = .ticking effective left →
    effective.paused = false ∧ left <:+ effective.pools
  ticks : ∀ t ∈ s.ticks, t.pool ∈ t.effective.pools ∧ t.effective.paused = false
  numbered : s.ticks.map (·.id) = List.range s.lanes.nextId
  /-- A job of a pool is a tick that was asked for. -/
  asked : ∀ job ∈ s.lanes.jobs, ∃ t ∈ s.ticks, t.id = job.id ∧ t.pool.name = job.lane
  upkeepAsked : ∀ job ∈ s.upkeep.jobs,
    (job.lane = cleanupLane ∧ ∃ c ∈ s.cleanups, c.id = job.id) ∨
      (job.lane = housekeepingLane ∧ ∃ n, (job.id, n) ∈ s.housekeepings)
  /-- One cleanup for each round, that of the round under way included. -/
  cleaned : s.tickCount ≤ s.cleanups.length ∧ s.cleanups.length ≤ s.tickCount + 1
  inTurn : s.phase.hasLeft = false →
    (s.cleanups.length = s.tickCount + 1 ↔ s.phase = .counting)
  kept : s.housekeepings.map Prod.snd = houseTurns s.pruneEvery s.tickCount

/-- No `executor.submit` raises with the job on its queue. -/
def LeavesNone (_ : MainLoop) (a : LoopAction) : Prop := a.leavesJob = false

instance (s : MainLoop) (a : LoopAction) : Decidable (LeavesNone s a) :=
  inferInstanceAs (Decidable (a.leavesJob = false))

theorem LeavesNone.lanes {s : MainLoop} {a : LaneAction} (h : LeavesNone s (.lanes a)) :
    TickLanes.NoneLeft s.lanes a := by
  rintro rfl
  cases h

theorem LeavesNone.upkeep {s : MainLoop} {a : LaneAction} (h : LeavesNone s (.upkeep a)) :
    TickLanes.NoneLeft s.upkeep a := by
  rintro rfl
  cases h

namespace LoopInv

variable {s t : MainLoop}

/-- A step that changes nothing but the phase, the cap and the database. -/
theorem moves (h : LoopInv s) {phase : LoopPhase} {database : Option Database} {stop : Bool}
    {cap : ℤ} (hticking : ∀ effective left, phase = .ticking effective left →
      effective.paused = false ∧ left <:+ effective.pools)
    (hcounting : phase.hasLeft = false →
      (s.cleanups.length = s.tickCount + 1 ↔ phase = .counting)) :
    LoopInv { s with phase := phase, database := database, stop := stop, cap := cap } :=
  { h with ticking := hticking, inTurn := hcounting }

/-- The loop goes on to a phase between its jobs. -/
theorem goes (h : LoopInv s) {phase : LoopPhase} {cap : ℤ} (hleft : s.phase.hasLeft = false)
    (hbefore : s.phase ≠ .counting) (hafter : phase ≠ .counting)
    (hticking : ∀ effective left, phase = .ticking effective left →
      effective.paused = false ∧ left <:+ effective.pools) :
    LoopInv { s with phase := phase, cap := cap } :=
  h.moves hticking fun _ =>
    iff_of_false (fun hlen => hbefore ((h.inTurn hleft).1 hlen)) hafter

/-- The loop is left. -/
theorem leaves (h : LoopInv s) {phase : LoopPhase} (hleft : phase.hasLeft = true) :
    LoopInv { s with phase := phase } := by
  refine h.moves (fun effective left hphase => ?_) fun hnot => ?_
  · rw [hphase] at hleft
    cases hleft
  · rw [hleft] at hnot
    cases hnot

theorem proceeds (h : LoopInv s) (hstep : Proceeds s t) : LoopInv t := by
  cases hstep with
  | checks hphase =>
    by_cases hstop : s.stop = true
    · rw [if_pos hstop]
      exact h.leaves rfl
    · rw [if_neg hstop]
      exact h.goes (hphase ▸ rfl) (hphase ▸ nofun) nofun nofun
  | noStore hphase | readsOverrides hphase | readsGlobals hphase | readsStates hphase
  | resolves hphase | pauses hphase | wakes hphase =>
    exact h.goes (hphase ▸ rfl) (hphase ▸ nofun) nofun nofun
  | raises hphase => exact h.leaves rfl
  | goesOn hphase hpaused =>
    refine h.goes (hphase ▸ rfl) (hphase ▸ nofun) nofun fun effective left heq => ?_
    cases heq
    exact ⟨hpaused, List.suffix_rfl⟩
  | @submits effective pool left hphase =>
    obtain ⟨hpaused, hsuffix⟩ := h.ticking _ _ hphase
    have hmem : pool ∈ effective.pools := hsuffix.subset List.mem_cons_self
    have hcount : s.cleanups.length ≠ s.tickCount + 1 := fun hlen => by
      have hcounting := (h.inTurn (hphase ▸ rfl)).1 hlen
      rw [hphase] at hcounting
      cases hcounting
    exact { h with
      lanes := h.lanes.submit rfl
      ticking := fun e l heq => by
        cases heq
        exact ⟨hpaused, (List.suffix_cons pool left).trans hsuffix⟩
      ticks := fun tick htick => by
        rcases List.mem_append.1 htick with hold | hnew
        · exact h.ticks tick hold
        · rw [List.mem_singleton.1 hnew]
          exact ⟨hmem, hpaused⟩
      numbered := by
        rw [List.map_append, h.numbered]
        exact List.range_succ.symm
      asked := fun job hjob => by
        rcases TickLanes.mem_jobs_callSubmit.1 hjob with rfl | hold
        · exact ⟨_, List.mem_append_right _ List.mem_cons_self, rfl, rfl⟩
        · obtain ⟨tick, htick, hjob⟩ := h.asked job hold
          exact ⟨tick, List.mem_append_left _ htick, hjob⟩
      inTurn := fun _ => iff_of_false hcount nofun }
  | forgets hphase =>
    have hcount : s.cleanups.length ≠ s.tickCount + 1 := fun hlen => by
      have hcounting := (h.inTurn (hphase ▸ rfl)).1 hlen
      rw [hphase] at hcounting
      cases hcounting
    exact { h with
      lanes := h.lanes.waits rfl
      ticking := nofun
      asked := fun job hjob => h.asked job (TickLanes.mem_jobs_callForget.1 hjob)
      inTurn := fun _ => iff_of_false hcount nofun }
  | cleans hphase =>
    have hcount : s.cleanups.length ≠ s.tickCount + 1 := fun hlen => by
      have hcounting := (h.inTurn (hphase ▸ rfl)).1 hlen
      rw [hphase] at hcounting
      cases hcounting
    have hlen : s.cleanups.length = s.tickCount := by
      have := h.cleaned
      omega
    exact { h with
      upkeep := h.upkeep.submit rfl
      ticking := nofun
      upkeepAsked := fun job hjob => by
        rcases TickLanes.mem_jobs_callSubmit.1 hjob with rfl | hold
        · exact .inl ⟨rfl, _, List.mem_append_right _ List.mem_cons_self, rfl⟩
        · exact (h.upkeepAsked job hold).imp_left fun ⟨hlane, c, hc, hid⟩ =>
            ⟨hlane, c, List.mem_append_left _ hc, hid⟩
      cleaned := by simp [hlen]
      inTurn := fun _ => iff_of_true (by simp [hlen]) rfl }
  | counts hphase hturn =>
    have hlen := (h.inTurn (hphase ▸ rfl)).2 hphase
    exact { h with
      ticking := nofun
      cleaned := by simp [hlen]
      inTurn := fun _ => iff_of_false (by simp [hlen]) nofun
      kept := by
        show s.housekeepings.map Prod.snd = houseTurns s.pruneEvery (s.tickCount + 1)
        rw [houseTurns_succ, if_neg hturn, List.append_nil, h.kept] }
  | keepsHouse hphase hturn =>
    have hlen := (h.inTurn (hphase ▸ rfl)).2 hphase
    exact { h with
      upkeep := h.upkeep.submit rfl
      ticking := nofun
      upkeepAsked := fun job hjob => by
        rcases TickLanes.mem_jobs_callSubmit.1 hjob with rfl | hold
        · exact .inr ⟨rfl, _, List.mem_append_right _ List.mem_cons_self⟩
        · exact (h.upkeepAsked job hold).imp_right fun ⟨hlane, n, hn⟩ =>
            ⟨hlane, n, List.mem_append_left _ hn⟩
      cleaned := by simp [hlen]
      inTurn := fun _ => iff_of_false (by simp [hlen]) nofun
      kept := by
        show (s.housekeepings ++ [(s.upkeep.nextId, s.tickCount + 1)]).map Prod.snd =
          houseTurns s.pruneEvery (s.tickCount + 1)
        rw [houseTurns_succ, if_pos hturn, List.map_append, h.kept]
        rfl }
  | joinsTicks hphase | joinsUpkeep hphase => exact h.leaves rfl

/-- **Every step keeps the invariant** in which no job is left on its queue. -/
theorem step (h : LoopInv s) {a : LoopAction} (hok : LeavesNone s a) (hstep : s.step a = some t) :
    LoopInv t := by
  cases step_cases hstep with
  | signal | edit hdb => exact { h with }
  | @lanes a lanes hcall hlanes =>
    obtain ⟨hid, hjobs⟩ := TickLanes.step_kept hlanes hcall
    have hkept : LoopInv { s with lanes := lanes } :=
      { h with
        lanes := h.lanes.step hok.lanes hlanes
        numbered := hid ▸ h.numbered
        asked := fun job hjob => h.asked job (hjobs hjob) }
    cases a.raises with
    | true => exact hkept.leaves rfl
    | false => exact hkept
  | @upkeep a upkeep hcall hupkeep =>
    obtain ⟨-, hjobs⟩ := TickLanes.step_kept hupkeep hcall
    have hkept : LoopInv { s with upkeep := upkeep } :=
      { h with
        upkeep := h.upkeep.step hok.upkeep hupkeep
        twoWorkers := (TickLanes.step_frame hupkeep).maxWorkers.trans h.twoWorkers
        upkeepAsked := fun job hjob => h.upkeepAsked job (hjobs hjob) }
    cases a.raises with
    | true => exact hkept.leaves rfl
    | false => exact hkept
  | proceed hlanes hupkeep hproceeds => exact h.proceeds hproceeds
  | readRaises hreading => exact h.leaves rfl

end LoopInv

theorem loopInv_init (resolver : ConfigResolver) (database : Option Database)
    (pruneEvery workers : ℕ) : LoopInv (init resolver database pruneEvery workers) := by
  have hphase : (init resolver database pruneEvery workers).phase = .checking := rfl
  have hnone : ∀ workers, (TickLanes.init workers).jobs = [] := fun _ => rfl
  constructor
  case lanes => exact TickLanes.lanesInv_init workers
  case upkeep => exact TickLanes.lanesInv_init 2
  case twoWorkers => rfl
  case ticking =>
    intro effective left hticking
    rw [hphase] at hticking
    cases hticking
  case ticks => exact fun t ht => absurd ht List.not_mem_nil
  case numbered => rfl
  case asked => exact fun job hjob => absurd (hnone workers ▸ hjob) List.not_mem_nil
  case upkeepAsked => exact fun job hjob => absurd (hnone 2 ▸ hjob) List.not_mem_nil
  case cleaned => exact ⟨le_rfl, Nat.zero_le _⟩
  case inTurn =>
    refine fun _ => iff_of_false nofun fun hcounting => ?_
    rw [hphase] at hcounting
    cases hcounting
  case kept => rfl

/-! ### A loop with one pool -/

/-- A configuration of one pool. -/
def onePoolResolver : ConfigResolver where
  basePools := [{ name := "ci", pat := "t", owner := "o", repo := "r" }]
  baseMaxTotal := 0
  baseMaxLifetime := 0
  environ := fun _ => .ok ""

/-- The lanes take the job of a call, and a worker starts it. -/
def takenJob : List LaneAction := [.takeLock 0, .check, .enqueue, .record, .release, .startJob]

end MainLoop

end RunnerSwarm
