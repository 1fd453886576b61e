import RunnerSwarm.Daemon.Rounds

/-!
# Shutting down

Told to stop, the loop finishes the round it is in, begins no other, and then waits for the jobs
that the lanes have accepted.

* `Stops`: steps of the loop, of the lanes and of the workers alone lead to the end;
* `stops_of_stop`: they do from every state in which the loop has been told to stop, by the phases
  of a round from the last one backwards;
* `shuts_down`: then no more than one round is finished, nothing is asked for once the loop is left,
  and at the end each accepted job has run once.
-/

namespace RunnerSwarm

/-! ### Lanes come to rest -/

/-- An action that is neither a new call nor an exception of the executor. -/
def LaneAction.isPlain (a : LaneAction) : Bool := !a.isCall && !a.raises

/-- The steps that are left for the holder of the lock. -/
def LockedPart.stepsLeft : LockedPart → ℕ
  | .checking _ => 4
  | .submitting _ => 3
  | .recording _ => 2
  | .leaving _ _ => 1
  | .pruning lanes => lanes.length + 1
  | .listing todo _ => todo.length + 1

/-- A step of the loop itself, or a plain one of the lanes and their workers. -/
def LoopAction.isOwn : LoopAction → Bool
  | .proceed => true
  | .lanes a => a.isPlain
  | .upkeep a => a.isPlain
  | _ => false

namespace TickLanes

variable {s t u : TickLanes}

/-- Plain steps lead from one state to the other. -/
def Leads (s t : TickLanes) : Prop :=
  ∃ l : List LaneAction, (∀ a ∈ l, a.isPlain = true) ∧ run step s l = some t

theorem Leads.refl (s : TickLanes) : Leads s s := ⟨[], nofun, rfl⟩

theorem Leads.head {a : LaneAction} (ha : a.isPlain = true) (hstep : s.step a = some t)
    (h : Leads t u) : Leads s u := by
  obtain ⟨l, hl, hrun⟩ := h
  refine ⟨a :: l, fun b hb => ?_, ?_⟩
  · rcases List.mem_cons.1 hb with rfl | hb
    · exact ha
    · exact hl b hb
  · rw [run_cons, hstep]
    exact hrun

theorem Leads.trans (h : Leads s t) (h' : Leads t u) : Leads s u := by
  obtain ⟨l, hl, hrun⟩ := h
  obtain ⟨m, hm, hthen⟩ := h'
  refine ⟨l ++ m, fun a ha => ?_, ?_⟩
  · exact (List.mem_append.1 ha).elim (hl a) (hm a)
  · rw [run_append, hrun]
    exact hthen

theorem Leads.maxWorkers (h : Leads s t) : t.maxWorkers = s.maxWorkers := by
  obtain ⟨l, -, hrun⟩ := h
  exact run_maxWorkers hrun

/-- The holder of the lock has a step to take, towards the end of its call. -/
theorem step_inside {part : LockedPart} (h : s.inside = some part) :
    ∃ a t, a.isPlain = true ∧ s.step a = some t ∧ t.waiting = s.waiting ∧
      t.inside.elim 0 LockedPart.stepsLeft < part.stepsLeft := by
  unfold step
  cases part with
  | checking job =>
    refine ⟨.check, ?_⟩
    simp only [h]
    by_cases hbusy : s.isBusy job.lane = true
    · exact ⟨_, rfl, if_pos hbusy, rfl, by simp [LockedPart.stepsLeft]⟩
    · exact ⟨_, rfl, if_neg hbusy, rfl, by simp [LockedPart.stepsLeft]⟩
  | submitting job =>
    refine ⟨.enqueue, ?_⟩
    simp only [h]
    exact ⟨_, rfl, rfl, rfl, by simp [LockedPart.stepsLeft]⟩
  | recording job =>
    refine ⟨.record, ?_⟩
    simp only [h]
    exact ⟨_, rfl, rfl, rfl, by simp [LockedPart.stepsLeft]⟩
  | leaving job result =>
    refine ⟨.release, ?_⟩
    simp only [h]
    exact ⟨_, rfl, rfl, rfl, by simp [LockedPart.stepsLeft]⟩
  | pruning lanes =>
    cases lanes with
    | nil =>
      refine ⟨.release, ?_⟩
      simp only [h]
      exact ⟨_, rfl, rfl, rfl, by simp [LockedPart.stepsLeft]⟩
    | cons lane lanes =>
      refine ⟨.prune, ?_⟩
      simp only [h]
      exact ⟨_, rfl, rfl, rfl, Nat.lt_succ_self _⟩
  | listing todo busy =>
    cases todo with
    | nil =>
      refine ⟨.release, ?_⟩
      simp only [h]
      exact ⟨_, rfl, rfl, rfl, by simp [LockedPart.stepsLeft]⟩
    | cons entry todo =>
      refine ⟨.list, ?_⟩
      simp only [h]
      exact ⟨_, rfl, rfl, rfl, Nat.lt_succ_self _⟩

/-- The call that holds the lock returns. -/
theorem leads_free (s : TickLanes) : ∃ t, Leads s t ∧ t.inside = none ∧ t.waiting = s.waiting := by
  induction hleft : s.inside.elim 0 LockedPart.stepsLeft using Nat.strong_induction_on
    generalizing s with
  | h n ih =>
    cases hinside : s.inside with
    | none => exact ⟨s, .refl s, hinside, rfl⟩
    | some part =>
      obtain ⟨a, t, hplain, hstep, hwaiting, hless⟩ := step_inside hinside
      rw [hinside] at hleft
      obtain ⟨u, hleads, hfree, hsame⟩ := ih _ (hleft ▸ hless) t rfl
      exact ⟨u, hleads.head hplain hstep, hfree, hsame.trans hwaiting⟩

/-- **The calls under way return.** -/
theorem leads_quiet (s : TickLanes) : ∃ t, Leads s t ∧ t.IsQuiet := by
  induction hcalls : s.waiting.length generalizing s with
  | zero =>
    obtain ⟨t, hleads, hfree, hwaiting⟩ := leads_free s
    exact ⟨t, hleads, hwaiting.trans (List.length_eq_zero_iff.1 hcalls), hfree⟩
  | succ n ih =>
    obtain ⟨t, hleads, hfree, hwaiting⟩ := leads_free s
    obtain ⟨c, rest, hcons⟩ := List.exists_cons_of_length_eq_add_one (hwaiting ▸ hcalls)
    -- the first of those that wait takes the lock
    have htake : t.step (.takeLock 0) =
        some { t with waiting := rest, inside := some (t.enter c) } := by
      unfold step
      simp only [hfree, hcons, List.getElem?_cons_zero, List.eraseIdx_cons_zero]
    have hrest : rest.length = n := by
      rw [← hwaiting, hcons] at hcalls
      exact Nat.succ.inj hcalls
    obtain ⟨u, hthen, hquiet⟩ := ih { t with waiting := rest, inside := some (t.enter c) } hrest
    exact ⟨u, hleads.trans (hthen.head rfl htake), hquiet⟩

/-- **The accepted jobs run to their ends.** -/
theorem leads_done (hworkers : 0 < s.maxWorkers) (hquiet : s.IsQuiet) :
    ∃ t, Leads s t ∧ t.IsDone ∧ t.IsQuiet := by
  induction hjobs : 2 * s.queue.length + s.running.length using Nat.strong_induction_on
    generalizing s with
  | h n ih =>
    cases hrunning : s.running with
    | cons job rest =>
      have hend : s.step (.endJob 0 .returns) = some { s with
          running := rest
          finished := s.finished ++ [(job, laneRun .returns)] } := by
        unfold step
        simp only [hrunning, List.getElem?_cons_zero, List.eraseIdx_cons_zero, Option.map_some]
      have hless : 2 * s.queue.length + rest.length < n := by
        rw [hrunning, List.length_cons] at hjobs
        omega
      obtain ⟨t, hleads, hdone, hrest⟩ := ih _ hless (s := { s with
          running := rest
          finished := s.finished ++ [(job, laneRun .returns)] }) hworkers hquiet rfl
      exact ⟨t, hleads.head rfl hend, hdone, hrest⟩
    | nil =>
      cases hqueue : s.queue with
      | nil => exact ⟨s, .refl s, ⟨hqueue, hrunning⟩, hquiet⟩
      | cons job rest =>
        have hstart : s.step .startJob = some { s with
            queue := rest
            running := s.running ++ [job]
            started := s.started ++ [job] } := by
          unfold step
          simp only [hqueue, hrunning, List.length_nil, if_pos hworkers]
        have hless : 2 * rest.length + (s.running ++ [job]).length < n := by
          rw [hqueue, hrunning, List.length_cons] at hjobs
          rw [hrunning, List.nil_append, List.length_singleton]
          omega
        obtain ⟨t, hleads, hdone, hrest⟩ := ih _ hless (s := { s with
            queue := rest
            running := s.running ++ [job]
            started := s.started ++ [job] }) hworkers hquiet rfl
        exact ⟨t, hleads.head rfl hstart, hdone, hrest⟩

/-- Lanes without a call under way let a job start or end, and no more. -/
theorem IsQuiet.step (h : s.IsQuiet)
    {a : LaneAction} (hcall : a.isCall = false) (hstep : s.step a = some t) :
    t.IsQuiet ∧ a.raises = false ∧ ¬ s.IsDone := by
  obtain ⟨hwaiting, hinside⟩ := h
  cases step_cases hstep with
  | submit hid => cases hcall
  | waits hnone => cases hcall
  | takeLock _ hc =>
    rw [hwaiting] at hc
    cases hc
  | startJob hqueue hworker =>
    refine ⟨⟨hwaiting, hinside⟩, rfl, fun hdone => ?_⟩
    rw [hdone.1] at hqueue
    cases hqueue
  | endJob hn =>
    refine ⟨⟨hwaiting, hinside⟩, rfl, fun hdone => ?_⟩
    rw [hdone.2] at hn
    cases hn
  | _ hpart =>
    rw [hinside] at hpart
    cases hpart

/-- A job that lanes have accepted, and that they are done with. -/
theorem LanesInv.drained (h : s.LanesInv)
    (hdone : s.IsDone) {job : LaneJob} (hjob : (job, true) ∈ s.returned) :
    s.started.count job = 1 ∧ job ∈ s.finished.map Prod.fst := by
  have hmem : job ∈ s.handedOver := (h.accepted job).2 (List.mem_append_left _ hjob)
  have hcount := h.count_started hmem
  rw [if_neg (hdone.1 ▸ List.not_mem_nil)] at hcount
  refine ⟨hcount, ?_⟩
  unfold handedOver unfinished at hmem
  rwa [hdone.1, hdone.2, List.nil_append, List.nil_append] at hmem

end TickLanes

namespace MainLoop

variable {s t u : MainLoop}

/-! ### The loop comes to an end -/

/-- Steps of the loop and plain ones of the lanes lead from one state to the other. -/
def Leads (s t : MainLoop) : Prop :=
  ∃ l : List LoopAction, (∀ a ∈ l, a.isOwn = true) ∧ run step s l = some t

theorem Leads.refl (s : MainLoop) : Leads s s := ⟨[], nofun, rfl⟩

theorem Leads.trans (h : Leads s t) (h' : Leads t u) : Leads s u := by
  obtain ⟨l, hl, hrun⟩ := h
  obtain ⟨m, hm, hthen⟩ := h'
  refine ⟨l ++ m, fun a ha => ?_, ?_⟩
  · exact (List.mem_append.1 ha).elim (hl a) (hm a)
  · rw [run_append, hrun]
    exact hthen

theorem Leads.single {a : LoopAction} (ha : a.isOwn = true) (h : s.step a = some t) :
    Leads s t := by
  refine ⟨[a], fun b hb => List.mem_singleton.1 hb ▸ ha, ?_⟩
  rw [run_cons, h]
  rfl

theorem isPlain_iff {a : LaneAction} :
    a.isPlain = true ↔ a.isCall = false ∧ a.raises = false := by
  unfold LaneAction.isPlain
  rw [Bool.and_eq_true, Bool.not_eq_true', Bool.not_eq_true']

/-- What the lanes do on their own, the loop lets them do. -/
theorem leads_lanes {lanes : TickLanes} (h : s.lanes.Leads lanes) :
    Leads s { s with lanes := lanes } := by
  obtain ⟨l, hl, hrun⟩ := h
  induction l generalizing s with
  | nil =>
    obtain rfl := Option.some.inj hrun
    exact .refl s
  | cons a l ih =>
    obtain ⟨next, hnext, hrest⟩ := Option.bind_eq_some_iff.1 hrun
    obtain ⟨hcall, hraises⟩ := isPlain_iff.1 (hl a List.mem_cons_self)
    have hstep : s.step (.lanes a) = some { s with lanes := next } := by
      unfold step
      dsimp only
      rw [if_neg (Bool.eq_false_iff.1 hcall), hnext, Option.map_some,
        if_neg (Bool.eq_false_iff.1 hraises)]
    exact (Leads.single (a := .lanes a) (hl a List.mem_cons_self) hstep).trans
      (ih (s := { s with lanes := next }) (fun b hb => hl b (List.mem_cons_of_mem a hb)) hrest)

theorem leads_upkeep {upkeep : TickLanes} (h : s.upkeep.Leads upkeep) :
    Leads s { s with upkeep := upkeep } := by
  obtain ⟨l, hl, hrun⟩ := h
  induction l generalizing s with
  | nil =>
    obtain rfl := Option.some.inj hrun
    exact .refl s
  | cons a l ih =>
    obtain ⟨next, hnext, hrest⟩ := Option.bind_eq_some_iff.1 hrun
    obtain ⟨hcall, hraises⟩ := isPlain_iff.1 (hl a List.mem_cons_self)
    have hstep : s.step (.upkeep a) = some { s with upkeep := next } := by
      unfold step
      dsimp only
      rw [if_neg (Bool.eq_false_iff.1 hcall), hnext, Option.map_some,
        if_neg (Bool.eq_false_iff.1 hraises)]
    exact (Leads.single (a := .upkeep a) (hl a List.mem_cons_self) hstep).trans
      (ih (s := { s with upkeep := next }) (fun b hb => hl b (List.mem_cons_of_mem a hb)) hrest)

/-- The end can be reached. -/
def Stops (s : MainLoop) : Prop := ∃ t, Leads s t ∧ t.phase = .stopped

/-- Both executors have a worker. -/
def HasWorkers (s : MainLoop) : Prop := 0 < s.lanes.maxWorkers ∧ 0 < s.upkeep.maxWorkers

/-- What the loop waits for happens: its calls return. -/
theorem Stops.of_quiet (hworkers : s.HasWorkers)
    (h : ∀ lanes upkeep : TickLanes, lanes.IsQuiet → upkeep.IsQuiet →
      HasWorkers { s with lanes := lanes, upkeep := upkeep } →
        Stops { s with lanes := lanes, upkeep := upkeep }) : Stops s := by
  obtain ⟨lanes, hlanes, hquiet⟩ := TickLanes.leads_quiet s.lanes
  obtain ⟨upkeep, hupkeep, hquiet'⟩ := TickLanes.leads_quiet s.upkeep
  have hboth : Leads s { s with lanes := lanes, upkeep := upkeep } :=
    (leads_lanes hlanes).trans (leads_upkeep (s := { s with lanes := lanes }) hupkeep)
  obtain ⟨t, hthen, hstopped⟩ := h lanes upkeep hquiet hquiet'
    ⟨hlanes.maxWorkers ▸ hworkers.1, hupkeep.maxWorkers ▸ hworkers.2⟩
  exact ⟨t, hboth.trans hthen, hstopped⟩

/-- The loop takes its next step. -/
theorem Stops.of_proceed (hlanes : s.lanes.IsQuiet) (hupkeep : s.upkeep.IsQuiet)
    (h : s.proceed = some t) (hstops : Stops t) : Stops s := by
  obtain ⟨u, hleads, hstopped⟩ := hstops
  exact ⟨u, (Leads.single (a := .proceed) rfl ((if_pos ⟨hlanes, hupkeep⟩).trans h)).trans hleads,
    hstopped⟩

theorem stops_joiningUpkeep (hworkers : s.HasWorkers) (hphase : s.phase = .joiningUpkeep) :
    Stops s := by
  refine .of_quiet hworkers fun lanes upkeep hlanes hupkeep hboth => ?_
  obtain ⟨ended, hleads, hdone, hquiet⟩ := TickLanes.leads_done hboth.2 hupkeep
  have hlast : Stops { s with lanes := lanes, upkeep := ended } := by
    refine .of_proceed hlanes hquiet (t := { s with
      lanes := lanes
      upkeep := ended
      phase := .stopped }) ?_ ⟨_, .refl _, rfl⟩
    unfold proceed
    simp only [hphase]
    exact if_pos hdone
  obtain ⟨t, hthen, hstopped⟩ := hlast
  exact ⟨t, (leads_upkeep (s := { s with lanes := lanes, upkeep := upkeep }) hleads).trans hthen,
    hstopped⟩

theorem stops_joiningTicks (hworkers : s.HasWorkers) (hphase : s.phase = .joiningTicks) :
    Stops s := by
  refine .of_quiet hworkers fun lanes upkeep hlanes hupkeep hboth => ?_
  obtain ⟨ended, hleads, hdone, hquiet⟩ := TickLanes.leads_done hboth.1 hlanes
  have hlast : Stops { s with lanes := ended, upkeep := upkeep } := by
    refine .of_proceed hquiet hupkeep (t := { s with
      lanes := ended
      upkeep := upkeep
      phase := .joiningUpkeep }) ?_ (stops_joiningUpkeep ⟨?_, hboth.2⟩ rfl)
    · unfold proceed
      simp only [hphase]
      exact if_pos hdone
    · exact hleads.maxWorkers ▸ hboth.1
  obtain ⟨t, hthen, hstopped⟩ := hlast
  exact ⟨t, (leads_lanes (s := { s with lanes := lanes, upkeep := upkeep }) hleads).trans hthen,
    hstopped⟩

theorem stops_checking (hworkers : s.HasWorkers) (hstop : s.stop = true)
    (hphase : s.phase = .checking) : Stops s := by
  refine .of_quiet hworkers fun lanes upkeep hlanes hupkeep hboth => ?_
  refine .of_proceed hlanes hupkeep (t := { s with
    lanes := lanes
    upkeep := upkeep
    phase := .joiningTicks }) ?_ (stops_joiningTicks hboth rfl)
  unfold proceed
  simp only [hphase, hstop, if_true]

theorem stops_waiting (hworkers : s.HasWorkers) (hstop : s.stop = true)
    (hphase : s.phase = .waiting) : Stops s := by
  refine .of_quiet hworkers fun lanes upkeep hlanes hupkeep hboth => ?_
  refine .of_proceed hlanes hupkeep (t := { s with
    lanes := lanes
    upkeep := upkeep
    phase := .checking }) ?_ (stops_checking hboth hstop rfl)
  unfold proceed
  simp only [hphase]

theorem stops_counting (hworkers : s.HasWorkers) (hstop : s.stop = true)
    (hphase : s.phase = .counting) : Stops s := by
  refine .of_quiet hworkers fun lanes upkeep hlanes hupkeep hboth => ?_
  by_cases hturn : (s.tickCount + 1) % s.pruneEvery = 0
  · refine .of_proceed hlanes hupkeep (t := { s with
      lanes := lanes
      tickCount := s.tickCount + 1
      upkeep := upkeep.callSubmit housekeepingLane
      housekeepings := s.housekeepings ++ [(upkeep.nextId, s.tickCount + 1)]
      phase := .waiting }) ?_ (stops_waiting hboth hstop rfl)
    unfold proceed
    simp only [hphase]
    exact if_pos hturn
  · refine .of_proceed hlanes hupkeep (t := { s with
      lanes := lanes
      upkeep := upkeep
      tickCount := s.tickCount + 1
      phase := .waiting }) ?_ (stops_waiting hboth hstop rfl)
    unfold proceed
    simp only [hphase]
    exact if_neg hturn

theorem stops_cleaning (hworkers : s.HasWorkers) (hstop : s.stop = true)
    {effective : EffectiveConfig} (hphase : s.phase = .cleaning effective) : Stops s := by
  refine .of_quiet hworkers fun lanes upkeep hlanes hupkeep hboth => ?_
  refine .of_proceed hlanes hupkeep (t := { s with
    lanes := lanes
    upkeep := upkeep.callSubmit cleanupLane
    cleanups := s.cleanups ++ [⟨upkeep.nextId, effective⟩]
    phase := .counting }) ?_ (stops_counting hboth hstop rfl)
  unfold proceed
  simp only [hphase]

/-- On the pools that are left. -/
theorem stops_ticking (hworkers : s.HasWorkers) (hstop : s.stop = true)
    {effective : EffectiveConfig} {left : List PoolConfig}
    (hphase : s.phase = .ticking effective left) : Stops s := by
  induction left generalizing s with
  | nil =>
    refine .of_quiet hworkers fun lanes upkeep hlanes hupkeep hboth => ?_
    refine .of_proceed hlanes hupkeep (t := { s with
      lanes := lanes.callForget (effective.pools.map (·.name))
      upkeep := upkeep
      phase := .cleaning effective }) ?_ (stops_cleaning hboth hstop rfl)
    unfold proceed
    simp only [hphase]
  | cons pool left ih =>
    refine .of_quiet hworkers fun lanes upkeep hlanes hupkeep hboth => ?_
    refine .of_proceed hlanes hupkeep (t := { s with
      lanes := lanes.callSubmit pool.name
      upkeep := upkeep
      ticks := s.ticks ++ [⟨lanes.nextId, pool, effective⟩]
      phase := .ticking effective left }) ?_ (ih hboth hstop rfl)
    unfold proceed
    simp only [hphase]

theorem stops_refreshing (hworkers : s.HasWorkers) (hstop : s.stop = true)
    {effective : EffectiveConfig} (hphase : s.phase = .refreshing effective) : Stops s := by
  refine .of_quiet hworkers fun lanes upkeep hlanes hupkeep hboth => ?_
  cases hpaused : effective.paused with
  | true =>
    refine .of_proceed hlanes hupkeep (t := { s with
      lanes := lanes
      upkeep := upkeep
      cap := effective.maxTotalRunners
      phase := .cleaning effective }) ?_ (stops_cleaning hboth hstop rfl)
    unfold proceed
    simp only [hphase, hpaused, if_true]
  | false =>
    refine .of_proceed hlanes hupkeep (t := { s with
      lanes := lanes
      upkeep := upkeep
      cap := effective.maxTotalRunners
      phase := .ticking effective effective.pools }) ?_ (stops_ticking hboth hstop rfl)
    unfold proceed
    simp only [hphase, hpaused, Bool.false_eq_true, if_false]

theorem stops_readingProtected (hworkers : s.HasWorkers) (hstop : s.stop = true) {db : Database}
    (hdb : s.database = some db) {overrides : Table String OverrideRow}
    {globals : Table String String} {states : Table String PoolState}
    (hphase : s.phase = .readingProtected overrides globals states) : Stops s := by
  refine .of_quiet hworkers fun lanes upkeep hlanes hupkeep hboth => ?_
  cases hresolve : s.resolver.resolve ⟨overrides, globals, states, db.protectedContainers⟩ with
  | error e =>
    refine .of_proceed hlanes hupkeep (t := { s with
      lanes := lanes
      upkeep := upkeep
      phase := .joiningTicks }) ?_ (stops_joiningTicks hboth rfl)
    unfold proceed
    simp only [hphase, hdb, Option.map_some, hresolve]
  | ok effective =>
    refine .of_proceed hlanes hupkeep (t := { s with
      lanes := lanes
      upkeep := upkeep
      phase := .refreshing effective }) ?_ (stops_refreshing hboth hstop rfl)
    unfold proceed
    simp only [hphase, hdb, Option.map_some, hresolve]

theorem stops_readingStates (hworkers : s.HasWorkers) (hstop : s.stop = true) {db : Database}
    (hdb : s.database = some db) {overrides : Table String OverrideRow}
    {globals : Table String String} (hphase : s.phase = .readingStates overrides globals) :
    Stops s := by
  refine .of_quiet hworkers fun lanes upkeep hlanes hupkeep hboth => ?_
  refine .of_proceed hlanes hupkeep (t := { s with
    lanes := lanes
    upkeep := upkeep
    phase := .readingProtected overrides globals db.poolState }) ?_
      (stops_readingProtected hboth hstop hdb rfl)
  unfold proceed
  simp only [hphase, hdb, Option.map_some]

theorem stops_readingGlobals (hworkers : s.HasWorkers) (hstop : s.stop = true) {db : Database}
    (hdb : s.database = some db) {overrides : Table String OverrideRow}
    (hphase : s.phase = .readingGlobals overrides) : Stops s := by
  refine .of_quiet hworkers fun lanes upkeep hlanes hupkeep hboth => ?_
  refine .of_proceed hlanes hupkeep (t := { s with
    lanes := lanes
    upkeep := upkeep
    phase := .readingStates overrides db.globalOverrides }) ?_
      (stops_readingStates hboth hstop hdb rfl)
  unfold proceed
  simp only [hphase, hdb, Option.map_some]

theorem stops_readingOverrides (hworkers : s.HasWorkers) (hstop : s.stop = true)
    (hphase : s.phase = .readingOverrides) : Stops s := by
  refine .of_quiet hworkers fun lanes upkeep hlanes hupkeep hboth => ?_
  cases hdb : s.database with
  | none =>
    refine .of_proceed hlanes hupkeep (t := { s with
      lanes := lanes
      upkeep := upkeep
      phase := .refreshing s.resolver.resolveWithoutStore }) ?_ (stops_refreshing hboth hstop rfl)
    unfold proceed
    simp only [hphase, hdb]
  | some db =>
    refine .of_proceed hlanes hupkeep (t := { s with
      lanes := lanes
      upkeep := upkeep
      phase := .readingGlobals db.poolOverrides }) ?_ (stops_readingGlobals hboth hstop hdb rfl)
    unfold proceed
    simp only [hphase, hdb]

/-- **A loop that was told to stop can always come to its end.** -/
theorem stops_of_stop (hworkers : s.HasWorkers) (hstop : s.stop = true)
    (hstored : s.phase.readsOn = true → s.database.isSome = true) : Stops s := by
  cases hphase : s.phase with
  | checking => exact stops_checking hworkers hstop hphase
  | readingOverrides => exact stops_readingOverrides hworkers hstop hphase
  | readingGlobals overrides =>
    obtain ⟨db, hdb⟩ := Option.isSome_iff_exists.1 (hstored (hphase ▸ rfl))
    exact stops_readingGlobals hworkers hstop hdb hphase
  | readingStates overrides globals =>
    obtain ⟨db, hdb⟩ := Option.isSome_iff_exists.1 (hstored (hphase ▸ rfl))
    exact stops_readingStates hworkers hstop hdb hphase
  | readingProtected overrides globals states =>
    obtain ⟨db, hdb⟩ := Option.isSome_iff_exists.1 (hstored (hphase ▸ rfl))
    exact stops_readingProtected hworkers hstop hdb hphase
  | refreshing effective => exact stops_refreshing hworkers hstop hphase
  | ticking effective left => exact stops_ticking hworkers hstop hphase
  | cleaning effective => exact stops_cleaning hworkers hstop hphase
  | counting => exact stops_counting hworkers hstop hphase
  | waiting => exact stops_waiting hworkers hstop hphase
  | joiningTicks => exact stops_joiningTicks hworkers hphase
  | joiningUpkeep => exact stops_joiningUpkeep hworkers hphase
  | stopped => exact ⟨s, .refl s, hphase⟩

/-! ### What every step keeps -/

/-- A loop that goes on reading has a store. -/
theorem stored_step (h : s.phase.readsOn = true → s.database.isSome = true) {a : LoopAction}
    (hstep : s.step a = some t) : t.phase.readsOn = true → t.database.isSome = true := by
  cases step_cases hstep with
  | signal => exact h
  | edit hdb => exact fun _ => rfl
  | lanes hcall hlanes | upkeep hcall hupkeep =>
    intro hreads
    dsimp only at hreads ⊢
    split_ifs at hreads with hraises
    · cases hreads
    · exact h hreads
  | readRaises hreading => nofun
  | proceed hlanes hupkeep hproceeds =>
    cases hproceeds with
    | checks hphase =>
      intro hreads
      dsimp only at hreads
      split_ifs at hreads <;> cases hreads
    | readsOverrides hphase hdb | readsGlobals hphase hdb | readsStates hphase hdb =>
      exact fun _ => hdb ▸ rfl
    | _ => nofun

/-- The workers stay as many as they are. -/
theorem hasWorkers_step (h : s.HasWorkers) {a : LoopAction} (hstep : s.step a = some t) :
    t.HasWorkers := by
  cases step_cases hstep with
  | lanes hcall hlanes => exact ⟨(TickLanes.step_frame hlanes).maxWorkers ▸ h.1, h.2⟩
  | upkeep hcall hupkeep => exact ⟨h.1, (TickLanes.step_frame hupkeep).maxWorkers ▸ h.2⟩
  | proceed hlanes hupkeep hproceeds => cases hproceeds <;> exact h
  | _ => exact h

/-- The loop is told to stop, and has counted no more than one round since it was at `n`. -/
structure LastRound (n : ℕ) (s : MainLoop) : Prop where
  told : s.stop = true
  counted : s.tickCount = n ∨ s.tickCount = n + 1 ∧
    (s.phase = .waiting ∨ s.phase = .checking ∨ s.phase.hasLeft = true)

theorem LastRound.step {n : ℕ} (h : LastRound n s) {a : LoopAction} (hstep : s.step a = some t) :
    LastRound n t := by
  obtain ⟨htold, hcounted⟩ := h
  cases step_cases hstep with
  | signal => exact ⟨rfl, hcounted⟩
  | edit hdb => exact ⟨htold, hcounted⟩
  | lanes hcall hlanes | upkeep hcall hupkeep =>
    refine ⟨htold, hcounted.imp_right fun ⟨hcount, hphase⟩ => ⟨hcount, ?_⟩⟩
    dsimp only
    split_ifs
    · exact .inr (.inr rfl)
    · exact hphase
  | readRaises hreading => exact ⟨htold, hcounted.imp_right fun h => ⟨h.1, .inr (.inr rfl)⟩⟩
  | proceed hlanes hupkeep hproceeds =>
    cases hproceeds with
    | checks hphase =>
      refine ⟨htold, hcounted.imp_right fun h => ⟨h.1, .inr (.inr ?_)⟩⟩
      dsimp only
      rw [if_pos htold]
      rfl
    | counts hphase hturn | keepsHouse hphase hturn =>
      refine ⟨htold, .inr ⟨?_, .inl rfl⟩⟩
      rcases hcounted with hcount | ⟨-, hlater⟩
      · exact congrArg (· + 1) hcount
      · rw [hphase] at hlater
        rcases hlater with h | h | h <;> cases h
    | wakes hphase => exact ⟨htold, hcounted.imp_right fun h => ⟨h.1, .inr (.inl rfl)⟩⟩
    | joinsTicks hphase hdone | joinsUpkeep hphase hdone =>
      exact ⟨htold, hcounted.imp_right fun h => ⟨h.1, .inr (.inr rfl)⟩⟩
    | _ hphase =>
      refine ⟨htold, .inl (hcounted.resolve_right fun h => ?_)⟩
      rcases h.2 with h | h | h <;> rw [hphase] at h <;> cases h

/-- What a loop that was left has asked for, it has asked for. -/
structure LeftWith (s t : MainLoop) : Prop where
  left : t.phase.hasLeft = true
  ticks : t.ticks = s.ticks
  cleanups : t.cleanups = s.cleanups
  housekeepings : t.housekeepings = s.housekeepings

theorem LeftWith.step (h : LeftWith s t) {a : LoopAction} (hstep : t.step a = some u) :
    LeftWith s u := by
  cases step_cases hstep with
  | signal | edit hdb => exact { h with }
  | lanes hcall hlanes | upkeep hcall hupkeep =>
    refine { h with left := ?_ }
    dsimp only
    split_ifs
    · rfl
    · exact h.left
  | readRaises hreading => exact { h with left := rfl }
  | proceed hlanes hupkeep hproceeds =>
    have hleft := h.left
    cases hproceeds with
    | joinsTicks hphase hdone | joinsUpkeep hphase hdone => exact { h with left := rfl }
    | _ hphase =>
      rw [hphase] at hleft
      cases hleft

/-- What has been waited for is over. -/
structure Joined (s : MainLoop) : Prop where
  ticks : s.phase = .joiningUpkeep ∨ s.phase = .stopped →
    s.lanes.IsQuiet ∧ s.lanes.IsDone ∧ s.upkeep.IsQuiet
  upkeep : s.phase = .stopped → s.upkeep.IsDone

theorem Joined.of_phase (hupkeep : s.phase ≠ .joiningUpkeep) (hstopped : s.phase ≠ .stopped) :
    Joined s :=
  ⟨fun h => absurd h (not_or.2 ⟨hupkeep, hstopped⟩), fun h => absurd h hstopped⟩

theorem Joined.step (h : Joined s) {a : LoopAction} (hstep : s.step a = some t) : Joined t := by
  cases step_cases hstep with
  | signal | edit hdb => exact ⟨h.ticks, h.upkeep⟩
  | @lanes a lanes hcall hlanes =>
    cases hraises : a.raises with
    | true => exact .of_phase nofun nofun
    | false =>
      -- lanes that are done let nothing happen
      refine ⟨fun hphase => ?_, h.upkeep⟩
      obtain ⟨hquiet, hdone, -⟩ := h.ticks hphase
      exact absurd hdone (hquiet.step hcall hlanes).2.2
  | @upkeep a upkeep hcall hupkeep =>
    cases hraises : a.raises with
    | true => exact .of_phase nofun nofun
    | false =>
      refine ⟨fun hphase => ?_, fun hphase => ?_⟩
      · obtain ⟨hquiet, hdone, hupkeepQuiet⟩ := h.ticks hphase
        exact ⟨hquiet, hdone, (hupkeepQuiet.step hcall hupkeep).1⟩
      · have hquiet := (h.ticks (.inr hphase)).2.2
        exact absurd (h.upkeep hphase) (hquiet.step hcall hupkeep).2.2
  | readRaises hreading => exact .of_phase nofun nofun
  | proceed hlanes hupkeep hproceeds =>
    cases hproceeds with
    | checks hphase =>
      by_cases hstop : s.stop = true
      · rw [if_pos hstop]
        exact .of_phase nofun nofun
      · rw [if_neg hstop]
        exact .of_phase nofun nofun
    | joinsTicks hphase hdone => exact ⟨fun _ => ⟨hlanes, hdone, hupkeep⟩, nofun⟩
    | joinsUpkeep hphase hdone => exact ⟨fun _ => h.ticks (.inl hphase), fun _ => hdone⟩
    | _ => exact .of_phase nofun nofun

/-! ### Shutting down -/

/-- At any moment of a run: what becomes of the loop when it is told to stop. -/
structure ShutsDown (s : MainLoop) : Prop where
  /-- It can come to an end, by steps of its own and of its lanes. -/
  ends : s.stop = true → Stops s
  /-- It counts no more than the round it is in. -/
  lastRound : s.stop = true → ∀ l t, run step s l = some t → t.tickCount ≤ s.tickCount + 1
  /-- Once it is left, nothing more is asked for. -/
  left : s.phase.hasLeft = true → ∀ l t, run step s l = some t → LeftWith s t
  /-- At its end the jobs that were accepted have run, each once. -/
  drained : s.phase = .stopped → ∀ job,
    ((job, true) ∈ s.lanes.returned →
      s.lanes.started.count job = 1 ∧ job ∈ s.lanes.finished.map Prod.fst) ∧
    ((job, true) ∈ s.upkeep.returned →
      s.upkeep.started.count job = 1 ∧ job ∈ s.upkeep.finished.map Prod.fst)

/-- **The loop shuts down cleanly**, in every interleaving in which no `executor.submit` raises with
its job on the queue. -/
theorem shuts_down (resolver : ConfigResolver) (database : Option Database) (pruneEvery : ℕ)
    {workers : ℕ} (hworkers : 0 < workers) {l : List LoopAction}
    (hok : Along step LeavesNone (init resolver database pruneEvery workers) l)
    (h : run step (init resolver database pruneEvery workers) l = some s) : ShutsDown s := by
  have hphase : (init resolver database pruneEvery workers).phase = .checking := rfl
  have hinv : LoopInv s :=
    run_invariant (fun _ _ _ hu hv hstep => hu.step hv hstep) (loopInv_init _ _ _ _) hok h
  have hjoined : Joined s :=
    run_invariant (fun _ _ _ hu _ hstep => hu.step hstep)
      (.of_phase (hphase ▸ nofun) (hphase ▸ nofun)) hok h
  have hstored : s.phase.readsOn = true → s.database.isSome = true :=
    run_invariant (I := fun s => s.phase.readsOn = true → s.database.isSome = true)
      (fun _ _ _ hu _ hstep => stored_step hu hstep) (hphase ▸ nofun) hok h
  have hboth : s.HasWorkers :=
    run_invariant (I := HasWorkers) (fun _ _ _ hu _ hstep => hasWorkers_step hu hstep)
      ⟨hworkers, Nat.zero_lt_two⟩ hok h
  refine ⟨fun hstop => stops_of_stop hboth hstop hstored, fun hstop l' t hrun => ?_,
    fun hleft l' t hrun => ?_, fun hstopped job => ?_⟩
  · have hany : Along step (fun _ _ => True) s l' := along_of_forall (fun _ _ => trivial) s l'
    have hlast : LastRound s.tickCount t :=
      run_invariant (fun _ _ _ hu _ hstep => hu.step hstep) ⟨hstop, .inl rfl⟩ hany hrun
    rcases hlast.counted with hcount | ⟨hcount, -⟩ <;> omega
  · have hany : Along step (fun _ _ => True) s l' := along_of_forall (fun _ _ => trivial) s l'
    exact run_invariant (fun _ _ _ hu _ hstep => LeftWith.step hu hstep) ⟨hleft, rfl, rfl, rfl⟩
      hany hrun
  · obtain ⟨-, hdone, -⟩ := hjoined.ticks (.inr hstopped)
    exact ⟨hinv.lanes.drained hdone, hinv.upkeep.drained (hjoined.upkeep hstopped)⟩

/-- One round in which the loop is told to stop, up to its end. -/
def lastRound : List LoopAction := List.flatten [
  [.proceed, .proceed, .signal, .proceed, .proceed], takenJob.map .lanes,
  [.proceed, .lanes (.takeLock 0), .lanes .release, .proceed], takenJob.map .upkeep,
  [.proceed, .proceed, .proceed, .lanes (.endJob 0 .raisesException), .proceed],
  [.upkeep (.endJob 0 .returns), .proceed]]

theorem shuts_down_lastRound : ∃ s, run step (init onePoolResolver none 2 8) lastRound = some s ∧
    s.stop = true ∧ s.phase = .stopped ∧ ShutsDown s := by
  have hworkers : 0 < 8 := by decide
  refine ⟨_, rfl, rfl, rfl, shuts_down onePoolResolver none 2 hworkers (l := lastRound)
    (by decide +kernel) rfl⟩

end MainLoop

end RunnerSwarm
