import RunnerSwarm.Scaler.GlobalCap

/-!
# Manual spawns

`POST /api/pools/{name}/scale` starts a runner from a thread of the API server. It calls
`spawn_runner` itself and takes no part in the reservations of the ticks, while the cap is announced
as a hard ceiling on all running containers.

`Serving` is the scaler with any number of such requests beside its ticks. `WithinCap` says what a
step owes to the cap, of the states before and after it, and `RoomLeft` when the code pays it:

* `respects_iff_roomLeft`: step by step, and so along every run, the two are the same;
* `manual_within_cap`: in a run in which there is always room, everything that exists or is being
  started, by ticks or by hand, stays within the cap;
* `not_manual_within_cap`: a request on a full host.
-/

namespace RunnerSwarm.Scaler

/-! ### Requests beside ticks -/

/-- What `scale_pool` has looked up: the pool of the name, and `delta` when it is an integer. -/
structure ScaleRequest where
  pool : Option PoolConfig
  delta : Option ℤ
  deriving DecidableEq

/-- The pool to spawn for. Any other request is refused, or stops a runner. -/
def ScaleRequest.spawns : ScaleRequest → Option PoolConfig
  | ⟨some pool, some 1⟩ => some pool
  | _ => none

/-- The scaler and the requests of the API server; `manual k` is the pool whose `spawn_runner` the
request `k` is in. -/
structure Serving (ι κ : Type*) where
  scaler : Scaler ι
  manual : κ → Option PoolConfig

inductive ServingAction (ι κ : Type*)
  | tick (a : CapAction ι)
  | request (k : κ) (r : ScaleRequest)
  | spawnEnds (k : κ) (outcome : SpawnOutcome)

/-- The cap is not changed. -/
def ServingAction.KeepsCap {ι κ : Type*} : ServingAction ι κ → Prop
  | .tick (.setCap _) => False
  | _ => True

namespace Serving

section Steps

variable {ι κ : Type*} [DecidableEq ι] [DecidableEq κ]

def step (s : Serving ι κ) : ServingAction ι κ → Option (Serving ι κ)
  | .tick a => (s.scaler.step a).map fun t => { s with scaler := t }
  | .request k r =>
      match s.manual k with
      | some _ => none
      | none =>
          match r.spawns with
          | none => some s
          | some pool => some { s with manual := Function.update s.manual k (some pool) }
  | .spawnEnds k outcome =>
      match s.manual k with
      | none => none
      | some _ => some
          { scaler := { s.scaler with
              live := if outcome = .started then s.scaler.live + 1 else s.scaler.live }
            manual := Function.update s.manual k none }

omit [DecidableEq ι] [DecidableEq κ] in
/-- The daemon before its first tick and its first request. -/
def init (cap : ℤ) (live : ℕ) : Serving ι κ := ⟨Scaler.init cap live, fun _ => none⟩

end Steps

variable {ι κ : Type*} [DecidableEq ι] [Fintype ι] [DecidableEq κ] [Fintype κ]

/-- One for a request that is in `spawn_runner`. -/
def busy (m : Option PoolConfig) : ℕ := if m.isSome then 1 else 0

/-- The manual spawns in flight. -/
def inFlight (s : Serving ι κ) : ℕ := total busy s.manual

/-- Everything that exists or is being started. -/
def allLoad (s : Serving ι κ) : ℕ := load s.scaler + s.inFlight

/-! ### What a step owes to the cap -/

/-- The cap is reached by what is running, what ticks have reserved and the manual spawns in
flight. -/
def Full (s : Serving ι κ) : Prop :=
  0 < s.scaler.maxTotalRunners ∧
    s.scaler.maxTotalRunners ≤ ((s.scaler.live + s.scaler.reservedSpawns + s.inFlight : ℕ) : ℤ)

/-- What a step from `s` to `t` owes to the cap: a container is started by hand only below it, and
a lane is granted only slots that are left beside the manual spawns. -/
structure WithinCap (s t : Serving ι κ) : Prop where
  manual : ∀ k, s.manual k = none → t.manual k ≠ none → 0 < s.scaler.maxTotalRunners →
    ((s.scaler.live + s.scaler.reservedSpawns + s.inFlight : ℕ) : ℤ) < s.scaler.maxTotalRunners
  grants : ∀ i plan cap listed, (s.scaler.ticks i).phase = .reserving plan cap listed → 0 < cap →
    (s.scaler.ticks i).granted < (t.scaler.ticks i).granted →
    ((s.allLoad + ((t.scaler.ticks i).granted - (s.scaler.ticks i).granted) : ℕ) : ℤ) ≤ cap

/-- What the step does is within the cap. -/
def Respects (s : Serving ι κ) (a : ServingAction ι κ) : Prop :=
  ∀ t, s.step a = some t → s.WithinCap t

/-- No scale-up comes on a full host. What a tick has counted covers the manual spawns too, or all
the runners it wants fit beside them, or it finds no room at all. -/
def RoomLeft (s : Serving ι κ) : ServingAction ι κ → Prop
  | .request k r => s.Full → s.manual k = none → r.spawns = none
  | .tick (.grant i) =>
      match (s.scaler.ticks i).phase with
      | .reserving plan cap (some listed) =>
          cap ≤ 0 ∨ plan.toSpawn = 0 ∨ headroom cap listed s.scaler.reservedSpawns = 0 ∨
            s.allLoad ≤ listed + s.scaler.reservedSpawns ∨
            ((s.allLoad + plan.toSpawn : ℕ) : ℤ) ≤ cap
      | _ => True
  | _ => True

omit [Fintype ι] in
theorem granted_of_update {s t : Scaler ι} {j : ι} {u : Tick}
    (ht : t.ticks = Function.update s.ticks j u) (hu : u.granted = (s.ticks j).granted) (i : ι) :
    (t.ticks i).granted = (s.ticks i).granted := by
  rw [ht]
  by_cases hij : i = j
  · subst hij
    rw [Function.update_self, hu]
  · rw [Function.update_of_ne hij]

omit [Fintype ι] in
/-- Slots are granted by `grant` alone. -/
theorem granted_eq {s t : Scaler ι} {a : CapAction ι} {i : ι} (h : s.step a = some t)
    (ha : a ≠ .grant i) : (t.ticks i).granted = (s.ticks i).granted := by
  cases step_cases h with
  | setCap => rfl
  | containerExits => rfl
  | @grant j plan cap listed g hph hg =>
    have hij : i ≠ j := fun hij => ha (hij ▸ rfl)
    show (Function.update s.ticks j ((s.ticks j).enterLoop plan g) i).granted = _
    rw [Function.update_of_ne hij]
  | @workerReleases j _ hret hv => exact granted_of_update (releaseSpawns_ticks hv) rfl i
  | @tickReleases j _ _ _ hph hdone hv => exact granted_of_update (releaseSpawns_ticks hv) rfl i
  | beginTick => exact granted_of_update rfl (by rfl) i
  | nothingToSpawn => exact granted_of_update rfl (by rfl) i
  | takeLock => exact granted_of_update rfl (by rfl) i
  | listContainers => exact granted_of_update rfl (by rfl) i
  | listRaises => exact granted_of_update rfl (by rfl) i
  | submit => exact granted_of_update rfl (by rfl) i
  | submitRaises => exact granted_of_update rfl (by rfl) i
  | loopEnds => exact granted_of_update rfl (by rfl) i
  | takeJob => exact granted_of_update rfl (by rfl) i
  | jobEnds => exact granted_of_update rfl (by rfl) i

variable {s t : Serving ι κ} {a : ServingAction ι κ}

omit [DecidableEq ι] [DecidableEq κ] in
/-- A step that starts nothing by hand and grants nothing. -/
theorem withinCap_of_quiet (hmanual : ∀ k, s.manual k = none → t.manual k = none)
    (hgranted : ∀ i, (t.scaler.ticks i).granted = (s.scaler.ticks i).granted) : s.WithinCap t where
  manual := fun k hidle hbusy => absurd (hmanual k hidle) hbusy
  grants := fun i _ _ _ _ _ hlt => absurd hlt (by rw [hgranted i]; exact lt_irrefl _)

/-- A request is within the cap unless it starts a container on a full host. -/
theorem respects_request_iff {k : κ} {r : ScaleRequest} :
    s.Respects (.request k r) ↔ s.RoomLeft (.request k r) := by
  constructor
  · intro h hfull hidle
    by_contra hspawns
    obtain ⟨pool, hpool⟩ := Option.ne_none_iff_exists'.1 hspawns
    have hstep : s.step (.request k r) =
        some { s with manual := Function.update s.manual k (some pool) } := by
      unfold Serving.step
      dsimp only
      rw [hidle, hpool]
    have hbusy : Function.update s.manual k (some pool) k ≠ none := by
      rw [Function.update_self]
      exact Option.some_ne_none pool
    exact absurd hfull.2 (not_le.2 ((h _ hstep).manual k hidle hbusy hfull.1))
  · intro h t ht
    unfold Serving.step at ht
    dsimp only at ht
    cases hidle : s.manual k with
    | some pool =>
      rw [hidle] at ht
      cases ht
    | none =>
      rw [hidle] at ht
      cases hspawns : r.spawns with
      | none =>
        rw [hspawns] at ht
        cases ht
        exact withinCap_of_quiet (fun _ hk => hk) fun _ => rfl
      | some pool =>
        rw [hspawns] at ht
        cases ht
        refine ⟨fun _ _ _ hcap => ?_, fun _ _ _ _ _ _ hlt => absurd hlt (lt_irrefl _)⟩
        by_contra hroom
        have hnone := h ⟨hcap, not_lt.1 hroom⟩ hidle
        rw [hspawns] at hnone
        cases hnone

omit [DecidableEq κ] in
/-- What a grant of `g` slots owes to the cap. -/
theorem withinCap_grant_iff {i : ι} {plan : TickPlan} {cap : ℤ} {listed : Option ℕ} {g : ℕ}
    {u : Scaler ι} (hph : (s.scaler.ticks i).phase = .reserving plan cap listed)
    (hu : u.ticks = Function.update s.scaler.ticks i ((s.scaler.ticks i).enterLoop plan g)) :
    s.WithinCap { s with scaler := u } ↔ (0 < cap → 0 < g → ((s.allLoad + g : ℕ) : ℤ) ≤ cap) := by
  have hmore : (u.ticks i).granted = (s.scaler.ticks i).granted + g := by
    rw [hu, Function.update_self]
    rfl
  constructor
  · intro h hcap hpos
    have hle := h.grants i plan cap listed hph hcap (by
      show _ < (u.ticks i).granted
      omega)
    have hdiff : (u.ticks i).granted - (s.scaler.ticks i).granted = g := by omega
    rw [← hdiff]
    exact hle
  · intro h
    refine ⟨fun _ hidle hbusy => absurd hidle hbusy, fun j plan' cap' listed' hj hcap hlt => ?_⟩
    by_cases hji : j = i
    · subst hji
      rw [hph] at hj
      cases hj
      have hlt' : (s.scaler.ticks j).granted < (u.ticks j).granted := hlt
      have hdiff : (u.ticks j).granted - (s.scaler.ticks j).granted = g := by omega
      have hle := h hcap (by omega)
      rw [← hdiff] at hle
      exact hle
    · -- the other lanes are granted nothing
      have hsame : (u.ticks j).granted = (s.scaler.ticks j).granted := by
        rw [hu, Function.update_of_ne hji]
      exact absurd hlt (by
        show ¬ (s.scaler.ticks j).granted < (u.ticks j).granted
        rw [hsame]
        exact lt_irrefl _)

/-- A grant is within the cap where its count covers the manual spawns, or they do not matter. -/
theorem respects_grant_iff {i : ι} :
    s.Respects (.tick (.grant i)) ↔ s.RoomLeft (.tick (.grant i)) := by
  unfold Respects RoomLeft Serving.step Scaler.step
  dsimp only
  cases hph : (s.scaler.ticks i).phase with
  | reserving plan cap listed =>
    cases listed with
    | none =>
      refine ⟨fun _ => trivial, fun _ t ht => ?_⟩
      obtain ⟨u, hu, rfl⟩ := Option.map_eq_some_iff.1 ht
      obtain ⟨g, hg, rfl⟩ := Option.map_eq_some_iff.1 hu
      refine (withinCap_grant_iff (g := g) hph rfl).2 fun hcap _ => ?_
      -- without a count nothing is granted under a positive cap
      unfold grantedSlots at hg
      dsimp only at hg
      rw [if_pos hcap] at hg
      cases hg
    | some listed =>
      unfold grantedSlots
      dsimp only [Option.map_some]
      constructor
      · intro h
        by_contra hno
        simp only [not_or, not_le] at hno
        obtain ⟨hcap, hwant, hroom, hcover, hfit⟩ := hno
        have hle := (withinCap_grant_iff hph rfl).1 (h _ rfl) hcap (by omega)
        unfold headroom at hroom hle
        omega
      · intro h t ht
        obtain rfl := Option.some.inj ht
        refine (withinCap_grant_iff hph rfl).2 fun hcap hpos => ?_
        unfold headroom at h hpos ⊢
        omega
  | _ => exact ⟨fun _ => trivial, fun _ _ ht => (Option.not_mem_none _ ht).elim⟩

/-- **The cap is respected exactly where there is room.** -/
theorem respects_iff_roomLeft : s.Respects a ↔ s.RoomLeft a := by
  cases a with
  | request k r => exact respects_request_iff
  | spawnEnds k outcome =>
    refine ⟨fun _ => trivial, fun _ t ht => ?_⟩
    unfold Serving.step at ht
    dsimp only at ht
    split at ht
    · cases ht
    · cases ht
      refine withinCap_of_quiet (fun j hj => ?_) fun _ => rfl
      show Function.update s.manual k none j = none
      by_cases hjk : j = k
      · subst hjk
        rw [Function.update_self]
      · rw [Function.update_of_ne hjk, hj]
  | tick c =>
    by_cases hgrant : ∃ i, c = .grant i
    · obtain ⟨i, rfl⟩ := hgrant
      exact respects_grant_iff
    · have hroom : s.RoomLeft (.tick c) := by
        cases c with
        | grant i => exact absurd ⟨i, rfl⟩ hgrant
        | _ => trivial
      refine ⟨fun _ => hroom, fun _ t ht => ?_⟩
      obtain ⟨u, hu, rfl⟩ := Option.map_eq_some_iff.1 ht
      exact withinCap_of_quiet (fun _ hk => hk)
        fun i => granted_eq hu fun hc => hgrant ⟨i, hc⟩

/-! ### Runs -/

/-- `docker ps` lists every container whose `docker run` has returned, and `submit` does not raise.
-/
def ServingOk (s : Serving ι κ) : ServingAction ι κ → Prop
  | .tick a => CapOk s.scaler a
  | _ => True

/-- A state of a run under a constant cap. -/
structure Within (cap bound : ℤ) (s : Serving ι κ) : Prop where
  ledger : Ledger s.scaler
  cap_eq : s.scaler.maxTotalRunners = cap
  read : ∀ i plan c listed, (s.scaler.ticks i).phase = .reserving plan c listed → c = cap
  bounded : (s.allLoad : ℤ) ≤ bound

omit [DecidableEq ι] [DecidableEq κ] in
theorem within_init (cap : ℤ) (live : ℕ) :
    Within cap (max cap live) (init cap live : Serving ι κ) where
  ledger := ledger_init cap live
  cap_eq := rfl
  read := fun _ _ _ _ hph => by cases hph
  bounded := by
    have hload := (capped_init cap live : Capped cap (max cap live) (Scaler.init cap live :
      Scaler ι)).bounded
    have hnone : (init cap live : Serving ι κ).inFlight = 0 := total_eq_zero fun _ => rfl
    unfold allLoad
    rw [hnone, Nat.add_zero]
    exact hload

omit [DecidableEq κ] [Fintype κ] in
/-- A grant adds what it gives. -/
theorem load_grant_le (h : Ledger s.scaler) {u : Scaler ι} {i : ι}
    (hstep : s.scaler.step (.grant i) = some u) :
    load u + (s.scaler.ticks i).granted ≤ load s.scaler + (u.ticks i).granted := by
  cases step_cases hstep with
  | @grant _ plan cap listed g hph hg =>
    have hw : (s.scaler.ticks i).phase.hasWorkers = false := by rw [hph]; rfl
    have hzero := (h.ticks i).held_eq_zero hw
    have hle := (s.scaler.ticks i).unfinished_le_held
    obtain ⟨hunf, -⟩ := Tick.enterLoop_held (h.ticks i) hw (grantedSlots_le hg)
    have hmore : total Tick.unfinished
        (Function.update s.scaler.ticks i ((s.scaler.ticks i).enterLoop plan g)) =
        total Tick.unfinished s.scaler.ticks + g := total_update_more (by omega)
    have hgranted : (Function.update s.scaler.ticks i
        ((s.scaler.ticks i).enterLoop plan g) i).granted = (s.scaler.ticks i).granted + g := by
      rw [Function.update_self]
      rfl
    show s.scaler.live + total Tick.unfinished
      (Function.update s.scaler.ticks i ((s.scaler.ticks i).enterLoop plan g)) + _ ≤
      _ + (Function.update s.scaler.ticks i ((s.scaler.ticks i).enterLoop plan g) i).granted
    unfold load
    omega

theorem Within.tick {cap bound : ℤ} {c : CapAction ι} {u : Scaler ι} (h : Within cap bound s)
    (hcap : 0 < cap) (hle : cap ≤ bound) (hok : CapOk s.scaler c)
    (hrespects : s.Respects (.tick c)) (hkeep : ∀ n, c ≠ .setCap n)
    (hstep : s.scaler.step c = some u) : Within cap bound { s with scaler := u } := by
  obtain ⟨hcap', hread⟩ := read_step h.ledger hok.submitOk hstep h.cap_eq hkeep h.read
  refine ⟨h.ledger.step hok.submitOk hstep, hcap', hread, ?_⟩
  have hbound := h.bounded
  show ((load u + s.inFlight : ℕ) : ℤ) ≤ bound
  unfold allLoad at hbound
  by_cases hgrant : ∃ i, c = .grant i ∧ (s.scaler.ticks i).granted < (u.ticks i).granted
  · obtain ⟨i, rfl, hpos⟩ := hgrant
    obtain ⟨plan, n, listed, hph⟩ := grant_phase hstep
    obtain rfl := h.read i plan n listed hph
    have hstep' : s.step (.tick (.grant i)) = some { s with scaler := u } :=
      Option.map_eq_some_iff.2 ⟨u, hstep, rfl⟩
    have hfits : ((s.allLoad + ((u.ticks i).granted - (s.scaler.ticks i).granted) : ℕ) : ℤ) ≤ n :=
      (hrespects _ hstep').grants i plan n listed hph hcap hpos
    have hload := load_grant_le h.ledger hstep
    unfold allLoad at hfits
    omega
  · have hload := load_step h.ledger hok hstep
      fun i hi => not_lt.1 fun hpos => hgrant ⟨i, hi, hpos⟩
    omega

theorem Within.step {cap bound : ℤ} (h : Within cap bound s) (hcap : 0 < cap) (hle : cap ≤ bound)
    (hok : s.ServingOk a) (hrespects : s.Respects a) (hkeep : a.KeepsCap)
    (hstep : s.step a = some t) : Within cap bound t := by
  cases a with
  | tick c =>
    obtain ⟨u, hu, rfl⟩ := Option.map_eq_some_iff.1 hstep
    refine h.tick hcap hle hok hrespects (fun n hn => ?_) hu
    rw [hn] at hkeep
    exact hkeep
  | request k r =>
    have hstep' := hstep
    unfold Serving.step at hstep
    dsimp only at hstep
    cases hidle : s.manual k with
    | some pool => rw [hidle] at hstep; cases hstep
    | none =>
      rw [hidle] at hstep
      cases hspawns : r.spawns with
      | none =>
        rw [hspawns] at hstep
        cases hstep
        exact h
      | some pool =>
        rw [hspawns] at hstep
        cases hstep
        refine ⟨h.ledger, h.cap_eq, h.read, ?_⟩
        have hbusy : Function.update s.manual k (some pool) k ≠ none := by
          rw [Function.update_self]
          exact Option.some_ne_none pool
        -- the slots of the ticks are reserved, so the request has counted them
        have hroom := (hrespects _ hstep').manual k hidle hbusy (h.cap_eq ▸ hcap)
        have hreserved := h.ledger.unfinished_le
        have hmore : total busy (Function.update s.manual k (some pool)) =
            total busy s.manual + 1 := total_update_more (by rw [hidle]; rfl)
        have hcap' := h.cap_eq
        unfold inFlight at hroom
        show ((load s.scaler + total busy (Function.update s.manual k (some pool)) : ℕ) : ℤ) ≤ bound
        unfold load
        omega
  | spawnEnds k outcome =>
    unfold Serving.step at hstep
    dsimp only at hstep
    cases hbusy : s.manual k with
    | none => rw [hbusy] at hstep; cases hstep
    | some pool =>
      rw [hbusy] at hstep
      cases hstep
      refine ⟨⟨h.ledger.ticks, h.ledger.reserved, h.ledger.lock⟩, h.cap_eq, h.read, ?_⟩
      have hless : total busy (Function.update s.manual k none) + 1 = total busy s.manual :=
        total_update_less (by rw [hbusy]; rfl)
      have hbound := h.bounded
      unfold allLoad load inFlight at hbound
      show (((if outcome = .started then s.scaler.live + 1 else s.scaler.live) +
        total Tick.unfinished s.scaler.ticks +
        total busy (Function.update s.manual k none) : ℕ) : ℤ) ≤ bound
      split_ifs <;> omega

/-- **Manual spawns and the cap.** The steps of a run respect the cap if and only if each finds room
for what it starts; and in such a run under a constant cap, what exists or is being started by ticks
or by hand never exceeds the larger of the cap and the initial number of containers. -/
theorem manual_within_cap (cap : ℤ) (live : ℕ) (l : List (ServingAction ι κ)) :
    (Along step Respects (init cap live) l ↔ Along step RoomLeft (init cap live) l) ∧
    ∀ s : Serving ι κ, run step (init cap live) l = some s → 0 < cap → (∀ a ∈ l, a.KeepsCap) →
      Along step ServingOk (init cap live) l → Along step RoomLeft (init cap live) l →
      (s.allLoad : ℤ) ≤ max cap live := by
  have hiff : Along step Respects (init cap live) l ↔ Along step RoomLeft (init cap live) l :=
    along_congr (fun _ _ => respects_iff_roomLeft) _ _
  refine ⟨hiff, fun s hrun hcap hkeep hok hroom => ?_⟩
  have hsteps := along_and (along_and hok (hiff.2 hroom)) (along_of_actions hkeep (init cap live))
  exact (run_invariant (fun _ _ _ hs ha hst =>
    hs.step hcap (le_max_left _ _) ha.1.1 ha.1.2 ha.2 hst)
      (within_init cap live) hsteps hrun).bounded

/-! ### A request on a full host -/

/-- A tick counts while a manual spawn is in flight, and then another request comes. -/
def besideTick : List (ServingAction Unit Bool) :=
  [.request false ⟨some (samplePool "a" 1), some 1⟩, .tick (.beginTick () (samplePlan "a" 1)),
    .tick (.takeLock ()), .tick (.listContainers () 0), .tick (.grant ()),
    .spawnEnds false .started, .request true ⟨some (samplePool "a" 1), some 1⟩]

instance (s : Serving ι κ) : Decidable s.Full :=
  inferInstanceAs (Decidable (0 < s.scaler.maxTotalRunners ∧
    s.scaler.maxTotalRunners ≤ ((s.scaler.live + s.scaler.reservedSpawns + s.inFlight : ℕ) : ℤ)))

instance (s : Serving ι κ) (a : ServingAction ι κ) : Decidable (s.RoomLeft a) := by
  unfold RoomLeft
  split
  · infer_instance
  · split <;> infer_instance
  · infer_instance

instance (s : Serving ι κ) (a : ServingAction ι κ) : Decidable (s.ServingOk a) := by
  unfold ServingOk
  split <;> infer_instance

/-- Under a cap of 1 the tick of `besideTick` is granted a slot beside the manual spawn, and the
second request finds a runner. -/
theorem not_manual_within_cap :
    ¬ ∀ (l : List (ServingAction Unit Bool)) (s : Serving Unit Bool),
      run step (init 1 0) l = some s → Along step ServingOk (init 1 0) l →
      Along step Respects (init 1 0) l := by
  intro h
  obtain ⟨s, hs⟩ := Option.isSome_iff_exists.1
    (show (run step (init 1 0) besideTick).isSome = true from rfl)
  have hroom := (along_congr (fun _ _ => respects_iff_roomLeft) _ _).1
    (h besideTick s hs (by decide))
  exact absurd hroom (by decide)

/-- Under a cap of 3 there is room for all of it. -/
theorem manual_within_cap_three :
    Along step Respects (init 3 0) besideTick ∧
    ∃ s : Serving Unit Bool, run step (init 3 0) besideTick = some s ∧
      (s.allLoad : ℤ) ≤ max 3 (0 : ℕ) := by
  have hcap := manual_within_cap 3 0 besideTick
  have hroom : Along step RoomLeft (init 3 0) besideTick := by decide
  refine ⟨hcap.1.2 hroom, ?_⟩
  obtain ⟨s, hs⟩ := Option.isSome_iff_exists.1
    (show (run step (init 3 0) besideTick).isSome = true from rfl)
  refine ⟨s, hs, hcap.2 s hs (by decide) (fun a ha => ?_) (by decide) hroom⟩
  simp only [besideTick, List.mem_cons, List.not_mem_nil, or_false] at ha
  rcases ha with rfl | rfl | rfl | rfl | rfl | rfl | rfl <;> trivial

end Serving

end RunnerSwarm.Scaler
