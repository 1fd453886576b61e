import RunnerSwarm.Daemon.Rounds
import RunnerSwarm.Docker.AgeLimits
import RunnerSwarm.Scaler.HotHost
import RunnerSwarm.Server.Removal

/-!
# Controls reach the loop

The API writes rows, and the loop reads them in its next round: `resolve` reads the four tables at
four moments, and the jobs that are asked for carry what it made of them. So what is known of each
table from some moment on is known of the configuration of every later round
(`Afterwards.since`), while a round that was under way may go on with older rows.

* `Since.step`: every step keeps what is known of what is asked for, while the facts are kept;
* `stopped_pool`: a pool that was paused, drained or removed is so for every later tick;
* `protection_binds`: no later cleanup touches a protected container, nor the orchestrator's own.

Facts about two tables at once would not do: `resolve` can read one before and the other after.
-/

namespace RunnerSwarm

/-! ### Facts about the tables -/

/-- What is known of the tables, of each on its own. -/
structure TableFacts where
  overrides : Table String OverrideRow → Prop := fun _ => True
  globals : Table String String → Prop := fun _ => True
  states : Table String PoolState → Prop := fun _ => True
  protectedContainers : List String → Prop := fun _ => True

/-- They hold of a database. -/
structure TableFacts.Hold (F : TableFacts) (db : Database) : Prop where
  overrides : F.overrides db.poolOverrides
  globals : F.globals db.globalOverrides
  states : F.states db.poolState
  protectedContainers : F.protectedContainers db.protectedContainers

/-- A configuration that is made from tables of which they hold. -/
def TableFacts.Resolved (F : TableFacts) (r : ConfigResolver) (e : EffectiveConfig) : Prop :=
  ∃ db, F.Hold db ∧ r.resolve db = .ok e

/-- A tick of a pool of such a configuration. -/
structure TableFacts.Explains (F : TableFacts) (r : ConfigResolver) (tick : SubmittedTick) :
    Prop where
  resolved : F.Resolved r tick.effective
  notPaused : tick.effective.paused = false
  mem : tick.pool ∈ tick.effective.pools

namespace LoopPhase

/-- Between two rounds: the loop has nothing in hand of what it has read. -/
def isBetween : LoopPhase → Bool
  | .checking => true
  | .readingOverrides => true
  | .counting => true
  | .waiting => true
  | .joiningTicks => true
  | .joiningUpkeep => true
  | .stopped => true
  | _ => false

/-- They hold of what the loop has read. -/
def Knows (F : TableFacts) (r : ConfigResolver) : LoopPhase → Prop
  | .readingGlobals overrides => F.overrides overrides
  | .readingStates overrides globals => F.overrides overrides ∧ F.globals globals
  | .readingProtected overrides globals states =>
      F.overrides overrides ∧ F.globals globals ∧ F.states states
  | .refreshing e => F.Resolved r e
  | .ticking e left => F.Resolved r e ∧ e.paused = false ∧ left <:+ e.pools
  | .cleaning e => F.Resolved r e
  | _ => True

theorem knows_of_isBetween {F : TableFacts} {r : ConfigResolver} {phase : LoopPhase}
    (h : phase.isBetween = true) : phase.Knows F r := by
  cases phase with
  | readingGlobals | readingStates | readingProtected => cases h
  | refreshing | ticking | cleaning => cases h
  | _ => trivial

end LoopPhase

namespace MainLoop

variable {F : TableFacts} {s t u : MainLoop}

/-- Whoever writes to the database leaves it so that they hold. -/
def KeepsFacts (F : TableFacts) (_ : MainLoop) (a : LoopAction) : Prop :=
  ∀ db, a = .edit db → F.Hold db

/-- Nobody writes to it. -/
theorem keepsFacts_of_silent {l : List LoopAction} (h : ∀ a ∈ l, ∀ db, a ≠ .edit db) :
    Along step (KeepsFacts F) s l := by
  have hall : ∀ a ∈ l, ∀ db, a = .edit db → F.Hold db := fun a ha db heq =>
    absurd heq (h a ha db)
  exact along_of_actions hall s

/-- What is asked for after `s`, up to `t`, is made from tables of which they hold. -/
structure Since (F : TableFacts) (s t : MainLoop) : Prop where
  database : ∃ db, t.database = some db ∧ F.Hold db
  resolver : t.resolver = s.resolver
  knows : t.phase.Knows F s.resolver
  ticks : ∃ later, t.ticks = s.ticks ++ later ∧ ∀ tick ∈ later, F.Explains s.resolver tick
  cleanups : ∃ later, t.cleanups = s.cleanups ++ later ∧
    ∀ c ∈ later, F.Resolved s.resolver c.effective

namespace Since

theorem refl {db : Database} (hdb : s.database = some db) (hfacts : F.Hold db)
    (hbetween : s.phase.isBetween = true) : Since F s s where
  database := ⟨db, hdb, hfacts⟩
  resolver := rfl
  knows := LoopPhase.knows_of_isBetween hbetween
  ticks := ⟨[], (List.append_nil _).symm, fun _ h => absurd h List.not_mem_nil⟩
  cleanups := ⟨[], (List.append_nil _).symm, fun _ h => absurd h List.not_mem_nil⟩

/-- The loop goes on with what it knows. -/
theorem goes (h : Since F s t) {phase : LoopPhase} {stop : Bool} {cap : ℤ} {tickCount : ℕ}
    {lanes upkeep : TickLanes} {housekeepings : List (ℕ × ℕ)} (hknows : phase.Knows F s.resolver) :
    Since F s { t with phase := phase, stop := stop, cap := cap, tickCount := tickCount,
                       lanes := lanes, upkeep := upkeep, housekeepings := housekeepings } :=
  { h with knows := hknows }

theorem proceeds (h : Since F s t) (hstep : Proceeds t u) : Since F s u := by
  obtain ⟨db', hdb', hfacts⟩ := h.database
  have hknows := h.knows
  cases hstep with
  | checks hphase =>
    refine h.goes ?_
    split_ifs <;> trivial
  | noStore hphase hdb =>
    rw [hdb'] at hdb
    cases hdb
  | readsOverrides hphase hdb =>
    obtain rfl := Option.some.inj (hdb'.symm.trans hdb)
    exact h.goes hfacts.overrides
  | readsGlobals hphase hdb =>
    obtain rfl := Option.some.inj (hdb'.symm.trans hdb)
    rw [hphase] at hknows
    exact h.goes ⟨hknows, hfacts.globals⟩
  | readsStates hphase hdb =>
    obtain rfl := Option.some.inj (hdb'.symm.trans hdb)
    rw [hphase] at hknows
    exact h.goes ⟨hknows.1, hknows.2, hfacts.states⟩
  | @resolves _ overrides globals states effective hphase hdb hresolve =>
    obtain rfl := Option.some.inj (hdb'.symm.trans hdb)
    rw [hphase] at hknows
    rw [h.resolver] at hresolve
    have hread : F.Hold ⟨overrides, globals, states, db'.protectedContainers⟩ :=
      ⟨hknows.1, hknows.2.1, hknows.2.2, hfacts.protectedContainers⟩
    exact h.goes ⟨_, hread, hresolve⟩
  | pauses hphase hpaused =>
    rw [hphase] at hknows
    exact h.goes hknows
  | goesOn hphase hpaused =>
    rw [hphase] at hknows
    exact h.goes ⟨hknows, hpaused, List.suffix_rfl⟩
  | @submits effective pool left hphase =>
    rw [hphase] at hknows
    obtain ⟨hresolved, hpaused, hsuffix⟩ := hknows
    obtain ⟨later, hticks, hall⟩ := h.ticks
    let new : SubmittedTick := ⟨t.lanes.nextId, pool, effective⟩
    refine { h with
      knows := ⟨hresolved, hpaused, (List.suffix_cons pool left).trans hsuffix⟩
      ticks := ⟨later ++ [new], ?_, fun tick htick => ?_⟩ }
    · show t.ticks ++ [new] = s.ticks ++ (later ++ [new])
      rw [hticks, List.append_assoc]
    · rcases List.mem_append.1 htick with hold | hnew
      · exact hall tick hold
      · rw [List.mem_singleton.1 hnew]
        exact ⟨hresolved, hpaused, hsuffix.subset List.mem_cons_self⟩
  | forgets hphase =>
    rw [hphase] at hknows
    exact h.goes hknows.1
  | @cleans effective hphase =>
    rw [hphase] at hknows
    obtain ⟨later, hcleanups, hall⟩ := h.cleanups
    let new : SubmittedCleanup := ⟨t.upkeep.nextId, effective⟩
    refine { h with knows := trivial, cleanups := ⟨later ++ [new], ?_, fun c hc => ?_⟩ }
    · show t.cleanups ++ [new] = s.cleanups ++ (later ++ [new])
      rw [hcleanups, List.append_assoc]
    · rcases List.mem_append.1 hc with hold | hnew
      · exact hall c hold
      · rw [List.mem_singleton.1 hnew]
        exact hknows
  | _ => exact h.goes trivial

/-- **Every step keeps it** while the facts are kept. -/
theorem step (h : Since F s t) {a : LoopAction} (hkeeps : KeepsFacts F t a)
    (hstep : t.step a = some u) : Since F s u := by
  cases step_cases hstep with
  | signal => exact h.goes h.knows
  | @edit database hdb => exact { h with database := ⟨database, rfl, hkeeps database rfl⟩ }
  | lanes hcall hlanes | upkeep hcall hupkeep =>
    refine h.goes ?_
    split_ifs
    · trivial
    · exact h.knows
  | proceed hlanes hupkeep hproceeds => exact h.proceeds hproceeds
  | readRaises hreading => exact h.goes trivial

end Since

/-- The facts stay true. -/
theorem holds_step {db : Database} (hdb : s.database = some db) (hfacts : F.Hold db)
    {a : LoopAction} (hkeeps : KeepsFacts F s a) (hstep : s.step a = some t) :
    ∃ db, t.database = some db ∧ F.Hold db := by
  cases step_cases hstep with
  | @edit database => exact ⟨database, rfl, hkeeps database rfl⟩
  | proceed hlanes hupkeep hproceeds => cases hproceeds <;> exact ⟨db, hdb, hfacts⟩
  | _ => exact ⟨db, hdb, hfacts⟩

/-- The round that is under way at `s` comes to its end at `u`, and the loop goes on to `t`. Whoever
writes to the database leaves it so that the facts hold. -/
structure Afterwards (F : TableFacts) (s u t : MainLoop) (l l' : List LoopAction) : Prop where
  ends : run step s l = some u
  between : u.phase.isBetween = true
  goesOn : run step u l' = some t
  keeps : Along step (KeepsFacts F) s l
  keepsOn : Along step (KeepsFacts F) u l'

/-- **From the next round on** the facts hold of what is asked for. -/
theorem Afterwards.since {l l' : List LoopAction} (h : Afterwards F s u t l l') {db : Database}
    (hdb : s.database = some db) (hfacts : F.Hold db) : Since F u t := by
  obtain ⟨db', hdb', hfacts'⟩ : ∃ db, u.database = some db ∧ F.Hold db :=
    run_invariant (I := fun s => ∃ db, s.database = some db ∧ F.Hold db)
      (fun _ _ _ ⟨_, hdb, hfacts⟩ hkeeps hstep => holds_step hdb hfacts hkeeps hstep)
      ⟨db, hdb, hfacts⟩ h.keeps h.ends
  exact run_invariant (fun _ _ _ h hkeeps hstep => h.step hkeeps hstep)
    (.refl hdb' hfacts' h.between) h.keepsOn h.goesOn

theorem Afterwards.resolver {l l' : List LoopAction} (h : Afterwards F s u t l l') :
    u.resolver = s.resolver :=
  run_invariant (I := fun t => t.resolver = s.resolver)
    (fun _ _ _ hsame _ hstep => (step_settings hstep).2.trans hsame) rfl h.keeps h.ends

end MainLoop

/-! ### Ticks of a stopped pool -/

namespace TickInput

variable {t : TickInput}

theorem effects_of_paused (ρ : Rounding) (h : t.state.paused = true) : t.effects ρ = {} := by
  unfold effects
  rw [if_pos h]

theorem started_of_draining (ρ : Rounding) (h : t.state.draining = true) :
    (t.effects ρ).started = 0 := by
  unfold effects
  split_ifs with hpaused hpoll hpersonal
  · rfl
  · rfl
  · cases t.repositories with
    | error e => rfl
    | ok repos =>
      dsimp only
      split_ifs with hnil
      · rfl
      · exact (tickPersonal_started_eq_zero_iff repos).2 (.inl h)
  · rw [h, Bool.true_or]
    exact tickSingle_stopped

end TickInput

/-- The job of a tick: `scaler.tick(pool, state)`. -/
def SubmittedTick.Runs (tick : SubmittedTick) (input : TickInput) : Prop :=
  input.pool = tick.pool ∧ input.state = tick.state

/-! ### Requests -/

/-- The flags a request asks for; those it leaves out stay. -/
def askedState (db : Database) (r : Request) (name : String) : PoolState :=
  let current := (db.poolState.get name).getD {}
  { paused := (getItem r.jsonBody "paused").elim current.paused pyBool
    draining := (getItem r.jsonBody "draining").elim current.draining pyBool }

/-- The row of a pool has these flags. -/
def stateFacts (name : String) (st : PoolState) : TableFacts where
  states rows := rows.get name = some st

/-- All provisioning is paused. -/
def pauseFacts : TableFacts where
  globals rows := rows.get "paused" = some "1"

/-- No row and no pool of `config.yml` makes a pool of the name. -/
def removalFacts (encodable : String → Prop) (bases : List PoolConfig) (name : String) :
    TableFacts where
  overrides rows := SoundOverlay encodable rows ∧ Gone bases name rows

/-- The container is protected. -/
def protectionFacts (name : String) : TableFacts where
  protectedContainers names := name ∈ names

/-- Flags stand under another name that the database takes for this one. -/
def Store.MistakesState (s : Store) (name : String) : Prop := s.poolState.Clash s.weight name

instance (s : Store) (name : String) : Decidable (s.MistakesState name) :=
  inferInstanceAs (Decidable (s.poolState.Clash s.weight name))

/-- A container is protected whose name the database takes for this one. -/
def Store.MistakesProtected (s : Store) (name : String) : Prop :=
  ∃ other ∈ s.protectedContainers, s.weight other = s.weight name ∧ other ≠ name

instance (s : Store) (name : String) : Decidable (s.MistakesProtected name) :=
  inferInstanceAs
    (Decidable (∃ other ∈ s.protectedContainers, s.weight other = s.weight name ∧ other ≠ name))

/-- A request whose acceptance stops a pool, with the facts it leaves in the tables, and whether the
pool only drains: then it is still cleaned up. The database takes no name with a row for the
pool's. -/
inductive StopsPool (name : String) (q : ControlRequest) (w : World) : TableFacts → Bool → Prop
  | paused {st : PoolState} (hroute : q.route = .setPoolState name)
      (hname : ¬ w.store.MistakesState name)
      (hasked : askedState w.store.toDatabase q.request name = st) (hpaused : st.paused = true) :
      StopsPool name q w (stateFacts name st) false
  | draining {st : PoolState} (hroute : q.route = .setPoolState name)
      (hname : ¬ w.store.MistakesState name)
      (hasked : askedState w.store.toDatabase q.request name = st)
      (hdraining : st.draining = true) : StopsPool name q w (stateFacts name st) true
  | allPaused (hroute : q.route = .globalPause)
      (hasked : (getItem q.request.jsonBody "paused").elim true pyBool = true) :
      StopsPool name q w pauseFacts false
  | removed {encodable : String → Prop} (hroute : q.route = .removePool name)
      (hname : ¬ w.store.MistakesPool name) (hencodes : Encodes encodable q.deps.resolver)
      (hsound : SoundOverlay encodable w.store.poolOverrides)
      (hall : RemovesAll q.deps.resolver.basePools name w) :
      StopsPool name q w (removalFacts encodable q.deps.resolver.basePools name) false

namespace ControlRequest

variable {q : ControlRequest} {w : World} {name : String}

/-- An accepted request for a pool's flags stores the flags it asks for. -/
theorem state_of_accepted (hroute : q.route = .setPoolState name)
    (hname : ¬ w.store.MistakesState name) (h : q.Accepted w) :
    (q.run w).2.store.poolState.get name =
      some (askedState w.store.toDatabase q.request name) := by
  obtain ⟨response, hresponse, hlow, hhigh⟩ := h
  have hplain : Site.isIdempotent q.route = false := by
    rw [hroute]
    rfl
  unfold run at hresponse ⊢
  rw [q.deps.run_controlView q.docker hplain] at hresponse ⊢
  rw [hroute] at hresponse ⊢
  unfold Deps.responded at hresponse ⊢
  dsimp only [Site.handler] at hresponse ⊢
  unfold Site.setPoolState at hresponse ⊢
  rw [Site.poolByName, Program.run_bind, Program.run_bind, Site.run_resolve] at hresponse ⊢
  cases heffective : q.deps.resolver.resolve w.store.toDatabase with
  | error e =>
    rw [heffective] at hresponse
    cases hresponse
  | ok effective =>
    rw [heffective] at hresponse
    dsimp only [Program.run_pure] at hresponse ⊢
    cases hfind : effective.pools.find? fun p => p.name = name with
    | none =>
      rw [hfind] at hresponse
      obtain rfl := Except.ok.inj hresponse
      have hrefused : 404 < 300 := hhigh
      exact absurd hrefused (by decide)
    | some pool =>
      obtain ⟨_, _, _, _, _, _, _, _, rfl⟩ := resolve_inv heffective
      dsimp only
      rw [Program.run_bind, Site.run_resolve, heffective]
      exact (Table.get_put _ _ _ _).trans (if_pos (Table.spelling_eq hname).symm)

/-- A request to pause all provisioning stores the flag. -/
theorem pause_of_asked (hroute : q.route = .globalPause)
    (hasked : (getItem q.request.jsonBody "paused").elim true pyBool = true) :
    (q.run w).2.store.globalOverrides.get "paused" = some "1" := by
  unfold run
  rw [q.deps.run_controlView q.docker (by rw [hroute]; rfl), hroute]
  unfold Deps.responded
  dsimp only [Site.handler]
  unfold Site.globalPause
  rw [hasked]
  exact (Table.get_put _ _ _ _).trans (if_pos rfl)

/-- An accepted request to protect a runner stores its name. -/
theorem protected_of_accepted (hroute : q.route = .protectContainer name)
    (hname : ¬ w.store.MistakesProtected name) (h : q.Accepted w)
    (hasked : (getItem q.request.jsonBody "protected").elim true pyBool = true) :
    name ∈ (q.run w).2.store.protectedContainers := by
  obtain ⟨response, hresponse, hlow, hhigh⟩ := h
  have hplain : Site.isIdempotent q.route = false := by
    rw [hroute]
    rfl
  unfold run at hresponse ⊢
  rw [q.deps.run_controlView q.docker hplain, hroute] at hresponse ⊢
  unfold Deps.responded at hresponse ⊢
  dsimp only [Site.handler] at hresponse ⊢
  unfold Site.protectContainer at hresponse ⊢
  by_cases hrunner : isRunnerContainer name = true
  · rw [hrunner, hasked]
    show name ∈ if w.store.weight name ∈ w.store.protectedContainers.map w.store.weight then
      w.store.protectedContainers else w.store.protectedContainers ++ [name]
    split_ifs with hmem
    · obtain ⟨other, hother, hweight⟩ := List.mem_map.1 hmem
      have hsame : other = name := by
        by_contra hne
        exact hname ⟨other, hother, hweight, hne⟩
      exact hsame ▸ hother
    · exact List.mem_append_right _ List.mem_cons_self
  · rw [Bool.not_eq_true] at hrunner
    rw [hrunner] at hresponse
    obtain rfl := Except.ok.inj hresponse
    have hrefused : 400 < 300 := hhigh
    exact absurd hrefused (by decide)

end ControlRequest

/-- **What an accepted request leaves in the tables.** -/
theorem StopsPool.hold {name : String} {q : ControlRequest} {w : World} {F : TableFacts}
    {drains : Bool} (h : StopsPool name q w F drains) (haccepted : q.Accepted w) :
    F.Hold (q.run w).2.store.toDatabase := by
  cases h with
  | paused hroute hname hasked | draining hroute hname hasked =>
    refine ⟨trivial, trivial, ?_, trivial⟩
    exact (ControlRequest.state_of_accepted hroute hname haccepted).trans (congrArg some hasked)
  | allPaused hroute hasked =>
    exact ⟨trivial, ControlRequest.pause_of_asked hroute hasked, trivial, trivial⟩
  | removed hroute hname hencodes hsound hall =>
    refine ⟨⟨?_, gone_of_removed hsound hroute haccepted hall hname⟩, trivial, trivial, trivial⟩
    exact sound_step (a := .request q) hsound hencodes rfl

/-! ### Binding requests -/

/-- What is excluded is not removed. -/
theorem not_mem_cleanupAged {listed : CommandResult (List (String × String))} {limit : ℤ}
    {exclude : List String} {name : String} (h : name ∈ exclude) :
    name ∉ cleanupAged listed limit exclude := by
  unfold cleanupAged
  split_ifs
  · exact List.not_mem_nil
  · intro hmem
    obtain ⟨row, hrow, rfl⟩ := List.mem_map.1 hmem
    have hkept := (List.mem_filter.1 hrow).2
    simp [h] at hkept

namespace MainLoop

variable {s u t : MainLoop} {l l' : List LoopAction} {F : TableFacts} {q : ControlRequest}
  {w : World} {name : String}

/-- **A stopped pool stays stopped**: after an accepted request that pauses, drains or removes a
pool, or pauses all of them, the ticks of the later rounds start nothing of it, and do nothing at
all unless it drains. -/
theorem stopped_pool {drains : Bool} (hstops : StopsPool name q w F drains)
    (haccepted : q.Accepted w) (hdb : s.database = some (q.run w).2.store.toDatabase)
    (hresolver : s.resolver = q.deps.resolver) (h : Afterwards F s u t l l') :
    ∃ later, t.ticks = u.ticks ++ later ∧ ∀ tick ∈ later, tick.pool.name = name →
      ∀ (ρ : Rounding) (input : TickInput), tick.Runs input →
        (input.effects ρ).started = 0 ∧ (drains = false → input.effects ρ = {}) := by
  have hsince := h.since hdb (hstops.hold haccepted)
  obtain ⟨later, hticks, hall⟩ := hsince.ticks
  refine ⟨later, hticks, fun tick htick hname ρ input hruns => ?_⟩
  obtain ⟨⟨db, hfacts, hresolve⟩, hnotPaused, hmem⟩ := hall tick htick
  obtain ⟨_, _, _, _, _, _, _, he⟩ := resolve_inv hresolve
  cases hstops with
  | @paused st hroute hname' hasked hpaused =>
    have hstate : tick.state = st := by
      unfold SubmittedTick.state EffectiveConfig.stateFor
      rw [he, hname]
      exact congrArg (·.getD {}) hfacts.states
    have hnothing := TickInput.effects_of_paused ρ (t := input) (by rw [hruns.2, hstate, hpaused])
    exact ⟨by rw [hnothing]; rfl, fun _ => hnothing⟩
  | @draining st hroute hname' hasked hdraining =>
    have hstate : tick.state = st := by
      unfold SubmittedTick.state EffectiveConfig.stateFor
      rw [he, hname]
      exact congrArg (·.getD {}) hfacts.states
    exact ⟨TickInput.started_of_draining ρ (by rw [hruns.2, hstate, hdraining]), nofun⟩
  | allPaused hroute hasked =>
    -- a tick is asked for in an unpaused round only
    have hpaused : tick.effective.paused = true := by
      rw [he]
      have hflag : db.globalOverrides.get "paused" = some "1" := hfacts.globals
      exact decide_eq_true (congrArg (·.getD "0") hflag)
    exact absurd hpaused (by rw [hnotPaused]; exact Bool.false_ne_true)
  | removed hroute hname' hencodes hsound hall =>
    obtain ⟨hsoundThen, hgone⟩ := hfacts.overrides
    obtain ⟨e, hresolve', hnone⟩ := noPool_of_gone hencodes hsoundThen hgone
    rw [h.resolver, hresolver, hresolve'] at hresolve
    obtain rfl := Except.ok.inj hresolve
    exact absurd hname (hnone _ hmem)

/-- The pool is paused over the API. -/
def pausePool : ControlRequest where
  deps := onePool
  route := .setPoolState "ci"
  request := { method := .post, path := ["api", "pools", "ci", "state"], body := some (.dict
    [("paused", .bool true)]) }

/-- The loop of a server with one pool, after the request. -/
def loopAfter (q : ControlRequest) : MainLoop :=
  init onePool.resolver (some (q.run .empty).2.store.toDatabase) 2 8

/-- One round, up to where its tick is asked for. -/
theorem stopped_pool_pausePool :
    ∃ t, run step (loopAfter pausePool) (List.replicate 7 .proceed) = some t ∧
      t.ticks.map (·.pool.name) = ["ci"] ∧ ∃ later, t.ticks = [] ++ later ∧
        ∀ tick ∈ later, tick.pool.name = "ci" → ∀ (ρ : Rounding) (input : TickInput),
          tick.Runs input →
            (input.effects ρ).started = 0 ∧ (false = false → input.effects ρ = {}) := by
  have hrun : (run step (loopAfter pausePool) (List.replicate 7 .proceed)).map
      (·.ticks.map (·.pool.name)) = some ["ci"] := by
    decide +kernel
  obtain ⟨t, h, hnames⟩ := Option.map_eq_some_iff.1 hrun
  have hstops : StopsPool "ci" pausePool .empty (stateFacts "ci" ⟨true, false⟩) false :=
    .paused rfl (by decide) (by decide) rfl
  have hsilent : ∀ a ∈ List.replicate 7 LoopAction.proceed, ∀ db, a ≠ .edit db := fun a ha => by
    rw [List.eq_of_mem_replicate ha]
    nofun
  exact ⟨t, h, hnames, stopped_pool (u := loopAfter pausePool) (l := []) hstops
    ⟨_, rfl, by decide, by decide⟩ rfl rfl ⟨rfl, rfl, h, trivial, keepsFacts_of_silent hsilent⟩⟩

/-- **A protected container is spared**: after an accepted request to protect it, where the database
takes no protected name for its own, no cleanup of the later rounds removes it, at any age, nor the
orchestrator's own. -/
theorem protection_binds (hroute : q.route = .protectContainer name)
    (hname : ¬ w.store.MistakesProtected name)
    (hasked : (getItem q.request.jsonBody "protected").elim true pyBool = true)
    (haccepted : q.Accepted w) (hdb : s.database = some (q.run w).2.store.toDatabase)
    (h : Afterwards (protectionFacts name) s u t l l') :
    ∃ later, t.cleanups = u.cleanups ++ later ∧ ∀ c ∈ later, ∀ listed,
      name ∉ cleanupAged listed c.effective.maxRunnerLifetime c.exclude ∧
        orchestratorContainer ∉ cleanupAged listed c.effective.maxRunnerLifetime c.exclude := by
  have hstored := ControlRequest.protected_of_accepted hroute hname haccepted hasked
  obtain ⟨later, hcleanups, hall⟩ := (h.since hdb ⟨trivial, trivial, trivial, hstored⟩).cleanups
  refine ⟨later, hcleanups, fun c hc listed => ?_⟩
  obtain ⟨db, hfacts, hresolve⟩ := hall c hc
  obtain ⟨_, _, _, _, _, _, _, he⟩ := resolve_inv hresolve
  have hspared : name ∈ c.exclude := by
    unfold SubmittedCleanup.exclude
    rw [he]
    exact List.mem_cons_of_mem _ hfacts.protectedContainers
  exact ⟨not_mem_cleanupAged hspared, not_mem_cleanupAged List.mem_cons_self⟩

/-- A round with its tick and its cleanup. -/
def cleanupRound : List LoopAction := List.flatten [
  List.replicate 7 .proceed, takenJob.map .lanes,
  [.proceed, .lanes (.takeLock 0), .lanes .release, .proceed]]

/-- A runner is protected over the API. -/
def protectRunner : ControlRequest where
  deps := onePool
  route := .protectContainer "gh-runner-ci-1"
  request := { method := .post, path := ["api", "runners", "gh-runner-ci-1", "protect"] }

/-- A round with its cleanup. -/
theorem protection_binds_protectRunner :
    ∃ t, run step (loopAfter protectRunner) cleanupRound = some t ∧ t.cleanups.length = 1 ∧
      ∃ later, t.cleanups = [] ++ later ∧ ∀ c ∈ later, ∀ listed,
        "gh-runner-ci-1" ∉ cleanupAged listed c.effective.maxRunnerLifetime c.exclude ∧
          orchestratorContainer ∉ cleanupAged listed c.effective.maxRunnerLifetime c.exclude := by
  have hrun : (run step (loopAfter protectRunner) cleanupRound).map (·.cleanups.length) =
      some 1 := by
    decide +kernel
  obtain ⟨t, h, hlen⟩ := Option.map_eq_some_iff.1 hrun
  have hsilent : ∀ a ∈ cleanupRound, ∀ db, a ≠ .edit db := by
    simp [cleanupRound, takenJob]
  exact ⟨t, h, hlen, protection_binds (u := loopAfter protectRunner) (q := protectRunner)
    (w := .empty) (l := []) rfl (by decide) rfl ⟨_, rfl, by decide, by decide⟩ rfl
    ⟨rfl, rfl, h, trivial, keepsFacts_of_silent hsilent⟩⟩

end MainLoop

end RunnerSwarm
