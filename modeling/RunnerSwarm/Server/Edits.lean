import RunnerSwarm.Server.ControlRoutes

/-!
# What a control endpoint does to the configuration

The configuration is four tables: overrides, globals, pool states and protected containers. `Edit`
is one change of one of them, and `Edits` says for each endpoint which edit it makes and what it has
checked before.

* `handled_handler`: an endpoint that makes one edit refuses with a 4xx, raises, or makes the edit
  and records it; in the first two cases nothing has changed;
* `setGlobals_run`: `PATCH /api/config/globals` stores one value after the other, up to the first one
  it does not accept;
* `keepsConfig_stop`, `keepsConfig_scalePool`: to stop, restart or scale changes no table of the
  configuration.
-/

namespace RunnerSwarm

/-! ### Edits -/

/-- One change of the configuration. -/
inductive Edit
  | setOverride (pool : String) (data : Json) (origin : String) (disabled : Bool)
  | deleteOverride (pool : String)
  | setGlobal (key value : String)
  | setState (pool : String) (paused draining : Bool)
  | setProtected (container : String) (isProtected : Bool)

def Edit.apply (s : Store) : Edit → Store
  | setOverride pool data origin disabled => s.setPoolOverride pool data origin disabled
  | deleteOverride pool => s.deletePoolOverride pool
  | setGlobal key value => s.setGlobal key value
  | setState pool paused draining => s.setPoolState pool paused draining
  | setProtected container isProtected => s.setProtected container isProtected

/-- An edit leaves the audit log to the handler. -/
@[simp] theorem Edit.apply_auditLog (s : Store) (e : Edit) : (e.apply s).auditLog = s.auditLog := by
  cases e <;> rfl

/-- The action an endpoint records. -/
def ControlRoute.actions : ControlRoute → List String
  | .stopContainer _ => ["stop"]
  | .restartContainer _ => ["restart"]
  | .protectContainer _ => ["protect", "unprotect"]
  | .setPoolState _ => ["pool_state"]
  | .scalePool _ => ["scale_up", "scale_down"]
  | .globalPause => ["global_pause"]
  | .patchPool _ => ["config_patch"]
  | .resetPool _ => ["config_reset"]
  | .createPool => ["config_create_pool"]
  | .removePool _ => ["config_remove_pool"]
  | .patchGlobals => ["config_globals"]

/-- The endpoints that make one edit. -/
def ControlRoute.isEdit : ControlRoute → Bool
  | .protectContainer _ | .setPoolState _ | .globalPause | .patchPool _ | .resetPool _ => true
  | .createPool | .removePool _ => true
  | .stopContainer _ | .restartContainer _ | .scalePool _ | .patchGlobals => false

/-- The other endpoints act on containers, or store several values. -/
theorem ControlRoute.kinds (route : ControlRoute) :
    Site.isIdempotent route = true ∨ route.isEdit = true ∨ route = .patchGlobals := by
  cases route <;> simp [Site.isIdempotent, isEdit]

theorem ControlRoute.isIdempotent_of_isEdit {route : ControlRoute} (h : route.isEdit = true) :
    Site.isIdempotent route = false := by
  cases route <;> simp_all [Site.isIdempotent, isEdit]

/-- The target an endpoint records. -/
def ControlRoute.target (r : Request) : ControlRoute → String
  | .stopContainer name | .restartContainer name | .protectContainer name => name
  | .setPoolState name | .scalePool name | .patchPool name | .resetPool name => name
  | .removePool name => name
  | .createPool => Site.createdName r
  | .globalPause | .patchGlobals => ""

/-- The row is about this request. -/
def Describes (r : Request) (clock : Clock) (route : ControlRoute) (row : AuditRow) : Prop :=
  row.ts = clock.served ∧ row.actor = r.actorName ∧ row.action ∈ route.actions ∧
    row.target = route.target r

/-- The world after an edit and its row in the audit log. -/
def World.edited (w : World) (e : Edit) (row : AuditRow) : World :=
  { w with store := { e.apply w.store with auditLog := w.store.auditLog ++ [row] } }

/-! ### The handlers -/

@[simp] theorem run_readStore {α : Type} (f : Store → α) (w : World) :
    (readStore f).run w = (.ok (f w.store), w) := rfl

@[simp] theorem run_readStore_bind {α β : Type} (f : Store → α) (k : α → Control β) (w : World) :
    (readStore f >>= k).run w = (k (f w.store)).run w := rfl

@[simp] theorem run_writeStore_bind {β : Type} (f : Store → Store) (k : Unit → Control β)
    (w : World) : (writeStore f >>= k).run w = (k ()).run { w with store := f w.store } := rfl

@[simp] theorem run_poolOverrides (w : World) :
    poolOverrides.run w = (readOverrides w.store.poolOverrides.rows, w) := by
  unfold poolOverrides
  rw [run_readStore_bind, Program.run_ofExcept]

@[simp] theorem Site.run_resolve (site : Site) (w : World) :
    site.resolve.run w = (site.resolver.resolve w.store.toDatabase, w) := by
  unfold Site.resolve
  rw [run_readStore_bind, run_readStore_bind, run_readStore_bind, run_readStore_bind,
    Program.run_ofExcept]

/-- The row of the overrides for a name, as `pool_overrides()` returns it. -/
def Database.entry (db : Database) (name : String) : Except PyError (Option OverrideEntry) :=
  entryFor name <$> readOverrides db.poolOverrides.rows

theorem entry_of_readOverrides {db : Database} (name : String)
    {overrides : List (String × OverrideEntry)}
    (h : readOverrides db.poolOverrides.rows = .ok overrides) :
    db.entry name = .ok (entryFor name overrides) := by
  unfold Database.entry
  rw [h]
  rfl

namespace Site

variable (site : Site) (docker : DockerAnswers) (clock : Clock) (r : Request)

/-- What is checked from the candidate on. -/
def Approves (name : String) (data : List (String × Json)) (origin : String)
    (candidate : PoolConfig) : Prop :=
  candidatePool site.resolver name data origin = .ok (some candidate) ∧
    validationErrors [candidate] = .ok []

/-- The edit an endpoint makes, with what it has checked. -/
inductive Edits (db : Database) : ControlRoute → Edit → Prop
  | patched {name : String} {entry : Option OverrideEntry} {data merged : List (String × Json)}
      {candidate : PoolConfig} (hfields : unknownFields r.jsonBody false = [])
      (hentry : db.entry name = .ok entry)
      (hknown : site.basePool name ≠ none ∨ entry.elim "" (·.origin) = "ui")
      (hdata : (entry.elim (.ok []) fun e => dictOf e.data) = .ok data)
      (hmerged : mergeFields data r.jsonBody = .ok (some merged))
      (happroved : site.Approves name merged (entry.elim "yaml" (·.origin)) candidate) :
      Edits db (.patchPool name)
        (.setOverride name (.dict merged) (entry.elim "yaml" (·.origin)) false)
  | created {candidate : PoolConfig} {effective : EffectiveConfig} (hname : createdName r ≠ "")
      (hfields : unknownFields (createdData r) true = [])
      (heffective : site.resolver.resolve db = .ok effective)
      (hnew : effective.pools.find? (·.name = createdName r) = none)
      (happroved : site.Approves (createdName r) (createdData r) "ui" candidate) :
      Edits db .createPool (.setOverride (createdName r) (.dict (createdData r)) "ui" false)
  | reset {name : String} (hbase : site.basePool name ≠ none) :
      Edits db (.resetPool name) (.deleteOverride name)
  | removed {name : String} {entry : OverrideEntry} (hentry : db.entry name = .ok (some entry))
      (horigin : entry.origin = "ui") : Edits db (.removePool name) (.deleteOverride name)
  | disabled {name : String} {entry : Option OverrideEntry} (hentry : db.entry name = .ok entry)
      (horigin : entry.elim "" (·.origin) ≠ "ui") (hbase : site.basePool name ≠ none) :
      Edits db (.removePool name)
        (.setOverride name (entry.elim (.dict []) (·.data)) "yaml" true)
  | stateSet (name : String) (paused draining : Bool) :
      Edits db (.setPoolState name) (.setState name paused draining)
  | protectionSet (name : String) (isProtected : Bool) :
      Edits db (.protectContainer name) (.setProtected name isProtected)
  | pauseSet (value : String) : Edits db .globalPause (.setGlobal "paused" value)

/-- How an endpoint that makes one edit ends. -/
inductive Handled (route : ControlRoute) (w : World) : Except PyError Reply × World → Prop
  | refused {reply : Reply} (hlow : 400 ≤ reply.status) (hhigh : reply.status < 500) :
      Handled route w (.ok reply, w)
  | raised (e : PyError) : Handled route w (.error e, w)
  | edited {e : Edit} (row : AuditRow) {reply : Reply}
      (hedit : Edits site r w.store.toDatabase route e) (hrow : Describes r clock route row)
      (hlow : 200 ≤ reply.status) (hhigh : reply.status < 300) :
      Handled route w (.ok reply, w.edited e row)

variable {w : World} {name : String}

theorem handled_refusal {route : ControlRoute} {message : String} {status : ℕ}
    (hlow : 400 ≤ status) (hhigh : status < 500) :
    Handled site clock r route w ((pure (refusal message status) : Control Reply).run w) :=
  .refused hlow hhigh

/-- An edit that is answered 200. -/
theorem handled_edit {route : ControlRoute} {e : Edit} {row : AuditRow}
    {body : List (String × Json)} (hedit : Edits site r w.store.toDatabase route e)
    (hrow : Describes r clock route row) :
    Handled site clock r route w (.ok ⟨body, 200⟩, w.edited e row) :=
  .edited row hedit hrow (Nat.le_refl 200) (by norm_num)

/-- What a handler does after it has computed a value that may raise. -/
theorem handled_ofExcept {α : Type} {x : Except PyError α} {k : α → Control Reply}
    {route : ControlRoute} (h : ∀ a, x = .ok a → Handled site clock r route w ((k a).run w)) :
    Handled site clock r route w ((Program.ofExcept x >>= k).run w) := by
  rw [Program.run_ofExcept_bind]
  cases x with
  | error e => exact .raised e
  | ok a => exact h a rfl

theorem handled_accept {data : List (String × Json)} {origin unusable action detail : String}
    {reply : Reply} {route : ControlRoute}
    (hedit : ∀ candidate, site.Approves name data origin candidate →
      Edits site r w.store.toDatabase route (.setOverride name (.dict data) origin false))
    (haction : action ∈ route.actions) (htarget : route.target r = name)
    (hlow : 200 ≤ reply.status) (hhigh : reply.status < 300) :
    Handled site clock r route w
      ((site.accept clock r name data origin unusable action detail reply).run w) := by
  unfold accept
  refine handled_ofExcept site clock r fun candidate hcandidate => ?_
  cases candidate with
  | none => exact handled_refusal site clock r (by decide) (by decide)
  | some candidate =>
    refine handled_ofExcept site clock r fun errors herrors => ?_
    by_cases hvalid : errors = []
    · subst hvalid
      exact .edited ⟨clock.served, r.actorName, action, name, detail⟩
        (hedit candidate ⟨hcandidate, herrors⟩) ⟨rfl, rfl, haction, htarget.symm⟩ hlow hhigh
    · rw [if_pos hvalid]
      exact handled_refusal site clock r (by decide) (by decide)

theorem handled_patchPool :
    Handled site clock r (.patchPool name) w ((site.patchPool clock r name).run w) := by
  unfold patchPool
  by_cases hfields : unknownFields r.jsonBody false = []
  · rw [if_neg (not_not_intro hfields), Program.run_bind, run_poolOverrides]
    cases hrows : readOverrides w.store.poolOverrides.rows with
    | error e => exact .raised e
    | ok overrides =>
      have hentry := entry_of_readOverrides name hrows
      dsimp only
      by_cases hunknown : site.basePool name = none ∧
          (entryFor name overrides).elim "" (·.origin) ≠ "ui"
      · rw [if_pos hunknown]
        exact handled_refusal site clock r (by decide) (by decide)
      · rw [if_neg hunknown]
        have hknown : site.basePool name ≠ none ∨
            (entryFor name overrides).elim "" (·.origin) = "ui" := by
          by_contra hneither
          exact hunknown ⟨not_not.1 fun h => hneither (.inl h), fun h => hneither (.inr h)⟩
        refine handled_ofExcept site clock r fun data hdata => ?_
        refine handled_ofExcept site clock r fun merged hmerged => ?_
        cases merged with
        | none => exact handled_refusal site clock r (by decide) (by decide)
        | some merged =>
          refine handled_accept site clock r (fun candidate happroved => ?_) List.mem_cons_self rfl
            (by norm_num) (by norm_num)
          exact .patched hfields hentry hknown hdata hmerged happroved
  · rw [if_pos hfields]
    exact handled_refusal site clock r (by decide) (by decide)

theorem handled_createPool :
    Handled site clock r .createPool w ((site.createPool clock r).run w) := by
  unfold createPool
  by_cases hname : createdName r = ""
  · rw [if_pos hname]
    exact handled_refusal site clock r (by decide) (by decide)
  by_cases hfields : unknownFields (createdData r) true = []
  · rw [if_neg hname, if_neg (not_not_intro hfields), poolByName, Program.run_bind,
      Program.run_bind, run_resolve]
    cases heffective : site.resolver.resolve w.store.toDatabase with
    | error e => exact .raised e
    | ok effective =>
      dsimp only [Program.run_pure]
      cases hnew : effective.pools.find? fun p => p.name = createdName r with
      | some pool => exact handled_refusal site clock r (by decide) (by decide)
      | none =>
        refine handled_accept site clock r (fun candidate happroved => ?_) List.mem_cons_self rfl
          (by norm_num) (by norm_num)
        exact .created hname hfields heffective hnew happroved
  · rw [if_neg hname, if_pos hfields]
    exact handled_refusal site clock r (by decide) (by decide)

theorem handled_resetPool :
    Handled site clock r (.resetPool name) w ((site.resetPool clock r name).run w) := by
  unfold resetPool
  by_cases hbase : site.basePool name = none
  · rw [if_pos hbase]
    exact handled_refusal site clock r (by decide) (by decide)
  · rw [if_neg hbase]
    have hrow : Describes r clock (.resetPool name)
        ⟨clock.served, r.actorName, "config_reset", name, ""⟩ :=
      ⟨rfl, rfl, List.mem_cons_self, rfl⟩
    exact handled_edit site clock r (.reset hbase) hrow

theorem handled_removePool :
    Handled site clock r (.removePool name) w ((site.removePool clock r name).run w) := by
  unfold removePool
  rw [Program.run_bind, run_poolOverrides]
  cases hrows : readOverrides w.store.poolOverrides.rows with
  | error e => exact .raised e
  | ok overrides =>
    have hentry := entry_of_readOverrides name hrows
    have hrow : Describes r clock (.removePool name)
        ⟨clock.served, r.actorName, "config_remove_pool", name, ""⟩ :=
      ⟨rfl, rfl, List.mem_cons_self, rfl⟩
    dsimp only
    by_cases horigin : (entryFor name overrides).elim "" (·.origin) = "ui"
    · rw [if_pos horigin]
      cases hfound : entryFor name overrides with
      | none =>
        rw [hfound] at horigin
        exact absurd horigin (by decide)
      | some entry =>
        rw [hfound] at hentry horigin
        exact handled_edit site clock r (.removed hentry horigin) hrow
    · rw [if_neg horigin]
      by_cases hbase : site.basePool name = none
      · rw [if_neg (not_not_intro hbase)]
        exact handled_refusal site clock r (by decide) (by decide)
      · rw [if_pos hbase]
        exact handled_edit site clock r (.disabled hentry horigin hbase) hrow

theorem handled_setPoolState :
    Handled site clock r (.setPoolState name) w ((site.setPoolState clock r name).run w) := by
  unfold setPoolState
  rw [poolByName, Program.run_bind, Program.run_bind, run_resolve]
  cases heffective : site.resolver.resolve w.store.toDatabase with
  | error e => exact .raised e
  | ok effective =>
    dsimp only [Program.run_pure]
    cases effective.pools.find? fun p => p.name = name with
    | none => exact handled_refusal site clock r (by decide) (by decide)
    | some pool =>
      dsimp only
      rw [Program.run_bind, run_resolve, heffective]
      exact handled_edit site clock r (.stateSet name _ _) ⟨rfl, rfl, List.mem_cons_self, rfl⟩

theorem handled_protectContainer :
    Handled site clock r (.protectContainer name) w ((protectContainer clock r name).run w) := by
  unfold protectContainer
  by_cases hrunner : isRunnerContainer name = true
  · rw [hrunner]
    exact handled_edit site clock r (.protectionSet name _)
      ⟨rfl, rfl, by split_ifs <;> simp [ControlRoute.actions], rfl⟩
  · rw [Bool.not_eq_true] at hrunner
    rw [hrunner]
    exact handled_refusal site clock r (by decide) (by decide)

theorem handled_globalPause :
    Handled site clock r .globalPause w ((globalPause clock r).run w) :=
  handled_edit site clock r (.pauseSet _) ⟨rfl, rfl, List.mem_cons_self, rfl⟩

/-- **An endpoint that makes one edit** refuses, raises, or makes it. -/
theorem handled_handler {route : ControlRoute} (h : route.isEdit = true) :
    Handled site clock r route w ((site.handler docker clock r route).run w) := by
  cases route with
  | stopContainer name | restartContainer name | scalePool name | patchGlobals => cases h
  | protectContainer name => exact handled_protectContainer site clock r
  | setPoolState name => exact handled_setPoolState site clock r
  | globalPause => exact handled_globalPause site clock r
  | patchPool name => exact handled_patchPool site clock r
  | resetPool name => exact handled_resetPool site clock r
  | createPool => exact handled_createPool site clock r
  | removePool name => exact handled_removePool site clock r

end Site

/-! ### `PATCH /api/config/globals` -/

/-- The text stored for a value, `none` when the value is not accepted. -/
def globalText (kv : String × Json) : Option String :=
  if kv.1 = "paused" then some (if pyBool kv.2 then "1" else "0")
  else
    match pyInt kv.2 with
    | .error _ => none
    | .ok number => if number < 0 then none else (strOfInt number).toOption

/-- The items before the first one that is not accepted. -/
def acceptedItems (body : List (String × Json)) : List (String × Json) :=
  body.takeWhile fun kv => (globalText kv).isSome

/-- The store after the loop has gone over some items. -/
def storeGlobals (s : Store) (items : List (String × Json)) : Store :=
  items.foldl (fun s kv => s.setGlobal kv.1 ((globalText kv).getD "")) s

/-- The text that some items leave under a key: that of the last one. -/
def lastText (items : List (String × Json)) (key : String) : Option String :=
  (items.filter fun kv => kv.1 = key).getLast?.bind globalText

/-- How the loop ends at an item it does not accept. -/
def StopsAt (x : Except PyError (Option Reply)) : Prop :=
  (∃ reply, x = .ok (some reply) ∧ reply.status = 400) ∨ ∃ e, x = .error e

@[simp] theorem storeGlobals_auditLog (s : Store) (items : List (String × Json)) :
    (storeGlobals s items).auditLog = s.auditLog := by
  induction items generalizing s with
  | nil => rfl
  | cons kv items ih => exact ih _

@[simp] theorem storeGlobals_poolOverrides (s : Store) (items : List (String × Json)) :
    (storeGlobals s items).poolOverrides = s.poolOverrides := by
  induction items generalizing s with
  | nil => rfl
  | cons kv items ih => exact ih _

theorem globalText_of_mem {body : List (String × Json)} {kv : String × Json}
    (h : kv ∈ acceptedItems body) : (globalText kv).isSome := by
  unfold acceptedItems at h
  simpa using List.mem_takeWhile_imp h

@[simp] theorem storeGlobals_globalOverrides (s : Store) (items : List (String × Json)) :
    (storeGlobals s items).globalOverrides = items.foldl
      (fun t kv => t.put kv.1 ((globalText kv).getD "")) s.globalOverrides := by
  induction items generalizing s with
  | nil => rfl
  | cons kv items ih => exact ih _

/-- The loop writes no other table of the configuration. -/
theorem storeGlobals_toDatabase (s : Store) (items : List (String × Json)) :
    (storeGlobals s items).toDatabase =
      { s.toDatabase with globalOverrides := (storeGlobals s items).globalOverrides } := by
  induction items generalizing s with
  | nil => rfl
  | cons kv items ih => exact ih _

theorem lastText_eq {items : List (String × Json)}
    (haccepted : ∀ kv ∈ items, (globalText kv).isSome) (key : String) :
    lastText items key = (items.filter fun kv => kv.1 = key).getLast?.map
      fun kv => (globalText kv).getD "" := by
  unfold lastText
  cases hlast : (items.filter fun kv => kv.1 = key).getLast? with
  | none => rfl
  | some kv =>
    obtain ⟨hmem, -⟩ := List.mem_filter.1 (List.mem_of_getLast? hlast)
    obtain ⟨text, htext⟩ := Option.isSome_iff_exists.1 (haccepted kv hmem)
    simp [htext]

/-- **Storing some items changes nothing** exactly when each of them is stored already. -/
theorem storeGlobals_same_iff (s : Store) {items : List (String × Json)}
    (haccepted : ∀ kv ∈ items, (globalText kv).isSome) :
    (storeGlobals s items).toDatabase = s.toDatabase ↔
      ∀ kv ∈ items, s.globalOverrides.get kv.1 = lastText items kv.1 := by
  have htable : (storeGlobals s items).toDatabase = s.toDatabase ↔
      (storeGlobals s items).globalOverrides = s.globalOverrides := by
    constructor
    · exact congrArg Database.globalOverrides
    · intro h
      rw [storeGlobals_toDatabase, h]
  rw [htable, storeGlobals_globalOverrides,
    Table.foldl_put_eq_iff Prod.fst fun kv => (globalText kv).getD ""]
  simp only [lastText_eq haccepted]

namespace Site

/-- One round of the loop. -/
theorem setGlobals_cons (kv : String × Json) (rest : List (String × Json)) (w : World) :
    (∃ text, globalText kv = some text ∧ (setGlobals (kv :: rest)).run w =
        (setGlobals rest).run { w with store := w.store.setGlobal kv.1 text }) ∨
      (globalText kv = none ∧ ∃ x, StopsAt x ∧ (setGlobals (kv :: rest)).run w = (x, w)) := by
  obtain ⟨key, value⟩ := kv
  rw [setGlobals]
  unfold globalText
  dsimp only
  by_cases hpaused : key = "paused"
  · rw [if_pos hpaused, if_pos hpaused]
    exact .inl ⟨_, rfl, rfl⟩
  · rw [if_neg hpaused, if_neg hpaused]
    cases hvalue : pyInt value with
    | error e =>
      refine .inr ⟨rfl, ?_⟩
      cases e with
      | typeError | valueError => exact ⟨_, .inl ⟨_, rfl, rfl⟩, rfl⟩
      | overflowError | attributeError | keyError | recursionError | runtimeError =>
        exact ⟨_, .inr ⟨_, rfl⟩, rfl⟩
    | ok number =>
      dsimp only
      by_cases hneg : number < 0
      · rw [if_pos hneg, if_pos hneg]
        exact .inr ⟨rfl, _, .inl ⟨_, rfl, rfl⟩, rfl⟩
      · rw [if_neg hneg, if_neg hneg, Program.run_ofExcept_bind]
        cases strOfInt number with
        | error e => exact .inr ⟨rfl, _, .inr ⟨e, rfl⟩, rfl⟩
        | ok text => exact .inl ⟨text, rfl, rfl⟩

/-- **The loop stores the values before the first one it does not accept.** -/
theorem setGlobals_run (body : List (String × Json)) (w : World) :
    ∃ x, (setGlobals body).run w =
        (x, { w with store := storeGlobals w.store (acceptedItems body) }) ∧
      ((∀ kv ∈ body, (globalText kv).isSome) → x = .ok none) ∧
      ((¬ ∀ kv ∈ body, (globalText kv).isSome) → StopsAt x) := by
  induction body generalizing w with
  | nil => exact ⟨.ok none, rfl, fun _ => rfl, fun h => absurd (fun _ hmem => by cases hmem) h⟩
  | cons kv rest ih =>
    rcases setGlobals_cons kv rest w with ⟨text, htext, hrun⟩ | ⟨htext, x, hstop, hrun⟩
    · obtain ⟨x, hrest, hall, hsome⟩ := ih { w with store := w.store.setGlobal kv.1 text }
      have hitems : acceptedItems (kv :: rest) = kv :: acceptedItems rest := by
        unfold acceptedItems
        rw [List.takeWhile_cons_of_pos (by rw [htext]; rfl)]
      have hstore : storeGlobals w.store (kv :: acceptedItems rest) =
          storeGlobals (w.store.setGlobal kv.1 text) (acceptedItems rest) := by
        unfold storeGlobals
        rw [List.foldl_cons, htext]
        rfl
      refine ⟨x, by rw [hrun, hrest, hitems, hstore], fun h => ?_, fun h => ?_⟩
      · exact hall fun kv hkv => h kv (List.mem_cons_of_mem _ hkv)
      · refine hsome fun hrest' => h fun kv' hkv' => ?_
        rcases List.mem_cons.1 hkv' with rfl | hkv'
        · rw [htext]
          rfl
        · exact hrest' kv' hkv'
    · have hitems : acceptedItems (kv :: rest) = [] := by
        unfold acceptedItems
        rw [List.takeWhile_cons_of_neg (by rw [htext]; decide)]
      refine ⟨x, by rw [hrun, hitems]; rfl, fun h => ?_, fun _ => hstop⟩
      have hkv := h kv List.mem_cons_self
      rw [htext] at hkv
      cases hkv

/-! ### To stop, restart and scale -/

end Site

/-- The tables of the configuration are the same. -/
def SameConfig (w w' : World) : Prop := w'.store.toDatabase = w.store.toDatabase

instance : Std.Refl SameConfig := ⟨fun _ => rfl⟩

instance : IsTrans World SameConfig := ⟨fun _ _ _ h h' => Eq.trans h' h⟩

/-- The call changes no table of the configuration. -/
def KeepsConfig (f : World → World) : Prop := ∀ w, SameConfig w (f w)

theorem keepsConfig_writeStore {f : Store → Store} (h : ∀ s, (f s).toDatabase = s.toDatabase) :
    Program.Changes KeepsConfig (writeStore f) := .set fun w => h w.store

theorem keepsConfig_readStore {α : Type} (f : Store → α) :
    Program.Changes KeepsConfig (readStore f) := .get _

namespace Site

variable (site : Site) (docker : DockerAnswers) (clock : Clock) (r : Request)

theorem keepsConfig_resolve : Program.Changes KeepsConfig site.resolve :=
  .bind (.get _) fun _ => .bind (.get _) fun _ => .bind (.get _) fun _ => .bind (.get _) fun _ =>
    .ofExcept _

theorem keepsConfig_audit (action target detail : String) :
    Program.Changes KeepsConfig (recordAudit clock r action target detail) :=
  keepsConfig_writeStore fun _ => rfl

theorem keepsConfig_dockerStop (now : ℚ) (name : String) :
    Program.Changes KeepsConfig (dockerStop site docker now name) := by
  unfold dockerStop
  split_ifs with hcode
  · refine .bind (.set fun _ => rfl) fun _ => ?_
    exact .bind (keepsConfig_writeStore fun _ => rfl) fun _ => .pure true
  · exact .bind (.get _) fun _ => .pure _

theorem keepsConfig_dockerSpawn (now : ℚ) (pool : PoolConfig) :
    Program.Changes KeepsConfig (dockerSpawn docker now pool) := by
  unfold dockerSpawn
  cases docker.spawn with
  | started container =>
    refine .bind (.set fun _ => rfl) fun _ => ?_
    exact .bind (keepsConfig_writeStore fun _ => rfl) fun _ => .pure true
  | failed container reason =>
    exact .bind (keepsConfig_writeStore fun _ => rfl) fun _ => .pure false
  | raised error => exact .fail error

theorem keepsConfig_stop (name action : String) :
    Program.Changes KeepsConfig (site.stop docker clock r name action) := by
  unfold stop
  split_ifs with hrunner
  · exact .pure _
  · refine .bind (keepsConfig_readStore _) fun busy => ?_
    split_ifs with hbusy
    · exact .pure _
    · refine .bind (keepsConfig_dockerStop site docker _ _) fun ok => ?_
      exact .bind (keepsConfig_audit clock r _ _ _) fun _ => .pure _

theorem keepsConfig_scalePool (name : String) :
    Program.Changes KeepsConfig (site.scalePool docker clock r name) := by
  unfold scalePool poolByName
  refine .bind (.bind (keepsConfig_resolve site) fun _ => .pure _) fun found => ?_
  cases found with
  | none => exact .pure _
  | some pool =>
    refine .bind (.ofExcept _) fun delta => ?_
    cases delta with
    | none => exact .pure _
    | some delta =>
      dsimp only
      split_ifs with hdelta hup
      · exact .pure _
      · refine .bind (keepsConfig_dockerSpawn docker _ _) fun ok => ?_
        exact .bind (keepsConfig_audit clock r _ _ _) fun _ => .pure _
      · refine .bind (.bind (keepsConfig_readStore _) fun _ => .bind (.get _) fun _ => .pure _)
          fun victim => ?_
        cases victim with
        | none => exact .pure _
        | some victim =>
          refine .bind (keepsConfig_dockerStop site docker _ _) fun ok => ?_
          exact .bind (keepsConfig_audit clock r _ _ _) fun _ => .pure _

end Site

end RunnerSwarm
