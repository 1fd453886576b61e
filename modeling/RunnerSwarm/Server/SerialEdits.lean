import RunnerSwarm.Lib.Serial
import RunnerSwarm.Server.Removal

/-!
# Concurrent edits

Requests are served on several threads, and between two calls of the store anything can happen. The
handlers that edit the configuration run under the config lock, apart from `global_pause`, which
writes the global `paused` with one call and reads nothing.

What the other handlers do does not depend on `paused`: `agree_program`. So the global is the one
cell that may change under the holder of the lock, and every interleaving is serialisable.

* `edits_serialisable`: the overlay and the accepted requests are those of a serial order, on every
  database; and two accepted patches of different fields of a pool are both in its row, in every run
  in which no accepted edit writes a row of another name that the database takes for the pool's;
* `not_edits_serialisable`: where letter case does not count, the patches of a pool can all go to
  the row of another one, where each overwrites what the last one stored.
-/

namespace RunnerSwarm

/-! ### The overlay -/

/-- The tables the resolver reads are the same, up to the global `paused`, and keys are compared
alike. -/
structure SameOverlay (w w' : World) : Prop where
  overrides : w.store.poolOverrides = w'.store.poolOverrides
  states : w.store.poolState = w'.store.poolState
  isProtected : w.store.protectedContainers = w'.store.protectedContainers
  globals : ∀ key ≠ "paused", w.store.globalOverrides.get key = w'.store.globalOverrides.get key
  weight : w.store.weight = w'.store.weight

/-- The global `paused` as a cell of the world. -/
def pausedCell : Cell World (Option String) where
  cell w := w.store.globalOverrides.get "paused"
  Same := SameOverlay
  equivalence :=
    { refl := fun _ => ⟨rfl, rfl, rfl, fun _ _ => rfl, rfl⟩
      symm := fun h => ⟨h.1.symm, h.2.symm, h.3.symm, fun key hkey => (h.4 key hkey).symm, h.5.symm⟩
      trans := fun h h' => ⟨h.1.trans h'.1, h.2.trans h'.2, h.3.trans h'.3,
        fun key hkey => (h.4 key hkey).trans (h'.4 key hkey), h.5.trans h'.5⟩ }

/-- The overlays are equal: overrides, pool states and every global. -/
structure EqualOverlay (w w' : World) : Prop where
  overrides : w.store.poolOverrides = w'.store.poolOverrides
  states : w.store.poolState = w'.store.poolState
  globals : ∀ key, w.store.globalOverrides.get key = w'.store.globalOverrides.get key

/-- The endpoints under `serialized`. -/
def ControlRoute.isSerialized : ControlRoute → Bool
  | .setPoolState _ | .patchPool _ | .resetPool _ | .createPool | .removePool _ => true
  | .patchGlobals => true
  | _ => false

/-! ### Calls of the store -/

/-- A write that touches no global. -/
theorem neat_writeStore {f : Store → Store}
    (hoverrides : ∀ s t : Store, s.weight = t.weight → s.poolOverrides = t.poolOverrides →
      (f s).poolOverrides = (f t).poolOverrides)
    (hstates : ∀ s t : Store, s.weight = t.weight → s.poolState = t.poolState →
      (f s).poolState = (f t).poolState)
    (hprotected : ∀ s, (f s).protectedContainers = s.protectedContainers)
    (hglobals : ∀ s, (f s).globalOverrides = s.globalOverrides)
    (hweight : ∀ s, (f s).weight = s.weight) :
    pausedCell.Agree Eq (writeStore f) (writeStore f) := by
  refine .set ⟨fun w w' h => ⟨hoverrides _ _ h.5 h.1, hstates _ _ h.5 h.2, ?_, fun key hkey => ?_,
    ?_⟩, .inl fun w => ?_⟩
  · exact (hprotected _).trans (h.3.trans (hprotected _).symm)
  · have hsame := h.4 key hkey
    rwa [← hglobals w.store, ← hglobals w'.store] at hsame
  · exact (hweight _).trans (h.5.trans (hweight _).symm)
  · exact congrArg (fun globals => globals.get "paused") (hglobals w.store)

theorem agree_setGlobal (key value : String) :
    pausedCell.Agree Eq (writeStore (·.setGlobal key value)) (writeStore (·.setGlobal key value)) := by
  have hget : ∀ (w : World) (other : String),
      (w.store.setGlobal key value).globalOverrides.get other =
        if other = key then some value else w.store.globalOverrides.get other :=
    fun w other => Table.get_put _ _ _ _
  refine .set ⟨fun w w' h => ⟨h.1, h.2, h.3, fun other hother => ?_, h.5⟩, ?_⟩
  · have hsame := h.4 other hother
    show (w.store.setGlobal key value).globalOverrides.get other = _
    rw [hget, hsame]
    exact (hget w' other).symm
  · by_cases hkey : key = "paused"
    · exact .inr ⟨some value, fun w => (hget w "paused").trans (if_pos hkey.symm)⟩
    · exact .inl fun w => (hget w "paused").trans (if_neg (Ne.symm hkey))

theorem agree_setPoolOverride (pool : String) (data : Json) (origin : String) (disabled : Bool) :
    pausedCell.Agree Eq (writeStore (·.setPoolOverride pool data origin disabled))
      (writeStore (·.setPoolOverride pool data origin disabled)) := by
  refine neat_writeStore (fun s t hweight h => ?_) (fun _ _ _ h => h) (fun _ => rfl) (fun _ => rfl)
    fun _ => rfl
  unfold Store.setPoolOverride
  dsimp only
  rw [h, hweight]

theorem agree_deletePoolOverride (pool : String) :
    pausedCell.Agree Eq (writeStore (·.deletePoolOverride pool))
      (writeStore (·.deletePoolOverride pool)) := by
  refine neat_writeStore (fun s t hweight h => ?_) (fun _ _ _ h => h) (fun _ => rfl) (fun _ => rfl)
    fun _ => rfl
  unfold Store.deletePoolOverride
  dsimp only
  rw [h, hweight]

theorem agree_setState (pool : String) (paused draining : Bool) :
    pausedCell.Agree Eq (writeStore (·.setPoolState pool paused draining))
      (writeStore (·.setPoolState pool paused draining)) := by
  refine neat_writeStore (fun _ _ _ h => h) (fun s t hweight h => ?_) (fun _ => rfl) (fun _ => rfl)
    fun _ => rfl
  unfold Store.setPoolState
  dsimp only
  rw [h, hweight]

theorem agree_poolOverrides : pausedCell.Agree Eq poolOverrides poolOverrides := by
  refine .bind (R := Eq) (.get fun w w' h => ?_) fun rows rows' h => ?_
  · exact congrArg Table.rows h.1
  · subst h
    exact .ofExceptSame _

theorem agree_audit (clock : Clock) (r : Request) (action target detail : String) :
    pausedCell.Agree Eq (Site.recordAudit clock r action target detail)
      (Site.recordAudit clock r action target detail) :=
  neat_writeStore (fun _ _ _ h => h) (fun _ _ _ h => h) (fun _ => rfl) (fun _ => rfl) fun _ => rfl

/-- The parts of the configuration that do not depend on the globals. -/
def ResolvedAlike (e e' : EffectiveConfig) : Prop := e.pools = e'.pools ∧ e.states = e'.states

theorem resolve_alike (r : ConfigResolver) (db : Database) (globals : Table String String) :
    Cell.Outcomes ResolvedAlike (r.resolve db)
      (r.resolve { db with globalOverrides := globals }) := by
  unfold ConfigResolver.resolve
  dsimp only
  cases readOverrides db.poolOverrides.rows with
  | error e => exact .error e
  | ok overrides =>
    dsimp only [bind, Except.bind]
    cases resolveBase r.basePools overrides with
    | error e => exact .error e
    | ok result =>
      dsimp only
      cases resolveCreated r.environ result.2 with
      | error e => exact .error e
      | ok created => exact .ok ⟨rfl, rfl⟩

namespace Site

variable (site : Site) (clock : Clock) (r : Request) (name : String)

theorem agree_resolve : pausedCell.Agree ResolvedAlike site.resolve site.resolve := by
  refine .bind (R := Eq) (.get fun w w' h => h.1) fun overrides overrides' hoverrides => ?_
  refine .bind (R := fun _ _ => True) (.get fun _ _ _ => trivial) fun globals globals' _ => ?_
  refine .bind (R := Eq) (.get fun w w' h => h.2) fun states states' hstates => ?_
  refine .bind (R := Eq) (.get fun w w' h => h.3) fun isProtected isProtected' hprotected => ?_
  subst hoverrides hstates hprotected
  exact .ofExcept (resolve_alike site.resolver ⟨overrides, globals, states, isProtected⟩ globals')

theorem agree_poolByName : pausedCell.Agree Eq (site.poolByName name) (site.poolByName name) := by
  refine .bind site.agree_resolve fun e e' h => .pure ?_
  rw [h.1]

/-! ### Handlers -/

/-- The replies have the same status. -/
def SameStatus (reply reply' : Reply) : Prop := reply.status = reply'.status

theorem agree_reply (reply : Reply) :
    pausedCell.Agree SameStatus (pure reply : Control Reply) (pure reply) := .pure rfl

theorem agree_accept (data : List (String × Json)) (origin unusable action detail : String)
    (reply : Reply) : pausedCell.Agree SameStatus
      (site.accept clock r name data origin unusable action detail reply)
      (site.accept clock r name data origin unusable action detail reply) := by
  unfold accept
  refine .bindSame (.ofExceptSame _) fun candidate => ?_
  cases candidate with
  | none => exact agree_reply _
  | some candidate =>
    refine .bindSame (.ofExceptSame _) fun errors => ?_
    split_ifs with herrors
    · exact agree_reply _
    · refine .bindSame (agree_setPoolOverride _ _ _ _) fun _ => ?_
      exact .bindSame (agree_audit clock r _ _ _) fun _ => agree_reply _

theorem agree_patchPool : pausedCell.Agree SameStatus (site.patchPool clock r name)
    (site.patchPool clock r name) := by
  unfold patchPool
  dsimp only
  split_ifs with hrejected
  · exact agree_reply _
  · refine .bindSame agree_poolOverrides fun overrides => ?_
    split_ifs with hunknown
    · exact agree_reply _
    · refine .bindSame (.ofExceptSame _) fun data => .bindSame (.ofExceptSame _) fun merged => ?_
      cases merged with
      | none => exact agree_reply _
      | some merged => exact site.agree_accept clock r name _ _ _ _ _ _

/-- To delete a row and to record it. -/
theorem agree_delete (action : String) (reply : Reply) : pausedCell.Agree SameStatus
    (do
      writeStore (·.deletePoolOverride name)
      recordAudit clock r action name ""
      return reply : Control Reply)
    (do
      writeStore (·.deletePoolOverride name)
      recordAudit clock r action name ""
      return reply) := by
  refine .bindSame (agree_deletePoolOverride name) fun _ => ?_
  exact .bindSame (agree_audit clock r _ _ _) fun _ => agree_reply _

theorem agree_resetPool : pausedCell.Agree SameStatus (site.resetPool clock r name)
    (site.resetPool clock r name) := by
  unfold resetPool
  split_ifs with hbase
  · exact agree_reply _
  · exact agree_delete clock r name _ _

theorem agree_createPool : pausedCell.Agree SameStatus (site.createPool clock r)
    (site.createPool clock r) := by
  unfold createPool
  dsimp only
  split_ifs with hname hrejected
  · exact agree_reply _
  · exact agree_reply _
  · refine .bindSame (site.agree_poolByName _) fun found => ?_
    cases found with
    | some pool => exact agree_reply _
    | none => exact site.agree_accept clock r _ _ _ _ _ _ _

theorem agree_removePool : pausedCell.Agree SameStatus (site.removePool clock r name)
    (site.removePool clock r name) := by
  unfold removePool
  refine .bindSame agree_poolOverrides fun overrides => ?_
  dsimp only
  split_ifs with hui hbase
  · exact agree_delete clock r name _ _
  · refine .bindSame (agree_setPoolOverride _ _ _ _) fun _ => ?_
    exact .bindSame (agree_audit clock r _ _ _) fun _ => agree_reply _
  · exact agree_reply _

theorem agree_setPoolState : pausedCell.Agree SameStatus (site.setPoolState clock r name)
    (site.setPoolState clock r name) := by
  unfold setPoolState
  refine .bindSame (site.agree_poolByName _) fun found => ?_
  cases found with
  | none => exact agree_reply _
  | some pool =>
    refine .bind site.agree_resolve fun e e' h => ?_
    have hstate : e.stateFor name = e'.stateFor name := by
      unfold EffectiveConfig.stateFor
      rw [h.2]
    dsimp only
    rw [hstate]
    refine .bindSame (agree_setState _ _ _) fun _ => ?_
    exact .bindSame (agree_audit clock r _ _ _) fun _ => agree_reply _

theorem agree_setGlobals (body : List (String × Json)) :
    pausedCell.Agree Eq (setGlobals body) (setGlobals body) := by
  induction body with
  | nil => exact .pure rfl
  | cons kv rest ih =>
    obtain ⟨key, value⟩ := kv
    unfold setGlobals
    by_cases hpaused : key = "paused"
    · rw [if_pos hpaused]
      exact .bindSame (agree_setGlobal _ _) fun _ => ih
    · rw [if_neg hpaused]
      cases hvalue : pyInt value with
      | error e =>
        cases e with
        | typeError | valueError => exact .pure rfl
        | overflowError | attributeError | keyError | recursionError | runtimeError => exact .fail _
      | ok number =>
        dsimp only
        split_ifs with hneg
        · exact .pure rfl
        · refine .bindSame (.ofExceptSame _) fun text => ?_
          exact .bindSame (agree_setGlobal _ _) fun _ => ih

theorem agree_patchGlobals : pausedCell.Agree SameStatus (site.patchGlobals clock r)
    (site.patchGlobals clock r) := by
  unfold patchGlobals
  dsimp only
  split_ifs with hrejected
  · exact agree_reply _
  · refine .bindSame (agree_setGlobals _) fun answer => ?_
    cases answer with
    | some answer => exact agree_reply _
    | none =>
      refine .bindSame (agree_audit clock r _ _ _) fun _ => ?_
      exact .bind site.agree_resolve fun e e' _ => .pure rfl

end Site

/-! ### Requests -/

namespace ControlRequest

variable (q : ControlRequest)

/-- What the thread of the request runs. -/
def program : Control Response := q.deps.controlView q.docker q.clock q.request q.route

/-- **A handler under the config lock** makes the same changes whatever is in `paused`. -/
theorem agree_program (h : q.route.isSerialized = true) :
    pausedCell.Agree (fun a b : Response => a.status = b.status) q.program q.program := by
  have hhandler : pausedCell.Agree Site.SameStatus
      (q.deps.handler q.docker q.clock q.request q.route)
      (q.deps.handler q.docker q.clock q.request q.route) := by
    cases hroute : q.route with
    | setPoolState name => exact Site.agree_setPoolState _ _ _ name
    | patchPool name => exact Site.agree_patchPool _ _ _ name
    | resetPool name => exact Site.agree_resetPool _ _ _ name
    | createPool => exact Site.agree_createPool _ _ _
    | removePool name => exact Site.agree_removePool _ _ _ name
    | patchGlobals => exact Site.agree_patchGlobals _ _ _
    | _ =>
      rw [hroute] at h
      cases h
  have hplain : Site.isIdempotent q.route = false := by
    cases hroute : q.route <;> rw [hroute] at h <;> first | rfl | cases h
  unfold program Deps.controlView
  dsimp only
  rw [hplain, if_neg Bool.false_ne_true]
  exact .bind hhandler fun reply reply' hstatus => .pure hstatus

/-- What a pause stores. -/
def pauses : Bool := (getItem q.request.jsonBody "paused").elim true pyBool

/-- **A pause** writes the global, and reads nothing. -/
theorem writes_program (h : q.route = .globalPause) :
    pausedCell.Writes (some (if q.pauses then "1" else "0"))
      (q.deps.respond ⟨[("paused", .bool q.pauses)], 200⟩) q.program := by
  unfold program
  rw [h]
  have hget : ∀ (w : World) (value key : String),
      (w.store.setGlobal "paused" value).globalOverrides.get key =
        if key = "paused" then some value else w.store.globalOverrides.get key :=
    fun w value key => Table.get_put _ _ _ _
  refine .call (fun w => ⟨rfl, rfl, rfl, fun key hkey => ?_, rfl⟩) (fun w => hget w _ _) fun w => ?_
  · exact ((hget w _ _).trans (if_neg hkey)).symm
  · exact .call (fun w => ⟨rfl, rfl, rfl, fun _ _ => rfl, rfl⟩) (fun _ => rfl) fun _ => .done

/-- The response is a success. -/
def IsSuccess (x : Except PyError Response) : Prop :=
  ∃ response, x = .ok response ∧ 200 ≤ response.status ∧ response.status < 300

theorem isSuccess_congr {x y : Except PyError Response}
    (h : Cell.Outcomes (fun a b : Response => a.status = b.status) x y) :
    IsSuccess x ↔ IsSuccess y := by
  cases h with
  | error e => exact Iff.rfl
  | @ok a b hstatus =>
    constructor
    · rintro ⟨response, heq, hlow, hhigh⟩
      obtain rfl := Except.ok.inj heq
      exact ⟨b, rfl, hstatus ▸ hlow, hstatus ▸ hhigh⟩
    · rintro ⟨response, heq, hlow, hhigh⟩
      obtain rfl := Except.ok.inj heq
      exact ⟨a, rfl, hstatus.symm ▸ hlow, hstatus.symm ▸ hhigh⟩

/-- The fields a patch stores. -/
def patchedItems : List (String × Json) :=
  match coercePoolFields q.request.jsonBody with
  | .ok fields => fields.map fun f => (f.1, f.2.json)
  | .error _ => []

end ControlRequest

/-- The row of the pool has these fields. -/
def StoresFields (overlay : Table String OverrideRow) (name : String)
    (items : List (String × Json)) : Prop :=
  ∃ row data, overlay.get name = some row ∧ row.data = .value (.dict data) ∧ ∀ kv ∈ items, kv ∈ data

/-! ### Patches of different fields -/

section Patches

theorem mem_setItem_self (data : List (String × Json)) (new : String × Json) :
    new ∈ setItem data new := by
  unfold setItem
  split_ifs with hkey
  · obtain ⟨old, hold, heq⟩ := List.mem_map.1 hkey
    exact List.mem_map.2 ⟨old, hold, if_pos heq⟩
  · exact List.mem_append_right _ List.mem_cons_self

theorem mem_setItem_of_ne {data : List (String × Json)} {kv new : String × Json} (h : kv ∈ data)
    (hne : kv.1 ≠ new.1) : kv ∈ setItem data new := by
  unfold setItem
  split_ifs with hkey
  · exact List.mem_map.2 ⟨kv, h, if_neg hne⟩
  · exact List.mem_append_left _ h

theorem mem_foldl_setItem_of_notMem {items data : List (String × Json)} {kv : String × Json}
    (h : kv ∈ data) (hne : kv.1 ∉ items.map Prod.fst) : kv ∈ items.foldl setItem data := by
  induction items generalizing data with
  | nil => exact h
  | cons new items ih =>
    rw [List.map_cons, List.mem_cons, not_or] at hne
    exact ih (mem_setItem_of_ne h hne.1) hne.2

theorem mem_foldl_setItem_self {items : List (String × Json)} (hkeys : (items.map Prod.fst).Nodup)
    (data : List (String × Json)) {kv : String × Json} (h : kv ∈ items) :
    kv ∈ items.foldl setItem data := by
  induction items generalizing data with
  | nil => cases h
  | cons new items ih =>
    obtain ⟨hfresh, hrest⟩ := List.nodup_cons.1 hkeys
    rw [List.foldl_cons]
    rcases List.mem_cons.1 h with rfl | h
    · exact mem_foldl_setItem_of_notMem (mem_setItem_self _ _) hfresh
    · exact ih hrest _ h

/-- What a patch merges into the data. -/
theorem mergeFields_eq {q : ControlRequest} {data merged : List (String × Json)}
    (h : Site.mergeFields data q.request.jsonBody = .ok (some merged)) :
    merged = q.patchedItems.foldl setItem data ∧
      q.patchedItems.map Prod.fst = q.request.jsonBody.map Prod.fst := by
  unfold Site.mergeFields at h
  unfold ControlRequest.patchedItems
  cases hfields : coercePoolFields q.request.jsonBody with
  | error e =>
    rw [hfields] at h
    cases e <;> cases h
  | ok fields =>
    rw [hfields] at h
    refine ⟨(Option.some.inj (Except.ok.inj h)).symm, ?_⟩
    dsimp only
    rw [← coercePoolFields_keys hfields, List.map_map]
    rfl

variable {q : ControlRequest} {w : World} {name : String} {items : List (String × Json)}

/-- **An accepted patch** stores its fields. -/
theorem storesFields_of_accepted (hroute : q.route = .patchPool name)
    (hkeys : (q.request.jsonBody.map Prod.fst).Nodup) (h : q.Accepted w)
    (hapart : q.KeepsApart name w) :
    StoresFields (q.run w).2.store.poolOverrides name q.patchedItems := by
  have hname := hapart h name (.inl hroute) rfl
  obtain ⟨edit, row, hedit, hworld⟩ := ControlRequest.edits_of_accepted (by rw [hroute]; rfl) h
  rw [hroute] at hedit
  rw [hworld]
  cases hedit with
  | @patched _ entry data merged candidate hfields hentry hknown hdata hmerged happroved =>
    obtain ⟨rfl, hsame⟩ := mergeFields_eq hmerged
    refine ⟨_, _, get_setPoolOverride hname, rfl, fun kv hkv => ?_⟩
    exact mem_foldl_setItem_self (hsame ▸ hkeys) _ hkv

/-- **A request that patches other fields**, or writes other rows, keeps them. -/
theorem storesFields_run (hstores : StoresFields w.store.poolOverrides name items)
    (hapart : q.KeepsApart name w) (hq : ¬ q.Touches name ∨ (q.route = .patchPool name ∧
      ∀ kv ∈ items, kv.1 ∉ q.request.jsonBody.map Prod.fst)) :
    StoresFields (q.run w).2.store.poolOverrides name items := by
  rcases hq with hother | ⟨hroute, hdisjoint⟩
  · unfold StoresFields
    rwa [ControlRequest.get_of_not_touches hapart hother]
  rcases q.overlay_run w with hsame | ⟨edit, haccepted, hedit, happly⟩
  · rwa [hsame]
  have hname := hapart haccepted name (.inl hroute) rfl
  rw [happly]
  rw [hroute] at hedit
  obtain ⟨row, data, hrow, hdata, hitems⟩ := hstores
  cases hedit with
  | @patched _ entry data' merged candidate hfields hentry hknown hdata' hmerged happroved =>
    have hstored : entry = some ⟨.dict data, row.origin, row.disabled⟩ := by
      rw [entry_eq_stored hentry]
      unfold Database.storedEntry OverrideRow.entry
      rw [hrow, Option.bind_some, hdata]
    subst hstored
    obtain rfl := Except.ok.inj hdata'
    obtain ⟨rfl, hsame⟩ := mergeFields_eq hmerged
    refine ⟨_, _, get_setPoolOverride hname, rfl, fun kv hkv => ?_⟩
    exact mem_foldl_setItem_of_notMem (hitems kv hkv) (hsame ▸ hdisjoint kv hkv)

end Patches

/-! ### Interleavings -/

section Interleavings

variable {ι : Type} [DecidableEq ι]

/-- One step of a thread that serves one of the requests. -/
def servingStep (q : ι → ControlRequest) :
    Threads ι World PyError Response → ThreadAction ι → Option (Threads ι World PyError Response) :=
  threadStep (fun i => (q i).program) fun i => (q i).route.isSerialized

/-- The requests one after the other. -/
def served (q : ι → ControlRequest) (order : List ι) (w : World) :
    List (ι × Except PyError Response) × World := serial (fun i => (q i).program) order w

/-- The request of the thread has been accepted. -/
def AcceptedIn (m : Threads ι World PyError Response) (i : ι) : Prop :=
  ∃ x, m.phase i = .ended x ∧ ControlRequest.IsSuccess x

/-- The overlay and the accepted requests are those of a serial order. -/
structure SerialResult (q : ι → ControlRequest) (w : World) (m : Threads ι World PyError Response)
    (order : List ι) : Prop where
  nodup : order.Nodup
  complete : ∀ i, i ∈ order
  overlay : EqualOverlay m.shared (served q order w).2
  accepted : ∀ i, AcceptedIn m i ↔
    ∃ x, (i, x) ∈ (served q order w).1 ∧ ControlRequest.IsSuccess x

/-- An accepted patch of the pool is in its row, when every other request patches other fields of the
pool or does not touch it. -/
def KeepsPatches (q : ι → ControlRequest) (name : String) (m : Threads ι World PyError Response) :
    Prop :=
  ∀ i, (q i).route = .patchPool name → ((q i).request.jsonBody.map Prod.fst).Nodup →
    AcceptedIn m i →
    (∀ k ≠ i, ¬ (q k).Touches name ∨ ((q k).route = .patchPool name ∧
      ((q i).request.jsonBody.map Prod.fst).Disjoint ((q k).request.jsonBody.map Prod.fst))) →
    StoresFields m.shared.store.poolOverrides name (q i).patchedItems

variable {q : ι → ControlRequest} {w : World} {m : Threads ι World PyError Response}
  {order : List ι}

omit [DecidableEq ι] in
theorem served_unique (hnodup : order.Nodup) {i : ι} {x y : Except PyError Response}
    (hx : (i, x) ∈ (served q order w).1) (hy : (i, y) ∈ (served q order w).1) : x = y := by
  have hkeys : ((served q order w).1.map Prod.fst).Nodup := by
    unfold served
    rwa [serial_keys]
  exact congrArg Prod.snd (List.inj_on_of_nodup_map hkeys hx hy rfl)

omit [DecidableEq ι] in
/-- What a request under the lock writes in place of the row of the name does not depend on
`paused`. -/
theorem cellFree_keepsApart (name : String)
    (hroutes : ∀ i, (q i).route.isSerialized = true ∨ (q i).route = .globalPause) :
    CellFree pausedCell (fun i => (q i).route.isSerialized) fun i => (q i).KeepsApart name := by
  have hpause : ∀ i, (q i).route = .globalPause → ∀ w, (q i).KeepsApart name w := by
    intro i hi w _ other htouches
    unfold ControlRequest.Touches at htouches
    rw [hi] at htouches
    rcases htouches with h | h | h | ⟨h, -⟩ <;> cases h
  refine ⟨fun {i s t} hsame hapart => ?_, fun {i} hi => ?_⟩
  · rcases hroutes i with hi | hi
    · intro haccepted other htouches hweight
      have hsuccess := ControlRequest.isSuccess_congr (((q i).agree_program hi).run hsame)
      have hmistakes := hapart (hsuccess.2 haccepted) other htouches
        (by rw [hsame.weight, hweight])
      unfold Store.MistakesPool at hmistakes ⊢
      rwa [← hsame.overrides, ← hsame.weight]
    · exact hpause i hi t
  · exact hpause i ((hroutes i).resolve_left (by rw [hi]; exact Bool.false_ne_true))

omit [DecidableEq ι] in
/-- The fields stay through the requests that follow. -/
theorem storesFields_served {name : String} {items : List (String × Json)} {l : List ι}
    (hapart : SerialAlong (fun i => (q i).program) (fun i => (q i).KeepsApart name) l w)
    (hstores : StoresFields w.store.poolOverrides name items)
    (hl : ∀ k ∈ l, ¬ (q k).Touches name ∨ ((q k).route = .patchPool name ∧
      ∀ kv ∈ items, kv.1 ∉ (q k).request.jsonBody.map Prod.fst)) :
    StoresFields (served q l w).2.store.poolOverrides name items := by
  induction l generalizing w with
  | nil => exact hstores
  | cons k l ih =>
    exact ih hapart.2 (storesFields_run hstores hapart.1 (hl k List.mem_cons_self)) fun j hj =>
      hl j (List.mem_cons_of_mem _ hj)

theorem patchedItems_keys (q : ControlRequest) :
    ∀ kv ∈ q.patchedItems, kv.1 ∈ q.request.jsonBody.map Prod.fst := by
  intro kv hkv
  unfold ControlRequest.patchedItems at hkv
  cases hfields : coercePoolFields q.request.jsonBody with
  | error e =>
    rw [hfields] at hkv
    cases hkv
  | ok fields =>
    rw [hfields] at hkv
    obtain ⟨f, hf, rfl⟩ := List.mem_map.1 hkv
    rw [← coercePoolFields_keys hfields]
    exact List.mem_map_of_mem hf

omit [DecidableEq ι] in
theorem keepsPatches_of_serial {name : String} (h : SerialResult q w m order)
    (hapart : SerialAlong (fun i => (q i).program) (fun i => (q i).KeepsApart name) order w) :
    KeepsPatches q name m := by
  intro i hroute hkeys haccepted hothers
  obtain ⟨before, after, rfl⟩ := List.append_of_mem (h.complete i)
  obtain ⟨x, hx, hsuccess⟩ := (h.accepted i).1 haccepted
  have hserved : served q (before ++ i :: after) w =
      ((served q before w).1 ++ (i, ((q i).run (served q before w).2).1) ::
          (served q after ((q i).run (served q before w).2).2).1,
        (served q after ((q i).run (served q before w).2).2).2) := by
    unfold served
    rw [serial_append, serial_cons]
    rfl
  have hself : (i, ((q i).run (served q before w).2).1) ∈ (served q (before ++ i :: after) w).1 := by
    rw [hserved]
    exact List.mem_append_right _ List.mem_cons_self
  obtain rfl := served_unique h.nodup hself hx
  obtain ⟨-, hself, hafter⟩ := (serialAlong_append _ _ _).1 hapart
  rw [h.overlay.overrides, hserved]
  refine storesFields_served hafter (storesFields_of_accepted hroute hkeys hsuccess hself)
    fun k hk => ?_
  have hne : k ≠ i := by
    rintro rfl
    obtain ⟨-, htail, -⟩ := List.nodup_append.1 h.nodup
    exact (List.nodup_cons.1 htail).1 hk
  refine (hothers k hne).imp_right fun hpatch => ⟨hpatch.1, fun kv hkv => ?_⟩
  exact hpatch.2 (patchedItems_keys _ kv hkv)

/-- **The result of every interleaving is that of a serial order**, in which each request under the
lock finds what it found when it took the lock, up to `paused`. -/
theorem serialResult_along {P : ι → World → Prop} {l : List (ThreadAction ι)}
    (hroutes : ∀ i, (q i).route.isSerialized = true ∨ (q i).route = .globalPause)
    (hP : CellFree pausedCell (fun i => (q i).route.isSerialized) P)
    (hfound : Along (servingStep q) (StartsIn P) (.init ι w) l)
    (hrun : run (servingStep q) (.init ι w) l = some m) (hended : ∀ i, ∃ x, m.phase i = .ended x) :
    ∃ order, SerialResult q w m order ∧ SerialAlong (fun i => (q i).program) P order w := by
  have hblind : ∀ i, (q i).route.isSerialized = false → pausedCell.Writes
      (some (if (q i).pauses then "1" else "0"))
      ((q i).deps.respond ⟨[("paused", .bool (q i).pauses)], 200⟩) (q i).program := by
    intro i hi
    refine (q i).writes_program ((hroutes i).resolve_left ?_)
    rw [hi]
    exact Bool.false_ne_true
  obtain ⟨order, hnodup, hcomplete, hsame, hcell, halong, houtcomes⟩ :=
    serialisable (fun i hi => (q i).agree_program hi) hblind (fun _ => rfl) hP hfound hrun hended
  refine ⟨order, ⟨hnodup, hcomplete, ⟨hsame.1, hsame.2, fun key => ?_⟩, fun i => ?_⟩, halong⟩
  · by_cases hkey : key = "paused"
    · rw [hkey]
      exact hcell
    · exact hsame.4 key hkey
  · constructor
    · rintro ⟨x, hx, hsuccess⟩
      obtain ⟨y, hy, hrelated⟩ := houtcomes i x hx
      exact ⟨y, hy, (ControlRequest.isSuccess_congr hrelated).1 hsuccess⟩
    · rintro ⟨y, hy, hsuccess⟩
      obtain ⟨x, hx⟩ := hended i
      obtain ⟨y', hy', hrelated⟩ := houtcomes i x hx
      obtain rfl := served_unique hnodup hy hy'
      exact ⟨x, hx, (ControlRequest.isSuccess_congr hrelated).2 hsuccess⟩

/-- **Concurrent edits are serialisable**, on every database; and of the pools whose rows are not
mistaken for others an accepted patch stays. -/
theorem edits_serialisable {l : List (ThreadAction ι)}
    (hroutes : ∀ i, (q i).route.isSerialized = true ∨ (q i).route = .globalPause)
    (hrun : run (servingStep q) (.init ι w) l = some m) (hended : ∀ i, ∃ x, m.phase i = .ended x) :
    (∃ order, SerialResult q w m order) ∧
      ∀ name, Along (servingStep q) (StartsIn fun i => (q i).KeepsApart name) (.init ι w) l →
        KeepsPatches q name m := by
  constructor
  · have hanything : CellFree pausedCell (fun i => (q i).route.isSerialized)
        (fun (_ : ι) (_ : World) => True) := ⟨fun _ _ => trivial, fun _ _ => trivial⟩
    have hfound : Along (servingStep q) (StartsIn fun _ _ => True) (.init ι w) l :=
      along_of_forall (fun _ a => by cases a <;> trivial) _ _
    obtain ⟨order, hserial, -⟩ := serialResult_along hroutes hanything hfound hrun hended
    exact ⟨order, hserial⟩
  · intro name hfound
    obtain ⟨order, hserial, halong⟩ :=
      serialResult_along hroutes (cellFree_keepsApart name hroutes) hfound hrun hended
    exact keepsPatches_of_serial hserial halong

end Interleavings

/-- Another patch of the pool. -/
def patchIdle : ControlRequest where
  deps := onePool
  route := .patchPool "ci"
  request := { method := .patch, path := ["api", "config", "pools", "ci"], body := some (.dict
    [("min_idle", .int 2)]) }

/-- Three threads: one patches a field of a pool, one another field, and one pauses. -/
inductive Editor
  | runners
  | idle
  | pausing
  deriving DecidableEq

def threeEdits : Editor → ControlRequest
  | .runners => patchOne
  | .idle => patchIdle
  | .pausing => pauseOne

/-- The pause comes between the calls of the two patches. -/
def threeTurns : List (ThreadAction Editor) :=
  [.start .idle, .call .idle, .start .pausing, .call .idle, .call .pausing, .call .idle,
    .finish .idle, .start .runners, .call .runners, .call .pausing, .call .runners, .call .runners,
    .finish .runners, .finish .pausing]

theorem edits_serialisable_three : ∃ m,
    run (servingStep threeEdits) (.init Editor (.new caseWeight)) threeTurns = some m ∧
      (∃ order, SerialResult threeEdits (.new caseWeight) m order) ∧
      KeepsPatches threeEdits "ci" m := by
  have hroutes : ∀ i, (threeEdits i).route.isSerialized = true ∨
      (threeEdits i).route = .globalPause := by
    intro i
    cases i with
    | runners => exact .inl rfl
    | idle => exact .inl rfl
    | pausing => exact .inr rfl
  have hnames : Along (servingStep threeEdits) (fun m _ => ¬ m.shared.store.MistakesPool "ci")
      (.init Editor (.new caseWeight)) threeTurns := by
    decide +kernel
  have htouches : ∀ i other, (threeEdits i).Touches other → other = "ci" := by
    intro i other h
    cases i with
    | runners | idle =>
      rcases h with hroute | hroute | hroute | ⟨hroute, -⟩
      · exact (ControlRoute.patchPool.inj hroute).symm
      all_goals cases hroute
    | pausing => rcases h with hroute | hroute | hroute | ⟨hroute, -⟩ <;> cases hroute
  have hapart : Along (servingStep threeEdits) (StartsIn fun i => (threeEdits i).KeepsApart "ci")
      (.init Editor (.new caseWeight)) threeTurns := by
    refine along_mono (fun m a hname => ?_) hnames
    cases a with
    | start i =>
      intro _ other hother _
      rwa [htouches i other hother]
    | call i | finish i => trivial
  refine ⟨_, rfl, ?_⟩
  obtain ⟨hserial, hkeeps⟩ := edits_serialisable (w := .new caseWeight) (l := threeTurns) hroutes rfl
    fun i => by cases i <;> exact ⟨_, rfl⟩
  exact ⟨hserial, hkeeps "ci" hapart⟩

/-- A server with two pools whose names differ in the case of their letters. -/
def twoNames : Deps :=
  ⟨plainSite [{ name := "ci", pat := "ghp", owner := "acme" },
    { name := "CI", pat := "ghp", owner := "acme" }], "s3cret", ""⟩

def patchNamed (name : String) (field : String × Json) : ControlRequest where
  deps := twoNames
  route := .patchPool name
  request :=
    { method := .patch, path := ["api", "config", "pools", name], body := some (.dict [field]) }

/-- Two patches of different fields of the one pool. -/
def twoFields : Bool → ControlRequest
  | false => patchNamed "ci" ("max_runners", .int 5)
  | true => patchNamed "ci" ("min_idle", .int 2)

/-- The other pool has a row. -/
def otherPatched : World := ((patchNamed "CI" ("max_runners", .int 3)).run (.new caseWeight)).2

/-- **Accepted patches are lost** where letter case does not count: each is written to the row of the
other pool, and none is in a row of its own. -/
theorem not_edits_serialisable :
    ¬ ∀ (q : Bool → ControlRequest) (w : World) (l : List (ThreadAction Bool))
      (m : Threads Bool World PyError Response),
      (∀ i, (q i).route.isSerialized = true ∨ (q i).route = .globalPause) →
      run (servingStep q) (.init Bool w) l = some m → (∀ i, ∃ x, m.phase i = .ended x) →
      (∃ order, SerialResult q w m order) ∧ ∀ name, KeepsPatches q name m := by
  intro h
  have hroutes : ∀ i, (twoFields i).route.isSerialized = true ∨
      (twoFields i).route = .globalPause := by
    intro i
    cases i <;> exact .inl rfl
  obtain ⟨-, hkeeps⟩ := h twoFields otherPatched
    [.start false, .call false, .call false, .call false, .finish false,
      .start true, .call true, .call true, .call true, .finish true] _ hroutes rfl fun i => by
    cases i <;> exact ⟨_, rfl⟩
  have hdisjoint : ((twoFields false).request.jsonBody.map Prod.fst).Disjoint
      ((twoFields true).request.jsonBody.map Prod.fst) :=
    List.singleton_disjoint.2 (by decide)
  obtain ⟨row, data, hrow, -⟩ := hkeeps "ci" false rfl (List.nodup_singleton _)
    ⟨_, rfl, _, rfl, by decide, by decide⟩ fun k hk => by
      cases k with
      | false => exact absurd rfl hk
      | true => exact .inr ⟨rfl, hdisjoint⟩
  cases hrow

end RunnerSwarm
