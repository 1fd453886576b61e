import RunnerSwarm.Server.Overlay

/-!
# Accepted edits

A handler that accepts a definition or a patch has validated a candidate, and later the resolver
builds the pool anew. `EditRuns` says that the two agree.

They can differ in one way. The candidate of a row with the origin `ui` is built from the row alone,
but when `config.yml` has a pool of that name, the resolver lays the row over that pool, which keeps
its owner, its token and whatever else the row does not tune. A handler writes such a row when it
creates a pool under the name of one that `config.yml` has and that is switched off, or when it
patches one that was created before `config.yml` had the name: `Mixes`. And a database that takes
the name for another one, under which a row stands, puts the edit there (`Store.MistakesPool`).

* `acceptedEdit_runs`: from every reachable overlay, any other accepted edit is what runs.
-/

namespace RunnerSwarm

namespace Site

/-- The candidate that the handler of an edit validates. -/
def candidateOf (site : Site) (s : Store) (r : Request) :
    ControlRoute → Except PyError (Option PoolConfig)
  | .createPool => candidatePool site.resolver (createdName r) (createdData r) "ui"
  | .patchPool name => do
      let overrides ← readOverrides s.poolOverrides.rows
      let existing := entryFor name overrides
      let data ← existing.elim (.ok []) fun entry => dictOf entry.data
      match ← mergeFields data r.jsonBody with
      | none => return none
      | some merged => candidatePool site.resolver name merged (existing.elim "yaml" (·.origin))
  | _ => .ok none

end Site

/-- The requests that define or change a pool. -/
def ControlRoute.definesPool : ControlRoute → Bool
  | .createPool | .patchPool _ => true
  | _ => false

/-- When the request is accepted, the candidate it was validated with is what runs. -/
def EditRuns (q : ControlRequest) (w : World) : Prop :=
  q.route.definesPool = true → q.Accepted w → ∃ candidate e,
    q.deps.candidateOf w.store q.request q.route = .ok (some candidate) ∧
      q.deps.resolver.resolve (q.run w).2.store.toDatabase = .ok e ∧
      e.pools.filter (·.name = q.route.target q.request) = [candidate] ∧
      validationErrors [candidate] = .ok []

/-- The request defines a pool under a name that `config.yml` has. -/
def Mixes (q : ControlRequest) (w : World) : Prop :=
  match q.route with
  | .createPool => q.deps.basePool (Site.createdName q.request) ≠ none
  | .patchPool name => q.deps.basePool name ≠ none ∧
      ∃ row, w.store.poolOverrides.get name = some row ∧ row.origin = "ui"
  | _ => False

section AcceptedEdits

variable {encodable : String → Prop} {site : Site} {db : Database} {name origin : String}
  {data : List (String × Json)} {candidate base : PoolConfig}

theorem filter_eq_nil_of_basePool (h : site.basePool name = none) :
    site.resolver.basePools.filter (·.name = name) = [] := by
  unfold Site.basePool at h
  rw [List.find?_eq_none] at h
  exact List.filter_eq_nil_iff.2 h

theorem filter_eq_singleton_of_basePool
    (hdistinct : (site.resolver.basePools.map (·.name)).Nodup)
    (h : site.basePool name = some base) :
    site.resolver.basePools.filter (·.name = name) = [base] := by
  unfold Site.basePool at h
  generalize site.resolver.basePools = bases at h hdistinct
  induction bases with
  | nil => cases h
  | cons first rest ih =>
    obtain ⟨hfresh, hrest⟩ := List.nodup_cons.1 hdistinct
    by_cases hname : first.name = name
    · rw [List.find?_cons_of_pos (by simpa using hname)] at h
      obtain rfl := Option.some.inj h
      rw [List.filter_cons_of_pos (by simpa using hname)]
      refine congrArg _ (filter_name_eq_nil fun p hp hpname => hfresh ?_)
      show first.name ∈ rest.map (·.name)
      rw [hname, ← hpname]
      exact List.mem_map_of_mem hp
    · rw [List.find?_cons_of_neg (by simpa using hname)] at h
      rw [List.filter_cons_of_neg (by simpa using hname)]
      exact ih h hrest

/-- **A stored definition is what runs**, when it was approved and, with the origin `ui`, has a name
of its own. -/
theorem resolves_to_candidate (henv : Encodes encodable site.resolver)
    (hdistinct : (site.resolver.basePools.map (·.name)).Nodup)
    (hsound : SoundOverlay encodable db.poolOverrides)
    (hrow : db.poolOverrides.get name = some ⟨.value (.dict data), origin, false⟩)
    (happroved : site.Approves name data origin candidate)
    (hown : origin = "ui" → site.basePool name = none) :
    ∃ e, site.resolver.resolve db = .ok e ∧ e.pools.filter (·.name = name) = [candidate] := by
  obtain ⟨e, he⟩ := resolves_of_sound henv hsound
  have hnamed := resolve_named he name
  have hentry : db.storedEntry name = some ⟨.dict data, origin, false⟩ := by
    unfold Database.storedEntry
    rw [hrow]
    rfl
  refine ⟨e, he, ?_⟩
  rw [hentry] at hnamed
  unfold ConfigResolver.namedPools at hnamed
  by_cases hui : origin = "ui"
  · subst hui
    obtain ⟨data', hdata⟩ := hsound name _ hrow
    cases hdata.decoded
    have hbuilt := Site.buildUiPool_of_approves happroved (hdata.definition rfl).keys
    rw [filter_eq_nil_of_basePool (hown rfl)] at hnamed
    have hactive : ¬ (("ui" : String) ≠ "ui" ∨ false = true) := by simp
    dsimp only [resolveEntry] at hnamed
    rw [if_neg hactive, hbuilt] at hnamed
    exact (Except.ok.inj hnamed).symm
  · obtain ⟨base, hbase, hpool⟩ := Site.approves_yaml happroved hui
    rw [filter_eq_singleton_of_basePool hdistinct hbase] at hnamed
    dsimp only [resolveOne] at hnamed
    rw [if_neg Bool.false_ne_true, hpool] at hnamed
    exact (Except.ok.inj hnamed).symm

/-- What the handler read of the overlay. -/
theorem exists_overrides_of_entry {entry : Option OverrideEntry} (h : db.entry name = .ok entry) :
    ∃ overrides, readOverrides db.poolOverrides.rows = .ok overrides ∧
      entryFor name overrides = entry := by
  unfold Database.entry at h
  cases hread : readOverrides db.poolOverrides.rows with
  | error e =>
    rw [hread] at h
    cases h
  | ok overrides =>
    rw [hread] at h
    exact ⟨overrides, rfl, Except.ok.inj h⟩

theorem entry_eq_stored {entry : Option OverrideEntry} (h : db.entry name = .ok entry) :
    entry = db.storedEntry name := by
  obtain ⟨overrides, hread, rfl⟩ := exists_overrides_of_entry h
  rw [(readOverrides_eq_ok_iff.1 hread).2]
  exact entryFor_decoded

/-- The row that is written under a name no other one stands for. -/
theorem get_setPoolOverride {s : Store} {json : Json} {disabled : Bool}
    (h : ¬ s.MistakesPool name) :
    (s.setPoolOverride name json origin disabled).poolOverrides.get name =
      some ⟨.value json, origin, disabled⟩ := by
  rw [Store.setPoolOverride_overrides h, Table.get_put, if_pos rfl]

/-- **An accepted edit is what runs**, from every reachable overlay of every database, unless it
mixes a definition with a pool of `config.yml` or the database takes its name for another one. -/
theorem acceptedEdit_runs {weight : String → String} {l : List OverlayAction} {w : World}
    {q : ControlRequest} (henv : ∀ a ∈ l, a.Encodes encodable)
    (hrun : run overlayStep (.new weight) l = some w) (hq : Encodes encodable q.deps.resolver)
    (hdistinct : (q.deps.resolver.basePools.map (·.name)).Nodup) (hown : ¬ Mixes q w)
    (hname : ¬ w.store.MistakesPool (q.route.target q.request)) : EditRuns q w := by
  intro hdefines haccepted
  have hsound := sound_run henv hrun
  have hroute : q.route.isEdit = true := by
    cases hroute : q.route <;> rw [hroute] at hdefines <;> first | rfl | cases hdefines
  obtain ⟨edit, row, hedit, hworld⟩ := ControlRequest.edits_of_accepted hroute haccepted
  have hafter := sound_edits hq hsound hedit
  rw [hworld]
  unfold Mixes at hown
  generalize q.route = route at *
  cases hedit with
  | stateSet | protectionSet | pauseSet | reset | removed | disabled => cases hdefines
  | @created candidate effective hnonempty hfields heffective hnew happroved =>
    have hbase : q.deps.basePool (Site.createdName q.request) = none := not_not.1 hown
    obtain ⟨e, he, hnamed⟩ := resolves_to_candidate hq hdistinct hafter
      (get_setPoolOverride hname) happroved fun _ => hbase
    exact ⟨candidate, e, happroved.1, he, hnamed, happroved.2⟩
  | @patched name entry data merged candidate hfields hentry hknown hdata hmerged happroved =>
    have hbase : entry.elim "yaml" (·.origin) = "ui" → q.deps.basePool name = none := by
      intro hui
      cases entry with
      | none => exact absurd hui (by decide)
      | some entry =>
        obtain ⟨row', data', hrow', -, rfl⟩ := exists_row_of_entry hsound hentry
        by_contra hsome
        exact hown ⟨hsome, row', hrow', hui⟩
    obtain ⟨e, he, hnamed⟩ := resolves_to_candidate hq hdistinct hafter
      (get_setPoolOverride hname) happroved hbase
    refine ⟨candidate, e, ?_, he, hnamed, happroved.2⟩
    obtain ⟨overrides, hread, rfl⟩ := exists_overrides_of_entry hentry
    unfold Site.candidateOf
    show (readOverrides w.store.poolOverrides.rows >>= _) = _
    rw [show readOverrides w.store.poolOverrides.rows = .ok overrides from hread]
    show ((entryFor name overrides).elim (.ok []) (fun e => dictOf e.data) >>= _) = _
    rw [hdata]
    show (Site.mergeFields data q.request.jsonBody >>= _) = _
    rw [hmerged]
    exact happroved.1

end AcceptedEdits

/-- A pool is created on an empty database. -/
def createPlain : ControlRequest where
  deps := ⟨plainSite [], "s3cret", ""⟩
  route := .createPool
  request := { method := .post, path := ["api", "config", "pools"], body := some (.dict
    [("name", .str "ci"), ("owner", .str "acme"), ("max_runners", .int 5)]) }

theorem acceptedEdit_runs_created : EditRuns createPlain .empty :=
  @acceptedEdit_runs (fun _ => True) id [] .empty createPlain
    (fun _ ha => absurd ha List.not_mem_nil) rfl (fun _ => iff_of_true ⟨_, rfl⟩ trivial)
    List.nodup_nil (not_not_intro rfl) (by decide)

/-- A server with one pool in `config.yml`. -/
def onePool : Deps := ⟨plainSite [{ name := "ci", pat := "ghp", owner := "acme" }], "s3cret", ""⟩

/-- The pool is switched off, and a pool of its name is created for another owner. -/
def removeOne : ControlRequest where
  deps := onePool
  route := .removePool "ci"
  request := { method := .delete, path := ["api", "config", "pools", "ci"] }

def createOne : ControlRequest where
  deps := onePool
  route := .createPool
  request := { method := .post, path := ["api", "config", "pools"], body := some (.dict
    [("name", .str "ci"), ("owner", .str "widgets")]) }

/-- **An accepted edit is not what runs**: the created pool gets the owner of the one that was
switched off. -/
theorem not_editRuns :
    ¬ ∀ (encodable : String → Prop) (l : List OverlayAction) (w : World) (q : ControlRequest),
      (∀ a ∈ l, a.Encodes encodable) → run overlayStep .empty l = some w →
      Encodes encodable q.deps.resolver → (q.deps.resolver.basePools.map (·.name)).Nodup →
      EditRuns q w := by
  intro h
  have henv : Encodes (fun _ => True) onePool.resolver := fun _ => iff_of_true ⟨_, rfl⟩ trivial
  have hruns := h (fun _ => True) [.request removeOne] (removeOne.run .empty).2 createOne
    (fun a ha => by rw [List.mem_singleton.1 ha]; exact henv) rfl henv (List.nodup_singleton _)
  obtain ⟨candidate, e, hcandidate, he, hpools, -⟩ := hruns rfl ⟨_, rfl, by decide, by decide⟩
  have howner : candidate.owner = "widgets" := by
    have hvalidated : onePool.candidateOf (removeOne.run .empty).2.store createOne.request
        createOne.route = .ok (some { name := "ci", pat := "ghp", owner := "widgets" }) := rfl
    rw [Option.some.inj (Except.ok.inj (hcandidate.symm.trans hvalidated))]
  have hrunning : (onePool.resolver.resolve
      (createOne.run (removeOne.run .empty).2).2.store.toDatabase).map (fun e => e.pools) =
      .ok [{ name := "ci", pat := "ghp", owner := "acme" }] := rfl
  have hresolved : (onePool.resolver.resolve
      (createOne.run (removeOne.run .empty).2).2.store.toDatabase).map (fun e => e.pools) =
      .ok e.pools := congrArg (Except.map fun e => e.pools) he
  have hsame := Except.ok.inj (hresolved.symm.trans hrunning)
  rw [hsame] at hpools
  have hone : [({ name := "ci", pat := "ghp", owner := "acme" } : PoolConfig)] = [candidate] := hpools
  rw [← (List.cons.inj hone).1] at howner
  exact absurd howner (by decide)

end RunnerSwarm
