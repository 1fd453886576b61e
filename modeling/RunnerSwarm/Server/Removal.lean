import RunnerSwarm.Server.AcceptedEdits

/-!
# Removed pools

To remove a created pool is to drop its row; a pool of `config.yml` is switched off by a row that is
disabled. `Gone` says for a name that one of the two is the case, and `gone_step` that a request keeps
it so unless it is accepted and creates, resets or patches the name. A patch is the odd one out: it
stores the row without its flag, so the removed pool is back. And a request can write a row under
another name that the database takes for the one it asks for: `KeepsApart` excludes it.

* `removed_stays`: after an accepted removal the name is gone from the effective configuration and
  stays so, through every run without an accepted create, reset or patch of the name.
-/

namespace RunnerSwarm

/-- The effective configuration has no pool of the name. -/
def NoPool (r : ConfigResolver) (db : Database) (name : String) : Prop :=
  ∃ e, r.resolve db = .ok e ∧ ∀ p ∈ e.pools, p.name ≠ name

/-- Nothing in `config.yml` and in the overlay makes a pool of the name. -/
def Gone (bases : List PoolConfig) (name : String) (overlay : Table String OverrideRow) : Prop :=
  (bases.filter (·.name = name) = [] ∧ overlay.get name = none) ∨
    ∃ base data, bases.filter (·.name = name) = [base] ∧
      overlay.get name = some ⟨.value data, "yaml", true⟩

/-- An accepted request that brings the name back on purpose. -/
def OverlayAction.Recreates (name : String) (w : World) : OverlayAction → Prop
  | .request q => q.Accepted w ∧
      ((q.route = .createPool ∧ Site.createdName q.request = name) ∨ q.route = .resetPool name)
  | .others _ => False

/-- An accepted patch of the name, when `config.yml` has it. -/
def OverlayAction.Patches (bases : List PoolConfig) (name : String) (w : World) :
    OverlayAction → Prop
  | .request q => q.Accepted w ∧ q.route = .patchPool name ∧ name ∈ bases.map (·.name)
  | .others _ => False

/-- The action's server was started with these pools. -/
def OverlayAction.Serves (bases : List PoolConfig) : OverlayAction → Prop
  | .request q => q.deps.resolver.basePools = bases
  | .others _ => True

/-- An accepted request does not write the row of the name in place of another one. -/
def OverlayAction.KeepsApart (name : String) (w : World) : OverlayAction → Prop
  | .request q => q.KeepsApart name w
  | .others _ => True

/-- The removal reaches what it is meant to remove: `config.yml` has the name at most once, and not
at all when the row is a created pool's. -/
def RemovesAll (bases : List PoolConfig) (name : String) (w : World) : Prop :=
  (bases.filter (·.name = name)).length ≤ 1 ∧
    ((∃ row, w.store.poolOverrides.get name = some row ∧ row.origin = "ui") →
      name ∉ bases.map (·.name))

section Removal

variable {encodable : String → Prop} {bases : List PoolConfig} {name : String} {w t : World}

theorem filter_name_eq_nil_iff :
    bases.filter (·.name = name) = [] ↔ name ∉ bases.map (·.name) := by
  rw [List.filter_eq_nil_iff, List.mem_map]
  constructor
  · rintro h ⟨base, hbase, hname⟩
    exact h base hbase (decide_eq_true hname)
  · intro h base hbase hname
    exact h ⟨base, hbase, of_decide_eq_true hname⟩

theorem basePool_eq_none_iff {site : Site} :
    site.basePool name = none ↔ name ∉ site.resolver.basePools.map (·.name) := by
  rw [← filter_name_eq_nil_iff, List.filter_eq_nil_iff, Site.basePool, List.find?_eq_none]

/-- **A name that is gone has no pool.** -/
theorem noPool_of_gone {r : ConfigResolver} {db : Database} (henv : Encodes encodable r)
    (hsound : SoundOverlay encodable db.poolOverrides) (h : Gone r.basePools name db.poolOverrides) :
    NoPool r db name := by
  obtain ⟨e, he⟩ := resolves_of_sound henv hsound
  have hnamed := resolve_named he name
  have hnone : e.pools.filter (·.name = name) = [] := by
    unfold ConfigResolver.namedPools Database.storedEntry at hnamed
    rcases h with ⟨hbase, hrow⟩ | ⟨base, data, hbase, hrow⟩
    · rw [hbase, hrow] at hnamed
      exact (Except.ok.inj hnamed).symm
    · rw [hbase, hrow] at hnamed
      exact (Except.ok.inj hnamed).symm
  refine ⟨e, he, fun p hp hname => ?_⟩
  exact List.filter_eq_nil_iff.1 hnone p hp (decide_eq_true hname)

/-- **A removal leaves the name gone**, when it reaches everything. -/
theorem gone_of_removed {q : ControlRequest} (hsound : SoundOverlay encodable w.store.poolOverrides)
    (hroute : q.route = .removePool name) (haccepted : q.Accepted w)
    (hall : RemovesAll q.deps.resolver.basePools name w) (hname : ¬ w.store.MistakesPool name) :
    Gone q.deps.resolver.basePools name (q.run w).2.store.poolOverrides := by
  obtain ⟨edit, row, hedit, hworld⟩ :=
    ControlRequest.edits_of_accepted (by rw [hroute]; rfl) haccepted
  rw [hworld]
  rw [hroute] at hedit
  cases hedit with
  | removed hentry horigin =>
    obtain ⟨row', data, hrow, -, rfl⟩ := exists_row_of_entry hsound hentry
    refine .inl ⟨filter_name_eq_nil_iff.2 (hall.2 ⟨row', hrow, horigin⟩), ?_⟩
    show (w.store.deletePoolOverride name).poolOverrides.get name = none
    rw [Store.deletePoolOverride_overrides hname, Table.get_without, if_pos rfl]
  | disabled hentry horigin hbase =>
    obtain ⟨base, hone⟩ : ∃ base, q.deps.resolver.basePools.filter (·.name = name) = [base] := by
      refine List.length_eq_one_iff.1 (le_antisymm hall.1 ?_)
      rw [Nat.one_le_iff_ne_zero, Ne, List.length_eq_zero_iff]
      exact fun hnil => hbase (basePool_eq_none_iff.2 (filter_name_eq_nil_iff.1 hnil))
    exact .inr ⟨base, _, hone, get_setPoolOverride hname⟩

/-- **A step keeps the name gone** unless it brings it back. -/
theorem gone_step {a : OverlayAction} (hsound : SoundOverlay encodable w.store.poolOverrides)
    (h : Gone bases name w.store.poolOverrides) (hserves : a.Serves bases)
    (hrecreates : ¬ a.Recreates name w) (hpatches : ¬ a.Patches bases name w)
    (hapart : a.KeepsApart name w) (hstep : overlayStep w a = some t) :
    Gone bases name t.store.poolOverrides := by
  cases a with
  | others world =>
    obtain rfl := Option.some.inj hstep
    exact h
  | request q =>
    obtain rfl := Option.some.inj hstep
    by_cases htouches : q.Touches name
    · rcases q.overlay_run w with hsame | ⟨edit, haccepted, hedit, happly⟩
      · rwa [hsame]
      rw [happly]
      have hserved : q.deps.resolver.basePools = bases := hserves
      rcases htouches with hroute | hroute | hroute | ⟨hroute, hname⟩
      · rw [hroute] at hedit
        cases hedit with
        | @patched _ entry data merged candidate hfields hentry hknown hdata hmerged happroved =>
          exfalso
          rcases h with ⟨hnil, hnone⟩ | ⟨base, data', hone, -⟩
          · -- neither `config.yml` nor the overlay knows the name
            have hentry' : w.store.toDatabase.entry name = _ := entry_of_sound hsound
            unfold Database.storedEntry at hentry'
            rw [hnone] at hentry'
            obtain rfl := Except.ok.inj (hentry.symm.trans hentry')
            rcases hknown with hbase | hui
            · rw [Ne, basePool_eq_none_iff, hserved] at hbase
              exact hbase (filter_name_eq_nil_iff.1 hnil)
            · exact absurd hui (by decide)
          · refine hpatches ⟨haccepted, hroute, ?_⟩
            by_contra hnot
            rw [filter_name_eq_nil_iff.2 hnot] at hone
            cases hone
      · exact absurd ⟨haccepted, .inr hroute⟩ hrecreates
      · rw [hroute] at hedit
        cases hedit with
        | removed hentry horigin =>
          obtain ⟨row, data, hrow, -, rfl⟩ := exists_row_of_entry hsound hentry
          rcases h with ⟨-, hnone⟩ | ⟨base, data', -, hsome⟩
          · exact absurd (hrow.symm.trans hnone) (Option.some_ne_none _)
          · obtain rfl := Option.some.inj (hrow.symm.trans hsome)
            have hyaml : "yaml" ≠ "ui" := by decide
            exact absurd horigin hyaml
        | disabled hentry horigin hbase =>
          rcases h with ⟨hnil, -⟩ | ⟨base, data', hone, -⟩
          · refine absurd ?_ hbase
            rw [basePool_eq_none_iff, hserved]
            exact filter_name_eq_nil_iff.1 hnil
          · have hname := hapart haccepted name (.inr (.inr (.inl hroute))) rfl
            exact .inr ⟨base, _, hone, get_setPoolOverride hname⟩
      · exact absurd ⟨haccepted, .inl ⟨hroute, hname⟩⟩ hrecreates
    · unfold Gone at h ⊢
      rwa [ControlRequest.get_of_not_touches hapart htouches]

/-- **Removed stays removed**, on every database and along every run in which no accepted request
creates or resets the pool, none patches it while `config.yml` has it, and none writes its row in
place of another one. -/
theorem removed_stays {weight : String → String} {past later : List OverlayAction}
    {q : ControlRequest} {r : ConfigResolver} (hpast : ∀ a ∈ past, a.Encodes encodable)
    (hreached : run overlayStep (.new weight) past = some w)
    (hq : Encodes encodable q.deps.resolver) (hroute : q.route = .removePool name)
    (haccepted : q.Accepted w) (hall : RemovesAll q.deps.resolver.basePools name w)
    (hname : ¬ w.store.MistakesPool name)
    (hlater : ∀ a ∈ later, a.Encodes encodable)
    (hserves : ∀ a ∈ later, a.Serves q.deps.resolver.basePools)
    (hrecreates : Along overlayStep (fun w a => ¬ a.Recreates name w) (q.run w).2 later)
    (hpatches : Along overlayStep (fun w a => ¬ a.Patches q.deps.resolver.basePools name w)
      (q.run w).2 later)
    (hapart : Along overlayStep (fun w a => a.KeepsApart name w) (q.run w).2 later)
    (hrun : run overlayStep (q.run w).2 later = some t) (hr : Encodes encodable r)
    (hbases : r.basePools = q.deps.resolver.basePools) : NoPool r t.store.toDatabase name := by
  have hsound := sound_run hpast hreached
  have hstart := sound_step (a := .request q) hsound hq rfl
  have hgone := gone_of_removed hsound hroute haccepted hall hname
  have hok := along_and (along_and (along_of_actions hlater _) (along_of_actions hserves _))
    (along_and hrecreates (along_and hpatches hapart))
  obtain ⟨hsoundEnd, hgoneEnd⟩ := run_invariant
    (I := fun w => SoundOverlay encodable w.store.poolOverrides ∧
      Gone q.deps.resolver.basePools name w.store.poolOverrides)
    (fun _ _ _ hs ha hstep => ⟨sound_step hs.1 ha.1.1 hstep,
      gone_step hs.1 hs.2 ha.1.2 ha.2.1 ha.2.2.1 ha.2.2.2 hstep⟩) ⟨hstart, hgone⟩ hok hrun
  exact noPool_of_gone hr hsoundEnd (hbases ▸ hgoneEnd)

end Removal

/-- The provisioning is paused. -/
def pauseOne : ControlRequest where
  deps := onePool
  route := .globalPause
  request := { method := .post, path := ["api", "pause"] }

theorem removed_stays_paused :
    ∃ t, run overlayStep (removeOne.run .empty).2 [.request pauseOne] = some t ∧
      NoPool onePool.resolver t.store.toDatabase "ci" := by
  have henv : Encodes (fun _ => True) onePool.resolver := fun _ => iff_of_true ⟨_, rfl⟩ trivial
  have hlater : ∀ a ∈ [OverlayAction.request pauseOne], a = .request pauseOne := fun _ ha =>
    List.mem_singleton.1 ha
  have hrecreates : Along overlayStep (fun w a => ¬ a.Recreates "ci" w) (removeOne.run .empty).2
      [.request pauseOne] := by
    refine ⟨?_, fun _ _ => trivial⟩
    rintro ⟨-, ⟨hroute, -⟩ | hroute⟩ <;> cases hroute
  have hpatches : Along overlayStep
      (fun w a => ¬ a.Patches removeOne.deps.resolver.basePools "ci" w) (removeOne.run .empty).2
      [.request pauseOne] := by
    refine ⟨?_, fun _ _ => trivial⟩
    rintro ⟨-, hroute, -⟩
    cases hroute
  have hapart : Along overlayStep (fun w a => a.KeepsApart "ci" w) (removeOne.run .empty).2
      [.request pauseOne] := by
    refine ⟨fun _ name htouches => ?_, fun _ _ => trivial⟩
    rcases htouches with hroute | hroute | hroute | ⟨hroute, -⟩ <;> cases hroute
  have hreached : run overlayStep (.new id) [] = some .empty := rfl
  refine ⟨_, rfl, removed_stays (q := removeOne)
    (fun a ha => absurd ha List.not_mem_nil) hreached henv rfl ⟨_, rfl, by decide, by decide⟩
    ⟨Nat.le_refl 1, ?_⟩ (by decide) (fun a ha => ?_) (fun a ha => ?_) hrecreates hpatches hapart rfl
    henv rfl⟩
  · rintro ⟨row, hrow, -⟩
    cases hrow
  · rw [hlater a ha]
    exact henv
  · rw [hlater a ha]
    rfl

/-- The removed pool gets another limit. -/
def patchOne : ControlRequest where
  deps := onePool
  route := .patchPool "ci"
  request := { method := .patch, path := ["api", "config", "pools", "ci"], body := some (.dict
    [("max_runners", .int 5)]) }

/-- **A removed pool comes back** when its settings are patched. -/
theorem not_removed_stays :
    ¬ ∀ (encodable : String → Prop) (past later : List OverlayAction) (w t : World)
      (q : ControlRequest) (name : String), (∀ a ∈ past, a.Encodes encodable) →
      run overlayStep .empty past = some w → Encodes encodable q.deps.resolver →
      q.route = .removePool name → q.Accepted w → (∀ a ∈ later, a.Encodes encodable) →
      (∀ a ∈ later, a.Serves q.deps.resolver.basePools) →
      Along overlayStep (fun w a => ¬ a.Recreates name w) (q.run w).2 later →
      run overlayStep (q.run w).2 later = some t →
      NoPool q.deps.resolver t.store.toDatabase name := by
  intro h
  have henv : Encodes (fun _ => True) onePool.resolver := fun _ => iff_of_true ⟨_, rfl⟩ trivial
  have hlater : ∀ a ∈ [OverlayAction.request patchOne], a = .request patchOne := fun _ ha =>
    List.mem_singleton.1 ha
  have hrecreates : Along overlayStep (fun w a => ¬ a.Recreates "ci" w) (removeOne.run .empty).2
      [.request patchOne] := by
    refine ⟨?_, fun _ _ => trivial⟩
    rintro ⟨-, ⟨hroute, -⟩ | hroute⟩ <;> cases hroute
  obtain ⟨e, he, hnone⟩ := h (fun _ => True) [] [.request patchOne] .empty
    (patchOne.run (removeOne.run .empty).2).2 removeOne "ci"
    (fun a ha => absurd ha List.not_mem_nil) rfl henv rfl ⟨_, rfl, by decide, by decide⟩
    (fun a ha => by rw [hlater a ha]; exact henv) (fun a ha => by rw [hlater a ha]; rfl)
    hrecreates rfl
  have hback : (onePool.resolver.resolve
      (patchOne.run (removeOne.run .empty).2).2.store.toDatabase).map (fun e => e.pools) =
      .ok [{ name := "ci", pat := "ghp", owner := "acme", maxRunners := 5 }] := rfl
  have hpools : (onePool.resolver.resolve
      (patchOne.run (removeOne.run .empty).2).2.store.toDatabase).map (fun e => e.pools) =
      .ok e.pools := congrArg (Except.map fun e => e.pools) he
  rw [Except.ok.inj (hpools.symm.trans hback)] at hnone
  exact hnone _ List.mem_cons_self rfl

end RunnerSwarm
