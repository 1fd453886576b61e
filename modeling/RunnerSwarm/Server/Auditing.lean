import RunnerSwarm.Server.App
import RunnerSwarm.Server.Edits

/-!
# Refused edits and the audit log

A refused request leaves the configuration as it is, and a changed configuration comes with exactly
one row of the audit log that describes the request: `Accounted`. This holds of every control
endpoint but one. `PATCH /api/config/globals` stores the values of its body one after the other, and
when it comes to one it does not accept, it answers 400 (or raises) with the values before it stored
and nothing in the audit log.

* `accounted_iff`: a request is accounted for exactly when it is not such a partly stored body:
  `StoresWhole`.
-/

namespace RunnerSwarm

/-- A refusal changes nothing, and a change is recorded once. -/
def Accounted (clock : Clock) (r : Request) (route : ControlRoute) (w : World)
    (result : Except PyError Response × World) : Prop :=
  (∀ response, result.1 = .ok response → 400 ≤ response.status → response.status < 500 →
    SameConfig w result.2) ∧
  (¬ SameConfig w result.2 →
    ∃ row, result.2.store.auditLog = w.store.auditLog ++ [row] ∧ Describes r clock route row)

/-- A body of `PATCH /api/config/globals` that is refused for its keys, or accepted as a whole, or
whose values before the first one that is not accepted are stored already. -/
def StoresWhole (r : Request) (route : ControlRoute) (s : Store) : Prop :=
  route = .patchGlobals → (¬ ∀ kv ∈ r.jsonBody, kv.1 ∈ globalKeys) ∨
    (∀ kv ∈ r.jsonBody, (globalText kv).isSome) ∨
    ∀ kv ∈ acceptedItems r.jsonBody,
      s.globalOverrides.get kv.1 = lastText (acceptedItems r.jsonBody) kv.1

variable {clock : Clock} {r : Request} {route : ControlRoute} {w : World}

theorem accounted_of_sameConfig {result : Except PyError Response × World}
    (h : SameConfig w result.2) : Accounted clock r route w result :=
  ⟨fun _ _ _ _ => h, fun hne => absurd h hne⟩

namespace Deps

variable (d : Deps) (docker : DockerAnswers)

/-- The response to what a handler returned. -/
def responded (result : Except PyError Reply × World) : Except PyError Response × World :=
  (d.respond <$> result.1, result.2)

theorem run_controlView (hplain : Site.isIdempotent route = false) :
    (d.controlView docker clock r route).run w =
      d.responded ((d.handler docker clock r route).run w) := by
  unfold controlView responded
  rw [hplain, if_neg Bool.false_ne_true, Program.run_bind]
  rcases (d.handler docker clock r route).run w with ⟨reply | reply, w'⟩ <;> rfl

/-- The endpoints under `idempotent` change no table of the configuration. -/
theorem keepsConfig_controlView (hidempotent : Site.isIdempotent route = true) :
    Program.Changes KeepsConfig (d.controlView docker clock r route) := by
  have hhandler : Program.Changes KeepsConfig (d.handler docker clock r route) := by
    cases route with
    | stopContainer name => exact Site.keepsConfig_stop _ docker clock r name "stop"
    | restartContainer name => exact Site.keepsConfig_stop _ docker clock r name "restart"
    | scalePool name => exact Site.keepsConfig_scalePool _ docker clock r name
    | _ => cases hidempotent
  have hview : Program.Changes KeepsConfig (do
      let reply ← d.handler docker clock r route
      return d.respond reply) := .bind hhandler fun _ => .pure _
  unfold controlView Site.idempotent
  rw [if_pos hidempotent]
  dsimp only
  split_ifs with hkey
  · exact hview
  · refine .bind (.call (.inr fun w => ?_) fun _ => .done _) fun taken => ?_
    · dsimp only
      split_ifs <;> rfl
    · split_ifs with htaken
      · exact .pure _
      · refine .ensure (fun _ => rfl) (.bind (keepsConfig_readStore _) fun cached => ?_)
        cases cached with
        | some cached => exact .pure _
        | none =>
          refine .bind hview fun response => ?_
          split_ifs with hstatus
          · exact .bind (keepsConfig_writeStore fun _ => rfl) fun _ => .pure _
          · exact .pure _

/-- An endpoint that makes one edit is accounted for. -/
theorem accounted_of_handled {result : Except PyError Reply × World}
    (h : Site.Handled d.toSite clock r route w result) :
    Accounted clock r route w (d.responded result) := by
  cases h with
  | refused hlow hhigh => exact accounted_of_sameConfig rfl
  | raised e => exact accounted_of_sameConfig rfl
  | edited row hedit hrow hlow hhigh =>
    refine ⟨fun response hresponse hfour => ?_, fun _ => ⟨row, rfl, hrow⟩⟩
    obtain rfl := Except.ok.inj hresponse
    exact absurd (hfour.trans_lt hhigh) (by norm_num)

/-! ### `PATCH /api/config/globals` -/

/-- The ways the endpoint ends. -/
theorem run_patchGlobals (clock : Clock) (r : Request) (w : World) :
    (¬ (∀ kv ∈ r.jsonBody, kv.1 ∈ globalKeys) ∧
        ∃ reply, (d.patchGlobals clock r).run w = (.ok reply, w)) ∨
      ((∀ kv ∈ r.jsonBody, kv.1 ∈ globalKeys) ∧ (∀ kv ∈ r.jsonBody, (globalText kv).isSome) ∧
        ∃ x row, Describes r clock .patchGlobals row ∧
          (∀ reply, x = .ok reply → reply.status = 200) ∧
          (d.patchGlobals clock r).run w = (x, { w with
            store := { storeGlobals w.store (acceptedItems r.jsonBody) with
              auditLog := w.store.auditLog ++ [row] } })) ∨
      ((∀ kv ∈ r.jsonBody, kv.1 ∈ globalKeys) ∧
        (¬ ∀ kv ∈ r.jsonBody, (globalText kv).isSome) ∧
        ∃ x, (∀ reply, x = .ok reply → reply.status = 400) ∧ (d.patchGlobals clock r).run w =
          (x, { w with store := storeGlobals w.store (acceptedItems r.jsonBody) })) := by
  have hrejected : ((r.jsonBody.map Prod.fst).filter (· ∉ globalKeys)).insertionSort (· ≤ ·) = [] ↔
      ∀ kv ∈ r.jsonBody, kv.1 ∈ globalKeys := by
    rw [← List.length_eq_zero_iff, List.length_insertionSort, List.length_eq_zero_iff,
      List.filter_eq_nil_iff]
    simp
  unfold Site.patchGlobals
  by_cases hkeys : ∀ kv ∈ r.jsonBody, kv.1 ∈ globalKeys
  · right
    obtain ⟨x, hrun, hall, hstop⟩ := Site.setGlobals_run r.jsonBody w
    rw [if_neg (not_not_intro (hrejected.2 hkeys)), Program.run_bind, hrun]
    by_cases haccepted : ∀ kv ∈ r.jsonBody, (globalText kv).isSome
    · left
      obtain rfl := hall haccepted
      refine ⟨hkeys, haccepted, ?_⟩
      dsimp only
      unfold Site.recordAudit
      rw [run_writeStore_bind, Program.run_bind, Site.run_resolve]
      have hrow : Describes r clock .patchGlobals
          ⟨clock.served, r.actorName, "config_globals", "", jsonDumps (.dict r.jsonBody)⟩ :=
        ⟨rfl, rfl, List.mem_cons_self, rfl⟩
      have hlog := storeGlobals_auditLog w.store (acceptedItems r.jsonBody)
      unfold Store.audit
      dsimp only
      rw [hlog]
      cases d.resolver.resolve (storeGlobals w.store (acceptedItems r.jsonBody)).toDatabase with
      | error e =>
        refine ⟨.error e, _, hrow, fun reply h => ?_, rfl⟩
        cases h
      | ok effective =>
        refine ⟨.ok _, _, hrow, fun reply h => ?_, rfl⟩
        obtain rfl := Except.ok.inj h
        rfl
    · right
      refine ⟨hkeys, haccepted, ?_⟩
      rcases hstop haccepted with ⟨reply, rfl, hstatus⟩ | ⟨e, rfl⟩
      · refine ⟨.ok reply, fun other h => ?_, rfl⟩
        obtain rfl := Except.ok.inj h
        exact hstatus
      · refine ⟨.error e, fun reply h => ?_, rfl⟩
        cases h
  · left
    rw [if_pos (mt hrejected.1 hkeys)]
    exact ⟨hkeys, _, rfl⟩

theorem accounted_patchGlobals_iff :
    Accounted clock r .patchGlobals w (d.responded ((d.patchGlobals clock r).run w)) ↔
      StoresWhole r .patchGlobals w.store := by
  rcases d.run_patchGlobals clock r w with
    ⟨hkeys, reply, hrun⟩ | ⟨hkeys, haccepted, x, row, hrow, hstatus, hrun⟩ |
    ⟨hkeys, hrejected, x, hstatus, hrun⟩
  · rw [hrun]
    exact iff_of_true (accounted_of_sameConfig rfl) fun _ => .inl hkeys
  · rw [hrun]
    refine iff_of_true ⟨fun response hresponse hfour => ?_, fun _ => ⟨row, rfl, hrow⟩⟩
      fun _ => .inr (.inl haccepted)
    cases x with
    | error e => cases hresponse
    | ok reply =>
      obtain rfl := Except.ok.inj hresponse
      have htwo : (d.respond reply).status = 200 := hstatus reply rfl
      omega
  · rw [hrun]
    constructor
    · intro h _
      refine .inr (.inr ((storeGlobals_same_iff w.store fun kv => globalText_of_mem).1 ?_))
      -- a change would have to be in the audit log, where the loop writes nothing
      by_contra hchanged
      obtain ⟨row, hlog, -⟩ := h.2 hchanged
      have hsame : w.store.auditLog = w.store.auditLog ++ [row] :=
        (storeGlobals_auditLog w.store (acceptedItems r.jsonBody)).symm.trans hlog
      have hlength := congrArg List.length hsame
      rw [List.length_append, List.length_singleton] at hlength
      omega
    · intro h
      rcases h rfl with hbad | hall | hsame
      · exact absurd hkeys hbad
      · exact absurd hall hrejected
      · exact accounted_of_sameConfig
          ((storeGlobals_same_iff w.store fun kv => globalText_of_mem).2 hsame)

/-- **A request is accounted for** exactly when it does not store a part of its body. -/
theorem accounted_iff (clock : Clock) (r : Request) (route : ControlRoute) (w : World) :
    Accounted clock r route w ((d.controlView docker clock r route).run w) ↔
      StoresWhole r route w.store := by
  have hother : ∀ h : Accounted clock r route w ((d.controlView docker clock r route).run w),
      route ≠ .patchGlobals → (Accounted clock r route w
        ((d.controlView docker clock r route).run w) ↔ StoresWhole r route w.store) :=
    fun h hne => iff_of_true h fun heq => absurd heq hne
  rcases route.kinds with hidempotent | hedit | rfl
  · refine hother (accounted_of_sameConfig ?_) ?_
    · exact Program.run_related (d.keepsConfig_controlView docker hidempotent) w
    · rintro rfl
      cases hidempotent
  · rw [d.run_controlView docker (ControlRoute.isIdempotent_of_isEdit hedit)] at hother ⊢
    refine hother (d.accounted_of_handled (Site.handled_handler _ docker clock r hedit)) ?_
    rintro rfl
    cases hedit
  · rw [d.run_controlView docker rfl]
    exact d.accounted_patchGlobals_iff

/-- **A refused body is stored in part**: all provisioning is paused by a request that is answered
400 for its other value. -/
theorem not_accounted :
    ¬ ∀ (d : Deps) (docker : DockerAnswers) (clock : Clock) (r : Request) (route : ControlRoute)
      (w : World), Accounted clock r route w ((d.controlView docker clock r route).run w) := by
  intro h
  have hbody := h ⟨plainSite [], "s3cret", ""⟩ {} ⟨0, 0, 0⟩
    { method := .patch, path := ["api", "config", "globals"], body := some (.dict
        [("paused", .bool true), ("max_total_runners", .str "many")]) } .patchGlobals .empty
  have hsame := hbody.1 _ rfl (Nat.le_refl 400) (Nat.lt_of_sub_eq_succ rfl)
  have hpaused := congrArg (fun db => db.globalOverrides.get "paused") hsame
  have hneither : some "1" = (none : Option String) := hpaused
  cases hneither

end Deps

end RunnerSwarm
