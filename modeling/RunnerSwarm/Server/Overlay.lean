import RunnerSwarm.Config.ByName
import RunnerSwarm.Server.Auditing

/-!
# Reachable overlays

The overlay is the table of overrides. Over the lifetime of a database the orchestrator is restarted
with other pools in `config.yml`, other tokens in the environment and another version; what all of
them wrote is a `SoundOverlay`: every row holds a dict whose numbers are numbers, and every row with the
origin `ui` holds a definition of a pool with readable sizes.

* `overlay_run`: a request leaves the overlay as it is or makes one of the `Edits`;
* `get_of_not_touches`: the rows of other names stay as they are;
* `sound_run`: every overlay that requests can lead to is sound;
* `resolves_of_sound`: on a sound overlay the configuration resolves, whatever is in `config.yml`.
-/

namespace RunnerSwarm

/-! ### Candidates -/

/-- The names of environment variables that can be looked up. -/
def Encodes (encodable : String → Prop) (r : ConfigResolver) : Prop :=
  ∀ key, (∃ value, r.environ key = .ok value) ↔ encodable key

/-- The keys a definition may have. -/
def definitionKeys : List String := tunableFields ++ identityFields ++ ["pat_env"]

theorem coercePoolFields_keys {data : List (String × Json)} {fields : List (String × FieldValue)}
    (h : coercePoolFields data = .ok fields) : fields.map Prod.fst = data.map Prod.fst := by
  unfold coercePoolFields at h
  induction data generalizing fields with
  | nil =>
    cases h
    rfl
  | cons kv data ih =>
    rw [List.mapM_cons] at h
    obtain ⟨field, hfield, h⟩ := bind_eq_ok h
    obtain ⟨rest, hrest, h⟩ := bind_eq_ok h
    obtain ⟨value, -, hvalue⟩ := bind_eq_ok hfield
    cases hvalue
    cases h
    rw [List.map_cons, List.map_cons, ih hrest]

theorem setFixed_eq_self {p : PoolConfig} {f : String × FieldValue}
    (h : f.1 ∈ tunableFields ++ identityFields) : p.setFixed f = p := by
  unfold PoolConfig.setFixed
  split
  case h_6 => rfl
  all_goals
    dsimp only at h
    exact absurd h (by decide)

theorem foldl_setFixed_eq_self {fields : List (String × FieldValue)} {p : PoolConfig}
    (h : ∀ f ∈ fields, f.1 ∈ tunableFields ++ identityFields) :
    fields.foldl PoolConfig.setFixed p = p := by
  induction fields with
  | nil => rfl
  | cons f fields ih =>
    rw [List.foldl_cons, setFixed_eq_self (h f List.mem_cons_self)]
    exact ih fun g hg => h g (List.mem_cons_of_mem _ hg)

theorem set_identity (p : PoolConfig) (name pat : String) (f : String × FieldValue) :
    ({ p with name := name, pat := pat } : PoolConfig).set f =
      { p.set f with name := name, pat := pat } := by
  unfold PoolConfig.set
  split <;> rfl

theorem foldl_set_identity (fields : List (String × FieldValue)) (p : PoolConfig)
    (name pat : String) :
    fields.foldl PoolConfig.set { p with name := name, pat := pat } =
      { fields.foldl PoolConfig.set p with name := name, pat := pat } := by
  induction fields generalizing p with
  | nil => rfl
  | cons f fields ih => rw [List.foldl_cons, set_identity, ih, List.foldl_cons]

/-- The name and the token make no difference to the rest of a pool. -/
theorem constructPool_identity {name pat : String} {fields : List (String × FieldValue)}
    {p : PoolConfig} (name' pat' : String) (h : constructPool name pat fields = some p) :
    constructPool name' pat' fields = some { p with name := name', pat := pat' } := by
  unfold constructPool at h ⊢
  split at h
  · obtain rfl := Option.some.inj h
    rw [← foldl_set_identity]
  · cases h

/-- The items of a definition, when it has no other keys. -/
theorem definitionItems_eq {data : List (String × Json)}
    (h : ∀ kv ∈ data, kv.1 ∈ definitionKeys) :
    definitionItems data = data.filter fun kv => kv.1 ≠ "pat_env" := by
  unfold definitionItems
  refine List.filter_congr fun kv hkv => ?_
  have hkey := h kv hkv
  rw [definitionKeys, List.mem_append, List.mem_singleton] at hkey
  have hnot : "pat_env" ∉ tunableFields ++ identityFields := by decide
  rcases hkey with hkey | hkey
  · have hne : kv.1 ≠ "pat_env" := fun heq => hnot (heq ▸ hkey)
    rw [decide_eq_true hkey, decide_eq_true hne]
  · rw [hkey]
    decide

/-- A definition that a server can build its pool from. -/
structure SoundDefinition (encodable : String → Prop) (name : String)
    (data : List (String × Json)) : Prop where
  keys : ∀ kv ∈ data, kv.1 ∈ definitionKeys
  encoded : encodable (patEnv data)
  sizes : ∀ pat fields pool, coercePoolFields (definitionItems data) = .ok fields →
    constructPool name pat (fields.filter fun f => f.1 ≠ "name") = some pool → SizesReadable pool

/-- A definition is sound under every name. -/
theorem SoundDefinition.rename {encodable : String → Prop} {name : String}
    {data : List (String × Json)} (h : SoundDefinition encodable name data) (name' : String) :
    SoundDefinition encodable name' data where
  keys := h.keys
  encoded := h.encoded
  sizes := fun pat fields pool hfields hpool => by
    have hsizes : SizesReadable { pool with name := name, pat := pat } :=
      h.sizes pat fields _ hfields (constructPool_identity name pat hpool)
    exact hsizes

namespace Site

variable {site : Site} {encodable : String → Prop} {name origin : String}
  {data : List (String × Json)} {candidate : PoolConfig}

theorem sizesReadable_of_approves (h : site.Approves name data origin candidate) :
    SizesReadable candidate :=
  validationErrors_ok_iff.1 ⟨[], h.2⟩

/-- What is checked of a definition: the pool that the resolver will build from it. -/
theorem approves_ui (h : site.Approves name data "ui" candidate)
    (hkeys : ∀ kv ∈ data, kv.1 ∈ definitionKeys) :
    ∃ pat fields, site.resolver.environ (patEnv data) = .ok pat ∧ pat ≠ "" ∧
      coercePoolFields (definitionItems data) = .ok fields ∧
      constructPool name pat (fields.filter fun f => f.1 ≠ "name") = some candidate := by
  obtain ⟨hcandidate, -⟩ := h
  unfold candidatePool at hcandidate
  rw [if_pos rfl] at hcandidate
  obtain ⟨pat, hpat, hcandidate⟩ := bind_eq_ok hcandidate
  by_cases hempty : pat = ""
  · rw [if_pos hempty] at hcandidate
    cases hcandidate
  rw [if_neg hempty] at hcandidate
  obtain ⟨fields, hfields, hcandidate⟩ := bind_eq_ok hcandidate
  rw [← definitionItems_eq hkeys] at hfields
  refine ⟨pat, fields, hpat, hempty, hfields, ?_⟩
  have hbuilt := Except.ok.inj hcandidate
  unfold constructCandidate at hbuilt
  split at hbuilt
  · obtain ⟨pool, hpool, hsame⟩ := Option.map_eq_some_iff.1 hbuilt
    have hfixed : ∀ f ∈ fields.filter fun f => f.1 ≠ "name",
        f.1 ∈ tunableFields ++ identityFields := by
      intro f hf
      have hkey : f.1 ∈ (definitionItems data).map Prod.fst := by
        rw [← coercePoolFields_keys hfields]
        exact List.mem_map_of_mem (List.mem_filter.1 hf).1
      obtain ⟨kv, hkv, hkey⟩ := List.mem_map.1 hkey
      rw [← hkey]
      exact of_decide_eq_true (List.mem_filter.1 hkv).2
    rw [foldl_setFixed_eq_self hfixed] at hsame
    rw [hpool, hsame]
  · cases hbuilt

theorem buildUiPool_of_approves (h : site.Approves name data "ui" candidate)
    (hkeys : ∀ kv ∈ data, kv.1 ∈ definitionKeys) :
    buildUiPool site.resolver.environ name (.dict data) = .ok (some candidate) := by
  obtain ⟨pat, fields, hpat, hempty, hfields, hbuilt⟩ := approves_ui h hkeys
  unfold buildUiPool
  dsimp only
  rw [hpat]
  show (if pat = "" then _ else _) = _
  rw [if_neg hempty, hfields]
  dsimp only [bind, Except.bind]
  rw [hbuilt]
  dsimp only
  rw [h.2]
  rfl

/-- What is checked of an override: the pool that the resolver will lay it over. -/
theorem approves_yaml (h : site.Approves name data origin candidate) (horigin : origin ≠ "ui") :
    ∃ base, site.basePool name = some base ∧ applyOverride base (.dict data) = .ok candidate := by
  obtain ⟨hcandidate, -⟩ := h
  unfold candidatePool at hcandidate
  rw [if_neg horigin] at hcandidate
  unfold basePool
  cases hbase : site.resolver.basePools.find? (·.name = name) with
  | none =>
    rw [hbase] at hcandidate
    cases hcandidate
  | some base =>
    rw [hbase] at hcandidate
    refine ⟨base, rfl, ?_⟩
    dsimp only at hcandidate
    cases hpool : applyOverride base (.dict data) with
    | error e =>
      rw [hpool] at hcandidate
      cases hcandidate
    | ok pool =>
      rw [hpool] at hcandidate
      cases hcandidate
      rfl

theorem numbersOk_of_approves (h : site.Approves name data origin candidate)
    (hkeys : origin = "ui" → ∀ kv ∈ data, kv.1 ∈ definitionKeys) : NumbersOk data := by
  by_cases horigin : origin = "ui"
  · subst horigin
    obtain ⟨pat, fields, -, -, hfields, -⟩ := approves_ui h (hkeys rfl)
    exact numbersOk_definitionItems.1 (coercePoolFields_ok_iff.1 ⟨fields, hfields⟩)
  · obtain ⟨base, -, hpool⟩ := approves_yaml h horigin
    obtain ⟨kvs, hdata, hnumbers⟩ := applyOverride_ok_iff.1 ⟨candidate, hpool⟩
    cases hdata
    exact hnumbers

theorem soundDefinition_of_approves (henv : Encodes encodable site.resolver)
    (h : site.Approves name data "ui" candidate) (hkeys : ∀ kv ∈ data, kv.1 ∈ definitionKeys) :
    SoundDefinition encodable name data := by
  obtain ⟨pat, fields, hpat, -, hfields, hbuilt⟩ := approves_ui h hkeys
  refine ⟨hkeys, (henv _).1 ⟨pat, hpat⟩, fun pat' fields' pool hfields' hpool => ?_⟩
  obtain rfl := Except.ok.inj (hfields.symm.trans hfields')
  have hsame := (constructPool_identity name pat' hbuilt).symm.trans hpool
  obtain rfl := Option.some.inj hsame
  have hsizes : SizesReadable candidate := sizesReadable_of_approves h
  exact hsizes

end Site

theorem mem_setItem {data : List (String × Json)} {new kv : String × Json}
    (h : kv ∈ setItem data new) : kv ∈ data ∨ kv = new := by
  unfold setItem at h
  split_ifs at h with hkey
  · obtain ⟨old, hold, rfl⟩ := List.mem_map.1 h
    split_ifs with hsame
    · exact .inr rfl
    · exact .inl hold
  · rcases List.mem_append.1 h with h | h
    · exact .inl h
    · exact .inr (List.mem_singleton.1 h)

theorem mem_foldl_setItem {items data : List (String × Json)} {kv : String × Json}
    (h : kv ∈ items.foldl setItem data) : kv ∈ data ∨ kv ∈ items := by
  induction items generalizing data with
  | nil => exact .inl h
  | cons new items ih =>
    rcases ih h with h | h
    · rcases mem_setItem h with h | rfl
      · exact .inl h
      · exact .inr List.mem_cons_self
    · exact .inr (List.mem_cons_of_mem _ h)

/-- A patch adds no keys but those of its body. -/
theorem Site.mergeFields_keys {data body merged : List (String × Json)}
    (h : mergeFields data body = .ok (some merged)) :
    ∀ kv ∈ merged, kv ∈ data ∨ kv.1 ∈ body.map Prod.fst := by
  intro kv hkv
  unfold mergeFields at h
  split at h
  case h_1 fields hfields =>
    obtain rfl := Option.some.inj (Except.ok.inj h)
    refine (mem_foldl_setItem hkv).imp_right fun hkv => ?_
    obtain ⟨f, hf, rfl⟩ := List.mem_map.1 hkv
    rw [← coercePoolFields_keys hfields]
    exact List.mem_map_of_mem hf
  all_goals cases h

theorem unknownFields_eq_nil {data : List (String × Json)} {allowIdentity : Bool}
    (h : unknownFields data allowIdentity = []) : ∀ kv ∈ data,
    kv.1 ∈ tunableFields ++ if allowIdentity then identityFields ++ ["pat_env"] else [] := by
  unfold unknownFields at h
  rw [← List.length_eq_zero_iff, List.length_insertionSort, List.length_eq_zero_iff,
    List.filter_eq_nil_iff] at h
  intro kv hkv
  by_contra hkey
  exact h kv.1 (List.mem_map_of_mem hkv) (decide_eq_true hkey)

/-! ### Sound overlays -/

/-- A row as the handlers write it. -/
structure SoundRow (encodable : String → Prop) (name : String) (row : OverrideRow)
    (data : List (String × Json)) : Prop where
  decoded : row.data = .value (.dict data)
  numbers : NumbersOk data
  definition : row.origin = "ui" → SoundDefinition encodable name data

/-- An overlay as the handlers write it. -/
def SoundOverlay (encodable : String → Prop) (overlay : Table String OverrideRow) : Prop :=
  ∀ name row, overlay.get name = some row → ∃ data, SoundRow encodable name row data

section SoundOverlay

variable {encodable : String → Prop} {db : Database} {overlay : Table String OverrideRow}
  {name : String}

theorem sound_empty : SoundOverlay encodable Table.empty := by
  intro name row hrow
  cases hrow

theorem sound_deleteWhere (h : SoundOverlay encodable overlay) (p : String → OverrideRow → Bool) :
    SoundOverlay encodable (overlay.deleteWhere p) := by
  intro name row hrow
  rw [Table.get_deleteWhere, Option.filter_eq_some_iff] at hrow
  exact h name row hrow.1

/-- A row is sound under whichever name the database keeps it. -/
theorem sound_put {row : OverrideRow} {data : List (String × Json)}
    (h : SoundOverlay encodable overlay) (hrow : SoundRow encodable name row data)
    (stored : String) : SoundOverlay encodable (overlay.put stored row) := by
  intro other row' hrow'
  rw [Table.get_put] at hrow'
  split_ifs at hrow' with heq
  · obtain rfl := Option.some.inj hrow'
    exact ⟨data, { hrow with definition := fun hui => (hrow.definition hui).rename other }⟩
  · exact h other row' hrow'

/-- **On a sound overlay the configuration resolves.** -/
theorem resolves_of_sound {r : ConfigResolver} (henv : Encodes encodable r)
    (h : SoundOverlay encodable db.poolOverrides) : ∃ e, r.resolve db = .ok e := by
  refine resolve_ok_iff.2 ⟨?_, ?_, ?_⟩
  · intro name row hrow hdeep
    obtain ⟨data, hsound⟩ := h name row hrow
    rw [hsound.decoded] at hdeep
    cases hdeep
  · intro name row data hrow hdata _ _
    obtain ⟨kvs, hsound⟩ := h name row hrow
    obtain rfl := Decoded.value.inj (hsound.decoded.symm.trans hdata)
    exact ⟨kvs, rfl, hsound.numbers⟩
  · intro name row data hrow hdata _ _ hui
    obtain ⟨kvs, hsound⟩ := h name row hrow
    obtain rfl := Decoded.value.inj (hsound.decoded.symm.trans hdata)
    have hdefinition := hsound.definition hui
    obtain ⟨pat, hpat⟩ := (henv _).2 hdefinition.encoded
    exact ⟨kvs, pat, rfl, hpat, fun _ => ⟨hsound.numbers, hdefinition.sizes pat⟩⟩

/-- The entry of a sound row. -/
theorem SoundRow.entry_eq {row : OverrideRow} {data : List (String × Json)}
    (h : SoundRow encodable name row data) :
    row.entry = some ⟨.dict data, row.origin, row.disabled⟩ := by
  unfold OverrideRow.entry
  rw [h.decoded]

/-- What the handlers read of a sound overlay. -/
theorem entry_of_sound (h : SoundOverlay encodable db.poolOverrides) :
    db.entry name = .ok (db.storedEntry name) := by
  have hread : readOverrides db.poolOverrides.rows =
      .ok (db.poolOverrides.rows.filterMap decodedEntry) := by
    refine readOverrides_eq_ok_iff.2 ⟨fun e he hdeep => ?_, rfl⟩
    obtain ⟨data, hsound⟩ := h e.1 e.2 (Table.get_eq_some_iff.2 he)
    rw [hsound.decoded] at hdeep
    cases hdeep
  unfold Database.entry
  rw [hread]
  exact congrArg Except.ok entryFor_decoded

/-- An entry that is read comes from a sound row. -/
theorem exists_row_of_entry (h : SoundOverlay encodable db.poolOverrides) {entry : OverrideEntry}
    (hentry : db.entry name = .ok (some entry)) : ∃ row data,
      db.poolOverrides.get name = some row ∧ SoundRow encodable name row data ∧
        entry = ⟨.dict data, row.origin, row.disabled⟩ := by
  rw [entry_of_sound h] at hentry
  obtain ⟨row, hrow, hentry⟩ := Option.bind_eq_some_iff.1 (Except.ok.inj hentry)
  obtain ⟨data, hsound⟩ := h name row hrow
  rw [hsound.entry_eq] at hentry
  exact ⟨row, data, hrow, hsound, (Option.some.inj hentry).symm⟩

/-- **An edit keeps an overlay sound.** -/
theorem sound_edits {site : Site} {r : Request} {route : ControlRoute} {edit : Edit} {s : Store}
    (henv : Encodes encodable site.resolver) (h : SoundOverlay encodable s.poolOverrides)
    (hedit : site.Edits r s.toDatabase route edit) :
    SoundOverlay encodable (edit.apply s).poolOverrides := by
  cases hedit with
  | reset hbase => exact sound_deleteWhere h _
  | removed hentry horigin => exact sound_deleteWhere h _
  | stateSet | protectionSet | pauseSet => exact h
  | created hname hfields heffective hnew happroved =>
    have hkeys : ∀ kv ∈ Site.createdData r, kv.1 ∈ definitionKeys := unknownFields_eq_nil hfields
    have hrow : SoundRow encodable (Site.createdName r)
        ⟨.value (.dict (Site.createdData r)), "ui", false⟩ (Site.createdData r) := by
      refine ⟨rfl, ?_, fun _ => ?_⟩
      · exact Site.numbersOk_of_approves happroved fun _ => hkeys
      · exact Site.soundDefinition_of_approves henv happroved hkeys
    exact sound_put h hrow _
  | @disabled name entry hentry horigin hbase =>
    have hyaml : "yaml" ≠ "ui" := by decide
    cases entry with
    | none =>
      have hnone : NumbersOk [] := fun kv hkv => absurd hkv List.not_mem_nil
      have hrow : SoundRow encodable name ⟨.value (.dict []), "yaml", true⟩ [] :=
        ⟨rfl, hnone, fun hui => absurd hui hyaml⟩
      exact sound_put h hrow _
    | some entry =>
      obtain ⟨row, data, -, hsound, rfl⟩ := exists_row_of_entry h hentry
      have hrow : SoundRow encodable name ⟨.value (.dict data), "yaml", true⟩ data :=
        ⟨rfl, hsound.numbers, fun hui => absurd hui hyaml⟩
      exact sound_put h hrow _
  | @patched name entry data merged candidate hfields hentry hknown hdata hmerged happroved =>
    have hkeys : entry.elim "yaml" (·.origin) = "ui" → ∀ kv ∈ merged, kv.1 ∈ definitionKeys := by
      intro hui kv hkv
      cases entry with
      | none => exact absurd hui (by decide)
      | some entry =>
        obtain ⟨row, data', -, hsound, rfl⟩ := exists_row_of_entry h hentry
        obtain rfl := Except.ok.inj hdata
        rcases Site.mergeFields_keys hmerged kv hkv with hold | hnew
        · exact (hsound.definition hui).keys kv hold
        · obtain ⟨kv', hkv', hkey⟩ := List.mem_map.1 hnew
          have htunable := unknownFields_eq_nil hfields kv' hkv'
          rw [if_neg Bool.false_ne_true, List.append_nil, hkey] at htunable
          exact List.mem_append_left _ (List.mem_append_left _ htunable)
    have hrow : SoundRow encodable name
        ⟨.value (.dict merged), entry.elim "yaml" (·.origin), false⟩ merged := by
      refine ⟨rfl, Site.numbersOk_of_approves happroved hkeys, fun hui => ?_⟩
      dsimp only at hui
      rw [hui] at happroved
      exact Site.soundDefinition_of_approves henv happroved (hkeys hui)
    exact sound_put h hrow _

end SoundOverlay

/-! ### Runs -/

/-- A request to a control endpoint that may proceed, with the server that it reaches. -/
structure ControlRequest where
  deps : Deps
  docker : DockerAnswers := {}
  clock : Clock := ⟨0, 0, 0⟩
  route : ControlRoute
  request : Request

namespace ControlRequest

variable (q : ControlRequest) (w : World)

def run : Except PyError Response × World :=
  (q.deps.controlView q.docker q.clock q.request q.route).run w

/-- It is answered 2xx. -/
def Accepted : Prop :=
  ∃ response, (q.run w).1 = .ok response ∧ 200 ≤ response.status ∧ response.status < 300

variable {q w}

/-- What an accepted edit did. -/
theorem edits_of_accepted (hroute : q.route.isEdit = true) (h : q.Accepted w) :
    ∃ edit row, q.deps.Edits q.request w.store.toDatabase q.route edit ∧
      (q.run w).2 = w.edited edit row := by
  have hplain := ControlRoute.isIdempotent_of_isEdit hroute
  obtain ⟨response, hresponse, hlow, hhigh⟩ := h
  unfold run at hresponse ⊢
  rw [q.deps.run_controlView q.docker hplain] at hresponse ⊢
  have hhandled := Site.handled_handler q.deps.toSite q.docker q.clock q.request (w := w) hroute
  generalize (q.deps.handler q.docker q.clock q.request q.route).run w = result at *
  cases hhandled with
  | refused hfour hfive =>
    obtain rfl := Except.ok.inj hresponse
    exact absurd (hfour.trans_lt hhigh) (by norm_num)
  | raised e => cases hresponse
  | edited row hedit _ _ _ => exact ⟨_, row, hedit, rfl⟩

/-- **A request leaves the overlay as it is**, or it is accepted and makes one edit. -/
theorem overlay_run (q : ControlRequest) (w : World) :
    (q.run w).2.store.poolOverrides = w.store.poolOverrides ∨
      ∃ edit, q.Accepted w ∧ q.deps.Edits q.request w.store.toDatabase q.route edit ∧
        (q.run w).2.store.poolOverrides = (edit.apply w.store).poolOverrides := by
  unfold Accepted run
  rcases q.route.kinds with hidempotent | hedit | hglobals
  · have hkeeps : Program.Changes KeepsConfig
        (q.deps.controlView q.docker q.clock q.request q.route) :=
      q.deps.keepsConfig_controlView q.docker hidempotent
    exact .inl (congrArg Database.poolOverrides (Program.run_related hkeeps w))
  · rw [q.deps.run_controlView q.docker (ControlRoute.isIdempotent_of_isEdit hedit)]
    have hhandled := Site.handled_handler q.deps.toSite q.docker q.clock q.request (w := w) hedit
    generalize (q.deps.handler q.docker q.clock q.request q.route).run w = result at hhandled
    cases hhandled with
    | refused hfour hfive => exact .inl rfl
    | raised e => exact .inl rfl
    | edited row hedit _ hlow hhigh => exact .inr ⟨_, ⟨_, rfl, hlow, hhigh⟩, hedit, rfl⟩
  · left
    rw [hglobals, q.deps.run_controlView q.docker rfl, Deps.responded, Site.handler]
    rcases q.deps.run_patchGlobals q.clock q.request w with
      ⟨-, reply, hrun⟩ | ⟨-, -, x, row, -, -, hrun⟩ | ⟨-, -, x, -, hrun⟩
    · rw [hrun]
    · rw [hrun]
      exact storeGlobals_poolOverrides _ _
    · rw [hrun]
      exact storeGlobals_poolOverrides _ _

/-- The request may write the row of the name. -/
def Touches (q : ControlRequest) (name : String) : Prop :=
  q.route = .patchPool name ∨ q.route = .resetPool name ∨ q.route = .removePool name ∨
    (q.route = .createPool ∧ Site.createdName q.request = name)

/-- An accepted request for a pool that the database takes for `name` writes the row of its own
pool. -/
def KeepsApart (q : ControlRequest) (name : String) (w : World) : Prop :=
  q.Accepted w → ∀ other, q.Touches other → w.store.weight other = w.store.weight name →
    ¬ w.store.MistakesPool other

/-- **The rows of other names** stay as they are. -/
theorem get_of_not_touches {name : String} (hapart : q.KeepsApart name w)
    (h : ¬ q.Touches name) :
    (q.run w).2.store.poolOverrides.get name = w.store.poolOverrides.get name := by
  rcases q.overlay_run w with hsame | ⟨edit, haccepted, hedit, happly⟩
  · rw [hsame]
  rw [happly]
  have hput : ∀ (other : String) (data : Json) (origin : String) (disabled : Bool),
      q.Touches other → (w.store.setPoolOverride other data origin disabled).poolOverrides.get name =
        w.store.poolOverrides.get name := by
    intro other data origin disabled hother
    refine (Table.get_put _ _ _ _).trans (if_neg ?_)
    rintro rfl
    have hspelled := Table.spelling_eq
      (hapart haccepted other hother Table.weight_spelling.symm)
    rw [hspelled] at h
    exact h hother
  have hdelete : ∀ other : String, q.Touches other →
      (w.store.deletePoolOverride other).poolOverrides.get name =
        w.store.poolOverrides.get name := by
    intro other hother
    by_cases hweight : w.store.weight other = w.store.weight name
    · rw [Store.deletePoolOverride_overrides (hapart haccepted other hother hweight),
        Table.get_without]
      refine if_neg ?_
      rintro rfl
      exact h hother
    · refine (Table.get_deleteWhere _ _ _).trans ?_
      cases w.store.poolOverrides.get name <;> simp [Ne.symm hweight]
  unfold Touches at hput hdelete
  generalize q.route = route at hedit hput hdelete
  cases hedit with
  | stateSet | protectionSet | pauseSet => rfl
  | created => exact hput _ _ _ _ (.inr (.inr (.inr ⟨rfl, rfl⟩)))
  | reset => exact hdelete _ (.inr (.inl rfl))
  | removed => exact hdelete _ (.inr (.inr (.inl rfl)))
  | disabled => exact hput _ _ _ _ (.inr (.inr (.inl rfl)))
  | patched => exact hput _ _ _ _ (.inl rfl)

end ControlRequest

/-- What can happen to the overlay. -/
inductive OverlayAction
  | request (q : ControlRequest)
  /-- Anything else: the world afterwards, where the overlay is as it was. -/
  | others (world : World)

def overlayStep (w : World) : OverlayAction → Option World
  | .request q => some (q.run w).2
  | .others world =>
      some { world with store := { world.store with
        poolOverrides := w.store.poolOverrides, weight := w.store.weight } }

/-- The action's server can look up these names in its environment. -/
def OverlayAction.Encodes (encodable : String → Prop) : OverlayAction → Prop
  | .request q => RunnerSwarm.Encodes encodable q.deps.resolver
  | .others _ => True

variable {encodable : String → Prop}

theorem sound_step {w t : World} {a : OverlayAction}
    (h : SoundOverlay encodable w.store.poolOverrides) (henv : a.Encodes encodable)
    (hstep : overlayStep w a = some t) : SoundOverlay encodable t.store.poolOverrides := by
  cases a with
  | others world =>
    obtain rfl := Option.some.inj hstep
    exact h
  | request q =>
    obtain rfl := Option.some.inj hstep
    rcases q.overlay_run w with hsame | ⟨edit, -, hedit, happly⟩
    · rwa [hsame]
    · rw [happly]
      exact sound_edits henv h hedit

/-- **Every reachable overlay is sound.** -/
theorem sound_run {weight : String → String} {l : List OverlayAction} {w : World}
    (henv : ∀ a ∈ l, a.Encodes encodable)
    (h : RunnerSwarm.run overlayStep (.new weight) l = some w) :
    SoundOverlay encodable w.store.poolOverrides :=
  run_invariant (I := fun w => SoundOverlay encodable w.store.poolOverrides)
    (fun _ _ _ hs ha hstep => sound_step hs ha hstep) sound_empty (along_of_actions henv _) h

end RunnerSwarm
