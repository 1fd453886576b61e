import RunnerSwarm.Config.Resolver

/-!
# When the configuration resolves

`resolve` runs unguarded in the main loop, so what matters is that it returns whatever the database
holds. It does exactly when the database is `Readable`: the numbers of every row that is laid over a
pool, or defines one whose token is set, are numbers to Python.

`Fallbacks` is what the resolved pools then satisfy. A row that cannot be used makes no difference:
without it the configuration is the same.

* `resolve_ok_iff`: `resolve` returns exactly on a readable database;
* `resolvesSafely_iff`: and then with all the fallbacks.
-/

namespace RunnerSwarm

/-! ### Readable rows -/

/-- The conversion of a field does not raise. -/
def NumberOk (key : String) (value : Json) : Prop :=
  (key ∈ numericInt → ∃ n, pyInt value = .ok n) ∧
    (key = "cpu_limit" → ∃ x, pyFloat value = .ok x)

def NumbersOk (data : List (String × Json)) : Prop := ∀ kv ∈ data, NumberOk kv.1 kv.2

/-- An override is an object whose numbers are numbers. -/
def OverrideReadable (data : Json) : Prop := ∃ kvs, data = .dict kvs ∧ NumbersOk kvs

/-- The sizes of a pool have no more digits than Python reads and prints. -/
def SizesReadable (p : PoolConfig) : Prop := ∃ bad, p.badWorkTmpfsSize = .ok bad

/-- A definition is an object that names an environment variable; when that is set, its numbers are
numbers and the pool it defines has readable sizes. -/
def DefinitionReadable (environ : String → Except PyError String) (name : String)
    (data : Json) : Prop :=
  ∃ kvs pat, data = .dict kvs ∧ environ (patEnv kvs) = .ok pat ∧ (pat ≠ "" →
    NumbersOk kvs ∧ ∀ fields pool, coercePoolFields (definitionItems kvs) = .ok fields →
      constructPool name pat (fields.filter fun f => f.1 ≠ "name") = some pool →
        SizesReadable pool)

section Rows

variable {environ : String → Except PyError String} {name : String} {base : PoolConfig}
  {data : Json} {kvs : List (String × Json)}

theorem map_ok_iff {ε α β : Type} {f : α → β} {x : Except ε α} :
    (∃ b, f <$> x = .ok b) ↔ ∃ a, x = .ok a := by
  cases x with
  | error e => constructor <;> rintro ⟨_, h⟩ <;> cases h
  | ok a => exact ⟨fun _ => ⟨a, rfl⟩, fun _ => ⟨f a, rfl⟩⟩

theorem coercePoolField_ok_iff {key : String} {value : Json} :
    (∃ v, coercePoolField key value = .ok v) ↔ NumberOk key value := by
  unfold coercePoolField NumberOk
  by_cases hint : key ∈ numericInt
  · have hcpu : key ≠ "cpu_limit" := by
      rintro rfl
      exact absurd hint (by decide)
    rw [if_pos hint, map_ok_iff]
    exact ⟨fun h => ⟨fun _ => h, fun hkey => absurd hkey hcpu⟩, fun h => h.1 hint⟩
  · rw [if_neg hint]
    by_cases hcpu : key = "cpu_limit"
    · rw [if_pos hcpu, map_ok_iff]
      exact ⟨fun h => ⟨fun hkey => absurd hkey hint, fun _ => h⟩, fun h => h.2 hcpu⟩
    · rw [if_neg hcpu]
      refine ⟨fun _ => ⟨fun hkey => absurd hkey hint, fun hkey => absurd hkey hcpu⟩, fun _ => ?_⟩
      split <;> exact ⟨_, rfl⟩

theorem coercePoolFields_ok_iff : (∃ fs, coercePoolFields kvs = .ok fs) ↔ NumbersOk kvs := by
  unfold coercePoolFields NumbersOk
  rw [mapM_ok_iff]
  refine forall₂_congr fun kv _ => ?_
  rw [bind_ok_iff, ← coercePoolField_ok_iff]
  exact exists_congr fun v => ⟨fun h => h.1, fun h => ⟨h, _, rfl⟩⟩

/-- Every number is tunable. -/
theorem numbersOk_definitionItems : NumbersOk (definitionItems kvs) ↔ NumbersOk kvs := by
  have hnumeric : ∀ key ∈ "cpu_limit" :: numericInt, key ∈ tunableFields ++ identityFields := by
    decide
  constructor
  · intro h kv hkv
    by_cases hkey : kv.1 ∈ tunableFields ++ identityFields
    · exact h kv (List.mem_filter.2 ⟨hkv, decide_eq_true hkey⟩)
    · refine ⟨fun hint => ?_, fun hcpu => ?_⟩
      · exact absurd (hnumeric _ (List.mem_cons_of_mem _ hint)) hkey
      · exact absurd (hnumeric _ (hcpu ▸ List.mem_cons_self)) hkey
  · exact fun h kv hkv => h kv (List.mem_filter.1 hkv).1

theorem applyOverride_ok_iff :
    (∃ pool, applyOverride base data = .ok pool) ↔ OverrideReadable data := by
  cases data with
  | dict kvs =>
    unfold applyOverride
    rw [bind_ok_iff]
    constructor
    · rintro ⟨fields, hfields, -⟩
      exact ⟨kvs, rfl, coercePoolFields_ok_iff.1 ⟨fields, hfields⟩⟩
    · rintro ⟨_, hdata, hnumbers⟩
      cases hdata
      obtain ⟨fields, hfields⟩ := coercePoolFields_ok_iff.2 hnumbers
      exact ⟨fields, hfields, _, rfl⟩
  | _ =>
    constructor
    · rintro ⟨_, h⟩
      cases h
    · rintro ⟨_, h, -⟩
      cases h

theorem validationErrors_ok_iff {pool : PoolConfig} :
    (∃ errors, validationErrors [pool] = .ok errors) ↔ SizesReadable pool := by
  unfold validationErrors SizesReadable
  rw [bind_ok_iff]
  constructor
  · rintro ⟨errors, h, -⟩
    obtain ⟨_, herrors⟩ := mapM_ok_iff.1 ⟨errors, h⟩ pool List.mem_cons_self
    obtain ⟨bad, hbad, -⟩ := bind_eq_ok herrors
    exact ⟨bad, hbad⟩
  · rintro ⟨bad, hbad⟩
    have hall : ∀ p ∈ [pool], ∃ errors, poolErrors p = .ok errors := by
      intro p hp
      obtain rfl := List.mem_singleton.1 hp
      unfold poolErrors
      exact bind_ok_iff.2 ⟨bad, hbad, _, rfl⟩
    obtain ⟨errors, herrors⟩ := mapM_ok_iff.2 hall
    exact ⟨errors, herrors, _, rfl⟩

theorem buildUiPool_ok_iff :
    (∃ pool, buildUiPool environ name data = .ok pool) ↔ DefinitionReadable environ name data := by
  cases data with
  | dict kvs =>
    unfold buildUiPool
    rw [bind_ok_iff]
    constructor
    · rintro ⟨pat, hpat, pool, hpool⟩
      refine ⟨kvs, pat, rfl, hpat, fun hset => ?_⟩
      rw [if_neg hset] at hpool
      obtain ⟨fields, hfields, hrest⟩ := bind_eq_ok hpool
      refine ⟨numbersOk_definitionItems.1 (coercePoolFields_ok_iff.1 ⟨fields, hfields⟩), ?_⟩
      intro fields' built hfields' hbuilt
      obtain rfl := Except.ok.inj (hfields.symm.trans hfields')
      rw [hbuilt] at hrest
      obtain ⟨errors, herrors, -⟩ := bind_eq_ok hrest
      exact validationErrors_ok_iff.1 ⟨errors, herrors⟩
    · rintro ⟨_, pat, hdata, hpat, hset⟩
      cases hdata
      refine ⟨pat, hpat, ?_⟩
      by_cases hempty : pat = ""
      · exact ⟨none, by rw [if_pos hempty]; rfl⟩
      · obtain ⟨hnumbers, hsizes⟩ := hset hempty
        obtain ⟨fields, hfields⟩ :=
          coercePoolFields_ok_iff.2 (numbersOk_definitionItems.2 hnumbers)
        rw [if_neg hempty, bind_ok_iff]
        refine ⟨fields, hfields, ?_⟩
        cases hbuilt : constructPool name pat (fields.filter fun f => f.1 ≠ "name") with
        | none => exact ⟨none, rfl⟩
        | some pool =>
          obtain ⟨errors, herrors⟩ := validationErrors_ok_iff.2 (hsizes fields pool hfields hbuilt)
          exact bind_ok_iff.2 ⟨errors, herrors, _, rfl⟩
  | _ =>
    constructor
    · rintro ⟨_, h⟩
      cases h
    · rintro ⟨_, _, h, -⟩
      cases h

end Rows

/-! ### Readable databases -/

/-- The database holds nothing that resolution stumbles over. -/
structure Readable (r : ConfigResolver) (db : Database) : Prop where
  shallow : ∀ name row, db.poolOverrides.get name = some row → row.data ≠ .tooDeep
  overrides : ∀ name row data, db.poolOverrides.get name = some row → row.data = .value data →
    row.disabled = false → name ∈ r.basePools.map (·.name) → OverrideReadable data
  definitions : ∀ name row data, db.poolOverrides.get name = some row → row.data = .value data →
    row.disabled = false → name ∉ r.basePools.map (·.name) → row.origin = "ui" →
      DefinitionReadable r.environ name data

/-- The entry of a row that can be decoded. -/
def decodedEntry (e : String × OverrideRow) : Option (String × OverrideEntry) :=
  match e.2.data with
  | .value data => some (e.1, ⟨data, e.2.origin, e.2.disabled⟩)
  | _ => none

section Loops

variable {environ : String → Except PyError String} {bases : List PoolConfig} {name : String}
  {rows : List (String × OverrideRow)} {os left : List (String × OverrideEntry)}
  {ps : List PoolConfig}

theorem decodedEntry_value {e : String × OverrideRow} {data : Json} (h : e.2.data = .value data) :
    decodedEntry e = some (e.1, ⟨data, e.2.origin, e.2.disabled⟩) := by
  simp [decodedEntry, h]

theorem readOverrides_eq_ok_iff :
    readOverrides rows = .ok os ↔
      (∀ e ∈ rows, e.2.data ≠ .tooDeep) ∧ os = rows.filterMap decodedEntry := by
  induction rows generalizing os with
  | nil => simp [readOverrides, eq_comm]
  | cons e rows ih =>
    obtain ⟨pool, row⟩ := e
    rw [List.forall_mem_cons]
    unfold readOverrides
    cases hdata : row.data with
    | tooDeep => simp
    | malformed =>
      have hnone : decodedEntry (pool, row) = none := by simp [decodedEntry, hdata]
      simp [List.filterMap_cons_none hnone, ih]
    | value data =>
      rw [List.filterMap_cons_some (decodedEntry_value (e := (pool, row)) hdata)]
      constructor
      · intro h
        obtain ⟨entries, hentries, hos⟩ := bind_eq_ok h
        obtain ⟨hshallow, rfl⟩ := ih.1 hentries
        exact ⟨⟨by simp, hshallow⟩, (Except.ok.inj hos).symm⟩
      · rintro ⟨⟨-, hshallow⟩, rfl⟩
        dsimp only
        rw [ih.2 ⟨hshallow, rfl⟩]
        rfl

theorem mem_filterMap_decodedEntry {entry : OverrideEntry} :
    (name, entry) ∈ rows.filterMap decodedEntry ↔ ∃ row, (name, row) ∈ rows ∧
      row.data = .value entry.data ∧ row.origin = entry.origin ∧ row.disabled = entry.disabled := by
  rw [List.mem_filterMap]
  constructor
  · rintro ⟨⟨pool, row⟩, hmem, hentry⟩
    unfold decodedEntry at hentry
    cases hdata : row.data with
    | value data =>
      simp only [hdata, Option.some.injEq] at hentry
      obtain ⟨rfl, rfl⟩ := Prod.mk.inj hentry
      exact ⟨row, hmem, hdata, rfl, rfl⟩
    | _ => simp [hdata] at hentry
  · rintro ⟨row, hmem, hdata, horigin, hdisabled⟩
    refine ⟨(name, row), hmem, ?_⟩
    simp only [decodedEntry, hdata, horigin, hdisabled]

theorem keys_filterMap_decodedEntry (h : (rows.map Prod.fst).Nodup) :
    ((rows.filterMap decodedEntry).map Prod.fst).Nodup := by
  refine h.sublist ?_
  clear h
  induction rows with
  | nil => exact List.Sublist.slnil
  | cons e rows ih =>
    cases hentry : decodedEntry e with
    | none =>
      rw [List.filterMap_cons_none hentry]
      exact ih.cons _
    | some entry =>
      have hkey : entry.1 = e.1 := by
        unfold decodedEntry at hentry
        split at hentry <;> cases hentry
        rfl
      rw [List.filterMap_cons_some hentry, List.map_cons, List.map_cons, hkey]
      exact ih.cons_cons _

theorem entryFor_eq_some_iff (hkeys : (os.map Prod.fst).Nodup) {entry : OverrideEntry} :
    entryFor name os = some entry ↔ (name, entry) ∈ os :=
  Table.get_eq_some_iff (t := ⟨os, hkeys⟩)

theorem keys_filter (hkeys : (os.map Prod.fst).Nodup) (p : String × OverrideEntry → Bool) :
    ((os.filter p).map Prod.fst).Nodup :=
  hkeys.sublist (List.filter_sublist.map _)

theorem resolveOne_ok_iff {base : PoolConfig} {o : Option OverrideEntry} :
    (∃ own, resolveOne base o = .ok own) ↔
      ∀ entry, o = some entry → entry.disabled = false → OverrideReadable entry.data := by
  cases o with
  | none =>
    refine ⟨fun _ _ h => ?_, fun _ => ⟨[base], rfl⟩⟩
    cases h
  | some entry =>
    unfold resolveOne
    dsimp only
    by_cases hoff : entry.disabled = true
    · rw [if_pos hoff]
      refine ⟨fun _ e he hon => ?_, fun _ => ⟨[], rfl⟩⟩
      obtain rfl := Option.some.inj he
      rw [hoff] at hon
      cases hon
    · rw [if_neg hoff, map_ok_iff, applyOverride_ok_iff]
      constructor
      · rintro h e he -
        obtain rfl := Option.some.inj he
        exact h
      · exact fun h => h entry rfl (Bool.eq_false_iff.2 hoff)

/-- The loop over the pools of `config.yml` looks at the entries with their names. -/
theorem resolveBase_ok_iff (hkeys : (os.map Prod.fst).Nodup) :
    (∃ result, resolveBase bases os = .ok result) ↔
      ∀ name entry, (name, entry) ∈ os → name ∈ bases.map (·.name) → entry.disabled = false →
        OverrideReadable entry.data := by
  induction bases generalizing os with
  | nil => exact ⟨fun _ _ _ _ h => absurd h List.not_mem_nil, fun _ => ⟨_, rfl⟩⟩
  | cons base rest ih =>
    unfold resolveBase
    rw [bind_ok_iff]
    have hrest := ih (keys_filter hkeys fun e => e.1 ≠ base.name)
    constructor
    · rintro ⟨own, hown, _, h⟩ name entry hmem hname hon
      obtain ⟨result, hresult, -⟩ := bind_eq_ok h
      by_cases heq : name = base.name
      · subst heq
        exact resolveOne_ok_iff.1 ⟨own, hown⟩ entry ((entryFor_eq_some_iff hkeys).2 hmem) hon
      · refine hrest.1 ⟨result, hresult⟩ name entry ?_ ?_ hon
        · exact List.mem_filter.2 ⟨hmem, decide_eq_true heq⟩
        · exact (List.mem_cons.1 hname).resolve_left heq
    · intro h
      obtain ⟨own, hown⟩ := resolveOne_ok_iff.2 fun entry hentry hon =>
        h base.name entry ((entryFor_eq_some_iff hkeys).1 hentry) List.mem_cons_self hon
      obtain ⟨result, hresult⟩ := hrest.2 fun name entry hmem hname hon =>
        h name entry (List.mem_filter.1 hmem).1 (List.mem_cons_of_mem _ hname) hon
      exact ⟨own, hown, bind_ok_iff.2 ⟨result, hresult, _, rfl⟩⟩

/-- It leaves the other entries. -/
theorem resolveBase_left (h : resolveBase bases os = .ok (ps, left)) :
    left = os.filter fun e => e.1 ∉ bases.map (·.name) := by
  induction bases generalizing os ps with
  | nil =>
    cases h
    simp
  | cons base rest ih =>
    obtain ⟨own, -, h⟩ := bind_eq_ok h
    obtain ⟨⟨pools, left'⟩, hrest, h⟩ := bind_eq_ok h
    cases h
    rw [ih hrest, List.filter_filter]
    refine List.filter_congr fun e _ => ?_
    rw [List.map_cons, Bool.eq_iff_iff]
    simp only [Bool.and_eq_true, decide_eq_true_eq, List.mem_cons, not_or]
    exact and_comm

theorem resolveEntry_ok_iff {entry : OverrideEntry} :
    (∃ created, resolveEntry environ name entry = .ok created) ↔
      (entry.disabled = false → entry.origin = "ui" →
        DefinitionReadable environ name entry.data) := by
  unfold resolveEntry
  by_cases hskip : entry.origin ≠ "ui" ∨ entry.disabled = true
  · rw [if_pos hskip]
    refine ⟨fun _ hon hui => ?_, fun _ => ⟨none, rfl⟩⟩
    rcases hskip with hother | hoff
    · exact absurd hui hother
    · rw [hon] at hoff
      cases hoff
  · rw [if_neg hskip, buildUiPool_ok_iff]
    rw [not_or, not_not, Bool.not_eq_true] at hskip
    exact ⟨fun h _ _ => h, fun h => h hskip.2 hskip.1⟩

theorem resolveCreated_ok_iff :
    (∃ created, resolveCreated environ os = .ok created) ↔
      ∀ name entry, (name, entry) ∈ os → entry.disabled = false → entry.origin = "ui" →
        DefinitionReadable environ name entry.data := by
  induction os with
  | nil => exact ⟨fun _ _ _ h => absurd h List.not_mem_nil, fun _ => ⟨[], rfl⟩⟩
  | cons e rest ih =>
    unfold resolveCreated
    rw [bind_ok_iff]
    constructor
    · rintro ⟨created, hcreated, _, h⟩ name entry hmem
      obtain ⟨pools, hpools, -⟩ := bind_eq_ok h
      rcases List.mem_cons.1 hmem with rfl | hmem
      · exact resolveEntry_ok_iff.1 ⟨created, hcreated⟩
      · exact ih.1 ⟨pools, hpools⟩ name entry hmem
    · intro h
      obtain ⟨created, hcreated⟩ := resolveEntry_ok_iff.2 (h e.1 e.2 List.mem_cons_self)
      obtain ⟨pools, hpools⟩ := ih.2 fun name entry hmem =>
        h name entry (List.mem_cons_of_mem _ hmem)
      exact ⟨created, hcreated, bind_ok_iff.2 ⟨pools, hpools, _, rfl⟩⟩

end Loops

/-- **Resolution returns** exactly on a readable database. -/
theorem resolve_ok_iff {r : ConfigResolver} {db : Database} :
    (∃ e, r.resolve db = .ok e) ↔ Readable r db := by
  have hget : ∀ name row, db.poolOverrides.get name = some row ↔
      (name, row) ∈ db.poolOverrides.rows := fun _ _ => Table.get_eq_some_iff
  have hkeys := keys_filterMap_decodedEntry db.poolOverrides.keyed
  unfold ConfigResolver.resolve
  rw [bind_ok_iff]
  constructor
  · rintro ⟨os, hos, h⟩
    obtain ⟨hshallow, rfl⟩ := readOverrides_eq_ok_iff.1 hos
    obtain ⟨⟨pools, left⟩, hbase, h⟩ := bind_ok_iff.1 h
    obtain ⟨created, hcreated, -⟩ := bind_ok_iff.1 h
    have hleft := resolveBase_left hbase
    constructor
    · exact fun name row hrow => hshallow _ ((hget name row).1 hrow)
    · intro name row data hrow hdata hon hname
      exact (resolveBase_ok_iff hkeys).1 ⟨_, hbase⟩ name ⟨data, row.origin, row.disabled⟩
        (mem_filterMap_decodedEntry.2 ⟨row, (hget name row).1 hrow, hdata, rfl, rfl⟩) hname hon
    · intro name row data hrow hdata hon hname hui
      refine resolveCreated_ok_iff.1 ⟨_, hcreated⟩ name ⟨data, row.origin, row.disabled⟩ ?_ hon hui
      rw [hleft]
      refine List.mem_filter.2 ⟨?_, decide_eq_true hname⟩
      exact mem_filterMap_decodedEntry.2 ⟨row, (hget name row).1 hrow, hdata, rfl, rfl⟩
  · intro hread
    refine ⟨_, readOverrides_eq_ok_iff.2 ⟨fun e he => ?_, rfl⟩, ?_⟩
    · exact hread.shallow e.1 e.2 ((hget _ _).2 he)
    · obtain ⟨⟨pools, left⟩, hbase⟩ := (resolveBase_ok_iff hkeys).2 fun name entry hmem hname hon => by
        obtain ⟨row, hrow, hdata, -, hdisabled⟩ := mem_filterMap_decodedEntry.1 hmem
        exact hread.overrides name row _ ((hget _ _).2 hrow) hdata (hdisabled.trans hon) hname
      have hleft := resolveBase_left hbase
      have hcreated : ∃ created, resolveCreated r.environ left = .ok created :=
        resolveCreated_ok_iff.2 fun name entry hmem hon hui => by
          rw [hleft] at hmem
          obtain ⟨hmem, hname⟩ := List.mem_filter.1 hmem
          obtain ⟨row, hrow, hdata, horigin, hdisabled⟩ := mem_filterMap_decodedEntry.1 hmem
          exact hread.definitions name row _ ((hget _ _).2 hrow) hdata (hdisabled.trans hon)
            (of_decide_eq_true hname) (horigin.trans hui)
      obtain ⟨created, hcreated⟩ := hcreated
      exact bind_ok_iff.2 ⟨_, hbase, bind_ok_iff.2 ⟨created, hcreated, _, rfl⟩⟩

/-! ### Fallbacks -/

/-- A row that cannot be used: its text is no JSON, or it is laid over a pool it cannot be applied
to, or it defines a pool that cannot be built. -/
inductive Unusable (r : ConfigResolver) (name : String) (row : OverrideRow) : Prop
  | malformed (h : row.data = .malformed)
  | override {data : Json} (h : row.data = .value data) (on : row.disabled = false)
      (base : name ∈ r.basePools.map (·.name))
      (fails : ∀ b ∈ r.basePools, ∀ pool, applyOverride b data ≠ .ok pool)
  | definition {data : Json} (h : row.data = .value data) (on : row.disabled = false)
      (created : name ∉ r.basePools.map (·.name)) (ui : row.origin = "ui")
      (fails : ∀ pool, buildUiPool r.environ name data ≠ .ok (some pool))

/-- The database without a pool's row. -/
def Database.without (db : Database) (name : String) : Database :=
  { db with poolOverrides := db.poolOverrides.deleteWhere fun key _ => key = name }

/-- What the resolved configuration owes to the pools of `config.yml` and to rows that fail. -/
structure Fallbacks (r : ConfigResolver) (db : Database) (e : EffectiveConfig) : Prop where
  /-- A pool without a row is returned unchanged. -/
  unchanged : ∀ b ∈ r.basePools, db.poolOverrides.get b.name = none → b ∈ e.pools
  /-- A pool with an unusable row falls back to `config.yml`. -/
  fallsBack : ∀ b ∈ r.basePools, ∀ row, db.poolOverrides.get b.name = some row →
    Unusable r b.name row → b ∈ e.pools
  /-- An unusable row of another name gives no pool. -/
  skipped : ∀ name row, name ∉ r.basePools.map (·.name) →
    db.poolOverrides.get name = some row → Unusable r name row → ∀ p ∈ e.pools, p.name ≠ name
  /-- An unusable row makes no difference to any pool. -/
  independent : ∀ name row, db.poolOverrides.get name = some row → Unusable r name row →
    r.resolve (db.without name) = .ok e

section Fallbacks

variable {environ : String → Except PyError String} {bases : List PoolConfig} {name : String}
  {rows : List (String × OverrideRow)} {os left : List (String × OverrideEntry)}
  {ps : List PoolConfig}

theorem entryFor_eq_none (h : ∀ entry, (name, entry) ∉ os) : entryFor name os = none := by
  rw [entryFor, Option.map_eq_none_iff, List.find?_eq_none]
  rintro ⟨n, entry⟩ hmem hn
  obtain rfl : n = name := of_decide_eq_true hn
  exact h entry hmem

/-- A pool without an entry is kept. -/
theorem mem_resolveBase (h : resolveBase bases os = .ok (ps, left)) {b : PoolConfig}
    (hb : b ∈ bases) (hnone : ∀ entry, (b.name, entry) ∉ os) : b ∈ ps := by
  induction bases generalizing os ps with
  | nil => cases hb
  | cons base rest ih =>
    obtain ⟨own, hown, h⟩ := bind_eq_ok h
    obtain ⟨⟨pools, left'⟩, hrest, h⟩ := bind_eq_ok h
    cases h
    rcases List.mem_cons.1 hb with rfl | hb
    · rw [entryFor_eq_none hnone] at hown
      cases hown
      exact List.mem_append_left _ List.mem_cons_self
    · exact List.mem_append_right _
        (ih hrest hb fun entry hmem => hnone entry (List.mem_filter.1 hmem).1)

/-- An entry of another name is not looked at. -/
theorem resolveBase_filter (h : resolveBase bases os = .ok (ps, left))
    (hname : name ∉ bases.map (·.name)) :
    resolveBase bases (os.filter fun e => e.1 ≠ name) =
      .ok (ps, left.filter fun e => e.1 ≠ name) := by
  induction bases generalizing os ps with
  | nil =>
    cases h
    rfl
  | cons base rest ih =>
    obtain ⟨own, hown, h⟩ := bind_eq_ok h
    obtain ⟨⟨pools, left'⟩, hrest, h⟩ := bind_eq_ok h
    cases h
    rw [List.map_cons, List.mem_cons, not_or] at hname
    have hsame : entryFor base.name (os.filter fun e => e.1 ≠ name) = entryFor base.name os := by
      unfold entryFor
      rw [List.find?_filter]
      congr 2
      funext e
      by_cases he : e.1 = base.name
      · simp [he, Ne.symm hname.1]
      · simp [he]
    unfold resolveBase
    rw [hsame, hown, List.filter_comm, ih hrest hname.2]
    rfl

theorem resolveCreated_filter (h : resolveCreated environ os = .ok ps)
    (hskip : ∀ entry, (name, entry) ∈ os → resolveEntry environ name entry = .ok none) :
    resolveCreated environ (os.filter fun e => e.1 ≠ name) = .ok ps := by
  induction os generalizing ps with
  | nil => exact h
  | cons e rest ih =>
    obtain ⟨created, hcreated, h⟩ := bind_eq_ok h
    obtain ⟨pools, hpools, h⟩ := bind_eq_ok h
    have hnext := ih hpools fun entry hmem => hskip entry (List.mem_cons_of_mem _ hmem)
    by_cases he : e.1 = name
    · subst he
      rw [hskip e.2 List.mem_cons_self] at hcreated
      cases hcreated
      cases h
      rw [List.filter_cons_of_neg (by simp)]
      exact hnext
    · rw [List.filter_cons_of_pos (by simpa using he)]
      unfold resolveCreated
      rw [hcreated, hnext]
      exact h

/-- The two pools agree in the fields that no row sets. -/
structure SameFixed (p q : PoolConfig) : Prop where
  name : q.name = p.name
  pat : q.pat = p.pat
  owner : q.owner = p.owner
  «instance» : q.instance = p.instance
  jobStartedHook : q.jobStartedHook = p.jobStartedHook
  provider : q.provider = p.provider
  baseUrl : q.baseUrl = p.baseUrl

theorem sameFixed_set (p : PoolConfig) (field : String × FieldValue) :
    SameFixed p (p.set field) := by
  unfold PoolConfig.set
  split <;> exact ⟨rfl, rfl, rfl, rfl, rfl, rfl, rfl⟩

theorem SameFixed.trans {p q r : PoolConfig} (h : SameFixed p q) (h' : SameFixed q r) :
    SameFixed p r where
  name := h'.name.trans h.name
  pat := h'.pat.trans h.pat
  owner := h'.owner.trans h.owner
  «instance» := h'.instance.trans h.instance
  jobStartedHook := h'.jobStartedHook.trans h.jobStartedHook
  provider := h'.provider.trans h.provider
  baseUrl := h'.baseUrl.trans h.baseUrl

theorem sameFixed_foldl (fields : List (String × FieldValue)) (p : PoolConfig) :
    SameFixed p (fields.foldl PoolConfig.set p) := by
  induction fields generalizing p with
  | nil => exact ⟨rfl, rfl, rfl, rfl, rfl, rfl, rfl⟩
  | cons field fields ih => exact (sameFixed_set p field).trans (ih (p.set field))

/-- A field with a value that `coerce_pool_fields` has made. -/
def Coerced (field : String × FieldValue) : Prop :=
  ∃ value, coercePoolField field.1 value = .ok field.2

theorem coerced_of_coercePoolFields {fields : List (String × FieldValue)}
    (h : coercePoolFields kvs = .ok fields) : ∀ field ∈ fields, Coerced field := by
  intro field hfield
  obtain ⟨kv, -, hbody⟩ := exists_mem_of_forall₂ (forall₂_of_mapM h) hfield
  obtain ⟨value, hvalue, hbody⟩ := bind_eq_ok hbody
  cases hbody
  exact ⟨kv.2, hvalue⟩

/-- An override sets fields of the pool. -/
theorem applyOverride_foldl {base pool : PoolConfig} {data : Json}
    (h : applyOverride base data = .ok pool) :
    ∃ fields : List (String × FieldValue), (∀ field ∈ fields, Coerced field) ∧
      pool = fields.foldl PoolConfig.set base := by
  cases data with
  | dict kvs =>
    obtain ⟨fields, hfields, h⟩ := bind_eq_ok h
    cases h
    exact ⟨_, fun field hfield =>
      coerced_of_coercePoolFields hfields field (List.mem_filter.1 hfield).1, rfl⟩
  | _ => cases h

theorem applyOverride_name {base pool : PoolConfig} {data : Json}
    (h : applyOverride base data = .ok pool) : pool.name = base.name := by
  obtain ⟨fields, -, rfl⟩ := applyOverride_foldl h
  exact (sameFixed_foldl fields base).name

/-- A created pool is one with its name, in which fields are set. -/
theorem buildUiPool_foldl {data : Json} {pool : PoolConfig}
    (h : buildUiPool environ name data = .ok (some pool)) :
    ∃ (pat owner : String) (fields : List (String × FieldValue)),
      (∀ field ∈ fields, Coerced field) ∧
        pool = fields.foldl PoolConfig.set { name := name, pat := pat, owner := owner } := by
  cases data with
  | dict kvs =>
    obtain ⟨pat, -, h⟩ := bind_eq_ok h
    split at h
    · cases h
    · obtain ⟨fields, hfields, h⟩ := bind_eq_ok h
      cases hbuilt : constructPool name pat (fields.filter fun f => f.1 ≠ "name") with
      | none =>
        rw [hbuilt] at h
        cases h
      | some built =>
        rw [hbuilt] at h
        obtain ⟨errors, -, h⟩ := bind_eq_ok h
        have hpool : pool = built := by
          by_cases herrors : errors = []
          · rw [if_pos herrors] at h
            exact (Option.some.inj (Except.ok.inj h)).symm
          · rw [if_neg herrors] at h
            cases h
        unfold constructPool at hbuilt
        split at hbuilt
        · cases hbuilt
          exact ⟨_, _, _, fun field hfield =>
            coerced_of_coercePoolFields hfields field (List.mem_filter.1 hfield).1, hpool⟩
        · cases hbuilt
  | _ => cases h

theorem buildUiPool_name {data : Json} {pool : PoolConfig}
    (h : buildUiPool environ name data = .ok (some pool)) : pool.name = name := by
  obtain ⟨pat, owner, fields, -, rfl⟩ := buildUiPool_foldl h
  exact (sameFixed_foldl fields _).name

/-- A resolved pool of `config.yml` is such a pool with fields set. -/
theorem mem_resolveBase_foldl (h : resolveBase bases os = .ok (ps, left)) {p : PoolConfig}
    (hp : p ∈ ps) :
    ∃ base ∈ bases, ∃ fields : List (String × FieldValue), (∀ field ∈ fields, Coerced field) ∧
      p = fields.foldl PoolConfig.set base := by
  induction bases generalizing os ps with
  | nil =>
    cases h
    cases hp
  | cons base rest ih =>
    obtain ⟨own, hown, h⟩ := bind_eq_ok h
    obtain ⟨⟨pools, left'⟩, hrest, h⟩ := bind_eq_ok h
    cases h
    rcases List.mem_append.1 hp with hp | hp
    · refine ⟨base, List.mem_cons_self, ?_⟩
      unfold resolveOne at hown
      split at hown
      · cases hown
        exact ⟨[], nofun, List.mem_singleton.1 hp⟩
      · split at hown
        · cases hown
          cases hp
        · obtain ⟨pool, hpool⟩ := map_ok_iff.1 ⟨own, hown⟩
          rw [hpool] at hown
          cases hown
          rw [List.mem_singleton.1 hp]
          exact applyOverride_foldl hpool
    · obtain ⟨base', hbase', hfields⟩ := ih hrest hp
      exact ⟨base', List.mem_cons_of_mem _ hbase', hfields⟩

theorem resolveBase_names (h : resolveBase bases os = .ok (ps, left)) {p : PoolConfig}
    (hp : p ∈ ps) : p.name ∈ bases.map (·.name) := by
  obtain ⟨base, hbase, fields, -, rfl⟩ := mem_resolveBase_foldl h hp
  rw [(sameFixed_foldl fields base).name]
  exact List.mem_map_of_mem hbase

/-- Every created pool comes from the entry with its name. -/
theorem resolveCreated_entry (h : resolveCreated environ os = .ok ps) {p : PoolConfig}
    (hp : p ∈ ps) : ∃ entry, (p.name, entry) ∈ os ∧
      resolveEntry environ p.name entry = .ok (some p) := by
  induction os generalizing ps with
  | nil =>
    cases h
    cases hp
  | cons e rest ih =>
    obtain ⟨created, hcreated, h⟩ := bind_eq_ok h
    obtain ⟨pools, hpools, h⟩ := bind_eq_ok h
    cases h
    rcases List.mem_append.1 hp with hp | hp
    · obtain rfl : created = some p := Option.mem_toList.1 hp
      have hname : p.name = e.1 := by
        unfold resolveEntry at hcreated
        split at hcreated
        · cases hcreated
        · exact buildUiPool_name hcreated
      rw [hname]
      exact ⟨e.2, List.mem_cons_self, hcreated⟩
    · obtain ⟨entry, hmem, hentry⟩ := ih hpools hp
      exact ⟨entry, List.mem_cons_of_mem _ hmem, hentry⟩

end Fallbacks

section Resolved

variable {r : ConfigResolver} {db : Database} {e : EffectiveConfig}

/-- What a resolution that returned went through. -/
theorem resolve_inv (h : r.resolve db = .ok e) :
    ∃ pools left created,
      readOverrides db.poolOverrides.rows = .ok (db.poolOverrides.rows.filterMap decodedEntry) ∧
      resolveBase r.basePools (db.poolOverrides.rows.filterMap decodedEntry) = .ok (pools, left) ∧
      resolveCreated r.environ left = .ok created ∧ e.pools = pools ++ created ∧
      e = { pools := pools ++ created
            maxTotalRunners := asInt db.globalOverrides "max_total_runners" r.baseMaxTotal
            maxRunnerLifetime := asInt db.globalOverrides "max_runner_lifetime" r.baseMaxLifetime
            paused := (db.globalOverrides.get "paused").getD "0" = "1"
            states := db.poolState
            protectedContainers := db.protectedContainers } := by
  obtain ⟨os, hos, h⟩ := bind_eq_ok h
  obtain rfl := (readOverrides_eq_ok_iff.1 hos).2
  obtain ⟨⟨pools, left⟩, hbase, h⟩ := bind_eq_ok h
  obtain ⟨created, hcreated, h⟩ := bind_eq_ok h
  cases h
  exact ⟨pools, left, created, hos, hbase, hcreated, rfl, rfl⟩

theorem resolve_eq_ok {os left : List (String × OverrideEntry)} {pools created : List PoolConfig}
    (hread : readOverrides db.poolOverrides.rows = .ok os)
    (hbase : resolveBase r.basePools os = .ok (pools, left))
    (hcreated : resolveCreated r.environ left = .ok created) :
    r.resolve db = .ok
      { pools := pools ++ created
        maxTotalRunners := asInt db.globalOverrides "max_total_runners" r.baseMaxTotal
        maxRunnerLifetime := asInt db.globalOverrides "max_runner_lifetime" r.baseMaxLifetime
        paused := (db.globalOverrides.get "paused").getD "0" = "1"
        states := db.poolState
        protectedContainers := db.protectedContainers } := by
  unfold ConfigResolver.resolve
  rw [hread]
  show (resolveBase r.basePools os >>= _) = _
  rw [hbase]
  show (resolveCreated r.environ left >>= _) = _
  rw [hcreated]
  rfl

/-- A pool whose row gives no entry is returned unchanged. -/
theorem mem_pools_of_noEntry (h : r.resolve db = .ok e) {b : PoolConfig} (hb : b ∈ r.basePools)
    (hrow : ∀ row, db.poolOverrides.get b.name = some row → row.data = .malformed) :
    b ∈ e.pools := by
  obtain ⟨pools, left, created, -, hbase, -, hpools, -⟩ := resolve_inv h
  rw [hpools]
  refine List.mem_append_left _ (mem_resolveBase hbase hb fun entry hmem => ?_)
  obtain ⟨row, hmem, hdata, -⟩ := mem_filterMap_decodedEntry.1 hmem
  rw [hrow row (Table.get_eq_some_iff.2 hmem)] at hdata
  cases hdata

/-- After a resolution that returned, an unusable override is one that is no JSON. -/
theorem malformed_of_unusable (h : r.resolve db = .ok e) {name : String} {row : OverrideRow}
    (hrow : db.poolOverrides.get name = some row) (hbad : Unusable r name row)
    (hname : name ∈ r.basePools.map (·.name)) : row.data = .malformed := by
  cases hbad with
  | malformed hdata => exact hdata
  | override hdata hon hbase hfails =>
    have hread := (resolve_ok_iff.1 ⟨e, h⟩).overrides name row _ hrow hdata hon hname
    obtain ⟨b, hb, -⟩ := List.mem_map.1 hbase
    obtain ⟨pool, hpool⟩ := applyOverride_ok_iff.2 hread
    exact absurd hpool (hfails b hb pool)
  | definition hdata hon hcreated => exact absurd hname hcreated

/-- An unusable row of another name leaves nothing behind. -/
theorem resolveEntry_of_unusable {left : List (String × OverrideEntry)}
    {created : List PoolConfig} {name : String} {row : OverrideRow}
    (hcreated : resolveCreated r.environ left = .ok created)
    (hleft : left = (db.poolOverrides.rows.filterMap decodedEntry).filter
      fun e => e.1 ∉ r.basePools.map (·.name))
    (hrow : db.poolOverrides.get name = some row) (hbad : Unusable r name row)
    {entry : OverrideEntry} (hmem : (name, entry) ∈ left) :
    resolveEntry r.environ name entry = .ok none := by
  have hok : ∃ pool, resolveEntry r.environ name entry = .ok pool :=
    resolveEntry_ok_iff.2 (resolveCreated_ok_iff.1 ⟨created, hcreated⟩ name entry hmem)
  rw [hleft] at hmem
  obtain ⟨hmem, hname⟩ := List.mem_filter.1 hmem
  obtain ⟨row', hmem, hdata, horigin, hdisabled⟩ := mem_filterMap_decodedEntry.1 hmem
  obtain rfl : row' = row := Option.some.inj ((Table.get_eq_some_iff.2 hmem).symm.trans hrow)
  cases hbad with
  | malformed hmal =>
    rw [hmal] at hdata
    cases hdata
  | override _ _ hbase => exact absurd hbase (of_decide_eq_true hname)
  | definition hvalue hon _ hui hfails =>
    obtain rfl := Decoded.value.inj (hvalue.symm.trans hdata)
    obtain ⟨pool, hpool⟩ := hok
    cases pool with
    | none => exact hpool
    | some pool =>
      have hactive : ¬ (entry.origin ≠ "ui" ∨ entry.disabled = true) := by
        rw [← horigin, ← hdisabled, hon]
        simp [hui]
      rw [resolveEntry, if_neg hactive] at hpool
      exact absurd hpool (hfails pool)

theorem filterMap_without (name : String) :
    (db.without name).poolOverrides.rows.filterMap decodedEntry =
      (db.poolOverrides.rows.filterMap decodedEntry).filter fun e => e.1 ≠ name := by
  unfold Database.without Table.deleteWhere
  dsimp only
  induction db.poolOverrides.rows with
  | nil => rfl
  | cons e rows ih =>
    have hkey : ∀ entry, decodedEntry e = some entry → entry.1 = e.1 := by
      intro entry hentry
      unfold decodedEntry at hentry
      split at hentry <;> cases hentry
      rfl
    by_cases he : e.1 = name
    · rw [List.filter_cons_of_neg (by simp [he]), ih]
      cases hentry : decodedEntry e with
      | none => rw [List.filterMap_cons_none hentry]
      | some entry =>
        rw [List.filterMap_cons_some hentry, List.filter_cons_of_neg (by simp [hkey _ hentry, he])]
    · rw [List.filter_cons_of_pos (by simp [he])]
      cases hentry : decodedEntry e with
      | none => rw [List.filterMap_cons_none hentry, List.filterMap_cons_none hentry, ih]
      | some entry =>
        rw [List.filterMap_cons_some hentry, List.filterMap_cons_some hentry, ih,
          List.filter_cons_of_pos (by simp [hkey _ hentry, he])]

/-- Resolution does not depend on an unusable row. -/
theorem resolve_without (h : r.resolve db = .ok e) {name : String} {row : OverrideRow}
    (hrow : db.poolOverrides.get name = some row) (hbad : Unusable r name row) :
    r.resolve (db.without name) = .ok e := by
  obtain ⟨pools, left, created, hread, hbase, hcreated, -, rfl⟩ := resolve_inv h
  have hread' : readOverrides (db.without name).poolOverrides.rows =
      .ok ((db.poolOverrides.rows.filterMap decodedEntry).filter fun e => e.1 ≠ name) := by
    refine readOverrides_eq_ok_iff.2 ⟨fun e he => ?_, (filterMap_without name).symm⟩
    exact (readOverrides_eq_ok_iff.1 hread).1 e (List.mem_filter.1 he).1
  by_cases hname : name ∈ r.basePools.map (·.name)
  · -- The row is no JSON, so it gave no entry in the first place.
    have hmalformed := malformed_of_unusable h hrow hbad hname
    have hnone : (db.poolOverrides.rows.filterMap decodedEntry).filter (fun e => e.1 ≠ name) =
        db.poolOverrides.rows.filterMap decodedEntry := by
      refine List.filter_eq_self.2 fun entry hmem => decide_eq_true fun hkey => ?_
      obtain ⟨row', hmem, hdata, -⟩ := mem_filterMap_decodedEntry.1 hmem
      rw [hkey] at hmem
      obtain rfl : row' = row := Option.some.inj ((Table.get_eq_some_iff.2 hmem).symm.trans hrow)
      rw [hmalformed] at hdata
      cases hdata
    exact resolve_eq_ok (hread'.trans (congrArg _ hnone)) hbase hcreated
  · have hskip : ∀ entry, (name, entry) ∈ left →
        resolveEntry r.environ name entry = .ok none := fun entry hmem =>
      resolveEntry_of_unusable hcreated (resolveBase_left hbase) hrow hbad hmem
    exact resolve_eq_ok hread' (resolveBase_filter hbase hname)
      (resolveCreated_filter hcreated hskip)

theorem fallbacks_of_resolve (h : r.resolve db = .ok e) : Fallbacks r db e where
  unchanged b hb hnone := mem_pools_of_noEntry h hb fun row hrow => by
    rw [hnone] at hrow
    cases hrow
  fallsBack b hb row hrow hbad := mem_pools_of_noEntry h hb fun row' hrow' => by
    obtain rfl := Option.some.inj (hrow'.symm.trans hrow)
    exact malformed_of_unusable h hrow hbad (List.mem_map_of_mem hb)
  skipped name row hname hrow hbad p hp hpname := by
    obtain ⟨pools, left, created, -, hbase, hcreated, hpools, -⟩ := resolve_inv h
    rw [hpools] at hp
    rcases List.mem_append.1 hp with hp | hp
    · exact hname (hpname ▸ resolveBase_names hbase hp)
    · obtain ⟨entry, hmem, hentry⟩ := resolveCreated_entry hcreated hp
      rw [hpname] at hmem hentry
      rw [resolveEntry_of_unusable hcreated (resolveBase_left hbase) hrow hbad hmem] at hentry
      cases hentry
  independent name row hrow hbad := resolve_without h hrow hbad

theorem resolveBase_nil (bases : List PoolConfig) : resolveBase bases [] = .ok (bases, []) := by
  induction bases with
  | nil => rfl
  | cons base rest ih =>
    unfold resolveBase
    rw [List.filter_nil, ih]
    rfl

/-- A store that holds nothing changes nothing. -/
theorem resolve_empty (r : ConfigResolver) :
    r.resolve ⟨Table.empty, Table.empty, Table.empty, []⟩ = .ok r.resolveWithoutStore := by
  have hcreated : resolveCreated r.environ [] = .ok [] := rfl
  have h : r.resolve ⟨Table.empty, Table.empty, Table.empty, []⟩ = .ok _ :=
    resolve_eq_ok rfl (resolveBase_nil r.basePools) hcreated
  rw [List.append_nil] at h
  exact h

/-- **Safe resolution.** `resolve` returns with every fallback in place exactly on a readable
database. -/
theorem resolvesSafely_iff (r : ConfigResolver) (db : Database) :
    (∃ e, r.resolve db = .ok e ∧ Fallbacks r db e) ↔ Readable r db := by
  rw [← resolve_ok_iff]
  exact ⟨fun ⟨e, h, _⟩ => ⟨e, h⟩, fun ⟨e, h⟩ => ⟨e, h, fallbacks_of_resolve h⟩⟩

/-- A pool of `config.yml` and a row for it that was written by hand. -/
theorem not_resolvesSafely :
    ¬ ∀ (r : ConfigResolver) (db : Database), ∃ e, r.resolve db = .ok e ∧ Fallbacks r db e := by
  intro h
  let r : ConfigResolver := ⟨[{ name := "ci", pat := "t", owner := "o" }], 0, 0, fun _ => .ok ""⟩
  let row : OverrideRow := ⟨.value (.dict [("max_runners", .str "many")]), "yaml", false⟩
  let db : Database := ⟨⟨[("ci", row)], List.nodup_singleton _⟩, Table.empty, Table.empty, []⟩
  obtain ⟨e, he, -⟩ := h r db
  have hraises : r.resolve db = .error .valueError := rfl
  rw [hraises] at he
  cases he

end Resolved

end RunnerSwarm
