import RunnerSwarm.Config.Fallbacks

/-!
# The effective pools of one name

Pools do not interfere across names: which pools of a name the configuration has depends on the pools
of `config.yml` with that name and on the name's own row. `namedPools` computes them, and
`resolve_named` says that they are what `resolve` returns.

Only the first pool of `config.yml` with a name meets the row; a second one keeps its definition.
-/

namespace RunnerSwarm

/-- What `pool_overrides()` holds for a row, `none` when its text is no JSON. -/
def OverrideRow.entry (row : OverrideRow) : Option OverrideEntry :=
  match row.data with
  | .value data => some ⟨data, row.origin, row.disabled⟩
  | _ => none

/-- The entry of a name. -/
def Database.storedEntry (db : Database) (name : String) : Option OverrideEntry :=
  (db.poolOverrides.get name).bind OverrideRow.entry

/-- The pools of a name. -/
def ConfigResolver.namedPools (r : ConfigResolver) (name : String) (entry : Option OverrideEntry) :
    Except PyError (List PoolConfig) :=
  match r.basePools.filter (·.name = name), entry with
  | [], none => .ok []
  | [], some entry => Option.toList <$> resolveEntry r.environ name entry
  | base :: others, entry => (· ++ others) <$> resolveOne base entry

section Rows

variable {rows : List (String × OverrideRow)} {name : String}

theorem entryFor_decoded {t : Table String OverrideRow} :
    entryFor name (t.rows.filterMap decodedEntry) = (t.get name).bind OverrideRow.entry := by
  refine Option.ext fun entry => ?_
  rw [entryFor_eq_some_iff (keys_filterMap_decodedEntry t.keyed), mem_filterMap_decodedEntry,
    Option.bind_eq_some_iff]
  refine exists_congr fun row => and_congr Table.get_eq_some_iff.symm ?_
  unfold OverrideRow.entry
  cases row.data with
  | value data =>
    obtain ⟨data', origin, disabled⟩ := entry
    simp
  | _ => simp

end Rows

section Loops

variable {environ : String → Except PyError String} {bases : List PoolConfig} {name : String}
  {os left : List (String × OverrideEntry)} {ps : List PoolConfig}

theorem resolveOne_names {base : PoolConfig} {entry : Option OverrideEntry} {own : List PoolConfig}
    (h : resolveOne base entry = .ok own) : ∀ p ∈ own, p.name = base.name := by
  intro p hp
  unfold resolveOne at h
  split at h
  · cases h
    rw [List.mem_singleton.1 hp]
  · split at h
    · cases h
      cases hp
    · obtain ⟨pool, hpool⟩ := map_ok_iff.1 ⟨own, h⟩
      rw [hpool] at h
      cases h
      rw [List.mem_singleton.1 hp]
      exact applyOverride_name hpool

theorem filter_name_eq_self {l : List PoolConfig} (h : ∀ p ∈ l, p.name = name) :
    l.filter (·.name = name) = l :=
  List.filter_eq_self.2 fun p hp => decide_eq_true (h p hp)

theorem filter_name_eq_nil {l : List PoolConfig} (h : ∀ p ∈ l, p.name ≠ name) :
    l.filter (·.name = name) = [] :=
  List.filter_eq_nil_iff.2 fun p hp hname => h p hp (of_decide_eq_true hname)

/-- A filter that keeps the entries of a name. -/
theorem entryFor_filter {p : String × OverrideEntry → Bool} (h : ∀ e, e.1 = name → p e = true) :
    entryFor name (os.filter p) = entryFor name os := by
  unfold entryFor
  rw [List.find?_filter]
  congr 2
  funext e
  by_cases he : e.1 = name
  · simp [he, h e he]
  · simp [he]

theorem entryFor_filter_self : entryFor name (os.filter fun e => e.1 ≠ name) = none :=
  entryFor_eq_none fun entry hmem => by simpa using (List.mem_filter.1 hmem).2

/-- The loop over the pools of `config.yml`, for one name. -/
theorem resolveBase_named (name : String) (h : resolveBase bases os = .ok (ps, left)) :
    match bases.filter (·.name = name) with
    | [] => ps.filter (·.name = name) = []
    | base :: others => ∃ own, resolveOne base (entryFor name os) = .ok own ∧
        ps.filter (·.name = name) = own ++ others := by
  induction bases generalizing os ps with
  | nil =>
    cases h
    rfl
  | cons base rest ih =>
    obtain ⟨own, hown, h⟩ := bind_eq_ok h
    obtain ⟨⟨pools, left'⟩, hrest, h⟩ := bind_eq_ok h
    cases h
    have hnext := ih hrest
    by_cases hname : base.name = name
    · subst hname
      rw [List.filter_cons_of_pos (by simp), List.filter_append,
        filter_name_eq_self (resolveOne_names hown)]
      refine ⟨own, hown, congrArg _ ?_⟩
      -- the entry is used up, so the other pools of the name keep their definitions
      rw [entryFor_filter_self] at hnext
      cases hothers : rest.filter (·.name = base.name) with
      | nil =>
        rw [hothers] at hnext
        exact hnext
      | cons other others =>
        rw [hothers] at hnext
        obtain ⟨own', hown', hnext⟩ := hnext
        cases hown'
        exact hnext
    · have hnone : own.filter (·.name = name) = [] :=
        filter_name_eq_nil fun p hp => by rwa [resolveOne_names hown p hp]
      rw [List.filter_cons_of_neg (by simpa using hname), List.filter_append, hnone, List.nil_append]
      have hkept : ∀ e : String × OverrideEntry, e.1 = name → decide (e.1 ≠ base.name) = true :=
        fun e he => decide_eq_true fun h => hname (h.symm.trans he)
      rw [entryFor_filter hkept] at hnext
      exact hnext

theorem resolveEntry_name {entry : OverrideEntry} {created : Option PoolConfig}
    (h : resolveEntry environ name entry = .ok created) : ∀ p ∈ created.toList, p.name = name := by
  intro p hp
  obtain rfl : created = some p := Option.mem_toList.1 hp
  unfold resolveEntry at h
  split at h
  · cases h
  · exact buildUiPool_name h

/-- The loop over the other entries, for one name. -/
theorem resolveCreated_named (name : String) (hkeys : (os.map Prod.fst).Nodup)
    (h : resolveCreated environ os = .ok ps) :
    match entryFor name os with
    | none => ps.filter (·.name = name) = []
    | some entry => ∃ created, resolveEntry environ name entry = .ok created ∧
        ps.filter (·.name = name) = created.toList := by
  induction os generalizing ps with
  | nil =>
    cases h
    rfl
  | cons e rest ih =>
    obtain ⟨created, hcreated, h⟩ := bind_eq_ok h
    obtain ⟨pools, hpools, h⟩ := bind_eq_ok h
    cases h
    obtain ⟨hfresh, hrest⟩ := List.nodup_cons.1 hkeys
    have hnext := ih hrest hpools
    rw [List.filter_append]
    by_cases hname : e.1 = name
    · subst hname
      have hothers : entryFor e.1 rest = none :=
        entryFor_eq_none fun entry hmem => hfresh (List.mem_map.2 ⟨_, hmem, rfl⟩)
      have hfound : entryFor e.1 (e :: rest) = some e.2 := by simp [entryFor]
      rw [hothers] at hnext
      rw [hfound]
      refine ⟨created, hcreated, ?_⟩
      rw [filter_name_eq_self (resolveEntry_name hcreated), hnext, List.append_nil]
    · have hsame : entryFor name (e :: rest) = entryFor name rest := by simp [entryFor, hname]
      have hnone : created.toList.filter (·.name = name) = [] :=
        filter_name_eq_nil fun p hp => by rwa [resolveEntry_name hcreated p hp]
      rw [hsame, hnone, List.nil_append]
      exact hnext

end Loops

/-- **The pools of a name** are those its own definitions give. -/
theorem resolve_named {r : ConfigResolver} {db : Database} {e : EffectiveConfig}
    (h : r.resolve db = .ok e) (name : String) :
    r.namedPools name (db.storedEntry name) = .ok (e.pools.filter (·.name = name)) := by
  obtain ⟨pools, left, created, -, hbase, hcreated, hpools, -⟩ := resolve_inv h
  have hkeys := keys_filterMap_decodedEntry db.poolOverrides.keyed
  have hleft := resolveBase_left hbase
  have hbaseNamed := resolveBase_named name hbase
  have hentry : entryFor name (db.poolOverrides.rows.filterMap decodedEntry) = db.storedEntry name :=
    entryFor_decoded
  unfold ConfigResolver.namedPools
  rw [hpools, List.filter_append]
  cases hfilter : r.basePools.filter (·.name = name) with
  | nil =>
    rw [hfilter] at hbaseNamed
    have hname : name ∉ r.basePools.map (·.name) := by
      intro hmem
      obtain ⟨base, hbase, hname⟩ := List.mem_map.1 hmem
      exact absurd (decide_eq_true hname) (List.filter_eq_nil_iff.1 hfilter base hbase)
    have hsame : entryFor name left = db.storedEntry name := by
      rw [hleft, ← hentry]
      exact entryFor_filter fun e he => decide_eq_true (he ▸ hname)
    have hcreatedNamed := resolveCreated_named name (hleft ▸ keys_filter hkeys _) hcreated
    rw [hsame] at hcreatedNamed
    rw [hbaseNamed, List.nil_append]
    cases hstored : db.storedEntry name with
    | none =>
      rw [hstored] at hcreatedNamed
      rw [hcreatedNamed]
    | some entry =>
      rw [hstored] at hcreatedNamed
      obtain ⟨pool, hpool, hnamed⟩ := hcreatedNamed
      dsimp only
      rw [hpool, hnamed]
      rfl
  | cons base others =>
    rw [hfilter] at hbaseNamed
    obtain ⟨own, hown, hnamed⟩ := hbaseNamed
    have hother : created.filter (·.name = name) = [] := by
      refine filter_name_eq_nil fun p hp hpname => ?_
      obtain ⟨entry, hmem, -⟩ := resolveCreated_entry hcreated hp
      rw [hleft] at hmem
      have hbasemem : base ∈ r.basePools.filter (·.name = name) := by
        rw [hfilter]
        exact List.mem_cons_self
      obtain ⟨hbasemem, hbasename⟩ := List.mem_filter.1 hbasemem
      have hnot := of_decide_eq_true (List.mem_filter.1 hmem).2
      exact hnot (hpname.trans (of_decide_eq_true hbasename).symm ▸ List.mem_map_of_mem hbasemem)
    rw [← hentry]
    dsimp only
    rw [hown, hnamed, hother, List.append_nil]
    rfl

end RunnerSwarm
