import RunnerSwarm.Lib.Holders
import RunnerSwarm.Scaler.Allocation
import RunnerSwarm.Server.Payloads

/-!
# Whose snapshot it is

A tick of a personal pool leaves one snapshot for each repository, and the name it is stored under
is the name of the pool, a dash and the name of the repository. `group_snapshots` finds the pool
from that text alone. Pools and repositories may have dashes in their names, so the text can begin
like another pool, or be the name of one.

* `parentOf_eq_some_iff`: a snapshot goes to the one pool with the longest name that fits;
* `countsOnce_iff`: every snapshot of a repository goes to the pool whose tick wrote it exactly when
  no pool has its name and no longer name of a pool begins it at a dash. The totals of the pools
  then count each snapshot once;
* `not_countsOnce`: a repository `web-api` of the pool `home` is counted by the pool `home-web`.
-/

namespace RunnerSwarm

/-! ### What ticks record -/

/-- `_record_snapshot`, of an inspection that took `duration` seconds. -/
def PoolInspection.snapshot (i : PoolInspection) (ts duration : ℚ) : SnapshotRow where
  ts := ts
  pool := i.pool.name
  display := i.pool.display
  containers := i.running
  online := i.idle + i.busy
  idle := i.idle
  busy := i.busy
  queued := i.queued
  duration := duration

/-- A snapshot recorded by a tick of one of the pools. -/
structure RecordedTick (pools : List PoolConfig) where
  pool : PoolConfig
  mem : pool ∈ pools
  /-- The repository inspected, of a personal pool. -/
  repo : String
  inspection : PoolInspection
  inspected : inspection.pool = if pool.isPersonalLevel then pool.forRepository repo else pool
  ts : ℚ
  duration : ℚ

namespace RecordedTick

variable {pools : List PoolConfig} (t : RecordedTick pools)

def row : SnapshotRow := t.inspection.snapshot t.ts t.duration

/-- The name the snapshot is stored under. -/
def key : String := t.inspection.pool.name

theorem row_pool : t.row.pool = t.key := rfl

theorem key_of_personal (h : t.pool.isPersonalLevel = true) :
    t.key = t.pool.name ++ "-" ++ t.repo := by
  unfold key
  rw [t.inspected, if_pos h]
  rfl

theorem key_of_not_personal (h : ¬ t.pool.isPersonalLevel = true) : t.key = t.pool.name := by
  unfold key
  rw [t.inspected, if_neg h]

/-- **No other pool can take the snapshot**: none has its name, and no longer name begins it. -/
def Unclaimed : Prop :=
  t.key ∉ pools.map (·.name) ∧
    ∀ q ∈ pools, startsWith t.key (q.name ++ "-") = true → q.name.length ≤ t.pool.name.length

instance : Decidable t.Unclaimed := inferInstanceAs (Decidable (_ ∧ _))

end RecordedTick

/-- The store after these ticks. -/
def Store.withTicks {pools : List PoolConfig} (s : Store) (ticks : List (RecordedTick pools)) :
    Store :=
  { s with tickSnapshots := ticks.map RecordedTick.row }

/-! ### What is shown -/

/-- The numbers of one pool, as `_state_payload` asks for them. -/
def poolTotals (pools : List PoolConfig) (snapshots : Table String SnapshotRow) (p : PoolConfig) :
    List (String × Json) :=
  rollup (snapshots.get p.name) (groupSnapshots (pools.map (·.name)) snapshots p.name)

/-- One of these numbers. -/
def shownNumber (totals : List (String × Json)) (counter : String) : ℤ :=
  match getItem totals counter with
  | some (.int n) => n
  | _ => 0

/-- A pool shows its own row, or else the sum of the rows it was given. -/
theorem shownNumber_rollup {own : Option SnapshotRow} {children : List SnapshotRow}
    {c : String × (SnapshotRow → ℤ)} (hc : c ∈ counters) :
    shownNumber (rollup own children) c.1 = own.elim (children.map c.2).sum c.2 := by
  unfold counters at hc
  simp only [List.mem_cons, List.not_mem_nil, or_false] at hc
  rcases hc with rfl | rfl | rfl | rfl | rfl <;> cases own <;> rfl

/-- **Each snapshot of a repository goes to the pool whose tick wrote it** and to no other, and the
totals of all pools count every snapshot exactly once. -/
structure CountsOnce (pools : List PoolConfig) (snapshots : Table String SnapshotRow)
    (ticks : List (RecordedTick pools)) : Prop where
  attributed : ∀ t ∈ ticks, t.pool.isPersonalLevel = true →
    ∀ row, snapshots.get t.key = some row →
      ∀ name, row ∈ groupSnapshots (pools.map (·.name)) snapshots name ↔ name = t.pool.name
  counted : ∀ c ∈ counters,
    (pools.map fun p => shownNumber (poolTotals pools snapshots p) c.1).sum =
      (snapshots.rows.map fun entry => c.2 entry.2).sum

variable {pools : List PoolConfig} {ticks : List (RecordedTick pools)} {s : Store}

/-! ### The pool a name is decoded to -/

theorem fits_iff {key name : String} : startsWith key (name ++ "-") = true ↔
    name.toList ++ ['-'] <+: key.toList := by
  unfold startsWith
  rw [List.isPrefixOf_iff_prefix, String.toList_append]
  rfl

/-- Of two names that fit, the shorter one is not as long. -/
theorem eq_of_fits {key a b : String} (ha : startsWith key (a ++ "-") = true)
    (hb : startsWith key (b ++ "-") = true) (hlen : a.length = b.length) : a = b := by
  have hpre := List.prefix_of_prefix_length_le (fits_iff.1 ha) (fits_iff.1 hb) (by
    rw [List.length_append, List.length_append, String.length_toList, String.length_toList, hlen])
  have heq := hpre.eq_of_length (by
    rw [List.length_append, List.length_append, String.length_toList, String.length_toList, hlen])
  exact String.toList_injective (List.append_cancel_right heq)

/-- **The pool that gets a snapshot.** -/
theorem parentOf_eq_some_iff {poolNames : List String} {key name : String} :
    parentOf poolNames key = some name ↔
      name ∈ poolNames ∧ startsWith key (name ++ "-") = true ∧ key ∉ poolNames ∧
        ∀ other ∈ poolNames, startsWith key (other ++ "-") = true →
          other.length ≤ name.length := by
  refine ⟨parentOf_eq_some, fun ⟨hmem, hfits, hkey, hlongest⟩ => ?_⟩
  obtain ⟨found, hfound⟩ : ∃ found, parentOf poolNames key = some found := by
    unfold parentOf
    rw [if_neg hkey, ← Option.isSome_iff_exists, List.find?_isSome]
    exact ⟨name, mem_longestFirst.2 hmem, hfits⟩
  obtain ⟨hfoundMem, hfoundFits, -, hfoundLongest⟩ := parentOf_eq_some hfound
  have hlen := Nat.le_antisymm (hlongest found hfoundMem hfoundFits)
    (hfoundLongest name hmem hfits)
  rw [hfound, eq_of_fits hfoundFits hfits hlen]

/-! ### The snapshots after some ticks -/

/-- A snapshot is the row of a tick. -/
theorem exists_tick_of_get {key : String} {row : SnapshotRow}
    (h : (s.withTicks ticks).latestSnapshots.get key = some row) :
    ∃ t ∈ ticks, t.key = key ∧ t.row = row := by
  obtain ⟨hrow, hkey⟩ := Store.mem_of_latestSnapshots h
  obtain ⟨t, ht, rfl⟩ := List.mem_map.1 hrow
  exact ⟨t, ht, hkey, rfl⟩

/-- Every tick leaves a snapshot under its name. -/
theorem exists_get_of_tick {t : RecordedTick pools} (ht : t ∈ ticks) :
    ∃ row, (s.withTicks ticks).latestSnapshots.get t.key = some row := by
  have hmem : t.row ∈ (s.withTicks ticks).tickSnapshots := List.mem_map_of_mem ht
  exact t.row_pool ▸ Store.exists_latest hmem

/-- A pool is given the newest rows whose names are decoded to it. -/
theorem mem_group_iff {poolNames : List String} {name : String} {row : SnapshotRow} :
    row ∈ groupSnapshots poolNames s.latestSnapshots name ↔
      s.latestSnapshots.get row.pool = some row ∧ parentOf poolNames row.pool = some name := by
  rw [mem_groupSnapshots]
  constructor
  · rintro ⟨key, hget, hparent⟩
    rw [(Store.mem_of_latestSnapshots hget).2]
    exact ⟨hget, hparent⟩
  · exact fun ⟨hget, hparent⟩ => ⟨row.pool, hget, hparent⟩

/-- **When a snapshot of a repository is decoded to its pool.** -/
theorem parentOf_key_iff {t : RecordedTick pools} (h : t.pool.isPersonalLevel = true) :
    parentOf (pools.map (·.name)) t.key = some t.pool.name ↔ t.Unclaimed := by
  have hfits : startsWith t.key (t.pool.name ++ "-") = true := by
    rw [fits_iff, t.key_of_personal h, String.toList_append, String.toList_append]
    exact List.prefix_append _ _
  have hmem : t.pool.name ∈ pools.map (·.name) := List.mem_map_of_mem t.mem
  rw [parentOf_eq_some_iff, and_iff_right hmem, and_iff_right hfits, List.forall_mem_map]
  exact Iff.rfl

/-! ### Every snapshot is counted once -/

/-- The pool that counts a snapshot: its own, or else the one its name is decoded to. -/
def countedBy (poolNames : List String) (key : String) : Option String :=
  if key ∈ poolNames then some key else parentOf poolNames key

theorem countedBy_eq_some_iff {poolNames : List String} {key name : String}
    (hname : name ∈ poolNames) :
    countedBy poolNames key = some name ↔ key = name ∨ parentOf poolNames key = some name := by
  unfold countedBy
  split_ifs with hkey
  · have hnone : parentOf poolNames key = none := if_pos hkey
    rw [hnone, Option.some_inj]
    exact (or_iff_left (by simp)).symm
  · refine (or_iff_right fun heq => hkey ?_).symm
    rwa [heq]

section Counted

variable (hdistinct : (pools.map (·.name)).Nodup)
  (hunclaimed : ∀ t ∈ ticks, t.pool.isPersonalLevel = true → t.Unclaimed)

include hdistinct hunclaimed

/-- A pool with a snapshot of its own is given none of a repository. -/
theorem group_eq_nil_of_own {p : PoolConfig} (hp : p ∈ pools) {own : SnapshotRow}
    (hown : (s.withTicks ticks).latestSnapshots.get p.name = some own) :
    groupSnapshots (pools.map (·.name)) (s.withTicks ticks).latestSnapshots p.name = [] := by
  have hname : p.name ∈ pools.map (·.name) := List.mem_map_of_mem hp
  -- the pool wrote its own snapshot, so it is not personal
  have hsingle : ¬ p.isPersonalLevel = true := by
    obtain ⟨t, ht, hkey, -⟩ := exists_tick_of_get hown
    have ht' : ¬ t.pool.isPersonalLevel = true := fun hpersonal =>
      (hunclaimed t ht hpersonal).1 (hkey ▸ hname)
    rw [t.key_of_not_personal ht'] at hkey
    rwa [← List.inj_on_of_nodup_map hdistinct t.mem hp hkey]
  refine List.eq_nil_iff_forall_not_mem.2 fun row hrow => ?_
  obtain ⟨key, hget, hparent⟩ := mem_groupSnapshots.1 hrow
  obtain ⟨t, ht, rfl, -⟩ := exists_tick_of_get hget
  by_cases hpersonal : t.pool.isPersonalLevel = true
  · rw [(parentOf_key_iff hpersonal).2 (hunclaimed t ht hpersonal), Option.some_inj] at hparent
    exact hsingle (List.inj_on_of_nodup_map hdistinct t.mem hp hparent ▸ hpersonal)
  · refine (parentOf_eq_some_iff.1 hparent).2.2.1 ?_
    rw [t.key_of_not_personal hpersonal]
    exact List.mem_map_of_mem t.mem

omit hdistinct in
/-- Each snapshot is counted by some pool. -/
theorem exists_countedBy : ∀ entry ∈ (s.withTicks ticks).latestSnapshots.rows,
    ∃ name ∈ pools.map (·.name), countedBy (pools.map (·.name)) entry.1 = some name := by
  intro entry h
  obtain ⟨t, ht, hkey, -⟩ := exists_tick_of_get (Table.get_eq_some_iff.2 h)
  have hname : t.pool.name ∈ pools.map (·.name) := List.mem_map_of_mem t.mem
  refine ⟨t.pool.name, hname, (countedBy_eq_some_iff hname).2 ?_⟩
  rw [← hkey]
  by_cases hpersonal : t.pool.isPersonalLevel = true
  · exact Or.inr ((parentOf_key_iff hpersonal).2 (hunclaimed t ht hpersonal))
  · exact Or.inl (t.key_of_not_personal hpersonal)

/-- **What a pool shows** is the sum over the snapshots it counts. -/
theorem shownNumber_eq {p : PoolConfig} (hp : p ∈ pools) {c : String × (SnapshotRow → ℤ)}
    (hc : c ∈ counters) :
    shownNumber (poolTotals pools (s.withTicks ticks).latestSnapshots p) c.1 =
      (((s.withTicks ticks).latestSnapshots.rows.filter fun entry =>
        countedBy (pools.map (·.name)) entry.1 = some p.name).map fun entry => c.2 entry.2).sum := by
  have hname : p.name ∈ pools.map (·.name) := List.mem_map_of_mem hp
  have hgroup : ∀ own, (s.withTicks ticks).latestSnapshots.get p.name = some own →
      groupSnapshots (pools.map (·.name)) (s.withTicks ticks).latestSnapshots p.name = [] :=
    fun _ => group_eq_nil_of_own hdistinct hunclaimed hp
  unfold poolTotals
  rw [shownNumber_rollup hc]
  generalize (s.withTicks ticks).latestSnapshots = snapshots at hgroup ⊢
  cases hown : snapshots.get p.name with
  | some own =>
    have hmem := Table.get_eq_some_iff.1 hown
    have hfilter : ∀ entry ∈ snapshots.rows,
        decide (countedBy (pools.map (·.name)) entry.1 = some p.name) =
          decide (entry.1 = p.name) := by
      intro entry hentry
      refine decide_eq_decide.2 ((countedBy_eq_some_iff hname).trans (or_iff_left fun hparent => ?_))
      have hrow : entry.2 ∈ groupSnapshots (pools.map (·.name)) snapshots p.name :=
        mem_groupSnapshots.2 ⟨entry.1, Table.get_eq_some_iff.2 hentry, hparent⟩
      rw [hgroup own hown] at hrow
      cases hrow
    rw [List.filter_congr hfilter]
    exact (sum_filter_key snapshots.keyed hmem fun entry => c.2 entry.2).symm
  | none =>
    have hfilter : ∀ entry ∈ snapshots.rows,
        decide (countedBy (pools.map (·.name)) entry.1 = some p.name) =
          decide (parentOf (pools.map (·.name)) entry.1 = some p.name) := by
      intro entry hentry
      refine decide_eq_decide.2 ((countedBy_eq_some_iff hname).trans (or_iff_right fun hkey => ?_))
      exact Table.get_eq_none_iff.1 hown entry.2 (hkey ▸ hentry)
    have hperm := ((List.perm_insertionSort (fun a b : SnapshotRow => a.pool ≤ b.pool)
      ((snapshots.rows.filter fun entry =>
        parentOf (pools.map (·.name)) entry.1 = some p.name).map Prod.snd)).map c.2).sum_eq
    rw [List.filter_congr hfilter]
    rw [List.map_map] at hperm
    exact hperm

end Counted

/-- **When every snapshot goes to the pool whose tick wrote it**: exactly when no pool has the name
of a repository's snapshot, and no pool with a longer name begins it at a dash. -/
theorem countsOnce_iff (hdistinct : (pools.map (·.name)).Nodup) :
    CountsOnce pools (s.withTicks ticks).latestSnapshots ticks ↔
      ∀ t ∈ ticks, t.pool.isPersonalLevel = true → t.Unclaimed := by
  constructor
  · intro h t ht hpersonal
    obtain ⟨row, hrow⟩ := exists_get_of_tick (s := s) ht
    have hown := (h.attributed t ht hpersonal row hrow t.pool.name).2 rfl
    have hparent := (mem_group_iff.1 hown).2
    rw [(Store.mem_of_latestSnapshots hrow).2] at hparent
    exact (parentOf_key_iff hpersonal).1 hparent
  · intro hunclaimed
    refine ⟨fun t ht hpersonal row hrow name => ?_, fun c hc => ?_⟩
    · have hparent := (parentOf_key_iff hpersonal).2 (hunclaimed t ht hpersonal)
      rw [mem_group_iff, (Store.mem_of_latestSnapshots hrow).2, and_iff_right hrow, hparent,
        Option.some_inj, eq_comm]
    · rw [List.map_congr_left fun p hp => shownNumber_eq (s := s) hdistinct hunclaimed hp hc]
      have htotal := sum_owned hdistinct (exists_countedBy (s := s) hunclaimed) fun entry =>
        c.2 entry.2
      rwa [List.map_map] at htotal

/-! ### A personal pool beside one whose name continues its own -/

/-- The repositories of an account. -/
def homePool : PoolConfig := { name := "home", pat := "t", owner := "me", scope := "personal" }

/-- An organisation. -/
def homeWebPool : PoolConfig := { name := "home-web", pat := "t", owner := "web" }

def homePools : List PoolConfig := [homePool, homeWebPool]

/-- The personal pool finds one busy runner in a repository. -/
def homeTick (repo : String) : RecordedTick homePools where
  pool := homePool
  mem := by decide
  repo := repo
  inspection := ⟨homePool.forRepository repo, 1, 0, 0, 1, []⟩
  inspected := rfl
  ts := 0
  duration := 1

/-- The other one has two idle runners. -/
def homeWebTick : RecordedTick homePools where
  pool := homeWebPool
  mem := by decide
  repo := ""
  inspection := ⟨homeWebPool, 2, 0, 2, 0, []⟩
  inspected := rfl
  ts := 0
  duration := 1

/-- A repository `api` is counted by its pool. -/
theorem countsOnce_api : CountsOnce homePools
    (World.empty.store.withTicks [homeTick "api", homeWebTick]).latestSnapshots
    [homeTick "api", homeWebTick] :=
  (countsOnce_iff (by decide)).2 (by decide +kernel)

/-- A repository `web-api` of the pool `home` is given to the pool `home-web`, which shows its own
row: the busy runner of the repository is counted nowhere. -/
theorem not_countsOnce : (homePools.map (·.name)).Nodup ∧
    let ticks := [homeTick "web-api", homeWebTick]
    let snapshots := (World.empty.store.withTicks ticks).latestSnapshots
    groupSnapshots ["home", "home-web"] snapshots "home" = [] ∧
      groupSnapshots ["home", "home-web"] snapshots "home-web" = [(homeTick "web-api").row] ∧
      homePools.map (fun p => shownNumber (poolTotals homePools snapshots p) "busy") = [0, 0] ∧
      ¬ CountsOnce homePools snapshots ticks := by
  refine ⟨by decide, by decide +kernel, by decide +kernel, by decide +kernel, fun h => ?_⟩
  have hclaimed := h.attributed (homeTick "web-api") List.mem_cons_self rfl
    (homeTick "web-api").row (by decide +kernel) "home-web"
  exact absurd (hclaimed.1 (by decide +kernel)) (by decide)

end RunnerSwarm
