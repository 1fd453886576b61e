import RunnerSwarm.Lib.Run
import RunnerSwarm.Scaler.RepeatedTicks
import RunnerSwarm.Server.Attribution

/-!
# Repositories that are no longer covered

The totals of a personal pool are summed over the newest snapshot of every name that is decoded to
it. A tick adds a snapshot for each repository that it inspects and takes none away, so the last
snapshot of a repository that was archived, excluded or deleted stays in the sum until `prune` drops
it. The names of the snapshots are names that the database tells apart.

`AccountHistory` is the store with the snapshots of the last completed tick. Its steps are the ticks
of the pool, the snapshots of other pools, and `prune`.

* `reports_iff`: the totals are those of the last completed tick exactly when no snapshot of another
  repository, given to the pool, counts anything;
* `reports_along_iff`: over a whole run this comes down to the ticks, each of which must leave no
  such snapshot behind;
* `not_reports`: the queued job of a deleted repository is reported after the next tick.
-/

namespace RunnerSwarm

/-! ### The history of a personal pool -/

namespace Store

variable (s : Store)

/-- `record_tick`. -/
def recordTick (row : SnapshotRow) : Store := { s with tickSnapshots := s.tickSnapshots ++ [row] }

/-- `prune`: the rows that are older than `days` go. -/
def prune (now : ℚ) (days : ℤ) : Store :=
  if days ≤ 0 then s
  else
    let cutoff := now - days * 86400
    { s with
      tickSnapshots := s.tickSnapshots.filter fun row => !(row.ts < cutoff)
      runnerEvents := s.runnerEvents.filter fun row => !(row.ts < cutoff)
      auditLog := s.auditLog.filter fun row => !(row.ts < cutoff) }

end Store

/-- What a tick of a personal pool meets. -/
structure AccountTick where
  /-- `_get_personal_repositories`; `none` when discovery fails and nothing is cached. -/
  discovered : Option RepositoryNames
  obs : String → Observations
  /-- When the snapshot of a repository is recorded, and how long its inspection took. -/
  ts : String → ℚ
  duration : String → ℚ
  /-- The `INSERT` of the snapshot of this name succeeds; a failure is logged and no more. -/
  stored : String → Bool

namespace AccountTick

variable (t : AccountTick) (pool : PoolConfig)

/-- The inspections, when the tick gets through all of them. -/
def inspections : Option (List PoolInspection) :=
  t.discovered.bind fun repos => collectInspections
    (repos.names.map fun repo => inspectPool (pool.forRepository repo) (t.obs repo))

/-- The snapshots it is to record. A tick without them is not completed. -/
def snapshots : Option (List SnapshotRow) :=
  (t.inspections pool).map fun is => is.map fun i =>
    i.snapshot (t.ts i.pool.repo) (t.duration i.pool.repo)

end AccountTick

/-- The store, and the snapshots of the last completed tick of the pool. -/
structure AccountHistory where
  store : Store
  last : List SnapshotRow

inductive AccountStep
  /-- A tick of the pool. -/
  | tick (t : AccountTick)
  /-- A snapshot of another pool. -/
  | other (row : SnapshotRow)
  | prune (now : ℚ) (days : ℤ)

namespace AccountHistory

/-- A store without snapshots. -/
def start (s : Store) : AccountHistory := ⟨{ s with tickSnapshots := [] }, []⟩

variable (pools : List PoolConfig) (pool : PoolConfig) (s : AccountHistory)

def next : AccountStep → AccountHistory
  | .tick t =>
      match t.snapshots pool with
      | none => s
      | some rows => ⟨(rows.filter fun row => t.stored row.pool).foldl Store.recordTick s.store, rows⟩
  | .other row => { s with store := s.store.recordTick row }
  | .prune now days => { s with store := s.store.prune now days }

def step (s : AccountHistory) (a : AccountStep) : Option AccountHistory := some (s.next pool a)

/-- The snapshots that are given to the pool. -/
def group : List SnapshotRow :=
  groupSnapshots (pools.map (·.name)) s.store.latestSnapshots pool.name

/-- **The totals reported** are the sums over the repositories of the last completed tick. -/
def Reports : Prop :=
  ∀ c ∈ counters, shownNumber (poolTotals pools s.store.latestSnapshots pool) c.1 =
    (s.last.map c.2).sum

/-- The database, the names of the pools and the age of the snapshots do not get in the way. -/
def Undisturbed : AccountStep → Prop
  | .tick t =>
      -- the snapshots of the tick are stored, and given to the pool
      ∀ rows ∈ t.snapshots pool, ∀ row ∈ rows, t.stored row.pool = true ∧
        parentOf (pools.map (·.name)) row.pool = some pool.name
  | .other row =>
      row.pool ≠ pool.name ∧ parentOf (pools.map (·.name)) row.pool ≠ some pool.name
  | .prune now days =>
      -- it keeps the last completed tick, and no row without the newest one of its name
      (∀ row ∈ s.last, row ∈ (s.store.prune now days).tickSnapshots) ∧
        ∀ row ∈ (s.store.prune now days).tickSnapshots,
          ∀ newest ∈ s.store.latestSnapshots.get row.pool,
            newest ∈ (s.store.prune now days).tickSnapshots

instance (a : AccountStep) : Decidable (s.Undisturbed pools pool a) :=
  match a with
  | .tick t => inferInstanceAs (Decidable (∀ rows ∈ t.snapshots pool, ∀ row ∈ rows,
      t.stored row.pool = true ∧ parentOf (pools.map (·.name)) row.pool = some pool.name))
  | .other row => inferInstanceAs (Decidable (row.pool ≠ pool.name ∧
      parentOf (pools.map (·.name)) row.pool ≠ some pool.name))
  | .prune now days => inferInstanceAs (Decidable
      ((∀ row ∈ s.last, row ∈ (s.store.prune now days).tickSnapshots) ∧
        ∀ row ∈ (s.store.prune now days).tickSnapshots,
          ∀ newest ∈ s.store.latestSnapshots.get row.pool,
            newest ∈ (s.store.prune now days).tickSnapshots))

end AccountHistory

/-- All counters of a snapshot are zero. -/
def SnapshotRow.Idle (row : SnapshotRow) : Prop := ∀ c ∈ counters, c.2 row = 0

instance (row : SnapshotRow) : Decidable row.Idle :=
  inferInstanceAs (Decidable (∀ c ∈ counters, c.2 row = 0))

/-- **A completed tick leaves no repository behind**: of the snapshots given to the pool, those of
repositories that it did not inspect count nothing. -/
def AccountHistory.NoneDropped (pools : List PoolConfig) (pool : PoolConfig) (s : AccountHistory) :
    AccountStep → Prop
  | .tick t => ∀ rows ∈ t.snapshots pool, ∀ row ∈ s.group pools pool,
      row.pool ∉ rows.map (·.pool) → row.Idle
  | .other _ => True
  | .prune _ _ => True

instance (pools : List PoolConfig) (pool : PoolConfig) (s : AccountHistory) (a : AccountStep) :
    Decidable (s.NoneDropped pools pool a) :=
  match a with
  | .tick t => inferInstanceAs (Decidable (∀ rows ∈ t.snapshots pool, ∀ row ∈ s.group pools pool,
      row.pool ∉ rows.map (·.pool) → row.Idle))
  | .other _ => inferInstanceAs (Decidable True)
  | .prune _ _ => inferInstanceAs (Decidable True)

variable {pools : List PoolConfig} {pool : PoolConfig} {s : AccountHistory}

/-! ### The snapshots of a tick -/

theorem tickSnapshots_foldl (rows : List SnapshotRow) (s : Store) :
    (rows.foldl Store.recordTick s).tickSnapshots = s.tickSnapshots ++ rows := by
  induction rows generalizing s with
  | nil => exact (List.append_nil _).symm
  | cons row rows ih => rw [List.foldl_cons, ih, Store.recordTick, List.append_assoc,
      List.singleton_append]

namespace AccountTick

variable {t : AccountTick} {rows : List SnapshotRow}

/-- No two snapshots of a tick have the same name. -/
theorem snapshots_distinct (h : t.snapshots pool = some rows) : (rows.map (·.pool)).Nodup := by
  obtain ⟨is, his, rfl⟩ := Option.map_eq_some_iff.1 h
  obtain ⟨repos, -, hcollect⟩ := Option.bind_eq_some_iff.1 his
  rw [List.map_map]
  exact collectInspections_names repos.distinct hcollect

/-- A snapshot counts containers, runners and jobs. -/
theorem snapshots_nonneg (h : t.snapshots pool = some rows) {row : SnapshotRow} (hrow : row ∈ rows)
    {c : String × (SnapshotRow → ℤ)} (hc : c ∈ counters) : 0 ≤ c.2 row := by
  obtain ⟨is, -, rfl⟩ := Option.map_eq_some_iff.1 h
  obtain ⟨i, -, rfl⟩ := List.mem_map.1 hrow
  unfold counters at hc
  simp only [List.mem_cons, List.not_mem_nil, or_false] at hc
  rcases hc with rfl | rfl | rfl | rfl | rfl
  · exact Int.natCast_nonneg _
  · exact Int.add_nonneg (Int.natCast_nonneg _) (Int.natCast_nonneg _)
  · exact Int.natCast_nonneg _
  · exact Int.natCast_nonneg _
  · exact Int.natCast_nonneg _

end AccountTick

/-! ### The newest rows after a step -/

namespace Store

variable {s : Store} {rows : List SnapshotRow}

theorem latestSnapshots_get_append {t : Store}
    (h : t.tickSnapshots = s.tickSnapshots ++ rows) (key : String) :
    t.latestSnapshots.get key =
      ((rows.filter (·.pool = key)).getLast?).or (s.latestSnapshots.get key) := by
  rw [latestSnapshots_get, latestSnapshots_get, h, List.filter_append, List.getLast?_append]

/-- The rows of a tick are the newest of their names. -/
theorem latestSnapshots_get_of_mem {t : Store} (h : t.tickSnapshots = s.tickSnapshots ++ rows)
    (hd : (rows.map (·.pool)).Nodup) {row : SnapshotRow} (hrow : row ∈ rows) :
    t.latestSnapshots.get row.pool = some row := by
  have hmem : row ∈ rows.filter (·.pool = row.pool) :=
    List.mem_filter.2 ⟨hrow, decide_eq_true rfl⟩
  obtain ⟨newest, hnewest⟩ : ∃ newest, (rows.filter (·.pool = row.pool)).getLast? = some newest :=
    ⟨_, List.getLast?_eq_some_getLast (List.ne_nil_of_mem hmem)⟩
  obtain ⟨hin, hpool⟩ := List.mem_filter.1 (List.mem_of_getLast? hnewest)
  rw [latestSnapshots_get_append h, hnewest,
    List.inj_on_of_nodup_map hd hin hrow (of_decide_eq_true hpool)]
  rfl

/-- Of other names the newest row is the one from before. -/
theorem latestSnapshots_get_of_not_mem {t : Store} (h : t.tickSnapshots = s.tickSnapshots ++ rows)
    {key : String} (hkey : key ∉ rows.map (·.pool)) :
    t.latestSnapshots.get key = s.latestSnapshots.get key := by
  have hnil : rows.filter (·.pool = key) = [] := by
    refine List.filter_eq_nil_iff.2 fun row hrow hpool => hkey ?_
    exact of_decide_eq_true hpool ▸ List.mem_map_of_mem hrow
  rw [latestSnapshots_get_append h, hnil]
  rfl

theorem tickSnapshots_prune (s : Store) (now : ℚ) (days : ℤ) :
    (s.prune now days).tickSnapshots = s.tickSnapshots.filter fun row =>
      days ≤ 0 || !(row.ts < now - days * 86400) := by
  unfold prune
  split_ifs with hdays
  · exact (List.filter_eq_self.2 fun row _ => by simp [hdays]).symm
  · exact List.filter_congr fun row _ => by simp [hdays]

end Store

/-! ### What the totals are made of -/

/-- What holds of a history that is not disturbed. -/
structure AccountHistory.Tracked (pools : List PoolConfig) (pool : PoolConfig)
    (s : AccountHistory) : Prop where
  /-- The pool has no row of its own, which would be shown instead. -/
  noOwn : ∀ row ∈ s.store.tickSnapshots, row.pool ≠ pool.name
  distinct : (s.last.map (·.pool)).Nodup
  newest : ∀ row ∈ s.last, s.store.latestSnapshots.get row.pool = some row
  given : ∀ row ∈ s.last, parentOf (pools.map (·.name)) row.pool = some pool.name
  nonneg : ∀ row ∈ s.store.tickSnapshots,
    parentOf (pools.map (·.name)) row.pool = some pool.name → ∀ c ∈ counters, 0 ≤ c.2 row

namespace AccountHistory

/-- The snapshots given to the pool that are not of the last completed tick. -/
def dropped (pools : List PoolConfig) (pool : PoolConfig) (s : AccountHistory) :
    List SnapshotRow :=
  (s.group pools pool).filter fun row => row.pool ∉ s.last.map (·.pool)

theorem mem_dropped {row : SnapshotRow} : row ∈ s.dropped pools pool ↔
    row ∈ s.group pools pool ∧ row.pool ∉ s.last.map (·.pool) := by
  unfold dropped
  rw [List.mem_filter, decide_eq_true_iff]

theorem group_distinct : ((s.group pools pool).map (·.pool)).Nodup := by
  have hrows := s.store.latestSnapshots.keyed
  have hperm : (s.group pools pool).Perm ((s.store.latestSnapshots.rows.filter fun entry =>
      parentOf (pools.map (·.name)) entry.1 = some pool.name).map Prod.snd) :=
    List.perm_insertionSort _ _
  have hpool : ∀ entry ∈ s.store.latestSnapshots.rows.filter fun entry =>
      parentOf (pools.map (·.name)) entry.1 = some pool.name, entry.2.pool = entry.1 :=
    fun entry hentry => (Store.mem_of_latestSnapshots
      (Table.get_eq_some_iff.2 (List.mem_filter.1 hentry).1)).2
  have hnames := List.map_congr_left hpool
  rw [(hperm.map _).nodup_iff, List.map_map]
  exact hnames ▸ hrows.sublist (List.filter_sublist.map _)

/-- **The pool is given** the snapshots of the last completed tick and the dropped ones. -/
theorem Tracked.perm (h : s.Tracked pools pool) :
    (s.group pools pool).Perm (s.last ++ s.dropped pools pool) := by
  have hlast : ((s.group pools pool).filter fun row => row.pool ∈ s.last.map (·.pool)).Perm
      s.last := by
    refine (List.perm_ext_iff_of_nodup ?_ ?_).2 fun row => ?_
    · exact (List.Nodup.of_map _ group_distinct).sublist List.filter_sublist
    · exact List.Nodup.of_map _ h.distinct
    · rw [List.mem_filter, decide_eq_true_iff]
      constructor
      · rintro ⟨hgroup, hname⟩
        obtain ⟨r, hr, hpool⟩ := List.mem_map.1 hname
        have hget := (mem_group_iff.1 hgroup).1
        rw [← hpool, h.newest r hr] at hget
        exact Option.some.inj hget ▸ hr
      · exact fun hrow => ⟨mem_group_iff.2 ⟨h.newest row hrow, h.given row hrow⟩,
          List.mem_map_of_mem hrow⟩
  have hsplit := (List.filter_append_perm (fun row : SnapshotRow =>
    decide (row.pool ∈ s.last.map (·.pool))) (s.group pools pool)).symm
  have hrest : (s.group pools pool).filter
      (fun row => !decide (row.pool ∈ s.last.map (·.pool))) = s.dropped pools pool :=
    List.filter_congr fun row _ => (decide_not).symm
  rw [hrest] at hsplit
  exact hsplit.trans (hlast.append_right _)

/-- **When the totals are right**: nothing that was dropped counts. -/
theorem reports_iff (h : s.Tracked pools pool) :
    s.Reports pools pool ↔ ∀ row ∈ s.dropped pools pool, row.Idle := by
  have hown : s.store.latestSnapshots.get pool.name = none := by
    refine Option.eq_none_iff_forall_ne_some.2 fun row hrow => ?_
    obtain ⟨hmem, hpool⟩ := Store.mem_of_latestSnapshots hrow
    exact h.noOwn row hmem hpool
  have htotal : ∀ c ∈ counters, shownNumber (poolTotals pools s.store.latestSnapshots pool) c.1 =
      (s.last.map c.2).sum + ((s.dropped pools pool).map c.2).sum := by
    intro c hc
    unfold poolTotals
    rw [shownNumber_rollup hc, hown]
    have hsum := (h.perm.map c.2).sum_eq
    rwa [List.map_append, List.sum_append] at hsum
  have hzero : ∀ c ∈ counters, ((s.dropped pools pool).map c.2).sum = 0 ↔
      ∀ row ∈ s.dropped pools pool, c.2 row = 0 := by
    intro c hc
    constructor
    · intro hsum row hrow
      refine List.all_zero_of_le_zero_le_of_sum_eq_zero (fun n hn => ?_) hsum
        (List.mem_map_of_mem hrow)
      obtain ⟨r, hr, rfl⟩ := List.mem_map.1 hn
      obtain ⟨hget, hparent⟩ := mem_group_iff.1 (mem_dropped.1 hr).1
      exact h.nonneg r (Store.mem_of_latestSnapshots hget).1 hparent c hc
    · intro hall
      rw [List.map_congr_left hall]
      simp
  constructor
  · intro hreports row hrow c hc
    have hsum := hreports c hc
    rw [htotal c hc, add_eq_left] at hsum
    exact (hzero c hc).1 hsum row hrow
  · intro hidle c hc
    rw [htotal c hc, (hzero c hc).2 fun row hrow => hidle row hrow c hc, add_zero]

/-! ### One step -/

theorem Tracked.start (st : Store) : (AccountHistory.start st).Tracked pools pool where
  noOwn _ h := by cases h
  distinct := List.nodup_nil
  newest _ h := by cases h
  given _ h := by cases h
  nonneg _ h := by cases h

/-- A name that is given to the pool is not its own. -/
theorem ne_of_given {key : String} (hpool : pool ∈ pools)
    (h : parentOf (pools.map (·.name)) key = some pool.name) : key ≠ pool.name := by
  rintro rfl
  exact (parentOf_eq_some_iff.1 h).2.2.1 (List.mem_map_of_mem hpool)

theorem next_tick_of_none {t : AccountTick} (h : t.snapshots pool = none) :
    s.next pool (.tick t) = s := by
  unfold AccountHistory.next
  dsimp only
  rw [h]

theorem next_tick_of_some {t : AccountTick} {rows : List SnapshotRow}
    (h : t.snapshots pool = some rows) (hquiet : s.Undisturbed pools pool (.tick t)) :
    s.next pool (.tick t) = ⟨rows.foldl Store.recordTick s.store, rows⟩ := by
  have hstored : rows.filter (fun row => t.stored row.pool) = rows :=
    List.filter_eq_self.2 fun row hrow => (hquiet rows h row hrow).1
  unfold AccountHistory.next
  dsimp only
  rw [h]
  dsimp only
  rw [hstored]

theorem Tracked.tick (hpool : pool ∈ pools) (h : s.Tracked pools pool) {t : AccountTick}
    (hquiet : s.Undisturbed pools pool (.tick t)) : (s.next pool (.tick t)).Tracked pools pool := by
  cases hrows : t.snapshots pool with
  | none => exact (next_tick_of_none hrows).symm ▸ h
  | some rows =>
    rw [next_tick_of_some hrows hquiet]
    have hgiven : ∀ row ∈ rows, parentOf (pools.map (·.name)) row.pool = some pool.name :=
      fun row hrow => (hquiet rows hrows row hrow).2
    have hall := tickSnapshots_foldl rows s.store
    have hd := AccountTick.snapshots_distinct hrows
    refine ⟨fun row hrow => ?_, hd, fun row hrow => ?_, hgiven, fun row hrow hparent c hc => ?_⟩
    · rcases List.mem_append.1 (hall ▸ hrow) with hold | hnew
      · exact h.noOwn row hold
      · exact ne_of_given hpool (hgiven row hnew)
    · exact Store.latestSnapshots_get_of_mem hall hd hrow
    · rcases List.mem_append.1 (hall ▸ hrow) with hold | hnew
      · exact h.nonneg row hold hparent c hc
      · exact AccountTick.snapshots_nonneg hrows hnew hc

theorem Tracked.other (h : s.Tracked pools pool) {row : SnapshotRow}
    (hquiet : s.Undisturbed pools pool (.other row)) :
    (s.next pool (.other row)).Tracked pools pool := by
  obtain ⟨hname, hparent⟩ := hquiet
  refine ⟨fun r hr => ?_, h.distinct, fun r hr => ?_, h.given, fun r hr hgiven c hc => ?_⟩
  · rcases List.mem_append.1 hr with hold | hnew
    · exact h.noOwn r hold
    · exact List.mem_singleton.1 hnew ▸ hname
  · have hkey : r.pool ∉ [row].map (·.pool) := fun hmem => by
      have heq : r.pool = row.pool := List.mem_singleton.1 hmem
      exact hparent (heq ▸ h.given r hr)
    exact (Store.latestSnapshots_get_of_not_mem rfl hkey).trans (h.newest r hr)
  · rcases List.mem_append.1 hr with hold | hnew
    · exact h.nonneg r hold hgiven c hc
    · exact absurd (List.mem_singleton.1 hnew ▸ hgiven) hparent

/-- What is newest after `prune` was newest before. -/
theorem newest_of_prune {now : ℚ} {days : ℤ}
    (hquiet : s.Undisturbed pools pool (.prune now days)) {key : String} {row : SnapshotRow}
    (h : (s.store.prune now days).latestSnapshots.get key = some row) :
    s.store.latestSnapshots.get key = some row := by
  obtain ⟨hkept, rfl⟩ := Store.mem_of_latestSnapshots h
  have hfilter := Store.tickSnapshots_prune s.store now days
  obtain ⟨newest, hnewest⟩ := Store.exists_latest (List.mem_filter.1 (hfilter ▸ hkept)).1
  have hin := hquiet.2 row hkept newest hnewest
  rw [hfilter] at hin
  obtain ⟨older, holder⟩ := List.getLast?_eq_some_iff.1
    ((Store.latestSnapshots_get _ _).symm.trans hnewest)
  -- the newest row is kept, so it is the last one of those that are
  have hlast : (s.store.prune now days).latestSnapshots.get row.pool = some newest := by
    have hone : ∀ r ∈ [newest], (decide (days ≤ 0) || !decide (r.ts < now - days * 86400)) = true :=
      fun r hr => List.mem_singleton.1 hr ▸ (List.mem_filter.1 hin).2
    rw [Store.latestSnapshots_get, hfilter, List.filter_comm, holder, List.filter_append,
      List.filter_eq_self.2 hone, List.getLast?_concat]
  rw [hnewest, ← hlast, h]

theorem Tracked.prune (h : s.Tracked pools pool) {now : ℚ} {days : ℤ}
    (hquiet : s.Undisturbed pools pool (.prune now days)) :
    (s.next pool (.prune now days)).Tracked pools pool := by
  have hkept : ∀ row ∈ (s.store.prune now days).tickSnapshots, row ∈ s.store.tickSnapshots := by
    intro row hrow
    rw [Store.tickSnapshots_prune] at hrow
    exact (List.mem_filter.1 hrow).1
  refine ⟨fun row hrow => h.noOwn row (hkept row hrow), h.distinct, fun row hrow => ?_, h.given,
    fun row hrow => h.nonneg row (hkept row hrow)⟩
  obtain ⟨newest, hnewest⟩ := Store.exists_latest (hquiet.1 row hrow)
  have hsame := newest_of_prune hquiet hnewest
  rw [h.newest row hrow] at hsame
  exact hsame ▸ hnewest

/-- **A history that is not disturbed stays tracked.** -/
theorem Tracked.next (hpool : pool ∈ pools) (h : s.Tracked pools pool) {a : AccountStep}
    (hquiet : s.Undisturbed pools pool a) : (s.next pool a).Tracked pools pool := by
  cases a with
  | tick t => exact h.tick hpool hquiet
  | other row => exact h.other hquiet
  | prune now days => exact h.prune hquiet

/-- A tick that is completed drops what it did not inspect. -/
theorem mem_dropped_tick {t : AccountTick} {rows : List SnapshotRow}
    (h : t.snapshots pool = some rows) (hquiet : s.Undisturbed pools pool (.tick t))
    {row : SnapshotRow} :
    row ∈ (s.next pool (.tick t)).dropped pools pool ↔
      row ∈ s.group pools pool ∧ row.pool ∉ rows.map (·.pool) := by
  rw [next_tick_of_some h hquiet, mem_dropped]
  refine and_congr_left fun hname => ?_
  unfold group
  rw [mem_group_iff, mem_group_iff,
    Store.latestSnapshots_get_of_not_mem (tickSnapshots_foldl rows s.store) hname]

/-- A snapshot of another pool is not dropped by this one. -/
theorem mem_dropped_other {row r : SnapshotRow} (hquiet : s.Undisturbed pools pool (.other row))
    (h : r ∈ (s.next pool (.other row)).dropped pools pool) : r ∈ s.dropped pools pool := by
  obtain ⟨hgroup, hname⟩ := mem_dropped.1 h
  obtain ⟨hget, hgiven⟩ := mem_group_iff.1 hgroup
  have hkey : r.pool ∉ [row].map (·.pool) := fun hmem => by
    have heq : r.pool = row.pool := List.mem_singleton.1 hmem
    exact hquiet.2 (heq ▸ hgiven)
  have hbefore := (Store.latestSnapshots_get_of_not_mem (s := s.store) rfl hkey).symm.trans hget
  exact mem_dropped.2 ⟨mem_group_iff.2 ⟨hbefore, hgiven⟩, hname⟩

theorem mem_dropped_prune {now : ℚ} {days : ℤ}
    (hquiet : s.Undisturbed pools pool (.prune now days)) {r : SnapshotRow}
    (h : r ∈ (s.next pool (.prune now days)).dropped pools pool) : r ∈ s.dropped pools pool := by
  obtain ⟨hgroup, hname⟩ := mem_dropped.1 h
  obtain ⟨hget, hgiven⟩ := mem_group_iff.1 hgroup
  exact mem_dropped.2 ⟨mem_group_iff.2 ⟨newest_of_prune hquiet hget, hgiven⟩, hname⟩

/-- **One step keeps the totals right** exactly when it leaves no repository behind. -/
theorem noneDropped_iff (hpool : pool ∈ pools) (h : s.Tracked pools pool)
    (hreports : s.Reports pools pool) {a : AccountStep} (hquiet : s.Undisturbed pools pool a) :
    s.NoneDropped pools pool a ↔ (s.next pool a).Reports pools pool := by
  have hidle := (reports_iff h).1 hreports
  rw [reports_iff (h.next hpool hquiet)]
  cases a with
  | tick t =>
    cases hrows : t.snapshots pool with
    | none =>
      rw [next_tick_of_none hrows]
      exact iff_of_true (fun rows hmem => by rw [hrows] at hmem; cases hmem) hidle
    | some rows =>
      constructor
      · intro hnone row hrow
        obtain ⟨hgroup, hname⟩ := (mem_dropped_tick hrows hquiet).1 hrow
        exact hnone rows hrows row hgroup hname
      · intro hall rows' hrows' row hgroup hname
        obtain rfl := Option.some.inj (hrows.symm.trans hrows')
        exact hall row ((mem_dropped_tick hrows hquiet).2 ⟨hgroup, hname⟩)
  | other row =>
    exact iff_of_true trivial fun r hr => hidle r (mem_dropped_other hquiet hr)
  | prune now days =>
    exact iff_of_true trivial fun r hr => hidle r (mem_dropped_prune hquiet hr)

/-! ### Whole histories -/

/-- **When the totals are right at all times**, in a history that nothing else disturbs: just when
no completed tick leaves a snapshot behind that still counts something. -/
theorem reports_along_iff (hpool : pool ∈ pools) {st : Store} {l : List AccountStep}
    (hquiet : Along (step pool) (fun s a => s.Undisturbed pools pool a) (start st) l) :
    Along (step pool) (fun s a => ∀ t, step pool s a = some t → t.Reports pools pool)
        (start st) l ↔
      Along (step pool) (fun s a => s.NoneDropped pools pool a) (start st) l := by
  have htracked : (start st).Tracked pools pool := Tracked.start st
  have hstart : (start st).Reports pools pool :=
    (reports_iff htracked).2 fun row hrow => by cases hrow
  refine (along_iff_of_pre (fun s a t h hq ht => ?_) (fun s a h hr hq => ?_) htracked hstart
    hquiet).symm
  · obtain rfl := Option.some.inj ht
    exact h.next hpool hq
  · rw [noneDropped_iff hpool h hr hq]
    exact ⟨fun hnext t ht => Option.some.inj ht ▸ hnext, fun hall => hall _ rfl⟩

/-! ### A repository is deleted -/

/-- A tick of the account with one queued job in each of these repositories. -/
def queuedTick (repos : RepositoryNames) : AccountStep :=
  .tick ⟨some repos, fun _ => queuedObs, fun _ => 0, fun _ => 1, fun _ => true⟩

def emptyHistory : AccountHistory := start World.empty.store

/-- The history of an account that gets a second repository, while another pool ticks. -/
def growingAccount : List AccountStep :=
  [queuedTick ⟨["api"], by decide⟩, .other homeWebTick.row, queuedTick ⟨["api", "docs"], by decide⟩,
    .prune 0 14]

theorem reports_growingAccount :
    Along (step homePool) (fun s a => ∀ t, step homePool s a = some t → t.Reports homePools homePool)
      emptyHistory growingAccount :=
  (@reports_along_iff homePools homePool (by decide) World.empty.store growingAccount
    (by decide +kernel)).2 (by decide +kernel)

/-- **A deleted repository is counted**: the totals show two queued jobs, and the last completed
tick has seen one. -/
theorem not_reports :
    let l := [queuedTick ⟨["api", "docs"], by decide⟩, queuedTick ⟨["docs"], by decide⟩]
    Along (step homePool) (fun s a => s.Undisturbed homePools homePool a) emptyHistory l ∧
      ∃ s, run (step homePool) emptyHistory l = some s ∧
        s.last.map (·.pool) = ["home-docs"] ∧ (s.last.map (·.queued)).sum = 1 ∧
        shownNumber (poolTotals homePools s.store.latestSnapshots homePool) "queued" = 2 ∧
        ¬ s.Reports homePools homePool := by
  refine ⟨by decide +kernel, _, rfl, by decide +kernel, by decide +kernel, by decide +kernel,
    fun h => ?_⟩
  have hqueued := h ("queued", (·.queued)) (by simp [counters])
  exact absurd hqueued (by decide +kernel)

end AccountHistory

end RunnerSwarm
