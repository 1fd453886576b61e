import RunnerSwarm.Store.LostStatements

/-!
# Statements after a reconnection

MariaDB closes idle connections, and a statement that meets a closed one is executed on a new one.
What the transaction had done before is not: the server has rolled it back. So a method of several
statements can return normally and commit the last of them only.

`Carried` is what its caller may expect, and `carried_iff` says when it holds: the last reconnection
came with the first statement, or what the earlier ones did makes no difference (`StoreOp.Idle`).
-/

namespace RunnerSwarm

/-- The rows stored for a pool are these. -/
def HoldsExactly (t : Tables) (pool : String) (rows : List ReportedRunner) : Prop :=
  ∀ container status busy,
    (∃ now, t.runnerStatus[container]? = some ⟨⟨pool, status, busy⟩, now⟩) ↔
      ⟨container, status, busy⟩ ∈ rows

/-- After the method the tables are what all of its statements make of them, and the runner list of
the pool is the one that was passed. -/
def Carried (op : StoreOp) (before after : Tables) : Prop :=
  after = applied (op.statements before) before ∧
    ∀ now pool rows, op = .replaceRunnerStatus now pool rows → HoldsExactly after pool rows

/-- No container is reported in two ways. -/
def StoreOp.Consistent : StoreOp → Prop
  | .replaceRunnerStatus _ _ rows => ∀ r ∈ rows, ∀ r' ∈ rows, r.container = r'.container → r = r'
  | _ => True

/-- What a successful method commits. -/
theorem committed_of_call {op : StoreOp} {c d : Connection Tables} (hwrites : op.writes = true)
    (hclean : c.current = c.committed) (h : op.call true c = (.ok (), d)) :
    d.committed = applied
      ((op.statements c.committed).drop
        (restart true c.weather (op.statements c.committed).length)) c.committed := by
  have heffect := @StoreOp.call_effect true op hwrites c hclean
  rw [effect_eq_none_iff.2 ⟨(), h⟩] at heffect
  obtain ⟨_, htransaction⟩ := effect_eq_none_iff.1 heffect.symm
  exact (committed_of_transaction hclean htransaction).1

/-! ### The runner list -/

theorem lastReport_eq_some {rows : List ReportedRunner} {container : String} {r : ReportedRunner}
    (h : lastReport rows container = some r) : r ∈ rows ∧ r.container = container := by
  obtain ⟨hmem, hname⟩ := List.mem_filter.1 (List.mem_of_getLast? h)
  exact ⟨hmem, of_decide_eq_true hname⟩

theorem exists_lastReport {rows : List ReportedRunner} {r : ReportedRunner} (h : r ∈ rows) :
    ∃ r', lastReport rows r.container = some r' :=
  Option.isSome_iff_exists.1 (List.getLast?_isSome.2
    (List.ne_nil_of_mem (List.mem_filter.2 ⟨h, decide_eq_true rfl⟩)))

/-- The row of a container after all statements. -/
theorem getElem?_replaced (now : ℚ) (pool : String) (rows : List ReportedRunner) (t : Tables)
    (container : String) :
    (applied (StoreConnection.statusStatements now pool rows) t).runnerStatus[container]? =
      (lastReport rows container).elim
        (t.runnerStatus[container]?.filter fun row => row.row.pool ≠ pool)
        fun r => some (r.stamped now pool) := by
  unfold StoreConnection.statusStatements
  rw [applied_cons, applied_upsertStatus]
  dsimp only
  rw [getElem?_foldl_insert]
  unfold Tables.deleteStatuses
  dsimp only
  rw [Std.ExtTreeMap.getElem?_filter']

/-- **All statements together** store the list that was passed, when it is consistent. -/
theorem holdsExactly_iff {now : ℚ} {pool : String} {rows : List ReportedRunner} {t : Tables} :
    HoldsExactly (applied (StoreConnection.statusStatements now pool rows) t) pool rows ↔
      (StoreOp.replaceRunnerStatus now pool rows).Consistent := by
  constructor
  · intro h r hr r' hr' hsame
    obtain ⟨_, hrow⟩ := (h r.container r.status r.busy).2 hr
    obtain ⟨_, hrow'⟩ := (h r'.container r'.status r'.busy).2 hr'
    rw [hsame, hrow'] at hrow
    have hstamped := congrArg Stamped.row (Option.some.inj hrow)
    obtain ⟨-, hstatus, hbusy⟩ := RunnerStatus.mk.inj hstamped
    cases r
    cases r'
    dsimp only at hsame hstatus hbusy
    rw [hsame, hstatus, hbusy]
  · intro hconsistent container status busy
    rw [getElem?_replaced]
    constructor
    · rintro ⟨time, hrow⟩
      cases hlast : lastReport rows container with
      | none =>
        rw [hlast] at hrow
        have hpool := (Option.filter_eq_some_iff.1 hrow).2
        simp at hpool
      | some r =>
        rw [hlast] at hrow
        obtain ⟨hmem, rfl⟩ := lastReport_eq_some hlast
        have hstamped := congrArg Stamped.row (Option.some.inj hrow)
        obtain ⟨-, rfl, rfl⟩ := RunnerStatus.mk.inj hstamped
        exact hmem
    · intro hmem
      obtain ⟨r, hlast⟩ := exists_lastReport hmem
      obtain ⟨hr, hname⟩ := lastReport_eq_some hlast
      obtain rfl := hconsistent r hr _ hmem hname
      dsimp only at hlast
      exact ⟨now, by rw [hlast]; rfl⟩

/-- **When a method that returned has done what it says.** The last reconnection came with its first
statement, or what it had done before makes no difference; and a runner list is consistent. -/
theorem carried_iff {op : StoreOp} {c d : Connection Tables} (hwrites : op.writes = true)
    (hclean : c.current = c.committed) (h : op.call true c = (.ok (), d)) :
    Carried op c.committed d.committed ↔
      (restart true c.weather (op.statements c.committed).length = 0 ∨
        op.Idle c.committed 0 (restart true c.weather (op.statements c.committed).length)
          (restart true c.weather (op.statements c.committed).length)) ∧
        op.Consistent := by
  have hcommitted := committed_of_call hwrites hclean h
  have hle := restart_le true c.weather (op.statements c.committed).length
  generalize restart true c.weather (op.statements c.committed).length = r at hcommitted hle ⊢
  have hall : d.committed = applied (op.statements c.committed) c.committed ↔
      r = 0 ∨ op.Idle c.committed 0 r r := by
    rcases r.eq_zero_or_pos with rfl | hpos
    · exact iff_of_true hcommitted (.inl rfl)
    · rw [or_iff_right hpos.ne', ← idle_iff hwrites r.zero_le le_rfl hpos hle, ← hcommitted,
        List.drop_zero, ← applied_append, List.take_append_drop, eq_comm]
  unfold Carried
  rw [hall]
  refine and_congr_right fun hidle => ?_
  have hafter := hall.2 hidle
  cases op with
  | replaceRunnerStatus now pool rows =>
    rw [hafter]
    constructor
    · exact fun hholds => holdsExactly_iff.1 (hholds now pool rows rfl)
    · intro hconsistent now' pool' rows' heq
      obtain ⟨rfl, rfl, rfl⟩ := StoreOp.replaceRunnerStatus.inj heq
      exact holdsExactly_iff.2 hconsistent
  | _ => exact iff_of_true (fun _ _ _ heq => nomatch heq) trivial

/-- The runner list of a pool had a third runner. -/
def thirdRunner : Tables :=
  { Tables.empty with
    runnerStatus := (∅ : KeyedRows _ _).insert "ci-3" ⟨⟨"ci", "online", true⟩, 0⟩ }

/-- A connection that is dropped before one of its statements. -/
def droppedAt (n : ℕ) : Connection Tables where
  committed := thirdRunner
  current := thirdRunner
  weather i := if i = n then { first := .dropped } else {}

/-- Two runners are reported. -/
def twoRunners : List ReportedRunner := [⟨"ci-1", "online", true⟩, ⟨"ci-2", "online", false⟩]

/-- A connection that was closed while idle: the list is the one that was passed. -/
theorem carried_idle :
    Carried (.replaceRunnerStatus 60 "ci" twoRunners) thirdRunner
      ((StoreOp.replaceRunnerStatus 60 "ci" twoRunners).call true (droppedAt 0)).2.committed :=
  (carried_iff (c := droppedAt 0) rfl rfl (Prod.ext rfl rfl)).2
    ⟨.inl rfl, by unfold StoreOp.Consistent; decide⟩

/-- A connection that is dropped at the last row: the method returns, the first row is missing, and
the runner that is gone is still there. -/
theorem not_carried :
    ((StoreOp.replaceRunnerStatus 60 "ci" twoRunners).call true (droppedAt 2)).1.isOk = true ∧
      ¬ Carried (.replaceRunnerStatus 60 "ci" twoRunners) thirdRunner
        ((StoreOp.replaceRunnerStatus 60 "ci" twoRunners).call true (droppedAt 2)).2.committed := by
  refine ⟨by decide +kernel, fun h => ?_⟩
  have hgone := (h.2 60 "ci" twoRunners rfl "ci-3" "online" true).1 ⟨0, by decide +kernel⟩
  revert hgone
  decide

end RunnerSwarm
