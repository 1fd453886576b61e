import RunnerSwarm.Lib.Run
import RunnerSwarm.Store.LostStatements

/-!
# What a failed method leaves behind

A method that raises does not roll its transaction back. What it has executed stays uncommitted on
the one connection of the store, its caller goes on, and the next method that commits makes it
durable.

`Forgotten` is what should be: whatever follows, nothing durable tells that the method was called.
`forgotten_iff` says when it is so, in every state that calls have led to of which none left
anything: the server has rolled the transaction back itself, or what was executed changes nothing
(`StoreOp.Idle`).
-/

namespace RunnerSwarm

variable {mariadb : Bool}

/-- A store that was opened on these tables. -/
def Connection.opened (t : Tables) (weather : ℕ → Weather) : Connection Tables := ⟨t, t, weather⟩

/-- Methods one after the other, all of which have to succeed. -/
def callAll (mariadb : Bool) : List StoreOp → DbSession Tables Unit
  | [] => pure ()
  | op :: ops => do
      op.call mariadb
      callAll mariadb ops

/-- One call; the callers go on also when it raises. -/
def callStep (mariadb : Bool) (c : Connection Tables) (op : StoreOp) : Option (Connection Tables) :=
  some (op.call mariadb c).2

/-- After any further methods that succeed, the committed tables are as if the method had not been
called. -/
def StoreOp.Forgotten (mariadb : Bool) (c : Connection Tables) (op : StoreOp) : Prop :=
  ∀ (weather : ℕ → Weather) (later : List StoreOp) (d d' : Connection Tables),
    callAll mariadb later { (op.call mariadb c).2 with weather := weather } = (.ok (), d) →
    callAll mariadb later { c with weather := weather } = (.ok (), d') →
    d.committed = d'.committed

/-- The method stops at its statement `j`, or at its commit when it has `j` statements. -/
def StoreOp.RaisesAt (mariadb : Bool) (c : Connection Tables) (op : StoreOp) (j : ℕ) : Prop :=
  j ≤ (op.statements c.committed).length ∧ Executes mariadb c.weather j ∧
    (stepFate mariadb c.weather (op.statements c.committed).length j).isExecuted = false

/-- Where the method stops, the transaction is lost, or nothing was changed since the last new
connection. -/
def StoreOp.Harmless (mariadb : Bool) (c : Connection Tables) (op : StoreOp) : Prop :=
  op.writes = true → ∀ j, op.RaisesAt mariadb c j →
    stepFate mariadb c.weather (op.statements c.committed).length j = .lost ∨
      op.Idle c.committed (restart mariadb c.weather j) j (op.statements c.committed).length

/-! ### One call -/

theorem statements_ne_nil {op : StoreOp} (t : Tables) : 1 ≤ (op.statements t).length := by
  cases op with
  | prune now days => exact Nat.le_add_left 1 2
  | replaceRunnerStatus now pool rows => exact Nat.le_add_left 1 _
  | syncJobs now pool jobs => exact Nat.le_add_left 1 _
  | _ => exact le_rfl

/-- A method that does not write leaves the connection as it is. -/
theorem call_of_not_writes {op : StoreOp} (hwrites : op.writes = false) {c : Connection Tables}
    (hclean : c.current = c.committed) :
    (op.call mariadb c).2.current = c.committed ∧
      (op.call mariadb c).2.committed = c.committed := by
  cases op with
  | read =>
    have hstep := execute_eq mariadb (⟨id, fun _ => ()⟩ : Statement Tables Unit) c
    have hcall : StoreOp.read.call mariadb c = execute mariadb ⟨id, fun _ => ()⟩ c := rfl
    cases hfate : (c.weather 0).fate mariadb with
    | done =>
      rw [hfate] at hstep
      rw [hcall, hstep]
      exact ⟨hclean, rfl⟩
    | redone =>
      rw [hfate] at hstep
      rw [hcall, hstep]
      exact ⟨rfl, rfl⟩
    | kept =>
      rw [hfate] at hstep
      obtain ⟨e, he⟩ := hstep
      rw [hcall, he]
      exact ⟨hclean, rfl⟩
    | lost =>
      rw [hfate] at hstep
      obtain ⟨e, he⟩ := hstep
      rw [hcall, he]
      exact ⟨rfl, rfl⟩
  | prune now days =>
    have hdays : days ≤ 0 := not_lt.1 (of_decide_eq_false hwrites)
    have hprune : StoreConnection.prune mariadb now days = pure 0 := if_pos hdays
    have hcall : ((StoreOp.prune now days).call mariadb c).2 = c := by
      unfold StoreOp.call
      dsimp only
      rw [hprune]
      rfl
    rw [hcall]
    exact ⟨hclean, rfl⟩
  | _ => cases hwrites

/-- What a method leaves that stops at its statement `j`. -/
theorem call_of_raisesAt {op : StoreOp} (hwrites : op.writes = true) {c : Connection Tables}
    (hclean : c.current = c.committed) {j : ℕ} (h : op.RaisesAt mariadb c j) :
    ∃ e d, op.call mariadb c = (.error e, d) ∧ d.committed = c.committed ∧
      (d.current = c.committed ↔
        stepFate mariadb c.weather (op.statements c.committed).length j = .lost ∨
          op.Idle c.committed (restart mariadb c.weather j) j
            (op.statements c.committed).length) := by
  obtain ⟨hj, hbefore, hstop⟩ := h
  obtain ⟨e, he⟩ := transaction_error hclean hj hbefore hstop
  have heffect := @StoreOp.call_effect mariadb op hwrites c hclean
  rw [effect_eq_some_iff.2 he] at heffect
  refine ⟨e, _, effect_eq_some_iff.1 heffect, rfl, ?_⟩
  dsimp only
  have hidle := idle_iff hwrites (t := c.committed) (restart_le mariadb c.weather j) hj
    (statements_ne_nil c.committed) le_rfl
  rw [List.drop_length, applied_nil, applied_nil] at hidle
  cases hfate : stepFate mariadb c.weather (op.statements c.committed).length j with
  | done =>
    rw [hfate] at hstop
    cases hstop
  | redone =>
    rw [hfate] at hstop
    cases hstop
  | kept => rw [if_pos rfl, hidle, or_iff_right nofun]
  | lost => exact iff_of_true rfl (.inl rfl)

/-- **The end of a call**: it returns and all is committed, or it stops at a statement. -/
theorem call_ends {op : StoreOp} (hwrites : op.writes = true) {c : Connection Tables}
    (hclean : c.current = c.committed) :
    (∃ d, op.call mariadb c = (.ok (), d) ∧ d.current = d.committed) ∨
      ∃ j, op.RaisesAt mariadb c j := by
  rcases transaction_cases mariadb c.weather (op.statements c.committed).length with
    ⟨hall, hcommit⟩ | ⟨j, hj, hbefore, hstop⟩
  · have heffect := @StoreOp.call_effect mariadb op hwrites c hclean
    have hok := transaction_ok hclean hall hcommit
    rw [effect_eq_none_iff.2 ⟨(), hok⟩] at heffect
    obtain ⟨_, hcall⟩ := effect_eq_none_iff.1 heffect
    exact .inl ⟨_, hcall, rfl⟩
  · exact .inr ⟨j, hj, hbefore, hstop⟩

/-- A method stops at one place only. -/
theorem raisesAt_unique {op : StoreOp} {c : Connection Tables} {i j : ℕ}
    (hi : op.RaisesAt mariadb c i) (hj : op.RaisesAt mariadb c j) : i = j := by
  have hle : ∀ {i j : ℕ}, op.RaisesAt mariadb c i → op.RaisesAt mariadb c j → ¬ i < j := by
    intro i j hi hj hlt
    have hfate := hi.2.2
    rw [stepFate_of_lt (hlt.trans_le hj.1), hj.2.1 i hlt] at hfate
    cases hfate
  exact le_antisymm (not_lt.1 (hle hj hi)) (not_lt.1 (hle hi hj))

/-- **A harmless call** leaves nothing uncommitted. -/
theorem clean_call {op : StoreOp} {c : Connection Tables} (hclean : c.current = c.committed)
    (h : op.Harmless mariadb c) :
    (op.call mariadb c).2.current = (op.call mariadb c).2.committed := by
  cases hwrites : op.writes with
  | false =>
    obtain ⟨hcurrent, hcommitted⟩ := @call_of_not_writes mariadb op hwrites c hclean
    rw [hcurrent, hcommitted]
  | true =>
    rcases @call_ends mariadb op hwrites c hclean with ⟨d, hcall, hd⟩ | ⟨j, hraises⟩
    · rw [hcall]
      exact hd
    · obtain ⟨e, d, hcall, hcommitted, hcurrent⟩ := call_of_raisesAt hwrites hclean hraises
      rw [hcall]
      exact (hcurrent.2 (h hwrites j hraises)).trans hcommitted.symm

/-! ### Whatever follows -/

theorem insertEvent_injective (event : EventRow) :
    Function.Injective (Tables.insertEvent event) := by
  intro t t' h
  have hevents : t.runnerEvents = t'.runnerEvents :=
    List.append_cancel_right (congrArg Tables.runnerEvents h)
  cases t
  cases t'
  unfold Tables.insertEvent at h
  dsimp only at hevents h
  subst hevents
  simpa using h

/-- Leftovers show when the next method commits. -/
theorem forgotten_iff_current {op : StoreOp} {c : Connection Tables}
    (hcommitted : (op.call mariadb c).2.committed = c.committed) :
    op.Forgotten mariadb c ↔ (op.call mariadb c).2.current = c.current := by
  constructor
  · intro h
    have hsame := h (fun _ => {}) [.recordEvent ⟨0, "", "", "", ""⟩] _ _ (Prod.ext rfl rfl)
      (Prod.ext rfl rfl)
    exact insertEvent_injective _ hsame
  · intro hcurrent weather later d d' hd hd'
    have hconnection : { (op.call mariadb c).2 with weather := weather } =
        ({ c with weather := weather } : Connection Tables) := by
      dsimp only
      rw [hcommitted, hcurrent]
    rw [hconnection, hd'] at hd
    exact congrArg (fun answer => answer.2.committed) hd.symm

/-- **When a failed method is forgotten**, after any calls that left nothing: where it stops, the
transaction is lost or had changed nothing. -/
theorem forgotten_iff {t : Tables} {weather : ℕ → Weather} {before : List StoreOp}
    {c : Connection Tables}
    (hbefore : Along (callStep mariadb) (StoreOp.Harmless mariadb) (.opened t weather) before)
    (hrun : run (callStep mariadb) (.opened t weather) before = some c) {op : StoreOp} {e : DbError}
    (hraise : (op.call mariadb c).1 = .error e) :
    op.Forgotten mariadb c ↔ op.Harmless mariadb c := by
  have hclean : c.current = c.committed :=
    run_invariant (I := fun c => c.current = c.committed)
      (fun c op d hclean hharmless hstep => Option.some.inj hstep ▸ clean_call hclean hharmless)
      rfl hbefore hrun
  cases hwrites : op.writes with
  | false =>
    obtain ⟨hcurrent, hcommitted⟩ := @call_of_not_writes mariadb op hwrites c hclean
    refine iff_of_true ((forgotten_iff_current hcommitted).2 (hcurrent.trans hclean.symm)) ?_
    exact fun hwrites' => absurd (hwrites.symm.trans hwrites') Bool.false_ne_true
  | true =>
    rcases @call_ends mariadb op hwrites c hclean with ⟨d, hcall, -⟩ | ⟨j, hraises⟩
    · rw [hcall] at hraise
      cases hraise
    · obtain ⟨e, d, hcall, hcommitted, hcurrent⟩ := call_of_raisesAt hwrites hclean hraises
      rw [forgotten_iff_current (by rw [hcall]; exact hcommitted), hcall, hclean, hcurrent]
      constructor
      · exact fun h _ i hi => raisesAt_unique hraises hi ▸ h
      · exact fun h => h hwrites j hraises

/-- A runner is stored, and the statement `n` is refused. -/
def refusedAt (n : ℕ) : Connection Tables :=
  .opened
    { Tables.empty with
      runnerStatus := (∅ : KeyedRows _ _).insert "ci-1" ⟨⟨"ci", "online", true⟩, 0⟩ }
    fun i => if i = n then { first := .raised false } else {}

/-- The list that is reported. -/
def reportedRunner : StoreOp := .replaceRunnerStatus 60 "ci" [⟨"ci-1", "online", false⟩]

/-- **Leftovers**: the row of the only runner is deleted, its new row is refused, and the next event
that is recorded makes that durable. -/
theorem not_forgotten :
    (reportedRunner.call true (refusedAt 1)).1.isOk = false ∧
      ¬ reportedRunner.Forgotten true (refusedAt 1) := by
  refine ⟨rfl, fun h => ?_⟩
  have hsame := h (fun _ => {}) [.recordEvent ⟨61, "ci", "ci-1", "remove", ""⟩] _ _
    (Prod.ext rfl rfl) (Prod.ext rfl rfl)
  have hrow := congrArg (fun t : Tables => t.runnerStatus["ci-1"]?.isSome) hsame
  revert hrow
  decide +kernel

/-- An event is recorded, and the first statement of the next method is refused. -/
theorem forgotten_first :
    ∃ c, run (callStep true) (refusedAt 2) [.recordEvent ⟨0, "ci", "ci-1", "spawn", ""⟩] = some c ∧
      reportedRunner.Forgotten true c := by
  have hbefore : Along (callStep true) (StoreOp.Harmless true) (refusedAt 2)
      [.recordEvent ⟨0, "ci", "ci-1", "spawn", ""⟩] := by
    refine ⟨fun _ j h => ?_, fun _ _ => trivial⟩
    obtain ⟨hj, -, hstop⟩ := h
    have hle : j ≤ 1 := hj
    interval_cases j <;> cases hstop
  refine ⟨_, rfl, (forgotten_iff hbefore rfl (e := .other) rfl).2 fun _ j h => ?_⟩
  obtain ⟨-, hearlier, -⟩ := h
  cases j with
  | zero => exact .inr fun _ _ h => absurd h.2 (lt_irrefl 0)
  | succ j => cases hearlier 0 j.succ_pos

end RunnerSwarm
