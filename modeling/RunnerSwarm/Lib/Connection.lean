import Mathlib.Tactic

/-!
# A connection to a database

A connection sees the committed data and its own uncommitted changes. A statement changes what it
sees, a commit makes it durable; when the connection is lost, or the server rolls the transaction
back, the uncommitted changes are gone. What the driver meets is not up to the program: the
`Weather` of a connection says it for every statement to come.

* `DbSession` are programs on a connection that may raise; `execute` is a statement that is tried
  again on a new connection, once, when the first was dropped;
* `Outcome` is what becomes of a statement, and `execute_eq` says what each does to the connection;
* `Issues p ws` says that `p` does to the connection what the statements `ws` do, one after the
  other, whatever they return;
* `sent_ok` and `sent_error` are the results: of the statements since the last reconnection all are
  there, and none of those before it.
-/

namespace RunnerSwarm

/-- What one call of the driver meets: nothing, the end of the connection, or another error, with
which the server may roll the transaction back. -/
inductive Fault
  | fine
  | dropped
  | raised (rollsBack : Bool)
  deriving DecidableEq

/-- What the calls for one statement meet: the statement, a new connection, the statement again. -/
structure Weather where
  first : Fault := .fine
  connect : Fault := .fine
  again : Fault := .fine
  deriving DecidableEq

inductive DbError
  | disconnect
  | other
  deriving DecidableEq

/-- A statement: what it does to the data, and what it returns. -/
structure Statement (σ ρ : Type) where
  change : σ → σ
  result : σ → ρ

/-- The committed data, what the connection sees, and what its statements will meet. -/
structure Connection (σ : Type) where
  committed : σ
  current : σ
  weather : ℕ → Weather

/-- A program on a connection; the connection is there also when the program has raised. -/
def DbSession (σ α : Type) := Connection σ → Except DbError α × Connection σ

variable {σ ρ α β : Type}

instance : Monad (DbSession σ) where
  pure a := fun c => (.ok a, c)
  bind p k := fun c =>
    match p c with
    | (.ok a, d) => k a d
    | (.error e, d) => (.error e, d)

/-- **A sequence of two programs.** -/
theorem DbSession.bind_apply (p : DbSession σ α) (k : α → DbSession σ β) (c : Connection σ) :
    (p >>= k) c = match p c with
      | (.ok a, d) => k a d
      | (.error e, d) => (.error e, d) := rfl

namespace Connection

/-- The uncommitted changes are gone. -/
def rollback (c : Connection σ) : Connection σ := { c with current := c.committed }

/-- One statement has been dealt with. -/
def pass (c : Connection σ) : Connection σ := { c with weather := fun i => c.weather (i + 1) }

/-- One call of the driver. -/
def attempt (stmt : Statement σ ρ) (c : Connection σ) : Fault → Except DbError ρ × Connection σ
  | .fine => (.ok (stmt.result c.current), { c with current := stmt.change c.current })
  | .dropped => (.error .disconnect, c.rollback)
  | .raised true => (.error .other, c.rollback)
  | .raised false => (.error .other, c)

end Connection

/-- A statement; `reconnects` when it is tried again after a disconnection. -/
def execute (reconnects : Bool) (stmt : Statement σ ρ) : DbSession σ ρ := fun c =>
  let w := c.weather 0
  match c.pass.attempt stmt w.first with
  | (.error .disconnect, d) =>
      if reconnects then
        match w.connect with
        | .fine => d.attempt stmt w.again
        | _ => (.error .other, d)
      else (.error .disconnect, d)
  | answer => answer

/-- Make the changes durable. -/
def commit : DbSession σ Unit := fun c =>
  match c.pass.attempt ⟨id, fun _ => ()⟩ (c.weather 0).first with
  | (.ok (), d) => (.ok (), { d with committed := d.current })
  | answer => answer

/-! ### One statement -/

/-- What becomes of a statement: done, done on a new connection, or refused with the transaction
kept or lost. -/
inductive StatementFate
  | done
  | redone
  | kept
  | lost
  deriving DecidableEq

/-- The fate of a statement in this weather. -/
def Weather.fate (reconnects : Bool) (w : Weather) : StatementFate :=
  match w.first with
  | .fine => .done
  | .raised false => .kept
  | .raised true => .lost
  | .dropped =>
      if reconnects && w.connect = .fine && w.again = .fine then .redone else .lost

/-- The statement has been executed. -/
def StatementFate.isExecuted : StatementFate → Bool
  | .done => true
  | .redone => true
  | _ => false

/-- **What a statement does**, by its fate. -/
theorem execute_eq (reconnects : Bool) (stmt : Statement σ ρ) (c : Connection σ) :
    match (c.weather 0).fate reconnects with
    | .done => execute reconnects stmt c =
        (.ok (stmt.result c.current), { c.pass with current := stmt.change c.current })
    | .redone => execute reconnects stmt c =
        (.ok (stmt.result c.committed), { c.pass with current := stmt.change c.committed })
    | .kept => ∃ e, execute reconnects stmt c = (.error e, c.pass)
    | .lost => ∃ e, execute reconnects stmt c = (.error e, c.pass.rollback) := by
  unfold Weather.fate execute Connection.attempt
  dsimp only
  cases (c.weather 0).first with
  | fine => rfl
  | raised rollsBack =>
    cases rollsBack with
    | false => exact ⟨.other, rfl⟩
    | true => exact ⟨.other, rfl⟩
  | dropped =>
    cases reconnects with
    | false => exact ⟨.disconnect, rfl⟩
    | true =>
      cases (c.weather 0).connect with
      | dropped => exact ⟨.other, rfl⟩
      | raised rollsBack => exact ⟨.other, rfl⟩
      | fine =>
        cases (c.weather 0).again with
        | fine => rfl
        | dropped => exact ⟨.disconnect, rfl⟩
        | raised rollsBack => cases rollsBack <;> exact ⟨.other, rfl⟩

/-! ### Statements one after the other -/

/-- What statements make of the data. -/
def applied (ws : List (σ → σ)) (s : σ) : σ := ws.foldl (fun s w => w s) s

@[simp] theorem applied_nil (s : σ) : applied [] s = s := rfl

@[simp] theorem applied_cons (w : σ → σ) (ws : List (σ → σ)) (s : σ) :
    applied (w :: ws) s = applied ws (w s) := rfl

theorem applied_append (ws vs : List (σ → σ)) (s : σ) :
    applied (ws ++ vs) s = applied vs (applied ws s) := List.foldl_append

/-- Execute statements that return nothing. -/
def sent (reconnects : Bool) : List (σ → σ) → DbSession σ Unit
  | [] => pure ()
  | w :: ws => do
      execute reconnects ⟨w, fun _ => ()⟩
      sent reconnects ws

/-- The last of the first `n` statements for which the connection was a new one, or the first. -/
def restart (reconnects : Bool) (weather : ℕ → Weather) : ℕ → ℕ
  | 0 => 0
  | n + 1 =>
      if (weather n).fate reconnects = .redone then n else restart reconnects weather n

theorem restart_succ (reconnects : Bool) (weather : ℕ → Weather) (n : ℕ) :
    restart reconnects weather (n + 1) =
      if (weather n).fate reconnects = .redone then n else restart reconnects weather n := rfl

theorem restart_le (reconnects : Bool) (weather : ℕ → Weather) (n : ℕ) :
    restart reconnects weather n ≤ n := by
  induction n with
  | zero => exact le_rfl
  | succ n ih =>
    rw [restart_succ]
    split_ifs
    · exact n.le_succ
    · exact ih.trans n.le_succ

/-- The first `n` statements are executed. -/
def Executes (reconnects : Bool) (weather : ℕ → Weather) (n : ℕ) : Prop :=
  ∀ i < n, ((weather i).fate reconnects).isExecuted = true

/-- Statements stop at the first that is not executed. -/
theorem executes_or_exists (reconnects : Bool) (weather : ℕ → Weather) (n : ℕ) :
    Executes reconnects weather n ∨
      ∃ j < n, Executes reconnects weather j ∧
        ((weather j).fate reconnects).isExecuted = false := by
  induction n with
  | zero => exact .inl fun i hi => absurd hi i.not_lt_zero
  | succ n ih =>
    rcases ih with hall | ⟨j, hj, hbefore, hstop⟩
    · cases hn : ((weather n).fate reconnects).isExecuted with
      | false => exact .inr ⟨n, n.lt_succ_self, hall, hn⟩
      | true =>
        refine .inl fun i hi => ?_
        rcases Nat.lt_succ_iff_lt_or_eq.1 hi with hi | rfl
        · exact hall i hi
        · exact hn
    · exact .inr ⟨j, hj.trans n.lt_succ_self, hbefore, hstop⟩

section Sent

variable {reconnects : Bool}

theorem sent_cons (w : σ → σ) (ws : List (σ → σ)) (c : Connection σ) :
    sent reconnects (w :: ws) c = match execute reconnects ⟨w, fun _ => ()⟩ c with
      | (.ok _, d) => sent reconnects ws d
      | (.error e, d) => (.error e, d) := by
  rw [sent, DbSession.bind_apply]
  rcases execute reconnects ⟨w, fun _ => ()⟩ c with ⟨_ | _, d⟩
  · rfl
  · rfl

theorem sent_append (ws vs : List (σ → σ)) (c : Connection σ) :
    sent reconnects (ws ++ vs) c = match sent reconnects ws c with
      | (.ok _, d) => sent reconnects vs d
      | (.error e, d) => (.error e, d) := by
  induction ws generalizing c with
  | nil => rfl
  | cons w ws ih =>
    rw [List.cons_append, sent_cons, sent_cons]
    rcases execute reconnects ⟨w, fun _ => ()⟩ c with ⟨_ | _, d⟩
    · rfl
    · exact ih d

/-- **Executed statements**: those from the last new connection on are seen, the others are not. -/
theorem sent_ok (ws : List (σ → σ)) {c : Connection σ} (hclean : c.current = c.committed)
    (h : Executes reconnects c.weather ws.length) :
    sent reconnects ws c = (.ok (),
      { committed := c.committed
        current := applied (ws.drop (restart reconnects c.weather ws.length)) c.committed
        weather := fun i => c.weather (i + ws.length) }) := by
  induction ws using List.reverseRecOn with
  | nil =>
    obtain ⟨committed, current, weather⟩ := c
    dsimp only at hclean
    subst hclean
    rfl
  | append_singleton ws w ih =>
    rw [List.length_append, List.length_singleton] at h ⊢
    rw [sent_append, ih fun i hi => h i (hi.trans (Nat.lt_succ_self _))]
    dsimp only
    have hlast := h ws.length (Nat.lt_succ_self _)
    have hstep := execute_eq reconnects ⟨w, fun _ => ()⟩
      ({ committed := c.committed
         current := applied (ws.drop (restart reconnects c.weather ws.length)) c.committed
         weather := fun i => c.weather (i + ws.length) } : Connection σ)
    have hle := restart_le reconnects c.weather ws.length
    rw [sent_cons, restart_succ]
    dsimp only at hstep
    rw [Nat.zero_add] at hstep
    cases hfate : (c.weather ws.length).fate reconnects with
    | kept =>
      rw [hfate] at hlast
      cases hlast
    | lost =>
      rw [hfate] at hlast
      cases hlast
    | done =>
      rw [hfate] at hstep
      dsimp only at hstep
      rw [hstep, if_neg nofun, List.drop_append_of_le_length hle, applied_append]
      exact congrArg (fun f => (Except.ok (), Connection.mk c.committed _ f))
        (funext fun i => congrArg c.weather (by omega))
    | redone =>
      rw [hfate] at hstep
      dsimp only at hstep
      rw [hstep, if_pos rfl, List.drop_left]
      exact congrArg (fun f => (Except.ok (), Connection.mk c.committed _ f))
        (funext fun i => congrArg c.weather (by omega))

/-- **A refused statement**: what was executed since the last new connection stays uncommitted,
unless the transaction is lost. -/
theorem sent_error (ws : List (σ → σ)) {c : Connection σ} (hclean : c.current = c.committed)
    {j : ℕ} (hj : j < ws.length) (hbefore : Executes reconnects c.weather j)
    (hstop : ((c.weather j).fate reconnects).isExecuted = false) :
    ∃ e, sent reconnects ws c = (.error e,
      { committed := c.committed
        current :=
          if (c.weather j).fate reconnects = .kept then
            applied ((ws.take j).drop (restart reconnects c.weather j)) c.committed
          else c.committed
        weather := fun i => c.weather (i + (j + 1)) }) := by
  have hlength : (ws.take j).length = j := List.length_take_of_le hj.le
  have hdone := @sent_ok _ reconnects (ws.take j) c hclean (by rwa [hlength])
  rw [hlength] at hdone
  have hsplit : ws = ws.take j ++ ws[j] :: ws.drop (j + 1) := by
    rw [List.getElem_cons_drop, List.take_append_drop]
  have hstep := execute_eq reconnects ⟨ws[j], fun _ => ()⟩
    ({ committed := c.committed
       current := applied ((ws.take j).drop (restart reconnects c.weather j)) c.committed
       weather := fun i => c.weather (i + j) } : Connection σ)
  have hrun : sent reconnects ws c = sent reconnects (ws[j] :: ws.drop (j + 1))
      { committed := c.committed
        current := applied ((ws.take j).drop (restart reconnects c.weather j)) c.committed
        weather := fun i => c.weather (i + j) } := by
    conv_lhs => rw [hsplit]
    rw [sent_append, hdone]
  rw [hrun, sent_cons]
  dsimp only at hstep
  rw [Nat.zero_add] at hstep
  have hshift : (fun i => c.weather (i + 1 + j)) = fun i => c.weather (i + (j + 1)) :=
    funext fun i => congrArg c.weather (by omega)
  cases hfate : (c.weather j).fate reconnects with
  | done =>
    rw [hfate] at hstop
    cases hstop
  | redone =>
    rw [hfate] at hstop
    cases hstop
  | kept =>
    rw [hfate] at hstep
    obtain ⟨e, he⟩ := hstep
    refine ⟨e, ?_⟩
    rw [he, if_pos rfl, ← hshift]
    rfl
  | lost =>
    rw [hfate] at hstep
    obtain ⟨e, he⟩ := hstep
    refine ⟨e, ?_⟩
    rw [he, if_neg nofun, ← hshift]
    rfl

end Sent

/-! ### What a program issues -/

/-- What a program leaves behind, but for what it returns. -/
def DbSession.effect (p : DbSession σ α) (c : Connection σ) : Option DbError × Connection σ :=
  match p c with
  | (.ok _, d) => (none, d)
  | (.error e, d) => (some e, d)

theorem DbSession.effect_bind (p : DbSession σ α) (k : α → DbSession σ β) (c : Connection σ) :
    (p >>= k).effect c = match p c with
      | (.ok a, d) => (k a).effect d
      | (.error e, d) => (some e, d) := by
  unfold DbSession.effect
  rw [DbSession.bind_apply]
  rcases p c with ⟨_ | _, d⟩
  · rfl
  · rfl

theorem DbSession.effect_bind_pure (p : DbSession σ α) (f : α → β) (c : Connection σ) :
    (p >>= fun a => pure (f a)).effect c = p.effect c := by
  rw [DbSession.effect_bind]
  unfold DbSession.effect
  rcases p c with ⟨_ | _, d⟩
  · rfl
  · rfl

theorem DbSession.bind_assoc {γ : Type} (p : DbSession σ α) (k : α → DbSession σ β)
    (h : β → DbSession σ γ) : p >>= k >>= h = p >>= fun a => k a >>= h := by
  refine funext fun c => ?_
  rw [DbSession.bind_apply, DbSession.bind_apply, DbSession.bind_apply]
  rcases p c with ⟨_ | _, d⟩
  · rfl
  · rfl

/-- The program does to the connection what these statements do. -/
def Issues (reconnects : Bool) (ws : List (σ → σ)) (p : DbSession σ α) : Prop :=
  ∀ c, p.effect c = (sent reconnects ws).effect c

section Issues

variable {reconnects : Bool} {ws vs : List (σ → σ)}

theorem issues_pure (a : α) : Issues reconnects [] (pure a : DbSession σ α) := fun _ => rfl

theorem issues_execute (stmt : Statement σ ρ) :
    Issues reconnects [stmt.change] (execute reconnects stmt) := by
  intro c
  have hunit : (execute reconnects stmt).effect c =
      (execute reconnects ⟨stmt.change, fun _ => ()⟩).effect c := by
    unfold DbSession.effect execute Connection.attempt
    dsimp only
    cases (c.weather 0).first with
    | fine => rfl
    | raised rollsBack => cases rollsBack <;> rfl
    | dropped =>
      cases reconnects with
      | false => rfl
      | true =>
        cases (c.weather 0).connect with
        | dropped => rfl
        | raised rollsBack => rfl
        | fine =>
          cases (c.weather 0).again with
          | fine => rfl
          | dropped => rfl
          | raised rollsBack => cases rollsBack <;> rfl
  rw [hunit]
  unfold DbSession.effect
  rw [sent_cons]
  rcases execute reconnects ⟨stmt.change, fun _ => ()⟩ c with ⟨_ | _, d⟩
  · rfl
  · rfl

/-- What follows a program runs after the statements it has issued, if none of them has failed. -/
theorem Issues.effect_bind {γ : Type} {p : DbSession σ α} (hp : Issues reconnects ws p)
    {k : α → DbSession σ β} {rest : DbSession σ γ} (hk : ∀ a d, (k a).effect d = rest.effect d)
    (c : Connection σ) : (p >>= k).effect c = match sent reconnects ws c with
      | (.ok _, d) => rest.effect d
      | (.error e, d) => (some e, d) := by
  have hpc := hp c
  rw [DbSession.effect_bind]
  unfold DbSession.effect at hpc
  rcases hpe : p c with ⟨e | a, d⟩
  · rcases hsent : sent reconnects ws c with ⟨e' | _, d'⟩
    · rwa [hpe, hsent] at hpc
    · rw [hpe, hsent] at hpc
      cases hpc
  · rcases hsent : sent reconnects ws c with ⟨e' | _, d'⟩
    · rw [hpe, hsent] at hpc
      cases hpc
    · rw [hpe, hsent] at hpc
      obtain rfl := congrArg Prod.snd hpc
      exact hk a d

theorem Issues.bind {p : DbSession σ α} {k : α → DbSession σ β} (hp : Issues reconnects ws p)
    (hk : ∀ a, Issues reconnects vs (k a)) : Issues reconnects (ws ++ vs) (p >>= k) := by
  intro c
  rw [hp.effect_bind hk]
  unfold DbSession.effect
  rw [sent_append]
  rcases sent reconnects ws c with ⟨_ | _, d⟩
  · rfl
  · rfl

/-- **A loop** issues what its rounds issue. -/
theorem issues_foldlM {ι : Type} {f : ι → List (σ → σ)} {g : α → ι → DbSession σ α}
    (h : ∀ a i, Issues reconnects (f i) (g a i)) (l : List ι) (a : α) :
    Issues reconnects (l.flatMap f) (l.foldlM g a) := by
  induction l generalizing a with
  | nil => exact issues_pure a
  | cons i l ih => exact (h a i).bind ih

/-! ### Transactions -/

/-- Statements and a commit. -/
def transaction (reconnects : Bool) (ws : List (σ → σ)) : DbSession σ Unit := do
  sent reconnects ws
  commit

/-- The fate of a step of a transaction: a statement, or the commit, which is not tried again. -/
def stepFate (reconnects : Bool) (weather : ℕ → Weather) (n j : ℕ) : StatementFate :=
  (weather j).fate (reconnects && decide (j < n))

theorem commit_eq (c : Connection σ) :
    match (c.weather 0).fate false with
    | .done => commit c = (.ok (), { c.pass with committed := c.current })
    | .redone => False
    | .kept => ∃ e, commit c = (.error e, c.pass)
    | .lost => ∃ e, commit c = (.error e, c.pass.rollback) := by
  unfold Weather.fate commit Connection.attempt
  cases (c.weather 0).first with
  | fine => rfl
  | dropped => exact ⟨.disconnect, rfl⟩
  | raised rollsBack =>
    cases rollsBack with
    | false => exact ⟨.other, rfl⟩
    | true => exact ⟨.other, rfl⟩

theorem transaction_apply (c : Connection σ) :
    transaction reconnects ws c = match sent reconnects ws c with
      | (.ok _, d) => commit d
      | (.error e, d) => (.error e, d) := by
  unfold transaction
  rw [DbSession.bind_apply]
  rcases sent reconnects ws c with ⟨_ | _, d⟩
  · rfl
  · rfl

/-- **A program that commits what it has issued** is a transaction. -/
theorem Issues.transacts {p : DbSession σ α} (hp : Issues reconnects ws p) {k : α → DbSession σ β}
    (hk : ∀ a d, (k a).effect d = commit.effect d) (c : Connection σ) :
    (p >>= k).effect c = (transaction reconnects ws).effect c := by
  rw [hp.effect_bind hk]
  unfold DbSession.effect
  rw [transaction_apply]
  rcases sent reconnects ws c with ⟨_ | _, d⟩
  · rfl
  · rfl

/-- **A query outside a transaction** reads the committed data, on whichever connection. -/
theorem effect_query_bind (query : σ → α) (k : α → DbSession σ β) {c : Connection σ}
    (hclean : c.current = c.committed) :
    (execute reconnects ⟨id, query⟩ >>= k).effect c =
      (execute reconnects ⟨id, fun _ => ()⟩ >>= fun _ => k (query c.committed)).effect c := by
  rw [DbSession.effect_bind, DbSession.effect_bind]
  unfold execute Connection.attempt
  dsimp only
  cases (c.weather 0).first with
  | fine =>
    dsimp only [Connection.pass]
    rw [hclean]
  | raised rollsBack => cases rollsBack <;> rfl
  | dropped =>
    cases reconnects with
    | false => rfl
    | true =>
      cases (c.weather 0).connect with
      | dropped => rfl
      | raised rollsBack => rfl
      | fine =>
        cases (c.weather 0).again with
        | fine => rfl
        | dropped => rfl
        | raised rollsBack => cases rollsBack <;> rfl

theorem effect_transaction_cons (w : σ → σ) (c : Connection σ) :
    (transaction reconnects (w :: ws)).effect c =
      (execute reconnects ⟨w, fun _ => ()⟩ >>= fun _ => transaction reconnects ws).effect c := by
  rw [DbSession.effect_bind]
  unfold DbSession.effect
  rw [transaction_apply, sent_cons]
  rcases execute reconnects ⟨w, fun _ => ()⟩ c with ⟨_ | _, d⟩
  · rfl
  · dsimp only
    rw [transaction_apply]

/-- **A transaction that ends normally** commits the statements since the last new connection. -/
theorem transaction_ok {c : Connection σ} (hclean : c.current = c.committed)
    (h : Executes reconnects c.weather ws.length)
    (hcommit : stepFate reconnects c.weather ws.length ws.length = .done) :
    transaction reconnects ws c = (.ok (),
      { committed := applied (ws.drop (restart reconnects c.weather ws.length)) c.committed
        current := applied (ws.drop (restart reconnects c.weather ws.length)) c.committed
        weather := fun i => c.weather (i + (ws.length + 1)) }) := by
  rw [transaction_apply, sent_ok ws hclean h]
  have hstep := commit_eq ({
    committed := c.committed
    current := applied (ws.drop (restart reconnects c.weather ws.length)) c.committed
    weather := fun i => c.weather (i + ws.length) } : Connection σ)
  unfold stepFate at hcommit
  rw [decide_eq_false (lt_irrefl _), Bool.and_false] at hcommit
  dsimp only at hstep ⊢
  rw [Nat.zero_add, hcommit] at hstep
  dsimp only at hstep
  rw [hstep]
  exact congrArg (fun f => (Except.ok (), Connection.mk _ _ f))
    (funext fun i => congrArg c.weather (by omega))

/-- **A transaction that raises** commits nothing. What it executed since the last new connection
stays with the connection, unless the transaction is lost. -/
theorem transaction_error {c : Connection σ} (hclean : c.current = c.committed) {j : ℕ}
    (hj : j ≤ ws.length) (hbefore : Executes reconnects c.weather j)
    (hstop : (stepFate reconnects c.weather ws.length j).isExecuted = false) :
    ∃ e, transaction reconnects ws c = (.error e,
      { committed := c.committed
        current :=
          if stepFate reconnects c.weather ws.length j = .kept then
            applied ((ws.take j).drop (restart reconnects c.weather j)) c.committed
          else c.committed
        weather := fun i => c.weather (i + (j + 1)) }) := by
  unfold stepFate at hstop ⊢
  rw [transaction_apply]
  rcases hj.lt_or_eq with hlt | rfl
  · rw [decide_eq_true hlt, Bool.and_true] at hstop ⊢
    obtain ⟨e, he⟩ := sent_error ws hclean hlt hbefore hstop
    exact ⟨e, by rw [he]⟩
  · rw [decide_eq_false (lt_irrefl _), Bool.and_false] at hstop ⊢
    rw [sent_ok ws hclean hbefore, List.take_length]
    have hstep := commit_eq ({
      committed := c.committed
      current := applied (ws.drop (restart reconnects c.weather ws.length)) c.committed
      weather := fun i => c.weather (i + ws.length) } : Connection σ)
    dsimp only at hstep ⊢
    rw [Nat.zero_add] at hstep
    have hshift : (fun i => c.weather (i + 1 + ws.length)) =
        fun i => c.weather (i + (ws.length + 1)) :=
      funext fun i => congrArg c.weather (by omega)
    cases hfate : (c.weather ws.length).fate false with
    | done =>
      rw [hfate] at hstop
      cases hstop
    | redone =>
      rw [hfate] at hstep
      exact hstep.elim
    | kept =>
      rw [hfate] at hstep
      obtain ⟨e, he⟩ := hstep
      refine ⟨e, ?_⟩
      rw [he, if_pos rfl, ← hshift]
      rfl
    | lost =>
      rw [hfate] at hstep
      obtain ⟨e, he⟩ := hstep
      refine ⟨e, ?_⟩
      rw [he, if_neg nofun, ← hshift]
      rfl

theorem stepFate_of_lt {weather : ℕ → Weather} {n j : ℕ} (h : j < n) :
    stepFate reconnects weather n j = (weather j).fate reconnects := by
  unfold stepFate
  rw [decide_eq_true h, Bool.and_true]

theorem stepFate_self_ne_redone (weather : ℕ → Weather) (n : ℕ) :
    stepFate reconnects weather n n ≠ .redone := by
  unfold stepFate Weather.fate
  rw [decide_eq_false (lt_irrefl n), Bool.and_false]
  cases (weather n).first with
  | fine => exact nofun
  | dropped => exact nofun
  | raised rollsBack => cases rollsBack <;> exact nofun

/-- **A transaction** does all its steps, or stops at the first it cannot do. -/
theorem transaction_cases (reconnects : Bool) (weather : ℕ → Weather) (n : ℕ) :
    Executes reconnects weather n ∧ stepFate reconnects weather n n = .done ∨
      ∃ j ≤ n, Executes reconnects weather j ∧
        (stepFate reconnects weather n j).isExecuted = false := by
  rcases executes_or_exists reconnects weather n with hall | ⟨j, hj, hbefore, hstop⟩
  · have hne := @stepFate_self_ne_redone reconnects weather n
    cases hstep : stepFate reconnects weather n n with
    | done => exact .inl ⟨hall, rfl⟩
    | redone => exact absurd hstep hne
    | kept => exact .inr ⟨n, le_rfl, hall, by rw [hstep]; rfl⟩
    | lost => exact .inr ⟨n, le_rfl, hall, by rw [hstep]; rfl⟩
  · exact .inr ⟨j, hj.le, hbefore, (stepFate_of_lt hj).symm ▸ hstop⟩

/-- **What a transaction that ended normally has committed.** Nothing is uncommitted after it. -/
theorem committed_of_transaction {c d : Connection σ} (hclean : c.current = c.committed)
    (h : transaction reconnects ws c = (.ok (), d)) :
    d.committed = applied (ws.drop (restart reconnects c.weather ws.length)) c.committed ∧
      d.current = d.committed := by
  rcases transaction_cases reconnects c.weather ws.length with
    ⟨hall, hcommit⟩ | ⟨j, hj, hbefore, hstop⟩
  · rw [transaction_ok hclean hall hcommit] at h
    obtain rfl := congrArg Prod.snd h
    exact ⟨rfl, rfl⟩
  · obtain ⟨e, he⟩ := transaction_error hclean hj hbefore hstop
    rw [he] at h
    cases congrArg Prod.fst h

theorem effect_eq_some_iff {p : DbSession σ α} {c d : Connection σ} {e : DbError} :
    p.effect c = (some e, d) ↔ p c = (.error e, d) := by
  unfold DbSession.effect
  rcases p c with ⟨e' | a, d'⟩
  · constructor
    · intro h
      obtain rfl := Option.some.inj (congrArg Prod.fst h)
      exact congrArg (Prod.mk _) (congrArg Prod.snd h)
    · intro h
      obtain rfl := Except.error.inj (congrArg Prod.fst h)
      exact congrArg (Prod.mk _) (congrArg Prod.snd h)
  · exact iff_of_false (fun h => nomatch congrArg Prod.fst h) fun h => nomatch congrArg Prod.fst h

theorem effect_eq_none_iff {p : DbSession σ α} {c d : Connection σ} :
    p.effect c = (none, d) ↔ ∃ a, p c = (.ok a, d) := by
  unfold DbSession.effect
  rcases p c with ⟨e | a, d'⟩
  · constructor
    · exact fun h => nomatch congrArg Prod.fst h
    · rintro ⟨a, h⟩
      cases congrArg Prod.fst h
  · constructor
    · exact fun h => ⟨a, congrArg (Prod.mk _) (congrArg Prod.snd h)⟩
    · rintro ⟨_, h⟩
      exact congrArg (Prod.mk _) (congrArg Prod.snd h)

end Issues

end RunnerSwarm
