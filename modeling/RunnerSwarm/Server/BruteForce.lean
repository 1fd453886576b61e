import RunnerSwarm.Lib.Holders
import RunnerSwarm.Lib.Run
import RunnerSwarm.Server.Auth

/-!
# Guessing tokens

`_authorize` asks the guard first and tells it the verdict afterwards, each under the guard's lock
but not both together, and requests are served by several threads. `Guarding` is the guard with the
requests that are between the two; `judged` records the wrong tokens that were answered with
anything but 429.

* `authorize_eq_steps`: one request on its own is `authorize`;
* `guessing_bounded`: fewer than `lockout_seconds` apart, no more than `max_failures` wrong tokens of
  a client are judged, in every run in which each is let in while the failures counted and the wrong
  tokens being judged are fewer than that, no valid token of the client is judged so soon after a
  wrong one, and every token can be compared;
* `not_guessing_bounded`: a holder of the read-only token resets the counter.
-/

namespace RunnerSwarm

/-! ### The counters of the guard -/

namespace TokenGuard

variable (g : TokenGuard) (client other : String) (now : ℚ)

/-- The failures counted for a client. -/
def count : ℕ := ((g.failures.get client).getD (0, 0)).1

/-- The time of the last one. -/
def last : ℚ := ((g.failures.get client).getD (0, 0)).2

theorem get_forget : (g.forget other).failures.get client =
    if client = other then none else g.failures.get client := by
  unfold forget
  rw [Table.get_deleteWhere]
  by_cases h : client = other
  · rw [if_pos h]
    cases g.failures.get client with
    | none => rfl
    | some entry => simp [h]
  · rw [if_neg h]
    cases g.failures.get client with
    | none => rfl
    | some entry => simp [h]

theorem get_recordFailure : (g.recordFailure other now).failures.get client =
    if client = other then some (g.count other + 1, now) else g.failures.get client := by
  unfold recordFailure count
  dsimp only
  rw [Table.get_put]

/-- A client may be below the limit, past its lock, or locked out. -/
theorem lockedUntil_cases :
    (g.lockedUntil client now = (0, g) ∧ g.count client < g.maxFailures) ∨
    (g.lockedUntil client now = (0, g.forget client) ∧ g.maxFailures ≤ g.count client ∧
      g.last client + g.lockoutSeconds ≤ now) ∨
    (g.lockedUntil client now = (g.last client + g.lockoutSeconds, g) ∧
      now < g.last client + g.lockoutSeconds) := by
  unfold lockedUntil
  dsimp only
  split_ifs with hcount hlast
  · exact .inl ⟨rfl, hcount⟩
  · exact .inr (.inl ⟨rfl, not_lt.1 hcount, hlast⟩)
  · exact .inr (.inr ⟨rfl, not_le.1 hlast⟩)

/-- What the guard does, it does for one client. -/
theorem get_lockedUntil_of_ne (h : client ≠ other) :
    (g.lockedUntil other now).2.failures.get client = g.failures.get client := by
  rcases g.lockedUntil_cases other now with ⟨heq, -⟩ | ⟨heq, -⟩ | ⟨heq, -⟩
  · rw [heq]
  · rw [heq, get_forget, if_neg h]
  · rw [heq]

end TokenGuard

/-! ### Requests in several threads -/

/-- The guard, the time, and the requests that it has let in and that are not judged yet. -/
structure Guarding (κ : Type*) where
  guard : TokenGuard
  now : ℚ
  threads : κ → Option Request
  judged : List (String × ℚ)

inductive GuardAction (κ : Type*)
  | wait (t : ℚ)
  | arrive (k : κ) (r : Request)
  | judge (k : κ)

namespace Guarding

variable {κ : Type*} [DecidableEq κ] (d : Deps)

/-- The rest of `_authorize` for a request the guard has let in. A token that cannot be compared
raises, and the answer is 500. -/
def verdict (s : Guarding κ) (r : Request) : Guarding κ :=
  match d.scope r.suppliedToken with
  | .error _ => { s with judged := s.judged ++ [(r.client, s.now)] }
  | .ok none =>
      { s with
        guard := s.guard.recordFailure r.client s.now
        judged := s.judged ++ [(r.client, s.now)] }
  | .ok (some _) => { s with guard := s.guard.recordSuccess r.client }

def step (s : Guarding κ) : GuardAction κ → Option (Guarding κ)
  | .wait t => if s.now ≤ t then some { s with now := t } else none
  | .arrive k r =>
      match s.threads k with
      | some _ => none
      | none =>
          let (locked, guard) := s.guard.lockedUntil r.client s.now
          if locked ≠ 0 then some { s with guard := guard }
          else some { s with guard := guard, threads := Function.update s.threads k (some r) }
  | .judge k =>
      match s.threads k with
      | none => none
      | some r => some (verdict d { s with threads := Function.update s.threads k none } r)

omit [DecidableEq κ] in
/-- A server that has just been started. -/
def init (maxFailures : ℕ) (lockoutSeconds : ℚ) : Guarding κ where
  guard := ⟨maxFailures, lockoutSeconds, Table.empty⟩
  now := 0
  threads := fun _ => none
  judged := []

omit [DecidableEq κ] in
/-- **A request on its own**: what the guard says and what it is told are those of `authorize`. -/
theorem authorize_eq_steps (s : Guarding κ) (clock : Clock) (r : Request) (write : Bool)
    (hjudged : clock.judged = s.now) (hrecorded : clock.recorded = s.now) :
    (d.authorize s.guard clock r write).2 =
      if (s.guard.lockedUntil r.client s.now).1 ≠ 0 then (s.guard.lockedUntil r.client s.now).2
      else (verdict d { s with guard := (s.guard.lockedUntil r.client s.now).2 } r).guard := by
  unfold Deps.authorize verdict
  rw [hjudged, hrecorded]
  dsimp only
  split_ifs with hlocked
  · rfl
  · cases d.scope r.suppliedToken with
    | error _ => rfl
    | ok granted => cases granted <;> rfl

/-! ### Runs with a bound -/

/-- A token that grants nothing. -/
def isWrong (r : Request) : Bool :=
  match d.scope r.suppliedToken with
  | .ok (some _) => false
  | _ => true

variable [Fintype κ]

/-- One for a wrong token of the client that is being judged. -/
def guess (client : String) (thread : Option Request) : ℕ :=
  if thread.any fun r => r.client = client && isWrong d r then 1 else 0

/-- The wrong tokens of the client that are being judged. -/
def pending (client : String) (s : Guarding κ) : ℕ := total (guess d client) s.threads

/-- The condition on the steps: see the head of the file. -/
def Orderly (client : String) (s : Guarding κ) : GuardAction κ → Prop
  | .wait _ => True
  | .arrive _ r => r.client = client → isWrong d r = true →
      (s.guard.lockedUntil client s.now).1 = 0 →
      (s.guard.lockedUntil client s.now).2.count client + pending d client s < s.guard.maxFailures
  | .judge k =>
      match s.threads k with
      | none => True
      | some r => r.client = client →
          match d.scope r.suppliedToken with
          | .error _ => False
          | .ok none => True
          | .ok (some _) => ∀ j ∈ s.judged, j.1 = client → s.guard.lockoutSeconds ≤ s.now - j.2

/-- The wrong tokens of the client judged from `a` to `b`. -/
def judgedIn (client : String) (s : Guarding κ) (a b : ℚ) : ℕ :=
  s.judged.countP fun j => j.1 = client && a ≤ j.2 && j.2 ≤ b

/-- A state of such a run. -/
structure Bounded (client : String) (maxFailures : ℕ) (lockoutSeconds : ℚ) (s : Guarding κ) :
    Prop where
  max_eq : s.guard.maxFailures = maxFailures
  lockout_eq : s.guard.lockoutSeconds = lockoutSeconds
  now_nonneg : 0 ≤ s.now
  past : ∀ t, (client, t) ∈ s.judged → t ≤ s.now
  last : ∀ entry, s.guard.failures.get client = some entry →
    ∀ t, (client, t) ∈ s.judged → t ≤ entry.2
  slots : s.guard.count client + pending d client s ≤ maxFailures
  recent : (s.judged.countP fun j => j.1 = client && s.now - j.2 < lockoutSeconds) ≤
    s.guard.count client
  window : ∀ a b, b - a < lockoutSeconds → s.judgedIn client a b ≤ maxFailures

section Steps

variable {d} {client : String} {N : ℕ} {L : ℚ} {s t : Guarding κ} {r : Request}

omit [DecidableEq κ] in
theorem bounded_init (N : ℕ) (L : ℚ) : Bounded d client N L (init N L : Guarding κ) where
  max_eq := rfl
  lockout_eq := rfl
  now_nonneg := le_rfl
  past := fun _ h => (List.not_mem_nil h).elim
  last := fun _ h => (Option.not_mem_none _ h).elim
  slots := by
    have hpending : pending d client (init N L : Guarding κ) = 0 := total_eq_zero fun _ => rfl
    rw [hpending]
    exact Nat.zero_le _
  recent := Nat.zero_le _
  window := fun _ _ _ => Nat.zero_le _

omit [DecidableEq κ] in
theorem Bounded.wait (h : Bounded d client N L s) {time : ℚ} (htime : s.now ≤ time) :
    Bounded d client N L { s with now := time } where
  max_eq := h.max_eq
  lockout_eq := h.lockout_eq
  now_nonneg := h.now_nonneg.trans htime
  past := fun t ht => (h.past t ht).trans htime
  last := h.last
  slots := h.slots
  recent := by
    refine (List.countP_mono_left fun j _ hj => ?_).trans h.recent
    rw [Bool.and_eq_true, decide_eq_true_eq, decide_eq_true_eq] at hj ⊢
    exact ⟨hj.1, by linarith [hj.2]⟩
  window := h.window

omit [DecidableEq κ] in
/-- The check of a request leaves the counters of its client right. -/
theorem Bounded.check (h : Bounded d client N L s) (hN : 0 < N) (other : String) :
    Bounded d client N L { s with guard := (s.guard.lockedUntil other s.now).2 } := by
  by_cases hother : client = other
  · subst hother
    rcases s.guard.lockedUntil_cases client s.now with ⟨heq, -⟩ | ⟨heq, hcount, hlast⟩ | ⟨heq, -⟩
    · rw [heq]
      exact h
    · rw [heq]
      have hnone : (s.guard.forget client).failures.get client = none := by
        rw [TokenGuard.get_forget, if_pos rfl]
      have hzero : (s.guard.forget client).count client = 0 := by
        unfold TokenGuard.count
        rw [hnone]
        rfl
      refine ⟨h.max_eq, h.lockout_eq, h.now_nonneg, h.past, fun entry hentry => ?_, ?_, ?_,
        h.window⟩
      · rw [hnone] at hentry
        cases hentry
      · have hslots := h.slots
        show (s.guard.forget client).count client + pending d client s ≤ N
        omega
      · -- the lock has expired, so the last failure is long past
        have hpos : 0 < s.guard.count client := lt_of_lt_of_le (h.max_eq.symm ▸ hN) hcount
        cases hentry : s.guard.failures.get client with
        | none =>
          unfold TokenGuard.count at hpos
          rw [hentry] at hpos
          exact absurd hpos (lt_irrefl _)
        | some entry =>
          have htime : s.guard.last client = entry.2 := by
            unfold TokenGuard.last
            rw [hentry]
            rfl
          have hnever : (s.judged.countP fun j => j.1 = client && s.now - j.2 < L) = 0 := by
            refine List.countP_eq_zero.2 fun j hj hrecent => ?_
            rw [Bool.and_eq_true, decide_eq_true_eq, decide_eq_true_eq] at hrecent
            have hle := h.last entry hentry j.2 (hrecent.1 ▸ hj)
            rw [htime, h.lockout_eq] at hlast
            linarith [hrecent.2]
          exact hnever.le.trans (Nat.zero_le _)
    · rw [heq]
      exact h
  · have hget := s.guard.get_lockedUntil_of_ne client other s.now hother
    have hcount : (s.guard.lockedUntil other s.now).2.count client = s.guard.count client := by
      unfold TokenGuard.count
      rw [hget]
    have hconfig : (s.guard.lockedUntil other s.now).2.maxFailures = s.guard.maxFailures ∧
        (s.guard.lockedUntil other s.now).2.lockoutSeconds = s.guard.lockoutSeconds := by
      rcases s.guard.lockedUntil_cases other s.now with ⟨heq, -⟩ | ⟨heq, -⟩ | ⟨heq, -⟩
      all_goals
        rw [heq]
        exact ⟨rfl, rfl⟩
    refine ⟨hconfig.1.trans h.max_eq, hconfig.2.trans h.lockout_eq, h.now_nonneg, h.past,
      fun entry hentry => h.last entry (hget ▸ hentry), ?_, ?_, h.window⟩
    · show (s.guard.lockedUntil other s.now).2.count client + pending d client s ≤ N
      rw [hcount]
      exact h.slots
    · exact h.recent.trans hcount.ge

/-- A request is let in. -/
theorem Bounded.letIn (h : Bounded d client N L s) {k : κ} (hidle : s.threads k = none)
    (hroom : r.client = client → isWrong d r = true →
      s.guard.count client + pending d client s < N) :
    Bounded d client N L { s with threads := Function.update s.threads k (some r) } := by
  have hslots := h.slots
  have hupdate := total_update_add (guess d client) s.threads k (some r)
  have hzero : guess d client (s.threads k) = 0 := by
    rw [hidle]
    rfl
  refine ⟨h.max_eq, h.lockout_eq, h.now_nonneg, h.past, h.last, ?_, h.recent, h.window⟩
  show s.guard.count client + total (guess d client) (Function.update s.threads k (some r)) ≤ N
  unfold pending at hslots hroom
  by_cases hguess : r.client = client ∧ isWrong d r = true
  · have hlt := hroom hguess.1 hguess.2
    have hone : guess d client (some r) ≤ 1 := by
      unfold guess
      split_ifs <;> omega
    omega
  · have hnone : guess d client (some r) = 0 := by
      unfold guess
      rw [if_neg]
      rw [Option.any_some, Bool.and_eq_true, decide_eq_true_eq]
      exact hguess
    omega

/-- A request leaves its thread. -/
theorem pending_leave {k : κ} (hbusy : s.threads k = some r) :
    total (guess d client) (Function.update s.threads k none) +
      (if r.client = client ∧ isWrong d r = true then 1 else 0) = pending d client s := by
  have hupdate := total_update_add (guess d client) s.threads k none
  have hguess : guess d client (some r) =
      if r.client = client ∧ isWrong d r = true then 1 else 0 := by
    unfold guess
    rw [Option.any_some]
    exact if_congr (by rw [Bool.and_eq_true, decide_eq_true_eq]) rfl rfl
  have hnone : guess d client none = 0 := rfl
  rw [hbusy, hguess] at hupdate
  unfold pending
  omega

theorem Bounded.leave (h : Bounded d client N L s) {k : κ} (hbusy : s.threads k = some r) :
    Bounded d client N L { s with threads := Function.update s.threads k none } := by
  have hslots := h.slots
  have hleave := @pending_leave κ _ d _ client s r k hbusy
  refine ⟨h.max_eq, h.lockout_eq, h.now_nonneg, h.past, h.last, ?_, h.recent, h.window⟩
  show s.guard.count client + total (guess d client) (Function.update s.threads k none) ≤ N
  omega

omit [DecidableEq κ] in
/-- A wrong token of another client. -/
theorem Bounded.otherJudged (h : Bounded d client N L s) {other : String} (hne : other ≠ client) :
    Bounded d client N L { s with judged := s.judged ++ [(other, s.now)] } := by
  have hmem : ∀ t, (client, t) ∈ s.judged ++ [(other, s.now)] → (client, t) ∈ s.judged := by
    intro t ht
    rcases List.mem_append.1 ht with ht | ht
    · exact ht
    · exact absurd (Prod.mk.inj (List.mem_singleton.1 ht)).1.symm hne
  have hcount : ∀ p : ℚ → Bool, (s.judged ++ [(other, s.now)]).countP
      (fun j => j.1 = client && p j.2) = s.judged.countP fun j => j.1 = client && p j.2 := by
    intro p
    rw [List.countP_append, List.countP_singleton]
    simp [hne]
  refine ⟨h.max_eq, h.lockout_eq, h.now_nonneg, fun t ht => h.past t (hmem t ht),
    fun entry hentry t ht => h.last entry hentry t (hmem t ht), h.slots, ?_, fun a b hab => ?_⟩
  · show (s.judged ++ [(other, s.now)]).countP _ ≤ _
    rw [hcount fun t => s.now - t < L]
    exact h.recent
  · have hwindow := h.window a b hab
    unfold judgedIn at hwindow ⊢
    simp only [Bool.and_assoc] at hwindow ⊢
    rw [hcount fun t => a ≤ t && t ≤ b]
    exact hwindow

omit [DecidableEq κ] in
/-- The counters of a client that a change of the guard leaves alone. -/
theorem Bounded.sameCounters (h : Bounded d client N L s) {g : TokenGuard}
    (hget : g.failures.get client = s.guard.failures.get client)
    (hmax : g.maxFailures = s.guard.maxFailures)
    (hlockout : g.lockoutSeconds = s.guard.lockoutSeconds) :
    Bounded d client N L { s with guard := g } := by
  have hcount : g.count client = s.guard.count client := by
    unfold TokenGuard.count
    rw [hget]
  refine ⟨hmax.trans h.max_eq, hlockout.trans h.lockout_eq, h.now_nonneg, h.past,
    fun entry hentry => h.last entry (hget ▸ hentry), ?_, h.recent.trans hcount.ge, h.window⟩
  show g.count client + pending d client s ≤ N
  rw [hcount]
  exact h.slots

omit [DecidableEq κ] in
/-- A wrong token of the client is counted. -/
theorem Bounded.failure (h : Bounded d client N L s)
    (hroom : s.guard.count client + pending d client s < N) :
    Bounded d client N L { s with
      guard := s.guard.recordFailure client s.now
      judged := s.judged ++ [(client, s.now)] } := by
  have hget : (s.guard.recordFailure client s.now).failures.get client =
      some (s.guard.count client + 1, s.now) := by
    rw [TokenGuard.get_recordFailure, if_pos rfl]
  have hcount : (s.guard.recordFailure client s.now).count client = s.guard.count client + 1 := by
    rw [TokenGuard.count, hget]
    rfl
  have hpast : ∀ t, (client, t) ∈ s.judged ++ [(client, s.now)] → t ≤ s.now := by
    intro t ht
    rcases List.mem_append.1 ht with ht | ht
    · exact h.past t ht
    · exact (Prod.mk.inj (List.mem_singleton.1 ht)).2.le
  have hrecent : ((s.judged ++ [(client, s.now)]).countP fun j =>
      j.1 = client && s.now - j.2 < L) ≤ s.guard.count client + 1 := by
    rw [List.countP_append]
    exact add_le_add h.recent List.countP_le_length
  refine ⟨h.max_eq, h.lockout_eq, h.now_nonneg, hpast, fun entry hentry t ht => ?_, ?_,
    hrecent.trans hcount.ge, fun a b hab => ?_⟩
  · rw [hget] at hentry
    rw [← Option.some.inj hentry]
    exact hpast t ht
  · show (s.guard.recordFailure client s.now).count client + pending d client s ≤ N
    omega
  · show (s.judged ++ [(client, s.now)]).countP _ ≤ N
    rcases lt_or_ge b s.now with hb | hb
    · -- the window is over
      have hwindow := h.window a b hab
      unfold judgedIn at hwindow
      rw [List.countP_append, List.countP_singleton, if_neg]
      · exact hwindow
      · rw [Bool.and_eq_true, decide_eq_true_eq]
        exact fun hin => absurd hin.2 (not_le.2 hb)
    · -- all that the window holds is recent
      refine le_trans (List.countP_mono_left fun j hj hin => ?_)
        (hrecent.trans (Nat.succ_le_of_lt (lt_of_le_of_lt (Nat.le_add_right _ _) hroom)))
      rw [Bool.and_eq_true, Bool.and_eq_true, decide_eq_true_eq, decide_eq_true_eq,
        decide_eq_true_eq] at hin
      rw [Bool.and_eq_true, decide_eq_true_eq, decide_eq_true_eq]
      exact ⟨hin.1.1, by linarith [hin.1.2]⟩

omit [DecidableEq κ] in
/-- A valid token of the client, long after the last wrong one. -/
theorem Bounded.success (h : Bounded d client N L s)
    (hquiet : ∀ t, (client, t) ∈ s.judged → L ≤ s.now - t) :
    Bounded d client N L { s with guard := s.guard.recordSuccess client } := by
  have hget : (s.guard.recordSuccess client).failures.get client = none := by
    unfold TokenGuard.recordSuccess
    rw [TokenGuard.get_forget, if_pos rfl]
  have hslots := h.slots
  refine ⟨h.max_eq, h.lockout_eq, h.now_nonneg, h.past, fun entry hentry => ?_, ?_, ?_, h.window⟩
  · rw [hget] at hentry
    cases hentry
  · have hcount : (s.guard.recordSuccess client).count client = 0 := by
      rw [TokenGuard.count, hget]
      rfl
    show (s.guard.recordSuccess client).count client + pending d client s ≤ N
    omega
  · have hnever : (s.judged.countP fun j => j.1 = client && s.now - j.2 < L) = 0 := by
      refine List.countP_eq_zero.2 fun j hj hrecent => ?_
      rw [Bool.and_eq_true, decide_eq_true_eq, decide_eq_true_eq] at hrecent
      have hlong := hquiet j.2 (hrecent.1 ▸ hj)
      linarith [hrecent.2]
    exact hnever.le.trans (Nat.zero_le _)

theorem Bounded.judge (h : Bounded d client N L s) {k : κ} (hbusy : s.threads k = some r)
    (hok : Orderly d client s (.judge k)) :
    Bounded d client N L (verdict d { s with threads := Function.update s.threads k none } r) := by
  have hleft := h.leave hbusy
  have hverdict := hok
  unfold Orderly at hverdict
  dsimp only at hverdict
  rw [hbusy] at hverdict
  by_cases hclient : r.client = client
  · have hverdict := hverdict hclient
    unfold verdict
    cases hscope : d.scope r.suppliedToken with
    | error _ =>
      rw [hscope] at hverdict
      exact hverdict.elim
    | ok granted =>
      rw [hscope] at hverdict
      cases granted with
      | none =>
        have hslots := h.slots
        have hleave := @pending_leave κ _ d _ client s r k hbusy
        have hwrong : isWrong d r = true := by
          unfold isWrong
          rw [hscope]
        rw [if_pos ⟨hclient, hwrong⟩] at hleave
        dsimp only
        rw [hclient]
        refine hleft.failure ?_
        show s.guard.count client + total (guess d client) (Function.update s.threads k none) < N
        omega
      | some scope =>
        dsimp only
        rw [hclient]
        refine hleft.success fun t ht => ?_
        rw [← h.lockout_eq]
        exact hverdict (client, t) ht rfl
  · unfold verdict
    cases d.scope r.suppliedToken with
    | error _ => exact hleft.otherJudged hclient
    | ok granted =>
      cases granted with
      | none =>
        refine (hleft.otherJudged hclient).sameCounters ?_ rfl rfl
        rw [TokenGuard.get_recordFailure, if_neg (Ne.symm hclient)]
      | some scope =>
        refine hleft.sameCounters ?_ rfl rfl
        unfold TokenGuard.recordSuccess
        rw [TokenGuard.get_forget, if_neg (Ne.symm hclient)]

omit [DecidableEq κ] in
/-- As long as no two wrong tokens of a client are judged at once, each is let in below the limit.
-/
theorem Bounded.orderly_alone (h : Bounded d client N L s) (hN : 0 < N)
    (halone : pending d client s = 0) (k : κ) (r : Request) : Orderly d client s (.arrive k r) := by
  intro _ _ hopen
  have hmax := h.max_eq
  rw [halone, Nat.add_zero]
  rcases s.guard.lockedUntil_cases client s.now with ⟨heq, hcount⟩ | ⟨heq, -⟩ | ⟨heq, hlocked⟩
  · rw [heq]
    exact hcount
  · have hzero : (s.guard.forget client).count client = 0 := by
      rw [TokenGuard.count, TokenGuard.get_forget, if_pos rfl]
      rfl
    rw [heq]
    show (s.guard.forget client).count client < s.guard.maxFailures
    omega
  · rw [heq] at hopen
    have hnow := h.now_nonneg
    have hzero : s.guard.last client + s.guard.lockoutSeconds = 0 := hopen
    linarith

theorem Bounded.step (h : Bounded d client N L s) (hN : 0 < N) {a : GuardAction κ}
    (hok : Orderly d client s a) (hstep : s.step d a = some t) : Bounded d client N L t := by
  cases a with
  | wait time =>
    unfold Guarding.step at hstep
    dsimp only at hstep
    split_ifs at hstep with htime
    cases hstep
    exact h.wait htime
  | arrive k r =>
    unfold Guarding.step at hstep
    dsimp only at hstep
    cases hidle : s.threads k with
    | some _ => rw [hidle] at hstep; cases hstep
    | none =>
      rw [hidle] at hstep
      dsimp only at hstep
      have hchecked := h.check hN r.client
      split_ifs at hstep with hlocked
      · cases hstep
        exact hchecked
      · cases hstep
        refine hchecked.letIn hidle fun hclient hwrong => ?_
        have hroom := hok hclient hwrong (hclient ▸ not_not.1 hlocked)
        rw [h.max_eq] at hroom
        rw [hclient]
        exact hroom
  | judge k =>
    unfold Guarding.step at hstep
    dsimp only at hstep
    cases hbusy : s.threads k with
    | none => rw [hbusy] at hstep; cases hstep
    | some r =>
      rw [hbusy] at hstep
      cases hstep
      exact h.judge hbusy hok

end Steps

/-- **Guessing is bounded.** In every run whose steps are orderly for a client, no window shorter
than `lockout_seconds` holds more than `max_failures` wrong tokens of the client that were judged. -/
theorem guessing_bounded (d : Deps) (client : String) (maxFailures : ℕ) (lockoutSeconds : ℚ)
    (hpos : 0 < maxFailures) {l : List (GuardAction κ)} {s : Guarding κ}
    (hok : Along (step d) (Orderly d client) (init maxFailures lockoutSeconds) l)
    (hrun : run (step d) (init maxFailures lockoutSeconds) l = some s) (a b : ℚ)
    (hab : b - a < lockoutSeconds) : s.judgedIn client a b ≤ maxFailures :=
  (run_invariant (fun _ _ _ hs ha hst => hs.step hpos ha hst)
    (bounded_init maxFailures lockoutSeconds) hok hrun).window a b hab

/-! ### A guesser with the read-only token -/

/-- A server with both tokens. -/
def twoTokens : Deps := { plainSite [] with token := "control", readonlyToken := "viewer" }

/-- A request of one client. -/
def carrying (token : String) : Request :=
  { method := .get, path := ["api", "state"], args := [("token", token)],
    remoteAddr := some "10.0.0.9" }

/-- Requests of the client, one after the other. -/
def inTurn (tokens : List String) : List (GuardAction (Fin 1)) :=
  tokens.flatMap fun token => [.arrive 0 (carrying token), .judge 0]

/-- Nine guesses, a look with the read-only token, and two guesses more. -/
def resetting : List (GuardAction (Fin 1)) :=
  inTurn (List.replicate 9 "guess" ++ ["viewer", "guess", "guess"])

theorem not_guessing_bounded :
    ¬ ∀ (d : Deps) (client : String) (l : List (GuardAction (Fin 1))) (s : Guarding (Fin 1)),
      (∀ k r, .arrive k r ∈ l → r.suppliedToken ≠ d.token) → run (step d) (init 10 300) l = some s →
      ∀ a b, b - a < 300 → s.judgedIn client a b ≤ 10 := by
  intro h
  have hrun : (run (step twoTokens) (init 10 300) resetting).map
      (fun s => s.judgedIn "10.0.0.9" 0 0) = some 11 := by decide +kernel
  obtain ⟨s, hs, hjudged⟩ := Option.map_eq_some_iff.1 hrun
  have hle := h twoTokens "10.0.0.9" resetting s (fun k r hr => ?_) hs 0 0 (by norm_num)
  · omega
  · obtain ⟨token, htoken, hmem⟩ := List.mem_flatMap.1 hr
    simp only [List.mem_cons, GuardAction.arrive.injEq, List.not_mem_nil, or_false, reduceCtorEq]
      at hmem
    rw [hmem.2]
    have htokens : ∀ token ∈ List.replicate 9 "guess" ++ ["viewer", "guess", "guess"],
        (carrying token).suppliedToken ≠ twoTokens.token := by decide +kernel
    exact htokens token htoken

instance (d : Deps) (client : String) (s : Guarding κ) (a : GuardAction κ) :
    Decidable (Orderly d client s a) := by
  unfold Orderly
  split
  · infer_instance
  · infer_instance
  · split
    · infer_instance
    · refine @instDecidableForall _ _ _ ?_
      split <;> infer_instance

/-- Ten guesses, refused guesses, and after the lockout a look and another guess. -/
def patient : List (GuardAction (Fin 1)) :=
  inTurn (List.replicate 10 "guess") ++ [.arrive 0 (carrying "guess"), .wait 301] ++
    inTurn ["viewer", "guess"]

theorem guessing_bounded_patient : ∃ s : Guarding (Fin 1),
    run (step twoTokens) (init 10 300) patient = some s ∧ s.judgedIn "10.0.0.9" 0 299 ≤ 10 := by
  have hrun : (run (step twoTokens) (init 10 300) patient).isSome := by decide +kernel
  obtain ⟨s, hs⟩ := Option.isSome_iff_exists.1 hrun
  exact ⟨s, hs, guessing_bounded twoTokens "10.0.0.9" 10 300 (by norm_num)
    (show Along (step twoTokens) (Orderly twoTokens "10.0.0.9") (init 10 300) patient by
      decide +kernel) hs 0 299 (by norm_num)⟩

end Guarding

end RunnerSwarm
