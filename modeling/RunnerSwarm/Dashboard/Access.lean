import RunnerSwarm.Dashboard.Sessions
import RunnerSwarm.Lib.Log
import RunnerSwarm.Lib.Run
import RunnerSwarm.Lib.Table

/-!
# Who gets through the dashboard

The routes of the dashboard over time. The login counts wrong passwords for each client and waits
for the body of a request after it has looked at the count, so other requests come in between; the
gateway reads the cookie of each request on its own. `DashboardState.log` records the answers.

* `guesses_bounded`: in less than five minutes, a client has at most nine wrong passwords judged,
  and one more for each request it may have in flight, until its count is cleared by a right
  password or a restart;
* `forwards_authorized`: provided that signatures cannot be forged, whatever is forwarded to the
  orchestrator was preceded, no more than twelve hours earlier, by a login with the password of the
  role whose token it carries, and is allowed to that role.
-/

namespace RunnerSwarm

/-! ### Signing in -/

/-- `MAX_ATTEMPTS`. -/
def maxAttempts : ℕ := 10

/-- `LOCKOUT_MS`. -/
def lockoutMs : ℕ := 5 * 60 * 1000

/-- For each client, the wrong passwords and the time of the last one. -/
abbrev Attempts := Table String (ℕ × ℕ)

namespace Attempts

variable (attempts : Attempts) (key : String)

def count : ℕ := (attempts.get key).elim 0 Prod.fst

def last : ℕ := (attempts.get key).elim 0 Prod.snd

/-- `attempts.delete(key)`. -/
def forget : Attempts := attempts.deleteWhere fun k _ => k = key

/-- `lockedFor`, in seconds. -/
def lockedFor (now : ℕ) : ℕ × Attempts :=
  if attempts.count key < maxAttempts then (0, attempts)
  else if attempts.last key + lockoutMs ≤ now then (0, attempts.forget key)
  else ((attempts.last key + lockoutMs - now + 999) / 1000, attempts)

/-- A wrong password. -/
def fail (now : ℕ) : Attempts := attempts.put key (attempts.count key + 1, now)

end Attempts

/-- The answers of the login: 429, 400, 401, 200 and 500. -/
inductive LoginResponse
  | locked (seconds : ℕ)
  | invalid
  | wrong
  | signedIn (role : Role) (cookie : String)
  | crashed (error : DashboardError)
  deriving DecidableEq

/-- The password of a body, and `none` where there is no JSON or its properties cannot be read. -/
def passwordOf (body : Option Json) : Option Json :=
  match body with
  | none => none
  | some .null => none
  | some (.dict items) =>
      match getItem items "password" with
      | none => some (.str "")
      | some .null => some (.str "")
      | some password => some password
  | some _ => some (.str "")

section Login

variable (node : NodeRuntime) (env : DashboardEnv)

/-- The login from the body on. -/
def answerLogin (attempts : Attempts) (key : String) (body : Option Json) (now : ℕ) :
    LoginResponse × Attempts :=
  match passwordOf body with
  | none => (.invalid, attempts)
  | some password =>
      match roleForPassword node env password with
      | .error e => (.crashed e, attempts)
      | .ok none => (.wrong, attempts.fail key now)
      | .ok (some role) =>
          match createSession node env role now with
          | .error e => (.crashed e, attempts.forget key)
          | .ok cookie => (.signedIn role cookie, attempts.forget key)

/-! ### The gateway -/

/-- `tokenForRole`. -/
def tokenForRole (role : Role) : String :=
  match role with
  | .admin => env.apiToken
  | .viewer => env.readonlyToken

/-- What `callRorch` sends. -/
structure RorchCall where
  role : Role
  method : String
  path : String
  authorization : Option String
  deriving DecidableEq

/-- `callRorch`. Without a token there is no header. -/
def callRorch (role : Role) (method path : String) : RorchCall where
  role := role
  method := method
  path := path
  authorization :=
    if tokenForRole env role = "" then none else some ("Bearer " ++ tokenForRole env role)

/-- The answers of the gateway: 401, 403, 500, and that of the orchestrator. -/
inductive ProxyResponse
  | notSignedIn
  | readOnly
  | crashed (error : DashboardError)
  | forwarded (call : RorchCall)
  deriving DecidableEq

/-- `proxy`. -/
def proxy (cookie : Option String) (method : String) (path : List String) (search : String)
    (now : ℕ) : ProxyResponse :=
  match readSession node env cookie now with
  | .error e => .crashed e
  | .ok none => .notSignedIn
  | .ok (some session) =>
      let target := "/" ++ String.intercalate "/" path ++ search
      if isAllowed session.role method target then
        .forwarded (callRorch env session.role method target)
      else .readOnly

end Login

/-! ### Runs -/

inductive DashboardEvent
  | login (key : String) (body : Option Json) (now : ℕ) (response : LoginResponse)
  | proxied (now : ℕ) (response : ProxyResponse)
  | restarted

/-- The counters, the clients of the logins that wait for their bodies, and the answers given. -/
structure DashboardState where
  attempts : Attempts
  pending : List String
  log : List DashboardEvent

inductive DashboardAction
  | arrive (key : String) (now : ℕ)
  | answer (key : String) (body : Option Json) (now : ℕ)
  | proxy (cookie : Option String) (method : String) (path : List String) (search : String)
      (now : ℕ)
  /-- The answer tells the browser to drop the cookie. -/
  | logout (now : ℕ)
  /-- The counters are in memory. -/
  | restart (now : ℕ)

def DashboardAction.now : DashboardAction → ℕ
  | .arrive _ now => now
  | .answer _ _ now => now
  | .proxy _ _ _ _ now => now
  | .logout now => now
  | .restart now => now

namespace DashboardState

def init : DashboardState := ⟨.empty, [], []⟩

variable (node : NodeRuntime) (env : DashboardEnv)

def step (s : DashboardState) : DashboardAction → Option DashboardState
  | .arrive key now =>
      let (locked, attempts) := s.attempts.lockedFor key now
      if 0 < locked then
        some ⟨attempts, s.pending, s.log ++ [.login key none now (.locked locked)]⟩
      else some ⟨attempts, s.pending ++ [key], s.log⟩
  | .answer key body now =>
      if key ∈ s.pending then
        let (response, attempts) := answerLogin node env s.attempts key body now
        some ⟨attempts, s.pending.erase key, s.log ++ [.login key body now response]⟩
      else none
  | .proxy cookie method path search now =>
      some { s with
        log := s.log ++ [.proxied now (RunnerSwarm.proxy node env cookie method path search now)] }
  | .logout _ => some s
  | .restart _ => some ⟨.empty, [], s.log ++ [.restarted]⟩

end DashboardState

/-! ### Guessing -/

namespace Attempts

variable {attempts : Attempts} {key other : String} {now : ℕ}

theorem get_forget : (attempts.forget other).get key =
    if key = other then none else attempts.get key := by
  unfold forget
  rw [Table.get_deleteWhere]
  by_cases h : key = other
  · rw [if_pos h]
    cases attempts.get key with
    | none => rfl
    | some entry => simp [h]
  · rw [if_neg h]
    cases attempts.get key with
    | none => rfl
    | some entry => simp [h]

theorem count_forget : (attempts.forget other).count key =
    if key = other then 0 else attempts.count key := by
  unfold count
  rw [get_forget]
  split_ifs <;> rfl

theorem last_forget_of_ne (h : key ≠ other) :
    (attempts.forget other).last key = attempts.last key := by
  unfold last
  rw [get_forget, if_neg h]

theorem count_fail : (attempts.fail other now).count key =
    if key = other then attempts.count other + 1 else attempts.count key := by
  unfold fail
  rw [count, Table.get_put]
  split_ifs <;> rfl

theorem last_fail : (attempts.fail other now).last key =
    if key = other then now else attempts.last key := by
  unfold fail
  rw [last, Table.get_put]
  split_ifs <;> rfl

/-- A client is below the limit, past its lock, or locked out. -/
theorem lockedFor_cases (attempts : Attempts) (key : String) (now : ℕ) :
    (attempts.lockedFor key now = (0, attempts) ∧ attempts.count key < maxAttempts) ∨
    (attempts.lockedFor key now = (0, attempts.forget key) ∧
      attempts.last key + lockoutMs ≤ now) ∨
    ∃ seconds, 0 < seconds ∧ attempts.lockedFor key now = (seconds, attempts) := by
  unfold lockedFor
  split_ifs with hcount hlast
  · exact .inl ⟨rfl, hcount⟩
  · exact .inr (.inl ⟨rfl, hlast⟩)
  · exact .inr (.inr ⟨_, by omega, rfl⟩)

end Attempts

/-- A wrong password of the client was judged. -/
def DashboardEvent.isWrong (key : String) : DashboardEvent → Bool
  | .login k _ _ .wrong => k = key
  | _ => false

/-- The count of the client is cleared: by a right password, even if its cookie cannot be signed,
or with all counts. -/
def DashboardEvent.clears (key : String) : DashboardEvent → Bool
  | .login k _ _ (.signedIn _ _) => k = key
  | .login k _ _ (.crashed .noSecret) => k = key
  | .restarted => true
  | _ => false

section Login

variable {node : NodeRuntime} {env : DashboardEnv} {attempts : Attempts} {key : String}
  {body : Option Json} {now : ℕ}

theorem isPassword_eq_error {password : Json} {expected : String} {e : DashboardError}
    (h : isPassword node password expected = .error e) : e = .typeError := by
  unfold isPassword constantTimeEquals at h
  split_ifs at h
  split at h <;> cases h
  rfl

theorem roleForPassword_eq_error {password : Json} {e : DashboardError}
    (h : roleForPassword node env password = .error e) : e = .typeError := by
  unfold roleForPassword at h
  cases hadmin : isPassword node password env.adminPassword with
  | error e' =>
    rw [hadmin] at h
    obtain rfl := Except.error.inj h
    exact isPassword_eq_error hadmin
  | ok isAdmin =>
    cases isAdmin with
    | true =>
      rw [hadmin] at h
      cases h
    | false =>
      cases hviewer : isPassword node password env.viewerPassword with
      | error e' =>
        rw [hadmin, hviewer] at h
        obtain rfl := Except.error.inj h
        exact isPassword_eq_error hviewer
      | ok isViewer =>
        rw [hadmin, hviewer] at h
        cases isViewer <;> cases h

theorem createSession_eq_error {role : Role} {e : DashboardError}
    (h : createSession node env role now = .error e) : e = .noSecret := by
  unfold createSession sign DashboardEnv.secret at h
  dsimp only at h
  split_ifs at h
  · obtain rfl := Except.error.inj h
    rfl
  · cases h

/-- What the rest of a login does to the counters. -/
theorem answerLogin_cases (node : NodeRuntime) (env : DashboardEnv) (attempts : Attempts)
    (key : String) (body : Option Json) (now : ℕ) :
    (∃ response, answerLogin node env attempts key body now = (response, attempts) ∧
      ∀ k, DashboardEvent.isWrong k (.login key body now response) = false ∧
        DashboardEvent.clears k (.login key body now response) = false) ∨
    answerLogin node env attempts key body now = (.wrong, attempts.fail key now) ∨
    ∃ response, answerLogin node env attempts key body now = (response, attempts.forget key) ∧
      ∀ k, DashboardEvent.isWrong k (.login key body now response) = false ∧
        DashboardEvent.clears k (.login key body now response) = decide (key = k) := by
  unfold answerLogin
  cases passwordOf body with
  | none => exact .inl ⟨.invalid, rfl, fun _ => ⟨rfl, rfl⟩⟩
  | some password =>
    dsimp only
    cases hrole : roleForPassword node env password with
    | error e =>
      obtain rfl := roleForPassword_eq_error hrole
      exact .inl ⟨.crashed .typeError, rfl, fun _ => ⟨rfl, rfl⟩⟩
    | ok found =>
      cases found with
      | none => exact .inr (.inl rfl)
      | some role =>
        dsimp only
        cases hsession : createSession node env role now with
        | error e =>
          obtain rfl := createSession_eq_error hsession
          exact .inr (.inr ⟨.crashed .noSecret, rfl, fun _ => ⟨rfl, rfl⟩⟩)
        | ok cookie => exact .inr (.inr ⟨.signedIn role cookie, rfl, fun _ => ⟨rfl, rfl⟩⟩)

end Login

namespace DashboardState

variable {node : NodeRuntime} {env : DashboardEnv} {key : String} {limit start : ℕ}
  {s t : DashboardState} {a : DashboardAction}

/-- The client has no more than `limit` logins waiting for their bodies. -/
def Busy (key : String) (limit : ℕ) (s : DashboardState) : DashboardAction → Prop
  | .arrive k _ => k = key → s.pending.count key < limit
  | _ => True

instance (key : String) (limit : ℕ) (s : DashboardState) (a : DashboardAction) :
    Decidable (Busy key limit s a) := by
  cases a with
  | arrive k now => exact inferInstanceAs (Decidable (k = key → s.pending.count key < limit))
  | _ => exact inferInstanceAs (Decidable True)

/-- What a step at the time `now` means for a client. -/
inductive Effect (key : String) (limit now : ℕ) (s t : DashboardState) : Prop
  | quiet (events : List DashboardEvent)
      (count : t.attempts.count key = s.attempts.count key)
      (last : t.attempts.last key = s.attempts.last key)
      (pending : t.pending.count key ≤ s.pending.count key) (log : t.log = s.log ++ events)
      (others : ∀ e ∈ events, e.isWrong key = false ∧ e.clears key = false)
  | letIn (below : s.attempts.count key < maxAttempts)
      (room : s.pending.count key < limit) (attempts : t.attempts = s.attempts)
      (pending : t.pending.count key = s.pending.count key + 1) (log : t.log = s.log)
  | unlocked (expired : s.attempts.last key + lockoutMs ≤ now)
      (room : s.pending.count key < limit) (count : t.attempts.count key = 0)
      (pending : t.pending.count key = s.pending.count key + 1) (log : t.log = s.log)
  | wrong (e : DashboardEvent) (isWrong : e.isWrong key = true) (clears : e.clears key = false)
      (count : t.attempts.count key = s.attempts.count key + 1)
      (last : t.attempts.last key = now)
      (pending : t.pending.count key + 1 = s.pending.count key) (log : t.log = s.log ++ [e])
  | cleared (e : DashboardEvent) (isWrong : e.isWrong key = false) (clears : e.clears key = true)
      (count : t.attempts.count key = 0)
      (pending : t.pending.count key ≤ s.pending.count key) (log : t.log = s.log ++ [e])

/-- A login that leaves nothing but a check. -/
theorem effect_arrive {k : String} {now : ℕ} (hbusy : Busy key limit s (.arrive k now))
    (hstep : step node env s (.arrive k now) = some t) : Effect key limit now s t := by
  rcases s.attempts.lockedFor_cases k now with ⟨heq, hbelow⟩ | ⟨heq, hexpired⟩ |
    ⟨seconds, hpos, heq⟩
  · simp only [step, heq, lt_irrefl, if_false, Option.some.injEq] at hstep
    subst hstep
    by_cases hk : k = key
    · subst hk
      exact .letIn hbelow (hbusy rfl) rfl (by simp) rfl
    · refine .quiet [] rfl rfl (by simp [hk]) (by simp) fun e he => by cases he
  · simp only [step, heq, lt_irrefl, if_false, Option.some.injEq] at hstep
    subst hstep
    by_cases hk : k = key
    · subst hk
      exact .unlocked hexpired (hbusy rfl) (by rw [Attempts.count_forget, if_pos rfl])
        (by simp) rfl
    · refine .quiet [] ?_ ?_ (by simp [hk]) (by simp) fun e he => by cases he
      · rw [Attempts.count_forget, if_neg (Ne.symm hk)]
      · rw [Attempts.last_forget_of_ne (Ne.symm hk)]
  · simp only [step, heq, hpos, if_true, Option.some.injEq] at hstep
    subst hstep
    refine .quiet [_] rfl rfl le_rfl rfl fun e he => ?_
    obtain rfl := List.mem_singleton.1 he
    exact ⟨rfl, rfl⟩

/-- A login whose body has come. -/
theorem effect_answer {k : String} {body : Option Json} {now : ℕ}
    (hstep : step node env s (.answer k body now) = some t) : Effect key limit now s t := by
  simp only [step] at hstep
  split_ifs at hstep with hmem
  have hother : ∀ hk : k ≠ key, (s.pending.erase k).count key = s.pending.count key :=
    fun hk => List.count_erase_of_ne (Ne.symm hk)
  have hown : (s.pending.erase k).count k + 1 = s.pending.count k := by
    have hpos := List.count_pos_iff.2 hmem
    rw [List.count_erase_self]
    omega
  rcases answerLogin_cases node env s.attempts k body now with ⟨response, heq, hnone⟩ | heq |
    ⟨response, heq, hclears⟩
  · rw [heq] at hstep
    obtain rfl := Option.some.inj hstep
    refine .quiet [_] rfl rfl (List.erase_sublist.count_le key) rfl fun e he => ?_
    obtain rfl := List.mem_singleton.1 he
    exact hnone key
  · rw [heq] at hstep
    obtain rfl := Option.some.inj hstep
    by_cases hk : k = key
    · subst hk
      exact .wrong _ (by simp [DashboardEvent.isWrong]) rfl
        (by rw [Attempts.count_fail, if_pos rfl]) (by rw [Attempts.last_fail, if_pos rfl]) hown rfl
    · refine .quiet [_] ?_ ?_ (hother hk).le rfl fun e he => ?_
      · rw [Attempts.count_fail, if_neg (Ne.symm hk)]
      · rw [Attempts.last_fail, if_neg (Ne.symm hk)]
      · obtain rfl := List.mem_singleton.1 he
        exact ⟨by simp [DashboardEvent.isWrong, hk], rfl⟩
  · rw [heq] at hstep
    obtain rfl := Option.some.inj hstep
    by_cases hk : k = key
    · subst hk
      exact .cleared _ (hclears k).1 ((hclears k).2.trans (decide_eq_true rfl))
        (by rw [Attempts.count_forget, if_pos rfl]) (List.erase_sublist.count_le k) rfl
    · refine .quiet [_] ?_ ?_ (hother hk).le rfl fun e he => ?_
      · rw [Attempts.count_forget, if_neg (Ne.symm hk)]
      · rw [Attempts.last_forget_of_ne (Ne.symm hk)]
      · obtain rfl := List.mem_singleton.1 he
        exact ⟨(hclears key).1, (hclears key).2.trans (decide_eq_false hk)⟩

/-- **What a step can do** to the standing of a client. -/
theorem effect_step (hbusy : Busy key limit s a) (hstep : step node env s a = some t) :
    Effect key limit a.now s t := by
  cases a with
  | arrive k now => exact effect_arrive hbusy hstep
  | answer k body now => exact effect_answer hstep
  | proxy cookie method path search now =>
    obtain rfl := Option.some.inj hstep
    refine .quiet [_] rfl rfl le_rfl rfl fun e he => ?_
    obtain rfl := List.mem_singleton.1 he
    exact ⟨rfl, rfl⟩
  | logout now =>
    obtain rfl := Option.some.inj hstep
    exact .quiet [] rfl rfl le_rfl (by simp) fun e he => by cases he
  | restart now =>
    obtain rfl := Option.some.inj hstep
    exact .cleared _ rfl rfl rfl (Nat.zero_le _) rfl

/-- A count that has reached the limit leaves room only for the logins that are waiting. -/
structure Counted (key : String) (limit : ℕ) (s : DashboardState) : Prop where
  pending : s.pending.count key ≤ limit
  count : maxAttempts ≤ s.attempts.count key →
    s.attempts.count key + s.pending.count key ≤ maxAttempts - 1 + limit

/-- The wrong passwords since the log was `past`, while the times are those of the window that
begins at `start`: those since the count was last cleared are counted, and they keep the lock. -/
structure Guessed (key : String) (limit start : ℕ) (past : List DashboardEvent)
    (s : DashboardState) : Prop where
  counted : Counted key limit s
  events : ∃ recent current, s.log = past ++ recent ∧
    recent.countP (DashboardEvent.isWrong key) ≤
      (maxAttempts - 1 + limit) * recent.countP (DashboardEvent.clears key) + current ∧
    current ≤ s.attempts.count key ∧ (0 < current → start ≤ s.attempts.last key)

theorem Counted.count_le (h : Counted key limit s) :
    s.attempts.count key ≤ maxAttempts - 1 + limit := by
  have hcount := h.count
  unfold maxAttempts at hcount ⊢
  omega

theorem counted_init (key : String) (limit : ℕ) : Counted key limit init where
  pending := Nat.zero_le _
  count h := by
    have hzero : init.attempts.count key = 0 := rfl
    rw [hzero] at h
    exact absurd h (by decide)

theorem Counted.effect (h : Counted key limit s) {now : ℕ} (he : Effect key limit now s t) :
    Counted key limit t := by
  obtain ⟨hpending, hcount⟩ := h
  have hmax : maxAttempts = 10 := rfl
  cases he with
  | quiet events count last pending log others =>
    refine ⟨pending.trans hpending, fun hten => ?_⟩
    rw [count] at hten ⊢
    have hle := hcount hten
    omega
  | letIn below room attempts pending log =>
    refine ⟨by omega, fun hten => ?_⟩
    rw [attempts] at hten
    exact absurd hten (Nat.not_le.2 below)
  | unlocked expired room count pending log =>
    refine ⟨by omega, fun hten => ?_⟩
    rw [count] at hten
    omega
  | wrong e isWrong clears count last pending log =>
    refine ⟨by omega, fun _ => ?_⟩
    -- the login that is judged was itself one of those that waited
    rw [count]
    by_cases hten : maxAttempts ≤ s.attempts.count key
    · have hle := hcount hten
      omega
    · omega
  | cleared e isWrong clears count pending log =>
    refine ⟨by omega, fun hten => ?_⟩
    rw [count] at hten
    omega

theorem Guessed.effect {past : List DashboardEvent} (h : Guessed key limit start past s) {now : ℕ}
    (hnow : start ≤ now ∧ now < start + lockoutMs) (he : Effect key limit now s t) :
    Guessed key limit start past t := by
  refine ⟨h.counted.effect he, ?_⟩
  obtain ⟨recent, current, hlog, hwrong, hcurrent, hlast⟩ := h.events
  have hmost := h.counted.count_le
  cases he with
  | quiet events count last pending log others =>
    have hnone : events.countP (DashboardEvent.isWrong key) = 0 ∧
        events.countP (DashboardEvent.clears key) = 0 :=
      ⟨List.countP_eq_zero.2 fun e he => by simp [(others e he).1],
        List.countP_eq_zero.2 fun e he => by simp [(others e he).2]⟩
    refine ⟨recent ++ events, current, by rw [log, hlog, List.append_assoc], ?_,
      by rw [count]; exact hcurrent, by rw [last]; exact hlast⟩
    rw [List.countP_append, List.countP_append, hnone.1, hnone.2]
    exact hwrong
  | letIn below room attempts pending log =>
    exact ⟨recent, current, by rw [log, hlog], hwrong, by rw [attempts]; exact hcurrent,
      by rw [attempts]; exact hlast⟩
  | unlocked expired room count pending log =>
    -- the lock that has passed is older than the window, and nothing in it was counted
    have hzero : current = 0 := by
      by_contra hne
      have hle := hlast (Nat.pos_of_ne_zero hne)
      omega
    exact ⟨recent, 0, by rw [log, hlog], by rw [hzero] at hwrong; exact hwrong, Nat.zero_le _,
      fun h => absurd h (lt_irrefl 0)⟩
  | wrong e isWrong clears count last pending log =>
    refine ⟨recent ++ [e], current + 1, by rw [log, hlog, List.append_assoc], ?_, by omega,
      fun _ => by rw [last]; exact hnow.1⟩
    rw [List.countP_append, List.countP_append, List.countP_singleton, List.countP_singleton,
      if_pos isWrong, if_neg (by simp [clears])]
    simp only [Nat.add_zero]
    omega
  | cleared e isWrong clears count pending log =>
    refine ⟨recent ++ [e], 0, by rw [log, hlog, List.append_assoc], ?_, Nat.zero_le _,
      fun h => absurd h (lt_irrefl 0)⟩
    rw [List.countP_append, List.countP_append, List.countP_singleton, List.countP_singleton,
      if_neg (by simp [isWrong]), if_pos clears, Nat.mul_add, Nat.mul_one]
    omega

/-- **Guessing is slow.** Take any run in which a client never has more than `limit` logins waiting
for their bodies, and a part of it that is shorter than the lock. In that part, no more than
`9 + limit` wrong passwords of the client are judged for each stretch in which its count is not
cleared. -/
theorem guesses_bounded {early recent : List DashboardAction}
    (hs : run (step node env) init early = some s) (ht : run (step node env) s recent = some t)
    (hbusy : Along (step node env) (Busy key limit) init (early ++ recent))
    (hwindow : ∀ a ∈ recent, start ≤ a.now ∧ a.now < start + lockoutMs) :
    ∃ events, t.log = s.log ++ events ∧
      events.countP (DashboardEvent.isWrong key) ≤
        (maxAttempts - 1 + limit) * (events.countP (DashboardEvent.clears key) + 1) := by
  have hcounted : Counted key limit s :=
    run_invariant (fun s a t h hbusy hstep => h.effect (effect_step hbusy hstep))
      (counted_init key limit) (along_append.1 hbusy).1 hs
  have hguessed : Guessed key limit start s.log t :=
    run_invariant
      (fun s a t h hok hstep => h.effect hok.2 (effect_step hok.1 hstep))
      (⟨hcounted, [], 0, by simp, Nat.zero_le _, Nat.zero_le _, fun h => absurd h (lt_irrefl 0)⟩ :
        Guessed key limit start s.log s)
      (along_and ((along_append.1 hbusy).2 s hs) (along_of_actions hwindow s)) ht
  obtain ⟨events, current, hlog, hwrong, hcurrent, -⟩ := hguessed.events
  have hmost := hguessed.counted.count_le
  refine ⟨events, hlog, ?_⟩
  rw [Nat.mul_add, Nat.mul_one]
  omega

/-- Ten wrong passwords, one every second, and an eleventh login. -/
def tenGuesses : List DashboardAction :=
  (List.range 10).flatMap (fun i => [.arrive "shared" (1000 * i),
    .answer "shared" (some (.dict [("password", .str "password")])) (1000 * i + 500)]) ++
    [.arrive "shared" 10000]

/-- One client that waits for its answers has ten guesses, and the eleventh is not looked at. -/
theorem guesses_bounded_tenGuesses : ∃ t,
    run (step nodeAtSignIn envAtSignIn) init tenGuesses = some t ∧
      t.log.countP (DashboardEvent.isWrong "shared") ≤ 10 := by
  have hclears : (run (step nodeAtSignIn envAtSignIn) init tenGuesses).map
      (fun t => t.log.countP (DashboardEvent.clears "shared")) = some 0 := by decide +kernel
  obtain ⟨t, ht, hzero⟩ := Option.map_eq_some_iff.1 hclears
  have hbusy : Along (step nodeAtSignIn envAtSignIn) (Busy "shared" 1) init ([] ++ tenGuesses) := by
    decide +kernel
  have hwindow : ∀ a ∈ tenGuesses, 0 ≤ a.now ∧ a.now < 0 + lockoutMs := by decide +kernel
  obtain ⟨events, hlog, hwrong⟩ := guesses_bounded rfl ht hbusy hwindow
  obtain rfl : events = t.log := hlog.symm
  rw [hzero] at hwrong
  exact ⟨t, ht, hwrong⟩

end DashboardState

/-! ### Being let through -/

section Login

variable {node : NodeRuntime} {env : DashboardEnv}

/-- The password of a role. -/
def DashboardEnv.passwordFor (env : DashboardEnv) (role : Role) : String :=
  match role with
  | .admin => env.adminPassword
  | .viewer => env.viewerPassword

theorem roleForPassword_eq_some {password : Json} {role : Role}
    (h : roleForPassword node env password = .ok (some role)) :
    isPassword node password (env.passwordFor role) = .ok true := by
  unfold roleForPassword at h
  cases hadmin : isPassword node password env.adminPassword with
  | error e =>
    rw [hadmin] at h
    cases h
  | ok isAdmin =>
    cases isAdmin with
    | true =>
      rw [hadmin] at h
      obtain rfl : Role.admin = role := Option.some.inj (Except.ok.inj h)
      exact hadmin
    | false =>
      cases hviewer : isPassword node password env.viewerPassword with
      | error e =>
        rw [hadmin, hviewer] at h
        cases h
      | ok isViewer =>
        rw [hadmin, hviewer] at h
        cases isViewer with
        | true =>
          obtain rfl : Role.viewer = role := Option.some.inj (Except.ok.inj h)
          exact hviewer
        | false => cases h

/-- Who signs in knows the password of the role. -/
theorem answerLogin_eq_signedIn {attempts attempts' : Attempts} {key cookie : String}
    {body : Option Json} {now : ℕ} {role : Role}
    (h : answerLogin node env attempts key body now = (.signedIn role cookie, attempts')) :
    ∃ password, passwordOf body = some password ∧
      isPassword node password (env.passwordFor role) = .ok true := by
  unfold answerLogin at h
  cases hpassword : passwordOf body with
  | none =>
    rw [hpassword] at h
    cases h
  | some password =>
    rw [hpassword] at h
    dsimp only at h
    cases hrole : roleForPassword node env password with
    | error e =>
      rw [hrole] at h
      cases h
    | ok found =>
      rw [hrole] at h
      cases found with
      | none => cases h
      | some role' =>
        dsimp only at h
        split at h
        · cases h
        · obtain ⟨hresponse, -⟩ := Prod.mk.inj h
          obtain ⟨rfl, -⟩ := LoginResponse.signedIn.inj hresponse
          exact ⟨password, rfl, roleForPassword_eq_some hrole⟩

end Login

namespace DashboardState

section Access

variable (node : NodeRuntime) (env : DashboardEnv)

/-- A cookie with a right signature is one that a login has given out. -/
def Unforged (s : DashboardState) : DashboardAction → Prop
  | .proxy cookie _ _ _ _ => ∀ payload signature,
      cookie.bind cookieParts = some (payload, signature) → sign node env payload = .ok signature →
      ∃ key body issued role value, .login key body issued (.signedIn role value) ∈ s.log ∧
        payload = sessionPayload role issued
  | _ => True

/-- The answer was right after these events. -/
def Entitled (past : List DashboardEvent) : DashboardEvent → Prop
  | .login _ body now (.signedIn role _) => now ≤ maxDate ∧ ∃ password,
      passwordOf body = some password ∧
        isPassword node password (env.passwordFor role) = .ok true
  | .proxied now (.forwarded call) =>
      call = callRorch env call.role call.method call.path ∧
      isAllowed call.role call.method call.path = true ∧
      ∃ key body issued value, .login key body issued (.signedIn call.role value) ∈ past ∧
        now / 1000 ≤ issued / 1000 + sessionMaxAge
  | _ => True

end Access

variable {node : NodeRuntime} {env : DashboardEnv} {s t : DashboardState} {a : DashboardAction}

theorem entitled_login {past : List DashboardEvent} {key : String} {body : Option Json} {now : ℕ}
    (hnow : now ≤ maxDate) (attempts : Attempts) :
    Entitled node env past
      (.login key body now (answerLogin node env attempts key body now).1) := by
  rcases hanswer : answerLogin node env attempts key body now with ⟨response, attempts'⟩
  cases response with
  | signedIn role cookie => exact ⟨hnow, answerLogin_eq_signedIn hanswer⟩
  | _ => trivial

theorem entitled_proxied (hnode : node.Documented)
    (hlog : EachEvent (Entitled node env) s.log) {cookie : Option String} {method search : String}
    {path : List String} {now : ℕ}
    (hunforged : Unforged node env s (.proxy cookie method path search now)) :
    Entitled node env s.log
      (.proxied now (RunnerSwarm.proxy node env cookie method path search now)) := by
  unfold RunnerSwarm.proxy
  cases hread : readSession node env cookie now with
  | error e => trivial
  | ok found =>
    cases found with
    | none => trivial
    | some session =>
      dsimp only
      split_ifs with hallowed
      case neg => trivial
      obtain ⟨payload, signature, hparts, hsign, hsession⟩ := readSession_eq_some hread
      obtain ⟨key, body, issued, role, value, hlogin, rfl⟩ :=
        hunforged payload signature hparts hsign
      -- the login was itself answered rightly, so its cookie is read as it was written
      have hissued : issued ≤ maxDate := by
        obtain ⟨past, later, hsplit⟩ := List.append_of_mem hlogin
        exact (hlog past _ later hsplit).1
      have hpayload : node.unb64 (sessionPayload role issued) =
          stringifySession role (issued / 1000 + sessionMaxAge) := unb64_b64 hnode _
      rw [hpayload, sessionOf_stringify hnode role (exp_exact hissued)] at hsession
      split_ifs at hsession with hexpired
      obtain rfl := Option.some.inj hsession
      exact ⟨rfl, hallowed, key, body, issued, value, hlogin, Nat.le_of_not_lt hexpired⟩

theorem entitled_step (hnode : node.Documented) (hlog : EachEvent (Entitled node env) s.log)
    (hok : Unforged node env s a ∧ a.now ≤ maxDate) (hstep : step node env s a = some t) :
    EachEvent (Entitled node env) t.log := by
  cases a with
  | arrive key now =>
    simp only [step] at hstep
    split_ifs at hstep
    · obtain rfl := Option.some.inj hstep
      exact hlog.concat trivial
    · obtain rfl := Option.some.inj hstep
      exact hlog
  | answer key body now =>
    simp only [step] at hstep
    split_ifs at hstep
    obtain rfl := Option.some.inj hstep
    exact hlog.concat (entitled_login hok.2 s.attempts)
  | proxy cookie method path search now =>
    obtain rfl := Option.some.inj hstep
    exact hlog.concat (entitled_proxied hnode hlog hok.1)
  | logout now =>
    obtain rfl := Option.some.inj hstep
    exact hlog
  | restart now =>
    obtain rfl := Option.some.inj hstep
    exact hlog.concat trivial

/-- **Only who signed in is let through.** When signatures cannot be forged, every request that the
dashboard forwards, in any run, is allowed to its role and carries the token of that role, and before
it, at most twelve hours earlier by the second, someone signed in with the password of the role. -/
theorem forwards_authorized (hnode : node.Documented) {actions : List DashboardAction}
    (hs : run (step node env) init actions = some s)
    (hok : Along (step node env) (fun s a => Unforged node env s a ∧ a.now ≤ maxDate) init actions)
    {past later : List DashboardEvent} {now : ℕ} {call : RorchCall}
    (hlog : s.log = past ++ .proxied now (.forwarded call) :: later) :
    call = callRorch env call.role call.method call.path ∧
      isAllowed call.role call.method call.path = true ∧
      ∃ key body issued value password,
        .login key body issued (.signedIn call.role value) ∈ past ∧
          passwordOf body = some password ∧
          isPassword node password (env.passwordFor call.role) = .ok true ∧
          now / 1000 ≤ issued / 1000 + sessionMaxAge := by
  have hentitled : EachEvent (Entitled node env) s.log :=
    run_invariant (fun s a t h hok hstep => entitled_step hnode h hok hstep) eachEvent_nil hok hs
  obtain ⟨hcall, hallowed, key, body, issued, value, hlogin, htime⟩ := hentitled past _ later hlog
  obtain ⟨before, after, hsplit⟩ := List.append_of_mem hlogin
  obtain ⟨-, password, hpassword, hmatch⟩ :=
    hentitled before _ (after ++ .proxied now (.forwarded call) :: later) (by
      rw [hlog, hsplit, List.append_assoc, List.cons_append])
  exact ⟨hcall, hallowed, key, body, issued, value, password, hlogin, hpassword, hmatch, htime⟩

/-- The cookie of that sign-in. -/
def cookieAtSignIn : String :=
  "eyJyb2xlIjoiYWRtaW4iLCJleHAiOjE3MDAwNDMyMDB9.-tjLr4pWP8tdZArKP5K-SzMLtST3dlMvOnCcvL5-BFo"

/-- An administrator signs in, and stops a pool an hour later. -/
def stopAPool : List DashboardAction :=
  [.arrive "shared" signInTime,
    .answer "shared" (some (.dict [("password", .str "correct horse")])) signInTime,
    .proxy (some cookieAtSignIn) "POST" ["api", "pools", "ci", "pause"] "" (signInTime + 3600000)]

/-- The request has the token of the administrator. -/
theorem forwards_authorized_stopAPool : ∃ s past now call,
    run (step nodeAtSignIn envAtSignIn) init stopAPool = some s ∧
      s.log = past ++ [.proxied now (.forwarded call)] ∧
      call.authorization = some "Bearer control" ∧
      ∃ key body issued value password,
        .login key body issued (.signedIn .admin value) ∈ past ∧
          passwordOf body = some password ∧
          isPassword nodeAtSignIn password "correct horse" = .ok true ∧
          now / 1000 ≤ issued / 1000 + sessionMaxAge := by
  rcases hanswer : answerLogin nodeAtSignIn envAtSignIn .empty "shared"
    (some (.dict [("password", .str "correct horse")])) signInTime with ⟨response, attempts⟩
  have hresponse : response = .signedIn .admin cookieAtSignIn := by
    have hfst : (answerLogin nodeAtSignIn envAtSignIn .empty "shared"
        (some (.dict [("password", .str "correct horse")])) signInTime).1 =
        .signedIn .admin cookieAtSignIn := by decide +kernel
    rw [hanswer] at hfst
    exact hfst
  have hcall : RunnerSwarm.proxy nodeAtSignIn envAtSignIn (some cookieAtSignIn) "POST"
      ["api", "pools", "ci", "pause"] "" (signInTime + 3600000) =
      .forwarded (callRorch envAtSignIn .admin "POST" "/api/pools/ci/pause") := by decide +kernel
  have hparts : cookieParts cookieAtSignIn = some (sessionPayload .admin signInTime,
      "-tjLr4pWP8tdZArKP5K-SzMLtST3dlMvOnCcvL5-BFo") := by decide +kernel
  have hbody : step nodeAtSignIn envAtSignIn ⟨.empty, ["shared"], []⟩
      (.answer "shared" (some (.dict [("password", .str "correct horse")])) signInTime) =
      some ⟨attempts, [], [.login "shared" (some (.dict [("password", .str "correct horse")]))
        signInTime response]⟩ := by
    simp only [step, List.mem_singleton, if_true, hanswer]
    rfl
  have hsent : ∀ s : DashboardState, step nodeAtSignIn envAtSignIn s (.proxy (some cookieAtSignIn)
      "POST" ["api", "pools", "ci", "pause"] "" (signInTime + 3600000)) = some { s with
        log := s.log ++ [.proxied (signInTime + 3600000)
          (.forwarded (callRorch envAtSignIn .admin "POST" "/api/pools/ci/pause"))] } := by
    intro s
    simp only [step, hcall]
  have harrive : step nodeAtSignIn envAtSignIn init (.arrive "shared" signInTime) =
      some ⟨.empty, ["shared"], []⟩ := rfl
  obtain rfl := hresponse
  have hrun : run (step nodeAtSignIn envAtSignIn) init stopAPool = some ⟨attempts, [],
      [.login "shared" (some (.dict [("password", .str "correct horse")])) signInTime
        (.signedIn .admin cookieAtSignIn)] ++ [.proxied (signInTime + 3600000)
          (.forwarded (callRorch envAtSignIn .admin "POST" "/api/pools/ci/pause"))]⟩ := by
    unfold stopAPool
    rw [run_cons, harrive, Option.bind_some, run_cons, hbody, Option.bind_some, run_cons, hsent,
      Option.bind_some, run_nil]
  have hok : Along (step nodeAtSignIn envAtSignIn)
      (fun s a => Unforged nodeAtSignIn envAtSignIn s a ∧ a.now ≤ maxDate) init stopAPool := by
    refine ⟨⟨trivial, by decide⟩, fun t ht => ?_⟩
    rw [harrive] at ht
    obtain rfl := Option.some.inj ht
    refine ⟨⟨trivial, by decide⟩, fun t ht => ?_⟩
    rw [hbody] at ht
    obtain rfl := Option.some.inj ht
    refine ⟨⟨fun payload signature hcookie _ => ?_, by decide⟩, fun _ _ => trivial⟩
    have hsame := Option.some.inj (hparts.symm.trans hcookie)
    exact ⟨"shared", _, signInTime, .admin, cookieAtSignIn, List.mem_singleton_self _,
      (congrArg Prod.fst hsame).symm⟩
  have hauthorized := forwards_authorized nodeAtSignIn_documented hrun hok rfl
  exact ⟨_, _, _, _, hrun, rfl, rfl, hauthorized.2.2⟩

end DashboardState

end RunnerSwarm
