import RunnerSwarm.Server.Deps

/-!
# Authorization

A request presents a token in its `Authorization` header, as `?token=` or in a cookie; the header
wins when it has the form of a bearer token. `scope` says what the token grants and `authorize`
whether the request may proceed, which also keeps the guard's counters.

`hmac.compare_digest` raises for text that is not ASCII.

* `scope_eq_write` and `authorize_eq_none`: with both tokens configured, a guarded view runs
  for the control token only, and for the read-only token unless it needs write access;
* `authorize_write_token`: the control token opens every view while the client is not locked out.
-/

namespace RunnerSwarm

inductive Scope
  | read
  | write
  deriving DecidableEq

/-! ### The presented token -/

namespace Request

variable (r : Request)

/-- The token of the header, when it has the form of a bearer token. -/
def bearer : Option String :=
  let header := r.authorization.getD ""
  if startsWith header "Bearer " then some (String.ofList (header.toList.drop "Bearer ".length))
  else none

/-- `_supplied_token`. -/
def suppliedToken : String :=
  match r.bearer with
  | some token => token
  | none =>
      let arg := (r.arg "token").getD ""
      if arg ≠ "" then arg else r.cookie.getD ""

/-- Everything the request presents as a token. -/
def credentials : List String :=
  r.bearer.toList ++ (r.arg "token").toList ++ r.cookie.toList

theorem suppliedToken_mem (h : r.suppliedToken ≠ "") : r.suppliedToken ∈ r.credentials := by
  unfold suppliedToken at h ⊢
  unfold credentials
  cases hbearer : r.bearer with
  | some token => simp
  | none =>
    rw [hbearer] at h
    dsimp only at h ⊢
    split_ifs at h ⊢ with harg
    · cases htoken : r.arg "token" with
      | none => simp [htoken] at harg
      | some token => simp
    · cases hcookie : r.cookie with
      | none => simp [hcookie] at h
      | some token => simp

end Request

/-! ### Scopes -/

/-- `hmac.compare_digest` of two strings. -/
def compareDigest (a b : String) : Except PyError Bool :=
  if isAscii a && isAscii b then .ok (a = b) else .error .typeError

theorem compareDigest_self {a : String} (h : isAscii a = true) : compareDigest a a = .ok true := by
  simp [compareDigest, h]

theorem eq_of_compareDigest {a b : String} (h : compareDigest a b = .ok true) : a = b := by
  unfold compareDigest at h
  split_ifs at h
  simpa using h

/-- A configured token that equals the supplied one; an empty token is not configured. -/
def matchesToken (supplied token : String) : Except PyError Bool :=
  if token = "" then .ok false else compareDigest supplied token

namespace Deps

variable (d : Deps)

/-- `_scope`. No configured token at all means open access. -/
def scope (supplied : String) : Except PyError (Option Scope) := do
  if d.token = "" ∧ d.readonlyToken = "" then return some .write
  if ← matchesToken supplied d.token then return some .write
  if ← matchesToken supplied d.readonlyToken then return some .read
  return none

/-- With a control token configured, only that token grants write access. -/
theorem scope_eq_write {supplied : String} (hT : d.token ≠ "")
    (h : d.scope supplied = .ok (some .write)) : supplied = d.token := by
  unfold scope at h
  rw [if_neg (fun hopen => hT hopen.1)] at h
  obtain ⟨control, hcontrol, h⟩ := bind_eq_ok h
  obtain rfl | rfl : control = true ∨ control = false := by cases control <;> simp
  · unfold matchesToken at hcontrol
    rw [if_neg hT] at hcontrol
    exact eq_of_compareDigest hcontrol
  · obtain ⟨view, -, h⟩ := bind_eq_ok h
    cases view <;> cases h

theorem scope_token (hT : d.token ≠ "") (hascii : isAscii d.token = true) :
    d.scope d.token = .ok (some .write) := by
  unfold scope
  rw [if_neg (fun hopen => hT hopen.1)]
  unfold matchesToken
  rw [if_neg hT, compareDigest_self hascii]
  rfl

/-! ### Refusals -/

/-- The answer while the client is locked out. -/
def tooManyAttempts (retryAfter : ℤ) : Response :=
  let response := d.toSite.answer [("error", .str "too many failed attempts")] 429
  { response with headers := response.headers ++ [("Retry-After", toString retryAfter)] }

def unauthorized : Response := d.toSite.answer [("error", .str "unauthorized")] 401

def writeRefused : Response :=
  d.toSite.answer
    [("error", .str "read-only token: this action requires the control token")] 403

/-- `_authorize`: `none` when the request may proceed, else the answer to it. -/
def authorize (g : TokenGuard) (clock : Clock) (r : Request) (write : Bool) :
    Except PyError (Option Response) × TokenGuard :=
  let (locked, g) := g.lockedUntil r.client clock.judged
  if locked ≠ 0 then
    (.ok (some (d.tooManyAttempts (max 1 (truncate (locked - clock.recorded))))), g)
  else
    match d.scope r.suppliedToken with
    | .error error => (.error error, g)
    | .ok none => (.ok (some d.unauthorized), g.recordFailure r.client clock.recorded)
    | .ok (some scope) =>
        (.ok (if write = true ∧ scope ≠ .write then some d.writeRefused else none),
          g.recordSuccess r.client)

/-- Whether the request may proceed. -/
def mayProceed : Except PyError (Option Response) → Bool
  | .ok none => true
  | _ => false

theorem mayProceed_iff {x : Except PyError (Option Response)} :
    mayProceed x = true ↔ x = .ok none := by
  rcases x with error | _ | denied <;> simp [mayProceed]

variable {d} {g : TokenGuard} {clock : Clock} {r : Request} {write : Bool}

/-- A request that may proceed has been found to have a scope. -/
theorem authorize_eq_none (h : (d.authorize g clock r write).1 = .ok none) :
    ∃ scope, d.scope r.suppliedToken = .ok (some scope) ∧ (write = true → scope = .write) := by
  unfold authorize at h
  dsimp only at h
  split_ifs at h with hlocked
  · cases h
  · cases hscope : d.scope r.suppliedToken with
    | error error =>
      rw [hscope] at h
      cases h
    | ok granted =>
      rw [hscope] at h
      cases granted with
      | none => cases h
      | some scope =>
        refine ⟨scope, rfl, fun hwrite => ?_⟩
        by_contra hread
        dsimp only at h
        rw [if_pos ⟨hwrite, hread⟩] at h
        cases h

/-- **The control token opens every view** to a client that is not locked out. -/
theorem authorize_write_token (hT : d.token ≠ "") (hascii : isAscii d.token = true)
    (htoken : r.suppliedToken = d.token) (hlocked : (g.lockedUntil r.client clock.judged).1 = 0) :
    (d.authorize g clock r write).1 = .ok none := by
  unfold authorize
  dsimp only
  rw [if_neg (not_not_intro hlocked), htoken, d.scope_token hT hascii]
  dsimp only
  rw [if_neg (fun h => h.2 rfl)]

/-- What a refusal looks like. -/
theorem authorize_eq_some {denied : Response}
    (h : (d.authorize g clock r write).1 = .ok (some denied)) :
    (∃ retryAfter, denied = d.tooManyAttempts retryAfter) ∨ denied = d.unauthorized ∨
      denied = d.writeRefused := by
  unfold authorize at h
  dsimp only at h
  split_ifs at h with hlocked
  · cases h
    exact .inl ⟨_, rfl⟩
  · cases hscope : d.scope r.suppliedToken with
    | error error =>
      rw [hscope] at h
      cases h
    | ok granted =>
      rw [hscope] at h
      cases granted with
      | none =>
        cases h
        exact .inr (.inl rfl)
      | some scope =>
        dsimp only at h
        split_ifs at h
        · cases h
          exact .inr (.inr rfl)
        · cases h

end Deps

end RunnerSwarm
