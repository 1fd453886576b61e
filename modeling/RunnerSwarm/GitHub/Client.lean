import RunnerSwarm.Lib.Lru
import RunnerSwarm.Python

/-!
# The client's bookkeeping

What `GitHubClient` keeps between requests and how one answer changes it: the cooldown of each
token, the count of its secondary limits, and the bounded cache of conditional responses. Tokens
are keyed by their digest; `loads` is `json.loads`. Each definition is what the code does while it
holds `_state_lock`, at one reading of the wall clock.

* `raiseIfBlocked` is the check before a request;
* `handle` is what follows the answer, up to the value `_request` returns or the error it raises;
* `Handled` lists its cases, and the lemmas about it are what the rest needs: `cooldown` (a limit
  records a cooldown for its own token, any other answer leaves all of them), `mem_cache` and
  `length_cache` (where a cached response comes from, and that the cache stays within its bound)
  and `of_value` (what a returned value was decoded from).
-/

namespace RunnerSwarm

/-- Response headers, by name. -/
abbrev Headers := String → Option String

/-- Last successful GET response and its validator. -/
structure ConditionalResponse (γ : Type*) where
  etag : String
  data : γ
  deriving DecidableEq

/-- What leaves `_request` as an exception: `GitHubRateLimitError`, or any other one that is raised
where no handler stands around it. -/
inductive GitHubError
  | rateLimit (retryAt : ℚ) (reason : String)
  | other
  deriving DecidableEq

inductive HttpMethod
  | get
  | post
  | patch
  | put
  | delete
  deriving DecidableEq

/-- `method in {"POST", "PATCH", "PUT", "DELETE"}`. -/
def HttpMethod.isMutation : HttpMethod → Bool
  | .get => false
  | .post => true
  | .patch => true
  | .put => true
  | .delete => true

/-- How the server answers: with a response, with an `HTTPError` whose text may be unreadable, or
not at all. -/
inductive HttpAnswer (β : Type*)
  | ok (status : ℕ) (headers : Headers) (body : β)
  | httpError (code : ℕ) (headers : Headers) (text : Option String)
  | failed

/-- What a request ends with: decoded data, whether a DELETE was done, `None`, or an error. -/
inductive Outcome (γ : Type*)
  | value (data : γ)
  | deleted (done : Bool)
  | none
  | raised (error : GitHubError)
  deriving DecidableEq

def maxConditionalCacheEntries : ℕ := 2048

def secondaryRateLimitBaseSeconds : ℕ := 60

def secondaryRateLimitMaxSeconds : ℕ := 900

/-- The state of a client; `reserve` is its `rate_limit_reserve`. -/
structure GitHubClient (δ γ : Type*) where
  reserve : ℤ := 100
  blockedUntil : Table δ ℚ := Table.empty
  secondaryFailures : Table δ ℕ := Table.empty
  conditionalCache : Table (δ × String) (ConditionalResponse γ) := Table.empty
  lastMutationAt : ℚ := 0
  lastRemaining : Option ℤ := none
  lastResetAt : Option ℚ := none
  blockedUntilAny : ℚ := 0

/-- `_parse_int_header`. -/
def parseIntHeader (headers : Headers) (name : String) : Option ℤ :=
  (headers name).bind intOfString

/-- `float(n)` of an int, `none` for an `OverflowError`. -/
def floatOfInt (n : ℤ) : Option ℚ := if roundFloat n = .finite n then some n else none

/-- `_is_rate_limit_error`. -/
def isRateLimitError (code : ℕ) (headers : Headers) (body : String) : Bool :=
  code = 429 || headers "X-RateLimit-Remaining" = some "0" || hasText (lower body) "rate limit" ||
    (headers "Retry-After").isSome

/-- The response leaves no more than the reserve, and the budget is not yet reset. -/
def reserveReached (reserve : ℤ) (headers : Headers) (now : ℚ) : Bool :=
  match parseIntHeader headers "X-RateLimit-Remaining",
    parseIntHeader headers "X-RateLimit-Reset" with
  | some remaining, some resetAt => remaining ≤ reserve && now < resetAt
  | _, _ => false

namespace GitHubClient

variable {δ γ : Type*} [DecidableEq δ]

/-- `_raise_if_blocked`. -/
def raiseIfBlocked (c : GitHubClient δ γ) (token : δ) (now : ℚ) :
    Except GitHubError (GitHubClient δ γ) :=
  let blockedUntil := (c.blockedUntil.get token).getD 0
  if blockedUntil ≤ now then .ok { c with blockedUntil := c.blockedUntil.erase token }
  else .error (.rateLimit blockedUntil "GitHub API cooldown is active")

/-- `_block_token`. -/
def blockToken (c : GitHubClient δ γ) (token : δ) (retryAt : ℚ) : GitHubClient δ γ :=
  let previous := (c.blockedUntil.get token).getD 0
  { c with
    blockedUntil := c.blockedUntil.put token (max previous retryAt)
    blockedUntilAny := max c.blockedUntilAny retryAt }

/-- `_update_rate_limit`. -/
def updateRateLimit (c : GitHubClient δ γ) (token : δ) (headers : Headers) (now : ℚ) :
    GitHubClient δ γ × Option GitHubError :=
  let remaining := parseIntHeader headers "X-RateLimit-Remaining"
  let c := { c with lastRemaining := remaining.orElse fun _ => c.lastRemaining }
  match parseIntHeader headers "X-RateLimit-Reset" with
  | none => (c, none)
  | some resetAt =>
      match floatOfInt resetAt with
      -- `float` of a huge integer raises
      | none => (c, some .other)
      | some reset =>
          let c := { c with lastResetAt := some reset }
          if reserveReached c.reserve headers now then
            match floatOfInt (resetAt + 1) with
            | none => (c, some .other)
            | some retryAt =>
                let left := remaining.getD 0
                (c.blockToken token retryAt,
                  some (.rateLimit retryAt s!"GitHub API reserve reached ({left} remaining)"))
          else (c, none)

/-- `_rate_limit_retry`: the client with its failures counted, the end of the cooldown and the
reason. -/
def rateLimitRetry (c : GitHubClient δ γ) (token : δ) (headers : Headers) (now : ℚ)
    (body : String) : Option (GitHubClient δ γ × ℚ × String) :=
  match parseIntHeader headers "Retry-After" with
  | some retryAfter =>
      (floatOfInt retryAfter).map fun seconds =>
        (c, now + seconds, s!"GitHub requested retry after {retryAfter}s")
  | none =>
      match parseIntHeader headers "X-RateLimit-Remaining",
        parseIntHeader headers "X-RateLimit-Reset" with
      | some 0, some resetAt =>
          (floatOfInt (resetAt + 1)).map fun retryAt =>
            (c, retryAt,
              "GitHub primary rate limit exhausted: " ++ String.ofList (body.toList.take 120))
      | _, _ =>
          -- no header says when, so the pause doubles with each failure
          let failures := (c.secondaryFailures.get token).getD 0 + 1
          let delay :=
            min (secondaryRateLimitBaseSeconds * 2 ^ (failures - 1)) secondaryRateLimitMaxSeconds
          some ({ c with secondaryFailures := c.secondaryFailures.put token failures },
            now + delay, s!"GitHub secondary rate limit; backing off {delay}s")

/-- `_cache_conditional_response`; an empty `ETag` counts as none. -/
def cacheConditionalResponse (c : GitHubClient δ γ) (key : δ × String) (etag : Option String)
    (data : γ) : GitHubClient δ γ :=
  { c with
    conditionalCache :=
      match etag with
      | none => c.conditionalCache.erase key
      | some etag =>
          if etag = "" then c.conditionalCache.erase key
          else (c.conditionalCache.putLast key ⟨etag, data⟩).trim maxConditionalCacheEntries }

/-- `_secondary_failures.pop`. -/
def clearFailures (c : GitHubClient δ γ) (token : δ) : GitHubClient δ γ :=
  { c with secondaryFailures := c.secondaryFailures.erase token }

/-- `move_to_end` in the conditional cache. -/
def touch (c : GitHubClient δ γ) (key : δ × String) : GitHubClient δ γ :=
  { c with conditionalCache := c.conditionalCache.moveToEnd key }

/-- `_rate_limit_retry` and `_block_token`, and the error that is raised. -/
def block (c : GitHubClient δ γ) (token : δ) (headers : Headers) (now : ℚ) (text : String) :
    GitHubClient δ γ × GitHubError :=
  match c.rateLimitRetry token headers now text with
  | none => (c, .other)
  | some (c, retryAt, reason) => (c.blockToken token retryAt, .rateLimit retryAt reason)

/-- What `_request` does with an `HTTPError` that does not use the cache; the text may be
unreadable. -/
def refuse (c : GitHubClient δ γ) (token : δ) (code : ℕ) (headers : Headers) (now : ℚ) :
    Option String → GitHubClient δ γ × Outcome γ
  | none => (c, .raised .other)
  | some text =>
      if isRateLimitError code headers text then
        let (c, error) := c.block token headers now text
        (c, .raised error)
      else (c, .none)

/-- What `_request` does with the answer. `cached` is the response whose `ETag` was sent. -/
def handle {β : Type*} (loads : β → Option γ) (c : GitHubClient δ γ) (token : δ) (path : String)
    (method : HttpMethod) (cached : Option (ConditionalResponse γ)) (now : ℚ) :
    HttpAnswer β → GitHubClient δ γ × Outcome γ
  | .ok status headers body =>
      match c.updateRateLimit token headers now with
      -- only `GitHubRateLimitError` leaves the `try`
      | (c, some .other) => (c, .none)
      | (c, some error) => (c, .raised error)
      | (c, none) =>
          let c := c.clearFailures token
          -- the body of a DELETE is not read
          if method = .delete then (c, .deleted (status = 204))
          else
            match loads body with
            | none => (c, .none)
            | some data =>
                (c.cacheConditionalResponse (token, path) (headers "ETag") data, .value data)
  | .httpError code headers text =>
      match code, cached with
      | 304, some cached =>
          -- the handler's own errors are not caught again
          match c.updateRateLimit token headers now with
          | (c, some error) => (c, .raised error)
          | (c, none) => ((c.clearFailures token).touch (token, path), .value cached.data)
      | _, _ => c.refuse token code headers now text
  | .failed => (c, .none)

/-! ### The cases of an answer -/

/-- The client once headers were read. -/
def seen (c : GitHubClient δ γ) (remaining : Option ℤ) (resetAt : Option ℚ) : GitHubClient δ γ :=
  { c with lastRemaining := remaining, lastResetAt := resetAt }

/-- A request passes the check when the cooldown of its token is over, which is then forgotten. -/
theorem raiseIfBlocked_ok {c c' : GitHubClient δ γ} {token : δ} {now : ℚ}
    (h : c.raiseIfBlocked token now = .ok c') :
    (c.blockedUntil.get token).getD 0 ≤ now ∧
      c' = { c with blockedUntil := c.blockedUntil.erase token } := by
  unfold raiseIfBlocked at h
  dsimp only at h
  split_ifs at h with hover
  exact ⟨hover, (Except.ok.inj h).symm⟩

theorem raiseIfBlocked_error {c : GitHubClient δ γ} {token : δ} {now : ℚ} {error : GitHubError}
    (h : c.raiseIfBlocked token now = .error error) :
    ∃ retryAt reason, error = .rateLimit retryAt reason := by
  unfold raiseIfBlocked at h
  dsimp only at h
  split_ifs at h
  exact ⟨_, _, (Except.error.inj h).symm⟩

/-- Reading the headers raises only when the reserve is reached, or a number is out of range. -/
theorem updateRateLimit_cases (c : GitHubClient δ γ) (token : δ) (headers : Headers) (now : ℚ) :
    ∃ remaining resetAt,
      c.updateRateLimit token headers now = (c.seen remaining resetAt, none) ∨
      c.updateRateLimit token headers now = (c.seen remaining resetAt, some .other) ∨
      (reserveReached c.reserve headers now ∧ ∃ retryAt reason,
        c.updateRateLimit token headers now =
          ((c.seen remaining resetAt).blockToken token retryAt,
            some (.rateLimit retryAt reason))) := by
  unfold updateRateLimit
  cases parseIntHeader headers "X-RateLimit-Reset" with
  | none => exact ⟨_, c.lastResetAt, Or.inl rfl⟩
  | some resetAt =>
    dsimp only
    cases floatOfInt resetAt with
    | none => exact ⟨_, c.lastResetAt, Or.inr (Or.inl rfl)⟩
    | some reset =>
      dsimp only
      by_cases hreserve : reserveReached c.reserve headers now = true
      · rw [if_pos hreserve]
        cases floatOfInt (resetAt + 1) with
        | none => exact ⟨_, some reset, Or.inr (Or.inl rfl)⟩
        | some retryAt => exact ⟨_, some reset, Or.inr (Or.inr ⟨hreserve, retryAt, _, rfl⟩)⟩
      · rw [if_neg hreserve]
        exact ⟨_, some reset, Or.inl rfl⟩

/-- A limit changes the count of secondary limits and the cooldown. -/
theorem block_cases (c : GitHubClient δ γ) (token : δ) (headers : Headers) (now : ℚ)
    (text : String) :
    c.block token headers now text = (c, .other) ∨ ∃ failures retryAt reason,
      c.block token headers now text =
        (({ c with secondaryFailures := failures } : GitHubClient δ γ).blockToken token retryAt,
          .rateLimit retryAt reason) := by
  unfold block
  cases hretry : c.rateLimitRetry token headers now text with
  | none => exact Or.inl rfl
  | some result =>
    obtain ⟨c', retryAt, reason⟩ := result
    refine Or.inr ⟨c'.secondaryFailures, retryAt, reason, ?_⟩
    suffices h : c' = { c with secondaryFailures := c'.secondaryFailures } by
      rw [← h]
    unfold rateLimitRetry at hretry
    split at hretry
    · obtain ⟨seconds, -, h⟩ := Option.map_eq_some_iff.1 hretry
      rw [← (Prod.mk.inj h).1]
    · split at hretry
      · obtain ⟨retryAt', -, h⟩ := Option.map_eq_some_iff.1 hretry
        rw [← (Prod.mk.inj h).1]
      · rw [← (Prod.mk.inj (Option.some.inj hretry)).1]

end GitHubClient

/-- The answer is one that ends in `GitHubRateLimitError`, as far as the code's own tests go. -/
def HttpAnswer.isLimit {β : Type*} (reserve : ℤ) (now : ℚ) (conditional : Bool) :
    HttpAnswer β → Bool
  | .ok _ headers _ => reserveReached reserve headers now
  | .httpError code headers text =>
      if code = 304 && conditional then reserveReached reserve headers now
      else text.any fun text => isRateLimitError code headers text
  | .failed => false

section Handled

variable {β δ γ : Type*} [DecidableEq δ]

/-- An answer, the client after it, and how the request ends. -/
inductive Handled (loads : β → Option γ) (c : GitHubClient δ γ) (token : δ) (path : String)
    (method : HttpMethod) (cached : Option (ConditionalResponse γ)) (now : ℚ) :
    HttpAnswer β → GitHubClient δ γ → Outcome γ → Prop
  | outOfRange {status headers body} (remaining resetAt) :
      Handled loads c token path method cached now (.ok status headers body)
        (c.seen remaining resetAt) .none
  | reserve {status headers body} (remaining resetAt retryAt reason)
      (hreserve : reserveReached c.reserve headers now) :
      Handled loads c token path method cached now (.ok status headers body)
        ((c.seen remaining resetAt).blockToken token retryAt) (.raised (.rateLimit retryAt reason))
  | deleted {status headers body} (remaining resetAt) (hmethod : method = .delete) :
      Handled loads c token path method cached now (.ok status headers body)
        ((c.seen remaining resetAt).clearFailures token) (.deleted (status = 204))
  | undecoded {status headers body} (remaining resetAt) :
      Handled loads c token path method cached now (.ok status headers body)
        ((c.seen remaining resetAt).clearFailures token) .none
  | fetched {status headers body data} (remaining resetAt) (hdata : loads body = some data) :
      Handled loads c token path method cached now (.ok status headers body)
        (((c.seen remaining resetAt).clearFailures token).cacheConditionalResponse (token, path)
          (headers "ETag") data) (.value data)
  | staleOutOfRange {headers text response} (remaining resetAt) (hcached : cached = some response) :
      Handled loads c token path method cached now (.httpError 304 headers text)
        (c.seen remaining resetAt) (.raised .other)
  | staleReserve {headers text response} (remaining resetAt retryAt reason)
      (hcached : cached = some response) (hreserve : reserveReached c.reserve headers now) :
      Handled loads c token path method cached now (.httpError 304 headers text)
        ((c.seen remaining resetAt).blockToken token retryAt) (.raised (.rateLimit retryAt reason))
  | notModified {headers text response} (remaining resetAt) (hcached : cached = some response) :
      Handled loads c token path method cached now (.httpError 304 headers text)
        (((c.seen remaining resetAt).clearFailures token).touch (token, path))
        (.value response.data)
  | unread {code headers text} :
      Handled loads c token path method cached now (.httpError code headers text) c
        (.raised .other)
  | limited {code headers text} (failures retryAt reason)
      (hcode : (code = 304 && cached.isSome) = false)
      (hlimit : isRateLimitError code headers text) :
      Handled loads c token path method cached now (.httpError code headers (some text))
        (({ c with secondaryFailures := failures } : GitHubClient δ γ).blockToken token retryAt)
        (.raised (.rateLimit retryAt reason))
  | refused {answer} : Handled loads c token path method cached now answer c .none

variable {loads : β → Option γ} {c : GitHubClient δ γ} {token : δ} {path : String}
  {method : HttpMethod} {cached : Option (ConditionalResponse γ)} {now : ℚ}

theorem handled_refuse {code : ℕ} {headers : Headers} {text : Option String}
    (hcode : (code = 304 && cached.isSome) = false) :
    Handled loads c token path method cached now (.httpError code headers text)
      (c.refuse token code headers now text).1 (c.refuse token code headers now text).2 := by
  cases text with
  | none => exact .unread
  | some text =>
    unfold GitHubClient.refuse
    dsimp only
    by_cases hlimit : isRateLimitError code headers text = true
    · rw [if_pos hlimit]
      obtain h | ⟨failures, retryAt, reason, h⟩ := c.block_cases token headers now text
      · rw [h]
        exact .unread
      · rw [h]
        exact .limited failures retryAt reason hcode hlimit
    · rw [if_neg hlimit]
      exact .refused

/-- **The cases of an answer.** -/
theorem handled (loads : β → Option γ) (c : GitHubClient δ γ) (token : δ) (path : String)
    (method : HttpMethod) (cached : Option (ConditionalResponse γ)) (now : ℚ)
    (answer : HttpAnswer β) :
    Handled loads c token path method cached now answer
      (c.handle loads token path method cached now answer).1
      (c.handle loads token path method cached now answer).2 := by
  cases answer with
  | ok status headers body =>
    unfold GitHubClient.handle
    dsimp only
    obtain ⟨remaining, resetAt, h | h | ⟨hreserve, retryAt, reason, h⟩⟩ :=
      c.updateRateLimit_cases token headers now
    · rw [h]
      dsimp only
      by_cases hmethod : method = .delete
      · rw [if_pos hmethod]
        exact .deleted remaining resetAt hmethod
      · rw [if_neg hmethod]
        cases hdata : loads body with
        | none => exact .undecoded remaining resetAt
        | some data => exact .fetched remaining resetAt hdata
    · rw [h]
      exact .outOfRange remaining resetAt
    · rw [h]
      exact .reserve remaining resetAt retryAt reason hreserve
  | httpError code headers text =>
    cases cached with
    | none =>
      unfold GitHubClient.handle
      dsimp only
      split
      · rename_i heq
        cases heq
      · exact handled_refuse (by simp)
    | some response =>
      by_cases hcode : code = 304
      · subst hcode
        unfold GitHubClient.handle
        dsimp only
        obtain ⟨remaining, resetAt, h | h | ⟨hreserve, retryAt, reason, h⟩⟩ :=
          c.updateRateLimit_cases token headers now
        · rw [h]
          exact .notModified remaining resetAt rfl
        · rw [h]
          exact .staleOutOfRange remaining resetAt rfl
        · rw [h]
          exact .staleReserve remaining resetAt retryAt reason rfl hreserve
      · unfold GitHubClient.handle
        dsimp only
        split
        · exact absurd rfl hcode
        · exact handled_refuse (by simp [hcode])
  | failed => exact .refused

variable {answer : HttpAnswer β} {c' : GitHubClient δ γ} {outcome : Outcome γ}

namespace Handled

/-- An answer does not touch the pacing of mutations. -/
theorem lastMutationAt (h : Handled loads c token path method cached now answer c' outcome) :
    c'.lastMutationAt = c.lastMutationAt := by
  cases h <;> rfl

/-- **Cooldowns.** A request that raises a limit records it for its token; any other way to end
leaves the cooldowns. -/
theorem cooldown (h : Handled loads c token path method cached now answer c' outcome) :
    (c'.blockedUntil = c.blockedUntil ∧ ∀ retryAt reason,
      outcome ≠ .raised (.rateLimit retryAt reason)) ∨
    (answer.isLimit c.reserve now cached.isSome ∧ ∃ retryAt reason,
      outcome = .raised (.rateLimit retryAt reason) ∧
      c'.blockedUntil =
        c.blockedUntil.put token (max ((c.blockedUntil.get token).getD 0) retryAt)) := by
  cases h with
  | reserve remaining resetAt retryAt reason hreserve =>
    exact Or.inr ⟨hreserve, retryAt, reason, rfl, rfl⟩
  | staleReserve remaining resetAt retryAt reason hcached hreserve =>
    refine Or.inr ⟨?_, retryAt, reason, rfl, rfl⟩
    rw [hcached]
    exact hreserve
  | limited failures retryAt reason hcode hlimit =>
    refine Or.inr ⟨?_, retryAt, reason, rfl, rfl⟩
    unfold HttpAnswer.isLimit
    dsimp only
    rw [hcode]
    exact hlimit
  | outOfRange remaining resetAt => exact Or.inl ⟨rfl, fun _ _ h => by cases h⟩
  | deleted remaining resetAt hmethod => exact Or.inl ⟨rfl, fun _ _ h => by cases h⟩
  | undecoded remaining resetAt => exact Or.inl ⟨rfl, fun _ _ h => by cases h⟩
  | fetched remaining resetAt hdata => exact Or.inl ⟨rfl, fun _ _ h => by cases h⟩
  | staleOutOfRange remaining resetAt hcached => exact Or.inl ⟨rfl, fun _ _ h => by cases h⟩
  | notModified remaining resetAt hcached => exact Or.inl ⟨rfl, fun _ _ h => by cases h⟩
  | unread => exact Or.inl ⟨rfl, fun _ _ h => by cases h⟩
  | refused => exact Or.inl ⟨rfl, fun _ _ h => by cases h⟩

/-- **The rows of the cache.** They are old, or hold what the answer's body was decoded to under
the `ETag` it came with. -/
theorem mem_cache (h : Handled loads c token path method cached now answer c' outcome)
    {key : δ × String} {response : ConditionalResponse γ}
    (hmem : (key, response) ∈ c'.conditionalCache.rows) :
    (key, response) ∈ c.conditionalCache.rows ∨
      (key = (token, path) ∧ ∃ status headers body, answer = .ok status headers body ∧
        headers "ETag" = some response.etag ∧ response.etag ≠ "" ∧
        loads body = some response.data) := by
  cases h with
  | @fetched status headers body data remaining resetAt hdata =>
    unfold GitHubClient.cacheConditionalResponse at hmem
    dsimp only at hmem
    split at hmem
    · exact Or.inl (Table.mem_erase.1 hmem).1
    · rename_i etag hetag
      split_ifs at hmem with hempty
      · exact Or.inl (Table.mem_erase.1 hmem).1
      · rcases Table.mem_putLast.1 (Table.mem_of_mem_trim hmem) with ⟨hold, -⟩ | ⟨rfl, rfl⟩
        · exact Or.inl hold
        · exact Or.inr ⟨rfl, status, headers, body, rfl, hetag, hempty, hdata⟩
  | notModified remaining resetAt hcached => exact Or.inl (Table.mem_moveToEnd.1 hmem)
  | outOfRange => exact Or.inl hmem
  | reserve => exact Or.inl hmem
  | deleted => exact Or.inl hmem
  | undecoded => exact Or.inl hmem
  | staleOutOfRange => exact Or.inl hmem
  | staleReserve => exact Or.inl hmem
  | unread => exact Or.inl hmem
  | limited => exact Or.inl hmem
  | refused => exact Or.inl hmem

/-- **The cache stays within its bound.** -/
theorem length_cache (h : Handled loads c token path method cached now answer c' outcome)
    (hc : c.conditionalCache.rows.length ≤ maxConditionalCacheEntries) :
    c'.conditionalCache.rows.length ≤ maxConditionalCacheEntries := by
  cases h with
  | fetched remaining resetAt hdata =>
    unfold GitHubClient.cacheConditionalResponse
    dsimp only
    split
    · exact (Table.length_erase_le _ _).trans hc
    · split_ifs
      · exact (Table.length_erase_le _ _).trans hc
      · exact Table.length_trim _ _
  | notModified remaining resetAt hcached => exact (Table.length_moveToEnd_le _ _).trans hc
  | outOfRange => exact hc
  | reserve => exact hc
  | deleted => exact hc
  | undecoded => exact hc
  | staleOutOfRange => exact hc
  | staleReserve => exact hc
  | unread => exact hc
  | limited => exact hc
  | refused => exact hc

/-- **A returned value** was decoded from the answer's body, or it is the cached one and the server
answered that it is current. -/
theorem of_value {data : γ}
    (h : Handled loads c token path method cached now answer c' (.value data)) :
    (∃ status headers body, answer = .ok status headers body ∧ loads body = some data) ∨
      ∃ headers text response, answer = .httpError 304 headers text ∧ cached = some response ∧
        response.data = data := by
  cases h with
  | fetched remaining resetAt hdata => exact Or.inl ⟨_, _, _, rfl, hdata⟩
  | notModified remaining resetAt hcached => exact Or.inr ⟨_, _, _, rfl, hcached, rfl⟩

end Handled

end Handled

end RunnerSwarm
