import RunnerSwarm.GitHub.Requests

/-!
# Retry times

Four rules (the reserve, `Retry-After`, the primary limit, the doubling pause of a secondary limit)
record until when a token is to rest. `answerRetry` is the time an answer records, in terms of the
answer and of the number of secondary limits before it, and `handle_limits` says that `handle`
records just that and how it changes the number.
-/

namespace RunnerSwarm

/-! ### The retry time of an answer -/

/-- The reset time is no number that `float` refuses, and the reserve is not reached. -/
def passesReserve (reserve : ℤ) (headers : Headers) (now : ℚ) : Bool :=
  ((parseIntHeader headers "X-RateLimit-Reset").all fun resetAt => (floatOfInt resetAt).isSome) &&
    !reserveReached reserve headers now

/-- What `_update_rate_limit` records. -/
def reserveRetry (reserve : ℤ) (headers : Headers) (now : ℚ) : Option ℚ :=
  if reserveReached reserve headers now then
    (parseIntHeader headers "X-RateLimit-Reset").bind fun resetAt =>
      (floatOfInt resetAt).bind fun _ => floatOfInt (resetAt + 1)
  else none

/-- No header of a limit says when to retry. -/
def withoutRetryTime (headers : Headers) : Bool :=
  (parseIntHeader headers "Retry-After").isNone &&
    !(parseIntHeader headers "X-RateLimit-Remaining" = some 0 &&
      (parseIntHeader headers "X-RateLimit-Reset").isSome)

/-- `min(60 * 2 ** (k - 1), 900)`, after `k - 1` secondary limits. -/
def secondaryDelay (failures : ℕ) : ℕ :=
  min (secondaryRateLimitBaseSeconds * 2 ^ failures) secondaryRateLimitMaxSeconds

/-- What `_rate_limit_retry` returns. -/
def limitRetry (failures : ℕ) (headers : Headers) (now : ℚ) : Option ℚ :=
  match parseIntHeader headers "Retry-After" with
  | some retryAfter => (floatOfInt retryAfter).map fun seconds => now + seconds
  | none =>
      match parseIntHeader headers "X-RateLimit-Remaining",
        parseIntHeader headers "X-RateLimit-Reset" with
      | some 0, some resetAt => floatOfInt (resetAt + 1)
      | _, _ => some (now + secondaryDelay failures)

/-- A limit without a retry time pauses for longer each time. -/
theorem limitRetry_of_withoutRetryTime {headers : Headers} (h : withoutRetryTime headers = true)
    (failures : ℕ) (now : ℚ) :
    limitRetry failures headers now = some (now + secondaryDelay failures) := by
  unfold withoutRetryTime at h
  obtain ⟨hafter, hprimary⟩ := Bool.and_eq_true_iff.1 h
  unfold limitRetry
  rw [Option.isNone_iff_eq_none.1 hafter]
  dsimp only
  split
  · rename_i hremaining hreset
    rw [hremaining, hreset] at hprimary
    cases hprimary
  · rfl

namespace HttpAnswer

variable {β : Type*}

/-- The headers of an answer that is read as a success: any response, or 304 to a conditional
request. -/
def successHeaders (conditional : Bool) : HttpAnswer β → Option Headers
  | .ok _ headers _ => some headers
  | .httpError code headers _ => if code = 304 && conditional then some headers else none
  | .failed => none

/-- The headers of an answer that is read as a limit. -/
def limitHeaders (conditional : Bool) : HttpAnswer β → Option Headers
  | .httpError code headers text =>
      if code = 304 && conditional then none
      else if text.any fun text => isRateLimitError code headers text then some headers else none
  | _ => none

/-- The retry time an answer records, after `failures` secondary limits. -/
def answerRetry (answer : HttpAnswer β) (reserve : ℤ) (failures : ℕ) (conditional : Bool)
    (now : ℚ) : Option ℚ :=
  ((answer.successHeaders conditional).bind fun headers => reserveRetry reserve headers now).or
    ((answer.limitHeaders conditional).bind fun headers => limitRetry failures headers now)

/-- The answer resets the count of secondary limits. -/
def clears (answer : HttpAnswer β) (reserve : ℤ) (conditional : Bool) (now : ℚ) : Bool :=
  (answer.successHeaders conditional).any fun headers => passesReserve reserve headers now

/-- A secondary limit: one without a retry time. -/
def isSecondary (answer : HttpAnswer β) (conditional : Bool) : Bool :=
  (answer.limitHeaders conditional).any withoutRetryTime

/-- The time a secondary limit records. -/
theorem answerRetry_of_isSecondary {answer : HttpAnswer β} {conditional : Bool}
    (h : answer.isSecondary conditional = true) (reserve : ℤ) (failures : ℕ) (now : ℚ) :
    answer.answerRetry reserve failures conditional now =
      some (now + secondaryDelay failures) := by
  unfold isSecondary at h
  obtain ⟨headers, hlimit, htime⟩ := (Option.any_eq_true _ _).1 h
  have hsuccess : answer.successHeaders conditional = none := by
    cases answer with
    | ok => cases hlimit
    | failed => rfl
    | httpError code headers text =>
      unfold limitHeaders at hlimit
      unfold successHeaders
      dsimp only at hlimit ⊢
      split_ifs at hlimit ⊢
      rfl
  unfold answerRetry
  rw [hsuccess, hlimit]
  exact limitRetry_of_withoutRetryTime htime failures now

variable {code : ℕ} {headers : Headers} {text : Option String} {conditional : Bool}

theorem successHeaders_refused (h : (code = 304 && conditional) = false) :
    (httpError (β := β) code headers text).successHeaders conditional = none := by
  unfold successHeaders
  dsimp only
  rw [h]
  rfl

theorem limitHeaders_refused (h : (code = 304 && conditional) = false) :
    (httpError (β := β) code headers text).limitHeaders conditional =
      if text.any fun text => isRateLimitError code headers text then some headers else none := by
  unfold limitHeaders
  dsimp only
  rw [h]
  rfl

theorem successHeaders_stale (h : (code = 304 && conditional) = true) :
    (httpError (β := β) code headers text).successHeaders conditional = some headers := by
  unfold successHeaders
  exact if_pos h

theorem limitHeaders_stale (h : (code = 304 && conditional) = true) :
    (httpError (β := β) code headers text).limitHeaders conditional = none := by
  unfold limitHeaders
  exact if_pos h

end HttpAnswer

/-- The count of secondary limits after an answer. -/
def countAfter (clears secondary : Bool) (failures : ℕ) : ℕ :=
  if clears then 0 else if secondary then failures + 1 else failures

/-- The retry time of `GitHubRateLimitError`. -/
def Outcome.retryAt {γ : Type*} : Outcome γ → Option ℚ
  | .raised (.rateLimit retryAt _) => some retryAt
  | _ => Option.none

namespace GitHubClient

variable {β δ γ : Type*} [DecidableEq δ]

/-- The secondary limits of a token so far. -/
def failures (c : GitHubClient δ γ) (token : δ) : ℕ := (c.secondaryFailures.get token).getD 0

/-- The error of `_raise_if_blocked`. -/
def gate (c : GitHubClient δ γ) (token : δ) (now : ℚ) : Option GitHubError :=
  match c.raiseIfBlocked token now with
  | .ok _ => none
  | .error error => some error

/-- What a client remembers of limits after one answer: `retry` is recorded, and the count of the
token is now `count`. -/
structure Limits (c : GitHubClient δ γ) (token : δ) (retry : Option ℚ) (count : ℕ)
    (c' : GitHubClient δ γ) (outcome : Outcome γ) : Prop where
  reserve : c'.reserve = c.reserve
  retryAt : outcome.retryAt = retry
  counted : c'.failures token = count
  others : ∀ other, other ≠ token → c'.failures other = c.failures other

/-- Reading the headers: what `_update_rate_limit` returns, by the two tests. -/
theorem updateRateLimit_eq (c : GitHubClient δ γ) (token : δ) (headers : Headers) (now : ℚ) :
    ∃ remaining resetAt,
      (passesReserve c.reserve headers now = true ∧ reserveRetry c.reserve headers now = none ∧
        c.updateRateLimit token headers now = (c.seen remaining resetAt, none)) ∨
      (passesReserve c.reserve headers now = false ∧ reserveRetry c.reserve headers now = none ∧
        c.updateRateLimit token headers now = (c.seen remaining resetAt, some .other)) ∨
      (passesReserve c.reserve headers now = false ∧ ∃ retryAt reason,
        reserveRetry c.reserve headers now = some retryAt ∧
        c.updateRateLimit token headers now =
          ((c.seen remaining resetAt).blockToken token retryAt,
            some (.rateLimit retryAt reason))) := by
  unfold passesReserve reserveRetry updateRateLimit
  cases hreset : parseIntHeader headers "X-RateLimit-Reset" with
  | none =>
    have hfar : reserveReached c.reserve headers now = false := by
      unfold reserveReached
      rw [hreset]
      cases parseIntHeader headers "X-RateLimit-Remaining" <;> rfl
    rw [hfar]
    exact ⟨_, c.lastResetAt, Or.inl ⟨rfl, rfl, rfl⟩⟩
  | some resetAt =>
    dsimp only [Option.all_some, Option.bind_some]
    cases hfloat : floatOfInt resetAt with
    | none =>
      refine ⟨_, c.lastResetAt, Or.inr (Or.inl ⟨rfl, ?_, rfl⟩)⟩
      split_ifs
      · rfl
      · rfl
    | some reset =>
      dsimp only [Option.bind_some]
      cases hreserve : reserveReached c.reserve headers now with
      | false => exact ⟨_, some reset, Or.inl ⟨rfl, rfl, rfl⟩⟩
      | true =>
        cases hretry : floatOfInt (resetAt + 1) with
        | none => exact ⟨_, some reset, Or.inr (Or.inl ⟨rfl, rfl, rfl⟩)⟩
        | some retryAt =>
          exact ⟨_, some reset, Or.inr (Or.inr ⟨rfl, retryAt, _, rfl, rfl⟩)⟩

section Counter

variable {c c' : GitHubClient δ γ} {token : δ} {retry : Option ℚ} {count : ℕ} {outcome : Outcome γ}

/-- A counter that is left alone. -/
theorem limits_of_same (hretry : outcome.retryAt = retry) (hreserve : c'.reserve = c.reserve)
    (hfailures : c'.secondaryFailures = c.secondaryFailures) (hcount : c.failures token = count) :
    Limits c token retry count c' outcome := by
  have hsame : ∀ other, c'.failures other = c.failures other := fun other => by
    unfold failures
    rw [hfailures]
  exact ⟨hreserve, hretry, (hsame token).trans hcount, fun other _ => hsame other⟩

/-- A counter that is cleared. -/
theorem limits_of_cleared (hretry : outcome.retryAt = retry) (hreserve : c'.reserve = c.reserve)
    (hfailures : c'.secondaryFailures = c.secondaryFailures.erase token) :
    Limits c token retry 0 c' outcome := by
  have hget : ∀ other, c'.failures other = if other = token then 0 else c.failures other := by
    intro other
    unfold failures
    rw [hfailures, Table.get_erase]
    split_ifs
    · rfl
    · rfl
  exact ⟨hreserve, hretry, (hget token).trans (if_pos rfl), fun other hother =>
    (hget other).trans (if_neg hother)⟩

/-- A counter that goes up. -/
theorem limits_of_counted (hretry : outcome.retryAt = retry) (hreserve : c'.reserve = c.reserve)
    (hfailures : c'.secondaryFailures = c.secondaryFailures.put token (c.failures token + 1))
    (hcount : c.failures token + 1 = count) : Limits c token retry count c' outcome := by
  have hget : ∀ other, c'.failures other =
      if other = token then c.failures token + 1 else c.failures other := by
    intro other
    show (c'.secondaryFailures.get other).getD 0 = _
    rw [hfailures, Table.get_put]
    split_ifs
    · rfl
    · rfl
  exact ⟨hreserve, hretry, ((hget token).trans (if_pos rfl)).trans hcount, fun other hother =>
    (hget other).trans (if_neg hother)⟩

end Counter

/-- The pause of a limit comes from its headers, or from the count. -/
theorem rateLimitRetry_eq (c : GitHubClient δ γ) (token : δ) (headers : Headers) (now : ℚ)
    (body : String) :
    (withoutRetryTime headers = false ∧
      ((limitRetry (c.failures token) headers now = none ∧
          c.rateLimitRetry token headers now body = none) ∨
        ∃ retryAt reason, limitRetry (c.failures token) headers now = some retryAt ∧
          c.rateLimitRetry token headers now body = some (c, retryAt, reason))) ∨
    (withoutRetryTime headers = true ∧ ∃ retryAt reason,
      limitRetry (c.failures token) headers now = some retryAt ∧
      c.rateLimitRetry token headers now body = some
        ({ c with secondaryFailures := c.secondaryFailures.put token (c.failures token + 1) },
          retryAt, reason)) := by
  -- the reason of a secondary limit
  let reason := s!"GitHub secondary rate limit; backing off {secondaryDelay (c.failures token)}s"
  unfold withoutRetryTime limitRetry rateLimitRetry
  cases hafter : parseIntHeader headers "Retry-After" with
  | some retryAfter =>
    refine Or.inl ⟨rfl, ?_⟩
    dsimp only
    cases hfloat : floatOfInt retryAfter with
    | none => exact Or.inl ⟨rfl, rfl⟩
    | some seconds => exact Or.inr ⟨_, _, rfl, rfl⟩
  | none =>
    dsimp only
    cases hremaining : parseIntHeader headers "X-RateLimit-Remaining" with
    | none => exact Or.inr ⟨rfl, _, _, rfl, rfl⟩
    | some remaining =>
      cases hreset : parseIntHeader headers "X-RateLimit-Reset" with
      | none =>
        refine Or.inr ⟨by simp, now + secondaryDelay (c.failures token), reason, ?_, ?_⟩
        · split
          · rename_i heq
            cases heq
          · rfl
        · split
          · rename_i heq
            cases heq
          · rfl
      | some resetAt =>
        by_cases hzero : remaining = 0
        · subst hzero
          refine Or.inl ⟨rfl, ?_⟩
          show (floatOfInt (resetAt + 1) = none ∧ (floatOfInt (resetAt + 1)).map _ = none) ∨
            ∃ retryAt reason, floatOfInt (resetAt + 1) = some retryAt ∧
              (floatOfInt (resetAt + 1)).map _ = some (c, retryAt, reason)
          cases hfloat : floatOfInt (resetAt + 1) with
          | none => exact Or.inl ⟨rfl, rfl⟩
          | some retryAt => exact Or.inr ⟨_, _, rfl, rfl⟩
        · refine Or.inr ⟨by simp [hzero], now + secondaryDelay (c.failures token), reason, ?_, ?_⟩
          · split
            · rename_i heq _
              exact absurd (Option.some.inj heq) hzero
            · rfl
          · split
            · rename_i heq _
              exact absurd (Option.some.inj heq) hzero
            · rfl

/-- A limit: what is recorded, and whether it counts as a secondary one. -/
theorem block_limits (c : GitHubClient δ γ) (token : δ) (headers : Headers) (now : ℚ)
    (text : String) :
    Limits c token (limitRetry (c.failures token) headers now)
      (countAfter false (withoutRetryTime headers) (c.failures token))
      (c.block token headers now text).1 (.raised (c.block token headers now text).2) := by
  unfold block
  rcases c.rateLimitRetry_eq token headers now text with
    ⟨htime, ⟨hretry, h⟩ | ⟨retryAt, reason, hretry, h⟩⟩ | ⟨htime, retryAt, reason, hretry, h⟩
  · rw [htime, hretry, h]
    exact limits_of_same rfl rfl rfl rfl
  · rw [htime, hretry, h]
    exact limits_of_same rfl rfl rfl rfl
  · rw [htime, hretry, h]
    exact limits_of_counted rfl rfl rfl rfl

section Handle

variable (loads : β → Option γ) (c : GitHubClient δ γ) (token : δ) (path : String)
  (method : HttpMethod) (cached : Option (ConditionalResponse γ)) (now : ℚ)

/-- An `HTTPError` that is no success. -/
theorem refuse_limits {code : ℕ} {headers : Headers} {text : Option String}
    (hcode : (code = 304 && cached.isSome) = false) :
    Limits c token
      ((HttpAnswer.httpError (β := β) code headers text).answerRetry c.reserve (c.failures token)
        cached.isSome now)
      (countAfter ((HttpAnswer.httpError (β := β) code headers text).clears c.reserve
          cached.isSome now)
        ((HttpAnswer.httpError (β := β) code headers text).isSecondary cached.isSome)
        (c.failures token))
      (c.refuse token code headers now text).1 (c.refuse token code headers now text).2 := by
  unfold HttpAnswer.answerRetry HttpAnswer.clears HttpAnswer.isSecondary
  rw [HttpAnswer.successHeaders_refused hcode, HttpAnswer.limitHeaders_refused hcode]
  cases text with
  | none => exact limits_of_same rfl rfl rfl rfl
  | some text =>
    unfold refuse
    dsimp only [Option.any_some]
    by_cases hlimit : isRateLimitError code headers text = true
    · rw [if_pos hlimit, if_pos hlimit]
      exact c.block_limits token headers now text
    · rw [if_neg hlimit, if_neg hlimit]
      exact limits_of_same rfl rfl rfl rfl

/-- **What an answer records**: a retry time that depends on the answer and on the count of its
token, and the new count. -/
theorem handle_limits (answer : HttpAnswer β) :
    Limits c token
      (answer.answerRetry c.reserve (c.failures token) cached.isSome now)
      (countAfter (answer.clears c.reserve cached.isSome now) (answer.isSecondary cached.isSome)
        (c.failures token))
      (c.handle loads token path method cached now answer).1
      (c.handle loads token path method cached now answer).2 := by
  cases answer with
  | ok status headers body =>
    unfold HttpAnswer.answerRetry HttpAnswer.clears HttpAnswer.isSecondary handle
    dsimp only [HttpAnswer.successHeaders, HttpAnswer.limitHeaders, Option.bind_some,
      Option.any_some]
    obtain ⟨remaining, resetAt, ⟨hpass, hnone, h⟩ | ⟨hpass, hnone, h⟩ |
      ⟨hpass, retryAt, reason, hretry, h⟩⟩ := c.updateRateLimit_eq token headers now
    · rw [h, hpass, hnone]
      dsimp only
      by_cases hmethod : method = .delete
      · rw [if_pos hmethod]
        exact limits_of_cleared rfl rfl rfl
      · rw [if_neg hmethod]
        cases loads body with
        | none => exact limits_of_cleared rfl rfl rfl
        | some data => exact limits_of_cleared rfl rfl rfl
    · rw [h, hpass, hnone]
      exact limits_of_same rfl rfl rfl rfl
    · rw [h, hpass, hretry]
      exact limits_of_same rfl rfl rfl rfl
  | httpError code headers text =>
    by_cases hcode : (code = 304 && cached.isSome) = true
    · unfold HttpAnswer.answerRetry HttpAnswer.clears HttpAnswer.isSecondary
      rw [HttpAnswer.successHeaders_stale hcode, HttpAnswer.limitHeaders_stale hcode]
      obtain ⟨hstale, hsome⟩ := Bool.and_eq_true_iff.1 hcode
      obtain rfl := of_decide_eq_true hstale
      obtain ⟨response, rfl⟩ := Option.isSome_iff_exists.1 hsome
      unfold handle
      dsimp only [Option.bind_some, Option.any_some]
      obtain ⟨remaining, resetAt, ⟨hpass, hnone, h⟩ | ⟨hpass, hnone, h⟩ |
        ⟨hpass, retryAt, reason, hretry, h⟩⟩ := c.updateRateLimit_eq token headers now
      · rw [h, hpass, hnone]
        exact limits_of_cleared rfl rfl rfl
      · rw [h, hpass, hnone]
        exact limits_of_same rfl rfl rfl rfl
      · rw [h, hpass, hretry]
        exact limits_of_same rfl rfl rfl rfl
    · have hhandle : c.handle loads token path method cached now (.httpError code headers text) =
          c.refuse token code headers now text := by
        unfold handle
        dsimp only
        split
        · exact absurd rfl hcode
        · rfl
      rw [hhandle]
      exact c.refuse_limits token cached now (Bool.eq_false_of_not_eq_true hcode)
  | failed => exact limits_of_same rfl rfl rfl rfl

end Handle

end GitHubClient

end RunnerSwarm
