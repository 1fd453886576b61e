import RunnerSwarm.GitHub.RetryTimes

/-!
# The gate

Answers to many threads write one table of cooldowns, in any order, and a check removes what it
finds expired. A `ClientEvent` is what one thread does while it holds the state lock, and
`clientRun` is a client after any list of such events, with the retry times recorded on the way.

* `Remembers`: the table agrees with the maximum of the recorded times from now on;
* `SameToken`: what a token is refused depends on the events of that token alone;
* `failures_clientRun`: the counter is the number of secondary limits since it was last cleared;
* `requests_clientRun`: the requests of many threads are such a list.
-/

namespace RunnerSwarm

/-- What a thread does under the state lock: the check before a request, the handling of an answer,
or the note of a mutation's time. -/
inductive ClientEvent (δ β γ : Type*)
  | check (token : δ) (now : ℚ)
  | answer (token : δ) (path : String) (method : HttpMethod)
      (cached : Option (ConditionalResponse γ)) (now : ℚ) (answer : HttpAnswer β)
  | paced (now : ℚ)

/-- A client and the retry times its tokens were given, oldest first. -/
structure ClientRun (δ γ : Type*) where
  client : GitHubClient δ γ
  recorded : List (δ × ℚ)

namespace ClientEvent

variable {β δ γ : Type*}

def time : ClientEvent δ β γ → ℚ
  | .check _ now => now
  | .answer _ _ _ _ now _ => now
  | .paced now => now

def token : ClientEvent δ β γ → Option δ
  | .check token _ => some token
  | .answer token _ _ _ _ _ => some token
  | .paced _ => none

variable [DecidableEq δ]

/-- A response of the token that resets its count of secondary limits. -/
def clears (reserve : ℤ) (token : δ) : ClientEvent δ β γ → Bool
  | .answer token' _ _ cached now reply =>
      token' = token && reply.clears reserve cached.isSome now
  | _ => false

/-- A secondary limit of the token. -/
def isSecondary (token : δ) : ClientEvent δ β γ → Bool
  | .answer token' _ _ cached _ reply => token' = token && reply.isSecondary cached.isSome
  | _ => false

end ClientEvent

section Events

variable {β δ γ : Type*} [DecidableEq δ] (loads : β → Option γ)

/-- One event. -/
def ClientRun.next (r : ClientRun δ γ) : ClientEvent δ β γ → ClientRun δ γ
  | .check token now =>
      match r.client.raiseIfBlocked token now with
      | .ok client => { r with client := client }
      | .error _ => r
  | .answer token path method cached now answer =>
      let (client, outcome) := r.client.handle loads token path method cached now answer
      ⟨client, r.recorded ++ (outcome.retryAt.map fun retryAt => (token, retryAt)).toList⟩
  | .paced now => { r with client := { r.client with lastMutationAt := now } }

/-- A new client after a list of events. -/
def clientRun (reserve : ℤ) (l : List (ClientEvent δ β γ)) : ClientRun δ γ :=
  l.foldl (ClientRun.next loads) ⟨{ reserve := reserve }, []⟩

/-- The retry times recorded for a token. -/
def ClientRun.retryTimes (r : ClientRun δ γ) (token : δ) : List ℚ :=
  (r.recorded.filter fun record => record.1 = token).map Prod.snd

@[simp] theorem clientRun_concat (reserve : ℤ) (l : List (ClientEvent δ β γ))
    (e : ClientEvent δ β γ) :
    clientRun loads reserve (l ++ [e]) = (clientRun loads reserve l).next loads e := by
  unfold clientRun
  rw [List.foldl_append]
  rfl

theorem ClientRun.mem_retryTimes {r : ClientRun δ γ} {token : δ} {retryAt : ℚ} :
    retryAt ∈ r.retryTimes token ↔ (token, retryAt) ∈ r.recorded := by
  unfold ClientRun.retryTimes
  simp

variable {loads} {reserve : ℤ}

/-- No event changes the reserve. -/
theorem reserve_clientRun (l : List (ClientEvent δ β γ)) :
    (clientRun loads reserve l).client.reserve = reserve := by
  induction l using List.reverseRecOn with
  | nil => rfl
  | append_singleton l e ih =>
    rw [clientRun_concat]
    generalize clientRun loads reserve l = r at ih
    cases e with
    | check token now =>
      unfold ClientRun.next
      dsimp only
      split
      · rename_i client hok
        obtain ⟨-, rfl⟩ := GitHubClient.raiseIfBlocked_ok hok
        exact ih
      · exact ih
    | answer token path method cached now answer =>
      exact (r.client.handle_limits loads token path method cached now answer).reserve.trans ih
    | paced now => exact ih

/-! ### The maximum of the recorded times -/

/-- From `now` on the table tells of each token what the recorded times tell. -/
def Remembers (r : ClientRun δ γ) (now : ℚ) : Prop :=
  ∀ token time, now ≤ time →
    ((r.client.blockedUntil.get token).getD 0 ≤ time ↔
      ∀ retryAt, (token, retryAt) ∈ r.recorded → retryAt ≤ time)

theorem Remembers.mono {r : ClientRun δ γ} {now later : ℚ} (h : Remembers r now)
    (hle : now ≤ later) : Remembers r later := fun token time htime =>
  h token time (hle.trans htime)

/-- The row of a token after a limit. -/
theorem GitHubClient.blockedUntil_handle (loads : β → Option γ) (c : GitHubClient δ γ)
    (token : δ) (path : String) (method : HttpMethod) (cached : Option (ConditionalResponse γ))
    (now : ℚ) (answer : HttpAnswer β) :
    (c.handle loads token path method cached now answer).1.blockedUntil =
      match (c.handle loads token path method cached now answer).2.retryAt with
      | none => c.blockedUntil
      | some retryAt =>
          c.blockedUntil.put token (max ((c.blockedUntil.get token).getD 0) retryAt) := by
  rcases (handled loads c token path method cached now answer).cooldown with
    ⟨hsame, hquiet⟩ | ⟨-, retryAt, reason, houtcome, hput⟩
  · rw [hsame]
    split
    · rfl
    · rename_i retryAt hretry
      unfold Outcome.retryAt at hretry
      split at hretry
      · rename_i time reason houtcome
        exact absurd houtcome (hquiet time reason)
      · cases hretry
  · rw [hput, houtcome]
    rfl

/-- **One event.** A check forgets what is over, and a limit never shortens a cooldown. -/
theorem Remembers.next {r : ClientRun δ γ} {now : ℚ} (h : Remembers r now) (hnow : 0 ≤ now)
    {e : ClientEvent δ β γ} (htime : now ≤ e.time) : Remembers (r.next loads e) e.time := by
  cases e with
  | check token' check =>
    have hcheck : now ≤ check := htime
    unfold ClientRun.next
    dsimp only [ClientEvent.time]
    split
    · rename_i client hok
      obtain ⟨hover, rfl⟩ := GitHubClient.raiseIfBlocked_ok hok
      intro token time hle
      show ((r.client.blockedUntil.erase token').get token).getD 0 ≤ time ↔ _
      rw [Table.get_erase]
      by_cases htoken : token = token'
      · subst htoken
        rw [if_pos rfl]
        -- every recorded time of the token is over
        have hpast := (h token check hcheck).1 hover
        exact ⟨fun _ retryAt hmem => (hpast retryAt hmem).trans hle,
          fun _ => hnow.trans (hcheck.trans hle)⟩
      · rw [if_neg htoken]
        exact h token time (hcheck.trans hle)
    · exact h.mono hcheck
  | answer token' path method cached now' answer =>
    have hanswer : now ≤ now' := htime
    intro token time hle
    have hold := h token time (hanswer.trans hle)
    have hrow := r.client.blockedUntil_handle loads token' path method cached now' answer
    unfold ClientRun.next
    dsimp only
    generalize r.client.handle loads token' path method cached now' answer = result at hrow ⊢
    rw [hrow]
    cases result.2.retryAt with
    | none => simpa using hold
    | some retryAt =>
      dsimp only
      rw [Table.get_put]
      by_cases htoken : token = token'
      · subst htoken
        rw [if_pos rfl, Option.getD_some, max_le_iff, hold]
        simp [or_imp, forall_and]
      · rw [if_neg htoken, hold]
        simp [htoken]
  | paced now' => exact h.mono htime

/-- The events come in the order of a clock that starts at or after the epoch. -/
def Clocked (l : List (ClientEvent δ β γ)) (now : ℚ) : Prop :=
  (0 :: (l.map ClientEvent.time ++ [now])).Pairwise (· ≤ ·)

omit [DecidableEq δ] in
theorem Clocked.of_concat {l : List (ClientEvent δ β γ)} {e : ClientEvent δ β γ} {now : ℚ}
    (h : Clocked (l ++ [e]) now) : Clocked l e.time ∧ 0 ≤ e.time ∧ e.time ≤ now := by
  unfold Clocked at h ⊢
  rw [List.map_append, List.append_assoc] at h
  obtain ⟨hzero, hrest⟩ := List.pairwise_cons.1 h
  obtain ⟨-, hlast, -⟩ := List.pairwise_append.1 hrest
  have hsub : (0 :: (l.map ClientEvent.time ++ [e.time])).Sublist
      (0 :: (l.map ClientEvent.time ++ ([e].map ClientEvent.time ++ [now]))) :=
    ((List.sublist_append_left [e.time] [now]).append_left _).cons_cons 0
  exact ⟨h.sublist hsub, hzero e.time (by simp), (List.pairwise_cons.1 hlast).1 now (by simp)⟩

/-- **A whole run**, by induction over its events. -/
theorem remembers_clientRun {l : List (ClientEvent δ β γ)} {now : ℚ} (h : Clocked l now) :
    Remembers (clientRun loads reserve l) now := by
  induction l using List.reverseRecOn generalizing now with
  | nil =>
    intro token time hle
    have hnow : 0 ≤ now := (List.pairwise_cons.1 h).1 now (by simp)
    exact ⟨fun _ _ hmem => (List.not_mem_nil hmem).elim, fun _ => hnow.trans hle⟩
  | append_singleton l e ih =>
    obtain ⟨hbefore, hzero, hlast⟩ := h.of_concat
    rw [clientRun_concat]
    exact ((ih hbefore).next hzero le_rfl).mono hlast

/-- A bound below the maximum of a list. -/
theorem lt_maximum_iff {l : List ℚ} {now : ℚ} :
    (now : WithBot ℚ) < l.maximum ↔ ∃ time ∈ l, now < time := by
  constructor
  · intro h
    by_contra hnone
    have hle : ∀ time ∈ l, time ≤ now := fun time hmem =>
      not_lt.1 fun hlt => hnone ⟨time, hmem, hlt⟩
    exact absurd h (not_lt.2 (List.maximum_le_of_forall_le fun time hmem =>
      WithBot.coe_le_coe.2 (hle time hmem)))
  · rintro ⟨time, hmem, hlt⟩
    exact (WithBot.coe_lt_coe.2 hlt).trans_le (List.le_maximum_of_mem' hmem)

theorem GitHubClient.gate_eq (c : GitHubClient δ γ) (token : δ) (now : ℚ) :
    c.gate token now = if (c.blockedUntil.get token).getD 0 ≤ now then none
      else some (.rateLimit ((c.blockedUntil.get token).getD 0)
        "GitHub API cooldown is active") := by
  unfold gate raiseIfBlocked
  dsimp only
  split_ifs
  · rfl
  · rfl

/-- **The gate** raises before the maximum of the recorded times. -/
theorem gate_clientRun {l : List (ClientEvent δ β γ)} {now : ℚ} (h : Clocked l now) (token : δ) :
    ((clientRun loads reserve l).client.gate token now).isSome ↔
      (now : WithBot ℚ) < ((clientRun loads reserve l).retryTimes token).maximum := by
  have hall : Remembers (clientRun loads reserve l) now := remembers_clientRun h
  have hrow := hall token now le_rfl
  rw [lt_maximum_iff, GitHubClient.gate_eq]
  simp only [ClientRun.mem_retryTimes]
  split_ifs with hover
  · have hpast := hrow.1 hover
    refine ⟨fun hnone => (Bool.false_ne_true hnone).elim, ?_⟩
    rintro ⟨time, hmem, hlt⟩
    exact absurd (hpast time hmem) (not_le.2 hlt)
  · refine ⟨fun _ => ?_, fun _ => rfl⟩
    by_contra hnone
    exact hover (hrow.2 fun time hmem => not_lt.1 fun hlt => hnone ⟨time, hmem, hlt⟩)

/-! ### One token alone -/

/-- Two clients agree on a token. -/
structure SameToken (token : δ) (c c' : GitHubClient δ γ) : Prop where
  reserve : c.reserve = c'.reserve
  blockedUntil : c.blockedUntil.get token = c'.blockedUntil.get token
  failures : c.failures token = c'.failures token

theorem SameToken.gate {token : δ} {c c' : GitHubClient δ γ} (h : SameToken token c c') (now : ℚ) :
    c.gate token now = c'.gate token now := by
  rw [GitHubClient.gate_eq, GitHubClient.gate_eq, h.blockedUntil]

/-- An event of the token keeps two clients in agreement. -/
theorem SameToken.next {token : δ} {r r' : ClientRun δ γ}
    (h : SameToken token r.client r'.client) {e : ClientEvent δ β γ} (he : e.token = some token) :
    SameToken token (r.next loads e).client (r'.next loads e).client := by
  cases e with
  | check token' now =>
    obtain rfl := Option.some.inj he
    unfold ClientRun.next GitHubClient.raiseIfBlocked
    dsimp only
    rw [h.blockedUntil]
    by_cases hover : (r'.client.blockedUntil.get token').getD 0 ≤ now
    · rw [if_pos hover, if_pos hover]
      refine ⟨h.reserve, ?_, h.failures⟩
      dsimp only
      rw [Table.get_erase, Table.get_erase, if_pos rfl, if_pos rfl]
    · rw [if_neg hover, if_neg hover]
      exact h
  | answer token' path method cached now reply =>
    obtain rfl := Option.some.inj he
    have hlimits := r.client.handle_limits loads token' path method cached now reply
    have hlimits' := r'.client.handle_limits loads token' path method cached now reply
    have hretry := hlimits.retryAt
    rw [h.reserve, h.failures, ← hlimits'.retryAt] at hretry
    refine ⟨?_, ?_, ?_⟩
    · exact hlimits.reserve.trans (h.reserve.trans hlimits'.reserve.symm)
    · show (r.client.handle loads token' path method cached now reply).1.blockedUntil.get token' =
        (r'.client.handle loads token' path method cached now reply).1.blockedUntil.get token'
      rw [GitHubClient.blockedUntil_handle, GitHubClient.blockedUntil_handle, hretry]
      split
      · exact h.blockedUntil
      · rw [Table.get_put, Table.get_put, if_pos rfl, if_pos rfl, h.blockedUntil]
    · refine hlimits.counted.trans ?_
      rw [h.reserve, h.failures]
      exact hlimits'.counted.symm
  | paced now => cases he

/-- An event of another token changes nothing for this one. -/
theorem SameToken.skip {token : δ} {r r' : ClientRun δ γ}
    (h : SameToken token r.client r'.client) {e : ClientEvent δ β γ} (he : e.token ≠ some token) :
    SameToken token (r.next loads e).client r'.client := by
  cases e with
  | check token' now =>
    have hne : token ≠ token' := fun heq => he (congrArg some heq.symm)
    unfold ClientRun.next
    dsimp only
    split
    · rename_i client hok
      obtain ⟨-, rfl⟩ := GitHubClient.raiseIfBlocked_ok hok
      refine ⟨h.reserve, ?_, h.failures⟩
      dsimp only
      rw [Table.get_erase, if_neg hne]
      exact h.blockedUntil
    · exact h
  | answer token' path method cached now reply =>
    have hne : token ≠ token' := fun heq => he (congrArg some heq.symm)
    have hlimits := r.client.handle_limits loads token' path method cached now reply
    refine ⟨hlimits.reserve.trans h.reserve, ?_, (hlimits.others token hne).trans h.failures⟩
    show (r.client.handle loads token' path method cached now reply).1.blockedUntil.get token = _
    rw [GitHubClient.blockedUntil_handle]
    split
    · exact h.blockedUntil
    · rw [Table.get_put, if_neg hne]
      exact h.blockedUntil
  | paced now => exact ⟨h.reserve, h.blockedUntil, h.failures⟩

/-- **Tokens do not meet**: what a client knows of one, it knows from the events of that one. -/
theorem sameToken_clientRun (l : List (ClientEvent δ β γ)) (token : δ) :
    SameToken token (clientRun loads reserve l).client
      (clientRun loads reserve (l.filter fun e => e.token = some token)).client := by
  induction l using List.reverseRecOn with
  | nil => exact ⟨rfl, rfl, rfl⟩
  | append_singleton l e ih =>
    rw [List.filter_append, List.filter_singleton, clientRun_concat]
    by_cases he : e.token = some token
    · rw [decide_eq_true he, cond_true, clientRun_concat]
      exact ih.next he
    · rw [decide_eq_false he, cond_false, List.append_nil]
      exact ih.skip he

/-! ### The pauses of secondary limits -/

/-- The secondary limits of a token since its count was last cleared. -/
def secondaryCount (reserve : ℤ) (token : δ) (l : List (ClientEvent δ β γ)) : ℕ :=
  l.foldl (fun n e => countAfter (e.clears reserve token) (e.isSecondary token) n) 0

theorem secondaryCount_concat (token : δ) (l : List (ClientEvent δ β γ)) (e : ClientEvent δ β γ) :
    secondaryCount reserve token (l ++ [e]) = countAfter (e.clears reserve token)
      (e.isSecondary token) (secondaryCount reserve token l) := by
  unfold secondaryCount
  rw [List.foldl_append]
  rfl

/-- The counter of a token after one event. -/
theorem failures_next (r : ClientRun δ γ) (e : ClientEvent δ β γ) (token : δ) :
    (r.next loads e).client.failures token = countAfter (e.clears r.client.reserve token)
      (e.isSecondary token) (r.client.failures token) := by
  cases e with
  | check token' now =>
    unfold ClientRun.next
    dsimp only
    split
    · rename_i client hok
      obtain ⟨-, rfl⟩ := GitHubClient.raiseIfBlocked_ok hok
      rfl
    · rfl
  | answer token' path method cached now reply =>
    have hlimits := r.client.handle_limits loads token' path method cached now reply
    unfold ClientEvent.clears ClientEvent.isSecondary
    dsimp only
    by_cases htoken : token' = token
    · subst htoken
      rw [decide_eq_true rfl, Bool.true_and, Bool.true_and]
      exact hlimits.counted
    · rw [decide_eq_false htoken, Bool.false_and, Bool.false_and]
      exact hlimits.others token fun heq => htoken heq.symm
  | paced now => rfl

theorem failures_clientRun (l : List (ClientEvent δ β γ)) (token : δ) :
    (clientRun loads reserve l).client.failures token = secondaryCount reserve token l := by
  induction l using List.reverseRecOn with
  | nil => rfl
  | append_singleton l e ih =>
    rw [clientRun_concat, failures_next, reserve_clientRun, ih, secondaryCount_concat]

/-- In a stretch without a clearing response the count is that of the stretch. -/
theorem secondaryCount_stretch {before between : List (ClientEvent δ β γ)} {token : δ}
    (hbefore : before = [] ∨
      ∃ earlier e, before = earlier ++ [e] ∧ e.clears reserve token = true)
    (hbetween : ∀ e ∈ between, e.clears reserve token = false) :
    secondaryCount reserve token (before ++ between) =
      between.countP fun e => e.isSecondary token := by
  induction between using List.reverseRecOn with
  | nil =>
    rw [List.append_nil]
    rcases hbefore with rfl | ⟨earlier, e, rfl, hclears⟩
    · rfl
    · rw [secondaryCount_concat, hclears]
      rfl
  | append_singleton between e ih =>
    have hrest := ih fun e' he' => hbetween e' (List.mem_append_left _ he')
    rw [← List.append_assoc, secondaryCount_concat, hrest, hbetween e (by simp),
      List.countP_append, List.countP_singleton]
    unfold countAfter
    rw [if_neg Bool.false_ne_true]
    split_ifs
    · rfl
    · rfl

/-- What the limit at the end of a list records. -/
theorem recorded_secondary {before between : List (ClientEvent δ β γ)} {token : δ}
    (path : String) (method : HttpMethod) {cached : Option (ConditionalResponse γ)} (now : ℚ)
    {reply : HttpAnswer β} (hsecondary : reply.isSecondary cached.isSome = true)
    (hbefore : before = [] ∨
      ∃ earlier e, before = earlier ++ [e] ∧ e.clears reserve token = true)
    (hbetween : ∀ e ∈ between, e.clears reserve token = false) :
    (clientRun loads reserve
        (before ++ between ++ [.answer token path method cached now reply])).recorded =
      (clientRun loads reserve (before ++ between)).recorded ++
        [(token, now + secondaryDelay (between.countP fun e => e.isSecondary token))] := by
  rw [clientRun_concat, ← secondaryCount_stretch hbefore hbetween,
    ← @failures_clientRun _ _ _ _ loads]
  generalize clientRun loads reserve (before ++ between) = r
  have hretry := (r.client.handle_limits loads token path method cached now reply).retryAt
  rw [HttpAnswer.answerRetry_of_isSecondary hsecondary] at hretry
  show r.recorded ++ ((r.client.handle loads token path method cached now reply).2.retryAt.map
    fun retryAt => (token, retryAt)).toList = _
  rw [hretry]
  rfl

end Events

/-! ### The requests of many threads -/

section Threads

variable {ι β δ γ : Type*} [DecidableEq ι] [DecidableEq δ] (x : Traffic ι δ β γ)

omit [DecidableEq ι] [DecidableEq δ] in
/-- What a step does under the state lock. -/
def Requests.events (s : Requests ι δ β γ) : RequestAction ι β → List (ClientEvent δ β γ)
  | .check i =>
      match s.phase i with
      | .start => [.check (x.token i) s.clock]
      | _ => []
  | .paced i =>
      match s.phase i with
      | .pacing _ _ => [.paced s.clock]
      | _ => []
  | .handle i =>
      match s.phase i with
      | .answered cached _ answer =>
          [.answer (x.token i) (x.call i).path (x.call i).method cached s.clock answer]
      | _ => []
  | _ => []

/-- The events of a run. -/
def clientEvents : Requests ι δ β γ → List (RequestAction ι β) → List (ClientEvent δ β γ)
  | _, [] => []
  | s, a :: l => s.events x a ++ (requestStep x s a).elim [] fun t => clientEvents t l

/-- The wall clock does not go back. -/
def ClockForward (s : Requests ι δ β γ) : RequestAction ι β → Prop
  | .setClock time => s.clock ≤ time
  | _ => True

variable {x} {s t : Requests ι δ β γ} {a : RequestAction ι β}

omit [DecidableEq ι] [DecidableEq δ] in
theorem time_of_mem_events {e : ClientEvent δ β γ} (h : e ∈ s.events x a) : e.time = s.clock := by
  unfold Requests.events at h
  split at h
  · split at h
    · obtain rfl := List.mem_singleton.1 h
      rfl
    · cases h
  · split at h
    · obtain rfl := List.mem_singleton.1 h
      rfl
    · cases h
  · split at h
    · obtain rfl := List.mem_singleton.1 h
      rfl
    · cases h
  · cases h

/-- The client of one step. -/
theorem client_step (h : requestStep x s a = some t) {r : ClientRun δ γ}
    (hr : r.client = s.client) :
    ((s.events x a).foldl (ClientRun.next x.loads) r).client = t.client := by
  cases a with
  | check i =>
    unfold requestStep at h
    dsimp only at h
    split at h
    · rename_i hphase
      unfold Requests.events
      dsimp only
      rw [hphase]
      show (r.next x.loads (.check (x.token i) s.clock)).client = t.client
      unfold ClientRun.next
      dsimp only
      rw [hr]
      cases hanswer : s.client.raiseIfBlocked (x.token i) s.clock with
      | ok client =>
        rw [hanswer] at h
        obtain rfl := Option.some.inj h
        rfl
      | error error =>
        rw [hanswer] at h
        obtain rfl := Option.some.inj h
        exact hr
    · cases h
  | handle i =>
    unfold requestStep at h
    dsimp only at h
    split at h
    · rename_i cached held answer hphase
      obtain rfl := Option.some.inj h
      unfold Requests.events
      dsimp only
      rw [hphase]
      show (r.client.handle x.loads (x.token i) (x.call i).path (x.call i).method cached s.clock
        answer).1 = _
      rw [hr]
      rfl
    · cases h
  | paced i =>
    cases requestStep_cases h with
    | paced hphase =>
      unfold Requests.events
      dsimp only
      rw [hphase]
      show { r.client with lastMutationAt := s.clock } = { s.client with lastMutationAt := s.clock }
      rw [hr]
  | takeSlot i =>
    cases requestStep_cases h with
    | takeSlot hphase => exact hr
  | lockMutation i =>
    cases requestStep_cases h with
    | lockMutation hphase hfree => exact hr
  | send i =>
    cases requestStep_cases h with
    | send hphase => exact hr
  | answer i answer =>
    cases requestStep_cases h with
    | answer hphase => exact hr
  | setClock time =>
    cases requestStep_cases h with
    | setClock => exact hr
  | evolve content =>
    cases requestStep_cases h with
    | evolve => exact hr

/-- The clock after one step. -/
theorem clock_step (h : requestStep x s a = some t) (hclock : ClockForward s a) :
    s.clock ≤ t.clock := by
  cases requestStep_cases h with
  | setClock => exact hclock
  | _ => exact le_rfl

theorem client_run {l : List (RequestAction ι β)} (h : run (requestStep x) s l = some t)
    {r : ClientRun δ γ} (hr : r.client = s.client) :
    ((clientEvents x s l).foldl (ClientRun.next x.loads) r).client = t.client := by
  induction l generalizing s r with
  | nil =>
    obtain rfl := Option.some.inj h
    exact hr
  | cons a l ih =>
    obtain ⟨u, hu, hrest⟩ := Option.bind_eq_some_iff.1 h
    unfold clientEvents
    rw [hu, Option.elim_some, List.foldl_append]
    exact ih hrest (client_step hu hr)

theorem clock_run {l : List (RequestAction ι β)} (h : run (requestStep x) s l = some t)
    (hclock : Along (requestStep x) ClockForward s l) :
    (s.clock :: ((clientEvents x s l).map ClientEvent.time ++ [t.clock])).Pairwise (· ≤ ·) := by
  induction l generalizing s with
  | nil =>
    obtain rfl := Option.some.inj h
    simp [clientEvents]
  | cons a l ih =>
    obtain ⟨u, hu, hrest⟩ := Option.bind_eq_some_iff.1 h
    have hle := clock_step hu hclock.1
    obtain ⟨hfrom, hlater⟩ := List.pairwise_cons.1 (ih hrest (hclock.2 u hu))
    unfold clientEvents
    rw [hu, Option.elim_some, List.map_append, List.append_assoc]
    -- the events of the step all have the time of the clock before it
    have hnow : ∀ time ∈ (s.events x a).map ClientEvent.time, time = s.clock := fun time hmem => by
      obtain ⟨e, he, rfl⟩ := List.mem_map.1 hmem
      exact time_of_mem_events he
    refine List.pairwise_cons.2 ⟨fun time hmem => ?_, List.pairwise_append.2 ⟨?_, hlater, ?_⟩⟩
    · rcases List.mem_append.1 hmem with hmem | hmem
      · exact (hnow time hmem).ge
      · exact hle.trans (hfrom time hmem)
    · exact List.pairwise_of_forall_mem_list fun time hmem later hlate =>
        ((hnow time hmem).trans (hnow later hlate).symm).le
    · intro time hmem later hlate
      rw [hnow time hmem]
      exact hle.trans (hfrom later hlate)

/-- **The requests of many threads**: however they interleave, their client is one after a list of
events, in the order of the clock. -/
theorem requests_clientRun (reserve maxConcurrentRequests : ℤ) {clock : ℚ}
    (content : (pat path : String) → β) {l : List (RequestAction ι β)}
    (h : run (requestStep x) (Requests.init reserve maxConcurrentRequests clock content) l =
      some s)
    (hclock : Along (requestStep x) ClockForward
      (Requests.init reserve maxConcurrentRequests clock content) l) (hzero : 0 ≤ clock) :
    s.client = (clientRun x.loads reserve (clientEvents x
        (Requests.init reserve maxConcurrentRequests clock content) l)).client ∧
      Clocked (clientEvents x (Requests.init reserve maxConcurrentRequests clock content) l)
        s.clock := by
  refine ⟨(client_run h rfl).symm, ?_⟩
  obtain ⟨hfrom, hlater⟩ := List.pairwise_cons.1 (clock_run h hclock)
  exact List.pairwise_cons.2 ⟨fun time hmem => hzero.trans (hfrom time hmem), hlater⟩

/-- **The gate of many threads.** -/
theorem requests_gate (reserve maxConcurrentRequests : ℤ) {clock : ℚ}
    (content : (pat path : String) → β) {l : List (RequestAction ι β)}
    (h : run (requestStep x) (Requests.init reserve maxConcurrentRequests clock content) l =
      some s)
    (hclock : Along (requestStep x) ClockForward
      (Requests.init reserve maxConcurrentRequests clock content) l) (hzero : 0 ≤ clock)
    (token : δ) :
    (s.client.gate token s.clock).isSome ↔
      (s.clock : WithBot ℚ) < ((clientRun x.loads reserve (clientEvents x
        (Requests.init reserve maxConcurrentRequests clock content) l)).retryTimes
          token).maximum := by
  obtain ⟨hclient, hclocked⟩ := requests_clientRun reserve maxConcurrentRequests content h hclock
    hzero
  rw [hclient]
  exact gate_clientRun hclocked token

end Threads

/-! ### The rules together -/

/-- A successful response of the token that leaves more than the reserve. -/
def ClientEvent.aboveReserve {β δ γ : Type*} [DecidableEq δ] (reserve : ℤ) (token : δ) :
    ClientEvent δ β γ → Bool
  | .answer token' _ _ cached _ reply =>
      token' = token && (reply.successHeaders cached.isSome).any fun headers =>
        (parseIntHeader headers "X-RateLimit-Remaining").all fun remaining => reserve < remaining
  | _ => false

/-- A limit that names no time. -/
def secondaryLimit : HttpAnswer Unit := .httpError 429 (fun _ => none) (some "slow down")

/-- A response that leaves 50 requests and does not say when there will be more. -/
def fiftyLeft : HttpAnswer Unit :=
  .ok 200 (fun name => if name = "X-RateLimit-Remaining" then some "50" else none) ()

/-- A secondary limit, a response below the reserve of 100, and another secondary limit. -/
def limitBelowReserve : List (ClientEvent String Unit Unit) :=
  [.answer "pat" "/a" .get none 0 secondaryLimit, .answer "pat" "/b" .get none 1 fiftyLeft]

/-- **A response at or below the reserve may start the pauses again**: the second limit pauses for
60 seconds and not for 120. -/
theorem not_restart_above_reserve :
    ¬ ∀ (before between : List (ClientEvent String Unit Unit)) (token path : String)
        (method : HttpMethod) (cached : Option (ConditionalResponse Unit)) (now : ℚ)
        (reply : HttpAnswer Unit),
      reply.isSecondary cached.isSome = true →
      (before = [] ∨
        ∃ earlier e, before = earlier ++ [e] ∧ e.aboveReserve 100 token = true) →
      (∀ e ∈ between, e.aboveReserve 100 token = false) →
      (clientRun some 100
          (before ++ between ++ [.answer token path method cached now reply])).recorded =
        (clientRun some 100 (before ++ between)).recorded ++
          [(token, now + secondaryDelay (between.countP fun e => e.isSecondary token))] := by
  intro h
  have hlate := h [] limitBelowReserve "pat" "/c" .get none 2 secondaryLimit
    (by decide +kernel) (Or.inl rfl) (by decide +kernel)
  revert hlate
  decide +kernel

/-- **Cooldowns, answer by answer.** The gate of a token raises before the maximum of the retry
times recorded for it; other tokens make no difference to it; and secondary limits with no response
in between that passes the reserve pause for 60, 120, 240, … seconds, at most 900. -/
theorem gate_and_pauses {β δ γ : Type*} [DecidableEq δ] (loads : β → Option γ) (reserve : ℤ)
    (l : List (ClientEvent δ β γ)) :
    (∀ token now, Clocked l now →
      (((clientRun loads reserve l).client.gate token now).isSome ↔
        (now : WithBot ℚ) < ((clientRun loads reserve l).retryTimes token).maximum)) ∧
    (∀ token now, (clientRun loads reserve l).client.gate token now =
      (clientRun loads reserve (l.filter fun e => e.token = some token)).client.gate token now) ∧
    ∀ before between token path method cached now reply,
      l = before ++ between ++ [.answer token path method cached now reply] →
      reply.isSecondary cached.isSome = true →
      (before = [] ∨ ∃ earlier e, before = earlier ++ [e] ∧ e.clears reserve token = true) →
      (∀ e ∈ between, e.clears reserve token = false) →
      (clientRun loads reserve l).recorded = (clientRun loads reserve (before ++ between)).recorded ++
        [(token, now +
          ((min (60 * 2 ^ between.countP fun e => e.isSecondary token) 900 : ℕ) : ℚ))] := by
  refine ⟨fun token now h => gate_clientRun h token, fun token now => ?_, ?_⟩
  · exact (sameToken_clientRun l token).gate now
  · rintro before between token path method cached now reply rfl hsecondary hbefore hbetween
    exact recorded_secondary path method now hsecondary hbefore hbetween

/-- Two limits in a row, and the gate after each of the pauses. -/
theorem gate_and_pauses_twice :
    ((clientRun some 100 [.answer "pat" "/a" .get none 0 secondaryLimit,
        .answer "pat" "/b" .get none 60 secondaryLimit]).client.gate "pat" 61).isSome ∧
      (clientRun some 100 ([] ++ [.answer "pat" "/a" .get none 0 secondaryLimit] ++
        [.answer "pat" "/b" .get none 60 secondaryLimit])).recorded =
      (clientRun some 100 ([] ++ [.answer "pat" "/a" .get none 0 secondaryLimit])).recorded ++
        [("pat", 60 + ((min (60 * 2 ^ 1) 900 : ℕ) : ℚ))] :=
  ⟨((gate_and_pauses some 100 [.answer "pat" "/a" .get none 0 secondaryLimit,
      .answer "pat" "/b" .get none 60 secondaryLimit]).1 "pat" 61 (by
        norm_num [Clocked, ClientEvent.time])).2 (by decide +kernel),
    (gate_and_pauses some 100 _).2.2 [] [.answer "pat" "/a" .get none 0 secondaryLimit] "pat" "/b"
      .get none 60 secondaryLimit rfl (by decide +kernel) (Or.inl rfl) (by decide +kernel)⟩

end RunnerSwarm
