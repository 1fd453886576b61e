import RunnerSwarm.GitHub.Requests

/-!
# Conditional requests

A GET is sent with the `ETag` of the response that was cached when it passed the check, and a 304
stands for that response. Meanwhile other threads may replace, evict or drop the entry, and older
responses may overwrite newer ones.

`Validators` says which `ETag` stands for which representation of a path, and `Honest` what is
expected of the server: a 304 only when the `ETag` sent stands for what it holds.
`conditional_get` is the result: every returned value is decoded from what the server held when it
answered, and the cache stays within its bound. The invariant behind it, `Coherent`, says that every
cached response, in the cache or with a call, is what some representation with its `ETag` decodes
to; it does not ask that the representation is current.
-/

namespace RunnerSwarm

variable {ι δ β γ : Type*}

/-- Which `ETag` identifies which representation of a path. -/
structure Validators (β : Type*) where
  Identifies : (path etag : String) → β → Prop
  unique : ∀ {path etag b b'}, Identifies path etag b → Identifies path etag b' → b = b'

namespace Validators

/-- What the server may answer while it holds `held`. -/
def Admits (v : Validators β) (path : String) (held : β) (etag : Option String) :
    HttpAnswer β → Prop
  | .ok _ headers body => body = held ∧
      ∀ etag ∈ headers "ETag", etag ≠ "" → v.Identifies path etag held
  | .httpError code _ _ => code = 304 → ∃ sent ∈ etag, v.Identifies path sent held
  | .failed => True

instance decidableAdmits [DecidableEq β] (v : Validators β)
    [∀ path etag b, Decidable (v.Identifies path etag b)] (path : String) (held : β)
    (etag : Option String) : ∀ answer, Decidable (v.Admits path held etag answer)
  | .ok _ headers body => inferInstanceAs (Decidable (body = held ∧
      ∀ etag ∈ headers "ETag", etag ≠ "" → v.Identifies path etag held))
  | .httpError code _ _ =>
      inferInstanceAs (Decidable (code = 304 → ∃ sent ∈ etag, v.Identifies path sent held))
  | .failed => inferInstanceAs (Decidable True)

/-- The response is what a representation with its `ETag` decodes to. -/
def Decodes (v : Validators β) (loads : β → Option γ) (path : String)
    (response : ConditionalResponse γ) : Prop :=
  ∃ b, v.Identifies path response.etag b ∧ loads b = some response.data

end Validators

/-- The server keeps to its validators. -/
def Honest (v : Validators β) (x : Traffic ι δ β γ) (s : Requests ι δ β γ) :
    RequestAction ι β → Prop
  | .answer i answer => v.Admits (x.call i).path (s.content (x.call i).pat (x.call i).path)
      ((s.phase i).cached.map ConditionalResponse.etag) answer
  | _ => True

instance decidableHonest [DecidableEq β] (v : Validators β)
    [∀ path etag b, Decidable (v.Identifies path etag b)] (x : Traffic ι δ β γ)
    (s : Requests ι δ β γ) : ∀ a, Decidable (Honest v x s a)
  | .answer i answer => v.decidableAdmits (x.call i).path
      (s.content (x.call i).pat (x.call i).path)
      ((s.phase i).cached.map ConditionalResponse.etag) answer
  | .check _ => inferInstanceAs (Decidable True)
  | .takeSlot _ => inferInstanceAs (Decidable True)
  | .lockMutation _ => inferInstanceAs (Decidable True)
  | .paced _ => inferInstanceAs (Decidable True)
  | .send _ => inferInstanceAs (Decidable True)
  | .handle _ => inferInstanceAs (Decidable True)
  | .setClock _ => inferInstanceAs (Decidable True)
  | .evolve _ => inferInstanceAs (Decidable True)

/-- What a call holds. -/
def CoherentPhase (v : Validators β) (loads : β → Option γ) (path : String) :
    RequestPhase β γ → Prop
  | .start => True
  | .checked cached => ∀ response ∈ cached, v.Decodes loads path response
  | .slotted cached => ∀ response ∈ cached, v.Decodes loads path response
  | .pacing cached _ => ∀ response ∈ cached, v.Decodes loads path response
  | .ready cached => ∀ response ∈ cached, v.Decodes loads path response
  | .sent cached => ∀ response ∈ cached, v.Decodes loads path response
  | .answered cached held answer => (∀ response ∈ cached, v.Decodes loads path response) ∧
      v.Admits path held (cached.map ConditionalResponse.etag) answer
  | .ended held outcome => ∀ data, outcome = .value data →
      ∃ b, held = some b ∧ loads b = some data

/-- Every cached response is one the server once gave. -/
structure Coherent (v : Validators β) (x : Traffic ι δ β γ) (s : Requests ι δ β γ) : Prop where
  cache : ∀ key response, (key, response) ∈ s.client.conditionalCache.rows →
    v.Decodes x.loads key.2 response
  phases : ∀ i, CoherentPhase v x.loads (x.call i).path (s.phase i)
  bound : s.client.conditionalCache.rows.length ≤ maxConditionalCacheEntries

/-- What a GET returns is decoded from what the server held when it answered, and the cache is
bounded. -/
structure Transparent (x : Traffic ι δ β γ) (s : Requests ι δ β γ) : Prop where
  value : ∀ i held data, s.phase i = .ended held (.value data) →
    ∃ b, held = some b ∧ x.loads b = some data
  bound : s.client.conditionalCache.rows.length ≤ maxConditionalCacheEntries

theorem Coherent.transparent {v : Validators β} {x : Traffic ι δ β γ} {s : Requests ι δ β γ}
    (h : Coherent v x s) : Transparent x s where
  value := fun i held data hphase => by
    have hi := h.phases i
    rw [hphase] at hi
    exact hi data rfl
  bound := h.bound

section Step

variable {v : Validators β} {x : Traffic ι δ β γ} {s t : Requests ι δ β γ}
  {a : RequestAction ι β}

/-- One call moves, and the cache is as good as before. -/
theorem Coherent.move [DecidableEq ι] (h : Coherent v x s) {i : ι} {phase : RequestPhase β γ}
    (hphase : CoherentPhase v x.loads (x.call i).path phase)
    (hmoved : t.phase = Function.update s.phase i phase)
    (hcache : ∀ key response, (key, response) ∈ t.client.conditionalCache.rows →
      v.Decodes x.loads key.2 response)
    (hbound : t.client.conditionalCache.rows.length ≤ maxConditionalCacheEntries) :
    Coherent v x t := by
  have hphases := (Function.forall_update_iff s.phase
    fun j phase => CoherentPhase v x.loads (x.call j).path phase).2
    ⟨hphase, fun j _ => h.phases j⟩
  exact ⟨hcache, hmoved ▸ hphases, hbound⟩

variable [DecidableEq δ]

/-- What a call ends with is decoded from what the server held. -/
theorem value_of_handled {c c' : GitHubClient δ γ} {token : δ} {path : String}
    {cached : Option (ConditionalResponse γ)} {now : ℚ} {held : β} {answer : HttpAnswer β}
    {outcome : Outcome γ} {method : HttpMethod}
    (h : Handled x.loads c token path method cached now answer c' outcome)
    (hcached : ∀ response ∈ cached, v.Decodes x.loads path response)
    (hadmits : v.Admits path held (cached.map ConditionalResponse.etag) answer) :
    CoherentPhase v x.loads path (.ended (some held) outcome) := by
  rintro data rfl
  refine ⟨held, rfl, ?_⟩
  rcases h.of_value with ⟨status, headers, body, rfl, hdata⟩ |
    ⟨headers, text, response, rfl, hresponse, rfl⟩
  · obtain ⟨rfl, -⟩ := hadmits
    exact hdata
  · obtain ⟨etag, hetag, hheld⟩ := hadmits rfl
    rw [hresponse, Option.map_some, Option.mem_some_iff] at hetag
    obtain rfl := hetag
    obtain ⟨b, hb, hdata⟩ := hcached response hresponse
    -- the representation that was cached and the one now held share the validator
    rw [v.unique hheld hb]
    exact hdata

/-- A call reads a row of its own path. -/
theorem decodes_cached {client : GitHubClient δ γ}
    (h : ∀ key response, (key, response) ∈ client.conditionalCache.rows →
      v.Decodes x.loads key.2 response) (i : ι) :
    ∀ response ∈ x.cached client i, v.Decodes x.loads (x.call i).path response := by
  intro response hresponse
  unfold Traffic.cached at hresponse
  split_ifs at hresponse
  · exact h (x.key i) response (Table.get_eq_some_iff.1 hresponse)
  · cases hresponse

variable [DecidableEq ι]

/-- One step keeps every cached response decodable. -/
theorem coherent_step (h : Coherent v x s) (hhonest : Honest v x s a)
    (hstep : requestStep x s a = some t) : Coherent v x t := by
  cases requestStep_cases hstep with
  | @pass i client hphase hcheck =>
    obtain ⟨-, rfl⟩ := GitHubClient.raiseIfBlocked_ok hcheck
    have hread : CoherentPhase v x.loads (x.call i).path (.checked (x.cached _ i)) :=
      decodes_cached h.cache i
    exact h.move hread rfl h.cache h.bound
  | @blocked i error hphase hcheck =>
    have hraised : CoherentPhase v x.loads (x.call i).path (.ended none (.raised error)) :=
      fun data hdata => by cases hdata
    exact h.move hraised rfl h.cache h.bound
  | @takeSlot i cached hphase =>
    have hi := h.phases i
    rw [hphase] at hi
    have hslot : CoherentPhase v x.loads (x.call i).path
        (if x.isMutation i then .slotted cached else .ready cached) := by
      split_ifs
      · exact hi
      · exact hi
    exact h.move hslot rfl h.cache h.bound
  | @lockMutation i cached hphase hfree =>
    have hi : CoherentPhase v x.loads (x.call i).path
        (.pacing cached (wakeAt s.clock s.client.lastMutationAt)) := by
      have hi := h.phases i
      rwa [hphase] at hi
    exact h.move hi rfl h.cache h.bound
  | @paced i cached wake hphase =>
    have hi : CoherentPhase v x.loads (x.call i).path (.ready cached) := by
      have hi := h.phases i
      rwa [hphase] at hi
    exact h.move hi rfl h.cache h.bound
  | @send i cached hphase =>
    have hi : CoherentPhase v x.loads (x.call i).path (.sent cached) := by
      have hi := h.phases i
      rwa [hphase] at hi
    exact h.move hi rfl h.cache h.bound
  | @answer i answer cached hphase =>
    have hi := h.phases i
    rw [hphase] at hi
    have hadmits : v.Admits (x.call i).path (s.content (x.call i).pat (x.call i).path)
        ((s.phase i).cached.map ConditionalResponse.etag) answer := hhonest
    rw [hphase] at hadmits
    have hanswered : CoherentPhase v x.loads (x.call i).path
        (.answered cached (s.content (x.call i).pat (x.call i).path) answer) :=
      ⟨hi, hadmits⟩
    exact h.move hanswered rfl h.cache h.bound
  | @handle i cached held answer client outcome hphase hhandled =>
    have hi := h.phases i
    rw [hphase] at hi
    obtain ⟨hcached, hadmits⟩ := hi
    refine h.move (value_of_handled hhandled hcached hadmits) rfl (fun key response hmem => ?_)
      (hhandled.length_cache h.bound)
    rcases hhandled.mem_cache hmem with
      hold | ⟨rfl, status, headers, body, rfl, hetag, hempty, hdata⟩
    · exact h.cache key response hold
    · obtain ⟨rfl, hidentifies⟩ := hadmits
      exact ⟨body, hidentifies _ hetag hempty, hdata⟩
  | setClock => exact ⟨h.cache, h.phases, h.bound⟩
  | evolve => exact ⟨h.cache, h.phases, h.bound⟩

/-- **Conditional requests are transparent.** Whatever the order of the threads' steps and however
the content changes, a GET returns what the server held when it answered, and the cache stays
within its bound. -/
theorem conditional_get (v : Validators β) (x : Traffic ι δ β γ)
    (reserve maxConcurrentRequests : ℤ) (clock : ℚ) (content : (pat path : String) → β)
    {l : List (RequestAction ι β)} (hhonest : Along (requestStep x) (Honest v x)
      (Requests.init reserve maxConcurrentRequests clock content) l)
    (hrun : run (requestStep x) (Requests.init reserve maxConcurrentRequests clock content) l =
      some s) : Transparent x s := by
  have hinit : Coherent v x (Requests.init reserve maxConcurrentRequests clock content) :=
    ⟨fun _ _ hmem => (List.not_mem_nil hmem).elim, fun _ => trivial, Nat.zero_le _⟩
  exact (run_invariant (fun _ _ _ => coherent_step) hinit hhonest hrun).transparent

end Step

/-! ### A cached response that is replaced -/

/-- The `ETag` of a text is the text itself. -/
def textValidators : Validators String where
  Identifies := fun _ etag b => etag = b
  unique := fun h h' => h.symm.trans h'

instance (path etag b : String) : Decidable (textValidators.Identifies path etag b) :=
  inferInstanceAs (Decidable (etag = b))

/-- Three GETs of one path. -/
def threeGets : Traffic (Fin 3) String String String where
  call := fun _ => ⟨"pat", "/repos/o/r", .get⟩
  digest := id
  loads := some

/-- A response with the validator of its body. -/
def freshAnswer (body : String) : HttpAnswer String :=
  .ok 200 (fun name => if name = "ETag" then some body else none) body

/-- Call 1 has read the entry of call 0 when call 2 replaces it; then the content goes back to
what it was, and call 1 gets its 304. -/
def replacedEntry : List (RequestAction (Fin 3) String) :=
  [.check 0, .takeSlot 0, .send 0, .answer 0 (freshAnswer "old"), .handle 0,
    .check 1, .takeSlot 1, .evolve (fun _ _ => "new"), .check 2, .takeSlot 2, .send 2,
    .answer 2 (freshAnswer "new"), .handle 2, .evolve (fun _ _ => "old"), .send 1,
    .answer 1 (.httpError 304 (fun _ => none) none), .handle 1]

theorem conditional_get_replaced : ∃ s : Requests (Fin 3) String String String,
    run (requestStep threeGets) (Requests.init 100 8 0 fun _ _ => "old") replacedEntry = some s ∧
      s.phase 1 = .ended (some "old") (.value "old") ∧ Transparent threeGets s :=
  ⟨_, rfl, rfl, conditional_get textValidators threeGets 100 8 0 (fun _ _ => "old")
    (l := replacedEntry) (by decide +kernel) rfl⟩

end RunnerSwarm
