import RunnerSwarm.GitHub.Requests
import RunnerSwarm.GitHub.SharedScan

/-!
# Where returned data come from

What a client returns, it has from the answers to its requests: directly, from its cache of
conditional responses, or from a scan another call has made.

`good` is any property of data. When every answer decodes to good data only, so does what the client
keeps and returns: `Requests.Good` is that invariant for `_request` and `SharedScans.Good` for
`_get_shared`, and `good_step` and `scans_good_step` say that every step preserves it.
-/

namespace RunnerSwarm

section Requests

variable {ι δ β γ : Type*} (good : γ → Prop)

/-- The body of an answer decodes to good data. -/
def GoodAnswer (loads : β → Option γ) : HttpAnswer β → Prop
  | .ok _ _ body => ∀ data ∈ loads body, good data
  | _ => True

/-- What a call holds is good. -/
def GoodPhase (loads : β → Option γ) : RequestPhase β γ → Prop
  | .answered cached _ answer =>
      (∀ response ∈ cached, good response.data) ∧ GoodAnswer good loads answer
  | .ended _ outcome => ∀ data, outcome = .value data → good data
  | phase => ∀ response ∈ phase.cached, good response.data

/-- What a client keeps and returns is good. -/
structure Requests.Good (loads : β → Option γ) (s : Requests ι δ β γ) : Prop where
  cache : ∀ key response, (key, response) ∈ s.client.conditionalCache.rows → good response.data
  phases : ∀ i, GoodPhase good loads (s.phase i)

variable {good} {x : Traffic ι δ β γ} {s t : Requests ι δ β γ} {a : RequestAction ι β}

/-- One call moves, and the cache is as good as before. -/
theorem Requests.Good.move [DecidableEq ι] (h : s.Good good x.loads) {i : ι}
    {phase : RequestPhase β γ} (hphase : GoodPhase good x.loads phase)
    (hmoved : t.phase = Function.update s.phase i phase)
    (hcache : ∀ key response, (key, response) ∈ t.client.conditionalCache.rows →
      good response.data) : t.Good good x.loads := by
  have hphases : ∀ j, GoodPhase good x.loads (Function.update s.phase i phase j) :=
    (Function.forall_update_iff s.phase fun _ phase => GoodPhase good x.loads phase).2
      ⟨hphase, fun j _ => h.phases j⟩
  exact ⟨hcache, hmoved ▸ hphases⟩

variable [DecidableEq δ]

/-- A returned value is in the answer or was cached. -/
theorem good_of_handled {c c' : GitHubClient δ γ} {token : δ} {path : String}
    {cached : Option (ConditionalResponse γ)} {now : ℚ} {answer : HttpAnswer β}
    {outcome : Outcome γ} {method : HttpMethod}
    (h : Handled x.loads c token path method cached now answer c' outcome)
    (hcached : ∀ response ∈ cached, good response.data) (hanswer : GoodAnswer good x.loads answer) :
    ∀ data, outcome = .value data → good data := by
  rintro data rfl
  rcases h.of_value with ⟨status, headers, body, rfl, hdata⟩ |
    ⟨headers, text, response, rfl, hresponse, rfl⟩
  · exact hanswer data hdata
  · exact hcached response hresponse

/-- What a call reads under the check is in the cache. -/
theorem good_cached {client : GitHubClient δ γ}
    (h : ∀ key response, (key, response) ∈ client.conditionalCache.rows → good response.data)
    (i : ι) : GoodPhase good x.loads (.checked (x.cached client i)) := by
  intro response hresponse
  unfold RequestPhase.cached Traffic.cached at hresponse
  split_ifs at hresponse
  · exact h (x.key i) response (Table.get_eq_some_iff.1 hresponse)
  · cases hresponse

variable [DecidableEq ι]

/-- **One step of a client.** -/
theorem good_step (h : s.Good good x.loads)
    (hanswer : ∀ i answer, a = .answer i answer → GoodAnswer good x.loads answer)
    (hstep : requestStep x s a = some t) : t.Good good x.loads := by
  cases requestStep_cases hstep with
  | @pass i client hphase hcheck =>
    obtain ⟨-, rfl⟩ := GitHubClient.raiseIfBlocked_ok hcheck
    exact h.move (good_cached h.cache i) rfl h.cache
  | @blocked i error hphase hcheck =>
    have hraised : GoodPhase good x.loads (.ended none (.raised error)) := fun _ hdata =>
      nomatch hdata
    exact h.move hraised rfl h.cache
  | @takeSlot i cached hphase =>
    have hi := h.phases i
    rw [hphase] at hi
    have hslot : GoodPhase good x.loads
        (if x.isMutation i then .slotted cached else .ready cached) := by
      split_ifs
      · exact hi
      · exact hi
    exact h.move hslot rfl h.cache
  | @lockMutation i cached hphase hfree =>
    have hi : GoodPhase good x.loads
        (.pacing cached (wakeAt s.clock s.client.lastMutationAt)) := by
      have hi := h.phases i
      rwa [hphase] at hi
    exact h.move hi rfl h.cache
  | @paced i cached wake hphase =>
    have hi : GoodPhase good x.loads (.ready cached) := by
      have hi := h.phases i
      rwa [hphase] at hi
    exact h.move hi rfl h.cache
  | @send i cached hphase =>
    have hi : GoodPhase good x.loads (.sent cached) := by
      have hi := h.phases i
      rwa [hphase] at hi
    exact h.move hi rfl h.cache
  | @answer i answer cached hphase =>
    have hi := h.phases i
    rw [hphase] at hi
    have hanswered : GoodPhase good x.loads
        (.answered cached (s.content (x.call i).pat (x.call i).path) answer) :=
      ⟨hi, hanswer i answer rfl⟩
    exact h.move hanswered rfl h.cache
  | @handle i cached held answer client outcome hphase hhandled =>
    have hi := h.phases i
    rw [hphase] at hi
    have hended : GoodPhase good x.loads (.ended (some held) outcome) :=
      good_of_handled hhandled hi.1 hi.2
    refine h.move hended rfl fun key response hmem => ?_
    rcases hhandled.mem_cache hmem with hold | ⟨rfl, status, headers, body, rfl, -, -, hdata⟩
    · exact h.cache key response hold
    · exact hi.2 response.data hdata
  | setClock => exact ⟨h.cache, h.phases⟩
  | evolve => exact ⟨h.cache, h.phases⟩

end Requests

section SharedScans

variable {ι δ γ : Type*} (good : γ → Prop)

/-- What a call of `_get_shared` holds is good. -/
def GoodScan : ScanPhase γ → Prop
  | .fetched _ _ data => good data
  | .ended (.data data) => good data
  | _ => True

/-- What the client shares and returns is good. -/
structure SharedScans.Good (s : SharedScans ι (δ × String) γ) : Prop where
  scans : ∀ key scan, (key, scan) ∈ s.scans.rows → good scan.2
  phases : ∀ i, GoodScan good (s.phase i)

variable {good} [DecidableEq ι] [DecidableEq δ] {x : ScanCalls ι δ}
  {s t : SharedScans ι (δ × String) γ} {a : ScanAction ι γ}

omit [DecidableEq δ] in
theorem SharedScans.Good.move (h : s.Good good) {i : ι} {phase : ScanPhase γ}
    (hphase : GoodScan good phase) (hmoved : t.phase = Function.update s.phase i phase)
    (hscans : ∀ key scan, (key, scan) ∈ t.scans.rows → good scan.2) : t.Good good := by
  have hphases : ∀ j, GoodScan good (Function.update s.phase i phase j) :=
    (Function.forall_update_iff s.phase fun _ phase => GoodScan good phase).2
      ⟨hphase, fun j _ => h.phases j⟩
  exact ⟨hscans, hmoved ▸ hphases⟩

/-- A call that finds a scan returns it. -/
theorem look_cases {i : ι} (h : scanStep x s (.look i) = some t) :
    ∃ lock now, t = s.move i (.fetching lock now) ∨
      ∃ scan, s.scans.get (x.key i) = some scan ∧ t = s.leave i lock (.data scan.2) := by
  unfold scanStep at h
  dsimp only at h
  split at h
  · rename_i lock now hphase
    split at h
    · exact ⟨lock, now, .inl (Option.some.inj h).symm⟩
    · rename_i fetchedAt data hscan
      split_ifs at h
      · exact ⟨lock, now, .inr ⟨(fetchedAt, data), hscan, (Option.some.inj h).symm⟩⟩
      · exact ⟨lock, now, .inl (Option.some.inj h).symm⟩
  · cases h

omit [DecidableEq δ] in
/-- A call that is not at its end yet. -/
theorem SharedScans.Good.advance (h : s.Good good) {i : ι} {phase : ScanPhase γ}
    (hphase : GoodScan good phase) : (s.move i phase).Good good := h.move hphase rfl h.scans

/-- **One step of the shared scans.** -/
theorem scans_good_step (h : s.Good good)
    (hfetch : ∀ i data, a = .fetch i (.data data) → good data)
    (hstep : scanStep x s a = some t) : t.Good good := by
  cases a with
  | look i =>
    obtain ⟨lock, now, rfl | ⟨scan, hscan, rfl⟩⟩ := look_cases hstep
    · exact h.advance trivial
    · have hgood : GoodScan good (.ended (.data scan.2)) :=
        h.scans (x.key i) scan (Table.get_eq_some_iff.1 hscan)
      exact h.move hgood rfl h.scans
  | arrive i =>
    cases scanStep_cases hstep with
    | join => exact h.advance trivial
    | create =>
      have hgood : GoodScan good (.waiting s.nextLock : ScanPhase γ) := trivial
      exact h.move hgood rfl h.scans
  | acquire i =>
    cases scanStep_cases hstep with
    | @acquire _ lock =>
      have hgood : GoodScan good (.locked lock : ScanPhase γ) := trivial
      exact h.move hgood rfl h.scans
  | readClock i =>
    cases scanStep_cases hstep with
    | readClock => exact h.advance trivial
  | fetch i result =>
    cases scanStep_cases hstep with
    | fetched => exact h.advance (hfetch i _ rfl)
    | failed =>
      have hgood : GoodScan good (.ended result) := by
        cases result with
        | data data => exact hfetch i data rfl
        | nothing => trivial
        | raised => trivial
      exact h.move hgood rfl h.scans
  | store i =>
    cases scanStep_cases hstep with
    | @store _ lock now data hphase =>
      have hi := h.phases i
      rw [hphase] at hi
      have hgood : GoodScan good (.ended (.data data)) := hi
      have hmoved : ((s.keep (x.key i) now data).leave i lock (.data data)).phase =
          Function.update s.phase i (.ended (.data data)) := by
        rw [← SharedScans.keep_phase s (x.key i) now data]
        rfl
      refine h.move hgood hmoved fun key scan hmem => ?_
      rcases mem_keep hmem with hold | ⟨-, rfl⟩
      · exact h.scans key scan hold
      · exact hi
  | tick time =>
    cases scanStep_cases hstep with
    | tick => exact ⟨h.scans, h.phases⟩

end SharedScans

end RunnerSwarm
