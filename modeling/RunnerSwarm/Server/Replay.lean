import RunnerSwarm.Server.Idempotency

/-!
# What a retry receives

`Sound` is kept by every step of a request that names its own row and by pruning, so it holds in
every run of such steps. What the log of a run looks like then follows from the order of its events
(`EventOk`) and from the register lemmas `lastWrite_eq_some` and `erased_between`: between two
successful runs of a view for one key the stored response was dropped, and a replayed body is the
one last stored for that request.

* `replays_are_exact`: retries are answered exactly in every such run, on every database;
* `not_replays_are_exact`: where letter case does not count, a request is answered with the response
  of another one, whose key is spelled in other letters.
-/

namespace RunnerSwarm

variable {ρ : Type*} [DecidableEq ρ] {weight : String → String} {req : ρ → KeyedRequest}
  {s t : IdempotentServer ρ} {r : ρ}

namespace IdempotentServer

omit [DecidableEq ρ] in
theorem sound_init : Sound req (init : IdempotentServer ρ) where
  flight := fun _ h => by cases h
  exclusive := fun _ _ h => by cases h
  status := fun _ => trivial
  stored := fun _ _ => rfl
  log := eachEvent_nil

/-! ### One lemma for each step -/

theorem sound_claim (h : Sound req s) (hstep : s.step weight req (.claim r) = some t) :
    Sound req t := by
  simp only [step] at hstep
  split at hstep
  case h_2 => cases hstep
  case h_1 hst =>
    have hnot : ∀ outcome body, s.status r ≠ .remembering outcome body := by
      intro outcome body hf
      rw [hst] at hf
      cases hf
    split_ifs at hstep with hin
    · obtain rfl := Option.some.inj hstep
      refine h.ofUpdate rfl (fun hf => by cases hf) (fun r' _ hr' => h.flight r' hr')
        (fun hf => by cases hf) trivial
        (fun r' _ => (h.status r').mono (fun _ he => he) fun _ hnone => ⟨hnone, rfl⟩)
        (fun key hrem => h.stored key fun h' => hrem (h'.ofOther hnot rfl)) h.log
    · obtain rfl := Option.some.inj hstep
      have hfresh : ∀ r' ≠ r, (s.status r').holdsKey = true →
          (req r').scopedKey ≠ (req r).scopedKey := fun r' _ hr' heq =>
        hin (heq ▸ h.flight r' hr')
      refine h.ofUpdate rfl (fun _ => Finset.mem_insert_self _ _)
        (fun r' _ hr' => Finset.mem_insert_of_mem (h.flight r' hr')) (fun _ => hfresh) trivial
        (fun r' _ => (h.status r').mono (fun _ he => he) fun _ hnone => ⟨hnone, rfl⟩)
        (fun key hrem => h.stored key fun h' => hrem (h'.ofOther hnot rfl)) h.log

/-- A step of a request that holds its key and only adds one event to the log. -/
theorem sound_of_event (h : Sound req s) (hr : (s.status r).holdsKey = true)
    (hnot : ∀ outcome body, s.status r ≠ .remembering outcome body) {status : RequestStatus}
    {e : HttpEvent ρ} (ht : t = { s.setStatus r status with log := s.log ++ [e] })
    (hother : ∀ key ≠ (req r).scopedKey, e.stores req key = none)
    (hself : StatusOk req t r status) (he : EventOk req s.log e)
    (hstored : ¬ Remembering req t (req r).scopedKey →
      e.stores req (req r).scopedKey = none) : Sound req t := by
  subst ht
  have hsub : s.log ⊆ s.log ++ [e] := List.subset_append_left _ _
  refine h.ofUpdate rfl (fun _ => h.flight r hr) (fun r' _ hr' => h.flight r' hr')
    (fun _ r' hne hr' => h.other hr hne hr') hself (fun r' hne => (h.status r').mono hsub ?_)
    (fun key hkey => ?_) (h.log.concat he)
  · intro hr' hnone
    exact ⟨hnone, remembered_of_silent (hother _ (h.other hr hne hr'))⟩
  · show (s.responses.get key).map (·.response) = remembered req key (s.log ++ [e])
    by_cases heq : key = (req r).scopedKey
    · subst heq
      rw [remembered_of_silent (hstored hkey)]
      exact h.stored_self hr hnot
    · rw [remembered_of_silent (hother key heq)]
      exact h.stored key fun hrem => hkey (hrem.ofUpdate rfl heq)

theorem sound_lookUp (h : Sound req s) (hname : ¬ s.responses.Clash weight (req r).scopedKey)
    (hstep : s.step weight req (.lookUp r) = some t) : Sound req t := by
  simp only [step, Table.spelling_eq hname] at hstep
  split at hstep
  case h_2 => cases hstep
  case h_1 hst =>
    have hr : (s.status r).holdsKey = true := by rw [hst]; rfl
    have hnot : ∀ outcome body, s.status r ≠ .remembering outcome body := by
      intro outcome body hf
      rw [hst] at hf
      cases hf
    have hfound := h.stored_self hr hnot
    split at hstep
    case h_1 row hrow =>
      obtain rfl := Option.some.inj hstep
      rw [hrow] at hfound
      exact sound_of_event h hr hnot rfl (fun _ _ => rfl) (by simp [StatusOk, AnswerLogged])
        hfound.symm fun _ => rfl
    case h_2 hnone =>
      obtain rfl := Option.some.inj hstep
      rw [hnone] at hfound
      exact sound_of_event h hr hnot rfl (fun _ _ => rfl) ⟨hnone, by simp⟩ hfound.symm fun _ => rfl

theorem sound_viewEnds (h : Sound req s) {outcome : ViewOutcome}
    (hstep : s.step weight req (.viewEnds r outcome) = some t) : Sound req t := by
  simp only [step] at hstep
  split at hstep
  case h_2 => cases hstep
  case h_1 hst =>
    have hr : (s.status r).holdsKey = true := by rw [hst]; rfl
    have hnot : ∀ outcome body, s.status r ≠ .remembering outcome body := by
      intro outcome body hf
      rw [hst] at hf
      cases hf
    have hfound := h.stored_self hr hnot
    obtain ⟨hnone, hstarted⟩ : s.responses.get (req r).scopedKey = none ∧
        .started r ∈ s.log := by
      have := h.status r
      rw [hst] at this
      exact this
    rw [hnone] at hfound
    obtain rfl := Option.some.inj hstep
    refine sound_of_event h hr hnot rfl (fun key hkey => stores_ended_of_ne hkey) ?_
      ⟨hstarted, fun _ => hfound.symm⟩ fun hkey => ?_
    · cases hsucc : outcome.success with
      | none => exact List.mem_append_right _ (List.mem_singleton_self _)
      | some body =>
        refine ⟨hnone, hsucc, List.mem_append_right _ (List.mem_singleton_self _), ?_⟩
        show remembered req _ (s.log ++ [.ended r outcome]) = some body
        rw [remembered_concat, stores_ended_self, hsucc]
        rfl
    · cases hsucc : outcome.success with
      | none => rw [stores_ended_self, hsucc]; rfl
      | some body =>
        -- a 2xx response is on its way to the table
        refine absurd ⟨r, outcome, body, ?_, rfl⟩ hkey
        show Function.update s.status r _ r = _
        rw [Function.update_self, hsucc]

theorem sound_remember (h : Sound req s) (hname : ¬ s.responses.Clash weight (req r).scopedKey)
    {ts : ℚ} (hstep : s.step weight req (.remember r ts) = some t) : Sound req t := by
  simp only [step, Table.spelling_eq hname] at hstep
  split at hstep
  case h_2 => cases hstep
  case h_1 outcome body hst =>
    have hr : (s.status r).holdsKey = true := by rw [hst]; rfl
    obtain ⟨-, -, hended, hrem⟩ : s.responses.get (req r).scopedKey = none ∧
        outcome.success = some body ∧ .ended r outcome ∈ s.log ∧
        remembered req (req r).scopedKey s.log = some body := by
      have := h.status r
      rw [hst] at this
      exact this
    obtain rfl := Option.some.inj hstep
    refine h.ofUpdate rfl (fun _ => h.flight r hr) (fun r' _ hr' => h.flight r' hr')
      (fun _ r' hne hr' => h.other hr hne hr') hended (fun r' hne => ?_)
      (fun key hkey => ?_) h.log
    · refine StatusOk.mono (s := s) (fun _ he => he) (fun hr' hnone => ⟨?_, rfl⟩) (h.status r')
      show (s.responses.put (req r).scopedKey ⟨body, ts⟩).get (req r').scopedKey = none
      rw [Table.get_put, if_neg (h.other hr hne hr'), hnone]
    · show ((s.responses.put (req r).scopedKey ⟨body, ts⟩).get key).map (·.response) =
        remembered req key s.log
      rw [Table.get_put]
      split_ifs with heq
      · rw [heq, hrem]
        rfl
      · exact h.stored key fun hrem' => hkey (hrem'.ofUpdate rfl heq)

theorem sound_release (h : Sound req s) (hstep : s.step weight req (.release r) = some t) :
    Sound req t := by
  simp only [step] at hstep
  split at hstep
  case h_2 => cases hstep
  case h_1 answer hst =>
    have hr : (s.status r).holdsKey = true := by rw [hst]; rfl
    have hlogged : AnswerLogged s.log r answer := by
      have := h.status r
      rw [hst] at this
      exact this
    obtain rfl := Option.some.inj hstep
    refine h.ofUpdate rfl (fun hf => by cases hf)
      (fun r' hne hr' => Finset.mem_erase.2 ⟨h.other hr hne hr', h.flight r' hr'⟩)
      (fun hf => by cases hf) hlogged
      (fun r' _ => (h.status r').mono (fun _ he => he) fun _ hnone => ⟨hnone, rfl⟩)
      (fun key hkey => ?_) h.log
    show (s.responses.get key).map (·.response) = remembered req key s.log
    by_cases heq : key = (req r).scopedKey
    · rw [heq]
      refine h.stored_self hr fun outcome body hf => ?_
      rw [hst] at hf
      cases hf
    · exact h.stored key fun hrem => hkey (hrem.ofUpdate rfl heq)

omit [DecidableEq ρ] in
theorem eachEvent_dropped {log : List (HttpEvent ρ)} (h : EachEvent (EventOk req) log)
    (keys : List String) : EachEvent (EventOk req) (log ++ keys.map .dropped) := by
  apply h.append
  intro pre event post hkeys
  have hmem : event ∈ keys.map HttpEvent.dropped := by simp [hkeys]
  obtain ⟨key, -, rfl⟩ := List.mem_map.1 hmem
  trivial

theorem sound_prune (h : Sound req s) {cutoff : ℚ}
    (hstep : s.step weight req (.prune cutoff) = some t) : Sound req t := by
  obtain rfl := Option.some.inj hstep
  have hget : ∀ key, s.responses.get key = none →
      key ∉ prunedKeys s.responses cutoff := by
    intro key hnone hmem
    obtain ⟨row, hrow, -⟩ := mem_prunedKeys.1 hmem
    rw [hnone] at hrow
    cases hrow
  refine ⟨h.flight, h.exclusive, fun r' => (h.status r').mono ?_ ?_, fun key hkey => ?_,
    eachEvent_dropped h.log _⟩
  · exact List.subset_append_left _ _
  · intro _ hnone
    refine ⟨?_, ?_⟩
    · show (s.responses.deleteWhere _).get _ = none
      rw [Table.get_deleteWhere, hnone]
      rfl
    · show remembered req _ (s.log ++ _) = _
      rw [remembered_pruned, if_neg (hget _ hnone)]
  · show ((s.responses.deleteWhere _).get key).map (·.response) = remembered req key (s.log ++ _)
    have hstored := h.stored key hkey
    rw [Table.get_deleteWhere, remembered_pruned, ← hstored]
    cases hrow : s.responses.get key with
    | none => rw [if_neg (hget key hrow)]; rfl
    | some row =>
      by_cases hts : row.ts < cutoff
      · rw [if_pos (mem_prunedKeys.2 ⟨row, hrow, hts⟩)]
        simp [Option.filter, hts]
      · rw [if_neg]
        · simp [Option.filter, hts]
        · intro hmem
          obtain ⟨row', hrow', hts'⟩ := mem_prunedKeys.1 hmem
          rw [hrow] at hrow'
          obtain rfl := Option.some.inj hrow'
          exact hts hts'

/-- **The invariant is kept by every step** that names its own row. -/
theorem sound_step {a : HttpAction ρ} (h : Sound req s) (hname : NamesItsRow weight req s a)
    (hstep : s.step weight req a = some t) : Sound req t := by
  cases a with
  | claim r => exact sound_claim h hstep
  | lookUp r => exact sound_lookUp h hname hstep
  | viewEnds r outcome => exact sound_viewEnds h hstep
  | remember r ts => exact sound_remember h hname hstep
  | release r => exact sound_release h hstep
  | prune cutoff => exact sound_prune h hstep

theorem sound_run {l : List (HttpAction ρ)}
    (hnames : Along (step weight req) (NamesItsRow weight req) init l)
    (hrun : run (step weight req) init l = some s) : Sound req s :=
  run_invariant (fun _ _ _ hs hname hst => sound_step hs hname hst) sound_init hnames hrun

/-! ### What the log says -/

omit [DecidableEq ρ] in
theorem stores_erase {key : String} {e : HttpEvent ρ} (h : e.stores req key = some none) :
    e = .dropped key := by
  cases e with
  | started r => cases h
  | replayed r body => cases h
  | ended r outcome =>
    simp only [HttpEvent.stores] at h
    split_ifs at h
    cases hsucc : outcome.success <;> rw [hsucc] at h <;> cases h
  | dropped key' =>
    simp only [HttpEvent.stores] at h
    split_ifs at h with hkey
    rw [hkey]

omit [DecidableEq ρ] in
theorem stores_write {key body : String} {e : HttpEvent ρ}
    (h : e.stores req key = some (some body)) :
    ∃ r outcome, e = .ended r outcome ∧ (req r).scopedKey = key ∧ outcome.success = some body := by
  cases e with
  | started r => cases h
  | replayed r body => cases h
  | dropped key' =>
    simp only [HttpEvent.stores] at h
    split_ifs at h
    cases h
  | ended r outcome =>
    simp only [HttpEvent.stores] at h
    split_ifs at h with hkey
    obtain ⟨body', hsucc, hbody⟩ := Option.map_eq_some_iff.1 h
    exact ⟨r, outcome, rfl, hkey, hsucc.trans hbody⟩

omit [DecidableEq ρ] in
/-- After a successful run of the view, an empty place in the table means a drop. -/
theorem dropped_between {pre post : List (HttpEvent ρ)} {outcome : ViewOutcome}
    (hsucc : outcome.success ≠ none)
    (h : remembered req (req r).scopedKey (pre ++ .ended r outcome :: post) = none) :
    .dropped (req r).scopedKey ∈ post := by
  obtain ⟨body, hbody⟩ := Option.ne_none_iff_exists'.1 hsucc
  have hw : (HttpEvent.ended r outcome).stores req (req r).scopedKey = some (some body) := by
    rw [stores_ended_self, hbody]
    rfl
  obtain ⟨x, hx, herase⟩ := erased_between hw h
  exact stores_erase herase ▸ hx

/-- The contract of the Idempotency-Key, as the log and the statuses show it. A run of the view
succeeds when `outcome.success` is a body. -/
structure ReplaysExactly (req : ρ → KeyedRequest) (s : IdempotentServer ρ) : Prop where
  once : ∀ pre r outcome mid r' outcome' post,
    s.log = pre ++ .ended r outcome :: (mid ++ .ended r' outcome' :: post) →
    outcome.success ≠ none → outcome'.success ≠ none → req r' = req r →
    .dropped (req r).scopedKey ∈ mid
  disjoint : ∀ r r', s.status r = .executing → s.status r' = .executing → req r = req r' → r = r'
  replayed : ∀ pre r body post, s.log = pre ++ .replayed r body :: post →
    ∃ pre' r' outcome between, pre = pre' ++ .ended r' outcome :: between ∧
      outcome.success = some body ∧ req r' = req r ∧ .dropped (req r).scopedKey ∉ between
  fresh : ∀ pre r post, s.log = pre ++ .started r :: post →
    ∀ pre' r' outcome between, pre = pre' ++ .ended r' outcome :: between →
      outcome.success ≠ none → req r' = req r → .dropped (req r).scopedKey ∈ between
  answered : ∀ r answer, s.status r = .answered answer →
    answer = .inProgress ∨ (∃ body, answer = .replayed body ∧ .replayed r body ∈ s.log) ∨
      ∃ outcome, answer = .executed outcome ∧ .started r ∈ s.log ∧ .ended r outcome ∈ s.log

omit [DecidableEq ρ] in
theorem replaysExactly_of_sound (h : Sound req s) : ReplaysExactly req s where
  once := by
    intro pre r outcome mid r' outcome' post hlog hsucc hsucc' hreq
    rw [← List.cons_append, ← List.append_assoc] at hlog
    obtain ⟨-, hnone⟩ := h.log _ _ _ hlog
    have hempty := hnone hsucc'
    rw [hreq] at hempty
    exact dropped_between hsucc hempty
  disjoint := by
    intro r r' hr hr' hreq
    exact h.exclusive r r' (by rw [hr]; rfl) (by rw [hr']; rfl) (congrArg _ hreq)
  replayed := by
    intro pre r body post hlog
    obtain ⟨pre', e, between, hpre, hwrite, hsilent⟩ := lastWrite_eq_some (h.log _ _ _ hlog)
    obtain ⟨r', outcome, rfl, hkey, hsucc⟩ := stores_write hwrite
    refine ⟨pre', r', outcome, between, hpre, hsucc, KeyedRequest.scopedKey_injective hkey, ?_⟩
    intro hdrop
    have := hsilent _ hdrop
    simp [HttpEvent.stores] at this
  fresh := by
    intro pre r post hlog pre' r' outcome between hpre hsucc hreq
    have hempty : remembered req (req r).scopedKey pre = none := h.log _ _ _ hlog
    rw [hpre, ← hreq] at hempty
    exact hreq ▸ dropped_between hsucc hempty
  answered := by
    intro r answer hst
    have hlogged := h.status r
    rw [hst] at hlogged
    cases answer with
    | inProgress => exact Or.inl rfl
    | replayed body => exact Or.inr (Or.inl ⟨body, rfl, hlogged⟩)
    | executed outcome =>
      obtain ⟨pre, post, hlog⟩ := List.append_of_mem hlogged
      obtain ⟨hstarted, -⟩ := h.log _ _ _ hlog
      exact Or.inr (Or.inr ⟨outcome, rfl, hlog ▸ List.mem_append_left _ hstarted, hlogged⟩)

/-- **Retries are answered exactly**, in every interleaving of requests and prunings in which each
request finds and stores its response under its own key. -/
theorem replays_are_exact (weight : String → String) (req : ρ → KeyedRequest)
    {l : List (HttpAction ρ)} (hnames : Along (step weight req) (NamesItsRow weight req) init l)
    (hrun : run (step weight req) init l = some s) : ReplaysExactly req s :=
  replaysExactly_of_sound (sound_run hnames hrun)

/-- A request to add a runner to pool `a`. -/
def scaleRequest (key : String) (h : key ≠ "") : KeyedRequest where
  method := "POST"
  path := "/api/pools/a/scale"
  key := key
  post := rfl
  routed := ⟨("pools", "scale"), by decide, "a", by decide, rfl⟩
  keyed := h

/-- A first attempt, a retry of it, and a request with another key. -/
inductive Attempt
  | first
  | retry
  | other
  deriving DecidableEq

def attempts : Attempt → KeyedRequest
  | .first | .retry => scaleRequest "Retry-1" (by decide)
  | .other => scaleRequest "retry-2" (by decide)

/-- The retry arrives while the first attempt runs. -/
def attemptSteps : List (HttpAction Attempt) :=
  [.claim .first, .lookUp .first, .claim .retry, .viewEnds .first (.returned 200 "spawned"),
    .remember .first 5, .claim .other, .release .first, .lookUp .other,
    .viewEnds .other (.returned 502 "failed"), .release .other]

theorem replays_are_exact_retry : ∃ s,
    run (step caseWeight attempts) init attemptSteps = some s ∧ ReplaysExactly attempts s :=
  ⟨_, rfl, replays_are_exact caseWeight attempts (l := attemptSteps) (by decide +kernel) rfl⟩

/-- Two requests whose keys differ in the case of a letter. -/
def likeKeyed : Bool → KeyedRequest
  | false => scaleRequest "Retry-1" (by decide)
  | true => scaleRequest "retry-1" (by decide)

/-- **A request is answered with the response of another one**, whose key the database takes for its
own. -/
theorem not_replays_are_exact :
    ¬ ∀ (weight : String → String) (req : Bool → KeyedRequest) (l : List (HttpAction Bool))
      (s : IdempotentServer Bool), run (step weight req) init l = some s →
      ReplaysExactly req s := by
  intro h
  have hexact := h caseWeight likeKeyed
    [.claim false, .lookUp false, .viewEnds false (.returned 200 "spawned"), .remember false 5,
      .release false, .claim true, .lookUp true, .release true] _ rfl
  obtain ⟨pre', r', outcome, between, hpre, -, hreq, -⟩ := hexact.replayed
    [.started false, .ended false (.returned 200 "spawned")] true "spawned" [] rfl
  have hended : HttpEvent.ended r' outcome ∈ pre' ++ .ended r' outcome :: between :=
    List.mem_append_right _ List.mem_cons_self
  have hfirst : r' = false := by
    rw [← hpre, List.mem_cons, List.mem_singleton] at hended
    rcases hended with hended | hended
    · cases hended
    · cases hended
      rfl
  rw [hfirst] at hreq
  exact absurd (congrArg KeyedRequest.key hreq) (by decide)

end IdempotentServer

end RunnerSwarm
