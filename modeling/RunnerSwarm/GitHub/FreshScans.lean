import RunnerSwarm.GitHub.Forges
import RunnerSwarm.GitHub.Provenance
import RunnerSwarm.GitHub.ScanCount
import RunnerSwarm.Lib.Log

/-!
# Fresh scans

A scan is shared for `SHARED_SCAN_SECONDS` after the moment its fetch began, and the caller that
reuses it has read the clock for its own look-up once it holds the lock.

* `loggedStep` is `scanStep` with a log of what an observer sees;
* `Sourced` is the invariant: what is shared was answered to a request for its key, sent no earlier
  than the time it is kept under;
* `FreshReturn` is what it gives for a returned value, and `scanThrough_eq` what that gives for the
  queue count of a pool: on content that does not change it is the count of unshared requests.
-/

namespace RunnerSwarm

/-- What an observer sees of `_get_shared`: the clock a call reads for its look-up, the moment it
sends a request of its own, the answer to that, and what the call returns. -/
inductive ScanEvent (ι γ : Type*)
  | looked (i : ι) (time : ℚ)
  | started (i : ι) (time : ℚ)
  | answered (i : ι) (result : FetchResult γ)
  | returned (i : ι) (result : FetchResult γ)
  deriving DecidableEq

/-- The shared scans, and the events so far. -/
structure LoggedScans (ι κ γ : Type*) where
  scans : SharedScans ι κ γ
  log : List (ScanEvent ι γ)

section Logged

variable {ι δ γ : Type*} [DecidableEq ι] [DecidableEq δ]

omit [DecidableEq ι] in
/-- The events of a step. -/
def SharedScans.events (x : ScanCalls ι δ) (s : SharedScans ι (δ × String) γ) :
    ScanAction ι γ → List (ScanEvent ι γ)
  | .readClock i => [.looked i s.clock]
  | .look i =>
      match s.phase i with
      | .timed _ now =>
          match s.scans.get (x.key i) with
          | none => [.started i s.clock]
          | some (fetchedAt, data) =>
              if now - fetchedAt < sharedScanSeconds then [.returned i (.data data)]
              else [.started i s.clock]
      | _ => []
  | .fetch i result =>
      match result with
      | .data data => [.answered i (.data data)]
      | result => [.answered i result, .returned i result]
  | .store i =>
      match s.phase i with
      | .fetched _ _ data => [.returned i (.data data)]
      | _ => []
  | _ => []

def loggedStep (x : ScanCalls ι δ) (s : LoggedScans ι (δ × String) γ) (a : ScanAction ι γ) :
    Option (LoggedScans ι (δ × String) γ) :=
  (scanStep x s.scans a).map fun t => ⟨t, s.log ++ s.scans.events x a⟩

/-- The log changes nothing. -/
theorem run_loggedStep (x : ScanCalls ι δ) (s : LoggedScans ι (δ × String) γ)
    (l : List (ScanAction ι γ)) :
    (run (loggedStep x) s l).map LoggedScans.scans = run (scanStep x) s.scans l := by
  induction l generalizing s with
  | nil => rfl
  | cons a l ih =>
    rw [run_cons, run_cons]
    unfold loggedStep
    cases scanStep x s.scans a with
    | none => rfl
    | some t => exact ih ⟨t, s.log ++ s.scans.events x a⟩

/-- **A fresh value.** What a call returns was answered to a request with its token for its path
that was sent less than `SHARED_SCAN_SECONDS` before its look-up, perhaps by another call; a failure
was the answer to its own request. -/
def FreshReturn (x : ScanCalls ι δ) (past : List (ScanEvent ι γ)) : ScanEvent ι γ → Prop
  | .returned i (.data data) => ∃ j start looked, x.pat j = x.pat i ∧ x.path j = x.path i ∧
      .started j start ∈ past ∧ .answered j (.data data) ∈ past ∧ .looked i looked ∈ past ∧
      looked - start < sharedScanSeconds
  | .returned i result => .answered i result ∈ past
  | _ => True

/-- What a call holds comes from its own requests. -/
def SourcedPhase (log : List (ScanEvent ι γ)) (clock : ℚ) (i : ι) : ScanPhase γ → Prop
  | .timed _ now => .looked i now ∈ log ∧ now ≤ clock
  | .fetching _ now => .looked i now ∈ log ∧ ∃ start, .started i start ∈ log ∧ now ≤ start
  | .fetched _ now data => .answered i (.data data) ∈ log ∧ .looked i now ∈ log ∧
      ∃ start, .started i start ∈ log ∧ now ≤ start
  | _ => True

/-- What is kept comes from a request for its key. -/
structure Sourced (x : ScanCalls ι δ) (s : LoggedScans ι (δ × String) γ) : Prop where
  kept : ∀ key scan, (key, scan) ∈ s.scans.scans.rows →
    ∃ j start, x.key j = key ∧ .started j start ∈ s.log ∧ .answered j (.data scan.2) ∈ s.log ∧
      scan.1 ≤ start
  phases : ∀ i, SourcedPhase s.log s.scans.clock i (s.scans.phase i)
  fresh : EachEvent (FreshReturn x) s.log

variable {x : ScanCalls ι δ} {s t : LoggedScans ι (δ × String) γ} {a : ScanAction ι γ}

omit [DecidableEq ι] [DecidableEq δ] in
/-- As time passes and the log grows, the source remains. -/
theorem SourcedPhase.mono {log log' : List (ScanEvent ι γ)} {clock clock' : ℚ} {i : ι}
    {phase : ScanPhase γ} (h : SourcedPhase log clock i phase) (hlog : log ⊆ log')
    (hclock : clock ≤ clock') : SourcedPhase log' clock' i phase := by
  cases phase with
  | timed lock now => exact ⟨hlog h.1, h.2.trans hclock⟩
  | fetching lock now =>
    obtain ⟨hlooked, start, hstart, hle⟩ := h
    exact ⟨hlog hlooked, start, hlog hstart, hle⟩
  | fetched lock now data =>
    obtain ⟨hanswer, hlooked, start, hstart, hle⟩ := h
    exact ⟨hlog hanswer, hlog hlooked, start, hlog hstart, hle⟩
  | start => trivial
  | waiting => trivial
  | locked => trivial
  | ended => trivial

omit [DecidableEq δ] in
/-- One call moves, and the log grows by `events`. -/
theorem Sourced.move (h : Sourced x s) {i : ι} (phase : ScanPhase γ)
    {events : List (ScanEvent ι γ)} (hmoved : t.scans.phase = Function.update s.scans.phase i phase)
    (hclock : t.scans.clock = s.scans.clock) (hlog : t.log = s.log ++ events)
    (hphase : SourcedPhase (s.log ++ events) s.scans.clock i phase)
    (hkept : ∀ key scan, (key, scan) ∈ t.scans.scans.rows → (key, scan) ∈ s.scans.scans.rows ∨
      ∃ j start, x.key j = key ∧ .started j start ∈ s.log ∧ .answered j (.data scan.2) ∈ s.log ∧
        scan.1 ≤ start)
    (hfresh : EachEvent (FreshReturn x) (s.log ++ events)) : Sourced x t := by
  have hsub : s.log ⊆ s.log ++ events := List.subset_append_left _ _
  have hothers : ∀ j, j ≠ i →
      SourcedPhase (s.log ++ events) s.scans.clock j (s.scans.phase j) := fun j _ =>
    (h.phases j).mono hsub le_rfl
  have hphases := (Function.forall_update_iff s.scans.phase fun j phase =>
    SourcedPhase (s.log ++ events) s.scans.clock j phase).2 ⟨hphase, hothers⟩
  refine ⟨fun key scan hmem => ?_, ?_, ?_⟩
  · rw [hlog]
    rcases hkept key scan hmem with hold | ⟨j, start, hkey, hstart, hanswer, hle⟩
    · obtain ⟨j, start, hkey, hstart, hanswer, hle⟩ := h.kept key scan hold
      exact ⟨j, start, hkey, hsub hstart, hsub hanswer, hle⟩
    · exact ⟨j, start, hkey, hsub hstart, hsub hanswer, hle⟩
  · rw [hmoved, hlog, hclock]
    exact hphases
  · rw [hlog]
    exact hfresh

omit [DecidableEq δ] in
/-- One call moves and nobody sees it. -/
theorem Sourced.moveQuiet (h : Sourced x s) {i : ι} (phase : ScanPhase γ)
    (hphase : ∀ log clock, SourcedPhase log clock i phase)
    (hmoved : t.scans.phase = Function.update s.scans.phase i phase)
    (hclock : t.scans.clock = s.scans.clock) (hlog : t.log = s.log ++ [])
    (hscans : t.scans.scans = s.scans.scans) : Sourced x t := by
  refine h.move phase hmoved hclock hlog (hphase _ _) (fun key scan hmem => ?_) ?_
  · rw [hscans] at hmem
    exact Or.inl hmem
  · rw [List.append_nil]
    exact h.fresh

/-- A look-up: a request of its own, or a scan that is fresh by the time the call has read. -/
theorem look_events {s t : SharedScans ι (δ × String) γ} {i : ι}
    (h : scanStep x s (.look i) = some t) :
    ∃ lock now, s.phase i = .timed lock now ∧
      ((t = s.move i (.fetching lock now) ∧ s.events x (.look i) = [.started i s.clock]) ∨
        ∃ scan, s.scans.get (x.key i) = some scan ∧ now - scan.1 < sharedScanSeconds ∧
          t = s.leave i lock (.data scan.2) ∧
          s.events x (.look i) = [.returned i (.data scan.2)]) := by
  unfold scanStep at h
  dsimp only at h
  split at h
  · rename_i lock now hphase
    refine ⟨lock, now, hphase, ?_⟩
    unfold SharedScans.events
    dsimp only
    rw [hphase]
    dsimp only
    cases hscan : s.scans.get (x.key i) with
    | none =>
      rw [hscan] at h
      exact Or.inl ⟨(Option.some.inj h).symm, rfl⟩
    | some scan =>
      obtain ⟨fetchedAt, data⟩ := scan
      rw [hscan] at h
      dsimp only at h ⊢
      by_cases hage : now - fetchedAt < sharedScanSeconds
      · rw [if_pos hage] at h ⊢
        exact Or.inr ⟨(fetchedAt, data), rfl, hage, (Option.some.inj h).symm, rfl⟩
      · rw [if_neg hage] at h ⊢
        exact Or.inl ⟨(Option.some.inj h).symm, rfl⟩
  · cases h

/-- The end of a request: only data are to be kept. -/
theorem fetch_events {s t : SharedScans ι (δ × String) γ} {i : ι} {result : FetchResult γ}
    (h : scanStep x s (.fetch i result) = some t) :
    ∃ lock now, s.phase i = .fetching lock now ∧
      ((∃ data, result = .data data ∧ t = s.move i (.fetched lock now data) ∧
          s.events x (.fetch i result) = [.answered i (.data data)]) ∨
        ((∀ data, result ≠ .data data) ∧ t = s.leave i lock result ∧
          s.events x (.fetch i result) = [.answered i result, .returned i result])) := by
  unfold scanStep at h
  dsimp only at h
  split at h
  · rename_i lock now hphase
    refine ⟨lock, now, hphase, ?_⟩
    cases result with
    | data data => exact Or.inl ⟨data, rfl, (Option.some.inj h).symm, rfl⟩
    | nothing => exact Or.inr ⟨fun _ hdata => (nomatch hdata), (Option.some.inj h).symm, rfl⟩
    | raised => exact Or.inr ⟨fun _ hdata => (nomatch hdata), (Option.some.inj h).symm, rfl⟩
  · cases h

/-- **One step.** -/
theorem Sourced.step (hdigest : ∀ i j, x.digest (x.pat i) = x.digest (x.pat j) → x.pat i = x.pat j)
    (h : Sourced x s) (hstep : loggedStep x s a = some t) : Sourced x t := by
  obtain ⟨u, hu, rfl⟩ := Option.map_eq_some_iff.1 hstep
  cases a with
  | arrive i =>
    cases scanStep_cases hu with
    | @join _ lock hphase hlock =>
      exact h.moveQuiet (.waiting lock) (fun _ _ => trivial) rfl rfl rfl rfl
    | create hphase hlock =>
      exact h.moveQuiet (.waiting s.scans.nextLock) (fun _ _ => trivial) rfl rfl rfl rfl
  | acquire i =>
    cases scanStep_cases hu with
    | @acquire _ lock hphase hfree =>
      exact h.moveQuiet (.locked lock) (fun _ _ => trivial) rfl rfl rfl rfl
  | readClock i =>
    cases scanStep_cases hu with
    | @readClock _ lock hphase =>
      refine h.move (.timed lock s.scans.clock) rfl rfl rfl ⟨?_, le_rfl⟩
        (fun _ _ => Or.inl) (h.fresh.concat trivial)
      exact List.mem_append_right _ (List.mem_singleton_self _)
  | look i =>
    obtain ⟨lock, now, hphase, ⟨rfl, hevents⟩ | ⟨scan, hscan, hage, rfl, hevents⟩⟩ :=
      look_events hu
    · have hi := h.phases i
      rw [hphase] at hi
      rw [hevents]
      refine h.move (.fetching lock now) rfl rfl rfl ⟨?_, s.scans.clock, ?_, hi.2⟩
        (fun _ _ => Or.inl) (h.fresh.concat trivial)
      · exact List.mem_append_left _ hi.1
      · exact List.mem_append_right _ (List.mem_singleton_self _)
    · have hi := h.phases i
      rw [hphase] at hi
      rw [hevents]
      obtain ⟨j, start, hkey, hstart, hanswer, hle⟩ :=
        h.kept (x.key i) scan (Table.get_eq_some_iff.1 hscan)
      obtain ⟨htoken, hpath⟩ := Prod.ext_iff.1 hkey
      refine h.move (.ended (.data scan.2)) rfl rfl rfl trivial (fun _ _ => Or.inl)
        (h.fresh.concat ?_)
      -- the fetch began no earlier than the time its scan is kept under
      exact ⟨j, start, now, hdigest j i htoken, hpath, hstart, hanswer, hi.1, by linarith⟩
  | fetch i result =>
    obtain ⟨lock, now, hphase, ⟨data, rfl, rfl, hevents⟩ | ⟨hfailed, rfl, hevents⟩⟩ :=
      fetch_events hu
    · have hi := h.phases i
      rw [hphase] at hi
      obtain ⟨hlooked, start, hstart, hle⟩ := hi
      rw [hevents]
      refine h.move (.fetched lock now data) rfl rfl rfl ⟨?_, ?_, start, ?_, hle⟩
        (fun _ _ => Or.inl) (h.fresh.concat trivial)
      · exact List.mem_append_right _ (List.mem_singleton_self _)
      · exact List.mem_append_left _ hlooked
      · exact List.mem_append_left _ hstart
    · have hown : FreshReturn x (s.log ++ [.answered i result]) (.returned i result) := by
        have hmem : .answered i result ∈ s.log ++ [.answered i result] :=
          List.mem_append_right _ (List.mem_singleton_self _)
        cases result with
        | data data => exact absurd rfl (hfailed data)
        | nothing => exact hmem
        | raised => exact hmem
      have hfresh : EachEvent (FreshReturn x)
          (s.log ++ [.answered i result, .returned i result]) := by
        have hanswered : FreshReturn x s.log (.answered i result) := trivial
        have hboth := (h.fresh.concat hanswered).concat hown
        rwa [List.append_assoc] at hboth
      rw [hevents]
      exact h.move (.ended result) rfl rfl rfl trivial (fun _ _ => Or.inl) hfresh
  | store i =>
    cases scanStep_cases hu with
    | @store _ lock now data hphase =>
      have hi := h.phases i
      rw [hphase] at hi
      obtain ⟨hanswer, hlooked, start, hstart, hle⟩ := hi
      have hevents : s.scans.events x (.store i) = [.returned i (.data data)] := by
        unfold SharedScans.events
        dsimp only
        rw [hphase]
      have hmoved : ((s.scans.keep (x.key i) now data).leave i lock (.data data)).phase =
          Function.update s.scans.phase i (.ended (.data data)) := by
        rw [← SharedScans.keep_phase s.scans (x.key i) now data]
        rfl
      have hclock : ((s.scans.keep (x.key i) now data).leave i lock (.data data)).clock =
          s.scans.clock := by
        unfold SharedScans.keep
        dsimp only
        split_ifs
        · rfl
        · rfl
      rw [hevents]
      refine h.move (.ended (.data data)) hmoved hclock rfl trivial (fun key scan hmem => ?_)
        (h.fresh.concat ?_)
      · rcases mem_keep hmem with hold | ⟨rfl, rfl⟩
        · exact Or.inl hold
        · exact Or.inr ⟨i, start, rfl, hstart, hanswer, hle⟩
      · -- a call's own request is sent after its look-up
        have hage : now - start < sharedScanSeconds := by
          have hten : (0 : ℚ) < sharedScanSeconds := by
            unfold sharedScanSeconds
            norm_num
          linarith
        exact ⟨i, start, now, rfl, rfl, hstart, hanswer, hlooked, hage⟩
  | tick time =>
    cases scanStep_cases hu with
    | tick hle =>
      have hlog : s.log ++ s.scans.events x (.tick time) = s.log := List.append_nil _
      rw [hlog]
      exact ⟨h.kept, fun i => (h.phases i).mono (List.Subset.refl _) hle, h.fresh⟩

/-- **A whole run.** -/
theorem sourced_run (hdigest : ∀ i j, x.digest (x.pat i) = x.digest (x.pat j) → x.pat i = x.pat j)
    {clock : ℚ} {l : List (ScanAction ι γ)}
    (hrun : run (loggedStep x) ⟨SharedScans.init clock, []⟩ l = some s) : Sourced x s := by
  have hinit : Sourced x (⟨SharedScans.init clock, []⟩ : LoggedScans ι (δ × String) γ) :=
    ⟨fun _ _ hmem => (List.not_mem_nil hmem).elim, fun _ => trivial, eachEvent_nil⟩
  have hall : Along (loggedStep x) (fun _ _ => True) ⟨SharedScans.init clock, []⟩ l :=
    along_of_forall (fun _ _ => trivial) _ l
  exact run_invariant (fun _ _ _ h _ hstep => h.step hdigest hstep) hinit hall hrun

omit [DecidableEq ι] [DecidableEq δ] in
/-- A value of the log was sent for less than `SHARED_SCAN_SECONDS` before its look-up. -/
theorem fresh_of_mem {log : List (ScanEvent ι γ)} (h : EachEvent (FreshReturn x) log) {i : ι}
    {data : γ} (hmem : .returned i (.data data) ∈ log) :
    ∃ j start looked, x.pat j = x.pat i ∧ x.path j = x.path i ∧ .started j start ∈ log ∧
      .answered j (.data data) ∈ log ∧ .looked i looked ∈ log ∧
      looked - start < sharedScanSeconds := by
  obtain ⟨past, rest, rfl⟩ := List.append_of_mem hmem
  obtain ⟨j, start, looked, hpat, hpath, hstart, hanswer, hlooked, hage⟩ := h past _ rest rfl
  exact ⟨j, start, looked, hpat, hpath, List.mem_append_left _ hstart,
    List.mem_append_left _ hanswer, List.mem_append_left _ hlooked, hage⟩

end Logged

/-! ### The count of a pool -/

/-- `get("workflow_runs", [])` and `get("jobs", [])` of decoded data. -/
structure ScanReader (γ : Type*) where
  runs : γ → List WorkflowRun
  jobs : γ → List WorkflowJob

def FetchResult.toAnswer {γ : Type*} : FetchResult γ → RequestAnswer
  | .data _ => .ok
  | .nothing => .failed
  | .raised => .rateLimited

section Count

variable {γ : Type*} (p : PoolConfig) (reader : ScanReader γ) (repositories : List String)
  (listing : RequestAnswer) (get : (path : String) → FetchResult γ) (now : ℚ)

/-- What a scan of the pool reads when `get` answers its requests for runs and jobs. -/
def readContent : GitHubContent where
  repositories := repositories
  runs repo status :=
    match get (p.requestPath (.runs repo status)) with
    | .data data => reader.runs data
    | _ => []
  jobs repo runId :=
    match get (p.requestPath (.jobs repo runId)) with
    | .data data => reader.jobs data
    | _ => []

/-- How the requests of that scan end. -/
def readAnswers : ScanRequest → RequestAnswer
  | .repositories => listing
  | .runs repo status => (get (p.requestPath (.runs repo status))).toAnswer
  | .jobs repo runId => (get (p.requestPath (.jobs repo runId))).toAnswer

/-- `get_queued_count` when `get` answers. -/
def countThrough : Except RateLimitError (ℕ × List JobInfo) :=
  getQueuedCount p (readContent p reader repositories get) (readAnswers p listing get) now

/-- The paths such a scan asks for: the listings of its repositories, and the jobs of what is in
them. -/
def AsksFor (path : String) : Prop :=
  ∃ repo ∈ (readContent p reader repositories get).poolRepositories p,
    ∃ status ∈ activeRunStatuses, path = p.requestPath (.runs repo status) ∨
      ∃ run ∈ (readContent p reader repositories get).runs repo status,
        path = p.requestPath (.jobs repo run.id)

variable {p reader repositories listing get now}

/-- **A count reads nothing else** than what it asks for. -/
theorem countThrough_congr {get' : (path : String) → FetchResult γ}
    (h : ∀ path, AsksFor p reader repositories get path → get path = get' path) :
    countThrough p reader repositories listing get now =
      countThrough p reader repositories listing get' now := by
  have hrepo : ∀ repo ∈ (readContent p reader repositories get).poolRepositories p, ∀ s,
      scanRepo p (readContent p reader repositories get) (readAnswers p listing get) now s repo =
        scanRepo p (readContent p reader repositories get') (readAnswers p listing get') now s
          repo := by
    intro repo hmem s
    unfold scanRepo
    refine foldlM_congr (fun status hstatus t => ?_) _
    have hlisting := h _ ⟨repo, hmem, status, hstatus, Or.inl rfl⟩
    have hruns : (readContent p reader repositories get').runs repo status =
        (readContent p reader repositories get).runs repo status := by
      unfold readContent
      dsimp only
      rw [hlisting]
    have hanswer : readAnswers p listing get' (.runs repo status) =
        readAnswers p listing get (.runs repo status) := by
      unfold readAnswers
      dsimp only
      rw [hlisting]
    unfold scanStatus ask
    rw [hruns, hanswer]
    cases readAnswers p listing get (.runs repo status) with
    | failed => rfl
    | rateLimited => rfl
    | ok =>
      refine foldlM_congr (fun run hrun u => ?_) t
      have hjobs := h _ ⟨repo, hmem, status, hstatus, Or.inr ⟨run, hrun, rfl⟩⟩
      unfold scanListed scanRun ask readAnswers readContent
      dsimp only
      rw [hjobs]
  unfold countThrough getQueuedCount scanQueue
  congr 1
  unfold GitHubContent.poolRepositories at hrepo
  split_ifs at hrepo ⊢ with hpool
  · exact hrepo _ (List.mem_singleton_self _) {}
  · have hlist : ∀ get : (path : String) → FetchResult γ,
        ask (readAnswers p listing get) .repositories
          (readContent p reader repositories get).repositories =
        ask (fun _ => listing) .repositories repositories := fun _ => rfl
    rw [hlist, hlist]
    unfold ask
    cases listing with
    | ok => exact foldlM_congr (fun repo hmem s => hrepo repo hmem s) {}
    | failed => rfl
    | rateLimited => rfl

/-- How the pool's own request for a path would have ended, on a server that holds `server`: as it
did, or with what is there. -/
def ownRequest (server : (path : String) → γ) (result : FetchResult γ) (path : String) :
    FetchResult γ :=
  match result with
  | .data _ => .data (server path)
  | failed => failed

end Count

/-- **Fresh scans.** Every returned value was obtained for exactly the token and path of the call,
by a request sent less than `SHARED_SCAN_SECONDS` before the look-up of that call, and a failure is
the call's own. So a pool's count is the one of its own requests, when the server's content has not
changed since that long before its first look-up. -/
theorem shared_scans_fresh {ι δ γ : Type*} [DecidableEq ι] [DecidableEq δ] (x : ScanCalls ι δ)
    (hdigest : ∀ i j, x.digest (x.pat i) = x.digest (x.pat j) → x.pat i = x.pat j) (clock : ℚ)
    (l : List (ScanAction ι γ)) {s : LoggedScans ι (δ × String) γ}
    (hrun : run (loggedStep x) ⟨SharedScans.init clock, []⟩ l = some s) :
    EachEvent (FreshReturn x) s.log ∧
      ∀ (p : PoolConfig) (reader : ScanReader γ) (repositories : List String)
        (listing : RequestAnswer) (get : (path : String) → FetchResult γ) (now window : ℚ)
        (server : (pat path : String) → γ),
        (∀ path, AsksFor p reader repositories get path → ∃ i, x.pat i = p.pat ∧ x.path i = path ∧
          (∀ looked, .looked i looked ∈ s.log → window + sharedScanSeconds ≤ looked) ∧
          .returned i (get path) ∈ s.log) →
        (∀ j start data, .started j start ∈ s.log → window < start →
          .answered j (.data data) ∈ s.log → data = server (x.pat j) (x.path j)) →
        countThrough p reader repositories listing get now =
          countThrough p reader repositories listing
            (fun path => ownRequest (server p.pat) (get path) path) now := by
  have hfresh := (sourced_run hdigest hrun).fresh
  refine ⟨hfresh, fun p reader repositories listing get now window server hcalls hstable => ?_⟩
  refine countThrough_congr fun path hasks => ?_
  obtain ⟨i, hpat, hpath, hwindow, hreturned⟩ := hcalls path hasks
  unfold ownRequest
  cases hget : get path with
  | nothing => rfl
  | raised => rfl
  | data data =>
    rw [hget] at hreturned
    obtain ⟨j, start, looked, hpatj, hpathj, hstart, hanswer, hlooked, hage⟩ :=
      fresh_of_mem hfresh hreturned
    have hlate := hwindow looked hlooked
    have hdata := hstable j start data hstart (by linarith) hanswer
    rw [hpatj, hpathj, hpat, hpath] at hdata
    rw [hdata]

/-! ### Two pools of one repository -/

/-- The paths of a scan of one repository with the run 7. -/
def scannedPaths : List String :=
  [eagerPool.requestPath (.runs "app" "queued"), eagerPool.requestPath (.jobs "app" 7),
    eagerPool.requestPath (.runs "app" "pending"), eagerPool.requestPath (.runs "app" "in_progress")]

/-- Two such scans: calls 0 to 3 and calls 4 to 7. -/
def twoPoolScans : ScanCalls (Fin 8) String where
  pat := fun _ => "t"
  path := fun i => scannedPaths.getD (i.val % 4) ""
  digest := id

/-- Data that were decoded as runs or as jobs. -/
def pairReader : ScanReader (List WorkflowRun × List WorkflowJob) := ⟨Prod.fst, Prod.snd⟩

/-- One queued run, with a job that waits for a runner and a job that has one. -/
def queuedRun (path : String) : List WorkflowRun × List WorkflowJob :=
  if path = eagerPool.requestPath (.runs "app" "queued") then ([⟨7, "ci.yml", "ci", "ci"⟩], [])
  else if path = eagerPool.requestPath (.jobs "app" 7) then
    ([], [⟨1, "test", "", "queued", "", "", "", some 0, ["self-hosted"]⟩,
      ⟨2, "lint", "gh-runner-ci-0", "in_progress", "", "", "", some 0, ["self-hosted"]⟩])
  else ([], [])

/-- The first pool fetches; five seconds later the second one finds what the first has fetched. -/
def sharedTick : List (ScanAction (Fin 8) (List WorkflowRun × List WorkflowJob)) :=
  ([0, 1, 2, 3].flatMap fun i => [.arrive i, .acquire i, .readClock i, .look i,
    .fetch i (.data (queuedRun (twoPoolScans.path i))), .store i]) ++ .tick 105 ::
  [4, 5, 6, 7].flatMap fun i => [.arrive i, .acquire i, .readClock i, .look i]

/-- What is seen of it. -/
def sharedLog : List (ScanEvent (Fin 8) (List WorkflowRun × List WorkflowJob)) :=
  ([0, 1, 2, 3].flatMap fun i => [.looked i 100, .started i 100,
    .answered i (.data (queuedRun (twoPoolScans.path i))),
    .returned i (.data (queuedRun (twoPoolScans.path i)))]) ++
  [4, 5, 6, 7].flatMap fun i => [.looked i 105,
    .returned i (.data (queuedRun (twoPoolScans.path i)))]

/-- The paths of the scan are those four. -/
theorem exists_of_asksFor {path : String}
    (h : AsksFor eagerPool pairReader [] (fun path => .data (queuedRun path)) path) :
    ∃ i : Fin 8, 4 ≤ i ∧ twoPoolScans.path i = path := by
  obtain ⟨repo, hrepo, status, hstatus, hpath⟩ := h
  obtain rfl : repo = "app" := List.mem_singleton.1 hrepo
  simp only [activeRunStatuses, List.mem_cons, List.not_mem_nil, or_false] at hstatus
  rcases hpath with rfl | ⟨run, hrun, rfl⟩
  · rcases hstatus with rfl | rfl | rfl
    · exact ⟨4, by decide, rfl⟩
    · exact ⟨6, by decide, rfl⟩
    · exact ⟨7, by decide, rfl⟩
  · have hid : run.id = 7 := by
      have hall : ∀ status ∈ activeRunStatuses, ∀ run ∈
          (queuedRun (eagerPool.requestPath (.runs "app" status))).1, run.id = 7 := by
        decide +kernel
      refine hall status ?_ run hrun
      simp only [activeRunStatuses, List.mem_cons, List.not_mem_nil, or_false]
      exact hstatus
    rw [hid]
    exact ⟨5, by decide, rfl⟩

/-- The second pool counts the one job that waits. -/
theorem shared_scans_fresh_second : ∃ s,
    run (loggedStep twoPoolScans) ⟨SharedScans.init 100, []⟩ sharedTick = some s ∧
      countThrough eagerPool pairReader [] .ok (fun path => .data (queuedRun path)) 105 =
        countThrough eagerPool pairReader [] .ok
          (fun path => ownRequest queuedRun (.data (queuedRun path)) path) 105 ∧
      (countThrough eagerPool pairReader [] .ok (fun path => .data (queuedRun path)) 105).map
        Prod.fst = .ok 1 := by
  have hrun : (run (loggedStep twoPoolScans) ⟨SharedScans.init 100, []⟩ sharedTick).map
      LoggedScans.log = some sharedLog := by
    decide +kernel
  obtain ⟨s, hs, hlog⟩ := Option.map_eq_some_iff.1 hrun
  refine ⟨s, hs, (shared_scans_fresh twoPoolScans (fun i j _ => rfl) 100 sharedTick hs).2
    eagerPool pairReader [] .ok (fun path => .data (queuedRun path)) 105 95
    (fun _ path => queuedRun path) (fun path hasks => ?_) fun j start data _ _ hanswer => ?_,
    by decide +kernel⟩
  · obtain ⟨i, hi, rfl⟩ := exists_of_asksFor hasks
    refine ⟨i, rfl, rfl, fun looked hmem => ?_, ?_⟩
    · rw [hlog] at hmem
      have hlate : looked = 105 := by
        revert hi hmem
        fin_cases i <;> simp [sharedLog]
      rw [hlate]
      unfold sharedScanSeconds
      norm_num
    · rw [hlog]
      revert hi
      fin_cases i <;> simp [sharedLog]
  · rw [hlog] at hanswer
    revert hanswer
    fin_cases j <;> simp [sharedLog]

end RunnerSwarm
