import RunnerSwarm.GitHub.Client
import RunnerSwarm.Lib.Log
import RunnerSwarm.Lib.Run
import RunnerSwarm.Scaler.HotHost

/-!
# The poll schedule

A tick that scans notes for its pool when the next scan may start, counted from the `now` it read as
it began. After a `GitHubRateLimitError` it notes a later time, again counted from `now`; but the
pause that it adds is measured when the error has arrived. The time that the scan took is lost: the
next scan starts that much before GitHub wants to hear from the token again.

Ticks of many pools are under way at once. The wall clock is `epoch` ahead of the monotonic one, and
a scan starts at the `now` of its tick.

* `scans_scheduled`: the scans of a pool start at least its interval apart; and none starts before
  the time that an earlier one was told, in every run whose pauses are counted from the right
  moment;
* `scans_early`: after a pause that is not, the next scan can start before that time.
-/

namespace RunnerSwarm

variable {δ : Type*}

/-- `_pool_key`; the token is hashed. -/
def poolKey (digest : String → δ) (pool : PoolConfig) : String × String × String × δ :=
  (pool.name, lower pool.owner, lower pool.repo, digest pool.pat)

/-- A tick that scans its pool, with its `now`. -/
structure PoolScan where
  pool : PoolConfig
  now : ℚ
  deriving DecidableEq

inductive PollEvent
  | started (scan : PoolScan)
  | ended (scan : PoolScan) (result : Except GitHubError Unit)
  deriving DecidableEq

/-- The scaler as far as its schedule goes, under a monotonic clock. -/
structure PollSchedule (δ : Type*) where
  clock : ℚ
  /-- `_next_poll_at`. -/
  nextPollAt : Table (String × String × String × δ) ℚ
  /-- The scans under way. -/
  scans : List PoolScan
  log : List PollEvent

inductive PollAction
  | wait (seconds : ℚ)
  | tick (pool : PoolConfig) (state : PoolState)
  | finish (n : ℕ) (result : Except GitHubError Unit)

namespace PollSchedule

/-- A new scaler. -/
def new (clock : ℚ) : PollSchedule δ := ⟨clock, Table.empty, [], []⟩

section Step

variable [DecidableEq δ] (digest : String → δ) (epoch : ℚ) (s : PollSchedule δ)

/-- `self._next_poll_at.get(pool_key, 0.0)`. -/
def nextPoll (pool : PoolConfig) : ℚ := (s.nextPollAt.get (poolKey digest pool)).getD 0

/-- `tick`, up to the scan. -/
def tick (pool : PoolConfig) (state : PoolState) : PollSchedule δ :=
  if state.paused then s
  else if s.clock < s.nextPoll digest pool then s
  else
    { s with
      nextPollAt :=
        if 0 < pool.githubPollInterval then
          s.nextPollAt.put (poolKey digest pool) (s.clock + pool.githubPollInterval)
        else s.nextPollAt
      scans := s.scans ++ [⟨pool, s.clock⟩]
      log := s.log ++ [.started ⟨pool, s.clock⟩] }

/-- What `tick` notes when the scan has ended. -/
def noted (scan : PoolScan) : Except GitHubError Unit → Table (String × String × String × δ) ℚ
  | .error (.rateLimit retryAt _) =>
      let retryAfter := max 1 (retryAt - (epoch + s.clock))
      s.nextPollAt.put (poolKey digest scan.pool)
        (max (s.nextPoll digest scan.pool) (scan.now + retryAfter))
  | _ => s.nextPollAt

/-- Time passes, a pool is ticked, or a scan ends. -/
def step : PollAction → Option (PollSchedule δ)
  | .wait seconds => if 0 ≤ seconds then some { s with clock := s.clock + seconds } else none
  | .tick pool state => some (s.tick digest pool state)
  | .finish n result => s.scans[n]?.map fun scan =>
      { s with
        nextPollAt := s.noted digest epoch scan result
        scans := s.scans.eraseIdx n
        log := s.log ++ [.ended scan result] }

end Step

end PollSchedule

/-- A scan starts an interval after every earlier one of its pool. -/
def StartsApart (digest : String → δ) (past : List PollEvent) : PollEvent → Prop
  | .started scan => ∀ earlier, .started earlier ∈ past →
      poolKey digest earlier.pool = poolKey digest scan.pool →
      earlier.now + earlier.pool.githubPollInterval ≤ scan.now
  | .ended _ _ => True

/-- A scan does not start before the time that an earlier one of its pool was told. -/
def StartsAfterPause (digest : String → δ) (epoch : ℚ) (past : List PollEvent) : PollEvent → Prop
  | .started scan => ∀ earlier retryAt reason,
      .ended earlier (.error (.rateLimit retryAt reason)) ∈ past →
      poolKey digest earlier.pool = poolKey digest scan.pool → retryAt ≤ epoch + scan.now
  | .ended _ _ => True

/-- A scan that is told to wait has taken no time, or the time it is told is over, within a second of
its start, or not after the next poll of its pool. -/
def PauseCounted [DecidableEq δ] (digest : String → δ) (epoch : ℚ) (s : PollSchedule δ) :
    PollAction → Prop
  | .finish n (.error (.rateLimit retryAt _)) => ∀ scan ∈ s.scans[n]?,
      s.clock = scan.now ∨ retryAt ≤ epoch + s.clock ∨ retryAt ≤ epoch + scan.now + 1 ∨
        retryAt ≤ epoch + s.nextPoll digest scan.pool
  | _ => True

instance decidablePauseCounted [DecidableEq δ] (digest : String → δ) (epoch : ℚ)
    (s : PollSchedule δ) : ∀ a, Decidable (PauseCounted digest epoch s a)
  | .finish n (.error (.rateLimit retryAt _)) =>
      inferInstanceAs (Decidable (∀ scan ∈ s.scans[n]?,
        s.clock = scan.now ∨ retryAt ≤ epoch + s.clock ∨ retryAt ≤ epoch + scan.now + 1 ∨
          retryAt ≤ epoch + s.nextPoll digest scan.pool))
  | .finish _ (.error .other) => inferInstanceAs (Decidable True)
  | .finish _ (.ok _) => inferInstanceAs (Decidable True)
  | .wait _ => inferInstanceAs (Decidable True)
  | .tick _ _ => inferInstanceAs (Decidable True)

/-! ### Steps -/

namespace PollSchedule

variable [DecidableEq δ] {digest : String → δ} {epoch : ℚ} {s t : PollSchedule δ} {a : PollAction}

/-- What a step does, and when. -/
inductive Moves (digest : String → δ) (epoch : ℚ) (s : PollSchedule δ) :
    PollAction → PollSchedule δ → Prop
  | waited {seconds : ℚ} (hpassed : 0 ≤ seconds) :
      Moves digest epoch s (.wait seconds) { s with clock := s.clock + seconds }
  | skipped {pool : PoolConfig} {state : PoolState} : Moves digest epoch s (.tick pool state) s
  | started {pool : PoolConfig} {state : PoolState}
      {table : Table (String × String × String × δ) ℚ}
      (hdue : s.nextPoll digest pool ≤ s.clock)
      (htable : table = if 0 < pool.githubPollInterval then
        s.nextPollAt.put (poolKey digest pool) (s.clock + pool.githubPollInterval)
        else s.nextPollAt) :
      Moves digest epoch s (.tick pool state)
        { s with
          nextPollAt := table
          scans := s.scans ++ [⟨pool, s.clock⟩]
          log := s.log ++ [.started ⟨pool, s.clock⟩] }
  | ended {n : ℕ} {result : Except GitHubError Unit} {scan : PoolScan}
      (hscan : s.scans[n]? = some scan) :
      Moves digest epoch s (.finish n result)
        { s with
          nextPollAt := s.noted digest epoch scan result
          scans := s.scans.eraseIdx n
          log := s.log ++ [.ended scan result] }

theorem moves_of_step (h : s.step digest epoch a = some t) : Moves digest epoch s a t := by
  cases a with
  | wait seconds =>
    unfold step at h
    dsimp only at h
    split_ifs at h with hpassed
    cases h
    exact .waited hpassed
  | tick pool state =>
    obtain rfl := Option.some.inj h
    unfold tick
    by_cases hpaused : state.paused = true
    · rw [if_pos hpaused]
      exact .skipped
    rw [if_neg hpaused]
    by_cases hdeferred : s.clock < s.nextPoll digest pool
    · rw [if_pos hdeferred]
      exact .skipped
    · rw [if_neg hdeferred]
      exact .started (not_lt.1 hdeferred) rfl
  | finish n result =>
    obtain ⟨scan, hscan, rfl⟩ := Option.map_eq_some_iff.1 h
    exact .ended hscan

theorem clock_le (h : Moves digest epoch s a t) : s.clock ≤ t.clock := by
  cases h with
  | waited hpassed => exact le_add_of_nonneg_right hpassed
  | _ => exact le_rfl

/-- The next poll after a time is noted for a pool. -/
theorem nextPoll_put {pool other : PoolConfig} {time : ℚ}
    (h : t.nextPollAt = s.nextPollAt.put (poolKey digest pool) time) :
    t.nextPoll digest other =
      if poolKey digest other = poolKey digest pool then time else s.nextPoll digest other := by
  unfold nextPoll
  rw [h, Table.get_put]
  split_ifs
  · rfl
  · rfl

/-- What is noted is never earlier than before. -/
theorem nextPoll_le_put {pool : PoolConfig} {time : ℚ}
    (h : t.nextPollAt = s.nextPollAt.put (poolKey digest pool) time)
    (hle : s.nextPoll digest pool ≤ time) (other : PoolConfig) :
    s.nextPoll digest other ≤ t.nextPoll digest other := by
  rw [nextPoll_put h]
  split_ifs with hkey
  · unfold nextPoll at hle ⊢
    rwa [hkey]
  · exact le_rfl

/-- A pause is noted for the pool of the scan. -/
theorem nextPoll_noted {scan : PoolScan} {retryAt : ℚ} {reason : String}
    (h : t.nextPollAt = s.noted digest epoch scan (.error (.rateLimit retryAt reason))) :
    t.nextPoll digest scan.pool = max (s.nextPoll digest scan.pool)
      (scan.now + max 1 (retryAt - (epoch + s.clock))) := by
  rw [nextPoll_put h, if_pos rfl]

theorem nextPoll_le (h : Moves digest epoch s a t) (pool : PoolConfig) :
    s.nextPoll digest pool ≤ t.nextPoll digest pool := by
  cases h with
  | waited _ => exact le_rfl
  | skipped => exact le_rfl
  | @started polled state table hdue htable =>
    split_ifs at htable with hinterval
    · refine nextPoll_le_put htable (hdue.trans ?_) pool
      have : (0 : ℚ) < polled.githubPollInterval := Int.cast_pos.2 hinterval
      linarith
    · subst htable
      exact le_rfl
  | @ended n result scan hscan =>
    rcases result with (⟨retryAt, reason⟩ | _) | _
    · exact nextPoll_le_put rfl (le_max_left _ _) pool
    · exact le_rfl
    · exact le_rfl

/-! ### The interval -/

/-- The next poll of a pool is an interval after each of its scans. -/
structure Scheduled (digest : String → δ) (s : PollSchedule δ) : Prop where
  running : ∀ scan ∈ s.scans, scan.now ≤ s.clock
  started : ∀ scan, .started scan ∈ s.log → scan.now ≤ s.clock ∧
    (0 < scan.pool.githubPollInterval →
      scan.now + scan.pool.githubPollInterval ≤ s.nextPoll digest scan.pool)
  apart : EachEvent (StartsApart digest) s.log

theorem scheduled_new (clock : ℚ) : Scheduled digest (new clock) where
  running := fun _ h => absurd h List.not_mem_nil
  started := fun _ h => absurd h List.not_mem_nil
  apart := eachEvent_nil

/-- Pools of one key have one schedule. -/
theorem nextPoll_congr {pool other : PoolConfig} (h : poolKey digest pool = poolKey digest other) :
    s.nextPoll digest pool = s.nextPoll digest other := by
  unfold nextPoll
  rw [h]

theorem Scheduled.step (hs : Scheduled digest s) (h : Moves digest epoch s a t) :
    Scheduled digest t := by
  have hkept : ∀ scan, .started scan ∈ s.log → scan.now ≤ t.clock ∧
      (0 < scan.pool.githubPollInterval →
        scan.now + scan.pool.githubPollInterval ≤ t.nextPoll digest scan.pool) := by
    intro scan hscan
    obtain ⟨hnow, hnext⟩ := hs.started scan hscan
    exact ⟨hnow.trans (clock_le h), fun hpos => (hnext hpos).trans (nextPoll_le h scan.pool)⟩
  have hrunning : ∀ scan ∈ s.scans, scan.now ≤ t.clock := fun scan hscan =>
    (hs.running scan hscan).trans (clock_le h)
  cases h with
  | waited hpassed => exact ⟨hrunning, hkept, hs.apart⟩
  | skipped => exact hs
  | @started pool state table hdue htable =>
    refine ⟨?_, ?_, hs.apart.concat ?_⟩
    · intro scan hscan
      rcases List.mem_append.1 hscan with hscan | hscan
      · exact hrunning scan hscan
      · rw [List.mem_singleton.1 hscan]
    · intro scan hscan
      rcases List.mem_append.1 hscan with hscan | hscan
      · exact hkept scan hscan
      · obtain rfl : scan = ⟨pool, s.clock⟩ := by simpa using hscan
        refine ⟨le_rfl, fun hpos => ?_⟩
        rw [if_pos hpos] at htable
        rw [nextPoll_put htable, if_pos rfl]
    · intro earlier hearlier hkey
      obtain ⟨hnow, hnext⟩ := hs.started earlier hearlier
      by_cases hpos : 0 < earlier.pool.githubPollInterval
      · exact (hnext hpos).trans ((nextPoll_congr hkey).trans_le hdue)
      · have : (earlier.pool.githubPollInterval : ℚ) ≤ 0 := Int.cast_nonpos.2 (not_lt.1 hpos)
        show earlier.now + earlier.pool.githubPollInterval ≤ s.clock
        linarith
  | @ended n result scan hscan =>
    refine ⟨fun other hother => hrunning other (List.mem_of_mem_eraseIdx hother), ?_,
      hs.apart.concat trivial⟩
    intro other hother
    rcases List.mem_append.1 hother with hother | hother
    · exact hkept other hother
    · cases List.mem_singleton.1 hother

/-! ### The pause -/

/-- The time that a scan was told is over, or the next poll of its pool is not before it. -/
structure Pausing (digest : String → δ) (epoch : ℚ) (s : PollSchedule δ) : Prop where
  told : ∀ scan retryAt reason, .ended scan (.error (.rateLimit retryAt reason)) ∈ s.log →
    retryAt ≤ epoch + s.clock ∨ retryAt ≤ epoch + s.nextPoll digest scan.pool
  after : EachEvent (StartsAfterPause digest epoch) s.log

theorem pausing_new (clock : ℚ) : Pausing digest epoch (new clock) where
  told := fun _ _ _ h => absurd h List.not_mem_nil
  after := eachEvent_nil

/-- A pause that is counted from the right moment reaches the time that the scan was told. -/
theorem told_noted {n : ℕ} {scan : PoolScan} {retryAt : ℚ} {reason : String}
    (hscan : s.scans[n]? = some scan)
    (hcounted : PauseCounted digest epoch s (.finish n (.error (.rateLimit retryAt reason))))
    (hclock : t.clock = s.clock)
    (hnoted : t.nextPollAt = s.noted digest epoch scan (.error (.rateLimit retryAt reason))) :
    retryAt ≤ epoch + t.clock ∨ retryAt ≤ epoch + t.nextPoll digest scan.pool := by
  have hnext := nextPoll_noted hnoted
  have hold := le_max_left (s.nextPoll digest scan.pool)
    (scan.now + max 1 (retryAt - (epoch + s.clock)))
  have hnew := le_max_right (s.nextPoll digest scan.pool)
    (scan.now + max 1 (retryAt - (epoch + s.clock)))
  have hsecond := le_max_left 1 (retryAt - (epoch + s.clock))
  have hafter := le_max_right 1 (retryAt - (epoch + s.clock))
  rw [← hnext] at hold hnew
  rcases hcounted scan hscan with hquick | hover | hsoon | hlater
  · right
    linarith
  · left
    rwa [hclock]
  · right
    linarith
  · right
    linarith

theorem Pausing.step (hs : Pausing digest epoch s) (hcounted : PauseCounted digest epoch s a)
    (h : Moves digest epoch s a t) : Pausing digest epoch t := by
  have hkept : ∀ scan retryAt reason,
      .ended scan (.error (.rateLimit retryAt reason)) ∈ s.log →
        retryAt ≤ epoch + t.clock ∨ retryAt ≤ epoch + t.nextPoll digest scan.pool := by
    intro scan retryAt reason hscan
    have hclock := clock_le h
    have hnext := nextPoll_le h scan.pool
    rcases hs.told scan retryAt reason hscan with hover | hlater
    · left
      linarith
    · right
      linarith
  cases h with
  | waited hpassed => exact ⟨hkept, hs.after⟩
  | skipped => exact hs
  | @started pool state table hdue htable =>
    refine ⟨?_, hs.after.concat ?_⟩
    · intro scan retryAt reason hscan
      rcases List.mem_append.1 hscan with hscan | hscan
      · exact hkept scan retryAt reason hscan
      · cases List.mem_singleton.1 hscan
    · intro earlier retryAt reason hearlier hkey
      show retryAt ≤ epoch + s.clock
      rcases hs.told earlier retryAt reason hearlier with hover | hlater
      · exact hover
      · rw [nextPoll_congr hkey] at hlater
        linarith
  | @ended n result scan hscan =>
    refine ⟨?_, hs.after.concat trivial⟩
    intro other retryAt reason hother
    rcases List.mem_append.1 hother with hother | hother
    · exact hkept other retryAt reason hother
    · cases List.mem_singleton.1 hother
      exact told_noted hscan hcounted rfl rfl

/-! ### Runs -/

section Runs

variable {clock : ℚ} {l : List PollAction}

theorem scheduled_of_run (h : run (PollSchedule.step digest epoch) (new clock) l = some t) :
    Scheduled digest t :=
  run_invariant (fun _ _ _ hs _ hstep => hs.step (moves_of_step hstep)) (scheduled_new clock)
    (along_of_forall (fun _ _ => trivial) _ l) h

/-- **The scans of a pool start its interval apart; and none starts before the time that an earlier
one was told**, when every pause is counted from the right moment. -/
theorem scans_scheduled (h : run (PollSchedule.step digest epoch) (new clock) l = some t) :
    EachEvent (StartsApart digest) t.log ∧
      (Along (PollSchedule.step digest epoch) (PauseCounted digest epoch) (new clock) l →
        EachEvent (StartsAfterPause digest epoch) t.log) := by
  refine ⟨(scheduled_of_run h).apart, fun hcounted => ?_⟩
  have hpausing : Pausing digest epoch t :=
    run_invariant (fun _ _ _ hs hok hstep => hs.step hok (moves_of_step hstep)) (pausing_new clock)
      hcounted h
  exact hpausing.after

/-- **After any other scan the next one can start early**: the condition is exact. -/
theorem scans_early {n : ℕ} {scan : PoolScan} {retryAt : ℚ} {reason : String}
    (h : run (PollSchedule.step digest epoch) (new clock) l = some s)
    (hscan : s.scans[n]? = some scan)
    (hlate : ¬ PauseCounted digest epoch s (.finish n (.error (.rateLimit retryAt reason)))) :
    ∃ seconds t, run (PollSchedule.step digest epoch) (new clock)
        (l ++ [.finish n (.error (.rateLimit retryAt reason)), .wait seconds,
          .tick scan.pool {}]) = some t ∧ ¬ EachEvent (StartsAfterPause digest epoch) t.log := by
  have hnow := (scheduled_of_run h).running scan (List.mem_of_getElem? hscan)
  have hcases : ¬ (s.clock = scan.now ∨ retryAt ≤ epoch + s.clock ∨
      retryAt ≤ epoch + scan.now + 1 ∨ retryAt ≤ epoch + s.nextPoll digest scan.pool) := by
    intro hcounted
    refine hlate fun other hother => ?_
    obtain rfl := Option.some.inj (hscan.symm.trans hother)
    exact hcounted
  obtain ⟨hquick, hover, hsoon, hlater⟩ := by simpa only [not_or, not_le] using hcases
  have hbefore : scan.now < s.clock := lt_of_le_of_ne hnow (Ne.symm hquick)
  let ended : PollSchedule δ :=
    { s with
      nextPollAt := s.noted digest epoch scan (.error (.rateLimit retryAt reason))
      scans := s.scans.eraseIdx n
      log := s.log ++ [.ended scan (.error (.rateLimit retryAt reason))] }
  have hnext : ended.nextPoll digest scan.pool = max (s.nextPoll digest scan.pool)
      (scan.now + max 1 (retryAt - (epoch + s.clock))) :=
    @nextPoll_noted δ _ digest epoch s ended scan retryAt reason rfl
  have hearly : epoch + ended.nextPoll digest scan.pool < retryAt := by
    rw [hnext]
    rcases max_choice (s.nextPoll digest scan.pool)
      (scan.now + max 1 (retryAt - (epoch + s.clock))) with heq | heq
    · rwa [heq]
    · rw [heq]
      rcases max_choice 1 (retryAt - (epoch + s.clock)) with heq | heq
      · rw [heq]
        linarith
      · rw [heq]
        linarith
  -- the next tick is at the time that was noted
  let seconds := max 0 (ended.nextPoll digest scan.pool - s.clock)
  let waited : PollSchedule δ := { ended with clock := s.clock + seconds }
  have hdue : ¬ waited.clock < waited.nextPoll digest scan.pool := by
    have := le_max_right 0 (ended.nextPoll digest scan.pool - s.clock)
    show ¬ s.clock + seconds < ended.nextPoll digest scan.pool
    exact not_lt.2 (by linarith)
  have hstart : epoch + (s.clock + seconds) < retryAt := by
    rcases max_choice 0 (ended.nextPoll digest scan.pool - s.clock) with heq | heq
    · show epoch + (s.clock + max 0 _) < retryAt
      rw [heq]
      linarith
    · show epoch + (s.clock + max 0 _) < retryAt
      rw [heq]
      linarith
  have hended : s.step digest epoch (.finish n (.error (.rateLimit retryAt reason))) =
      some ended := by
    show (s.scans[n]?).map _ = _
    rw [hscan]
    rfl
  have hwaited : ended.step digest epoch (.wait seconds) = some waited :=
    if_pos (le_max_left _ _)
  refine ⟨seconds, waited.tick digest scan.pool {}, ?_, fun hafter => ?_⟩
  · rw [run_append, h, Option.bind_some, run_cons, hended, Option.bind_some, run_cons, hwaited]
    rfl
  · have hlog : (waited.tick digest scan.pool {}).log = (s.log ++
        [.ended scan (.error (.rateLimit retryAt reason))]) ++
          .started ⟨scan.pool, s.clock + seconds⟩ :: [] := by
      unfold tick
      rw [if_neg Bool.false_ne_true, if_neg hdue]
    have hkept := hafter _ _ _ hlog scan retryAt reason (by simp) rfl
    exact absurd hkept (not_le.2 hstart)

end Runs

/-- A tick that starts no scan does nothing. -/
theorem effects_eq_of_skipped (ρ : Rounding) {i : TickInput} (hnow : i.now = s.clock)
    (hnext : i.nextPollAt = s.nextPoll digest i.pool) (h : s.tick digest i.pool i.state = s) :
    i.effects ρ = {} := by
  unfold TickInput.effects
  by_cases hpaused : i.state.paused = true
  · rw [if_pos hpaused]
  rw [if_neg hpaused, hnow, hnext]
  by_cases hdeferred : s.clock < s.nextPoll digest i.pool
  · rw [if_pos hdeferred]
  · unfold tick at h
    rw [if_neg hpaused, if_neg hdeferred] at h
    have hlog := congrArg (fun s => s.log.length) h
    simp at hlog

end PollSchedule

def pollPool : PoolConfig := { name := "ci", pat := "ghp", owner := "acme" }

/-- A scan that starts at 100 takes some seconds and is told to wait; the pool is ticked later. -/
def toldRun (seconds retryAt later : ℚ) : List PollAction :=
  [.wait 100, .tick pollPool {}, .wait seconds,
    .finish 0 (.error (.rateLimit retryAt "rate limit reached")), .wait later, .tick pollPool {}]

/-- Told at once, the pool is scanned when it may be. -/
theorem scans_scheduled_told : ∃ t,
    run (PollSchedule.step id 0) (.new 0) (toldRun 0 1000 900) = some t ∧
    t.log = [.started ⟨pollPool, 100⟩,
      .ended ⟨pollPool, 100⟩ (.error (.rateLimit 1000 "rate limit reached")),
      .started ⟨pollPool, 1000⟩] ∧
    EachEvent (StartsApart id) t.log ∧ EachEvent (StartsAfterPause id 0) t.log := by
  have hlog : (run (PollSchedule.step id 0) (.new 0) (toldRun 0 1000 900)).map (fun t => t.log) =
      some [.started ⟨pollPool, 100⟩,
        .ended ⟨pollPool, 100⟩ (.error (.rateLimit 1000 "rate limit reached")),
        .started ⟨pollPool, 1000⟩] := by decide +kernel
  obtain ⟨t, ht, hevents⟩ := Option.map_eq_some_iff.1 hlog
  obtain ⟨hapart, hafter⟩ := PollSchedule.scans_scheduled ht
  exact ⟨t, ht, hevents, hapart, hafter (by decide +kernel)⟩

/-- **A scan starts too early**: at 130 the pool is told to wait until 1000, and the next scan is at
970. -/
theorem not_scans_scheduled : ¬ ∀ (digest : String → String) (epoch clock : ℚ)
    (l : List PollAction) (t : PollSchedule String),
    run (PollSchedule.step digest epoch) (.new clock) l = some t →
      EachEvent (StartsApart digest) t.log ∧ EachEvent (StartsAfterPause digest epoch) t.log := by
  intro h
  have hlog : (run (PollSchedule.step id 0) (.new 0) (toldRun 30 1000 840)).map (fun t => t.log) =
      some ([.started ⟨pollPool, 100⟩,
        .ended ⟨pollPool, 100⟩ (.error (.rateLimit 1000 "rate limit reached"))] ++
          .started ⟨pollPool, 970⟩ :: []) := by decide +kernel
  obtain ⟨t, ht, hevents⟩ := Option.map_eq_some_iff.1 hlog
  have hafter := (h id 0 0 _ t ht).2 _ _ _ hevents ⟨pollPool, 100⟩ 1000 "rate limit reached"
    (by simp) rfl
  exact absurd hafter (by decide +kernel)

end RunnerSwarm
