import RunnerSwarm.Lib.Run
import RunnerSwarm.Lib.Lru

/-!
# Shared scans

`_get_shared` keeps a response for `SHARED_SCAN_SECONDS` and takes one lock for each key, so that
of several callers one fetches and the others wait. The locks stand in a dictionary, and
`_drop_stale_scans` forgets the lock of an expired scan together with the scan, also while a call
holds it or waits for it; the next caller then makes a new lock and fetches beside the first.

* `scanStep` is one step of a call, each guarded section one step; locks are numbered as they are
  made;
* `SingleFlight` is the promise and `not_single_flight` a run that breaks it, with one path more
  than `MAX_SHARED_SCAN_ENTRIES`;
* `single_flight`: it holds in every run in which no lock is dropped that a call uses.
-/

namespace RunnerSwarm

/-- How `_get` ends. -/
inductive FetchResult (γ : Type*)
  | data (data : γ)
  | nothing
  | raised
  deriving DecidableEq

/-- Where a call of `_get_shared` is. -/
inductive ScanPhase (γ : Type*)
  | start
  /-- Has its lock from the dictionary and waits for it. -/
  | waiting (lock : ℕ)
  | locked (lock : ℕ)
  /-- Has read the monotonic clock. -/
  | timed (lock : ℕ) (now : ℚ)
  | fetching (lock : ℕ) (now : ℚ)
  | fetched (lock : ℕ) (now : ℚ) (data : γ)
  | ended (result : FetchResult γ)
  deriving DecidableEq

namespace ScanPhase

variable {γ : Type*}

/-- The lock a call holds or waits for. -/
def lock : ScanPhase γ → Option ℕ
  | .waiting lock => some lock
  | .locked lock => some lock
  | .timed lock _ => some lock
  | .fetching lock _ => some lock
  | .fetched lock _ _ => some lock
  | _ => none

/-- The lock a call holds. -/
def held : ScanPhase γ → Option ℕ
  | .waiting _ => none
  | phase => phase.lock

/-- The request is on its way. -/
def isFetching : ScanPhase γ → Bool
  | .fetching _ _ => true
  | _ => false

/-- The scan a call is about to keep. -/
def toKeep : ScanPhase γ → Option (ℚ × γ)
  | .fetched _ now data => some (now, data)
  | _ => none

/-- The time a call has read for its look-up. -/
def looked : ScanPhase γ → Option ℚ
  | .timed _ now => some now
  | .fetching _ now => some now
  | .fetched _ now _ => some now
  | _ => none

theorem lock_of_held {phase : ScanPhase γ} {lock : ℕ} (h : phase.held = some lock) :
    phase.lock = some lock := by
  cases phase with
  | waiting => cases h
  | _ => exact h

end ScanPhase

/-- The arguments of the calls, and `hashlib`. -/
structure ScanCalls (ι δ : Type*) where
  pat : ι → String
  path : ι → String
  digest : String → δ

/-- The key of a call. -/
def ScanCalls.key {ι δ : Type*} (x : ScanCalls ι δ) (i : ι) : δ × String :=
  (x.digest (x.pat i), x.path i)

/-- The shared scans of a client, their locks and the threads. -/
structure SharedScans (ι κ γ : Type*) where
  clock : ℚ
  scans : Table κ (ℚ × γ)
  locks : Table κ ℕ
  nextLock : ℕ
  holder : ℕ → Option ι
  phase : ι → ScanPhase γ

inductive ScanAction (ι γ : Type*)
  | arrive (i : ι)
  | acquire (i : ι)
  | readClock (i : ι)
  | look (i : ι)
  | fetch (i : ι) (result : FetchResult γ)
  | store (i : ι)
  | tick (time : ℚ)

def sharedScanSeconds : ℚ := 10

def maxSharedScanEntries : ℕ := 512

/-- The scan under a key has expired. -/
def isStale {κ γ : Type*} [DecidableEq κ] (scans : Table κ (ℚ × γ)) (now : ℚ) (k : κ) : Bool :=
  (scans.get k).any fun scan => sharedScanSeconds ≤ now - scan.1

namespace SharedScans

variable {ι κ γ : Type*} [DecidableEq κ]

/-- A new client. -/
def init (clock : ℚ) : SharedScans ι κ γ where
  clock := clock
  scans := Table.empty
  locks := Table.empty
  nextLock := 0
  holder := fun _ => none
  phase := fun _ => .start

/-- `_drop_stale_scans`. -/
def dropStaleScans (s : SharedScans ι κ γ) (now : ℚ) : SharedScans ι κ γ :=
  { s with
    scans := s.scans.deleteWhere fun k _ => isStale s.scans now k
    locks := s.locks.deleteWhere fun k _ => isStale s.scans now k }

/-- Keep a response, and forget expired ones when there are too many. -/
def keep (s : SharedScans ι κ γ) (k : κ) (now : ℚ) (data : γ) : SharedScans ι κ γ :=
  let s := { s with scans := s.scans.put k (now, data) }
  if maxSharedScanEntries < s.scans.rows.length then s.dropStaleScans now else s

@[simp] theorem keep_phase (s : SharedScans ι κ γ) (k : κ) (now : ℚ) (data : γ) :
    (s.keep k now data).phase = s.phase := by
  unfold keep
  dsimp only
  split_ifs
  · rfl
  · rfl

@[simp] theorem keep_holder (s : SharedScans ι κ γ) (k : κ) (now : ℚ) (data : γ) :
    (s.keep k now data).holder = s.holder := by
  unfold keep
  dsimp only
  split_ifs
  · rfl
  · rfl

/-- The locks of scans that have not expired are kept. -/
theorem get_locks_keep {s : SharedScans ι κ γ} {k k' : κ} {now : ℚ} {data : γ}
    (h : maxSharedScanEntries < (s.scans.put k (now, data)).rows.length →
      isStale (s.scans.put k (now, data)) now k' = false) :
    (s.keep k now data).locks.get k' = s.locks.get k' := by
  unfold keep
  dsimp only
  split_ifs with hfull
  · unfold dropStaleScans
    dsimp only
    rw [Table.get_deleteWhere, h hfull]
    cases s.locks.get k' <;> rfl
  · rfl

theorem keep_of_full {s : SharedScans ι κ γ} {k : κ} {now : ℚ} {data : γ}
    (h : maxSharedScanEntries < (s.scans.put k (now, data)).rows.length) :
    s.keep k now data =
      ({ s with scans := s.scans.put k (now, data) } : SharedScans ι κ γ).dropStaleScans now := by
  unfold keep
  exact if_pos h

/-- While there is room nothing is dropped. -/
theorem keep_of_room {s : SharedScans ι κ γ} {k : κ} {now : ℚ} {data : γ}
    (h : (s.scans.put k (now, data)).rows.length ≤ maxSharedScanEntries) :
    s.keep k now data = { s with scans := s.scans.put k (now, data) } := by
  unfold keep
  exact if_neg (not_lt.2 h)

variable [DecidableEq ι]

def move (s : SharedScans ι κ γ) (i : ι) (phase : ScanPhase γ) : SharedScans ι κ γ :=
  { s with phase := Function.update s.phase i phase }

/-- Leave `with lock`. -/
def leave (s : SharedScans ι κ γ) (i : ι) (lock : ℕ) (result : FetchResult γ) :
    SharedScans ι κ γ :=
  { s.move i (.ended result) with holder := Function.update s.holder lock none }

end SharedScans

section Step

variable {ι δ γ : Type*} [DecidableEq ι] [DecidableEq δ]

/-- One step of `_get_shared`, or of the clock. -/
def scanStep (x : ScanCalls ι δ) (s : SharedScans ι (δ × String) γ) :
    ScanAction ι γ → Option (SharedScans ι (δ × String) γ)
  | .arrive i =>
      match s.phase i with
      | .start =>
          -- `setdefault` under the state lock
          match s.locks.get (x.key i) with
          | some lock => some (s.move i (.waiting lock))
          | none =>
              some ({ s with
                locks := s.locks.put (x.key i) s.nextLock
                nextLock := s.nextLock + 1 }.move i (.waiting s.nextLock))
      | _ => none
  | .acquire i =>
      match s.phase i with
      | .waiting lock =>
          if (s.holder lock).isNone then
            some ({ s with holder := Function.update s.holder lock (some i) }.move i (.locked lock))
          else none
      | _ => none
  | .readClock i =>
      match s.phase i with
      | .locked lock => some (s.move i (.timed lock s.clock))
      | _ => none
  | .look i =>
      match s.phase i with
      | .timed lock now =>
          match s.scans.get (x.key i) with
          | none => some (s.move i (.fetching lock now))
          | some (fetchedAt, data) =>
              if now - fetchedAt < sharedScanSeconds then some (s.leave i lock (.data data))
              else some (s.move i (.fetching lock now))
      | _ => none
  | .fetch i result =>
      match s.phase i with
      | .fetching lock now =>
          match result with
          -- the scan is kept under the time read before the request
          | .data data => some (s.move i (.fetched lock now data))
          | result => some (s.leave i lock result)
      | _ => none
  | .store i =>
      match s.phase i with
      | .fetched lock now data => some ((s.keep (x.key i) now data).leave i lock (.data data))
      | _ => none
  | .tick time => if s.clock ≤ time then some { s with clock := time } else none

/-- The cases of a step. -/
inductive ScanStep (x : ScanCalls ι δ) (s : SharedScans ι (δ × String) γ) :
    ScanAction ι γ → SharedScans ι (δ × String) γ → Prop
  | join {i lock} (hphase : s.phase i = .start) (hlock : s.locks.get (x.key i) = some lock) :
      ScanStep x s (.arrive i) (s.move i (.waiting lock))
  | create {i} (hphase : s.phase i = .start) (hlock : s.locks.get (x.key i) = none) :
      ScanStep x s (.arrive i)
        ({ s with
          locks := s.locks.put (x.key i) s.nextLock
          nextLock := s.nextLock + 1 }.move i (.waiting s.nextLock))
  | acquire {i lock} (hphase : s.phase i = .waiting lock) (hfree : s.holder lock = none) :
      ScanStep x s (.acquire i)
        ({ s with holder := Function.update s.holder lock (some i) }.move i (.locked lock))
  | readClock {i lock} (hphase : s.phase i = .locked lock) :
      ScanStep x s (.readClock i) (s.move i (.timed lock s.clock))
  | miss {i lock now} (hphase : s.phase i = .timed lock now) :
      ScanStep x s (.look i) (s.move i (.fetching lock now))
  | hit {i lock now data} (hphase : s.phase i = .timed lock now) :
      ScanStep x s (.look i) (s.leave i lock (.data data))
  | fetched {i lock now data} (hphase : s.phase i = .fetching lock now) :
      ScanStep x s (.fetch i (.data data)) (s.move i (.fetched lock now data))
  | failed {i lock now result} (hphase : s.phase i = .fetching lock now) :
      ScanStep x s (.fetch i result) (s.leave i lock result)
  | store {i lock now data} (hphase : s.phase i = .fetched lock now data) :
      ScanStep x s (.store i) ((s.keep (x.key i) now data).leave i lock (.data data))
  | tick {time} (hle : s.clock ≤ time) : ScanStep x s (.tick time) { s with clock := time }

/-- **What a step can do.** -/
theorem scanStep_cases {x : ScanCalls ι δ} {s t : SharedScans ι (δ × String) γ}
    {a : ScanAction ι γ} (h : scanStep x s a = some t) : ScanStep x s a t := by
  cases a with
  | arrive i =>
    unfold scanStep at h
    dsimp only at h
    split at h
    · rename_i hphase
      split at h
      · rename_i lock hlock
        obtain rfl := Option.some.inj h
        exact .join hphase hlock
      · rename_i hlock
        obtain rfl := Option.some.inj h
        exact .create hphase hlock
    · cases h
  | acquire i =>
    unfold scanStep at h
    dsimp only at h
    split at h
    · rename_i lock hphase
      split_ifs at h with hfree
      obtain rfl := Option.some.inj h
      exact .acquire hphase (Option.isNone_iff_eq_none.1 hfree)
    · cases h
  | readClock i =>
    unfold scanStep at h
    dsimp only at h
    split at h
    · rename_i lock hphase
      obtain rfl := Option.some.inj h
      exact .readClock hphase
    · cases h
  | look i =>
    unfold scanStep at h
    dsimp only at h
    split at h
    · rename_i lock now hphase
      split at h
      · obtain rfl := Option.some.inj h
        exact .miss hphase
      · split_ifs at h
        · obtain rfl := Option.some.inj h
          exact .hit hphase
        · obtain rfl := Option.some.inj h
          exact .miss hphase
    · cases h
  | fetch i result =>
    unfold scanStep at h
    dsimp only at h
    split at h
    · rename_i lock now hphase
      split at h
      · obtain rfl := Option.some.inj h
        exact .fetched hphase
      · obtain rfl := Option.some.inj h
        exact .failed hphase
    · cases h
  | store i =>
    unfold scanStep at h
    dsimp only at h
    split at h
    · rename_i lock now data hphase
      obtain rfl := Option.some.inj h
      exact .store hphase
    · cases h
  | tick time =>
    unfold scanStep at h
    dsimp only at h
    split_ifs at h with hle
    obtain rfl := Option.some.inj h
    exact .tick hle

/-! ### One fetch for each key -/

/-- **Single flight.** At most one fetch of a key is under way, and another call for that key has
not begun, has ended, or waits for the lock that the fetching call holds. -/
structure SingleFlight (x : ScanCalls ι δ) (s : SharedScans ι (δ × String) γ) : Prop where
  single : ∀ i j, (s.phase i).isFetching → (s.phase j).isFetching → x.key i = x.key j → i = j
  waits : ∀ i j, i ≠ j → (s.phase j).isFetching → x.key i = x.key j →
    s.phase i = .start ∨ (∃ lock, s.phase i = .waiting lock ∧ s.holder lock = some j) ∨
      ∃ result, s.phase i = .ended result

/-- When a call keeps a scan and expired ones are dropped, no call holds or waits for the lock of
an expired one. -/
def SparesLocks (x : ScanCalls ι δ) (s : SharedScans ι (δ × String) γ) : ScanAction ι γ → Prop
  | .store i => ∀ scan ∈ (s.phase i).toKeep,
      maxSharedScanEntries < (s.scans.put (x.key i) scan).rows.length →
      ∀ j, (s.phase j).lock.isSome →
        isStale (s.scans.put (x.key i) scan) scan.1 (x.key j) = false
  | _ => True

instance decidableSparesLocks [Fintype ι] (x : ScanCalls ι δ)
    (s : SharedScans ι (δ × String) γ) : ∀ a, Decidable (SparesLocks x s a)
  | .store i => inferInstanceAs (Decidable (∀ scan ∈ (s.phase i).toKeep,
      maxSharedScanEntries < (s.scans.put (x.key i) scan).rows.length →
      ∀ j, (s.phase j).lock.isSome →
        isStale (s.scans.put (x.key i) scan) scan.1 (x.key j) = false))
  | .arrive _ => inferInstanceAs (Decidable True)
  | .acquire _ => inferInstanceAs (Decidable True)
  | .readClock _ => inferInstanceAs (Decidable True)
  | .look _ => inferInstanceAs (Decidable True)
  | .fetch _ _ => inferInstanceAs (Decidable True)
  | .tick _ => inferInstanceAs (Decidable True)

/-- Every call uses the lock its key has in the dictionary, and a lock has one holder. -/
structure Locking (x : ScanCalls ι δ) (s : SharedScans ι (δ × String) γ) : Prop where
  table : ∀ i, ∀ lock ∈ (s.phase i).lock, s.locks.get (x.key i) = some lock
  held : ∀ i, ∀ lock ∈ (s.phase i).held, s.holder lock = some i

variable {x : ScanCalls ι δ} {s t : SharedScans ι (δ × String) γ} {a : ScanAction ι γ}

omit [DecidableEq ι] in
/-- Two calls for one key: the lock that one holds is the lock that the other uses. -/
theorem Locking.holder (h : Locking x s) {i j : ι} {lock lock' : ℕ}
    (hi : lock ∈ (s.phase i).lock) (hj : lock' ∈ (s.phase j).held) (hkey : x.key i = x.key j) :
    s.holder lock = some j := by
  have hi' := h.table i lock hi
  have hj' := h.table j lock' (ScanPhase.lock_of_held hj)
  rw [hkey, hj'] at hi'
  rw [← Option.some.inj hi']
  exact h.held j lock' hj

omit [DecidableEq ι] in
theorem Locking.singleFlight (h : Locking x s) : SingleFlight x s where
  single := fun i j hi hj hkey => by
    cases hpi : s.phase i with
    | fetching lock now =>
      cases hpj : s.phase j with
      | fetching lock' now' =>
        have hheld : lock ∈ (s.phase i).held := by
          rw [hpi]
          exact Option.mem_some_self lock
        have hheld' : lock' ∈ (s.phase j).held := by
          rw [hpj]
          exact Option.mem_some_self lock'
        have hj' := h.holder (ScanPhase.lock_of_held hheld) hheld' hkey
        rw [h.held i lock hheld] at hj'
        exact Option.some.inj hj'
      | _ =>
        rw [hpj] at hj
        cases hj
    | _ =>
      rw [hpi] at hi
      cases hi
  waits := fun i j hij hj hkey => by
    obtain ⟨lock', hheld'⟩ : ∃ lock', lock' ∈ (s.phase j).held := by
      cases hpj : s.phase j with
      | fetching lock' now => exact ⟨lock', Option.mem_some_self lock'⟩
      | _ =>
        rw [hpj] at hj
        cases hj
    -- a call past the wait would hold the same lock
    have hpast : ∀ lock, lock ∉ (s.phase i).held := fun lock hheld => by
      have hj' := h.holder (ScanPhase.lock_of_held hheld) hheld' hkey
      rw [h.held i lock hheld] at hj'
      exact hij (Option.some.inj hj')
    cases hpi : s.phase i with
    | start => exact Or.inl rfl
    | waiting lock =>
      refine Or.inr (Or.inl ⟨lock, rfl, h.holder ?_ hheld' hkey⟩)
      rw [hpi]
      exact Option.mem_some_self lock
    | locked lock => exact absurd (by rw [hpi]; exact Option.mem_some_self lock) (hpast lock)
    | timed lock now => exact absurd (by rw [hpi]; exact Option.mem_some_self lock) (hpast lock)
    | fetching lock now => exact absurd (by rw [hpi]; exact Option.mem_some_self lock) (hpast lock)
    | fetched lock now data =>
      exact absurd (by rw [hpi]; exact Option.mem_some_self lock) (hpast lock)
    | ended result => exact Or.inr (Or.inr ⟨result, rfl⟩)

/-- One call moves; the others keep their locks. -/
theorem locking_of_move {i : ι} {phase : ScanPhase γ}
    (hmoved : t.phase = Function.update s.phase i phase)
    (htable : ∀ lock ∈ phase.lock, t.locks.get (x.key i) = some lock)
    (hheld : ∀ lock ∈ phase.held, t.holder lock = some i)
    (hkept : ∀ j, j ≠ i → ∀ lock ∈ (s.phase j).lock, t.locks.get (x.key j) = some lock)
    (hothers : ∀ j, j ≠ i → ∀ lock ∈ (s.phase j).held, t.holder lock = some j) :
    Locking x t := by
  refine ⟨fun j lock hj => ?_, fun j lock hj => ?_⟩
  · rw [hmoved] at hj
    by_cases hji : j = i
    · subst hji
      rw [Function.update_self] at hj
      exact htable lock hj
    · rw [Function.update_of_ne hji] at hj
      exact hkept j hji lock hj
  · rw [hmoved] at hj
    by_cases hji : j = i
    · subst hji
      rw [Function.update_self] at hj
      exact hheld lock hj
    · rw [Function.update_of_ne hji] at hj
      exact hothers j hji lock hj

/-- A call goes on with its lock. -/
theorem Locking.advance (h : Locking x s) {i : ι} {phase : ScanPhase γ}
    (hlock : phase.lock = (s.phase i).lock) (hheld : phase.held = (s.phase i).held) :
    Locking x (s.move i phase) :=
  locking_of_move rfl (fun lock hmem => h.table i lock (hlock ▸ hmem))
    (fun lock hmem => h.held i lock (hheld ▸ hmem)) (fun j _ => h.table j) (fun j _ => h.held j)

/-- A call gives its lock back; `u` is the state with the dictionary it leaves behind. -/
theorem Locking.leave {u : SharedScans ι (δ × String) γ} (h : Locking x s) {i : ι} {lock : ℕ}
    (hlock : lock ∈ (s.phase i).held) (result : FetchResult γ) (hphase : u.phase = s.phase)
    (hholder : u.holder = s.holder)
    (hkept : ∀ j, ∀ lock ∈ (s.phase j).lock, u.locks.get (x.key j) = some lock) :
    Locking x (u.leave i lock result) := by
  have hmoved : (u.leave i lock result).phase = Function.update s.phase i (.ended result) := by
    rw [← hphase]
    rfl
  refine locking_of_move hmoved (fun _ hmem => (Option.not_mem_none _ hmem).elim)
    (fun _ hmem => (Option.not_mem_none _ hmem).elim) (fun j _ => hkept j) (fun j hji other hj => ?_)
  show Function.update u.holder lock none other = some j
  have hne : other ≠ lock := fun heq => by
    have hi := h.held i lock hlock
    rw [← heq, h.held j other hj] at hi
    exact hji (Option.some.inj hi)
  rw [Function.update_of_ne hne, hholder]
  exact h.held j other hj

/-- One step, in a run in which no used lock is dropped. -/
theorem locking_step (h : Locking x s) (hok : SparesLocks x s a) (hstep : scanStep x s a = some t) :
    Locking x t := by
  cases scanStep_cases hstep with
  | @join i lock hphase hlock =>
    refine locking_of_move rfl (fun other hmem => ?_)
      (fun _ hmem => (Option.not_mem_none _ hmem).elim)
      (fun j _ => h.table j) (fun j _ => h.held j)
    obtain rfl := Option.mem_some_iff.1 hmem
    exact hlock
  | @create i hphase hlock =>
    refine locking_of_move rfl (fun other hmem => ?_)
      (fun _ hmem => (Option.not_mem_none _ hmem).elim)
      (fun j _ other hj => ?_) (fun j _ => h.held j)
    · obtain rfl := Option.mem_some_iff.1 hmem
      show (s.locks.put (x.key i) s.nextLock).get (x.key i) = some s.nextLock
      rw [Table.get_put, if_pos rfl]
    · -- a key without a lock is one that no other call uses
      show (s.locks.put (x.key i) s.nextLock).get (x.key j) = some other
      have hused := h.table j other hj
      rw [Table.get_put, if_neg fun hkey => by rw [hkey, hlock] at hused; cases hused]
      exact hused
  | @acquire i lock hphase hfree =>
    have hlock : lock ∈ (s.phase i).lock := by
      rw [hphase]
      exact Option.mem_some_self lock
    refine locking_of_move rfl (fun other hmem => ?_) (fun other hmem => ?_) (fun j _ => h.table j)
      (fun j _ other hj => ?_)
    · obtain rfl := Option.mem_some_iff.1 hmem
      exact h.table i _ hlock
    · obtain rfl := Option.mem_some_iff.1 hmem
      exact Function.update_self _ _ _
    · have hholder := h.held j other hj
      have hne : other ≠ lock := fun heq => by
        rw [heq, hfree] at hholder
        cases hholder
      exact (Function.update_of_ne hne _ _).trans hholder
  | @readClock i lock hphase => exact h.advance (by rw [hphase]; rfl) (by rw [hphase]; rfl)
  | @miss i lock now hphase => exact h.advance (by rw [hphase]; rfl) (by rw [hphase]; rfl)
  | @hit i lock now data hphase =>
    exact h.leave (by rw [hphase]; exact Option.mem_some_self lock) _ rfl rfl h.table
  | @fetched i lock now data hphase => exact h.advance (by rw [hphase]; rfl) (by rw [hphase]; rfl)
  | @failed i lock now result hphase =>
    exact h.leave (by rw [hphase]; exact Option.mem_some_self lock) _ rfl rfl h.table
  | @store i lock now data hphase =>
    refine h.leave (by rw [hphase]; exact Option.mem_some_self lock) _ (SharedScans.keep_phase ..)
      (SharedScans.keep_holder ..) (fun j other hj => ?_)
    have hspared : maxSharedScanEntries < (s.scans.put (x.key i) (now, data)).rows.length →
        isStale (s.scans.put (x.key i) (now, data)) now (x.key j) = false := fun hfull =>
      hok (now, data) (by rw [hphase]; exact Option.mem_some_self _) hfull j
        (Option.isSome_iff_exists.2 ⟨other, hj⟩)
    rw [SharedScans.get_locks_keep hspared]
    exact h.table j other hj
  | tick => exact ⟨h.table, h.held⟩

omit [DecidableEq ι] in
/-- What is kept is old or new. -/
theorem mem_keep {k key : δ × String} {now : ℚ} {data : γ} {scan : ℚ × γ}
    (h : (key, scan) ∈ (s.keep k now data).scans.rows) :
    (key, scan) ∈ s.scans.rows ∨ (key = k ∧ scan = (now, data)) := by
  have hput : (key, scan) ∈ (s.scans.put k (now, data)).rows →
      (key, scan) ∈ s.scans.rows ∨ (key = k ∧ scan = (now, data)) := by
    intro hmem
    rw [← Table.get_eq_some_iff, Table.get_put] at hmem
    split_ifs at hmem with hkey
    · exact .inr ⟨hkey, (Option.some.inj hmem).symm⟩
    · exact .inl (Table.get_eq_some_iff.1 hmem)
  unfold SharedScans.keep at h
  dsimp only at h
  split_ifs at h
  · exact hput (Table.mem_deleteWhere.1 h).1
  · exact hput h

/-- What is kept, or is about to be, was looked up after `start`, and the clock is less than
`SHARED_SCAN_SECONDS` further. -/
structure Early (start : ℚ) (s : SharedScans ι (δ × String) γ) : Prop where
  clock : start ≤ s.clock ∧ s.clock < start + sharedScanSeconds
  scans : ∀ k scan, s.scans.get k = some scan → start ≤ scan.1
  phases : ∀ i now, (s.phase i).looked = some now → start ≤ now ∧ now < start + sharedScanSeconds

omit [DecidableEq ι] in
/-- Then no scan has expired. -/
theorem Early.sparesLocks {start : ℚ} (h : Early start s) (a : ScanAction ι γ) :
    SparesLocks x s a := by
  cases a with
  | store i =>
    intro scan hscan _ j _
    have hnow : start ≤ scan.1 ∧ scan.1 < start + sharedScanSeconds := by
      apply h.phases i
      cases hphase : s.phase i with
      | fetched lock now data =>
        rw [hphase] at hscan
        obtain rfl := Option.mem_some_iff.1 hscan
        rfl
      | _ =>
        rw [hphase] at hscan
        cases hscan
    have hkept : ∀ other, (s.scans.put (x.key i) scan).get (x.key j) = some other →
        start ≤ other.1 := by
      intro other hother
      rw [Table.get_put] at hother
      split_ifs at hother
      · obtain rfl := Option.some.inj hother
        exact hnow.1
      · exact h.scans _ _ hother
    unfold isStale
    cases hget : (s.scans.put (x.key i) scan).get (x.key j) with
    | none => rfl
    | some other =>
      have hother := hkept other hget
      exact decide_eq_false (by linarith)
  | _ => trivial

/-- A call moves on. -/
theorem Early.move {start : ℚ} (h : Early start s) {i : ι} {phase : ScanPhase γ}
    (hmoved : t.phase = Function.update s.phase i phase) (hclock : t.clock = s.clock)
    (hscans : ∀ k scan, t.scans.get k = some scan → start ≤ scan.1)
    (hphase : ∀ now, phase.looked = some now → start ≤ now ∧ now < start + sharedScanSeconds) :
    Early start t := by
  refine ⟨hclock ▸ h.clock, hscans, ?_⟩
  rw [hmoved]
  exact (Function.forall_update_iff s.phase fun _ phase => ∀ now, phase.looked = some now →
    start ≤ now ∧ now < start + sharedScanSeconds).2 ⟨hphase, fun j _ => h.phases j⟩

theorem early_step {start : ℚ} (h : Early start s)
    (htick : ∀ time, a = .tick time → time < start + sharedScanSeconds)
    (hstep : scanStep x s a = some t) : Early start t := by
  have hlooked : ∀ i phase, s.phase i = phase → ∀ now, phase.looked = some now →
      start ≤ now ∧ now < start + sharedScanSeconds := by
    rintro i phase rfl
    exact h.phases i
  cases scanStep_cases hstep with
  | join hphase => exact h.move rfl rfl h.scans nofun
  | create hphase => exact h.move rfl rfl h.scans nofun
  | acquire hphase => exact h.move rfl rfl h.scans nofun
  | readClock hphase =>
    refine h.move rfl rfl h.scans fun now hnow => ?_
    obtain rfl := Option.some.inj hnow
    exact h.clock
  | miss hphase => exact h.move rfl rfl h.scans fun now hnow => hlooked _ _ hphase now hnow
  | hit hphase => exact h.move rfl rfl h.scans nofun
  | fetched hphase => exact h.move rfl rfl h.scans fun now hnow => hlooked _ _ hphase now hnow
  | failed hphase => exact h.move rfl rfl h.scans nofun
  | @store i lock now data hphase =>
    refine h.move (congrArg (Function.update · i _) (SharedScans.keep_phase s (x.key i) now data))
      ?_ (fun k scan hget => ?_) nofun
    · unfold SharedScans.keep
      dsimp only
      split_ifs <;> rfl
    · rcases mem_keep (Table.get_eq_some_iff.1 hget) with hold | ⟨rfl, rfl⟩
      · exact h.scans k scan (Table.get_eq_some_iff.2 hold)
      · exact (hlooked _ _ hphase now rfl).1
  | tick hle => exact ⟨⟨h.clock.1.trans hle, htick _ rfl⟩, h.scans, h.phases⟩

/-- In the first `SHARED_SCAN_SECONDS` no lock is dropped, however many scans are kept. -/
theorem sparesLocks_of_early {clock : ℚ} {l : List (ScanAction ι γ)}
    (hl : ∀ a ∈ l, ∀ time, a = .tick time → time < clock + sharedScanSeconds) :
    Along (scanStep x) (SparesLocks x) (SharedScans.init clock) l := by
  have hinit : Early clock (SharedScans.init clock : SharedScans ι (δ × String) γ) := by
    refine ⟨⟨le_refl clock, ?_⟩, fun _ _ hget => (nomatch hget),
      fun _ _ hlooked => (nomatch hlooked)⟩
    unfold sharedScanSeconds
    show clock < clock + 10
    linarith
  exact along_of_invariant (fun _ _ _ h ha hstep => early_step h ha hstep)
    (fun _ a h _ => h.sparesLocks a) hinit (along_of_actions hl _)

end Step

/-! ### A lock that is dropped -/

section Dropped

/-- Calls for the jobs of run `i`, except that the two calls from 513 on ask for run 0 again. -/
def manyScans : ScanCalls ℕ String where
  pat := fun _ => "pat"
  path := fun i => "/repos/o/r/actions/runs/" ++ Nat.repr (if i < 513 then i else 0) ++
    "/jobs?filter=latest&per_page=50"
  digest := id

theorem manyScans_key {i j : ℕ} (hi : i < 513) (hj : j < 513)
    (h : manyScans.key i = manyScans.key j) : i = j := by
  have hpath : manyScans.path i = manyScans.path j := congrArg Prod.snd h
  unfold manyScans at hpath
  dsimp only at hpath
  rw [if_pos hi, if_pos hj, String.append_left_inj, String.append_right_inj] at hpath
  have hdigits : Nat.toDigits 10 i = Nat.toDigits 10 j := by
    rw [← Nat.toList_repr, ← Nat.toList_repr, hpath]
  rw [← Nat.ofDigitChars_ten_toDigits (n := i), hdigits, Nat.ofDigitChars_ten_toDigits]

/-- The steps of a call from its lock to its fetch. -/
def lockAndLook (i : ℕ) : List (ScanAction ℕ String) := [.acquire i, .readClock i, .look i]

/-- A call that fetches and keeps what it got. -/
def fetchAndKeep (i : ℕ) : List (ScanAction ℕ String) :=
  .arrive i :: (lockAndLook i ++ [.fetch i (.data "jobs"), .store i])

variable {s : SharedScans ℕ (String × String) String} {i lock : ℕ}

/-- A call with a free lock and no fresh scan begins to fetch. -/
theorem run_lockAndLook (hphase : s.phase i = .waiting lock) (hfree : s.holder lock = none)
    (hscan : ∀ scan ∈ s.scans.get (manyScans.key i), sharedScanSeconds ≤ s.clock - scan.1) :
    run (scanStep manyScans) s (lockAndLook i) =
      some { s with
        holder := Function.update s.holder lock (some i)
        phase := Function.update s.phase i (.fetching lock s.clock) } := by
  cases hget : s.scans.get (manyScans.key i) with
  | none => simp [lockAndLook, scanStep, SharedScans.move, hphase, hfree, hget]
  | some scan =>
    have hold := not_lt.2 (hscan scan hget)
    simp [lockAndLook, scanStep, SharedScans.move, hphase, hfree, hget, hold]

/-- A call whose key has no lock makes one. -/
theorem step_arrive_new (hphase : s.phase i = .start)
    (hlock : s.locks.get (manyScans.key i) = none) :
    scanStep manyScans s (.arrive i) = some ({ s with
      locks := s.locks.put (manyScans.key i) s.nextLock
      nextLock := s.nextLock + 1 }.move i (.waiting s.nextLock)) := by
  simp [scanStep, hphase, hlock]

/-- A call for a new key begins to fetch. -/
theorem run_arrive_new (hphase : s.phase i = .start)
    (hlock : s.locks.get (manyScans.key i) = none) (hfree : s.holder s.nextLock = none)
    (hscan : s.scans.get (manyScans.key i) = none) :
    run (scanStep manyScans) s (.arrive i :: lockAndLook i) =
      some { s with
        locks := s.locks.put (manyScans.key i) s.nextLock
        nextLock := s.nextLock + 1
        holder := Function.update s.holder s.nextLock (some i)
        phase := Function.update s.phase i (.fetching s.nextLock s.clock) } := by
  rw [run_cons, step_arrive_new hphase hlock, Option.bind_some]
  refine Eq.trans (@run_lockAndLook _ i s.nextLock ?_ ?_ fun scan hget => ?_) ?_
  · exact Function.update_self _ _ _
  · exact hfree
  · have hnone : scan ∈ (none : Option (ℚ × String)) := hscan ▸ hget
    cases hnone
  · simp [SharedScans.move]

/-- A call that fetches gives its lock back once the response is kept. -/
theorem run_keep {now : ℚ} (hphase : s.phase i = .fetching lock now) :
    run (scanStep manyScans) s [.fetch i (.data "jobs"), .store i] =
      some (((s.move i (.fetched lock now "jobs")).keep (manyScans.key i) now "jobs").leave i lock
        (.data "jobs")) := by
  simp [scanStep, hphase, SharedScans.move]

/-- A call for a new key fetches and keeps. -/
theorem run_fetchAndKeep (hphase : s.phase i = .start)
    (hlock : s.locks.get (manyScans.key i) = none) (hfree : s.holder s.nextLock = none)
    (hscan : s.scans.get (manyScans.key i) = none) :
    run (scanStep manyScans) s (fetchAndKeep i) =
      some ((({ s with
        locks := s.locks.put (manyScans.key i) s.nextLock
        nextLock := s.nextLock + 1
        holder := Function.update s.holder s.nextLock (some i)
        phase := Function.update s.phase i (.fetching s.nextLock s.clock) }.move i
          (.fetched s.nextLock s.clock "jobs")).keep (manyScans.key i) s.clock "jobs").leave i
            s.nextLock (.data "jobs")) := by
  have hrun := @run_append _ _ (scanStep manyScans) s (.arrive i :: lockAndLook i)
    [.fetch i (.data "jobs"), .store i]
  rwa [run_arrive_new hphase hlock hfree hscan, Option.bind_some,
    run_keep (Function.update_self _ _ _)] at hrun

/-- The scans of runs 0 to `n - 1` were kept at time 0. -/
structure Filled (n : ℕ) (s : SharedScans ℕ (String × String) String) : Prop where
  clock : s.clock = 0
  length : s.scans.rows.length = n
  scans : ∀ i < 513, s.scans.get (manyScans.key i) = if i < n then some (0, "jobs") else none
  locks : ∀ i < 513, s.locks.get (manyScans.key i) = if i < n then some i else none
  nextLock : s.nextLock = n
  holder : ∀ lock, s.holder lock = none
  phase : ∀ i, n ≤ i → s.phase i = .start

theorem filled_zero : Filled 0 (SharedScans.init 0) :=
  ⟨rfl, rfl, fun _ _ => rfl, fun _ _ => rfl, rfl, fun _ => rfl, fun _ _ => rfl⟩

/-- The first keys are in a table; then one more is. -/
theorem get_put_manyScans {β : Type*} {table : Table (String × String) β} {f : ℕ → β} {n i : ℕ}
    (hi : i < 513) (hn : n < 513)
    (h : table.get (manyScans.key i) = if i < n then some (f i) else none) :
    (table.put (manyScans.key n) (f n)).get (manyScans.key i) =
      if i < n + 1 then some (f i) else none := by
  rw [Table.get_put, h]
  by_cases hin : i = n
  · subst hin
    simp
  · have hkey : manyScans.key i ≠ manyScans.key n := fun hkey => hin (manyScans_key hi hn hkey)
    rw [if_neg hkey]
    exact if_congr (by omega) rfl rfl

/-- One more call, while there is room. -/
theorem Filled.succ {n : ℕ} (h : Filled n s) (hn : n < maxSharedScanEntries) :
    ∃ t, run (scanStep manyScans) s (fetchAndKeep n) = some t ∧ Filled (n + 1) t := by
  have hroom : n < 513 := hn.trans (by decide)
  have hlock : s.locks.get (manyScans.key n) = none := by
    rw [h.locks n hroom, if_neg (lt_irrefl n)]
  have hscan : s.scans.get (manyScans.key n) = none := by
    rw [h.scans n hroom, if_neg (lt_irrefl n)]
  have hlength : (s.scans.put (manyScans.key n) (s.clock, "jobs")).rows.length = n + 1 := by
    rw [Table.rows_put_of_get_eq_none hscan, List.length_append, h.length, List.length_singleton]
  refine ⟨_, run_fetchAndKeep (h.phase n le_rfl) hlock (h.holder s.nextLock) hscan, ?_⟩
  rw [SharedScans.keep_of_room]
  swap
  · exact hlength.le.trans hn
  refine ⟨h.clock, hlength, fun i hi => ?_, fun i hi => ?_, ?_, fun lock => ?_, fun i hi => ?_⟩
  · show (s.scans.put (manyScans.key n) (s.clock, "jobs")).get (manyScans.key i) = _
    rw [h.clock]
    exact get_put_manyScans (f := fun _ => (0, "jobs")) hi hroom (h.scans i hi)
  · show (s.locks.put (manyScans.key n) s.nextLock).get (manyScans.key i) = _
    rw [h.nextLock]
    exact get_put_manyScans (f := id) hi hroom (h.locks i hi)
  · show s.nextLock + 1 = n + 1
    rw [h.nextLock]
  · show Function.update (Function.update s.holder s.nextLock (some n)) s.nextLock none lock = none
    by_cases hlast : lock = s.nextLock
    · rw [hlast, Function.update_self]
    · rw [Function.update_of_ne hlast, Function.update_of_ne hlast, h.holder]
  · have hin : i ≠ n := by omega
    show Function.update (Function.update (Function.update s.phase n _) n _) n _ i = ScanPhase.start
    rw [Function.update_of_ne hin, Function.update_of_ne hin, Function.update_of_ne hin]
    exact h.phase i (by omega)

/-- As many calls as the dictionary has room for. -/
def fill : ℕ → List (ScanAction ℕ String)
  | 0 => []
  | n + 1 => fill n ++ fetchAndKeep n

theorem run_fill {n : ℕ} (hn : n ≤ maxSharedScanEntries) :
    ∃ s, run (scanStep manyScans) (SharedScans.init 0) (fill n) = some s ∧ Filled n s := by
  induction n with
  | zero => exact ⟨_, rfl, filled_zero⟩
  | succ n ih =>
    obtain ⟨s, hs, hfilled⟩ := ih (Nat.le_of_succ_le hn)
    obtain ⟨t, ht, hnext⟩ := hfilled.succ hn
    refine ⟨t, ?_, hnext⟩
    unfold fill
    rw [run_append, hs, Option.bind_some, ht]

/-- Call 513 fetches run 0 again, ten seconds later, and there is no room. -/
structure Refetching (s : SharedScans ℕ (String × String) String) : Prop where
  clock : s.clock = 10
  length : s.scans.rows.length = maxSharedScanEntries
  lock : s.locks.get (manyScans.key 512) = none
  scan : s.scans.get (manyScans.key 512) = none
  expired : s.scans.get (manyScans.key 514) = some (0, "jobs")
  free : s.holder s.nextLock = none
  freeNext : s.holder (s.nextLock + 1) = none
  fetching : s.phase 513 = .fetching 0 10
  start : s.phase 512 = .start
  startLast : s.phase 514 = .start

theorem Filled.refetch (h : Filled maxSharedScanEntries s) :
    ∃ t, run (scanStep manyScans) s (.tick 10 :: .arrive 513 :: lockAndLook 513) = some t ∧
      Refetching t := by
  have hclock : s.clock ≤ 10 := by
    rw [h.clock]
    norm_num
  have hlock : s.locks.get (manyScans.key 513) = some 0 := h.locks 0 (by decide)
  have hscan : s.scans.get (manyScans.key 513) = some (0, "jobs") := h.scans 0 (by decide)
  have harrive : scanStep manyScans { s with clock := 10 } (.arrive 513) =
      some (({ s with clock := 10 } : SharedScans ℕ (String × String) String).move 513
        (.waiting 0)) := by
    simp [scanStep, h.phase 513 (by decide), hlock]
  have hrun : run (scanStep manyScans) s (.tick 10 :: .arrive 513 :: lockAndLook 513) =
      some { s with
        clock := 10
        holder := Function.update s.holder 0 (some 513)
        phase := Function.update s.phase 513 (.fetching 0 10) } := by
    rw [run_cons, show scanStep manyScans s (.tick 10) = some { s with clock := 10 } from
      if_pos hclock, Option.bind_some, run_cons, harrive, Option.bind_some]
    refine Eq.trans (@run_lockAndLook _ 513 0 ?_ ?_ fun scan hget => ?_) ?_
    · simp [SharedScans.move]
    · exact h.holder 0
    · have hsome : scan ∈ some ((0 : ℚ), "jobs") := hscan ▸ hget
      obtain rfl := Option.mem_some_iff.1 hsome
      show (10 : ℚ) ≤ 10 - 0
      norm_num
    · simp [SharedScans.move]
  have hfree : ∀ lock, lock ≠ 0 → Function.update s.holder 0 (some 513) lock = none :=
    fun lock hne => by rw [Function.update_of_ne hne, h.holder]
  have hstart : ∀ i, 512 ≤ i → i ≠ 513 →
      Function.update s.phase 513 (.fetching 0 10) i = .start := fun i hi hne => by
    rw [Function.update_of_ne hne]
    exact h.phase i hi
  have hnext : s.nextLock ≠ 0 := by
    rw [h.nextLock]
    decide
  exact ⟨_, hrun, rfl, h.length, h.locks 512 (by decide), h.scans 512 (by decide),
    h.scans 0 (by decide), hfree _ hnext, hfree _ (Nat.succ_ne_zero _),
    Function.update_self 513 (.fetching 0 10) s.phase, hstart 512 le_rfl (by decide),
    hstart 514 (by decide) (by decide)⟩

/-- Call 512 keeps one scan too many, so that the lock of call 513 is dropped; call 514 makes a
new one. -/
theorem Refetching.fetch_beside (h : Refetching s) :
    ∃ t, run (scanStep manyScans) s (fetchAndKeep 512 ++ .arrive 514 :: lockAndLook 514) = some t ∧
      (t.phase 513).isFetching ∧ (t.phase 514).isFetching := by
  have hkey : manyScans.key 514 ≠ manyScans.key 512 := fun hkey =>
    absurd (manyScans_key (i := 0) (by decide) (by decide) hkey) (by decide)
  have hlength : maxSharedScanEntries <
      (s.scans.put (manyScans.key 512) (s.clock, "jobs")).rows.length := by
    rw [Table.rows_put_of_get_eq_none h.scan, List.length_append, h.length]
    exact Nat.lt_succ_self _
  have hstale : isStale (s.scans.put (manyScans.key 512) (s.clock, "jobs")) s.clock
      (manyScans.key 514) = true := by
    unfold isStale
    rw [Table.get_put, if_neg hkey, h.expired, h.clock]
    decide +kernel
  rw [run_append, run_fetchAndKeep h.start h.lock h.free h.scan, Option.bind_some,
    SharedScans.keep_of_full]
  swap
  · exact hlength
  refine ⟨_, run_arrive_new ?_ ?_ ?_ ?_, ?_, ?_⟩
  · simp [SharedScans.leave, SharedScans.dropStaleScans, SharedScans.move, h.startLast]
  · simp [SharedScans.leave, SharedScans.dropStaleScans, SharedScans.move, Table.get_deleteWhere,
      hstale]
  · simp [SharedScans.leave, SharedScans.dropStaleScans, SharedScans.move, h.freeNext]
  · simp [SharedScans.leave, SharedScans.dropStaleScans, SharedScans.move, Table.get_deleteWhere,
      hstale]
  · simp [SharedScans.leave, SharedScans.dropStaleScans, SharedScans.move, h.fetching,
      ScanPhase.isFetching]
  · simp [ScanPhase.isFetching]

/-- One scan too many is kept while call 513 waits for a lock; the scan of its path has not
expired. -/
def lastScan : List (ScanAction ℕ String) :=
  fill maxSharedScanEntries ++ .arrive 513 :: fetchAndKeep 512

end Dropped

end RunnerSwarm
