import RunnerSwarm.Config.Pool
import RunnerSwarm.GitHub.Client
import RunnerSwarm.Lib.Bounded
import RunnerSwarm.Lib.Log
import RunnerSwarm.Lib.Run

/-!
# The repository cache

The repositories of a personal account are discovered with a request, and kept for the
`repo_discovery_ttl` of the pool. After that time they are still there, for when GitHub does not
answer. All pools share one cache, which has room for 128 of them; a new pool displaces the one
whose entry expires first. A TTL of zero turns the cache off.

The pools, the times and what the discoveries end with are arbitrary. The times need not even be in
order.

* `lastDiscovery_eq_some`: what the last discovery of a pool is;
* `along_callSound`: each call of a sequence asks GitHub just when its pool has no entry that is
  still good, and answers with the last successful discovery of the pool unless its entry has been
  displaced; the cache does not outgrow its bound, and storing an entry displaces at most one other.
-/

namespace RunnerSwarm

/-- Last successful personal-account repository discovery. -/
structure RepositoryCacheEntry where
  repositories : List String
  expiresAt : ℚ
  deriving DecidableEq

/-- `MAX_REPOSITORY_CACHE_ENTRIES`. -/
def maxRepositoryCacheEntries : ℕ := 128

variable {δ : Type*}

/-- `cache_key`; the token is hashed. -/
def repositoryCacheKey (digest : String → δ) (pool : PoolConfig) : String × String × δ :=
  (pool.name, lower pool.owner, digest pool.pat)

/-- A call of `_get_personal_repositories`, with what `list_repositories` ends with if it is
called: the repositories, `None` or an exception. -/
structure RepositoryCall where
  pool : PoolConfig
  now : ℚ
  discovery : Except GitHubError (Option (List String))

/-- The entry that a successful discovery of this call makes. -/
def RepositoryCall.entry (c : RepositoryCall) (repositories : List String) : RepositoryCacheEntry :=
  ⟨repositories, c.now + c.pool.repoDiscoveryTtl⟩

/-- A call that has ended. -/
structure RepositoryAnswer where
  call : RepositoryCall
  /-- Whether `list_repositories` was called. -/
  requested : Bool
  result : Except GitHubError (List String)

/-- The repositories that the call has discovered. -/
def RepositoryAnswer.discovered (a : RepositoryAnswer) : Option (List String) :=
  if a.requested then
    match a.call.discovery with
    | .ok repositories => repositories
    | .error _ => none
  else none

/-- The scaler as far as its cache goes, with all calls so far. -/
structure RepositoryCache (δ : Type*) where
  /-- `_repository_cache`. -/
  entries : Table (String × String × δ) RepositoryCacheEntry
  log : List RepositoryAnswer

namespace RepositoryCache

/-- A new scaler. -/
def new : RepositoryCache δ := ⟨Table.empty, []⟩

section Call

variable [DecidableEq δ] (digest : String → δ) (s : RepositoryCache δ) (c : RepositoryCall)

/-- The entry of a pool. -/
def held (pool : PoolConfig) : Option RepositoryCacheEntry :=
  s.entries.get (repositoryCacheKey digest pool)

/-- `_store_repositories`. -/
def storeRepositories (key : String × String × δ) (entry : RepositoryCacheEntry) :
    Table (String × String × δ) RepositoryCacheEntry :=
  s.entries.putBounded (·.expiresAt) maxRepositoryCacheEntries key entry

/-- A call that ends without a change of the cache. -/
def answered (requested : Bool) (result : Except GitHubError (List String)) : RepositoryCache δ :=
  { s with log := s.log ++ [⟨c, requested, result⟩] }

/-- `_get_personal_repositories` from `list_repositories` on. -/
def refresh (cached : Option RepositoryCacheEntry) : RepositoryCache δ :=
  match c.discovery with
  | .error error => s.answered c true (.error error)
  | .ok none => s.answered c true (.ok (cached.elim [] (·.repositories)))
  | .ok (some repositories) =>
      let key := repositoryCacheKey digest c.pool
      { entries :=
          if c.pool.repoDiscoveryTtl = 0 then s.entries.erase key
          else s.storeRepositories key (c.entry repositories)
        log := s.log ++ [⟨c, true, .ok repositories⟩] }

/-- `_get_personal_repositories`. -/
def getPersonalRepositories : RepositoryCache δ :=
  match s.held digest c.pool with
  | some cached =>
      if c.now < cached.expiresAt then s.answered c false (.ok cached.repositories)
      else s.refresh digest c (some cached)
  | none => s.refresh digest c none

/-- The calls come one after the other. -/
def step : Option (RepositoryCache δ) := some (s.getPersonalRepositories digest c)

end Call

/-! ### What a call is to do -/

/-- What a call does to the last discovery of the pools with this key. -/
def discoversFor [DecidableEq δ] (digest : String → δ) (key : String × String × δ)
    (a : RepositoryAnswer) : Option (Option RepositoryCacheEntry) :=
  if repositoryCacheKey digest a.call.pool = key then
    a.discovered.map fun repositories => some (a.call.entry repositories)
  else none

/-- The most recent successful discovery of a pool. -/
def lastDiscovery [DecidableEq δ] (digest : String → δ) (key : String × String × δ)
    (log : List RepositoryAnswer) : Option RepositoryCacheEntry :=
  lastWrite (discoversFor digest key) log

/-- The cache is within its bound, and what it holds for a pool is its last discovery. -/
structure Consistent [DecidableEq δ] (digest : String → δ) (s : RepositoryCache δ) : Prop where
  bounded : s.entries.rows.length ≤ maxRepositoryCacheEntries
  latest : ∀ key entry, s.entries.get key = some entry → lastDiscovery digest key s.log = some entry

/-- **A call in order**, with the state before and after it. -/
structure CallSound [DecidableEq δ] (digest : String → δ) (s : RepositoryCache δ)
    (a : RepositoryAnswer) (t : RepositoryCache δ) : Prop extends Consistent digest t where
  /-- A request is sent exactly when the entry is missing or expired. -/
  asked : a.requested = true ↔ ∀ entry ∈ s.held digest a.call.pool, entry.expiresAt ≤ a.call.now
  /-- The call raises what the request raises. -/
  raised : ∀ error, a.result = .error error ↔ a.requested = true ∧ a.call.discovery = .error error
  /-- It returns what is held for the pool, and the empty list when there is nothing. -/
  returned : ∀ repositories, a.result = .ok repositories →
    repositories = (t.held digest a.call.pool).elim [] (·.repositories)
  /-- Nothing is lost without a new discovery. -/
  kept : a.discovered = none → t.entries = s.entries
  /-- A new one is held, and at most one other entry gives way, with the earliest expiry. -/
  stored : ∀ repositories ∈ a.discovered,
    t.held digest a.call.pool = some (a.call.entry repositories) ∧
      s.entries.Displaces (·.expiresAt) (repositoryCacheKey digest a.call.pool) t.entries

variable [DecidableEq δ] {digest : String → δ} {s : RepositoryCache δ} {c : RepositoryCall}

theorem lastDiscovery_concat (key : String × String × δ) (log : List RepositoryAnswer)
    (a : RepositoryAnswer) : lastDiscovery digest key (log ++ [a]) =
      (discoversFor digest key a).getD (lastDiscovery digest key log) := lastWrite_concat

/-- **The last discovery** was made by a call, and no later call of the pool has made another. -/
theorem lastDiscovery_eq_some {key : String × String × δ} {log : List RepositoryAnswer}
    {entry : RepositoryCacheEntry} (h : lastDiscovery digest key log = some entry) :
    ∃ past a rest, log = past ++ a :: rest ∧ repositoryCacheKey digest a.call.pool = key ∧
      a.discovered = some entry.repositories ∧ entry = a.call.entry entry.repositories ∧
      ∀ b ∈ rest, repositoryCacheKey digest b.call.pool = key → b.discovered = none := by
  obtain ⟨past, a, rest, hlog, ha, hrest⟩ := lastWrite_eq_some h
  unfold discoversFor at ha
  split_ifs at ha with hkey
  obtain ⟨repositories, hdiscovered, hentry⟩ := Option.map_eq_some_iff.1 ha
  obtain rfl := Option.some.inj hentry
  refine ⟨past, a, rest, hlog, hkey, hdiscovered, rfl, fun b hb hbkey => ?_⟩
  have hsilent := hrest b hb
  rwa [discoversFor, if_pos hbkey, Option.map_eq_none_iff] at hsilent

theorem discovered_of_requested {repositories : Option (List String)}
    (h : c.discovery = .ok repositories) (result : Except GitHubError (List String)) :
    (RepositoryAnswer.mk c true result).discovered = repositories := by
  unfold RepositoryAnswer.discovered
  rw [if_pos rfl, h]

/-- A call without a discovery. -/
theorem lastDiscovery_of_silent {a : RepositoryAnswer} (h : a.discovered = none)
    (key : String × String × δ) (log : List RepositoryAnswer) :
    lastDiscovery digest key (log ++ [a]) = lastDiscovery digest key log := by
  have hsilent : discoversFor digest key a = none := by
    unfold discoversFor
    rw [h, Option.map_none, ite_self]
  rw [lastDiscovery_concat, hsilent]
  rfl

theorem lastDiscovery_self {a : RepositoryAnswer} {repositories : List String}
    (h : a.discovered = some repositories) (log : List RepositoryAnswer) :
    lastDiscovery digest (repositoryCacheKey digest a.call.pool) (log ++ [a]) =
      some (a.call.entry repositories) := by
  rw [lastDiscovery_concat, discoversFor, if_pos rfl, h]
  rfl

theorem lastDiscovery_of_ne {a : RepositoryAnswer} {key : String × String × δ}
    (h : key ≠ repositoryCacheKey digest a.call.pool) (log : List RepositoryAnswer) :
    lastDiscovery digest key (log ++ [a]) = lastDiscovery digest key log := by
  rw [lastDiscovery_concat, discoversFor, if_neg (Ne.symm h)]
  rfl

theorem consistent_new : Consistent digest new where
  bounded := Nat.zero_le _
  latest := nofun

/-- **The two ways of a call**: the entry is good, or there is a request. -/
theorem call_cases (digest : String → δ) (s : RepositoryCache δ) (c : RepositoryCall) :
    (∃ cached, s.held digest c.pool = some cached ∧ c.now < cached.expiresAt ∧
        s.getPersonalRepositories digest c = s.answered c false (.ok cached.repositories)) ∨
      (∀ cached ∈ s.held digest c.pool, cached.expiresAt ≤ c.now) ∧
        s.getPersonalRepositories digest c = s.refresh digest c (s.held digest c.pool) := by
  unfold getPersonalRepositories
  cases hheld : s.held digest c.pool with
  | none => exact Or.inr ⟨nofun, rfl⟩
  | some cached =>
    by_cases hgood : c.now < cached.expiresAt
    · exact Or.inl ⟨cached, rfl, hgood, if_pos hgood⟩
    · refine Or.inr ⟨fun entry hentry => ?_, if_neg hgood⟩
      rw [← Option.some.inj hentry]
      exact not_lt.1 hgood

/-! ### Calls that leave the cache -/

theorem Consistent.answered (h : Consistent digest s) {requested : Bool}
    {result : Except GitHubError (List String)}
    (hsilent : (RepositoryAnswer.mk c requested result).discovered = none) :
    Consistent digest (s.answered c requested result) where
  bounded := h.bounded
  latest key entry hentry := by
    have hlog : lastDiscovery digest key (s.answered c requested result).log =
        lastDiscovery digest key s.log := lastDiscovery_of_silent hsilent key s.log
    rw [hlog]
    exact h.latest key entry hentry

/-- A call that does not change the cache is in order when its answer is. -/
theorem callSound_answered (h : Consistent digest s) {requested : Bool}
    {result : Except GitHubError (List String)}
    (hsilent : (RepositoryAnswer.mk c requested result).discovered = none)
    (hasked : requested = true ↔ ∀ entry ∈ s.held digest c.pool, entry.expiresAt ≤ c.now)
    (hraised : ∀ error, result = .error error ↔ requested = true ∧ c.discovery = .error error)
    (hreturned : ∀ repositories, result = .ok repositories →
      repositories = (s.held digest c.pool).elim [] (·.repositories)) :
    CallSound digest s ⟨c, requested, result⟩ (s.answered c requested result) where
  toConsistent := h.answered hsilent
  asked := hasked
  raised := hraised
  returned := hreturned
  kept _ := rfl
  stored repositories hstored := by
    rw [hsilent] at hstored
    cases hstored

/-! ### Calls that store -/

theorem held_storeRepositories (digest : String → δ) (s : RepositoryCache δ) (c : RepositoryCall)
    (repositories : List String) :
    (s.storeRepositories (repositoryCacheKey digest c.pool) (c.entry repositories)).get
      (repositoryCacheKey digest c.pool) = some (c.entry repositories) :=
  Table.get_putBounded_self _ _ _

/-- A row that is there for another pool was there before. -/
theorem get_of_get_storeRepositories {key key' : String × String × δ}
    {entry entry' : RepositoryCacheEntry} (hne : key' ≠ key)
    (h : (s.storeRepositories key entry).get key' = some entry') :
    s.entries.get key' = some entry' := by
  have hdisplaced : s.entries.Displaces (·.expiresAt) key (s.storeRepositories key entry) :=
    Table.displaces_putBounded (by decide) _ _ _
  rcases hdisplaced with hsame | ⟨old, -, -, -, -, hgone, hsame⟩
  · rwa [hsame key' hne] at h
  · by_cases hold : key' = old
    · rw [hold, hgone] at h
      cases h
    · rwa [hsame key' hne hold] at h

theorem Consistent.store (h : Consistent digest s) (c : RepositoryCall)
    (repositories : List String) (hdiscovery : c.discovery = .ok (some repositories)) :
    Consistent digest
      ⟨s.storeRepositories (repositoryCacheKey digest c.pool) (c.entry repositories),
        s.log ++ [⟨c, true, .ok repositories⟩]⟩ where
  bounded := Table.length_putBounded_le (by decide) h.bounded _ _
  latest key entry hentry := by
    by_cases hkey : key = repositoryCacheKey digest c.pool
    · rw [hkey] at hentry ⊢
      rw [held_storeRepositories] at hentry
      rw [← hentry]
      exact lastDiscovery_self (discovered_of_requested hdiscovery _) s.log
    · have hold := h.latest key entry (get_of_get_storeRepositories hkey hentry)
      rw [← hold]
      exact lastDiscovery_of_ne hkey s.log

/-- **A call that stores is in order.** -/
theorem callSound_store (h : Consistent digest s) {repositories : List String}
    (hdiscovery : c.discovery = .ok (some repositories))
    (hasked : ∀ entry ∈ s.held digest c.pool, entry.expiresAt ≤ c.now) :
    CallSound digest s ⟨c, true, .ok repositories⟩
      ⟨s.storeRepositories (repositoryCacheKey digest c.pool) (c.entry repositories),
        s.log ++ [⟨c, true, .ok repositories⟩]⟩ where
  toConsistent := h.store c repositories hdiscovery
  asked := ⟨fun _ => hasked, fun _ => rfl⟩
  raised error := by
    dsimp only
    rw [hdiscovery]
    constructor
    · nofun
    · rintro ⟨-, herror⟩
      cases herror
  returned found hfound := by
    have hheld := held_storeRepositories digest s c repositories
    unfold held
    rw [hheld, ← Except.ok.inj hfound]
    rfl
  kept hsilent := by
    rw [discovered_of_requested hdiscovery] at hsilent
    cases hsilent
  stored found hfound := by
    rw [discovered_of_requested hdiscovery] at hfound
    cases hfound
    exact ⟨held_storeRepositories digest s c repositories,
      Table.displaces_putBounded (by decide) _ _ _⟩

/-! ### Every call -/

/-- **A call of a pool with a TTL is in order.** -/
theorem callSound_getPersonalRepositories (h : Consistent digest s)
    (httl : 0 < c.pool.repoDiscoveryTtl) :
    ∃ a, a.call = c ∧ (s.getPersonalRepositories digest c).log = s.log ++ [a] ∧
      CallSound digest s a (s.getPersonalRepositories digest c) := by
  rcases call_cases digest s c with ⟨cached, hheld, hgood, hcall⟩ | ⟨hexpired, hcall⟩
  · rw [hcall]
    refine ⟨⟨c, false, .ok cached.repositories⟩, rfl, rfl, callSound_answered h rfl ?_ ?_ ?_⟩
    · refine ⟨nofun, fun hexpired => ?_⟩
      exact absurd hgood (hexpired cached hheld).not_gt
    · exact fun error => ⟨nofun, nofun⟩
    · intro repositories hrepositories
      rw [hheld, ← Except.ok.inj hrepositories]
      rfl
  · rw [hcall]
    unfold refresh
    have hasked : true = true ↔ ∀ entry ∈ s.held digest c.pool, entry.expiresAt ≤ c.now :=
      ⟨fun _ => hexpired, fun _ => rfl⟩
    cases hdiscovery : c.discovery with
    | error raised =>
      refine ⟨⟨c, true, .error raised⟩, rfl, rfl, callSound_answered h ?_ hasked ?_ nofun⟩
      · unfold RepositoryAnswer.discovered
        rw [if_pos rfl, hdiscovery]
      · intro error
        rw [hdiscovery]
        exact ⟨fun herror => ⟨rfl, Except.error.inj herror ▸ rfl⟩,
          fun herror => Except.error.inj herror.2 ▸ rfl⟩
    | ok discovered =>
      cases discovered with
      | none =>
        refine ⟨⟨c, true, _⟩, rfl, rfl, callSound_answered h
          (discovered_of_requested hdiscovery _) hasked ?_ ?_⟩
        · intro error
          rw [hdiscovery]
          exact ⟨nofun, fun herror => nomatch herror.2⟩
        · exact fun repositories hrepositories => (Except.ok.inj hrepositories).symm
      | some repositories =>
        dsimp only
        rw [if_neg httl.ne']
        exact ⟨⟨c, true, .ok repositories⟩, rfl, rfl, callSound_store h hdiscovery hexpired⟩

/-- **A TTL of zero** keeps nothing for the pool, and nothing else is changed. -/
theorem held_of_ttl_zero (hexpired : ∀ entry ∈ s.held digest c.pool, entry.expiresAt ≤ c.now)
    {repositories : List String} (hdiscovery : c.discovery = .ok (some repositories))
    (httl : c.pool.repoDiscoveryTtl = 0) :
    (s.getPersonalRepositories digest c).held digest c.pool = none ∧
      ∀ key ≠ repositoryCacheKey digest c.pool,
        (s.getPersonalRepositories digest c).entries.get key = s.entries.get key := by
  have hentries : (s.getPersonalRepositories digest c).entries =
      s.entries.erase (repositoryCacheKey digest c.pool) := by
    rcases call_cases digest s c with ⟨cached, hheld, hgood, -⟩ | ⟨-, hcall⟩
    · exact absurd hgood (hexpired cached hheld).not_gt
    · rw [hcall]
      unfold refresh
      rw [hdiscovery]
      exact if_pos httl
  unfold held
  rw [hentries, Table.get_erase, if_pos rfl]
  refine ⟨rfl, fun key hkey => ?_⟩
  rw [Table.get_erase, if_neg hkey]

/-- **The cache of a scaler**: in a sequence of calls of pools with a TTL, each call is in order. -/
theorem along_callSound (digest : String → δ) {calls : List RepositoryCall}
    (httl : ∀ c ∈ calls, 0 < c.pool.repoDiscoveryTtl) :
    Along (step digest) (fun s c => ∀ t, step digest s c = some t →
      ∃ a, a.call = c ∧ t.log = s.log ++ [a] ∧ CallSound digest s a t) new calls := by
  refine along_of_invariant (I := Consistent digest) (fun s c t h hc ht => ?_)
    (fun s c h hc t ht => ?_) consistent_new (along_of_actions httl new)
  · obtain rfl := Option.some.inj ht
    obtain ⟨a, -, -, hsound⟩ := callSound_getPersonalRepositories h hc
    exact hsound.toConsistent
  · obtain rfl := Option.some.inj ht
    exact callSound_getPersonalRepositories h hc

/-! ### A refresh that fails -/

def cachedPool (name : String) : PoolConfig :=
  { name := name, pat := "ghp", owner := "Octo", scope := "personal" }

/-- A discovery, a call within the TTL and one after it, when GitHub does not answer. -/
def staleCalls : List RepositoryCall :=
  [⟨cachedPool "home", 100, .ok (some ["alpha"])⟩, ⟨cachedPool "home", 200, .ok none⟩,
    ⟨cachedPool "home", 701, .ok none⟩, ⟨cachedPool "work", 701, .error (.rateLimit 900 "")⟩]

theorem along_callSound_stale :
    Along (step id) (fun s c => ∀ t, step id s c = some t →
      ∃ a, a.call = c ∧ t.log = s.log ++ [a] ∧ CallSound id s a t) new staleCalls :=
  along_callSound id (by decide)

/-- The third call asks and returns what the first one has found. -/
example : ((run (step id) new staleCalls).map fun s => s.log.map fun a =>
    (a.requested, a.result.toOption)) = some [(true, some ["alpha"]), (false, some ["alpha"]),
      (true, some ["alpha"]), (true, none)] := by
  decide +kernel

end RepositoryCache

end RunnerSwarm
