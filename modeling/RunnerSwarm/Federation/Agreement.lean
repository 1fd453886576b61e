import RunnerSwarm.Federation.Validation

/-!
# Two hosts on one queue

`Federation` is what a host knows of its peers. `refresh` stores their validated snapshots and
`queueInput` splits a queue over the own snapshot and the fresh ones. A host reasons over its own
snapshot as it is and over a validated copy of the other's, and the other way round for its peer.

`twoHosts_agree` is the point of the protocol: two hosts that hold each other's current snapshot
split alike, and take the queue between them as far as there is room.
-/

namespace RunnerSwarm

/-! ### The state of a federation -/

/-- The `federation:` block. A peer is known by its name. -/
structure FederationConfig where
  enabled : Bool := false
  maxTempC : PyFloat := .finite 85
  rescueAfterSeconds : ℤ := 180
  staleAfterSeconds : ℤ := 60
  peers : List String := []

/-- The last good snapshot of a peer and when it came. -/
structure PeerView where
  snapshot : Option Snapshot := none
  okAt : ℚ := 0

structure Federation where
  config : FederationConfig
  own : Option Snapshot := none
  peers : Table String PeerView := Table.empty

namespace Federation

variable (f : Federation)

/-- One peer of `refresh`: a failed fetch or an invalid snapshot leaves the view as it is. -/
def fetchPeer (fetched : String → Except PyError Json) (clock : String → ℚ) (f : Federation)
    (peer : String) : Federation :=
  match fetched peer with
  | .error _ => { f with peers := f.peers.upsert peer {} id }
  | .ok data =>
      match validateSnapshot data with
      | .error _ => { f with peers := f.peers.upsert peer {} id }
      | .ok snapshot => { f with peers := f.peers.put peer ⟨some snapshot, clock peer⟩ }

/-- `refresh`. `clock` is read after each fetch. -/
def refresh (own : Snapshot) (fetched : String → Except PyError Json) (clock : String → ℚ) :
    Federation :=
  f.config.peers.foldl (fetchPeer fetched clock) { f with own := some own }

/-- `_fresh_peers` at the time `now`. -/
def freshPeers (now : ℚ) : List Snapshot :=
  f.peers.rows.filterMap fun row =>
    match row.2.snapshot with
    | none => none
    | some s =>
        if now - row.2.okAt ≤ f.config.staleAfterSeconds ∧
            some s.instanceName ≠ f.own.map (·.instanceName) then some s
        else none

/-- `is_hot`. -/
def isHot : Bool :=
  f.config.enabled &&
    match f.own.bind fun s => s.host.tempC with
    | none => false
    | some temp => f.config.maxTempC.le (.finite temp)

/-- The slots `queue_input` splits over. -/
def slots (pool : String) (now : ℚ) : List Slot :=
  (f.own.toList ++ f.freshPeers now).filterMap fun s => slotFor s pool f.config.maxTempC

/-- `queue_input`: what this host takes of a queue, given the ages of its jobs, and the split. -/
def queueInput (ρ : Rounding) (pool : String) (ages : List ℚ) (now : ℚ) : ℕ × (String → ℕ) :=
  let shares := split ρ ages.length (f.slots pool now)
  let rescue := ages.countP fun age => (f.config.rescueAfterSeconds : ℚ) ≤ age
  let mine := shares ((f.own.map (·.instanceName)).getD "")
  (if f.isHot then 0 else max mine rescue, shares)

/-- The states of a federation over any history of refreshes. -/
inductive Reached (config : FederationConfig) : Federation → Prop
  | start : Reached config { config := config }
  | refresh {f : Federation} (h : Reached config f) (own : Snapshot)
      (fetched : String → Except PyError Json) (clock : String → ℚ) :
      Reached config (f.refresh own fetched clock)

end Federation

/-! ### One peer -/

section OnePeer

variable {f : Federation} {peer : String} {own theirs copy : Snapshot}
  {fetched : String → Except PyError Json} {clock : String → ℚ} {now : ℚ}

/-- A table whose keys are all the same has one row. -/
theorem rows_eq_singleton {κ β : Type*} [DecidableEq κ] {t : Table κ β} {k : κ} {v : β}
    (hv : t.get k = some v) (honly : ∀ k', k' ≠ k → t.get k' = none) : t.rows = [(k, v)] := by
  have hall : ∀ row ∈ t.rows, row = (k, v) := by
    rintro ⟨k', w⟩ hrow
    have hget := Table.get_eq_some_iff.2 hrow
    by_cases hk : k' = k
    · subst hk
      rw [Option.some.inj (hget.symm.trans hv)]
    · rw [honly k' hk] at hget
      cases hget
  have hmem : (k, v) ∈ t.rows := Table.get_eq_some_iff.1 hv
  have hnodup : t.rows.Nodup := t.keyed.of_map _
  have hperm : t.rows.Perm [(k, v)] :=
    (List.perm_ext_iff_of_nodup hnodup (List.nodup_singleton _)).2 fun row =>
      ⟨fun hrow => List.mem_singleton.2 (hall row hrow),
        fun hrow => List.mem_singleton.1 hrow ▸ hmem⟩
  exact List.perm_singleton.1 hperm

theorem fetchPeer_config (f : Federation) (peer : String) :
    (Federation.fetchPeer fetched clock f peer).config = f.config := by
  unfold Federation.fetchPeer
  split
  · rfl
  · split <;> rfl

theorem fetchPeer_own (f : Federation) (peer : String) :
    (Federation.fetchPeer fetched clock f peer).own = f.own := by
  unfold Federation.fetchPeer
  split
  · rfl
  · split <;> rfl

theorem fetchPeer_other {f : Federation} {peer name : String} (h : name ≠ peer) :
    (Federation.fetchPeer fetched clock f peer).peers.get name = f.peers.get name := by
  unfold Federation.fetchPeer
  split
  · rw [Table.get_upsert, if_neg h]
  · split
    · rw [Table.get_upsert, if_neg h]
    · rw [Table.get_put, if_neg h]

/-- No history adds a view of anyone but the configured peers. -/
theorem Federation.Reached.known {config : FederationConfig} (h : Federation.Reached config f) :
    f.config = config ∧ ∀ name, name ∉ config.peers → f.peers.get name = none := by
  induction h with
  | start => exact ⟨rfl, fun _ _ => rfl⟩
  | @refresh f _ own fetched clock ih =>
    have hloop : ∀ (peers : List String) (g : Federation), peers ⊆ config.peers →
        g.config = config ∧ (∀ name, name ∉ config.peers → g.peers.get name = none) →
        (peers.foldl (Federation.fetchPeer fetched clock) g).config = config ∧
          ∀ name, name ∉ config.peers →
            (peers.foldl (Federation.fetchPeer fetched clock) g).peers.get name = none := by
      intro peers
      induction peers with
      | nil => exact fun g _ hg => hg
      | cons peer peers ihpeers =>
        intro g hsub hg
        refine ihpeers _ (fun name hname => hsub (List.mem_cons_of_mem _ hname)) ⟨?_, ?_⟩
        · rw [fetchPeer_config, hg.1]
        · intro name hname
          have hother : name ≠ peer := by
            rintro rfl
            exact hname (hsub List.mem_cons_self)
          rw [fetchPeer_other hother]
          exact hg.2 name hname
    exact hloop f.config.peers _ (ih.1 ▸ List.Subset.refl _) ih

/-- A refresh with one peer holds its snapshot. -/
theorem refresh_peers (own : Snapshot) (clock : String → ℚ) (hpeers : f.config.peers = [peer])
    (honly : ∀ name, name ≠ peer → f.peers.get name = none) {data : Json}
    (hfetch : fetched peer = .ok data) (hvalid : validateSnapshot data = .ok copy) :
    f.refresh own fetched clock =
        { config := f.config, own := some own,
          peers := f.peers.put peer ⟨some copy, clock peer⟩ } ∧
      (f.refresh own fetched clock).peers.rows = [(peer, ⟨some copy, clock peer⟩)] := by
  have hrefresh : f.refresh own fetched clock =
      { config := f.config, own := some own,
        peers := f.peers.put peer ⟨some copy, clock peer⟩ } := by
    unfold Federation.refresh
    rw [hpeers, List.foldl_cons, List.foldl_nil]
    unfold Federation.fetchPeer
    rw [hfetch]
    dsimp only
    rw [hvalid]
  refine ⟨hrefresh, ?_⟩
  rw [hrefresh]
  refine rows_eq_singleton (by rw [Table.get_put, if_pos rfl]) fun name hname => ?_
  rw [Table.get_put, if_neg hname]
  exact honly name hname

/-- Its slots are the own one and the peer's. -/
theorem slots_refresh (own : Snapshot) (hpeers : f.config.peers = [peer])
    (honly : ∀ name, name ≠ peer → f.peers.get name = none) {data : Json}
    (hfetch : fetched peer = .ok data) (hvalid : validateSnapshot data = .ok copy)
    (hagrees : copy.Agrees theirs) (hfresh : now - clock peer ≤ f.config.staleAfterSeconds)
    (hne : theirs.instanceName ≠ own.instanceName) (pool : String) :
    (f.refresh own fetched clock).slots pool now =
      [own, theirs].filterMap fun s => slotFor s pool f.config.maxTempC := by
  obtain ⟨hrefresh, hrows⟩ := refresh_peers own clock hpeers honly hfetch hvalid
  have hother : some copy.instanceName ≠ (some own).map (·.instanceName) := by
    rw [hagrees.instanceName]
    exact fun h => hne (Option.some.inj h)
  have hpeer : (f.refresh own fetched clock).freshPeers now = [copy] := by
    unfold Federation.freshPeers
    rw [hrows, hrefresh]
    simp only [List.filterMap_cons, List.filterMap_nil]
    rw [if_pos ⟨hfresh, hother⟩]
  unfold Federation.slots
  rw [hpeer, hrefresh]
  simp only [Option.toList_some, List.singleton_append, List.filterMap_cons, List.filterMap_nil,
    hagrees.slotFor]

end OnePeer

/-! ### Two hosts -/

section TwoSlots

variable {ρ : Rounding} {s t : Snapshot} {pool : String} {maxTempC : PyFloat}

theorem slotFor_name {slot : Slot} (h : slotFor s pool maxTempC = some slot) :
    slot.name = s.instanceName := by
  unfold slotFor at h
  split at h
  · cases h
  · cases h
    rfl

/-- Who has no slot has no share. -/
theorem splitLoop_other {name : String} {openSlots : List Slot} {shares : String → ℕ}
    (h : ∀ slot ∈ openSlots, slot.name ≠ name) (fuel : ℕ) :
    splitLoop ρ fuel openSlots shares name = shares name := by
  induction fuel generalizing openSlots shares with
  | zero => rfl
  | succ fuel ih =>
    unfold splitLoop
    dsimp only
    have hopen : ∀ slot ∈ openSlots.filter fun s => shares s.name < s.capacity,
        slot.name ≠ name := fun slot hslot => h slot (List.mem_filter.1 hslot).1
    cases hmax : (openSlots.filter fun s => shares s.name < s.capacity).argmax
        (slotKey ρ shares) with
    | none => rfl
    | some best =>
      dsimp only
      rw [ih hopen, Function.update_of_ne (Ne.symm (hopen best (List.argmax_mem hmax)))]

theorem split_other {name : String} {slots : List Slot} (h : ∀ slot ∈ slots, slot.name ≠ name)
    (queued : ℕ) : split ρ queued slots name = 0 :=
  splitLoop_other (fun slot hslot => h slot ((List.perm_insertionSort _ _).subset hslot)) queued

/-- The slots of two hosts have different names. -/
theorem twoSlots_nodup (hne : s.instanceName ≠ t.instanceName) :
    (([s, t].filterMap fun u => slotFor u pool maxTempC).map (·.name)).Nodup := by
  cases hs : slotFor s pool maxTempC with
  | none => cases ht : slotFor t pool maxTempC <;> simp [hs, ht]
  | some a =>
    cases ht : slotFor t pool maxTempC with
    | none => simp [hs, ht]
    | some b => simpa [hs, ht, slotFor_name hs, slotFor_name ht] using hne

/-- What the two have together. -/
theorem twoSlots_sum (hne : s.instanceName ≠ t.instanceName) (queued : ℕ) :
    split ρ queued ([s, t].filterMap fun u => slotFor u pool maxTempC) s.instanceName +
        split ρ queued ([s, t].filterMap fun u => slotFor u pool maxTempC) t.instanceName =
      min queued
        (([s, t].filterMap fun u => slotFor u pool maxTempC).map (·.capacity)).sum := by
  rw [← split_sum (ρ := ρ) (twoSlots_nodup hne) queued]
  cases hs : slotFor s pool maxTempC with
  | none =>
    cases ht : slotFor t pool maxTempC with
    | none =>
      have hzero : ∀ name, split ρ queued [] name = 0 := fun name =>
        split_other (fun slot hslot => absurd hslot List.not_mem_nil) queued
      simp [hs, ht, hzero]
    | some b =>
      have hzero : split ρ queued [b] s.instanceName = 0 := by
        refine split_other (fun slot hslot => ?_) queued
        rw [List.mem_singleton.1 hslot, slotFor_name ht]
        exact Ne.symm hne
      simp [hs, ht, hzero, slotFor_name ht]
  | some a =>
    cases ht : slotFor t pool maxTempC with
    | none =>
      have hzero : split ρ queued [a] t.instanceName = 0 := by
        refine split_other (fun slot hslot => ?_) queued
        rw [List.mem_singleton.1 hslot, slotFor_name hs]
        exact hne
      simp [hs, ht, hzero, slotFor_name hs]
    | some b => simp [hs, ht, slotFor_name hs, slotFor_name ht]

end TwoSlots

/-- A peer receives the snapshot, accepts it and reads the same slots from its copy. -/
def Daemon.Accepted (d : Daemon) (ρ : Rounding) : Prop :=
  ∃ data copy, fetchSnapshot (d.snapshot ρ).jsonify = .ok data ∧
    validateSnapshot data = .ok copy ∧
    ∀ pool maxTempC, slotFor copy pool maxTempC = slotFor (d.snapshot ρ) pool maxTempC

/-- The federation of the host `here` after a refresh with `there` as its one peer, still fresh at
the time `now`. -/
inductive Current (ρ : Rounding) (here there : Daemon) (config : FederationConfig) (peer : String)
    (now : ℚ) : Federation → Prop
  | refreshed {f : Federation} (history : f.Reached config) (clock : String → ℚ)
      (fresh : now - clock peer ≤ config.staleAfterSeconds) :
      Current ρ here there config peer now
        (f.refresh (here.snapshot ρ) (fun _ => fetchSnapshot (there.snapshot ρ).jsonify) clock)

section TwoHosts

variable {ρ : Rounding} {d here there : Daemon} {config : FederationConfig} {peer : String}
  {now : ℚ} {f : Federation}

theorem fetchSnapshot_published (h : d.Publishable ρ) :
    fetchSnapshot (d.snapshot ρ).jsonify = .ok (d.snapshot ρ).jsonify := by
  unfold fetchSnapshot
  rw [if_pos h.text]

theorem Daemon.Publishable.accepted (h : d.Publishable ρ) : d.Accepted ρ := by
  obtain ⟨copy, hvalid, hagrees⟩ := validateSnapshot_jsonify h.snapshot
  exact ⟨_, copy, fetchSnapshot_published h, hvalid, hagrees.slotFor⟩

/-- The slots, the own name and the configuration of a host that is current. -/
theorem Current.spec (h : Current ρ here there config peer now f) (hthere : there.Publishable ρ)
    (hpeers : config.peers = [peer]) (hne : here.instanceName ≠ there.instanceName) :
    f.config = config ∧ f.own = some (here.snapshot ρ) ∧ ∀ pool, f.slots pool now =
      [here.snapshot ρ, there.snapshot ρ].filterMap fun s => slotFor s pool config.maxTempC := by
  cases h with
  | @refreshed f history clock fresh =>
    obtain ⟨rfl, hknown⟩ := history.known
    obtain ⟨copy, hvalid, hagrees⟩ := validateSnapshot_jsonify hthere.snapshot
    have honly : ∀ name, name ≠ peer → f.peers.get name = none := fun name hname =>
      hknown name fun hmem => hname (List.mem_singleton.1 (hpeers ▸ hmem))
    generalize hfetched : (fun _ : String => fetchSnapshot (there.snapshot ρ).jsonify) = fetched
    have hfetch : fetched peer = .ok (there.snapshot ρ).jsonify := by
      rw [← hfetched]
      exact fetchSnapshot_published hthere
    have hslots := slots_refresh (here.snapshot ρ) hpeers honly hfetch hvalid hagrees fresh
      (Ne.symm hne)
    have hrefresh := (refresh_peers (here.snapshot ρ) clock hpeers honly hfetch hvalid).1
    exact ⟨by rw [hrefresh], by rw [hrefresh], hslots⟩

/-- The part of `queueInput` before the rescue of old jobs. -/
theorem queueInput_fst (now : ℚ) (pool : String) (hcool : f.isHot = false) {ages : List ℚ}
    (hyoung : ∀ age ∈ ages, age < f.config.rescueAfterSeconds) {s : Snapshot}
    (hown : f.own = some s) :
    (f.queueInput ρ pool ages now).1 = split ρ ages.length (f.slots pool now) s.instanceName := by
  have hrescue : (ages.countP fun age => (f.config.rescueAfterSeconds : ℚ) ≤ age) = 0 :=
    List.countP_eq_zero.2 fun age hage => by
      simpa using hyoung age hage
  unfold Federation.queueInput
  simp only [hcool, hrescue, hown, Nat.max_zero, Bool.false_eq_true, if_false, Option.map_some,
    Option.getD_some]

/-- **Two hosts on one queue** split alike, and take all of it that they have room for. -/
theorem twoHosts_agree {a b : Daemon} (ha : a.Publishable ρ) (hb : b.Publishable ρ)
    (hne : a.instanceName ≠ b.instanceName) {configA configB : FederationConfig}
    {peerA peerB : String} (hpeersA : configA.peers = [peerB]) (hpeersB : configB.peers = [peerA])
    (htemp : configA.maxTempC = configB.maxTempC) {nowA nowB : ℚ} {A B : Federation}
    (hA : Current ρ a b configA peerB nowA A) (hB : Current ρ b a configB peerA nowB B)
    (pool : String) (ages : List ℚ) :
    (A.queueInput ρ pool ages nowA).2 = (B.queueInput ρ pool ages nowB).2 ∧
      (A.isHot = false → B.isHot = false →
        (∀ age ∈ ages, age < configA.rescueAfterSeconds ∧ age < configB.rescueAfterSeconds) →
        (A.queueInput ρ pool ages nowA).1 + (B.queueInput ρ pool ages nowB).1 =
          min ages.length ((A.slots pool nowA).map (·.capacity)).sum) := by
  obtain ⟨hconfigA, hownA, hslotsA⟩ := hA.spec hb hpeersA hne
  obtain ⟨hconfigB, hownB, hslotsB⟩ := hB.spec ha hpeersB (Ne.symm hne)
  have hnames : (a.snapshot ρ).instanceName ≠ (b.snapshot ρ).instanceName := hne
  -- Each host lists its own slot first, which the split does not see.
  have hperm : (A.slots pool nowA).Perm (B.slots pool nowB) := by
    rw [hslotsA, hslotsB, htemp]
    exact (List.Perm.swap _ _ _).filterMap _
  have hnodup : ((A.slots pool nowA).map (·.name)).Nodup := by
    rw [hslotsA]
    exact twoSlots_nodup hnames
  have hsplit := split_perm (ρ := ρ) hnodup hperm ages.length
  refine ⟨hsplit, fun hcoolA hcoolB hyoung => ?_⟩
  have htakeA := queueInput_fst (ρ := ρ) nowA pool hcoolA
    (fun age hage => hconfigA ▸ (hyoung age hage).1) hownA
  have htakeB := queueInput_fst (ρ := ρ) nowB pool hcoolB
    (fun age hage => hconfigB ▸ (hyoung age hage).2) hownB
  rw [htakeA, htakeB, ← hsplit, hslotsA]
  exact twoSlots_sum hnames ages.length

end TwoHosts

/-- **The federation agrees.** Every peer accepts what a daemon publishes and reads the same slots
from it; and two hosts that hold each other's current snapshot split alike and take the queue
between them. -/
theorem federation_agrees (ρ : Rounding) :
    (∀ d : Daemon, d.Publishable ρ → d.Accepted ρ) ∧
    ∀ a b : Daemon, a.Publishable ρ → b.Publishable ρ → a.instanceName ≠ b.instanceName →
      ∀ (configA configB : FederationConfig) (peerA peerB : String),
        configA.peers = [peerB] → configB.peers = [peerA] →
        configA.maxTempC = configB.maxTempC →
      ∀ (nowA nowB : ℚ) (A B : Federation), Current ρ a b configA peerB nowA A →
        Current ρ b a configB peerA nowB B →
      ∀ (pool : String) (ages : List ℚ),
        (A.queueInput ρ pool ages nowA).2 = (B.queueInput ρ pool ages nowB).2 ∧
        (A.isHot = false → B.isHot = false →
          (∀ age ∈ ages, age < configA.rescueAfterSeconds ∧ age < configB.rescueAfterSeconds) →
          (A.queueInput ρ pool ages nowA).1 + (B.queueInput ρ pool ages nowB).1 =
            min ages.length ((A.slots pool nowA).map (·.capacity)).sum) :=
  ⟨fun _ h => h.accepted, fun _ _ ha hb hne _ _ _ _ hpeersA hpeersB htemp _ _ _ _ hA hB pool ages =>
    twoHosts_agree ha hb hne hpeersA hpeersB htemp hA hB pool ages⟩

/-! ### A host and its limits -/

/-- A host with one pool. -/
def hostWith (instanceName : String) (maxRunners : ℤ) : Daemon :=
  let pool : PoolConfig :=
    { name := "ci", pat := "t", owner := "o", repo := "r", «instance» := instanceName,
      maxRunners := maxRunners }
  { pools := [pool]
    effective := ⟨[pool], 10, 0, false, Table.empty, []⟩
    counts := Table.empty.put "ci" ⟨1, 1, maxRunners⟩
    running := ["gh-runner-a-ci-0a1b2c3d"]
    version := "1.0"
    ts := 1
    metrics := ⟨8, 8, 2, 16000, 8000, some 45⟩ }

theorem hostWith_counts {instanceName name : String} {n : ℤ} {counts : PoolCounts}
    (h : (hostWith instanceName n).publishedPools.get name = some counts) :
    name = "ci" ∧ counts = ⟨1, 1, n⟩ := by
  have hrows : (hostWith instanceName n).publishedPools.rows = [("ci", ⟨1, 1, n⟩)] := rfl
  have hmem := Table.get_eq_some_iff.1 h
  rw [hrows, List.mem_singleton] at hmem
  exact Prod.mk.inj hmem

theorem hostWith_publishable {instanceName : String}
    (hvalid : validationErrors (hostWith instanceName 3).pools = .ok [])
    (htext : (jsonText ((hostWith instanceName 3).snapshot .exact).jsonify).length ≤ fetchLimit) :
    (hostWith instanceName 3).Publishable .exact where
  valid := hvalid
  ts := by
    show (0 : ℚ) ≤ 1 ∧ (1 : ℚ) ≤ 10 ^ 11
    norm_num
  cores := by
    show (1 : ℤ) ≤ 8 ∧ (8 : ℤ) ≤ 1024
    decide
  cpuCount := by
    show (1 : ℤ) ≤ 8 ∧ (8 : ℤ) ≤ 1024
    decide
  load1 := by
    show (0 : ℚ) ≤ 2 ∧ (2 : ℚ) ≤ 100000
    norm_num
  memTotalMb := by
    show (0 : ℤ) ≤ 16000 ∧ (16000 : ℤ) ≤ 2 ^ 30
    decide
  memAvailableMb := by
    show (0 : ℤ) ≤ 8000 ∧ (8000 : ℤ) ≤ 2 ^ 30
    decide
  tempC t ht := by
    obtain rfl : (45 : ℚ) = t := Option.some.inj ht
    norm_num
  count := by
    show (1 : ℤ) ≤ 1000
    decide
  names name counts h := by
    rw [(hostWith_counts h).1]
    decide
  counts name counts h := by
    rw [(hostWith_counts h).2]
    exact ⟨by decide, by decide, by decide⟩
  globalFree free h := by
    obtain rfl : (9 : ℤ) = free := Option.some.inj h
    decide
  text := htext

theorem hostWith_a : (hostWith "a" 3).Publishable .exact :=
  hostWith_publishable rfl (by decide +kernel)

theorem hostWith_b : (hostWith "b" 3).Publishable .exact :=
  hostWith_publishable rfl (by decide +kernel)

/-- The federation of one of them after a refresh with the other. -/
def refreshed (here there : String) : Federation :=
  Federation.refresh { config := { peers := [there] } } ((hostWith here 3).snapshot .exact)
    (fun _ => fetchSnapshot ((hostWith there 3).snapshot .exact).jsonify) fun _ => 0

theorem refreshed_current (here there : String) :
    Current .exact (hostWith here 3) (hostWith there 3) { peers := [there] } there 5
      (refreshed here there) :=
  .refreshed .start (fun _ => 0) (by norm_num)

theorem refreshed_cool (here there : String) : (refreshed here there).isHot = false := by
  have hreached : Federation.Reached { peers := [there] } (refreshed here there) :=
    .refresh .start _ _ _
  unfold Federation.isHot
  rw [hreached.known.1]
  rfl

theorem federation_agrees_sample :
    (hostWith "a" 3).Accepted .exact ∧
      ((refreshed "a" "b").queueInput .exact "ci" [5, 7] 5).2 =
        ((refreshed "b" "a").queueInput .exact "ci" [5, 7] 5).2 ∧
      ((refreshed "a" "b").queueInput .exact "ci" [5, 7] 5).1 +
          ((refreshed "b" "a").queueInput .exact "ci" [5, 7] 5).1 =
        min 2 (((refreshed "a" "b").slots "ci" 5).map (·.capacity)).sum := by
  have hagree := (federation_agrees .exact).2 (hostWith "a" 3) (hostWith "b" 3) hostWith_a hostWith_b
    (by decide) { peers := ["b"] } { peers := ["a"] } "a" "b" rfl rfl rfl 5 5 (refreshed "a" "b")
    (refreshed "b" "a") (refreshed_current "a" "b") (refreshed_current "b" "a") "ci" [5, 7]
  refine ⟨(federation_agrees .exact).1 _ hostWith_a, hagree.1,
    hagree.2 (refreshed_cool _ _) (refreshed_cool _ _) ?_⟩
  intro age hage
  fin_cases hage <;> norm_num

/-- A daemon whose configuration has passed its checks, with counts and caps that are no less than
zero, a core and a sensible sensor. -/
structure Daemon.Configured (d : Daemon) : Prop where
  valid : validationErrors d.pools = .ok []
  effective : validationErrors d.effective.pools = .ok []
  maxTotalRunners : 0 ≤ d.effective.maxTotalRunners
  counts : ∀ name counts, d.counts.get name = some counts →
    0 ≤ counts.running ∧ 0 ≤ counts.busy ∧ 0 ≤ counts.maxRunners
  cores : 1 ≤ d.metrics.cores
  tempC : ∀ t, d.metrics.tempC = some t → -50 ≤ t ∧ t ≤ 150

/-- A pool that may start more than `MAX_COUNT` runners makes its host invisible to the peers. -/
theorem not_accepted : ¬ ∀ d : Daemon, d.Configured → d.Accepted .exact := by
  intro h
  have hconfigured : (hostWith "a" 1001).Configured := by
    refine ⟨rfl, rfl, by decide, fun name counts hcounts => ?_, by decide, fun t ht => ?_⟩
    · have hmem := Table.get_eq_some_iff.1 hcounts
      have hrows : (hostWith "a" 1001).counts.rows = [("ci", ⟨1, 1, 1001⟩)] := rfl
      rw [hrows, List.mem_singleton] at hmem
      rw [(Prod.mk.inj hmem).2]
      decide
    · obtain rfl : (45 : ℚ) = t := Option.some.inj ht
      norm_num
  obtain ⟨data, copy, hfetch, hvalid, -⟩ := h _ hconfigured
  have hdata : data = ((hostWith "a" 1001).snapshot .exact).jsonify := by
    unfold fetchSnapshot at hfetch
    split at hfetch <;> cases hfetch
    rfl
  have hrefused : (validateSnapshot ((hostWith "a" 1001).snapshot .exact).jsonify).isOk = false := by
    decide +kernel
  rw [← hdata, hvalid] at hrefused
  cases hrefused

end RunnerSwarm
