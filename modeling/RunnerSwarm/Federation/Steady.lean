import RunnerSwarm.Federation.Cluster

/-!
# A steady cluster

While no host's standing for a pool changes, stale knowledge dies out: a view that came before is
stale after `stale_after_seconds`, and what came later has the standing that its peer still has. So
whatever was lost or late, hosts that see each other, and nobody else, split alike.

* `Standings` is what the hosts show; `Steady.step` keeps that every later view agrees with it;
* `slots_perm`: a host splits over the slots of those it sees;
* `cluster_shares`: hosts that see each other take the queue between them, as far as there is room;
  a host that has stopped is left out as soon as it is no longer seen.
-/

namespace RunnerSwarm

namespace Cluster

variable {ι : Type*} [DecidableEq ι]

/-! ### Standings -/

/-- What the hosts show about a pool. Each has a name of its own. -/
structure Standings (ι : Type*) where
  pool : String
  maxTempC : PyFloat
  name : ι → String
  slot : ι → Option Slot
  distinct : Function.Injective name
  named : ∀ i s, slot i = some s → s.name = name i

/-- A snapshot shows it of a host. -/
structure Standings.Shown (σ : Standings ι) (i : ι) (own : Snapshot) : Prop where
  limits : own.WithinLimits
  name : own.instanceName = σ.name i
  slot : slotFor own σ.pool σ.maxTempC = σ.slot i

/-- What a host publishes shows it. -/
def Publishes (σ : Standings ι) (_ : Cluster ι) (a : ClusterAction ι) : Prop :=
  ∀ i own, a = .refresh i own → σ.Shown i own

/-- What the hosts have published last shows it, and so does what is on its way. -/
structure ShowsNow (σ : Standings ι) (s : Cluster ι) : Prop where
  own : ∀ i own, (s.hosts i).federation.own = some own → σ.Shown i own
  answers : ∀ i peer rest document, (s.hosts i).left = peer :: rest →
    (s.hosts i).answer = some (.state document) →
      ∃ own, σ.Shown (s.address i peer) own ∧ document = own.jsonify

/-- And so does every view that has come later than `since`. -/
structure Steady (σ : Standings ι) (since : ℚ) (s : Cluster ι) : Prop extends ShowsNow σ s where
  views : ∀ i peer view copy, (s.hosts i).federation.peers.get peer = some view →
    view.snapshot = some copy → since < view.okAt →
      copy.instanceName = σ.name (s.address i peer) ∧
        slotFor copy σ.pool σ.maxTempC = σ.slot (s.address i peer)

variable {σ : Standings ι} {since : ℚ} {s t : Cluster ι}

omit [DecidableEq ι] in
/-- When it begins, no view has come later. -/
theorem Authentic.steady (h : Authentic s) (hshows : ShowsNow σ s) : Steady σ s.clock s :=
  { hshows with
    views := fun i peer view copy hget hcopy hlater =>
      absurd (h.views i peer view copy hget hcopy).1 (not_le.2 hlater) }

/-- The host `i` changes, and the others stay. -/
theorem Steady.put (h : Steady σ since s) {i : ι} {host : PeerHost}
    (hown : ∀ own, host.federation.own = some own → σ.Shown i own)
    (hanswers : ∀ peer rest document, host.left = peer :: rest →
      host.answer = some (.state document) →
        ∃ own, σ.Shown (s.address i peer) own ∧ document = own.jsonify)
    (hviews : ∀ peer view copy, host.federation.peers.get peer = some view →
      view.snapshot = some copy → since < view.okAt →
        copy.instanceName = σ.name (s.address i peer) ∧
          slotFor copy σ.pool σ.maxTempC = σ.slot (s.address i peer)) :
    Steady σ since (s.put i host) := by
  refine ⟨⟨fun j own hj => ?_, fun j peer rest document hleft hj => ?_⟩,
    fun j peer view copy hget hj => ?_⟩
  · by_cases hji : j = i
    · subst hji
      rw [put_hosts_self] at hj
      exact hown own hj
    · rw [put_hosts_of_ne s hji] at hj
      exact h.own j own hj
  · by_cases hji : j = i
    · subst hji
      rw [put_hosts_self] at hleft hj
      exact hanswers peer rest document hleft hj
    · rw [put_hosts_of_ne s hji] at hleft hj
      exact h.answers j peer rest document hleft hj
  · by_cases hji : j = i
    · subst hji
      rw [put_hosts_self] at hget
      exact hviews peer view copy hget hj
    · rw [put_hosts_of_ne s hji] at hget
      exact h.views j peer view copy hget hj

/-- **Every step keeps it** in which only such snapshots are published. -/
theorem Steady.step (h : Steady σ since s) (hauthentic : Authentic s) {a : ClusterAction ι}
    (hpublishes : Publishes σ s a) (hstep : s.step a = some t) : Steady σ since t := by
  cases step_cases hstep with
  | @refresh i own hidle =>
    let u : Cluster ι :=
      { s with published := Function.update s.published i (s.published i ++ [own]) }
    have hu : Steady σ since u := ⟨⟨h.own, h.answers⟩, h.views⟩
    show Steady σ since (u.put i ((s.hosts i).begins own))
    refine hu.put (fun own' hown' => ?_) (fun peer rest document _ hanswer => ?_) (h.views i)
    · obtain rfl := Option.some.inj hown'
      exact hpublishes i own rfl
    · have hnone : (s.hosts i).answer = some (.state document) := hanswer
      rw [hauthentic.idle i hidle] at hnone
      cases hnone
  | @answers i peer rest hleft hwaits =>
    refine h.put (h.own i) (fun peer' rest' document hleft' hanswer => ?_) (h.views i)
    rw [hleft] at hleft'
    cases hleft'
    obtain ⟨-, -, own, hown, hdocument⟩ := peerState_state (Option.some.inj hanswer)
    exact ⟨own, h.own _ own hown, hdocument⟩
  | @receives i peer rest answer hleft hanswer =>
    refine h.put (fun own hown => ?_) (fun _ _ _ _ hnone => ?_)
      (fun name view copy hget hcopy hlater => ?_)
    · exact h.own i own ((fetchPeer_own _ _).symm.trans hown)
    · cases hnone
    · rcases fetchPeer_view hget hcopy with hold | ⟨rfl, -, data, hdata, hvalid⟩
      · exact h.views i name view copy hold hcopy hlater
      · -- the peer has accepted a copy of what shows it
        obtain ⟨rfl, -⟩ := PeerAnswer.fetched_ok hdata
        obtain ⟨own, hshown, rfl⟩ := h.answers i name rest data hleft hanswer
        obtain ⟨copy', hvalid', hagrees⟩ := validateSnapshot_jsonify hshown.limits
        obtain rfl := Except.ok.inj (hvalid'.symm.trans hvalid)
        exact ⟨hagrees.instanceName.trans hshown.name,
          (hagrees.slotFor _ _).trans hshown.slot⟩
  | @fails i peer rest hleft =>
    refine h.put (fun own hown => ?_) (fun _ _ _ _ hnone => ?_)
      (fun name view copy hget hcopy hlater => ?_)
    · exact h.own i own ((fetchPeer_own _ _).symm.trans hown)
    · cases hnone
    · rcases fetchPeer_view hget hcopy with hold | ⟨-, -, data, hdata, -⟩
      · exact h.views i name view copy hold hcopy hlater
      · cases hdata
  | restarts =>
    refine h.put (fun own hown => ?_) (fun _ _ _ _ hnone => ?_)
      (fun name view copy hget _ _ => ?_)
    · cases hown
    · cases hnone
    · cases hget
  | passes hseconds => exact ⟨⟨h.own, h.answers⟩, h.views⟩

/-! ### Slots -/

/-- The host `i` has a fresh view of the host `j`. -/
def Sees (s : Cluster ι) (i j : ι) : Prop :=
  ∃ peer view copy, (s.hosts i).federation.peers.get peer = some view ∧
    view.snapshot = some copy ∧ s.address i peer = j ∧
      s.clock - view.okAt ≤ (s.hosts i).federation.config.staleAfterSeconds

/-- The rows of the hosts that `i` sees, itself left out. -/
def seenRows (s : Cluster ι) (i : ι) : List (String × PeerView) :=
  (s.hosts i).federation.peers.rows.filter fun row =>
    row.2.snapshot.isSome ∧ s.address i row.1 ≠ i ∧
      s.clock - row.2.okAt ≤ (s.hosts i).federation.config.staleAfterSeconds

theorem mem_seenRows {i j : ι} :
    j ∈ (s.seenRows i).map (fun row => s.address i row.1) ↔ j ≠ i ∧ Sees s i j := by
  unfold seenRows Sees
  simp only [List.mem_map, List.mem_filter, Bool.decide_and, Bool.and_eq_true, decide_eq_true_eq]
  constructor
  · rintro ⟨⟨peer, view⟩, ⟨hrow, hsome, hne, hfresh⟩, rfl⟩
    obtain ⟨copy, hcopy⟩ := Option.isSome_iff_exists.1 hsome
    exact ⟨hne, peer, view, copy, Table.get_eq_some_iff.2 hrow, hcopy, rfl, hfresh⟩
  · rintro ⟨hne, peer, view, copy, hget, hcopy, rfl, hfresh⟩
    have hsome : view.snapshot.isSome = true := Option.isSome_iff_exists.2 ⟨copy, hcopy⟩
    exact ⟨(peer, view), ⟨Table.get_eq_some_iff.1 hget, hsome, hne, hfresh⟩, rfl⟩

/-- Each host that is seen is seen once. -/
theorem seenRows_nodup {i : ι} (hknown : (s.hosts i).KnowsPeers)
    (haddress : Set.InjOn (s.address i) {peer | peer ∈ (s.hosts i).federation.config.peers}) :
    ((s.seenRows i).map fun row => s.address i row.1).Nodup := by
  have hrows : (s.hosts i).federation.peers.rows.Nodup :=
    (s.hosts i).federation.peers.keyed.of_map _
  refine (hrows.filter _).map_on fun row hrow row' hrow' hsame => ?_
  have hmem := (List.mem_filter.1 hrow).1
  have hmem' := (List.mem_filter.1 hrow').1
  have hpeer : row.1 = row'.1 := haddress
    (hknown.views row.1 row.2 (Table.get_eq_some_iff.2 hmem))
    (hknown.views row'.1 row'.2 (Table.get_eq_some_iff.2 hmem')) hsame
  exact List.inj_on_of_nodup_map (s.hosts i).federation.peers.keyed hmem hmem' hpeer

/-- The fresh snapshots give the slots of the hosts that are seen. -/
theorem freshSlots (h : Steady σ since s) {i : ι} {own : Snapshot}
    (hown : (s.hosts i).federation.own = some own)
    (hlong : since + (s.hosts i).federation.config.staleAfterSeconds < s.clock) :
    ((s.hosts i).federation.freshPeers s.clock).filterMap
        (fun p => slotFor p σ.pool σ.maxTempC) =
      ((s.seenRows i).map fun row => s.address i row.1).filterMap σ.slot := by
  unfold Federation.freshPeers seenRows
  rw [List.filterMap_filterMap, List.filterMap_map, List.filterMap_filter]
  refine List.filterMap_congr fun row hrow => ?_
  obtain ⟨peer, view⟩ := row
  have hget := Table.get_eq_some_iff.2 hrow
  dsimp only [Function.comp_apply]
  cases hcopy : view.snapshot with
  | none => simp
  | some copy =>
    dsimp only
    generalize hstale : ((s.hosts i).federation.config.staleAfterSeconds : ℚ) = stale at hlong ⊢
    -- a fresh snapshot with the own name is the own one
    have hself (hfresh : s.clock - view.okAt ≤ stale) : some copy.instanceName ≠
        (s.hosts i).federation.own.map (·.instanceName) ↔ s.address i peer ≠ i := by
      have hname := (h.views i peer view copy hget hcopy (by linarith)).1
      rw [hown, Option.map_some, hname, (h.own i own hown).name, Ne, Ne, Option.some.injEq,
        σ.distinct.eq_iff]
    by_cases hseen : s.clock - view.okAt ≤ stale ∧ s.address i peer ≠ i
    · obtain ⟨hfresh, hne⟩ := hseen
      have hleft : s.clock - view.okAt ≤ stale ∧ some copy.instanceName ≠
          (s.hosts i).federation.own.map (·.instanceName) := ⟨hfresh, (hself hfresh).2 hne⟩
      have hright : decide ((some copy).isSome = true ∧ s.address i peer ≠ i ∧
          s.clock - view.okAt ≤ stale) = true := decide_eq_true ⟨rfl, hne, hfresh⟩
      rw [if_pos hleft, if_pos hright, Option.bind_some]
      exact (h.views i peer view copy hget hcopy (by linarith)).2
    · have hleft : ¬ (s.clock - view.okAt ≤ stale ∧ some copy.instanceName ≠
          (s.hosts i).federation.own.map (·.instanceName)) := fun hboth =>
        hseen ⟨hboth.1, (hself hboth.1).1 hboth.2⟩
      have hright : ¬ decide ((some copy).isSome = true ∧ s.address i peer ≠ i ∧
          s.clock - view.okAt ≤ stale) = true := fun hall =>
        hseen ⟨(of_decide_eq_true hall).2.2, (of_decide_eq_true hall).2.1⟩
      rw [if_neg hleft, if_neg hright, Option.bind_none]

/-- **A host splits over the slots of those it sees**, and of its own. -/
theorem slots_perm (h : Steady σ since s) {i : ι} (hknown : (s.hosts i).KnowsPeers)
    (haddress : Set.InjOn (s.address i) {peer | peer ∈ (s.hosts i).federation.config.peers})
    {own : Snapshot} (hown : (s.hosts i).federation.own = some own)
    (hlong : since + (s.hosts i).federation.config.staleAfterSeconds < s.clock)
    (htemp : (s.hosts i).federation.config.maxTempC = σ.maxTempC) {live : Finset ι}
    (hi : i ∈ live) (hsees : ∀ j, j ≠ i → (Sees s i j ↔ j ∈ live)) :
    ((s.hosts i).federation.slots σ.pool s.clock).Perm (live.toList.filterMap σ.slot) := by
  have hseen : ((s.seenRows i).map fun row => s.address i row.1).Perm (live.erase i).toList := by
    refine (List.perm_ext_iff_of_nodup (seenRows_nodup hknown haddress)
      (Finset.nodup_toList _)).2 fun j => ?_
    rw [mem_seenRows, Finset.mem_toList, Finset.mem_erase]
    exact and_congr_right (hsees j)
  have hlive : live.toList.Perm (i :: (live.erase i).toList) := by
    have hinsert := Finset.toList_insert (Finset.notMem_erase i live)
    rwa [Finset.insert_erase hi] at hinsert
  have hslots : (s.hosts i).federation.slots σ.pool s.clock =
      (i :: (s.seenRows i).map fun row => s.address i row.1).filterMap σ.slot := by
    unfold Federation.slots
    rw [hown, htemp, List.filterMap_append, freshSlots h hown hlong, List.filterMap_cons,
      Option.toList_some, List.filterMap_cons, (h.own i own hown).slot, List.filterMap_nil]
    cases σ.slot i <;> rfl
  rw [hslots]
  exact ((List.Perm.cons i hseen).trans hlive.symm).filterMap _

/-! ### Shares -/

namespace Standings

variable (σ : Standings ι)

/-- The slots of some hosts. -/
noncomputable def slotsOf (live : Finset ι) : List Slot := live.toList.filterMap σ.slot

/-- The room of a host. -/
def room (i : ι) : ℕ := ((σ.slot i).map (·.capacity)).getD 0

omit [DecidableEq ι] in
theorem slotsOf_nodup (live : Finset ι) : ((σ.slotsOf live).map (·.name)).Nodup := by
  unfold slotsOf
  rw [List.map_filterMap]
  refine live.nodup_toList.filterMap fun i j name hi hj => ?_
  obtain ⟨s, hs, rfl⟩ := Option.map_eq_some_iff.1 hi
  obtain ⟨s', hs', hname⟩ := Option.map_eq_some_iff.1 hj
  rw [σ.named i s hs, σ.named j s' hs'] at hname
  exact σ.distinct hname.symm

omit [DecidableEq ι] in
/-- What is summed over the slots can be summed over the hosts. -/
theorem sum_slots (hosts : List ι) (share : Slot → ℕ) (taken : ι → ℕ)
    (hsome : ∀ i s, σ.slot i = some s → share s = taken i)
    (hnone : ∀ i ∈ hosts, σ.slot i = none → taken i = 0) :
    ((hosts.filterMap σ.slot).map share).sum = (hosts.map taken).sum := by
  induction hosts with
  | nil => rfl
  | cons i hosts ih =>
    have hrest := ih fun j hj => hnone j (List.mem_cons_of_mem _ hj)
    cases hslot : σ.slot i with
    | none =>
      rw [List.filterMap_cons_none hslot, hrest, List.map_cons, List.sum_cons,
        hnone i List.mem_cons_self hslot, Nat.zero_add]
    | some s =>
      rw [List.filterMap_cons_some hslot, List.map_cons, List.sum_cons, List.map_cons,
        List.sum_cons, hrest, hsome i s hslot]

omit [DecidableEq ι] in
/-- The shares of the hosts add up to the queue, or to all the room there is. -/
theorem shares_sum (ρ : Rounding) (live : Finset ι) (queued : ℕ) :
    ∑ i ∈ live, split ρ queued (σ.slotsOf live) (σ.name i) =
      min queued (∑ i ∈ live, σ.room i) := by
  have hsum := split_sum (ρ := ρ) (σ.slotsOf_nodup live) queued
  have hshares : ((σ.slotsOf live).map fun s => split ρ queued (σ.slotsOf live) s.name).sum =
      ∑ i ∈ live, split ρ queued (σ.slotsOf live) (σ.name i) := by
    rw [← Finset.sum_map_toList]
    refine σ.sum_slots live.toList _ _ (fun i s hs => by rw [σ.named i s hs]) fun i _ hnone => ?_
    refine split_other (fun slot hslot hname => ?_) queued
    obtain ⟨j, -, hj⟩ := List.mem_filterMap.1 hslot
    rw [σ.named j slot hj] at hname
    rw [σ.distinct hname, hnone] at hj
    cases hj
  have hroom : ((σ.slotsOf live).map (·.capacity)).sum = ∑ i ∈ live, σ.room i := by
    rw [← Finset.sum_map_toList]
    refine σ.sum_slots live.toList _ _ (fun i s hs => ?_) fun i _ hnone => ?_
    · unfold room
      rw [hs]
      rfl
    · unfold room
      rw [hnone]
      rfl
  rw [← hshares, hsum, hroom]

end Standings

/-- How the hosts of a group share a queue. -/
structure Share (ρ : Rounding) (σ : Standings ι) (live : Finset ι) (t : Cluster ι) : Prop where
  /-- They compute the same split. -/
  alike : ∀ i ∈ live, ∀ ages, ((t.hosts i).federation.queueInput ρ σ.pool ages t.clock).2 =
    split ρ ages.length (σ.slotsOf live)
  /-- When none is hot and no job is old enough to be rescued, they take all of the queue that they
  have room for, and no job twice. -/
  takesAll : (∀ i ∈ live, (t.hosts i).federation.isHot = false) → ∀ ages : List ℚ,
    (∀ i ∈ live, ∀ age ∈ ages,
      age < (t.hosts i).federation.config.rescueAfterSeconds) →
      ∑ i ∈ live, ((t.hosts i).federation.queueInput ρ σ.pool ages t.clock).1 =
        min ages.length (∑ i ∈ live, σ.room i)

/-- **Hosts that see each other share the queue**, whatever was delayed, lost or restarted: from any
reachable state on in which the standings have become steady, after the longest
`stale_after_seconds`, in each group of hosts that see each other and nobody else. -/
theorem cluster_shares (ρ : Rounding) (address : ι → String → ι) (token : ι → String)
    (config : ι → FederationConfig)
    (haddress : ∀ i, Set.InjOn (address i) {peer | peer ∈ (config i).peers})
    {past later : List (ClusterAction ι)}
    (hpast : run step (init address token config) past = some s) (hshows : ShowsNow σ s)
    (hpublishes : Along step (Publishes σ) s later) (hlater : run step s later = some t)
    {live : Finset ι}
    (hlong : ∀ i ∈ live, s.clock + (config i).staleAfterSeconds < t.clock)
    (htemp : ∀ i ∈ live, (config i).maxTempC = σ.maxTempC)
    (hpublished : ∀ i ∈ live, (t.hosts i).federation.own ≠ none)
    (hsees : ∀ i ∈ live, ∀ j, j ≠ i → (Sees t i j ↔ j ∈ live)) : Share ρ σ live t := by
  have hany : Along step (fun _ _ => True) (init address token config) past :=
    along_of_forall (fun _ _ => trivial) _ _
  have hauthentic : Authentic s :=
    run_invariant (fun _ _ _ hu _ hstep => hu.step hstep) (authentic_init _ _ _) hany hpast
  obtain ⟨hauthenticThen, hsteady⟩ :=
    run_invariant (I := fun u => Authentic u ∧ Steady σ s.clock u)
      (fun _ _ _ hu hok hstep => ⟨hu.1.step hstep, hu.2.step hu.1 hok hstep⟩)
      ⟨hauthentic, hauthentic.steady hshows⟩ hpublishes hlater
  have hconfig (i : ι) : (t.hosts i).federation.config = config i :=
    ((run_settings hlater).config i).trans ((run_settings hpast).config i)
  have hsame : t.address = address :=
    (run_settings hlater).address.trans (run_settings hpast).address
  have hown (i : ι) (hi : i ∈ live) : ∃ own, (t.hosts i).federation.own = some own :=
    Option.ne_none_iff_exists'.1 (hpublished i hi)
  have halike (i : ι) (hi : i ∈ live) (ages : List ℚ) :
      ((t.hosts i).federation.queueInput ρ σ.pool ages t.clock).2 =
        split ρ ages.length (σ.slotsOf live) := by
    obtain ⟨own, howned⟩ := hown i hi
    have hperm := slots_perm hsteady (hauthenticThen.known i)
      (by rw [hsame, hconfig]; exact haddress i) howned (by rw [hconfig]; exact hlong i hi)
      (by rw [hconfig]; exact htemp i hi) hi (hsees i hi)
    exact (split_perm (σ.slotsOf_nodup live) hperm.symm ages.length).symm
  refine ⟨halike, fun hcool ages hyoung => ?_⟩
  rw [← σ.shares_sum ρ live ages.length]
  refine Finset.sum_congr rfl fun i hi => ?_
  obtain ⟨own, howned⟩ := hown i hi
  rw [queueInput_fst t.clock σ.pool (hcool i hi) (hyoung i hi) howned,
    (hsteady.own i own howned).name, ← halike i hi ages]
  rfl

/-! ### Two steady hosts -/

/-- The two hosts that have each other as their peer. -/
def steadyHost (i : Bool) : Daemon := hostWith (if i then "b" else "a") 3

theorem steadyHost_publishable (i : Bool) : (steadyHost i).Publishable .exact := by
  cases i with
  | false => exact hostWith_a
  | true => exact hostWith_b

def steadyStandings : Standings Bool where
  pool := "ci"
  maxTempC := .finite 85
  name i := (steadyHost i).instanceName
  slot i := slotFor ((steadyHost i).snapshot .exact) "ci" (.finite 85)
  distinct := by decide
  named _ _ h := slotFor_name h

/-- Both publish. -/
def bothPublish : List (ClusterAction Bool) :=
  [.refresh false ((steadyHost false).snapshot .exact),
    .refresh true ((steadyHost true).snapshot .exact)]

/-- A minute later they hear of each other. -/
def bothHear : List (ClusterAction Bool) :=
  [.passes 61, .answers false, .answers true, .receives false, .receives true]

theorem steadyHost_shown (i : Bool) : steadyStandings.Shown i ((steadyHost i).snapshot .exact) :=
  ⟨(steadyHost_publishable i).snapshot, rfl, rfl⟩

/-- A refresh of one with the other, a minute after the start. -/
def steadyFederation (i : Bool) : Federation :=
  Federation.refresh { config := { peers := [if i then "a" else "b"] } }
    ((steadyHost i).snapshot .exact)
    (fun _ => fetchSnapshot ((steadyHost !i).snapshot .exact).jsonify) fun _ => 0 + 61

theorem steadyFederation_knows (i : Bool) : (steadyFederation i).own =
    some ((steadyHost i).snapshot .exact) ∧ ∃ copy,
      (steadyFederation i).peers.get (if i then "a" else "b") = some ⟨some copy, 0 + 61⟩ := by
  obtain ⟨copy, hvalid, -⟩ := validateSnapshot_jsonify (steadyHost_publishable !i).snapshot
  have hfetch := fetchSnapshot_published (steadyHost_publishable !i)
  unfold steadyFederation
  generalize hfetched : (fun _ : String =>
    fetchSnapshot ((steadyHost !i).snapshot .exact).jsonify) = fetched
  have hpeer : fetched (if i then "a" else "b") =
      .ok ((steadyHost !i).snapshot .exact).jsonify := by
    rw [← hfetched]
    exact hfetch
  obtain ⟨hrefresh, -⟩ := refresh_peers (f := { config := { peers := [if i then "a" else "b"] } })
    ((steadyHost i).snapshot .exact) (fun _ => 0 + 61) rfl (fun _ _ => rfl) hpeer hvalid
  rw [hrefresh]
  exact ⟨rfl, copy, (Table.get_put _ _ _ _).trans (if_pos rfl)⟩

theorem cluster_shares_bothHear : ∃ t, run step twoHosts (bothPublish ++ bothHear) = some t ∧
    Share .exact steadyStandings Finset.univ t := by
  obtain ⟨s, hs, hstart, hanswer, hown, t, ht, hclock, haddress, hfederation⟩ : ∃ s,
      run step twoHosts bothPublish = some s ∧ s.clock = 0 ∧ (∀ i, (s.hosts i).answer = none) ∧
      (∀ i, (s.hosts i).federation.own = some ((steadyHost i).snapshot .exact)) ∧
      ∃ t, run step s bothHear = some t ∧ t.clock = 0 + 61 ∧ t.address = (fun i _ => !i) ∧
        ∀ i, (t.hosts i).federation = steadyFederation i :=
    ⟨_, rfl, rfl, fun i => by cases i <;> rfl, fun i => by cases i <;> rfl, _, rfl, rfl, rfl,
      fun i => by cases i <;> rfl⟩
  have hshows : ShowsNow steadyStandings s := by
    refine ⟨fun i own howned => ?_, fun i _ _ _ _ hsome => ?_⟩
    · rw [hown i] at howned
      obtain rfl := Option.some.inj howned
      exact steadyHost_shown i
    · rw [hanswer i] at hsome
      cases hsome
  have hpublishes : Along step (Publishes steadyStandings) s bothHear := by
    have hall : ∀ a ∈ bothHear, ∀ i own, a = .refresh i own → steadyStandings.Shown i own := by
      simp [bothHear]
    exact along_of_actions hall s
  have hconfig (i : Bool) : (t.hosts i).federation.config = (twoHosts.hosts i).federation.config :=
    ((run_settings ht).config i).trans ((run_settings hs).config i)
  refine ⟨t, by rw [run_append, hs]; exact ht, cluster_shares .exact (fun i _ => !i)
    (fun _ => "s3cret") (fun i => { peers := [if i then "a" else "b"] }) (fun i => ?_) hs hshows
    hpublishes ht (fun i _ => ?_) (fun i _ => rfl) (fun i _ => ?_) fun i _ j hne => ?_⟩
  · exact Set.Subsingleton.injOn (fun p hp q hq =>
      (List.mem_singleton.1 hp).trans (List.mem_singleton.1 hq).symm) _
  · rw [hstart, hclock]
    norm_num
  · rw [hfederation, (steadyFederation_knows i).1]
    exact Option.some_ne_none _
  · obtain ⟨copy, hget⟩ := (steadyFederation_knows i).2
    refine iff_of_true ⟨_, _, copy, (hfederation i) ▸ hget, rfl, ?_, ?_⟩ (Finset.mem_univ j)
    · rw [haddress]
      exact (Bool.eq_not_of_ne hne).symm
    · rw [hclock, hconfig]
      show (0 + 61 : ℚ) - (0 + 61) ≤ (60 : ℤ)
      norm_num

end Cluster

end RunnerSwarm
