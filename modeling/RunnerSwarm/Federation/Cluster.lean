import RunnerSwarm.Federation.Agreement
import RunnerSwarm.Lib.Run
import RunnerSwarm.Server.Auth

/-!
# A cluster of peers

Each host has a peer listener, which answers with the host's own snapshot whoever presents its
token. `refresh` publishes a snapshot and then fetches those of the peers, one after the other: a
request reaches the peer at some moment, its answer arrives at a later one, or never. Meanwhile the
other hosts go on, publish anew or are started again.

`Cluster.step` is one step of one host or of the network, so that a list of actions is an
interleaving. `published` records what each host has published.

* `views_authentic`: whatever a host knows of a peer, that peer has published itself, and the two
  have the same token.
-/

namespace RunnerSwarm

/-! ### The hosts -/

/-- The response of the listener. -/
inductive PeerAnswer
  | unauthorized
  /-- 503: the host has not published yet. -/
  | starting
  | state (document : Json)
  | internalError

/-- `peer_state`, from the `Authorization` header. -/
def peerState (token : String) (own : Option Snapshot) (header : String) : PeerAnswer :=
  let supplied :=
    if startsWith header "Bearer " then String.ofList (header.toList.drop "Bearer ".length) else ""
  if token = "" then .unauthorized
  else
    match compareDigest supplied token with
    | .error _ => .internalError
    | .ok false => .unauthorized
    | .ok true =>
        match own with
        | none => .starting
        | some own => .state own.jsonify

/-- What `fetch_snapshot` makes of an answer. `urlopen` raises for another status than 200, and
`refresh` catches whatever is raised. -/
def PeerAnswer.fetched : PeerAnswer → Except PyError Json
  | .state document => fetchSnapshot document
  | _ => .error .runtimeError

/-- A host, with the refresh it is in. -/
structure PeerHost where
  token : String
  federation : Federation
  /-- The peers it has still to fetch. -/
  left : List String := []
  /-- An answer on its way to it. -/
  answer : Option PeerAnswer := none

namespace PeerHost

variable (h : PeerHost)

/-- `refresh` begins: the own snapshot is published. -/
def begins (own : Snapshot) : PeerHost :=
  { h with federation := { h.federation with own := some own }, left := h.federation.config.peers }

/-- The answer of a peer arrives. -/
def accepts (peer : String) (rest : List String) (answer : PeerAnswer) (now : ℚ) : PeerHost :=
  { h with
    federation := Federation.fetchPeer (fun _ => answer.fetched) (fun _ => now) h.federation peer
    left := rest
    answer := none }

/-- The fetch of a peer raises: it is refused, it takes too long, its answer is lost. -/
def givesUp (peer : String) (rest : List String) : PeerHost :=
  { h with
    federation :=
      Federation.fetchPeer (fun _ => .error .runtimeError) (fun _ => 0) h.federation peer
    left := rest
    answer := none }

/-- The orchestrator is started again. -/
def restarted : PeerHost where
  token := h.token
  federation := { config := h.federation.config }

end PeerHost

/-- It fetches and knows the peers of its configuration only. -/
structure PeerHost.KnowsPeers (h : PeerHost) : Prop where
  left : h.left ⊆ h.federation.config.peers
  views : ∀ peer view, h.federation.peers.get peer = some view → peer ∈ h.federation.config.peers

/-! ### What a host is told -/

/-- The listener shows the own snapshot to whoever presents its token. -/
theorem peerState_state {token supplied : String} {own : Option Snapshot} {document : Json}
    (h : peerState token own ("Bearer " ++ supplied) = .state document) :
    supplied = token ∧ token ≠ "" ∧ ∃ s, own = some s ∧ document = s.jsonify := by
  unfold peerState at h
  have hdrop : String.ofList (("Bearer " ++ supplied).toList.drop "Bearer ".length) = supplied := by
    rw [String.toList_append, ← String.length_toList, List.drop_left, String.ofList_toList]
  rw [hdrop] at h
  dsimp only at h
  split_ifs at h with htoken hstarts
  · split at h
    next => cases h
    next => cases h
    next hdigest =>
      cases own with
      | none => cases h
      | some own =>
        cases h
        exact ⟨eq_of_compareDigest hdigest, htoken, own, rfl, rfl⟩
  · split at h
    next => cases h
    next => cases h
    next hdigest => exact absurd (eq_of_compareDigest hdigest).symm htoken

/-- A view is an old one, or of the snapshot that was just fetched. -/
theorem fetchPeer_view {fetched : String → Except PyError Json} {clock : String → ℚ}
    {f : Federation} {peer name : String} {view : PeerView} {copy : Snapshot}
    (h : (Federation.fetchPeer fetched clock f peer).peers.get name = some view)
    (hcopy : view.snapshot = some copy) : f.peers.get name = some view ∨
      (name = peer ∧ view.okAt = clock peer ∧
        ∃ data, fetched peer = .ok data ∧ validateSnapshot data = .ok copy) := by
  have herror (hget : (f.peers.upsert peer {} id).get name = some view) :
      f.peers.get name = some view := by
    rw [Table.get_upsert] at hget
    split_ifs at hget with hname
    · subst hname
      cases hold : f.peers.get name with
      | none =>
        rw [hold] at hget
        obtain rfl := Option.some.inj hget
        cases hcopy
      | some old =>
        rw [hold] at hget
        exact hget
    · exact hget
  unfold Federation.fetchPeer at h
  split at h
  next => exact .inl (herror h)
  next data hfetched =>
    split at h
    next => exact .inl (herror h)
    next snapshot hvalid =>
      rw [Table.get_put] at h
      split_ifs at h with hname
      · obtain rfl := Option.some.inj h
        obtain rfl := Option.some.inj hcopy
        exact .inr ⟨hname, rfl, data, hfetched, hvalid⟩
      · exact .inl h

theorem PeerAnswer.fetched_ok {answer : PeerAnswer} {data : Json} (h : answer.fetched = .ok data) :
    answer = .state data ∧ fetchSnapshot data = .ok data := by
  cases answer with
  | state document =>
    have hfetch : fetchSnapshot document = .ok data := h
    have hsame : document = data := by
      unfold fetchSnapshot at hfetch
      split_ifs at hfetch
      exact Except.ok.inj hfetch
    subst hsame
    exact ⟨rfl, hfetch⟩
  | _ => cases h

/-- A host that has just been started knows nobody. -/
theorem PeerHost.knowsPeers_of_started {h : PeerHost} (hleft : h.left = [])
    (hpeers : h.federation.peers = Table.empty) : h.KnowsPeers where
  left := hleft ▸ List.nil_subset _
  views peer view hget := by
    rw [hpeers, Table.get_empty] at hget
    cases hget

/-- The peer that is fetched is one of the configuration. -/
theorem PeerHost.KnowsPeers.fetched {h : PeerHost} (hknown : h.KnowsPeers) {peer : String}
    {rest : List String} (hleft : h.left = peer :: rest) {fetched : String → Except PyError Json}
    {clock : String → ℚ} {answer : Option PeerAnswer} : PeerHost.KnowsPeers
      { h with federation := Federation.fetchPeer fetched clock h.federation peer, left := rest,
               answer := answer } where
  left := by
    dsimp only
    rw [fetchPeer_config]
    exact fun name hname => hknown.left (hleft ▸ List.mem_cons_of_mem _ hname)
  views name view hget := by
    dsimp only at hget ⊢
    rw [fetchPeer_config]
    by_cases hname : name = peer
    · exact hknown.left (hleft ▸ hname ▸ List.mem_cons_self)
    · rw [fetchPeer_other hname] at hget
      exact hknown.views name view hget

/-! ### The cluster -/

structure Cluster (ι : Type*) where
  /-- Who listens at the address that a host has for a peer. -/
  address : ι → String → ι
  hosts : ι → PeerHost
  clock : ℚ := 0
  published : ι → List Snapshot := fun _ => []

inductive ClusterAction (ι : Type*)
  | refresh (i : ι) (own : Snapshot)
  /-- The request of a host reaches the peer, which answers it. -/
  | answers (i : ι)
  | receives (i : ι)
  | fails (i : ι)
  | restarts (i : ι)
  | passes (seconds : ℚ)

namespace Cluster

variable {ι : Type*} [DecidableEq ι]

/-- One host changes. -/
def put (s : Cluster ι) (i : ι) (h : PeerHost) : Cluster ι :=
  { s with hosts := Function.update s.hosts i h }

def step (s : Cluster ι) : ClusterAction ι → Option (Cluster ι)
  | .refresh i own =>
      if (s.hosts i).left = [] then
        some { s.put i ((s.hosts i).begins own) with
          published := Function.update s.published i (s.published i ++ [own]) }
      else none
  | .answers i =>
      match (s.hosts i).left, (s.hosts i).answer with
      | peer :: _, none =>
          let there := s.hosts (s.address i peer)
          let answer := peerState there.token there.federation.own ("Bearer " ++ (s.hosts i).token)
          some (s.put i { s.hosts i with answer := some answer })
      | _, _ => none
  | .receives i =>
      match (s.hosts i).left, (s.hosts i).answer with
      | peer :: rest, some answer => some (s.put i ((s.hosts i).accepts peer rest answer s.clock))
      | _, _ => none
  | .fails i =>
      match (s.hosts i).left with
      | peer :: rest => some (s.put i ((s.hosts i).givesUp peer rest))
      | [] => none
  | .restarts i => some (s.put i (s.hosts i).restarted)
  | .passes seconds =>
      if 0 ≤ seconds then some { s with clock := s.clock + seconds } else none

/-- Every host is about to begin. -/
def init (address : ι → String → ι) (token : ι → String) (config : ι → FederationConfig) :
    Cluster ι where
  address := address
  hosts i := { token := token i, federation := { config := config i } }

/-- What a step can be. -/
inductive ClusterStep (s : Cluster ι) : ClusterAction ι → Cluster ι → Prop
  | refresh {i : ι} {own : Snapshot} (hidle : (s.hosts i).left = []) :
      ClusterStep s (.refresh i own) { s.put i ((s.hosts i).begins own) with
        published := Function.update s.published i (s.published i ++ [own]) }
  | answers {i : ι} {peer : String} {rest : List String} (hleft : (s.hosts i).left = peer :: rest)
      (hwaits : (s.hosts i).answer = none) :
      ClusterStep s (.answers i) (s.put i { s.hosts i with
        answer := some (peerState (s.hosts (s.address i peer)).token
          (s.hosts (s.address i peer)).federation.own ("Bearer " ++ (s.hosts i).token)) })
  | receives {i : ι} {peer : String} {rest : List String} {answer : PeerAnswer}
      (hleft : (s.hosts i).left = peer :: rest) (hanswer : (s.hosts i).answer = some answer) :
      ClusterStep s (.receives i) (s.put i ((s.hosts i).accepts peer rest answer s.clock))
  | fails {i : ι} {peer : String} {rest : List String} (hleft : (s.hosts i).left = peer :: rest) :
      ClusterStep s (.fails i) (s.put i ((s.hosts i).givesUp peer rest))
  | restarts {i : ι} : ClusterStep s (.restarts i) (s.put i (s.hosts i).restarted)
  | passes {seconds : ℚ} (hseconds : 0 ≤ seconds) :
      ClusterStep s (.passes seconds) { s with clock := s.clock + seconds }

theorem step_cases {s t : Cluster ι} {a : ClusterAction ι} (h : s.step a = some t) :
    ClusterStep s a t := by
  cases a with
  | refresh i own =>
    unfold step at h
    dsimp only at h
    split_ifs at h with hidle
    obtain rfl := Option.some.inj h
    exact .refresh hidle
  | answers i =>
    unfold step at h
    dsimp only at h
    split at h
    next peer rest hleft hwaits =>
      obtain rfl := Option.some.inj h
      exact .answers hleft hwaits
    next => cases h
  | receives i =>
    unfold step at h
    dsimp only at h
    split at h
    next peer rest answer hleft hanswer =>
      obtain rfl := Option.some.inj h
      exact .receives hleft hanswer
    next => cases h
  | fails i =>
    unfold step at h
    dsimp only at h
    split at h
    next peer rest hleft =>
      obtain rfl := Option.some.inj h
      exact .fails hleft
    next => cases h
  | restarts i =>
    obtain rfl := Option.some.inj h
    exact .restarts
  | passes seconds =>
    unfold step at h
    dsimp only at h
    split_ifs at h with hseconds
    obtain rfl := Option.some.inj h
    exact .passes hseconds

/-! ### What a host knows -/

/-- What a step leaves alone. -/
structure StepFrame (s t : Cluster ι) : Prop where
  address : t.address = s.address
  token : ∀ i, (t.hosts i).token = (s.hosts i).token
  config : ∀ i, (t.hosts i).federation.config = (s.hosts i).federation.config
  published : ∀ i, s.published i ⊆ t.published i
  clock : s.clock ≤ t.clock

theorem put_hosts_self (s : Cluster ι) (i : ι) (h : PeerHost) : (s.put i h).hosts i = h := by
  unfold put
  exact Function.update_self i h s.hosts

theorem put_hosts_of_ne (s : Cluster ι) {i j : ι} (hne : j ≠ i) (h : PeerHost) :
    (s.put i h).hosts j = s.hosts j := by
  unfold put
  exact Function.update_of_ne hne h s.hosts

theorem put_frame (s : Cluster ι) {i : ι} {h : PeerHost} (htoken : h.token = (s.hosts i).token)
    (hconfig : h.federation.config = (s.hosts i).federation.config) : StepFrame s (s.put i h) where
  address := rfl
  token j := by
    by_cases hji : j = i
    · subst hji
      rw [put_hosts_self, htoken]
    · rw [put_hosts_of_ne s hji]
  config j := by
    by_cases hji : j = i
    · subst hji
      rw [put_hosts_self, hconfig]
    · rw [put_hosts_of_ne s hji]
  published _ := List.Subset.refl _
  clock := le_rfl

theorem step_frame {s t : Cluster ι} {a : ClusterAction ι} (h : s.step a = some t) :
    StepFrame s t := by
  cases step_cases h with
  | @refresh i own hidle =>
    have hbegun := put_frame s (i := i) (h := (s.hosts i).begins own) rfl rfl
    refine ⟨hbegun.address, hbegun.token, hbegun.config, fun j => ?_, le_rfl⟩
    by_cases hji : j = i
    · subst hji
      show s.published j ⊆ Function.update s.published j _ j
      rw [Function.update_self]
      exact List.subset_append_left _ _
    · show s.published j ⊆ Function.update s.published i _ j
      rw [Function.update_of_ne hji]
      exact List.Subset.refl _
  | answers hleft hwaits => exact put_frame s rfl rfl
  | receives hleft hanswer => exact put_frame s rfl (fetchPeer_config _ _)
  | fails hleft => exact put_frame s rfl (fetchPeer_config _ _)
  | restarts => exact put_frame s rfl rfl
  | passes hseconds =>
    exact ⟨rfl, fun _ => rfl, fun _ => rfl, fun _ => List.Subset.refl _, by
      show s.clock ≤ s.clock + _
      linarith⟩

/-- The document comes from whom the host has the address of, and they have the same token. -/
structure Vouches (s : Cluster ι) (i : ι) (peer : String) (document : Json) : Prop where
  token : (s.hosts (s.address i peer)).token = (s.hosts i).token
  token_ne : (s.hosts i).token ≠ ""
  published : ∃ own ∈ s.published (s.address i peer), document = own.jsonify

omit [DecidableEq ι] in
theorem Vouches.mono {s t : Cluster ι} {i : ι} {peer : String} {document : Json}
    (h : s.Vouches i peer document) (hframe : StepFrame s t) : t.Vouches i peer document where
  token := by rw [hframe.token, hframe.token, hframe.address, h.token]
  token_ne := by rw [hframe.token]; exact h.token_ne
  published := by
    obtain ⟨own, hown, hdocument⟩ := h.published
    rw [hframe.address]
    exact ⟨own, hframe.published _ hown, hdocument⟩

/-- What a host knows of its peers, they have published. -/
structure Authentic (s : Cluster ι) : Prop where
  idle : ∀ i, (s.hosts i).left = [] → (s.hosts i).answer = none
  known : ∀ i, (s.hosts i).KnowsPeers
  own : ∀ i own, (s.hosts i).federation.own = some own → own ∈ s.published i
  answers : ∀ i peer rest document, (s.hosts i).left = peer :: rest →
    (s.hosts i).answer = some (.state document) → s.Vouches i peer document
  views : ∀ i peer view copy, (s.hosts i).federation.peers.get peer = some view →
    view.snapshot = some copy → view.okAt ≤ s.clock ∧
      ∃ document, s.Vouches i peer document ∧ fetchSnapshot document = .ok document ∧
        validateSnapshot document = .ok copy

/-- The host `i` changes, and the others stay. -/
theorem Authentic.put {s : Cluster ι} (h : Authentic s) {i : ι} {host : PeerHost}
    (htoken : host.token = (s.hosts i).token)
    (hconfig : host.federation.config = (s.hosts i).federation.config)
    (hidle : host.left = [] → host.answer = none) (hknown : host.KnowsPeers)
    (hown : ∀ own, host.federation.own = some own → own ∈ s.published i)
    (hanswers : ∀ peer rest document, host.left = peer :: rest →
      host.answer = some (.state document) → s.Vouches i peer document)
    (hviews : ∀ peer view copy, host.federation.peers.get peer = some view →
      view.snapshot = some copy → view.okAt ≤ s.clock ∧
        ∃ document, s.Vouches i peer document ∧ fetchSnapshot document = .ok document ∧
          validateSnapshot document = .ok copy) : Authentic (s.put i host) := by
  have hframe := put_frame s htoken hconfig
  refine ⟨fun j hj => ?_, fun j => ?_, fun j own hj => ?_,
    fun j peer rest document hleft hj => ?_, fun j peer view copy hget hj => ?_⟩
  · by_cases hji : j = i
    · subst hji
      rw [put_hosts_self] at hj ⊢
      exact hidle hj
    · rw [put_hosts_of_ne s hji] at hj ⊢
      exact h.idle j hj
  · by_cases hji : j = i
    · subst hji
      rw [put_hosts_self]
      exact hknown
    · rw [put_hosts_of_ne s hji]
      exact h.known j
  · by_cases hji : j = i
    · subst hji
      rw [put_hosts_self] at hj
      exact hown own hj
    · rw [put_hosts_of_ne s hji] at hj
      exact h.own j own hj
  · by_cases hji : j = i
    · subst hji
      rw [put_hosts_self] at hleft hj
      exact (hanswers peer rest document hleft hj).mono hframe
    · rw [put_hosts_of_ne s hji] at hleft hj
      exact (h.answers j peer rest document hleft hj).mono hframe
  · have hold : view.okAt ≤ s.clock ∧ ∃ document, s.Vouches j peer document ∧
        fetchSnapshot document = .ok document ∧ validateSnapshot document = .ok copy := by
      by_cases hji : j = i
      · subst hji
        rw [put_hosts_self] at hget
        exact hviews peer view copy hget hj
      · rw [put_hosts_of_ne s hji] at hget
        exact h.views j peer view copy hget hj
    obtain ⟨hokAt, document, hvouches, hrest⟩ := hold
    exact ⟨hokAt, document, hvouches.mono hframe, hrest⟩

omit [DecidableEq ι] in
/-- A view after a fetch is an old one or the one that was fetched. -/
theorem Authentic.fetched {s : Cluster ι} (h : Authentic s) {i : ι} {peer : String}
    {fetched : String → Except PyError Json} {clock : String → ℚ} (hclock : clock peer ≤ s.clock)
    (hvouches : ∀ data, fetched peer = .ok data →
      s.Vouches i peer data ∧ fetchSnapshot data = .ok data) {name : String} {view : PeerView}
    {copy : Snapshot}
    (hget : (Federation.fetchPeer fetched clock (s.hosts i).federation peer).peers.get name =
      some view) (hcopy : view.snapshot = some copy) : view.okAt ≤ s.clock ∧
        ∃ document, s.Vouches i name document ∧ fetchSnapshot document = .ok document ∧
          validateSnapshot document = .ok copy := by
  rcases fetchPeer_view hget hcopy with hold | ⟨rfl, hokAt, data, hdata, hvalid⟩
  · exact h.views i name view copy hold hcopy
  · obtain ⟨hfrom, hfetch⟩ := hvouches data hdata
    exact ⟨hokAt ▸ hclock, data, hfrom, hfetch, hvalid⟩

omit [DecidableEq ι] in
/-- More is published, or time passes. -/
theorem Authentic.mono {s t : Cluster ι} (h : Authentic s) (hframe : StepFrame s t)
    (hhosts : t.hosts = s.hosts) : Authentic t := by
  refine ⟨fun i => hhosts ▸ h.idle i, hhosts ▸ h.known, fun i own hown => ?_,
    fun i peer rest document hleft hi => ?_, fun i peer view copy hget hcopy => ?_⟩
  · exact hframe.published i (h.own i own (hhosts ▸ hown))
  · exact (h.answers i peer rest document (hhosts ▸ hleft) (hhosts ▸ hi)).mono hframe
  · obtain ⟨hokAt, document, hvouches, hrest⟩ := h.views i peer view copy (hhosts ▸ hget) hcopy
    exact ⟨hokAt.trans hframe.clock, document, hvouches.mono hframe, hrest⟩

/-- **Every step keeps it.** -/
theorem Authentic.step {s t : Cluster ι} (h : Authentic s) {a : ClusterAction ι}
    (hstep : s.step a = some t) : Authentic t := by
  have hframe := step_frame hstep
  cases step_cases hstep with
  | @refresh i own hidle =>
    let u : Cluster ι :=
      { s with published := Function.update s.published i (s.published i ++ [own]) }
    have hpublished : u.published i = s.published i ++ [own] := Function.update_self _ _ _
    have hu : Authentic u :=
      h.mono ⟨rfl, fun _ => rfl, fun _ => rfl, hframe.published, le_rfl⟩ rfl
    show Authentic (u.put i ((s.hosts i).begins own))
    refine hu.put rfl rfl (fun _ => h.idle i hidle) ⟨List.Subset.refl _, (h.known i).views⟩
      (fun own' hown' => ?_) (fun peer rest document _ hanswer => ?_) (hu.views i)
    · obtain rfl := Option.some.inj hown'
      rw [hpublished]
      exact List.mem_append_right _ List.mem_cons_self
    · -- nothing is on its way to a host that has just begun
      have hnone : (s.hosts i).answer = some (.state document) := hanswer
      rw [h.idle i hidle] at hnone
      cases hnone
  | @answers i peer rest hleft hwaits =>
    refine h.put rfl rfl (fun hnil => ?_) ⟨(h.known i).left, (h.known i).views⟩ (h.own i)
      (fun peer' rest' document hleft' hanswer => ?_) (h.views i)
    · rw [hleft] at hnil
      cases hnil
    · rw [hleft] at hleft'
      cases hleft'
      obtain ⟨htoken, hne, own, hown, hdocument⟩ := peerState_state (Option.some.inj hanswer)
      exact ⟨htoken.symm, htoken ▸ hne, own, h.own _ own hown, hdocument⟩
  | @receives i peer rest answer hleft hanswer =>
    refine h.put rfl (fetchPeer_config _ _) (fun _ => rfl) ((h.known i).fetched hleft)
      (fun own hown => ?_)
      (fun peer rest document _ hnone => ?_) (fun name view copy hget hcopy => ?_)
    · exact h.own i own ((fetchPeer_own _ _).symm.trans hown)
    · cases hnone
    · refine h.fetched (le_refl s.clock) (fun data hdata => ?_) hget hcopy
      obtain ⟨rfl, hfetch⟩ := PeerAnswer.fetched_ok hdata
      exact ⟨h.answers i peer rest data hleft hanswer, hfetch⟩
  | @fails i peer rest hleft =>
    refine h.put rfl (fetchPeer_config _ _) (fun _ => rfl) ((h.known i).fetched hleft)
      (fun own hown => ?_)
      (fun peer rest document _ hnone => ?_) (fun name view copy hget hcopy => ?_)
    · exact h.own i own ((fetchPeer_own _ _).symm.trans hown)
    · cases hnone
    · rcases fetchPeer_view hget hcopy with hold | ⟨-, -, data, hdata, -⟩
      · exact h.views i name view copy hold hcopy
      · cases hdata
  | restarts =>
    refine h.put rfl rfl (fun _ => rfl) (PeerHost.knowsPeers_of_started rfl rfl)
      (fun own hown => ?_) (fun peer rest document _ hnone => ?_)
      (fun name view copy hget _ => ?_)
    · cases hown
    · cases hnone
    · cases hget
  | passes hseconds => exact h.mono hframe rfl

omit [DecidableEq ι] in
theorem authentic_init (address : ι → String → ι) (token : ι → String)
    (config : ι → FederationConfig) : Authentic (init address token config) where
  idle _ _ := rfl
  known _ := PeerHost.knowsPeers_of_started rfl rfl
  own i own h := by
    have hnone : (none : Option Snapshot) = some own := h
    cases hnone
  answers i peer rest document hleft _ := by
    have hnil : ([] : List String) = peer :: rest := hleft
    cases hnil
  views i peer view copy hget _ := by
    have hnone : (none : Option PeerView) = some view := hget
    cases hnone

/-- A run has the addresses, tokens and configurations it was started with. -/
theorem run_settings {s t : Cluster ι} {l : List (ClusterAction ι)} (h : run step s l = some t) :
    StepFrame s t := by
  have hany : Along step (fun _ _ => True) s l := along_of_forall (fun _ _ => trivial) s l
  refine run_invariant (I := StepFrame s) (fun u _ v hu _ hstep => ?_) ?_ hany h
  · have hv := step_frame hstep
    exact ⟨hv.address.trans hu.address, fun i => (hv.token i).trans (hu.token i),
      fun i => (hv.config i).trans (hu.config i),
      fun i => List.Subset.trans (hu.published i) (hv.published i), hu.clock.trans hv.clock⟩
  · exact ⟨rfl, fun _ => rfl, fun _ => rfl, fun _ => List.Subset.refl _, le_rfl⟩

/-- A fresh snapshot is in a view that is not stale. -/
theorem mem_freshPeers {f : Federation} {now : ℚ} {copy : Snapshot} (h : copy ∈ f.freshPeers now) :
    ∃ peer view, f.peers.get peer = some view ∧ view.snapshot = some copy ∧
      now - view.okAt ≤ f.config.staleAfterSeconds := by
  obtain ⟨⟨peer, view⟩, hrow, hview⟩ := List.mem_filterMap.1 h
  dsimp only at hview
  split at hview
  next => cases hview
  next snapshot hsnapshot =>
    split_ifs at hview with hfresh
    obtain rfl := Option.some.inj hview
    exact ⟨peer, view, Table.get_eq_some_iff.2 hrow, hsnapshot, hfresh.1⟩

/-- What a host splits its queues with: each fresh snapshot is the copy of one that a configured
peer with the same token has published, and has its standing when the peer keeps the limits. -/
def FromPeers (s : Cluster ι) (i : ι) (copy : Snapshot) : Prop :=
  ∃ peer ∈ (s.hosts i).federation.config.peers,
    (s.hosts (s.address i peer)).token = (s.hosts i).token ∧ (s.hosts i).token ≠ "" ∧
      ∃ own ∈ s.published (s.address i peer), validateSnapshot own.jsonify = .ok copy ∧
        (own.WithinLimits → copy.Agrees own)

/-- **Nothing but what peers have published** comes into the split of a host, in any interleaving
with requests, answers, failures and restarts. -/
theorem views_authentic (address : ι → String → ι) (token : ι → String)
    (config : ι → FederationConfig) {s : Cluster ι} {l : List (ClusterAction ι)}
    (h : run step (init address token config) l = some s) (i : ι) (now : ℚ) :
    ∀ copy ∈ (s.hosts i).federation.freshPeers now, FromPeers s i copy := by
  have hany : Along step (fun _ _ => True) (init address token config) l :=
    along_of_forall (fun _ _ => trivial) _ l
  have hauthentic : Authentic s :=
    run_invariant (fun _ _ _ hu _ hstep => hu.step hstep) (authentic_init _ _ _) hany h
  intro copy hcopy
  obtain ⟨peer, view, hget, hsnapshot, -⟩ := mem_freshPeers hcopy
  obtain ⟨-, document, ⟨htoken, hne, own, hown, rfl⟩, -, hvalid⟩ :=
    hauthentic.views i peer view copy hget hsnapshot
  refine ⟨peer, (hauthentic.known i).views peer view hget, htoken, hne, own, hown, hvalid,
    fun hlimits => ?_⟩
  obtain ⟨copy', hvalid', hagrees⟩ := validateSnapshot_jsonify hlimits
  obtain rfl := Except.ok.inj (hvalid'.symm.trans hvalid)
  exact hagrees

/-- Two hosts that have each other as their peer. -/
def twoHosts : Cluster Bool :=
  init (fun i _ => !i) (fun _ => "s3cret") fun i => { peers := [if i then "a" else "b"] }

/-- Both publish, and the first one hears of the other. -/
def firstHears : List (ClusterAction Bool) :=
  [.refresh true ((hostWith "b" 3).snapshot .exact),
    .refresh false ((hostWith "a" 3).snapshot .exact), .answers false, .passes 1, .receives false]

/-- The first one then knows the snapshot of the other. -/
theorem views_authentic_firstHears : ∃ s, run step twoHosts firstHears = some s ∧
    (s.hosts false).federation.freshPeers 5 ≠ [] ∧
      ∀ copy ∈ (s.hosts false).federation.freshPeers 5, FromPeers s false copy := by
  obtain ⟨s, h, hfederation⟩ : ∃ s, run step twoHosts firstHears = some s ∧
      (s.hosts false).federation = Federation.refresh { config := { peers := ["b"] } }
        ((hostWith "a" 3).snapshot .exact)
        (fun _ => fetchSnapshot ((hostWith "b" 3).snapshot .exact).jsonify) fun _ => 0 + 1 :=
    ⟨_, rfl, rfl⟩
  refine ⟨s, h, fun hnil => ?_, views_authentic _ _ _ h false 5⟩
  have hcurrent : Current .exact (hostWith "a" 3) (hostWith "b" 3) { peers := ["b"] } "b" 5
      (s.hosts false).federation := hfederation ▸ .refreshed .start _ (by norm_num)
  obtain ⟨hconfig, hown, hslots⟩ := hcurrent.spec hostWith_b rfl (by decide)
  have htwo := congrArg List.length (hslots "ci")
  unfold Federation.slots at htwo
  rw [hown, hnil, hconfig] at htwo
  exact absurd htwo (by decide)

end Cluster

end RunnerSwarm
