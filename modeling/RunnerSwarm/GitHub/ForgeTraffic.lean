import RunnerSwarm.GitHub.Forges
import RunnerSwarm.GitHub.Provenance

/-!
# Calls to all forges

Every `i : ι` is a call of one of the methods for one pool. `ForgeClients` hands it to the client of
the pool's forge, and each client has requests, a cache and shared scans of its own. The calls
interleave as their threads are scheduled.

A response may be a redirection. `urllib` follows it: it makes another request, at the address the
server names, with the headers of the first one, the token among them. `http` is the list of all
requests that are made.

* `forgeStep` is one step of the whole, made of `requestStep` and `scanStep` for one client, and
  `forgeStep_cases` lists its cases;
* `Contained` says that requests and data stay within the forge of their pool, and
  `contained_run` that they do in every run in which no server redirects elsewhere;
* `noForeignRedirect_of_http`: and in no other run.
-/

namespace RunnerSwarm

/-- A client: that of GitHub, or of a Gitea base URL. -/
inductive ForgeKey
  | github
  | gitea (baseUrl : String)
  deriving DecidableEq

/-- `API_BASE`. -/
def ForgeKey.apiBase : ForgeKey → String
  | github => githubApiBase
  | gitea baseUrl => giteaApiBase baseUrl

/-- `_for`. -/
def PoolConfig.forgeKey (p : PoolConfig) : ForgeKey :=
  if p.isGitea then .gitea p.baseUrl else .github

/-- A call that makes a request. -/
structure ForgeCall where
  pool : PoolConfig
  request : ForgeRequest
  /-- Registration tokens are asked for by `spawn_runner`, and for Gitea pools only. -/
  gitea : request = .registrationToken → pool.isGitea = true

/-- What a server has sent, with the client that asked for it and the address it came from. -/
structure Served (α : Type*) where
  forge : ForgeKey
  url : String
  value : α

/-- The last request of a call: `visited` are the redirections it has followed. -/
structure OnWire where
  url : String
  method : HttpMethod
  visited : List String

/-- A request as a server sees it. -/
structure HttpRequest (ι : Type*) where
  call : ι
  pat : String
  url : String
  deriving DecidableEq

/-- The calls, and what the clients take from their surroundings; `isNone` when the decoded value is
`None`. -/
structure ForgeTraffic (ι δ β γ : Type*) where
  call : ι → ForgeCall
  digest : String → δ
  loads : β → Option γ
  isNone : γ → Bool

/-- All clients, and what is sent. -/
structure Forges (ι δ β γ : Type*) where
  requests : ForgeKey → Requests ι δ (Served β) (Served γ)
  scans : ForgeKey → SharedScans ι (δ × String) (Served γ)
  wire : ι → OnWire
  http : List (HttpRequest ι)

/-- The steps of `_request` that nothing outside takes part in. -/
inductive RequestMove
  | check
  | takeSlot
  | lockMutation
  | paced
  | handle
  deriving DecidableEq

/-- The steps of `_get_shared` but for its request. -/
inductive ScanMove
  | arrive
  | acquire
  | readClock
  | look
  | store

/-- A step of a call, or of the clocks of a client. -/
inductive ForgeAction (ι β : Type*)
  | request (move : RequestMove) (i : ι)
  | send (i : ι)
  | redirect (i : ι) (code : ℕ) (url : String)
  | answer (i : ι) (answer : HttpAnswer β)
  | scan (move : ScanMove) (i : ι)
  | scanFetch (i : ι)
  | setClock (forge : ForgeKey) (time : ℚ)
  | tick (forge : ForgeKey) (time : ℚ)

section Step

variable {ι δ β γ : Type*}

def RequestMove.action (i : ι) : RequestMove → RequestAction ι β
  | check => .check i
  | takeSlot => .takeSlot i
  | lockMutation => .lockMutation i
  | paced => .paced i
  | handle => .handle i

def ScanMove.action (i : ι) : ScanMove → ScanAction ι γ
  | arrive => .arrive i
  | acquire => .acquire i
  | readClock => .readClock i
  | look => .look i
  | store => .store i

/-- The answer of a server to the last request of a call. -/
def HttpAnswer.served (forge : ForgeKey) (url : String) : HttpAnswer β → HttpAnswer (Served β)
  | .ok status headers body => .ok status headers ⟨forge, url, body⟩
  | .httpError code headers text => .httpError code headers text
  | .failed => .failed

/-- `HTTPRedirectHandler` follows a redirection with this status to this address, which is absolute
and has its scheme in lower case (`ftp`, which is asked without headers, is left out). -/
def OnWire.follows (w : OnWire) (code : ℕ) (url : String) : Bool :=
  ((code ∈ [301, 302, 303, 307, 308] && w.method = .get) ||
      (code ∈ [301, 302, 303] && w.method = .post)) &&
    (startsWith url "http://" || startsWith url "https://") &&
    w.visited.count url < 4 && w.visited.dedup.length < 10

namespace ForgeTraffic

variable (x : ForgeTraffic ι δ β γ)

def pool (i : ι) : PoolConfig := (x.call i).pool

/-- The client of a call. -/
def key (i : ι) : ForgeKey := (x.pool i).forgeKey

/-- The call goes through `_get_shared`. -/
def isShared (i : ι) : Bool := (x.call i).request.isShared

/-- The calls of `_request`. -/
def traffic : Traffic ι δ (Served β) (Served γ) where
  call i := ⟨(x.pool i).pat, (x.pool i).sentPath (x.call i).request, (x.call i).request.method⟩
  digest := x.digest
  loads body := (x.loads body.value).map fun data => ⟨body.forge, body.url, data⟩

/-- The calls of `_get_shared`. -/
def scanCalls : ScanCalls ι δ where
  pat i := (x.pool i).pat
  path i := (x.pool i).requestPath (x.call i).request
  digest := x.digest

/-- The request of a call. -/
def request (i : ι) : OnWire :=
  ⟨(x.pool i).requestUrl (x.call i).request, (x.call i).request.method, []⟩

/-- How `_get` ends for `_get_shared`. -/
def fetchResult : Outcome (Served γ) → FetchResult (Served γ)
  | .value data => if x.isNone data.value then .nothing else .data data
  | .raised _ => .raised
  | _ => .nothing

end ForgeTraffic

/-- What a request has returned when its data are fetched. -/
theorem ForgeTraffic.fetchResult_eq_data {x : ForgeTraffic ι δ β γ} {outcome : Outcome (Served γ)}
    {data : Served γ} (h : x.fetchResult outcome = .data data) : outcome = .value data := by
  unfold ForgeTraffic.fetchResult at h
  split at h
  · split_ifs at h
    obtain rfl := FetchResult.data.inj h
    rfl
  · cases h
  · cases h

namespace Forges

variable [DecidableEq ι]

def setRequests (s : Forges ι δ β γ) (forge : ForgeKey)
    (r : Requests ι δ (Served β) (Served γ)) : Forges ι δ β γ :=
  { s with requests := Function.update s.requests forge r }

def setScans (s : Forges ι δ β γ) (forge : ForgeKey)
    (r : SharedScans ι (δ × String) (Served γ)) : Forges ι δ β γ :=
  { s with scans := Function.update s.scans forge r }

/-- A request is made, with the token of the pool. -/
def transmit (x : ForgeTraffic ι δ β γ) (s : Forges ι δ β γ) (i : ι) (w : OnWire) :
    Forges ι δ β γ :=
  { s with
    wire := Function.update s.wire i w
    http := s.http ++ [⟨i, (x.pool i).pat, w.url⟩] }

/-- What a call has returned. -/
def returned (x : ForgeTraffic ι δ β γ) (s : Forges ι δ β γ) (i : ι) : Option (Served γ) :=
  if x.isShared i then
    match (s.scans (x.key i)).phase i with
    | .ended (.data data) => some data
    | _ => none
  else
    match (s.requests (x.key i)).phase i with
    | .ended _ (.value data) => some data
    | _ => none

end Forges

variable [DecidableEq δ]

/-- New clients. -/
def Forges.init (x : ForgeTraffic ι δ β γ) (reserve maxConcurrentRequests : ℤ) (clock : ℚ)
    (content : (pat path : String) → Served β) : Forges ι δ β γ where
  requests _ := Requests.init reserve maxConcurrentRequests clock content
  scans _ := SharedScans.init clock
  wire := x.request
  http := []

variable [DecidableEq ι]

/-- One step of the calls. -/
def forgeStep (x : ForgeTraffic ι δ β γ) (s : Forges ι δ β γ) :
    ForgeAction ι β → Option (Forges ι δ β γ)
  | .request move i =>
      -- `_get_shared` begins its request once it has the lock and found no scan
      if move = .check && x.isShared i && !((s.scans (x.key i)).phase i).isFetching then none
      else
        (requestStep x.traffic (s.requests (x.key i)) (move.action i)).map
          (s.setRequests (x.key i))
  | .send i =>
      (requestStep x.traffic (s.requests (x.key i)) (.send i)).map fun r =>
        (s.setRequests (x.key i) r).transmit x i (x.request i)
  | .redirect i code url =>
      match (s.requests (x.key i)).phase i with
      | .sent _ =>
          if (s.wire i).follows code url then
            -- the new request is a GET with the headers of the old one
            some (s.transmit x i ⟨url, .get, (s.wire i).visited ++ [url]⟩)
          else none
      | _ => none
  | .answer i answer =>
      (requestStep x.traffic (s.requests (x.key i))
        (.answer i (answer.served (x.key i) (s.wire i).url))).map (s.setRequests (x.key i))
  | .scan move i =>
      if x.isShared i then
        (scanStep x.scanCalls (s.scans (x.key i)) (move.action i)).map (s.setScans (x.key i))
      else none
  | .scanFetch i =>
      match (s.requests (x.key i)).phase i with
      | .ended _ outcome =>
          (scanStep x.scanCalls (s.scans (x.key i)) (.fetch i (x.fetchResult outcome))).map
            (s.setScans (x.key i))
      | _ => none
  | .setClock forge time =>
      (requestStep x.traffic (s.requests forge) (.setClock time)).map (s.setRequests forge)
  | .tick forge time =>
      (scanStep x.scanCalls (s.scans forge) (.tick time)).map (s.setScans forge)

/-- The cases of a step. -/
inductive ForgeStep (x : ForgeTraffic ι δ β γ) (s : Forges ι δ β γ) :
    ForgeAction ι β → Forges ι δ β γ → Prop
  /-- A client goes on; it is answered from the address it has asked last. -/
  | client {a forge r} (act : RequestAction ι (Served β))
      (hstep : requestStep x.traffic (s.requests forge) act = some r)
      (hanswer : ∀ i answer, act = .answer i answer →
        x.key i = forge ∧ ∃ sent : HttpAnswer β, answer = sent.served forge (s.wire i).url)
      (hother : ∀ i code url, a ≠ .redirect i code url) :
      ForgeStep x s a (s.setRequests forge r)
  | send {i r} (hstep : requestStep x.traffic (s.requests (x.key i)) (.send i) = some r) :
      ForgeStep x s (.send i) ((s.setRequests (x.key i) r).transmit x i (x.request i))
  | redirect {i code url} (hfollows : (s.wire i).follows code url = true) :
      ForgeStep x s (.redirect i code url)
        (s.transmit x i ⟨url, .get, (s.wire i).visited ++ [url]⟩)
  /-- The shared scans of a client go on, with what its requests have returned. -/
  | scans {a forge r} (act : ScanAction ι (Served γ))
      (hstep : scanStep x.scanCalls (s.scans forge) act = some r)
      (hfetch : ∀ i data, act = .fetch i (.data data) →
        ∃ held, (s.requests forge).phase i = .ended held (.value data))
      (hother : ∀ i code url, a ≠ .redirect i code url) :
      ForgeStep x s a (s.setScans forge r)

/-- **What a step can do.** -/
theorem forgeStep_cases {x : ForgeTraffic ι δ β γ} {s t : Forges ι δ β γ} {a : ForgeAction ι β}
    (h : forgeStep x s a = some t) : ForgeStep x s a t := by
  cases a with
  | request move i =>
    unfold forgeStep at h
    dsimp only at h
    split_ifs at h
    obtain ⟨r, hr, rfl⟩ := Option.map_eq_some_iff.1 h
    exact .client _ hr (fun j answer hanswer => by cases move <;> cases hanswer) nofun
  | send i =>
    obtain ⟨r, hr, rfl⟩ := Option.map_eq_some_iff.1 h
    exact .send hr
  | redirect i code url =>
    unfold forgeStep at h
    dsimp only at h
    split at h
    · split_ifs at h with hfollows
      obtain rfl := Option.some.inj h
      exact .redirect hfollows
    · cases h
  | answer i answer =>
    obtain ⟨r, hr, rfl⟩ := Option.map_eq_some_iff.1 h
    refine .client _ hr (fun j answer' hanswer => ?_) nofun
    obtain ⟨rfl, rfl⟩ := RequestAction.answer.inj hanswer
    exact ⟨rfl, answer, rfl⟩
  | scan move i =>
    unfold forgeStep at h
    dsimp only at h
    split_ifs at h
    obtain ⟨r, hr, rfl⟩ := Option.map_eq_some_iff.1 h
    exact .scans _ hr (fun j data hfetch => by cases move <;> cases hfetch) nofun
  | scanFetch i =>
    unfold forgeStep at h
    dsimp only at h
    split at h
    · rename_i held outcome hphase
      obtain ⟨r, hr, rfl⟩ := Option.map_eq_some_iff.1 h
      refine .scans _ hr (fun j data hfetch => ?_) nofun
      obtain ⟨rfl, hresult⟩ := ScanAction.fetch.inj hfetch
      exact ⟨held, ForgeTraffic.fetchResult_eq_data hresult ▸ hphase⟩
    · cases h
  | setClock forge time =>
    unfold forgeStep at h
    obtain ⟨r, hr, rfl⟩ := Option.map_eq_some_iff.1 h
    exact .client _ hr (fun j answer hanswer => by cases hanswer) nofun
  | tick forge time =>
    unfold forgeStep at h
    obtain ⟨r, hr, rfl⟩ := Option.map_eq_some_iff.1 h
    exact .scans _ hr (fun j data hfetch => by cases hfetch) nofun

end Step

/-! ### Addresses -/

/-- An address of the API of a forge. -/
def ForgeKey.Contains (forge : ForgeKey) (url : String) : Prop :=
  startsWith url (forge.apiBase ++ "/") = true

instance (forge : ForgeKey) (url : String) : Decidable (forge.Contains url) :=
  inferInstanceAs (Decidable (startsWith url (forge.apiBase ++ "/") = true))

theorem apiBase_forgeKey (p : PoolConfig) : p.forgeKey.apiBase = p.apiBase := by
  unfold PoolConfig.forgeKey PoolConfig.apiBase
  split_ifs
  · rfl
  · rfl

theorem startsWith_append (s t : String) : startsWith (s ++ t) s = true := by
  unfold startsWith
  rw [String.toList_append]
  exact List.isPrefixOf_iff_prefix.2 (List.prefix_append _ _)

/-- Every path begins with a slash. -/
theorem requestPath_slash (p : PoolConfig) (request : ForgeRequest) :
    ∃ rest, (p.requestPath request).toList = '/' :: rest := by
  have happend : ∀ {s : String} (t : String), (∃ rest, s.toList = '/' :: rest) →
      ∃ rest, (s ++ t).toList = '/' :: rest := by
    rintro s t ⟨rest, hs⟩
    exact ⟨rest ++ t.toList, by rw [String.toList_append, hs, List.cons_append]⟩
  have hrunners : ∃ rest, p.apiRunnersPath.toList = '/' :: rest := by
    unfold PoolConfig.apiRunnersPath
    split_ifs
    · exact happend _ (happend _ (happend _ (happend _ ⟨_, rfl⟩)))
    · exact happend _ (happend _ ⟨_, rfl⟩)
  unfold PoolConfig.requestPath
  cases request with
  | repositories page => exact happend _ (happend _ (happend _ ⟨_, rfl⟩))
  | repository => exact happend _ (happend _ (happend _ ⟨_, rfl⟩))
  | orgRepositories => exact happend _ (happend _ ⟨_, rfl⟩)
  | runs repo status =>
    exact happend _ (happend _ (happend _ (happend _ (happend _ (happend _ ⟨_, rfl⟩)))))
  | jobs repo runId =>
    exact happend _ (happend _ (happend _ (happend _ (happend _ (happend _ ⟨_, rfl⟩)))))
  | listRunners => exact hrunners
  | deregister runnerId => exact happend _ (happend _ hrunners)
  | registrationToken => exact happend _ hrunners

theorem sentPath_slash (p : PoolConfig) (request : ForgeRequest) :
    ∃ rest, (p.sentPath request).toList = '/' :: rest := by
  obtain ⟨rest, hpath⟩ := requestPath_slash p request
  unfold PoolConfig.sentPath
  split_ifs
  · unfold replaceText
    rw [String.toList_ofList, hpath]
    exact ⟨_, rfl⟩
  · exact ⟨rest, hpath⟩

/-- **Every request** of a client goes to its forge. -/
theorem contains_requestUrl (p : PoolConfig) (request : ForgeRequest) :
    p.forgeKey.Contains (p.requestUrl request) := by
  obtain ⟨rest, hpath⟩ := sentPath_slash p request
  have hsplit : p.requestUrl request = p.apiBase ++ "/" ++ String.ofList rest := by
    unfold PoolConfig.requestUrl
    rw [String.append_assoc]
    congr 1
    exact String.toList_inj.1 (by simp [hpath])
  unfold ForgeKey.Contains
  rw [apiBase_forgeKey, hsplit]
  exact startsWith_append _ _

/-! ### What stays in a forge -/

section Contained

variable {ι δ β γ : Type*} {x : ForgeTraffic ι δ β γ} {s t : Forges ι δ β γ}
  {a : ForgeAction ι β}

/-- Data of a forge: asked of its client, and sent by its server. -/
def ForgeKey.Owns (forge : ForgeKey) (data : Served γ) : Prop :=
  data.forge = forge ∧ forge.Contains data.url

/-- No server redirects a request to an address outside the API of the forge it belongs to. -/
def NoForeignRedirect (x : ForgeTraffic ι δ β γ) (_s : Forges ι δ β γ) : ForgeAction ι β → Prop
  | .redirect i _ url => (x.key i).Contains url
  | _ => True

instance (x : ForgeTraffic ι δ β γ) (s : Forges ι δ β γ) :
    ∀ a, Decidable (NoForeignRedirect x s a)
  | .redirect i _ url => inferInstanceAs (Decidable ((x.key i).Contains url))
  | .request _ _ | .send _ | .answer _ _ | .scan _ _ | .scanFetch _ | .setClock _ _ | .tick _ _ =>
      inferInstanceAs (Decidable True)

/-- Requests and data stay within the forge of their pool. -/
structure Contained (x : ForgeTraffic ι δ β γ) (s : Forges ι δ β γ) : Prop where
  wire : ∀ i, (x.key i).Contains (s.wire i).url
  http : ∀ r ∈ s.http, r.pat = (x.pool r.call).pat ∧ (x.key r.call).Contains r.url
  requests : ∀ forge, (s.requests forge).Good forge.Owns x.traffic.loads
  scans : ∀ forge, (s.scans forge).Good forge.Owns

/-- A client makes a step. -/
theorem Contained.setRequests (h : Contained x s) {forge : ForgeKey}
    {r : Requests ι δ (Served β) (Served γ)} (hr : r.Good forge.Owns x.traffic.loads) :
    Contained x (s.setRequests forge r) where
  wire := h.wire
  http := h.http
  requests := (Function.forall_update_iff s.requests
    fun forge r => r.Good forge.Owns x.traffic.loads).2 ⟨hr, fun k _ => h.requests k⟩
  scans := h.scans

theorem Contained.setScans (h : Contained x s) {forge : ForgeKey}
    {r : SharedScans ι (δ × String) (Served γ)} (hr : r.Good forge.Owns) :
    Contained x (s.setScans forge r) where
  wire := h.wire
  http := h.http
  requests := h.requests
  scans := (Function.forall_update_iff s.scans fun forge r => r.Good forge.Owns).2
    ⟨hr, fun k _ => h.scans k⟩

/-- What a server of the forge sends belongs to it. -/
theorem goodAnswer_served {forge : ForgeKey} {url : String} (hurl : forge.Contains url)
    (answer : HttpAnswer β) : GoodAnswer forge.Owns x.traffic.loads (answer.served forge url) := by
  cases answer with
  | ok status headers body =>
    intro data hdata
    obtain ⟨value, -, rfl⟩ := Option.map_eq_some_iff.1 hdata
    exact ⟨rfl, hurl⟩
  | httpError code headers text => trivial
  | failed => trivial

theorem contained_init (x : ForgeTraffic ι δ β γ) (reserve maxConcurrentRequests : ℤ) (clock : ℚ)
    (content : (pat path : String) → Served β) :
    Contained x (Forges.init x reserve maxConcurrentRequests clock content) where
  wire i := contains_requestUrl (x.pool i) (x.call i).request
  http _ hr := absurd hr List.not_mem_nil
  requests _ := ⟨fun _ _ hmem => absurd hmem List.not_mem_nil,
    fun _ _ hresponse => absurd hresponse (Option.not_mem_none _)⟩
  scans _ := ⟨fun _ _ hmem => absurd hmem List.not_mem_nil, fun _ => trivial⟩

/-- What a call returns is data of its pool's forge. -/
theorem Contained.returned (h : Contained x s) {i : ι} {data : Served γ}
    (hdata : s.returned x i = some data) : (x.key i).Owns data := by
  unfold Forges.returned at hdata
  split_ifs at hdata
  · have hphase := (h.scans (x.key i)).phases i
    split at hdata
    · rename_i result hended
      rw [hended] at hphase
      exact Option.some.inj hdata ▸ hphase
    · cases hdata
  · have hphase := (h.requests (x.key i)).phases i
    split at hdata
    · rename_i held result hended
      rw [hended] at hphase
      exact Option.some.inj hdata ▸ hphase result rfl
    · cases hdata

variable [DecidableEq ι]

/-- A request is made within the forge. -/
theorem Contained.transmit (h : Contained x s) {i : ι} {w : OnWire}
    (hw : (x.key i).Contains w.url) : Contained x (s.transmit x i w) where
  wire := (Function.forall_update_iff s.wire fun i w => (x.key i).Contains w.url).2
    ⟨hw, fun j _ => h.wire j⟩
  http := by
    intro r hr
    rcases List.mem_append.1 hr with hr | hr
    · exact h.http r hr
    · rw [List.mem_singleton.1 hr]
      exact ⟨rfl, hw⟩
  requests := h.requests
  scans := h.scans

variable [DecidableEq δ]

/-- **One step** keeps everything in its forge. -/
theorem contained_step (h : Contained x s) (hok : NoForeignRedirect x s a)
    (hstep : forgeStep x s a = some t) : Contained x t := by
  cases forgeStep_cases hstep with
  | @client _ forge r act hr hanswer hother =>
    refine h.setRequests (good_step (h.requests forge) (fun i answer hact => ?_) hr)
    obtain ⟨rfl, sent, rfl⟩ := hanswer i answer hact
    exact goodAnswer_served (h.wire i) sent
  | @send i r hr =>
    have hgood : r.Good (x.key i).Owns x.traffic.loads :=
      good_step (h.requests (x.key i)) (fun j answer hanswer => by cases hanswer) hr
    exact (h.setRequests hgood).transmit (contains_requestUrl (x.pool i) (x.call i).request)
  | redirect => exact h.transmit hok
  | @scans _ forge r act hr hfetch hother =>
    refine h.setScans (scans_good_step (h.scans forge) (fun i data hact => ?_) hr)
    -- the request has ended with data of its forge
    obtain ⟨held, hphase⟩ := hfetch i data hact
    have hended := (h.requests forge).phases i
    rw [hphase] at hended
    exact hended data rfl

/-- **A run** in which no server redirects elsewhere keeps everything in its forge. -/
theorem contained_run {reserve maxConcurrentRequests : ℤ} {clock : ℚ}
    {content : (pat path : String) → Served β} {l : List (ForgeAction ι β)}
    (hok : Along (forgeStep x) (NoForeignRedirect x)
      (Forges.init x reserve maxConcurrentRequests clock content) l)
    (hrun : run (forgeStep x) (Forges.init x reserve maxConcurrentRequests clock content) l =
      some t) : Contained x t :=
  run_invariant (fun _ _ _ => contained_step)
    (contained_init x reserve maxConcurrentRequests clock content) hok hrun

end Contained

/-! ### Redirections -/

section Redirections

variable {ι δ β γ : Type*} [DecidableEq ι] [DecidableEq δ] {x : ForgeTraffic ι δ β γ}
  {s t : Forges ι δ β γ} {a : ForgeAction ι β} {l : List (ForgeAction ι β)}

/-- A request that was made is not forgotten, and a redirection makes one. -/
theorem http_step (h : forgeStep x s a = some t) :
    s.http <+: t.http ∧ ∀ i code url, a = .redirect i code url →
      ∃ q ∈ t.http, q.call = i ∧ q.url = url := by
  cases forgeStep_cases h with
  | client act hr hanswer hother =>
    exact ⟨List.prefix_rfl, fun i code url ha => absurd ha (hother i code url)⟩
  | send => exact ⟨List.prefix_append _ _, nofun⟩
  | @redirect i code url =>
    refine ⟨List.prefix_append _ _, fun j code' url' ha => ?_⟩
    obtain ⟨rfl, -, rfl⟩ := ForgeAction.redirect.inj ha
    exact ⟨_, List.mem_append_right _ (List.mem_singleton.2 rfl), rfl, rfl⟩
  | scans act hr hfetch hother =>
    exact ⟨List.prefix_rfl, fun i code url ha => absurd ha (hother i code url)⟩

theorem http_run (h : run (forgeStep x) s l = some t) : s.http <+: t.http := by
  have hall : Along (forgeStep x) (fun _ _ => True) s l := along_of_forall (fun _ _ => trivial) s l
  exact run_invariant (I := fun u => s.http <+: u.http)
    (fun _ _ _ hprefix _ hstep => hprefix.trans (http_step hstep).1) List.prefix_rfl hall h

/-- When all requests stayed in their forge, no redirection led out of it. -/
theorem noForeignRedirect_of_http (hrun : run (forgeStep x) s l = some t)
    (h : ∀ q ∈ t.http, (x.key q.call).Contains q.url) :
    Along (forgeStep x) (NoForeignRedirect x) s l := by
  induction l generalizing s with
  | nil => trivial
  | cons a l ih =>
    obtain ⟨u, hu, hut⟩ := Option.bind_eq_some_iff.1 hrun
    refine ⟨?_, fun v hv => ?_⟩
    · cases a with
      | redirect i code url =>
        obtain ⟨q, hq, rfl, rfl⟩ := (http_step hu).2 i code url rfl
        exact h q ((http_run hut).subset hq)
      | _ => trivial
    · obtain rfl := Option.some.inj (hu.symm.trans hv)
      exact ih hut

end Redirections

end RunnerSwarm
