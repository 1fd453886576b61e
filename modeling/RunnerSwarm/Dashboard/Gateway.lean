import RunnerSwarm.Lib.UrlPath
import RunnerSwarm.Server.App

/-!
# The gateway of the dashboard

A browser talks to the orchestrator through the dashboard, which holds the tokens and lets a viewer
only read some endpoints. `isAllowed` looks at the path as it is written; `callRorch` hands it to
`fetch`, which resolves its dot segments, and the server of the orchestrator decodes what it gets.

* `viewer_stays_iff`: a request that a viewer may make is served by a viewer endpoint, or by none,
  if and only if its dot segments do not lead above the prefix it was allowed for to the page of the
  dashboard or to the logs of a container, by a path that the server takes;
* `not_viewer_stays`: a path to the logs.
-/

namespace RunnerSwarm

/-! ### The check -/

inductive Role
  | admin
  | viewer
  deriving DecidableEq

/-- `s.toUpperCase()`, as far as it can give the name of a method. -/
def upper (s : String) : String := String.ofList (s.toList.map Char.toUpper)

/-- `READ_METHODS`. -/
def readMethods : List String := ["GET", "HEAD"]

/-- `VIEWER_PREFIXES`. -/
def viewerPrefixes : List String :=
  ["/api/state", "/api/events", "/api/audit", "/api/jobs", "/api/history", "/api/health",
    "/api/config", "/metrics"]

/-- `isAllowed`. -/
def isAllowed (role : Role) (method path : String) : Bool :=
  if role = .admin then true
  else if upper method ∉ readMethods then false
  else
    let normalised := if startsWith path "/" then path else "/" ++ path
    if hasText normalised "/logs" then false
    else viewerPrefixes.any fun start =>
      normalised = start || startsWith normalised (start ++ "?") ||
        startsWith normalised (start ++ "/")

/-! ### The request -/

/-- The method as `fetch` sends it. -/
def sentMethod (method : String) : Method :=
  if upper method = "GET" then .get
  else if upper method = "HEAD" then .head
  else if upper method = "POST" then .post
  else if upper method = "DELETE" then .delete
  else if method = "PATCH" then .patch
  else .other

/-- The decoded path of `fetch(base + path)` after its first slash, the base being the origin
`http://orchestrator:8080`. Without a slash in front, what follows the port makes it no URL. -/
def deliveredPath (path : String) : Option (List Char) :=
  match path.toList with
  | '/' :: text => some (UrlPath.delivered (UrlPath.sent text))
  | _ => none

/-- The route that serves a request for a decoded path. -/
def servedRoute (server : UrlPath.PathServer) (m : Method) (decoded : List Char) : Route :=
  match server.segments decoded with
  | none => .unrouted
  | some segments => routeOf m (segments.map String.ofList)

/-- The endpoints that a viewer may reach. -/
def Route.isViewers : Route → Bool
  | .health => true
  | .read .dashboard => false
  | .read (.containerLogs _) => false
  | .read _ => true
  | .control _ => false
  | .unrouted => false

/-- The request is served by a viewer endpoint, if any endpoint serves it. -/
def StaysInside (server : UrlPath.PathServer) (method path : String) : Prop :=
  ∀ decoded, deliveredPath path = some decoded →
    servedRoute server (sentMethod method) decoded = .unrouted ∨
      (servedRoute server (sentMethod method) decoded).isViewers = true

/-- The paths of the other endpoints that can be read: the page of the dashboard, and the logs. -/
def Outside (segments : List String) : Prop :=
  segments = [] ∨ ∃ name, name ≠ "" ∧ segments = ["api", "containers", name, "logs"]

/-- The server takes the path, and apart from extra slashes it is one of those. -/
def LeadsOutside (server : UrlPath.PathServer) (decoded : List Char) : Prop :=
  (server.segments decoded).isSome = true ∧
    Outside ((UrlPath.named decoded).map String.ofList)

/-- The dot segments lead above the prefix that the path was allowed for. -/
def climbsOut (path : String) : Bool :=
  viewerPrefixes.any fun start =>
    startsWith path (start ++ "/") &&
      UrlPath.climbs 0 ((UrlPath.pathText (UrlPath.clean
        (path.toList.drop (start ++ "/").toList.length))).splitOnP UrlPath.isSlash)

/-! ### What a viewer reaches -/

theorem sentMethod_of_allowed {method path : String} (h : isAllowed .viewer method path = true) :
    sentMethod method = .get ∨ sentMethod method = .head := by
  have hmethod : upper method ∈ readMethods := by
    by_contra hno
    unfold isAllowed at h
    rw [if_neg (by decide), if_pos hno] at h
    cases h
  have hread : upper method = "GET" ∨ upper method = "HEAD" := by
    simpa [readMethods] using hmethod
  unfold sentMethod
  rcases hread with hget | hhead
  · exact .inl (if_pos hget)
  · refine .inr ?_
    rw [if_neg (by rw [hhead]; decide), if_pos hhead]

theorem routeOf_read {m : Method} (hm : m = .get ∨ m = .head) (segments : List String) :
    (routeOf m segments = .unrouted ∨ (routeOf m segments).isViewers = true) ↔
      ¬ Outside segments := by
  have hget : routeOf m segments = routeOf .get segments := by
    rcases hm with rfl | rfl <;> rfl
  rw [hget]
  unfold routeOf Outside
  rw [if_neg (by decide)]
  split
  case h_8 name _ =>
    by_cases hname : name = "" <;> simp [Route.isViewers, named, hname]
  all_goals simp_all [Route.isViewers]

/-- How an allowed path starts. -/
theorem start_of_allowed {method path : String} (h : isAllowed .viewer method path = true)
    (hslash : startsWith path "/" = true) :
    ∃ start ∈ viewerPrefixes, path = start ∨ startsWith path (start ++ "?") = true ∨
      startsWith path (start ++ "/") = true := by
  have hany : (viewerPrefixes.any fun start =>
      path = start || startsWith path (start ++ "?") || startsWith path (start ++ "/")) = true := by
    by_contra hno
    unfold isAllowed at h
    rw [if_pos hslash] at h
    dsimp only at h
    rw [Bool.not_eq_true] at hno
    rw [hno] at h
    simp at h
  obtain ⟨start, hstart, hmatch⟩ := List.any_eq_true.1 hany
  rw [Bool.or_eq_true, Bool.or_eq_true, decide_eq_true_eq, or_assoc] at hmatch
  exact ⟨start, hstart, hmatch⟩

theorem toList_of_startsWith {s p : String} (h : startsWith s p = true) :
    s.toList = p.toList ++ s.toList.drop p.toList.length := by
  obtain ⟨rest, hrest⟩ := List.isPrefixOf_iff_prefix.1 h
  rw [← hrest, List.drop_left]

/-- The segments of a prefix tell it from the paths outside. -/
def tellsApart : List (List Char) → Bool
  | [first] => String.ofList first ≠ "api"
  | [_, second] => String.ofList second ≠ "containers"
  | _ => false

theorem not_outside {segments : List (List Char)} (h : tellsApart segments = true)
    (rest : List (List Char)) : ¬ Outside ((segments ++ rest).map String.ofList) := by
  rintro (hnil | ⟨name, -, hlogs⟩)
  · match segments, h with
    | [_], _ => cases hnil
    | [_, _], _ => cases hnil
  · match segments, h with
    | [_], h => exact of_decide_eq_true h (List.cons.inj hlogs).1
    | [_, _], h => exact of_decide_eq_true h (List.cons.inj (List.cons.inj hlogs).2).1

/-- What a prefix is made of, after its slash. -/
structure OrdinaryStart (front : List Char) : Prop where
  ordinary : UrlPath.isOrdinaryPath front = true
  named : [] ∉ front.splitOn '/'
  plain : (front.splitOn '/').all UrlPath.isPlain = true
  apart : tellsApart (front.splitOn '/') = true

theorem ordinaryStart {start : String} (h : start ∈ viewerPrefixes) :
    ∃ front, start.toList = '/' :: front ∧ OrdinaryStart front := by
  have hall : (viewerPrefixes.all fun start =>
      start.toList.head? = some '/' && UrlPath.isOrdinaryPath start.toList.tail &&
        decide ([] ∉ start.toList.tail.splitOn '/') &&
        (start.toList.tail.splitOn '/').all UrlPath.isPlain &&
        tellsApart (start.toList.tail.splitOn '/')) = true := by
    decide +kernel
  have hstart := List.all_eq_true.1 hall start h
  simp only [Bool.and_eq_true, decide_eq_true_eq] at hstart
  obtain ⟨⟨⟨⟨hslash, hordinary⟩, hnamed⟩, hplain⟩, hapart⟩ := hstart
  exact ⟨_, (List.cons_head?_tail hslash).symm, hordinary, hnamed, hplain, hapart⟩

/-- An allowed path that does not climb out stays inside. -/
theorem not_outside_of_allowed {method path : String} {decoded : List Char}
    (h : isAllowed .viewer method path = true) (hclimbs : climbsOut path = false)
    (hpath : deliveredPath path = some decoded) :
    ¬ Outside ((UrlPath.named decoded).map String.ofList) := by
  unfold deliveredPath at hpath
  split at hpath
  · rename_i text htext
    cases hpath
    have hslash : startsWith path "/" = true :=
      List.isPrefixOf_iff_prefix.2 ⟨text, htext.symm⟩
    obtain ⟨start, hstart, hmatch⟩ := start_of_allowed h hslash
    obtain ⟨front, hfront, hord⟩ := ordinaryStart hstart
    -- what is sent is `front`, and more segments below it or nothing
    have hunder : ∀ more, UrlPath.sent text = front.splitOn '/' ++ more →
        ¬ Outside ((UrlPath.named (UrlPath.delivered (UrlPath.sent text))).map String.ofList) := by
      intro more hsent
      obtain ⟨rest, hrest⟩ := UrlPath.named_append hord.ordinary hord.named more
      rw [hsent, hrest]
      exact not_outside hord.apart rest
    have hat : ∀ rest, UrlPath.pathText (UrlPath.clean rest) = [] → text = front ++ rest →
        ¬ Outside ((UrlPath.named (UrlPath.delivered (UrlPath.sent text))).map String.ofList) := by
      intro rest hend htext'
      apply hunder []
      rw [htext', UrlPath.at_prefix hord.ordinary hord.plain hend, List.append_nil]
    rcases hmatch with rfl | hquery | hbelow
    · refine hat [] rfl ?_
      rw [List.append_nil]
      exact (List.cons.inj (htext.symm.trans hfront)).2
    · have hsplit := toList_of_startsWith hquery
      rw [htext, String.toList_append, hfront, List.append_assoc] at hsplit
      refine hat _ ?_ (List.cons.inj hsplit).2
      show UrlPath.pathText (UrlPath.clean ('?' :: _)) = []
      rw [UrlPath.clean_cons (by decide)]
      rfl
    · have hsplit := toList_of_startsWith hbelow
      have hstay := List.any_eq_false.1 hclimbs start hstart
      rw [hbelow, Bool.true_and, Bool.not_eq_true] at hstay
      generalize path.toList.drop (start ++ "/").toList.length = rest at hsplit hstay
      rw [htext, String.toList_append, hfront, List.append_assoc] at hsplit
      have htext' : text = front ++ '/' :: rest := (List.cons.inj hsplit).2
      obtain ⟨more, hmore⟩ := UrlPath.under_prefix hord.ordinary hord.plain hstay
      exact hunder more (htext' ▸ hmore)
  · cases hpath

/-- A read request is served outside if and only if its path leads there. -/
theorem servedRoute_read {server : UrlPath.PathServer} (hserver : server.Documented) {m : Method}
    (hm : m = .get ∨ m = .head) (decoded : List Char) :
    (servedRoute server m decoded = .unrouted ∨
      (servedRoute server m decoded).isViewers = true) ↔ ¬ LeadsOutside server decoded := by
  unfold servedRoute LeadsOutside
  cases hsegments : server.segments decoded with
  | none => exact ⟨fun _ hleads => absurd hleads.1 (by simp), fun _ => .inl rfl⟩
  | some segments =>
    obtain rfl := hserver.slashes decoded segments hsegments
    refine (routeOf_read hm _).trans (not_congr ?_)
    exact ⟨fun houtside => ⟨rfl, houtside⟩, fun hleads => hleads.2⟩

/-- **A viewer stays inside** with an allowed request, except where its dot segments lead above the
prefix to the page of the dashboard or to the logs of a container. -/
theorem viewer_stays_iff (server : UrlPath.PathServer) (hserver : server.Documented)
    (method path : String) (h : isAllowed .viewer method path = true) :
    StaysInside server method path ↔
      ¬ (climbsOut path = true ∧
        ∃ decoded, deliveredPath path = some decoded ∧ LeadsOutside server decoded) := by
  have hread := sentMethod_of_allowed h
  constructor
  · rintro hstays ⟨-, decoded, hpath, hleads⟩
    exact (servedRoute_read hserver hread decoded).1 (hstays decoded hpath) hleads
  · intro hno decoded hpath
    refine (servedRoute_read hserver hread decoded).2 fun hleads => ?_
    cases hclimbs : climbsOut path with
    | true => exact hno ⟨hclimbs, decoded, hpath, hleads⟩
    | false => exact not_outside_of_allowed h hclimbs hpath hleads.2

/-! ### A path to the logs -/

/-- A server that drops all extra slashes. -/
def droppingServer : UrlPath.PathServer := ⟨fun path => some (UrlPath.named path)⟩

theorem droppingServer_documented : droppingServer.Documented where
  plain := by
    intro path hpath
    have hself := UrlPath.named_of_splitOn hpath (List.append_nil _).symm
    exact congrArg some (hself.trans (List.append_nil _))
  slashes := fun _ _ h => (Option.some.inj h).symm

/-- The logs of a container, for a viewer. -/
def hiddenLogs : String := "/api/state/../containers/gh-runner-ci-0a1b2c3d/%6Cogs"

/-- Every server shows them. -/
theorem not_staysInside_hiddenLogs {server : UrlPath.PathServer} (hserver : server.Documented) :
    ¬ StaysInside server "GET" hiddenLogs := by
  intro hstays
  have hdelivered : deliveredPath hiddenLogs =
      some "api/containers/gh-runner-ci-0a1b2c3d/logs".toList := by decide +kernel
  have hplain := hserver.plain "api/containers/gh-runner-ci-0a1b2c3d/logs".toList (by decide +kernel)
  have hroute : servedRoute server (sentMethod "GET")
      "api/containers/gh-runner-ci-0a1b2c3d/logs".toList =
        .read (.containerLogs "gh-runner-ci-0a1b2c3d") := by
    unfold servedRoute
    rw [hplain]
    decide +kernel
  have hinside := hstays _ hdelivered
  rw [hroute] at hinside
  rcases hinside with hunrouted | hviewers
  · cases hunrouted
  · cases hviewers

theorem not_viewer_stays :
    ¬ ∀ server : UrlPath.PathServer, server.Documented → ∀ method path,
      isAllowed .viewer method path = true → StaysInside server method path := by
  intro h
  exact not_staysInside_hiddenLogs droppingServer_documented
    (h droppingServer droppingServer_documented "GET" hiddenLogs (by decide +kernel))

/-- Dot segments that lead to another endpoint of a viewer. -/
theorem viewer_stays_events :
    StaysInside droppingServer "GET" "/api/state/%2e%2E/events?limit=5" := by
  have hiff := viewer_stays_iff droppingServer droppingServer_documented "GET"
    "/api/state/%2e%2E/events?limit=5" (by decide +kernel)
  refine hiff.2 ?_
  rintro ⟨-, decoded, hpath, -, houtside⟩
  have hevents : deliveredPath "/api/state/%2e%2E/events?limit=5" = some "api/events".toList := by
    decide +kernel
  obtain rfl := Option.some.inj (hpath.symm.trans hevents)
  have hnamed : (UrlPath.named "api/events".toList).map String.ofList = ["api", "events"] := by
    decide +kernel
  rw [hnamed] at houtside
  rcases houtside with hnil | ⟨name, -, hlogs⟩
  · cases hnil
  · simp at hlogs

end RunnerSwarm
