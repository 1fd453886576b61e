import RunnerSwarm.Server.ControlRoutes
import RunnerSwarm.Server.ReadRoutes

/-!
# Serving one request

`routeOf` is the routing table, `serve` the whole path of a request through it: authorization, the
view, and Flask's answer when the view raises.

* `serve_of_unauthorized`: without write access no control endpoint runs and the world is left as it
  is, and the answer is `shown`, which is no function of the control token: the dashboard's cookie
  is the only exception;
* `serve_control`: with write access the control endpoint runs.
-/

namespace RunnerSwarm

/-! ### Routes -/

inductive Route
  | health
  | read (route : ReadRoute)
  | control (route : ControlRoute)
  | unrouted
  deriving DecidableEq

/-- A route with a `<name>`, which matches a segment that is not empty. -/
def named (name : String) (route : Route) : Route := if name = "" then .unrouted else route

/-- The routes of the two blueprints; a route for `GET` serves `HEAD` as well. -/
def routeOf (method : Method) (path : List String) : Route :=
  match if method = .head then .get else method, path with
  | .get, [] => .read .dashboard
  | .get, ["api", "health"] => .health
  | .get, ["api", "state"] => .read .state
  | .get, ["api", "events"] => .read .events
  | .get, ["api", "audit"] => .read .audit
  | .get, ["api", "jobs"] => .read .jobs
  | .get, ["api", "history"] => .read .history
  | .get, ["api", "containers", name, "logs"] => named name (.read (.containerLogs name))
  | .get, ["metrics"] => .read .metrics
  | .get, ["api", "config"] => .read .getConfig
  | .get, ["api", "config", "export"] => .read .exportConfig
  | .post, ["api", "containers", name, "stop"] => named name (.control (.stopContainer name))
  | .post, ["api", "containers", name, "restart"] => named name (.control (.restartContainer name))
  | .post, ["api", "containers", name, "protect"] => named name (.control (.protectContainer name))
  | .post, ["api", "pools", name, "state"] => named name (.control (.setPoolState name))
  | .post, ["api", "pools", name, "scale"] => named name (.control (.scalePool name))
  | .post, ["api", "pause"] => .control .globalPause
  | .patch, ["api", "config", "pools", name] => named name (.control (.patchPool name))
  | .delete, ["api", "config", "pools", name, "overrides"] =>
      named name (.control (.resetPool name))
  | .post, ["api", "config", "pools"] => .control .createPool
  | .delete, ["api", "config", "pools", name] => named name (.control (.removePool name))
  | .patch, ["api", "config", "globals"] => .control .patchGlobals
  | _, _ => .unrouted

/-! ### Views -/

/-- `scoped`, for the routes under `idempotent`, which are all `POST`. -/
def Request.scopedKey (r : Request) (key : String) : String :=
  "POST:/" ++ "/".intercalate r.path ++ ":" ++ key

/-- `idempotent`. -/
def Site.idempotent (site : Site) (clock : Clock) (r : Request) (view : Control Response) :
    Control Response :=
  let key := r.idempotencyKey.getD ""
  if key = "" then view
  else do
    let owned := r.scopedKey key
    let taken ← (.call (fun w => if owned ∈ w.inFlight then w
        else { w with inFlight := owned :: w.inFlight })
      fun w => .done (decide (owned ∈ w.inFlight)) : Control Bool)
    if taken then
      return site.answer [("error", .str "a request with this Idempotency-Key is in progress")] 409
    .ensure (fun w => { w with inFlight := w.inFlight.erase owned }) do
      match ← readStore (·.idempotentResponse owned) with
      | some cached =>
          return ⟨200, [("Content-Type", "application/json"), ("Idempotency-Replayed", "true")],
            [], cached.response⟩
      | none =>
          let response ← view
          if 200 ≤ response.status ∧ response.status < 300 then
            writeStore (·.rememberResponse clock.served owned response.body)
          return response

namespace Deps

variable (d : Deps) (docker : DockerAnswers) (clock : Clock) (r : Request)

/-- A control endpoint, once the request may proceed. -/
def controlView (route : ControlRoute) : Control Response :=
  let view : Control Response := do
    let reply ← d.handler docker clock r route
    return d.respond reply
  if Site.isIdempotent route then d.idempotent clock r view else view

/-- What a request leaves: the response, the guard, the world, and the control endpoint that ran. -/
structure Served where
  response : Response
  guard : TokenGuard
  world : World
  ran : Option ControlRoute

/-- The response as it is sent: with the headers that are added, and without its body for `HEAD`. -/
def send (response : Response) : Response :=
  { response with
    headers := response.headers ++ d.serverHeaders response.status response.body
    body := if r.method = .head then "" else response.body }

/-- The path of one request. -/
def serve (g : TokenGuard) (w : World) : Served :=
  match routeOf r.method r.path with
  | .unrouted => ⟨d.send r (d.unrouted r), g, w, none⟩
  | .health => ⟨d.send r (d.health clock), g, w, none⟩
  | .read route =>
      match d.authorize g clock r false with
      | (.error _, g) => ⟨d.send r d.internalError, g, w, none⟩
      | (.ok (some denied), g) => ⟨d.send r denied, g, w, none⟩
      | (.ok none, g) =>
          match d.readView w docker clock r route with
          | .ok response => ⟨d.send r response, g, w, none⟩
          | .error _ => ⟨d.send r d.internalError, g, w, none⟩
  | .control route =>
      match d.authorize g clock r true with
      | (.error _, g) => ⟨d.send r d.internalError, g, w, none⟩
      | (.ok (some denied), g) => ⟨d.send r denied, g, w, none⟩
      | (.ok none, g) =>
          match (d.controlView docker clock r route).run w with
          | (.ok response, w) => ⟨d.send r response, g, w, some route⟩
          | (.error _, w) => ⟨d.send r d.internalError, g, w, some route⟩

/-- What the server shows: the refusal, the page of the endpoint, or Flask's own answer. -/
def shown (g : TokenGuard) (w : World) : Response :=
  d.send r <| match routeOf r.method r.path with
  | .unrouted => d.unrouted r
  | .health => d.health clock
  | .read route =>
      match (d.authorize g clock r false).1 with
      | .error _ => d.internalError
      | .ok (some denied) => denied
      | .ok none =>
          match d.page w docker clock r route with
          | .ok response => response
          | .error _ => d.internalError
  | .control _ =>
      match (d.authorize g clock r true).1 with
      | .ok (some denied) => denied
      | _ => d.internalError

/-- A visit that the dashboard answers with a cookie. -/
def HandsOutCookie (g : TokenGuard) : Prop :=
  ∃ route, routeOf r.method r.path = .read route ∧ r.asksCookie route = true ∧
    (d.authorize g clock r false).1 = .ok none

variable {d clock r} {g : TokenGuard} (w : World)

theorem asksCookie_iff {route : ReadRoute} :
    r.asksCookie route = true ↔ route = .dashboard ∧ (r.arg "token").getD "" ≠ "" := by
  cases route <;> simp [Request.asksCookie]

/-- Whether a visit gets the cookie can be computed. -/
instance : Decidable (d.HandsOutCookie clock r g) :=
  decidable_of_iff (routeOf r.method r.path = .read .dashboard ∧ (r.arg "token").getD "" ≠ "" ∧
      mayProceed (d.authorize g clock r false).1 = true) <| by
    constructor
    · rintro ⟨hroute, harg, hauth⟩
      exact ⟨.dashboard, hroute, asksCookie_iff.2 ⟨rfl, harg⟩, mayProceed_iff.1 hauth⟩
    · rintro ⟨route, hroute, hasks, hauth⟩
      obtain ⟨rfl, harg⟩ := asksCookie_iff.1 hasks
      exact ⟨hroute, harg, mayProceed_iff.2 hauth⟩

/-- **Without write access** a request changes nothing but the guard, and it is answered what the
server shows, apart from the dashboard's cookie. -/
theorem serve_of_unauthorized (hwrite : (d.authorize g clock r true).1 ≠ .ok none)
    (hcookie : ¬ d.HandsOutCookie clock r g) :
    (d.serve docker clock r g w).ran = none ∧ (d.serve docker clock r g w).world = w ∧
      (d.serve docker clock r g w).response = d.shown docker clock r g w := by
  unfold serve shown
  cases hroute : routeOf r.method r.path with
  | unrouted | health => exact ⟨rfl, rfl, rfl⟩
  | read route =>
    dsimp only
    rcases hauth : d.authorize g clock r false with ⟨granted, g'⟩
    cases granted with
    | error error => exact ⟨rfl, rfl, rfl⟩
    | ok denied =>
      cases denied with
      | some denied => exact ⟨rfl, rfl, rfl⟩
      | none =>
        have hasks : r.asksCookie route = false := by
          rw [← Bool.not_eq_true]
          exact fun hasks => hcookie ⟨route, hroute, hasks, by rw [hauth]⟩
        dsimp only
        rw [readView_eq hasks]
        cases d.page w docker clock r route <;> exact ⟨rfl, rfl, rfl⟩
  | control route =>
    dsimp only
    rcases hauth : d.authorize g clock r true with ⟨granted, g'⟩
    rw [hauth] at hwrite
    cases granted with
    | error error => exact ⟨rfl, rfl, rfl⟩
    | ok denied =>
      cases denied with
      | some denied => exact ⟨rfl, rfl, rfl⟩
      | none => exact absurd rfl hwrite

/-- **With write access** the control endpoint runs. -/
theorem serve_control {route : ControlRoute} (hroute : routeOf r.method r.path = .control route)
    (hauth : (d.authorize g clock r true).1 = .ok none) :
    (d.serve docker clock r g w).ran = some route := by
  unfold serve
  rw [hroute]
  dsimp only
  rcases hserved : d.authorize g clock r true with ⟨granted, g'⟩
  rw [hserved] at hauth
  obtain rfl : granted = .ok none := hauth
  dsimp only
  obtain ⟨outcome, w'⟩ := (d.controlView docker clock r route).run w
  cases outcome <;> rfl

end Deps

end RunnerSwarm
