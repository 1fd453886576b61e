import RunnerSwarm.Server.Auth
import RunnerSwarm.Server.Payloads

/-!
# Read endpoints

The dashboard page, state, history, logs, metrics and configuration. `page` is what an endpoint
shows; it is a function of the state, the request and what is fixed while the server runs, and
neither token is among these. `readView` is the endpoint: the dashboard also sets a cookie.

* `page_cookies`: no page sets a cookie;
* `readView_eq`: what an endpoint answers is its page, and for a visit of the dashboard with a token
  in the query the page with the control token in a cookie.
-/

namespace RunnerSwarm

/-- The endpoints that any valid token opens. -/
inductive ReadRoute
  | dashboard
  | state
  | events
  | audit
  | jobs
  | history
  | containerLogs (name : String)
  | metrics
  | getConfig
  | exportConfig
  deriving DecidableEq

/-- `hours`, as it is used and as it is shown. -/
def historyHours (r : Request) : Except PyError (PyFloat × Json) := do
  let asked ← match r.arg "hours" with
    | none => .ok (.finite 6)
    | some text => pyFloat (.str text)
  let hours := if asked.lt (.finite (1 / 10)) then .finite (1 / 10) else asked
  return if (PyFloat.finite 720).lt hours then (.finite 720, .int 720) else (hours, .float hours)

/-- One pool of the exported document. -/
def exportPool (pool : PoolConfig) : Json :=
  .dict ((poolToDict pool).filter (fun kv => kv.1 ≠ "display" ∧ kv.1 ≠ "container_prefix") ++
    [("pat", .str "$\x7bGITHUB_PAT\x7d")])

def OverrideEntry.json (entry : OverrideEntry) : Json :=
  .dict [("data", entry.data), ("origin", .str entry.origin), ("disabled", .bool entry.disabled)]

namespace Site

variable (site : Site) (w : World) (docker : DockerAnswers) (clock : Clock) (r : Request)

/-- `GET /api/health`, which needs no token. -/
def health : Response :=
  site.answer [("status", .str "ok"), ("version", .str site.version),
    ("ts", jsonNumber clock.served)] 200

def state : Except PyError Response := do
  let effective ← site.resolver.resolve w.store.toDatabase
  return site.answer (statePayload site w docker clock.served effective) 200

def events : Response :=
  site.answer [("events", .list ((w.store.recentEvents (r.limit 200 "limit")).map EventRow.json))]
    200

def audit : Response :=
  site.answer [("audit", .list ((w.store.recentAudit (r.limit 100 "limit")).map AuditRow.json))] 200

def jobs : Response :=
  site.answer [("jobs", .list ((w.store.recentJobs (r.limit 50 "limit")).map fun job =>
    job.2.json job.1))] 200

def history : Except PyError Response := do
  let (hours, shown) ← historyHours r
  let counts := (w.store.eventCountsSince clock.served hours).rows.map fun c => (c.1, .int c.2)
  return site.answer
    [("snapshots", .list ((w.store.snapshotsSince clock.served hours).map SnapshotRow.json)),
      ("event_counts", .dict counts), ("hours", shown)] 200

def containerLogs (name : String) : Response :=
  if !isRunnerContainer name then site.answer [("error", .str "not a runner container")] 400
  else textAnswer "text/plain" docker.logs

def metrics : Except PyError Response := do
  let effective ← site.resolver.resolve w.store.toDatabase
  return textAnswer "text/plain; version=0.0.4" (prometheus w clock.served effective)

def getConfig : Except PyError Response := do
  let effective ← site.resolver.resolve w.store.toDatabase
  let overrides ← readOverrides w.store.poolOverrides.rows
  return site.answer
    [("pools", .list (effective.pools.map fun p => .dict (poolToDict p))),
      ("base_pools", .list (site.resolver.basePools.map fun p => .dict (poolToDict p))),
      ("overrides", .dict (overrides.map fun e => (e.1, e.2.json))),
      ("globals", .dict [("max_total_runners", .int effective.maxTotalRunners),
        ("max_runner_lifetime", .int effective.maxRunnerLifetime),
        ("paused", .bool effective.paused)]),
      ("editable_fields", .list ((tunableFields.insertionSort (· ≤ ·)).map .str))] 200

/-- Effective config as YAML, for copying back into `config.yml`. -/
def exportConfig : Except PyError Response := do
  let effective ← site.resolver.resolve w.store.toDatabase
  return textAnswer "text/yaml" <| site.safeDump <| .dict
    [("max_total_runners", .int effective.maxTotalRunners),
      ("max_runner_lifetime", .int effective.maxRunnerLifetime),
      ("pools", .list (effective.pools.map exportPool))]

/-- What an endpoint shows. -/
def page : ReadRoute → Except PyError Response
  | .dashboard => .ok (textAnswer "text/html" site.dashboardHtml)
  | .state => site.state w docker clock
  | .events => .ok (site.events w r)
  | .audit => .ok (site.audit w r)
  | .jobs => .ok (site.jobs w r)
  | .history => site.history w clock r
  | .containerLogs name => .ok (site.containerLogs docker name)
  | .metrics => site.metrics w clock
  | .getConfig => site.getConfig w
  | .exportConfig => site.exportConfig w

variable {site w docker clock r}

/-- **No page sets a cookie.** -/
theorem page_cookies {route : ReadRoute} {response : Response}
    (h : site.page w docker clock r route = .ok response) : response.cookies = [] := by
  cases route with
  | dashboard | events | audit | jobs =>
    obtain rfl := Except.ok.inj h
    rfl
  | containerLogs name =>
    obtain rfl := Except.ok.inj h
    unfold containerLogs
    split_ifs <;> rfl
  | state | metrics | exportConfig =>
    obtain ⟨_, -, h⟩ := bind_eq_ok h
    obtain rfl := Except.ok.inj h
    rfl
  | history =>
    obtain ⟨⟨_, _⟩, -, h⟩ := bind_eq_ok h
    obtain rfl := Except.ok.inj h
    rfl
  | getConfig =>
    obtain ⟨_, -, h⟩ := bind_eq_ok h
    obtain ⟨_, -, h⟩ := bind_eq_ok h
    obtain rfl := Except.ok.inj h
    rfl

end Site

/-! ### The dashboard's cookie -/

/-- `AUTH_COOKIE`. -/
def authCookie : String := "rorch_token"

/-- A visit of the dashboard with `?token=`, which is converted into a cookie. -/
def Request.asksCookie (r : Request) : ReadRoute → Bool
  | .dashboard => (r.arg "token").getD "" ≠ ""
  | _ => false

namespace Deps

variable (d : Deps)

/-- A read endpoint, once the request may proceed. -/
def readView (w : World) (docker : DockerAnswers) (clock : Clock) (r : Request)
    (route : ReadRoute) : Except PyError Response := do
  let response ← d.page w docker clock r route
  if d.token ≠ "" ∧ r.asksCookie route then
    return { response with cookies := response.cookies ++ [(authCookie, d.token)] }
  return response

variable {d} {w : World} {docker : DockerAnswers} {clock : Clock} {r : Request} {route : ReadRoute}
  {response : Response}

/-- **What an endpoint answers**, apart from the visits that get a cookie. -/
theorem readView_eq (h : r.asksCookie route = false) :
    d.readView w docker clock r route = d.page w docker clock r route := by
  unfold readView
  cases d.page w docker clock r route with
  | error error => rfl
  | ok response => simp [h]

/-- A visit of the dashboard with a token in the query hands out the control token. -/
theorem readView_dashboard (hT : d.token ≠ "") (h : r.asksCookie .dashboard = true) :
    d.readView w docker clock r .dashboard =
      .ok ⟨200, [("Content-Type", "text/html")], [(authCookie, d.token)], d.dashboardHtml⟩ := by
  unfold readView
  simp [Site.page, textAnswer, hT, h]

end Deps

end RunnerSwarm
