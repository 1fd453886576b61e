import Mathlib
import RunnerSwarm.Docker.Client
import RunnerSwarm.Store.History

/-!
# What the request handlers reach for

Requests, responses, the wired dependencies and the helpers that read a request.

* `Request` is what the handlers read of one: its path is the list of its segments, and `body` the
  parsed JSON, `none` when there is none;
* `World` is everything a handler can read or change: the store, the containers, the keys of
  idempotent requests that are being served, and what the two injected callables return;
* `DockerAnswers` is what the Docker commands of one request give, and `Clock` the times it reads;
* `Site` is fixed while the server runs. Flask, werkzeug and PyYAML are third-party: how they write a
  document and what they answer themselves are functions here.

`TokenGuard` locks a client out after repeated bad tokens.
-/

namespace RunnerSwarm

/-! ### Requests and responses -/

inductive Method
  | get
  | head
  | post
  | patch
  | delete
  | other
  deriving DecidableEq

structure Request where
  method : Method
  path : List String
  args : List (String × String) := []
  authorization : Option String := none
  /-- The cookie `rorch_token`. -/
  cookie : Option String := none
  /-- The header `X-Actor`. -/
  actor : Option String := none
  idempotencyKey : Option String := none
  body : Option Json := none
  remoteAddr : Option String := none

structure Response where
  status : ℕ
  headers : List (String × String)
  cookies : List (String × String)
  body : String
  deriving DecidableEq

namespace Request

variable (r : Request)

/-- `request.args.get(key)`. -/
def arg (key : String) : Option String := (r.args.find? fun kv => kv.1 = key).map Prod.snd

/-- `_actor`. -/
def actorName : String := r.actor.getD (r.remoteAddr.getD "unknown")

/-- `_client`. -/
def client : String := r.remoteAddr.getD "unknown"

/-- `_json_body`. -/
def jsonBody : List (String × Json) :=
  match r.body with
  | some (.dict kvs) => kvs
  | _ => []

/-- `_limit`. -/
def limit (default : ℕ) (param : String) : ℕ :=
  match r.arg param with
  | none => max 1 (min default 5000)
  | some text =>
      match intOfString text with
      | none => default
      | some n => (max 1 (min n 5000)).toNat

theorem limit_le {default : ℕ} (param : String) (h : default ≤ 5000) :
    r.limit default param ≤ 5000 := by
  unfold limit
  cases r.arg param with
  | none => exact max_le (by norm_num) (min_le_right _ _)
  | some text =>
    dsimp only
    cases intOfString text with
    | none => exact h
    | some n =>
      have hn : max 1 (min n 5000) ≤ (5000 : ℤ) := max_le (by norm_num) (min_le_right _ _)
      dsimp only
      omega

end Request

/-! ### Dependencies -/

/-- `GLOBAL_CONTAINER_PREFIX`. -/
def globalContainerPrefix : String := "gh-runner"

/-- `ORCHESTRATOR_CONTAINER`. -/
def orchestratorContainer : String := "gh-runner-orchestrator"

/-- `_is_runner_container`: nothing outside the runner namespace is operated on. -/
def isRunnerContainer (name : String) : Bool :=
  startsWith name (globalContainerPrefix ++ "-") && name ≠ orchestratorContainer &&
    !name.toList.contains '/' && !hasText name ".."

/-- A container as `docker ps` lists it. -/
structure Container where
  name : String
  image : String
  status : String
  runningFor : String
  running : Bool
  deriving DecidableEq

structure World where
  store : Store
  containers : List Container
  inFlight : List String
  rateLimit : List (String × Json)
  hostState : List (String × Json)

/-- How `spawn_runner` ends: with a new container, or with a failure it records. -/
inductive SpawnResult
  | started (container : Container)
  | failed (container reason : String)
  | raised (error : PyError)

structure DockerAnswers where
  psFails : Bool := false
  /-- `docker logs`. -/
  logs : String := ""
  /-- The exit code of `docker rm`. -/
  rmCode : ℕ := 0
  spawn : SpawnResult := .failed "" ""

/-- The readings of `time.time()`: when the guard is asked, for what it records or refuses, and in
the view. -/
structure Clock where
  judged : ℚ
  recorded : ℚ
  served : ℚ

structure Site where
  resolver : ConfigResolver
  /-- `get_version()`. -/
  version : String
  dashboardHtml : String
  nameFilter : NameFilter
  jsonify : Json → String
  /-- `yaml.safe_dump(…, sort_keys=False)`. -/
  safeDump : Json → String
  /-- `str(error)` for what `coerce_pool_fields` raises on these fields. -/
  errorText : List (String × Json) → String
  /-- The answer when no route takes the request: 404, 405, a redirect, the options. -/
  unrouted : Request → Response
  /-- The answer when a view raises. -/
  internalError : Response
  /-- The headers that are added to any response. -/
  serverHeaders : ℕ → String → List (String × String)

/-- The dependencies with the two tokens. -/
structure Deps extends Site where
  token : String
  readonlyToken : String

/-- A new installation on a database that compares keys in this way. -/
def World.new (weight : String → String) : World where
  store := ⟨⟨Table.empty, Table.empty, Table.empty, []⟩, weight, [], [], [], Table.empty,
    Table.empty, Table.empty⟩
  containers := []
  inFlight := []
  rateLimit := []
  hostState := []

/-- A new installation on SQLite. -/
def World.empty : World := .new id

/-- A server for some pools, with short pages, where `GITHUB_PAT` alone is set. -/
def plainSite (pools : List PoolConfig) : Site where
  resolver := ⟨pools, 0, 0, fun key => .ok (if key = "GITHUB_PAT" then "ghp" else "")⟩
  version := "1.0.0"
  dashboardHtml := "<html></html>"
  nameFilter := ⟨fun p n => dotPrefix (p.toList ++ ['-']) n.toList, dotPrefix_spec⟩
  jsonify := fun document => String.ofList (jsonText document ++ ['\n'])
  safeDump := fun _ => ""
  errorText := fun _ => ""
  unrouted := fun _ => ⟨404, [], [], "Not Found"⟩
  internalError := ⟨500, [], [], "Internal Server Error"⟩
  serverHeaders := fun _ _ => [("Server", "waitress")]

/-- A response that `jsonify` makes. -/
def Site.answer (site : Site) (items : List (String × Json)) (status : ℕ) : Response :=
  ⟨status, [("Content-Type", "application/json")], [], site.jsonify (.dict items)⟩

/-- A text response with its `mimetype`. -/
def textAnswer (mimetype text : String) : Response := ⟨200, [("Content-Type", mimetype)], [], text⟩

/-! ### Containers -/

/-- What the dashboard shows of a container. -/
structure ContainerInfo where
  name : String
  image : String
  status : String
  runningFor : String
  minutes : PyFloat

/-- `_parse_running_minutes(…) or 0.0`. -/
def runningMinutes (runningFor : String) : PyFloat := (parseRunningMinutes runningFor).getD (.finite 0)

/-- `container_details`: the running containers of a prefix, none when `docker ps` fails. -/
def containerDetails (F : NameFilter) (docker : DockerAnswers) (containers : List Container)
    (start : String) : List ContainerInfo :=
  if docker.psFails then []
  else (containers.filter fun c => c.running && F.selects start c.name).map fun c =>
    ⟨c.name, c.image, c.status, c.runningFor, runningMinutes c.runningFor⟩

/-! ### The guard -/

/-- `TokenGuard`: for each client how many bad tokens it sent in a row, and when the last. -/
structure TokenGuard where
  maxFailures : ℕ := 10
  lockoutSeconds : ℚ := 300
  failures : Table String (ℕ × ℚ)

namespace TokenGuard

variable (g : TokenGuard) (client : String) (now : ℚ)

/-- `self._failures.pop(client, None)`. -/
def forget : TokenGuard := { g with failures := g.failures.deleteWhere fun key _ => key = client }

/-- `locked_until`: 0 when the client is not locked out; an expired lock is dropped. -/
def lockedUntil : ℚ × TokenGuard :=
  let (count, last) := (g.failures.get client).getD (0, 0)
  if count < g.maxFailures then (0, g)
  else if last + g.lockoutSeconds ≤ now then (0, g.forget client)
  else (last + g.lockoutSeconds, g)

/-- `record_failure`. -/
def recordFailure : TokenGuard :=
  let (count, _) := (g.failures.get client).getD (0, 0)
  { g with failures := g.failures.put client (count + 1, now) }

/-- `record_success`. -/
def recordSuccess : TokenGuard := g.forget client

/-- **A lock ends** `lockout_seconds` after the last bad token. -/
theorem lockedUntil_eq_zero (hmax : 0 < g.maxFailures) (h : ∀ entry,
    g.failures.get client = some entry → entry.2 + g.lockoutSeconds ≤ now) :
    (g.lockedUntil client now).1 = 0 := by
  unfold lockedUntil
  cases hget : g.failures.get client with
  | none =>
    dsimp only [Option.getD_none]
    rw [if_pos hmax]
  | some entry =>
    dsimp only [Option.getD_some]
    rw [if_pos (h entry hget)]
    split_ifs <;> rfl

/-- After a success the client is not locked out. -/
theorem lockedUntil_recordSuccess (hmax : 0 < g.maxFailures) :
    ((g.recordSuccess client).lockedUntil client now).1 = 0 := by
  refine lockedUntil_eq_zero _ _ _ hmax fun entry hentry => ?_
  simp [recordSuccess, forget, Table.get_deleteWhere] at hentry

end TokenGuard

end RunnerSwarm
