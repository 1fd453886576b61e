import RunnerSwarm.Lib.Program
import RunnerSwarm.Server.Payloads

/-!
# Control endpoints

Stop and protect containers, pause and scale pools, edit the configuration. A handler is a program
over the `World`: each call of the store or of Docker is one of its calls, so that the handlers can
be interleaved as well as run on their own.

A body is any JSON object. `int` and `float` of a value may raise; a handler answers 400 for a
`TypeError` or a `ValueError` where it catches them, and any other exception ends the request.
-/

namespace RunnerSwarm

/-- A part of a handler. -/
abbrev Control (α : Type) := Program World PyError α

/-- The dict a handler returns, with its status. -/
structure Reply where
  body : List (String × Json)
  status : ℕ

/-- `jsonify(error=…), status`. -/
def refusal (message : String) (status : ℕ) : Reply := ⟨[("error", .str message)], status⟩

/-! ### Calls of the store and of Docker -/

def readStore {α : Type} (f : Store → α) : Control α := .get fun w => f w.store

def writeStore (f : Store → Store) : Control Unit := .set fun w => { w with store := f w.store }

/-- `store.pool_overrides()`. -/
def poolOverrides : Control (List (String × OverrideEntry)) := do
  let rows ← readStore (·.poolOverrides.rows)
  .ofExcept (readOverrides rows)

/-- `resolver.resolve()`, which reads the tables one after the other. -/
def Site.resolve (site : Site) : Control EffectiveConfig := do
  let overrides ← readStore (·.poolOverrides)
  let globals ← readStore (·.globalOverrides)
  let states ← readStore (·.poolState)
  let isProtected ← readStore (·.protectedContainers)
  .ofExcept (site.resolver.resolve ⟨overrides, globals, states, isProtected⟩)

/-- `_pool_of`. -/
def poolOf (container : String) : String :=
  let parts := container.toList.splitOn '-'
  if 3 < parts.length then
    String.ofList (List.intercalate ['-'] ((parts.drop 2).dropLast))
  else ""

/-- `docker.stop_container`. -/
def dockerStop (site : Site) (docker : DockerAnswers) (now : ℚ) (name : String) : Control Bool := do
  if docker.rmCode = 0 then
    .set fun w => { w with containers := w.containers.filter (·.name ≠ name) }
    writeStore (·.recordEvent now eventManualStop name (poolOf name) "")
    return true
  let containers ← .get (·.containers)
  let running := (containerDetails site.nameFilter docker containers (beforeLastDash name)).map
    (·.name)
  return stopContainer name docker.rmCode ⟨running, 0⟩

/-- `docker.spawn_runner`. -/
def dockerSpawn (docker : DockerAnswers) (now : ℚ) (pool : PoolConfig) : Control Bool :=
  match docker.spawn with
  | .started container => do
      .set fun w => { w with containers := w.containers ++ [container] }
      writeStore (·.recordEvent now eventSpawn container.name pool.name pool.display)
      return true
  | .failed container reason => do
      writeStore (·.recordEvent now eventSpawnFailed container pool.name reason)
      return false
  | .raised error => .fail error

/-- The first of the candidates with the most minutes. -/
def oldest (candidates : List ContainerInfo) : Option ContainerInfo :=
  candidates.foldl (fun best info => match best with
    | none => some info
    | some b => if b.minutes.lt info.minutes then some info else some b) none

/-- `_idle_container`: the oldest idle runner of a pool. -/
def idleContainer (site : Site) (docker : DockerAnswers) (pool : PoolConfig) :
    Control (Option String) := do
  let store ← readStore id
  let containers ← .get (·.containers)
  let details := containerDetails site.nameFilter docker containers pool.containerPrefix
  return (oldest (details.filter fun info => !store.isBusy info.name)).map (·.name)

/-! ### Definitions of pools -/

/-- `GLOBAL_KEYS`. -/
def globalKeys : List String := ["max_total_runners", "max_runner_lifetime", "paused"]

/-- `unknown_fields`. -/
def unknownFields (data : List (String × Json)) (allowIdentity : Bool) : List String :=
  let allowed := tunableFields ++ if allowIdentity then identityFields ++ ["pat_env"] else []
  ((data.map Prod.fst).filter (· ∉ allowed)).insertionSort (· ≤ ·)

def FieldValue.json : FieldValue → Json
  | .int n => .int n
  | .float x => .float x
  | .str s => .str s

/-- `d[key] = value`. -/
def setItem (kvs : List (String × Json)) (kv : String × Json) : List (String × Json) :=
  if kv.1 ∈ kvs.map Prod.fst then kvs.map fun old => if old.1 = kv.1 then kv else old
  else kvs ++ [kv]

/-- `dict(data)`; of what is not a dict, it takes an empty sequence. -/
def dictOf : Json → Except PyError (List (String × Json))
  | .dict kvs => .ok kvs
  | .list [] => .ok []
  | .str "" => .ok []
  | _ => .error .typeError

/-- The fields of `PoolConfig` that only `config.yml` sets; a string counts as true when it is not
empty. -/
def PoolConfig.setFixed (p : PoolConfig) (field : String × FieldValue) : PoolConfig :=
  match field with
  | ("instance", .str s) => { p with «instance» := s }
  | ("include_public_repos", .str s) => { p with includePublicRepos := s ≠ "" }
  | ("job_started_hook", .str s) => { p with jobStartedHook := s }
  | ("provider", .str s) => { p with provider := s }
  | ("base_url", .str s) => { p with baseUrl := s }
  | _ => p

/-- The keywords `PoolConfig` takes besides `name` and `pat`. -/
def poolKeywords : List String :=
  ["owner", "repo", "scope"] ++ tunableFields ++
    ["instance", "include_public_repos", "job_started_hook", "provider", "base_url"]

/-- `PoolConfig(name=name, pat=pat, **fields)` with any fields, `none` for a `TypeError`. -/
def constructCandidate (name pat : String) (fields : List (String × FieldValue)) :
    Option PoolConfig :=
  if ∀ f ∈ fields, f.1 ∈ poolKeywords then
    (constructPool name pat fields).map fun p => fields.foldl PoolConfig.setFixed p
  else none

/-- `_candidate_pool`: the pool an override would produce, for validation before saving. -/
def candidatePool (resolver : ConfigResolver) (name : String) (data : List (String × Json))
    (origin : String) : Except PyError (Option PoolConfig) :=
  if origin = "ui" then do
    let pat ← resolver.environ (patEnv data)
    if pat = "" then return none
    let fields ← coercePoolFields (data.filter fun kv => kv.1 ≠ "pat_env")
    return constructCandidate name pat (fields.filter fun f => f.1 ≠ "name")
  else
    match resolver.basePools.find? (·.name = name) with
    | none => .ok none
    | some base => some <$> applyOverride base (.dict data)

/-! ### Handlers -/

namespace Site

variable (site : Site) (docker : DockerAnswers) (clock : Clock) (r : Request) (name : String)

/-- `store.audit(_actor(), …)`. -/
def recordAudit (action target detail : String) : Control Unit :=
  writeStore (·.audit clock.served r.actorName action target detail)

/-- `_pool_by_name`. -/
def poolByName : Control (Option PoolConfig) := do
  let effective ← site.resolve
  return effective.pools.find? (·.name = name)

/-- `_stop`. -/
def stop (action : String) : Control Reply := do
  if !isRunnerContainer name then return refusal "not a runner container" 400
  let busy ← readStore (·.isBusy name)
  if busy && !(getItem r.jsonBody "confirm").elim false pyBool then
    return ⟨[("error", .str "runner is busy — resend with confirm=true to abort its job"),
      ("busy", .bool true)], 409⟩
  let ok ← dockerStop site docker clock.served name
  let reason := (getItem r.jsonBody "reason").elim "" pyStr
  recordAudit clock r action name ("busy=" ++ strOfBool busy ++ " reason=" ++ reason)
  return ⟨[("container", .str name), ("action", .str action), ("ok", .bool ok),
    ("was_busy", .bool busy)], 200⟩

def stopContainer : Control Reply := site.stop docker clock r name "stop"

/-- Runners are ephemeral: the next tick provisions a replacement. -/
def restartContainer : Control Reply := site.stop docker clock r name "restart"

def protectContainer : Control Reply := do
  if !isRunnerContainer name then return refusal "not a runner container" 400
  let isProtected := (getItem r.jsonBody "protected").elim true pyBool
  writeStore (·.setProtected name isProtected)
  recordAudit clock r (if isProtected then "protect" else "unprotect") name ""
  return ⟨[("container", .str name), ("protected", .bool isProtected)], 200⟩

def setPoolState : Control Reply := do
  match ← site.poolByName name with
  | none => return refusal ("unknown pool '" ++ name ++ "'") 404
  | some _ =>
      let effective ← site.resolve
      let current := effective.stateFor name
      let paused := (getItem r.jsonBody "paused").elim current.paused pyBool
      let draining := (getItem r.jsonBody "draining").elim current.draining pyBool
      writeStore (·.setPoolState name paused draining)
      recordAudit clock r "pool_state" name
        ("paused=" ++ strOfBool paused ++ " draining=" ++ strOfBool draining)
      return ⟨[("pool", .str name), ("paused", .bool paused), ("draining", .bool draining)], 200⟩

/-- `int(body.get("delta", 0))`, `none` where the handler answers that it is no integer. -/
def scaleDelta : Except PyError (Option ℤ) :=
  match pyInt ((getItem r.jsonBody "delta").getD (.int 0)) with
  | .ok n => .ok (some n)
  | .error .typeError => .ok none
  | .error .valueError => .ok none
  | .error e => .error e

def scalePool : Control Reply := do
  match ← site.poolByName name with
  | none => return refusal ("unknown pool '" ++ name ++ "'") 404
  | some pool =>
      match ← (.ofExcept (scaleDelta r) : Control (Option ℤ)) with
      | none => return refusal "delta must be an integer" 400
      | some delta =>
          if delta ≠ -1 ∧ delta ≠ 1 then return refusal "delta must be -1 or 1" 400
          if 0 < delta then
            let ok ← dockerSpawn docker clock.served pool
            recordAudit clock r "scale_up" name "manual +1"
            return ⟨[("pool", .str name), ("spawned", .bool ok)], if ok then 200 else 502⟩
          match ← idleContainer site docker pool with
          | none => return refusal "no idle runner to remove" 409
          | some victim =>
              let ok ← dockerStop site docker clock.served victim
              recordAudit clock r "scale_down" name ("stopped " ++ victim)
              return ⟨[("pool", .str name), ("stopped", .str victim), ("ok", .bool ok)], 200⟩

def globalPause : Control Reply := do
  let paused := (getItem r.jsonBody "paused").elim true pyBool
  writeStore (·.setGlobal "paused" (if paused then "1" else "0"))
  recordAudit clock r "global_pause" "" (strOfBool paused)
  return ⟨[("paused", .bool paused)], 200⟩

/-- The pool of `config.yml` with a name. -/
def basePool : Option PoolConfig := site.resolver.basePools.find? (·.name = name)

/-- `merged.update(coerce_pool_fields(body))`, `none` where the handler answers 400. -/
def mergeFields (data body : List (String × Json)) : Except PyError (Option (List (String × Json))) :=
  match coercePoolFields body with
  | .ok fields => .ok (some ((fields.map fun f => (f.1, f.2.json)).foldl setItem data))
  | .error .typeError => .ok none
  | .error .valueError => .ok none
  | .error e => .error e

/-- From the candidate on: check it, and store its definition. -/
def accept (data : List (String × Json)) (origin unusable : String) (action detail : String)
    (reply : Reply) : Control Reply := do
  match ← (.ofExcept (candidatePool site.resolver name data origin) :
      Control (Option PoolConfig)) with
  | none => return refusal unusable 400
  | some candidate =>
      let errors ← .ofExcept (validationErrors [candidate])
      if errors ≠ [] then return refusal ("; ".intercalate errors) 400
      writeStore (·.setPoolOverride name (.dict data) origin false)
      recordAudit clock r action name detail
      return reply

def patchPool : Control Reply := do
  let body := r.jsonBody
  let rejected := unknownFields body false
  if rejected ≠ [] then return refusal ("not editable: " ++ ", ".intercalate rejected) 400
  let overrides ← poolOverrides
  let existing := entryFor name overrides
  if site.basePool name = none ∧ (existing.elim "" (·.origin)) ≠ "ui" then
    return refusal ("unknown pool '" ++ name ++ "'") 404
  let data ← .ofExcept (existing.elim (.ok []) fun entry => dictOf entry.data)
  match ← (.ofExcept (mergeFields data body) : Control (Option (List (String × Json)))) with
  | none => return refusal ("invalid value: " ++ site.errorText body) 400
  | some merged =>
      site.accept clock r name merged (existing.elim "yaml" (·.origin))
        "override does not produce a usable pool" "config_patch" (jsonDumps (.dict body))
        ⟨[("pool", .str name), ("overrides", .dict merged)], 200⟩

/-- Drop the override row so the pool reverts to its `config.yml` definition. -/
def resetPool : Control Reply := do
  if site.basePool name = none then
    return refusal ("'" ++ name ++ "' has no config.yml definition to revert to") 404
  writeStore (·.deletePoolOverride name)
  recordAudit clock r "config_reset" name ""
  return ⟨[("pool", .str name), ("reset", .bool true)], 200⟩

/-- `str(body.pop("name", "")).strip()`. -/
def createdName : String := strip ((getItem r.jsonBody "name").elim "" pyStr)

/-- The body without its name. -/
def createdData : List (String × Json) := r.jsonBody.filter fun kv => kv.1 ≠ "name"

def createPool : Control Reply := do
  let name := createdName r
  if name = "" then return refusal "name is required" 400
  let data := createdData r
  let rejected := unknownFields data true
  if rejected ≠ [] then return refusal ("not accepted: " ++ ", ".intercalate rejected) 400
  match ← site.poolByName name with
  | some _ => return refusal ("pool '" ++ name ++ "' already exists") 409
  | none =>
      site.accept clock r name data "ui"
        "pool definition is unusable (is its PAT env var set?)" "config_create_pool" ""
        ⟨[("pool", .str name), ("created", .bool true)], 201⟩

def removePool : Control Reply := do
  let overrides ← poolOverrides
  let existing := entryFor name overrides
  let reply : Reply := ⟨[("pool", .str name), ("removed", .bool true)], 200⟩
  if existing.elim "" (·.origin) = "ui" then
    writeStore (·.deletePoolOverride name)
    recordAudit clock r "config_remove_pool" name ""
    return reply
  -- A pool of `config.yml` can only be switched off: without the row it would come back.
  if site.basePool name ≠ none then
    let data := existing.elim (.dict []) (·.data)
    writeStore (·.setPoolOverride name data "yaml" true)
    recordAudit clock r "config_remove_pool" name ""
    return reply
  return refusal ("unknown pool '" ++ name ++ "'") 404

/-- The loop over the items of the body; it ends with the answer to the first bad value. -/
def setGlobals : List (String × Json) → Control (Option Reply)
  | [] => return none
  | (key, value) :: rest =>
      if key = "paused" then do
        writeStore (·.setGlobal key (if pyBool value then "1" else "0"))
        setGlobals rest
      else
        match pyInt value with
        | .error .typeError => return some (refusal (key ++ " must be an integer") 400)
        | .error .valueError => return some (refusal (key ++ " must be an integer") 400)
        | .error e => .fail e
        | .ok number =>
            if number < 0 then return some (refusal (key ++ " cannot be negative") 400)
            else do
              let text ← .ofExcept (strOfInt number)
              writeStore (·.setGlobal key text)
              setGlobals rest

def patchGlobals : Control Reply := do
  let body := r.jsonBody
  let rejected := ((body.map Prod.fst).filter (· ∉ globalKeys)).insertionSort (· ≤ ·)
  if rejected ≠ [] then return refusal ("not editable: " ++ ", ".intercalate rejected) 400
  match ← setGlobals body with
  | some answer => return answer
  | none =>
      recordAudit clock r "config_globals" "" (jsonDumps (.dict body))
      let effective ← site.resolve
      return ⟨[("max_total_runners", .int effective.maxTotalRunners),
        ("max_runner_lifetime", .int effective.maxRunnerLifetime),
        ("paused", .bool effective.paused)], 200⟩

end Site

/-! ### Routes -/

/-- The endpoints that need write access. -/
inductive ControlRoute
  | stopContainer (name : String)
  | restartContainer (name : String)
  | protectContainer (name : String)
  | setPoolState (name : String)
  | scalePool (name : String)
  | globalPause
  | patchPool (name : String)
  | resetPool (name : String)
  | createPool
  | removePool (name : String)
  | patchGlobals
  deriving DecidableEq

namespace Site

variable (site : Site) (docker : DockerAnswers) (clock : Clock) (r : Request)

/-- The handler of an endpoint. -/
def handler : ControlRoute → Control Reply
  | .stopContainer name => site.stopContainer docker clock r name
  | .restartContainer name => site.restartContainer docker clock r name
  | .protectContainer name => protectContainer clock r name
  | .setPoolState name => site.setPoolState clock r name
  | .scalePool name => site.scalePool docker clock r name
  | .globalPause => globalPause clock r
  | .patchPool name => site.patchPool clock r name
  | .resetPool name => site.resetPool clock r name
  | .createPool => site.createPool clock r
  | .removePool name => site.removePool clock r name
  | .patchGlobals => site.patchGlobals clock r

/-- The endpoints under `idempotent`. -/
def isIdempotent : ControlRoute → Bool
  | .stopContainer _ | .restartContainer _ | .scalePool _ => true
  | _ => false

/-- The response to a reply. -/
def respond (reply : Reply) : Response := site.answer reply.body reply.status

end Site

end RunnerSwarm
