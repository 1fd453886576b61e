import RunnerSwarm.Config.Resolver
import RunnerSwarm.Federation.Split

/-!
# Snapshots

What a host publishes for its peers, and what a peer makes of it. `buildSnapshot` puts the metrics
of the host and the counts of its pools together, `Snapshot.jsonify` is the response, and
`validateSnapshot` rebuilds a snapshot from the fields it checks. `slotFor` reads a host's standing
for one pool from either.

`Daemon.snapshot` is the snapshot `_refresh_federation` publishes.
-/

namespace RunnerSwarm

/-! ### The data -/

/-- What a snapshot says about a pool. -/
structure PoolCounts where
  running : ℤ
  busy : ℤ
  maxRunners : ℤ
  deriving DecidableEq

/-- What this host has free. `load1` is a finite float. -/
structure HostMetrics where
  cores : ℤ
  cpuCount : ℤ
  load1 : ℚ
  memTotalMb : ℤ
  memAvailableMb : ℤ
  tempC : Option ℚ

/-- `free_cores`. -/
def HostMetrics.freeCores (ρ : Rounding) (m : HostMetrics) : ℤ :=
  let busyShare := if m.cpuCount ≠ 0 then ρ.round (m.load1 / m.cpuCount) else 1
  ⌊ρ.round (m.cores * max 0 (ρ.round (1 - busyShare)))⌋

/-- The `host` object of a snapshot. -/
structure HostState where
  cores : ℤ
  cpuCount : ℤ
  load1 : ℚ
  memTotalMb : ℤ
  memAvailableMb : ℤ
  tempC : Option ℚ
  freeCores : ℤ

/-- `as_dict`. -/
def HostMetrics.asDict (ρ : Rounding) (m : HostMetrics) : HostState where
  cores := m.cores
  cpuCount := m.cpuCount
  load1 := m.load1
  memTotalMb := m.memTotalMb
  memAvailableMb := m.memAvailableMb
  tempC := m.tempC
  freeCores := m.freeCores ρ

structure Snapshot where
  instanceName : String
  version : String
  ts : ℚ
  host : HostState
  pools : Table String PoolCounts
  globalFree : Option ℤ

/-- `build_snapshot`. -/
def buildSnapshot (ρ : Rounding) (instanceName version : String) (ts : ℚ) (metrics : HostMetrics)
    (pools : Table String PoolCounts) (globalFree : Option ℤ) : Snapshot where
  instanceName := instanceName
  version := version
  ts := ts
  host := metrics.asDict ρ
  pools := pools
  globalFree := globalFree

/-- `slot_for`; `none` for a host that does not run the pool. -/
def slotFor (s : Snapshot) (pool : String) (maxTempC : PyFloat) : Option Slot :=
  match s.pools.get pool with
  | none => none
  | some counts =>
      let hot := match s.host.tempC with
        | none => false
        | some temp => maxTempC.le (.finite temp)
      let capacity := counts.maxRunners - counts.busy
      let capacity := match s.globalFree with
        | none => capacity
        | some globalFree => min capacity (globalFree + counts.running - counts.busy)
      some ⟨s.instanceName, s.host.freeCores, if hot then 0 else capacity.toNat⟩

/-! ### The response -/

def PoolCounts.toJson (c : PoolCounts) : Json :=
  .dict [("busy", .int c.busy), ("max_runners", .int c.maxRunners), ("running", .int c.running)]

/-- The items of the `host` object. -/
def HostState.items (h : HostState) : List (String × Json) :=
  [("cores", .int h.cores), ("cpu_count", .int h.cpuCount), ("free_cores", .int h.freeCores),
    ("load1", .float (.finite h.load1)), ("mem_available_mb", .int h.memAvailableMb),
    ("mem_total_mb", .int h.memTotalMb),
    ("temp_c", h.tempC.elim .null fun t => .float (.finite t))]

/-- The pools in the order of their names. -/
def Snapshot.sortedPools (s : Snapshot) : List (String × PoolCounts) :=
  s.pools.rows.insertionSort fun a b => a.1 ≤ b.1

/-- The items of the `pools` object. -/
def Snapshot.poolItems (s : Snapshot) : List (String × Json) :=
  s.sortedPools.map fun row => (row.1, row.2.toJson)

/-- The items of the response. -/
def Snapshot.items (s : Snapshot) : List (String × Json) :=
  [("global_free", s.globalFree.elim .null .int), ("host", .dict s.host.items),
    ("instance", .str s.instanceName), ("pools", .dict s.poolItems), ("ts", .float (.finite s.ts)),
    ("version", .str s.version)]

/-- `jsonify`, which sorts the keys. -/
def Snapshot.jsonify (s : Snapshot) : Json := .dict s.items

/-- The bytes `fetch_snapshot` reads of a response. -/
def fetchLimit : ℕ := 256 * 1024

/-- `fetch_snapshot` of a published object. A longer text is cut off before its last brace, and
then it is no JSON. -/
def fetchSnapshot (published : Json) : Except PyError Json :=
  if (jsonText published).length ≤ fetchLimit then .ok published else .error .valueError

/-! ### Validation -/

/-- `MAX_COUNT`. -/
def maxCount : ℤ := 1000

/-- `MAX_CORES`. -/
def maxCores : ℤ := 1024

/-- The end of `_number`. -/
def inRange (value low high : ℚ) (what : String) : Except String ℚ :=
  if low ≤ value ∧ value ≤ high then .ok value else .error (what ++ " out of range")

/-- `_number` of `d.get(…)`. `math.isfinite` of a huge int raises. -/
def number (value : Option Json) (low high : ℚ) (what : String) : Except String ℚ :=
  match value with
  | some (.int n) =>
      if roundFloat n = .finite n then inRange n low high what
      else .error "int too large to convert to float"
  | some (.float (.finite q)) => inRange q low high what
  | some (.float _) => .error (what ++ " out of range")
  | _ => .error (what ++ " is not a number")

/-- `None if value is None else _number(value, …)`. -/
def optionalNumber (value : Option Json) (low high : ℚ) (what : String) :
    Except String (Option ℚ) :=
  match value with
  | none => .ok none
  | some .null => .ok none
  | value => some <$> number value low high what

/-- `_NAME_RE.fullmatch(s)`, the pattern being `[a-z0-9][a-z0-9-]*`. -/
def isPeerName (s : String) : Bool :=
  match s.toList with
  | [] => false
  | c :: rest => (c.isLower || c.isDigit) && rest.all fun c => c.isLower || c.isDigit || c = '-'

/-- The counts of one pool. -/
def validateCounts (name : String) : Json → Except String PoolCounts
  | .dict counts => do
      let running ← number (getItem counts "running") 0 maxCount (name ++ ".running")
      let busy ← number (getItem counts "busy") 0 maxCount (name ++ ".busy")
      let maxRunners ← number (getItem counts "max_runners") 0 maxCount (name ++ ".max_runners")
      return ⟨truncate running, truncate busy, truncate maxRunners⟩
  | _ => .error "bad pool entry"

/-- The body of the loop over the pools. -/
def validatePool (clean : Table String PoolCounts) (item : String × Json) :
    Except String (Table String PoolCounts) := do
  if 200 < item.1.length then throw "bad pool entry"
  let counts ← validateCounts item.1 item.2
  return clean.put item.1 counts

/-- The `host` object. -/
def validateHost (host : List (String × Json)) : Except String HostState := do
  let cores ← number (getItem host "cores") 1 maxCores "cores"
  let cpuCount ← number (getItem host "cpu_count") 1 maxCores "cpu_count"
  let load1 ← number (getItem host "load1") 0 100000 "load1"
  let memTotalMb ← number (getItem host "mem_total_mb") 0 (2 ^ 30) "mem_total_mb"
  let memAvailableMb ← number (getItem host "mem_available_mb") 0 (2 ^ 30) "mem_available_mb"
  let tempC ← optionalNumber (getItem host "temp_c") (-50) 150 "temp_c"
  let freeCores ← number (getItem host "free_cores") 0 maxCores "free_cores"
  return {
    cores := truncate cores
    cpuCount := truncate cpuCount
    load1 := load1
    memTotalMb := truncate memTotalMb
    memAvailableMb := truncate memAvailableMb
    tempC := tempC
    freeCores := truncate freeCores }

/-- `validate_snapshot` once the objects are there. -/
def validateParts (data host pools : List (String × Json)) (instanceName : String) :
    Except String Snapshot := do
  let clean ← pools.foldlM validatePool Table.empty
  let ts ← number (some ((getItem data "ts").getD (.int 0))) 0 (10 ^ 11) "ts"
  let host ← validateHost host
  let globalFree ← optionalNumber (getItem data "global_free") 0 maxCount "global_free"
  return {
    instanceName := instanceName
    version := String.ofList (((getItem data "version").elim "" pyStr).toList.take 64)
    ts := ts
    host := host
    pools := clean
    globalFree := globalFree.map truncate }

/-- `validate_snapshot`. -/
def validateSnapshot : Json → Except String Snapshot
  | .dict data =>
      match getItem data "instance" with
      | some (.str instanceName) =>
          if instanceName = "" ∨ isPeerName instanceName = true then
            match getItem data "host", getItem data "pools" with
            | some (.dict host), some (.dict pools) =>
                if maxCount < pools.length then .error "host or pools missing"
                else validateParts data host pools instanceName
            | _, _ => .error "host or pools missing"
          else .error "bad instance"
      | _ => .error "bad instance"
  | _ => .error "snapshot is not an object"

/-! ### What the daemon publishes -/

/-- What `_refresh_federation` reads. -/
structure Daemon where
  /-- The pools of `config.yml`. -/
  pools : List PoolConfig
  effective : EffectiveConfig
  /-- `pool_counts()`. -/
  counts : Table String PoolCounts
  /-- The containers the global listing shows. -/
  running : List String
  version : String
  ts : ℚ
  metrics : HostMetrics

namespace Daemon

variable (d : Daemon)

def instanceName : String := (d.pools.head?.map (·.instance)).getD ""

/-- The counts of the pools that are no personal ones. -/
def publishedPools : Table String PoolCounts :=
  d.effective.pools.foldl (fun pools p =>
    if p.isPersonalLevel then pools
    else match d.counts.get p.name with
      | none => pools
      | some counts => pools.put p.name counts) Table.empty

/-- The free slots below the global cap, `none` without a cap. -/
def globalFree : Option ℤ :=
  if d.effective.maxTotalRunners = 0 then none
  else some (max 0 (d.effective.maxTotalRunners - d.running.length))

/-- The snapshot of this tick. -/
def snapshot (ρ : Rounding) : Snapshot :=
  buildSnapshot ρ d.instanceName d.version d.ts d.metrics d.publishedPools d.globalFree

end Daemon

end RunnerSwarm
