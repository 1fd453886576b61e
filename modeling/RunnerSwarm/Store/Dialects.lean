import RunnerSwarm.Lib.Collation
import RunnerSwarm.Lib.Run
import RunnerSwarm.Config.Resolver
import RunnerSwarm.Server.Idempotency

/-!
# The keyed tables in both dialects

The keyed tables are addressed by strings: pool names, container names, global keys and idempotency
keys. The statements are the same in both dialects, and an upsert sets every column but the key.
What differs is the engine: SQLite compares keys byte by byte, while the MariaDB columns have the
server's default collation, which ignores case and trailing spaces, and their other columns are
bounded.

* `KeyedOp` are the calls of the store, `KeyedTables.call` what an engine makes of one;
* `keyed_alike_iff`: in every sequence of calls both engines return the same and hold the same rows
  exactly when no call names a key that stands under another spelling and every row fits.

Columns no call reads (`updated_at`, `since`) are left out. The dict of `pool_overrides` holds the
text of `data`; both dialects decode it alike.
-/

namespace RunnerSwarm

/-- `KEY_LEN`. -/
def keyLen : ℕ := 191

/-- A string within the length of a key column. -/
abbrev KeyText := { s : String // s.length ≤ keyLen }

/-- The longest text, in bytes, of a `TEXT` column of MariaDB. -/
def maxTextBytes : ℕ := 65535

/-- The columns of `pool_overrides` that are read; `data` is what `json.dumps` wrote. -/
structure OverrideColumns where
  data : String
  origin : String
  disabled : Bool
  deriving DecidableEq

/-- A call of the store that reads or writes a keyed table. -/
inductive KeyedOp
  | poolOverrides
  | setPoolOverride (pool : KeyText) (data origin : String) (disabled : Bool)
  | deletePoolOverride (pool : KeyText)
  | globalOverrides
  | setGlobal (key : KeyText) (value : String)
  | deleteGlobal (key : KeyText)
  | poolStates
  | setPoolState (pool : KeyText) (paused draining : Bool)
  | protectedContainers
  | setProtected (container : KeyText) (isProtected : Bool)
  | idempotentResponse (key : KeyText)
  | rememberResponse (now : ℚ) (key : KeyText) (response : String)
  | pruneIdempotency (now hours : ℚ)

/-- What a call ends with; a dict is a function of its keys. -/
inductive KeyedResult
  | done
  | raised
  | overrides (dict : KeyText → Option OverrideColumns)
  | globals (dict : KeyText → Option String)
  | states (dict : KeyText → Option PoolState)
  | containers (members : KeyText → Option Unit)
  | response (found : Option String)

/-! ### Engines -/

/-- How an engine compares the keys and which rows it takes. -/
structure Engine (ω : Type*) where
  weight : KeyText → ω
  accepts : KeyedOp → Bool

/-- SQLite compares byte by byte, and its columns are not bounded. -/
def sqlite : Engine KeyText := ⟨id, fun _ => true⟩

/-- A text with its ASCII letters in lower case. -/
def foldAscii (s : String) : String := String.ofList (s.toList.map Char.toLower)

/-- The default collation of the server. -/
structure Collation (ω : Type*) where
  weight : String → ω
  ignoresCase : ∀ s t, foldAscii s = foldAscii t → weight s = weight t
  ignoresTrailingSpaces : ∀ s, weight (s ++ " ") = weight s

/-- The row the call writes fits the columns of `_MARIADB_SCHEMA`. -/
def fitsColumns : KeyedOp → Bool
  | .setPoolOverride _ data origin _ => data.utf8ByteSize ≤ maxTextBytes && origin.length ≤ 16
  | .setGlobal _ value => value.utf8ByteSize ≤ maxTextBytes
  | .rememberResponse _ _ response => response.utf8ByteSize ≤ maxTextBytes
  | _ => true

def mariadb {ω : Type*} (C : Collation ω) : Engine ω := ⟨fun key => C.weight key.1, fitsColumns⟩

/-! ### The store -/

structure KeyedTables {ω : Type*} (weight : KeyText → ω) where
  poolOverrides : CollatedTable weight OverrideColumns
  globalOverrides : CollatedTable weight String
  poolState : CollatedTable weight PoolState
  protectedContainers : CollatedTable weight Unit
  idempotency : CollatedTable weight StoredResponse

namespace KeyedTables

variable {ω ω' : Type*}

/-- After the schema was created. -/
def empty {weight : KeyText → ω} : KeyedTables weight where
  poolOverrides := .empty
  globalOverrides := .empty
  poolState := .empty
  protectedContainers := .empty
  idempotency := .empty

variable [DecidableEq ω] [DecidableEq ω']

/-- The statement of a call and its commit. -/
def execute {weight : KeyText → ω} (t : KeyedTables weight) :
    KeyedOp → KeyedTables weight × KeyedResult
  | .poolOverrides => (t, .overrides t.poolOverrides.dict)
  | .setPoolOverride pool data origin disabled =>
      ({ t with poolOverrides := t.poolOverrides.put pool ⟨data, origin, disabled⟩ }, .done)
  | .deletePoolOverride pool => ({ t with poolOverrides := t.poolOverrides.erase pool }, .done)
  | .globalOverrides => (t, .globals t.globalOverrides.dict)
  | .setGlobal key value => ({ t with globalOverrides := t.globalOverrides.put key value }, .done)
  | .deleteGlobal key => ({ t with globalOverrides := t.globalOverrides.erase key }, .done)
  | .poolStates => (t, .states t.poolState.dict)
  | .setPoolState pool paused draining =>
      ({ t with poolState := t.poolState.put pool ⟨paused, draining⟩ }, .done)
  | .protectedContainers => (t, .containers t.protectedContainers.dict)
  | .setProtected container isProtected =>
      if isProtected then
        ({ t with protectedContainers := t.protectedContainers.put container () }, .done)
      else ({ t with protectedContainers := t.protectedContainers.erase container }, .done)
  | .idempotentResponse key => (t, .response ((t.idempotency.get key).map (·.response)))
  | .rememberResponse now key response =>
      ({ t with idempotency := t.idempotency.put key ⟨response, now⟩ }, .done)
  | .pruneIdempotency now hours =>
      ({ t with idempotency := t.idempotency.deleteWhere fun row => row.ts < now - hours * 3600 },
        .done)

/-- A call; a row that does not fit is refused with an exception. -/
def call (E : Engine ω) (t : KeyedTables E.weight) (op : KeyedOp) :
    KeyedTables E.weight × KeyedResult :=
  if E.accepts op then t.execute op else (t, .raised)

/-- The tables after a sequence of calls. -/
def after (E : Engine ω) (t : KeyedTables E.weight) (l : List KeyedOp) : KeyedTables E.weight :=
  l.foldl (fun t op => (t.call E op).1) t

/-- What the calls of a sequence end with. -/
def answers (E : Engine ω) : KeyedTables E.weight → List KeyedOp → List KeyedResult
  | _, [] => []
  | t, op :: l => (t.call E op).2 :: answers E (t.call E op).1 l

/-- The same rows in every table, compared by exact keys. -/
structure SameRows {weight : KeyText → ω} {weight' : KeyText → ω'} (t : KeyedTables weight)
    (u : KeyedTables weight') : Prop where
  poolOverrides : t.poolOverrides.SameRows u.poolOverrides
  globalOverrides : t.globalOverrides.SameRows u.globalOverrides
  poolState : t.poolState.SameRows u.poolState
  protectedContainers : t.protectedContainers.SameRows u.protectedContainers
  idempotency : t.idempotency.SameRows u.idempotency

/-- The call names a key under which the table holds the row of another key. -/
def Clash {weight : KeyText → ω} (t : KeyedTables weight) : KeyedOp → Prop
  | .setPoolOverride pool _ _ _ => t.poolOverrides.Clash pool
  | .deletePoolOverride pool => t.poolOverrides.Clash pool
  | .setGlobal key _ => t.globalOverrides.Clash key
  | .deleteGlobal key => t.globalOverrides.Clash key
  | .setPoolState pool _ _ => t.poolState.Clash pool
  | .setProtected container _ => t.protectedContainers.Clash container
  | .idempotentResponse key => t.idempotency.Clash key
  | .rememberResponse _ key _ => t.idempotency.Clash key
  | _ => False

/-- The row fits and the key is not stored under another spelling. -/
def Safe (E : Engine ω) (t : KeyedTables E.weight) (op : KeyedOp) : Prop :=
  E.accepts op = true ∧ ¬ t.Clash op

/-- A call as a step of a run. -/
def advance (E : Engine ω) (t : KeyedTables E.weight) (op : KeyedOp) :
    Option (KeyedTables E.weight) := some (t.call E op).1

/-! ### One call -/

omit [DecidableEq ω] [DecidableEq ω'] in
theorem sameRows_empty {weight : KeyText → ω} {weight' : KeyText → ω'} :
    (empty : KeyedTables weight).SameRows (empty : KeyedTables weight') where
  poolOverrides := CollatedTable.sameRows_empty
  globalOverrides := CollatedTable.sameRows_empty
  poolState := CollatedTable.sameRows_empty
  protectedContainers := CollatedTable.sameRows_empty
  idempotency := CollatedTable.sameRows_empty

theorem execute_ne_raised {weight : KeyText → ω} (t : KeyedTables weight) (op : KeyedOp) :
    (t.execute op).2 ≠ .raised := by
  cases op with
  | setProtected container isProtected => cases isProtected <;> exact nofun
  | _ => exact nofun

section Call

variable {weight : KeyText → ω} {weight' : KeyText → ω'} {t : KeyedTables weight}
  {u : KeyedTables weight'} (hinj : Function.Injective weight)
include hinj

/-- **A call of a store with exact keys is told apart** exactly when the keys clash. -/
theorem execute_alike_iff (h : t.SameRows u) (op : KeyedOp) :
    ((t.execute op).2 = (u.execute op).2 ∧ (t.execute op).1.SameRows (u.execute op).1) ↔
      ¬ u.Clash op := by
  cases op with
  | poolOverrides =>
    exact ⟨fun _ => id, fun _ => ⟨congrArg KeyedResult.overrides (funext h.poolOverrides), h⟩⟩
  | globalOverrides =>
    exact ⟨fun _ => id, fun _ => ⟨congrArg KeyedResult.globals (funext h.globalOverrides), h⟩⟩
  | poolStates =>
    exact ⟨fun _ => id, fun _ => ⟨congrArg KeyedResult.states (funext h.poolState), h⟩⟩
  | protectedContainers =>
    exact ⟨fun _ => id,
      fun _ => ⟨congrArg KeyedResult.containers (funext h.protectedContainers), h⟩⟩
  | setPoolOverride pool data origin disabled =>
    have hput := CollatedTable.put_sameRows_iff hinj h.poolOverrides pool ⟨data, origin, disabled⟩
    exact ⟨fun hsame => hput.1 hsame.2.poolOverrides,
      fun hclash => ⟨rfl, { h with poolOverrides := hput.2 hclash }⟩⟩
  | deletePoolOverride pool =>
    have herase := CollatedTable.erase_sameRows_iff hinj h.poolOverrides pool
    exact ⟨fun hsame => herase.1 hsame.2.poolOverrides,
      fun hclash => ⟨rfl, { h with poolOverrides := herase.2 hclash }⟩⟩
  | setGlobal key value =>
    have hput := CollatedTable.put_sameRows_iff hinj h.globalOverrides key value
    exact ⟨fun hsame => hput.1 hsame.2.globalOverrides,
      fun hclash => ⟨rfl, { h with globalOverrides := hput.2 hclash }⟩⟩
  | deleteGlobal key =>
    have herase := CollatedTable.erase_sameRows_iff hinj h.globalOverrides key
    exact ⟨fun hsame => herase.1 hsame.2.globalOverrides,
      fun hclash => ⟨rfl, { h with globalOverrides := herase.2 hclash }⟩⟩
  | setPoolState pool paused draining =>
    have hput := CollatedTable.put_sameRows_iff hinj h.poolState pool ⟨paused, draining⟩
    exact ⟨fun hsame => hput.1 hsame.2.poolState,
      fun hclash => ⟨rfl, { h with poolState := hput.2 hclash }⟩⟩
  | setProtected container isProtected =>
    cases isProtected with
    | true =>
      have hput := CollatedTable.put_sameRows_iff hinj h.protectedContainers container ()
      exact ⟨fun hsame => hput.1 hsame.2.protectedContainers,
        fun hclash => ⟨rfl, { h with protectedContainers := hput.2 hclash }⟩⟩
    | false =>
      have herase := CollatedTable.erase_sameRows_iff hinj h.protectedContainers container
      exact ⟨fun hsame => herase.1 hsame.2.protectedContainers,
        fun hclash => ⟨rfl, { h with protectedContainers := herase.2 hclash }⟩⟩
  | idempotentResponse key =>
    have hget := CollatedTable.get_eq_get_iff hinj h.idempotency key
    refine ⟨fun hsame hclash => ?_, fun hclash => ⟨?_, h⟩⟩
    swap
    · exact congrArg (fun row => KeyedResult.response (row.map (·.response))) (hget.2 hclash)
    -- SQLite finds nothing, MariaDB the row of the other key
    have hmiss : t.idempotency.get key = none := by
      rw [CollatedTable.get_eq_dict_iff.2 (CollatedTable.not_clash hinj _ key), h.idempotency key]
      exact CollatedTable.dict_of_clash hclash
    obtain ⟨row, hrow, -⟩ := hclash
    have hresult := KeyedResult.response.inj hsame.1
    rw [hmiss] at hresult
    unfold CollatedTable.get at hresult
    rw [Option.mem_def.1 hrow] at hresult
    cases hresult
  | rememberResponse now key response =>
    have hput := CollatedTable.put_sameRows_iff hinj h.idempotency key ⟨response, now⟩
    exact ⟨fun hsame => hput.1 hsame.2.idempotency,
      fun hclash => ⟨rfl, { h with idempotency := hput.2 hclash }⟩⟩
  | pruneIdempotency now hours =>
    exact ⟨fun _ => id,
      fun _ => ⟨rfl, { h with idempotency := CollatedTable.deleteWhere_sameRows h.idempotency _ }⟩⟩

end Call

section Engines

variable {S : Engine ω} {M : Engine ω'} {t : KeyedTables S.weight} {u : KeyedTables M.weight}

/-- **One call** ends alike exactly when it is safe. -/
theorem call_alike_iff (hinj : Function.Injective S.weight) (hall : ∀ op, S.accepts op = true)
    (h : t.SameRows u) (op : KeyedOp) :
    ((t.call S op).2 = (u.call M op).2 ∧ (t.call S op).1.SameRows (u.call M op).1) ↔
      Safe M u op := by
  unfold Safe call
  rw [if_pos (hall op)]
  by_cases hfit : M.accepts op = true
  · rw [if_pos hfit, execute_alike_iff hinj h op]
    exact ⟨fun hclash => ⟨hfit, hclash⟩, And.right⟩
  · rw [if_neg hfit]
    exact ⟨fun hsame => absurd hsame.1 (t.execute_ne_raised op), fun hsafe => absurd hsafe.1 hfit⟩

/-! ### Sequences of calls -/

/-- Every call ends alike, and the rows are the same at every point. -/
def Alike (S : Engine ω) (M : Engine ω') (t : KeyedTables S.weight) (u : KeyedTables M.weight)
    (l : List KeyedOp) : Prop :=
  answers S t l = answers M u l ∧ ∀ m, m <+: l → (after S t m).SameRows (after M u m)

theorem alike_nil : Alike S M t u [] ↔ t.SameRows u := by
  constructor
  · exact fun h => h.2 [] List.nil_prefix
  · intro h
    refine ⟨rfl, fun m hm => ?_⟩
    rwa [List.prefix_nil.1 hm]

theorem alike_cons {op : KeyedOp} {l : List KeyedOp} :
    Alike S M t u (op :: l) ↔
      t.SameRows u ∧ (t.call S op).2 = (u.call M op).2 ∧
        Alike S M (t.call S op).1 (u.call M op).1 l := by
  constructor
  · rintro ⟨hanswers, hrows⟩
    obtain ⟨hop, hrest⟩ := List.cons.inj hanswers
    exact ⟨hrows [] List.nil_prefix, hop, hrest,
      fun m hm => hrows (op :: m) ((List.prefix_cons_inj op).2 hm)⟩
  · rintro ⟨hsame, hop, hrest, hrows⟩
    refine ⟨by unfold answers; rw [hop, hrest], fun m hm => ?_⟩
    cases m with
    | nil => exact hsame
    | cons op' m =>
      obtain ⟨rfl, hm'⟩ := List.cons_prefix_cons.1 hm
      exact hrows m hm'

/-- Along a run the calls end alike as long as they are safe. -/
theorem alike_iff (hinj : Function.Injective S.weight) (hall : ∀ op, S.accepts op = true)
    (h : t.SameRows u) (l : List KeyedOp) :
    Alike S M t u l ↔ Along (advance M) (Safe M) u l := by
  induction l generalizing t u with
  | nil => exact ⟨fun _ => trivial, fun _ => alike_nil.2 h⟩
  | cons op l ih =>
    have hcall := call_alike_iff hinj hall h op
    rw [alike_cons]
    constructor
    · rintro ⟨-, hop, hrest⟩
      have hsame := hrest.2 [] List.nil_prefix
      refine ⟨hcall.1 ⟨hop, hsame⟩, fun v hv => ?_⟩
      obtain rfl := Option.some.inj hv
      exact (ih hsame).1 hrest
    · rintro ⟨hsafe, hrest⟩
      obtain ⟨hop, hsame⟩ := hcall.2 hsafe
      exact ⟨h, hop, (ih hsame).2 (hrest _ rfl)⟩

end Engines

end KeyedTables

/-! ### The two dialects -/

/-- **The dialects agree** along a sequence of calls exactly when every row written fits its columns
and no call names a key that is stored under another spelling. -/
theorem keyed_alike_iff {ω : Type*} [DecidableEq ω] (C : Collation ω) (l : List KeyedOp) :
    KeyedTables.Alike sqlite (mariadb C) .empty .empty l ↔
      Along (KeyedTables.advance (mariadb C)) (KeyedTables.Safe (mariadb C)) .empty l :=
  KeyedTables.alike_iff Function.injective_id (fun _ => rfl) KeyedTables.sameRows_empty l

/-- Letters of either case weigh the same, and trailing spaces nothing. -/
def padCollation : Collation (List Char) where
  weight := fun s => ((foldAscii s).toList.reverse.dropWhile (· = ' ')).reverse
  ignoresCase := fun s t h => by rw [h]
  ignoresTrailingSpaces := fun s => by simp [foldAscii]

def upperKey : KeyText := ⟨"POST:/api/pools/ci/scale:Retry-1", by decide⟩

def lowerKey : KeyText := ⟨"POST:/api/pools/ci/scale:retry-1", by decide⟩

/-- A response remembered under one key is found under another one. -/
theorem remembered_elsewhere :
    KeyedTables.answers sqlite .empty
        [.rememberResponse 0 upperKey "done", .idempotentResponse lowerKey] =
      [.done, .response none] ∧
    KeyedTables.answers (mariadb padCollation) .empty
        [.rememberResponse 0 upperKey "done", .idempotentResponse lowerKey] =
      [.done, .response (some "done")] := by
  constructor
  · rfl
  · rfl

theorem not_keyed_alike : ¬ ∀ l : List KeyedOp,
    KeyedTables.answers (mariadb padCollation) .empty l = KeyedTables.answers sqlite .empty l := by
  intro h
  have hsame := h [.rememberResponse 0 upperKey "done", .idempotentResponse lowerKey]
  rw [remembered_elsewhere.1, remembered_elsewhere.2] at hsame
  obtain ⟨-, hresponse⟩ := List.cons.inj hsame
  cases KeyedResult.response.inj (List.cons.inj hresponse).1

end RunnerSwarm
