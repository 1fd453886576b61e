import RunnerSwarm.Federation.Agreement
import RunnerSwarm.Lib.Loop

/-!
# The `federation:` block

`parseConfig` is `parse_config`: it converts the fields of the block one after the other and checks
the result. An error is to disable federation and never to stop the orchestrator, so a conversion
that raises a `TypeError`, a `ValueError` or an `AttributeError` is reported as one. Two more
exceptions are possible, and are not caught: an `OverflowError`, for a float that is infinite or an
int that no float is near to, and a `RecursionError`, for a name or a URL that is a value nested too
deeply to be printed.

* `Yaml` are the values `yaml.safe_load` returns;
* `parseConfig_ok` is what holds of every configuration that is returned;
* `parsed_iff`: when `parse_config` returns.
-/

namespace RunnerSwarm

/-! ### Values -/

/-- A value of `yaml.safe_load`. -/
inductive Yaml
  | null
  | bool (b : Bool)
  | int (n : ℤ)
  | float (x : PyFloat)
  | str (s : String)
  /-- The bytes of `!!binary`, each as a character. -/
  | bytes (s : String)
  /-- A date or a time, by its `str` and its `repr`; also the dots that are printed for a container
  inside itself. -/
  | other (text repr : String)
  | list (xs : List Yaml)
  | tuple (xs : List Yaml)
  | set (xs : List Yaml)
  | dict (kvs : List (Yaml × Yaml))

namespace Yaml

/-- One character of `repr` of bytes. -/
def byteChar (q c : Char) : List Char :=
  if 127 ≤ c.toNat then ['\\', 'x', hexDigit (c.toNat / 16), hexDigit (c.toNat % 16)]
  else reprChar q c

/-- `repr` of bytes. -/
def bytesRepr (s : String) : String :=
  let q := if s.toList.contains '\'' && !s.toList.contains '"' then '"' else '\''
  String.ofList ('b' :: q :: (s.toList.flatMap (byteChar q) ++ [q]))

/-- `repr`, to a depth at which the interpreter gives up. -/
def repr : ℕ → Yaml → Except PyError String
  | 0, _ => .error .recursionError
  | depth + 1, v =>
      match v with
      | .null => .ok "None"
      | .bool b => .ok (strOfBool b)
      | .int n => strOfInt n
      | .float x => .ok x.repr
      | .str s => .ok (reprString s)
      | .bytes s => .ok (bytesRepr s)
      | .other _ repr => .ok repr
      | .list xs => do return "[" ++ ", ".intercalate (← xs.mapM (repr depth)) ++ "]"
      | .tuple xs => do
          let items ← xs.mapM (repr depth)
          return "(" ++ ", ".intercalate items ++ (if items.length = 1 then ",)" else ")")
      | .set xs => do
          let items ← xs.mapM (repr depth)
          return if items = [] then "set()" else "\x7b" ++ ", ".intercalate items ++ "\x7d"
      | .dict kvs => do
          let items ← kvs.mapM fun kv => do
            let key ← repr depth kv.1
            let value ← repr depth kv.2
            return key ++ ": " ++ value
          return "\x7b" ++ ", ".intercalate items ++ "\x7d"

/-- `str(v)`. -/
def text (limit : ℕ) : Yaml → Except PyError String
  | .str s => .ok s
  | .other text _ => .ok text
  | v => repr (limit + 1) v

/-- `bool(v)`. -/
def truth : Yaml → Bool
  | .null => false
  | .bool b => b
  | .int n => n ≠ 0
  | .float x => x ≠ .finite 0
  | .str s => s ≠ ""
  | .bytes s => s ≠ ""
  | .other _ _ => true
  | .list xs => !xs.isEmpty
  | .tuple xs => !xs.isEmpty
  | .set xs => !xs.isEmpty
  | .dict kvs => !kvs.isEmpty

/-- The text of a number in bytes. The separators of ASCII are no spaces there. -/
def digitsText (s : String) : Option String :=
  if s.toList.all fun c => c.toNat < 128 && !(28 ≤ c.toNat && c.toNat < 32) then some s else none

/-- `float(v)`. -/
def toFloat : Yaml → Except PyError PyFloat
  | .bool b => .ok (.finite (if b then 1 else 0))
  | .int n => if roundFloat n = .finite n then .ok (.finite n) else .error .overflowError
  | .float x => .ok x
  | .str s => (floatOfString s).elim (.error .valueError) .ok
  | .bytes s => ((digitsText s).bind floatOfString).elim (.error .valueError) .ok
  | _ => .error .typeError

/-- `int(v)`. -/
def toInt : Yaml → Except PyError ℤ
  | .bool b => .ok (if b then 1 else 0)
  | .int n => .ok n
  | .float x => x.toInt
  | .str s => (intOfString s).elim (.error .valueError) .ok
  | .bytes s => ((digitsText s).bind intOfString).elim (.error .valueError) .ok
  | _ => .error .typeError

/-- What a `for` loop runs over. -/
def items : Yaml → Except PyError (List Yaml)
  | .list xs => .ok xs
  | .tuple xs => .ok xs
  | .set xs => .ok xs
  | .dict kvs => .ok (kvs.map Prod.fst)
  | .str s => .ok (s.toList.map fun c => .str (String.ofList [c]))
  | .bytes s => .ok (s.toList.map fun c => .int c.toNat)
  | _ => .error .typeError

/-- The value is this text. -/
def isText (key : String) : Yaml → Bool
  | .str s => s = key
  | _ => false

/-- `d.get(key, default)` of a dict. -/
def getOr (kvs : List (Yaml × Yaml)) (key : String) (default : Yaml) : Yaml :=
  ((kvs.find? fun kv => kv.1.isText key).map Prod.snd).getD default

end Yaml

/-! ### The configuration -/

structure PeerConfig where
  name : String
  url : String
  deriving DecidableEq

/-- The `FederationConfig` of the source, with the URLs and the timeout that the protocol leaves
out. -/
structure FederationBlock where
  enabled : Bool := false
  maxTempC : PyFloat := .finite 85
  rescueAfterSeconds : ℤ := 180
  staleAfterSeconds : ℤ := 60
  timeoutSeconds : PyFloat := .finite 2
  peers : List PeerConfig := []
  deriving DecidableEq

/-- What the protocol knows of the configuration. -/
def FederationBlock.config (b : FederationBlock) : FederationConfig where
  enabled := b.enabled
  maxTempC := b.maxTempC
  rescueAfterSeconds := b.rescueAfterSeconds
  staleAfterSeconds := b.staleAfterSeconds
  peers := b.peers.map (·.name)

/-- The errors of the block. -/
inductive FederationError
  | notMapping
  | conversion (e : PyError)
  | maxTemp
  | seconds
  | timeout
  | peerName (name : String)
  | peerUrl (name : String)
  | duplicate
  | noPeers
  deriving DecidableEq

/-- The text of an error; `describe` is what the interpreter says of an exception. -/
def FederationError.text (describe : PyError → String) : FederationError → String
  | notMapping => "federation must be a mapping"
  | conversion e => "federation: " ++ describe e
  | maxTemp => "federation.max_temp_c must be between 30 and 110"
  | seconds => "federation rescue/stale seconds must be positive"
  | timeout => "federation.timeout_seconds must be in (0, 10]"
  | peerName name =>
      "federation peer name '" ++ name ++ "' must be lowercase letters, digits, -"
  | peerUrl name => "federation peer '" ++ name ++ "' url must be http(s)://host[:port]"
  | duplicate => "federation peer names must be unique"
  | noPeers => "federation.enabled needs at least one peer"

/-- `re.fullmatch(r"https?://[^\s/]+(/\S*)?", url)`. -/
def isPeerUrl (url : String) : Bool :=
  ["http://", "https://"].any fun scheme =>
    startsWith url scheme &&
      match url.toList.drop scheme.length with
      | [] => false
      | c :: rest => c ≠ '/' && (c :: rest).all fun d => !isSpace d

/-- One entry of `peers`. -/
def peerConfig (limit : ℕ) : Yaml → Except PyError PeerConfig
  | .dict peer => do
      let name ← (Yaml.getOr peer "name" (.str "")).text limit
      let url ← (Yaml.getOr peer "url" (.str "")).text limit
      return ⟨strip name, rstripChar url '/'⟩
  | _ => .error .attributeError

/-- `raw.get("peers") or []`, as the loop runs over it. -/
def peerItems (block : List (Yaml × Yaml)) : Except PyError (List Yaml) :=
  let peers := Yaml.getOr block "peers" .null
  if peers.truth then peers.items else .ok []

/-- The conversions. -/
def convertBlock (limit : ℕ) (block : List (Yaml × Yaml)) : Except PyError FederationBlock := do
  let enabled := (Yaml.getOr block "enabled" (.bool false)).truth
  let maxTempC ← (Yaml.getOr block "max_temp_c" (.int 85)).toFloat
  let rescueAfterSeconds ← (Yaml.getOr block "rescue_after_seconds" (.int 180)).toInt
  let staleAfterSeconds ← (Yaml.getOr block "stale_after_seconds" (.int 60)).toInt
  let timeoutSeconds ← (Yaml.getOr block "timeout_seconds" (.int 2)).toFloat
  let peers ← (← peerItems block).mapM (peerConfig limit)
  return ⟨enabled, maxTempC, rescueAfterSeconds, staleAfterSeconds, timeoutSeconds, peers⟩

/-- One error when the check fails. -/
def federationErrorIf (failed : Bool) (error : FederationError) : List FederationError :=
  if failed then [error] else []

/-- The checks of one peer. -/
def peerErrors (peer : PeerConfig) : List FederationError :=
  federationErrorIf (!isPeerName peer.name) (.peerName peer.name) ++
    federationErrorIf (!isPeerUrl peer.url) (.peerUrl peer.name)

/-- The checks. -/
def blockErrors (b : FederationBlock) : List FederationError :=
  federationErrorIf (!(PyFloat.le (.finite 30) b.maxTempC && b.maxTempC.le (.finite 110)))
      .maxTemp ++
    federationErrorIf (b.rescueAfterSeconds < 0 || b.staleAfterSeconds ≤ 0) .seconds ++
    federationErrorIf (!(PyFloat.lt (.finite 0) b.timeoutSeconds &&
      b.timeoutSeconds.le (.finite 10))) .timeout ++
    b.peers.flatMap peerErrors ++
    federationErrorIf (!decide (b.peers.map (·.name)).Nodup) .duplicate ++
    federationErrorIf (b.enabled && b.peers = []) .noPeers

/-- The exceptions that `parse_config` catches. -/
def isCaught (e : PyError) : Bool := e ∈ [PyError.typeError, .valueError, .attributeError]

/-- `parse_config`. -/
def parseConfig (limit : ℕ) : Yaml → Except PyError (FederationBlock × List FederationError)
  | .null => .ok ({}, [])
  | .dict block =>
      match convertBlock limit block with
      | .ok b => if blockErrors b = [] then .ok (b, []) else .ok ({}, blockErrors b)
      | .error e => if isCaught e then .ok ({}, [.conversion e]) else .error e
  | _ => .ok ({}, [.notMapping])

/-! ### What is returned -/

/-- A configuration that the daemon can use. -/
structure FederationBlock.Valid (b : FederationBlock) : Prop where
  maxTempC : ∃ t : ℚ, b.maxTempC = .finite t ∧ 30 ≤ t ∧ t ≤ 110
  timeoutSeconds : ∃ t : ℚ, b.timeoutSeconds = .finite t ∧ 0 < t ∧ t ≤ 10
  staleAfterSeconds : 0 < b.staleAfterSeconds
  rescueAfterSeconds : 0 ≤ b.rescueAfterSeconds
  names : ∀ peer ∈ b.peers, isPeerName peer.name = true
  distinct : (b.peers.map (·.name)).Nodup
  peers : b.enabled = true → b.peers ≠ []

theorem federationErrorIf_eq_nil {failed : Bool} {error : FederationError} :
    federationErrorIf failed error = [] ↔ failed = false := by
  cases failed <;> simp [federationErrorIf]

/-- A float between two rationals is finite. -/
theorem PyFloat.between {x : PyFloat} {low high : ℚ} (hlow : PyFloat.le (.finite low) x = true)
    (hhigh : x.le (.finite high) = true) : ∃ t, x = .finite t ∧ low ≤ t ∧ t ≤ high := by
  cases x with
  | finite t => exact ⟨t, rfl, of_decide_eq_true hlow, of_decide_eq_true hhigh⟩
  | posInf => cases hhigh
  | negInf => cases hlow
  | nan => cases hhigh

theorem valid_of_blockErrors {b : FederationBlock} (h : blockErrors b = []) : b.Valid := by
  unfold blockErrors at h
  simp only [List.append_eq_nil_iff, federationErrorIf_eq_nil, Bool.not_eq_false',
    Bool.and_eq_true, Bool.or_eq_false_iff, decide_eq_false_iff_not, decide_eq_true_eq,
    List.flatMap_eq_nil_iff] at h
  obtain ⟨⟨⟨⟨⟨⟨hcold, hhot⟩, hrescue, hstale⟩, hpositive, hshort⟩, hpeers⟩, hdistinct⟩, hsome⟩ := h
  unfold PyFloat.lt at hpositive
  obtain ⟨hpositive, hne⟩ := Bool.and_eq_true_iff.1 hpositive
  obtain ⟨t, ht, hlow, hhigh⟩ := PyFloat.between hpositive hshort
  refine ⟨PyFloat.between hcold hhot, ⟨t, ht, lt_of_le_of_ne hlow ?_, hhigh⟩, not_le.1 hstale,
    not_lt.1 hrescue, fun peer hpeer => ?_, hdistinct, fun hon hempty => ?_⟩
  · rintro rfl
    exact of_decide_eq_true hne ht.symm
  · have hname := (List.append_eq_nil_iff.1 (hpeers peer hpeer)).1
    simpa [federationErrorIf_eq_nil] using hname
  · rw [hon, hempty] at hsome
    cases hsome

theorem defaultBlock_valid : FederationBlock.Valid {} :=
  ⟨⟨85, rfl, by norm_num, by norm_num⟩, ⟨2, rfl, by norm_num, by norm_num⟩, by decide, by decide,
    fun peer hpeer => (by cases hpeer), List.nodup_nil, fun h => by cases h⟩

/-- What holds of every configuration that is returned: with errors it is the default, which is
disabled, and without it is valid. -/
theorem parseConfig_ok {limit : ℕ} {raw : Yaml} {b : FederationBlock}
    {errors : List FederationError} (h : parseConfig limit raw = .ok (b, errors)) :
    (errors ≠ [] → b = {}) ∧ (errors = [] → b.Valid) := by
  unfold parseConfig at h
  split at h
  · cases h
    exact ⟨fun hne => absurd rfl hne, fun _ => defaultBlock_valid⟩
  · split at h
    · rename_i block converted hconverted
      split_ifs at h with hfine
      · cases h
        exact ⟨fun hne => absurd rfl hne, fun _ => valid_of_blockErrors hfine⟩
      · cases h
        exact ⟨fun _ => rfl, fun hempty => absurd hempty hfine⟩
    · split_ifs at h
      cases h
      exact ⟨fun _ => rfl, fun hempty => by cases hempty⟩
  · cases h
    exact ⟨fun _ => rfl, fun hempty => by cases hempty⟩

/-- The protocol gets the names of a valid configuration, each once, and is on only with peers. -/
theorem FederationBlock.Valid.config {b : FederationBlock} (h : b.Valid) :
    b.config.peers.Nodup ∧ (∀ name ∈ b.config.peers, isPeerName name = true) ∧
      (b.config.enabled = true → b.config.peers ≠ []) := by
  refine ⟨h.distinct, fun name hname => ?_, fun hon hempty => ?_⟩
  · obtain ⟨peer, hpeer, rfl⟩ := List.mem_map.1 hname
    exact h.names peer hpeer
  · exact h.peers hon (List.map_eq_nil_iff.1 hempty)

/-! ### What is raised -/

/-- `parse_config` does not catch the exception. -/
def uncaught (e : PyError) : Prop := isCaught e = false

namespace Yaml

variable {v : Yaml} {limit : ℕ}

/-- An int without a float near to it. -/
def isHuge : Yaml → Bool
  | .int n => roundFloat n ≠ .finite n
  | _ => false

/-- `.inf` or `-.inf`. -/
def isInfinite : Yaml → Bool
  | .float .posInf => true
  | .float .negInf => true
  | _ => false

/-- The interpreter gives up printing the value. -/
def TooDeep (limit : ℕ) (v : Yaml) : Prop := v.text limit = .error .recursionError

theorem raises_toFloat : Raises uncaught v.toFloat ↔ v.isHuge = true := by
  have htext : ∀ r : Option PyFloat, ¬ Raises uncaught (r.elim (.error .valueError) .ok) := by
    intro r
    cases r <;> simp [uncaught, isCaught]
  cases v with
  | int n =>
    by_cases hnear : roundFloat n = .finite n
    · have hvalue : toFloat (.int n) = .ok (.finite n) := if_pos hnear
      rw [hvalue]
      exact iff_of_false (not_raises_ok _) fun h => of_decide_eq_true h hnear
    · have hvalue : toFloat (.int n) = .error .overflowError := if_neg hnear
      rw [hvalue, raises_error]
      exact iff_of_true rfl (decide_eq_true hnear)
  | str s => exact iff_of_false (htext _) Bool.false_ne_true
  | bytes s => exact iff_of_false (htext _) Bool.false_ne_true
  | bool b => exact iff_of_false (not_raises_ok _) Bool.false_ne_true
  | float x => exact iff_of_false (not_raises_ok _) Bool.false_ne_true
  | null => simp [toFloat, isHuge, uncaught, isCaught]
  | other => simp [toFloat, isHuge, uncaught, isCaught]
  | list => simp [toFloat, isHuge, uncaught, isCaught]
  | tuple => simp [toFloat, isHuge, uncaught, isCaught]
  | set => simp [toFloat, isHuge, uncaught, isCaught]
  | dict => simp [toFloat, isHuge, uncaught, isCaught]

theorem raises_toInt : Raises uncaught v.toInt ↔ v.isInfinite = true := by
  have htext : ∀ r : Option ℤ, ¬ Raises uncaught (r.elim (.error .valueError) .ok) := by
    intro r
    cases r <;> simp [uncaught, isCaught]
  cases v with
  | float x => cases x <;> simp [toInt, PyFloat.toInt, isInfinite, uncaught, isCaught]
  | str s => exact iff_of_false (htext _) Bool.false_ne_true
  | bytes s => exact iff_of_false (htext _) Bool.false_ne_true
  | bool b => exact iff_of_false (not_raises_ok _) Bool.false_ne_true
  | int n => exact iff_of_false (not_raises_ok _) Bool.false_ne_true
  | null => simp [toInt, isInfinite, uncaught, isCaught]
  | other => simp [toInt, isInfinite, uncaught, isCaught]
  | list => simp [toInt, isInfinite, uncaught, isCaught]
  | tuple => simp [toInt, isInfinite, uncaught, isCaught]
  | set => simp [toInt, isInfinite, uncaught, isCaught]
  | dict => simp [toInt, isInfinite, uncaught, isCaught]

/-- Only an int that is too long and a value that is too deep cannot be printed. -/
theorem not_raises_repr (depth : ℕ) (v : Yaml) :
    ¬ Raises (fun e => e ≠ .valueError ∧ e ≠ .recursionError) (v.repr depth) := by
  induction depth generalizing v with
  | zero => simp [repr]
  | succ depth ih =>
    have hall : ∀ xs : List Yaml, ¬ Raises (fun e => e ≠ .valueError ∧ e ≠ .recursionError)
        (xs.mapM (repr depth)) := by
      intro xs h
      obtain ⟨_, x, _, _, _, hx⟩ := raises_mapM_iff.1 h
      exact ih x hx
    have hjoin : ∀ (xs : List Yaml) (f : List String → String),
        ¬ Raises (fun e => e ≠ .valueError ∧ e ≠ .recursionError)
          (xs.mapM (repr depth) >>= fun items => pure (f items)) := by
      intro xs f h
      rcases raises_bind_iff.1 h with h | ⟨items, -, h⟩
      · exact hall xs h
      · exact not_raises_ok _ h
    unfold repr
    cases v with
    | int n =>
      intro h
      dsimp only at h
      unfold strOfInt at h
      split_ifs at h
      · exact (raises_error.1 h).1 rfl
      · exact not_raises_ok _ h
    | list xs => exact hjoin xs _
    | tuple xs => exact hjoin xs _
    | set xs => exact hjoin xs _
    | dict kvs =>
      intro h
      rcases raises_bind_iff.1 h with h | ⟨items, -, h⟩
      · obtain ⟨_, kv, _, _, _, hkv⟩ := raises_mapM_iff.1 h
        rcases raises_bind_iff.1 hkv with hkey | ⟨key, -, hkv⟩
        · exact ih _ hkey
        · rcases raises_bind_iff.1 hkv with hvalue | ⟨value, -, hkv⟩
          · exact ih _ hvalue
          · exact not_raises_ok _ hkv
      · exact not_raises_ok _ h
    | null => exact not_raises_ok _
    | bool b => exact not_raises_ok _
    | float x => exact not_raises_ok _
    | str s => exact not_raises_ok _
    | bytes s => exact not_raises_ok _
    | other text shown => exact not_raises_ok _

theorem raises_text : Raises uncaught (v.text limit) ↔ TooDeep limit v := by
  have hkind : ¬ Raises (fun e => e ≠ .valueError ∧ e ≠ .recursionError) (v.text limit) := by
    cases v with
    | str s => exact not_raises_ok _
    | other text shown => exact not_raises_ok _
    | _ => exact not_raises_repr _ _
  constructor
  · rintro ⟨e, he, huncaught⟩
    have hdeep : e = .recursionError := by
      by_contra hne
      refine hkind ⟨e, he, fun hvalue => ?_, hne⟩
      rw [hvalue] at huncaught
      cases huncaught
    unfold TooDeep
    rw [he, hdeep]
  · exact fun h => ⟨.recursionError, h, rfl⟩

end Yaml

/-- A peer with a name that cannot be printed, or with such a URL behind a name that can. -/
def PeerBreaks (limit : ℕ) (p : Yaml) : Prop :=
  ∃ peer, p = .dict peer ∧
    ((Yaml.getOr peer "name" (.str "")).TooDeep limit ∨
      (∃ name, (Yaml.getOr peer "name" (.str "")).text limit = .ok name) ∧
        (Yaml.getOr peer "url" (.str "")).TooDeep limit)

/-- Of the peers, the first that is not read breaks. -/
def PeersBreak (limit : ℕ) (block : List (Yaml × Yaml)) : Prop :=
  ∃ before p after, peerItems block = .ok (before ++ p :: after) ∧
    (∀ q ∈ before, ∃ peer, peerConfig limit q = .ok peer) ∧ PeerBreaks limit p

/-- Of the fields, in the order in which they are converted, the first that is not read is an int
for a float that is not near to it, an infinite float for an int, or a peer that breaks. -/
def BlockBreaks (limit : ℕ) (block : List (Yaml × Yaml)) : Prop :=
  let maxTempC := Yaml.getOr block "max_temp_c" (.int 85)
  let rescueAfter := Yaml.getOr block "rescue_after_seconds" (.int 180)
  let staleAfter := Yaml.getOr block "stale_after_seconds" (.int 60)
  let timeout := Yaml.getOr block "timeout_seconds" (.int 2)
  maxTempC.isHuge = true ∨ (∃ x, maxTempC.toFloat = .ok x) ∧
    (rescueAfter.isInfinite = true ∨ (∃ n, rescueAfter.toInt = .ok n) ∧
      (staleAfter.isInfinite = true ∨ (∃ n, staleAfter.toInt = .ok n) ∧
        (timeout.isHuge = true ∨ (∃ x, timeout.toFloat = .ok x) ∧ PeersBreak limit block)))

variable {limit : ℕ} {block : List (Yaml × Yaml)}

theorem raises_peerConfig {p : Yaml} :
    Raises uncaught (peerConfig limit p) ↔ PeerBreaks limit p := by
  unfold PeerBreaks
  cases p with
  | dict peer =>
    unfold peerConfig
    simp only [raises_bind_iff, Yaml.raises_text, Yaml.dict.injEq, exists_eq_left', not_raises_ok,
      pure, Except.pure, and_false, exists_false, or_false, exists_and_right]
  | _ =>
    refine iff_of_false (fun h => ?_) ?_
    · cases raises_error.1 h
    · rintro ⟨_, h, _⟩
      cases h

theorem not_raises_peerItems : ¬ Raises uncaught (peerItems block) := by
  unfold peerItems
  dsimp only
  split_ifs
  · cases Yaml.getOr block "peers" .null <;> simp [Yaml.items, uncaught, isCaught]
  · exact not_raises_ok _

/-- The peers, in their order. -/
theorem raises_peers :
    Raises uncaught (peerItems block >>= fun items => items.mapM (peerConfig limit)) ↔
      PeersBreak limit block := by
  unfold PeersBreak
  rw [raises_bind_iff, or_iff_right not_raises_peerItems]
  simp only [raises_mapM_iff, raises_peerConfig]
  constructor
  · rintro ⟨_, hitems, before, p, after, rfl, h⟩
    exact ⟨before, p, after, hitems, h⟩
  · rintro ⟨before, p, after, hitems, h⟩
    exact ⟨_, hitems, before, p, after, rfl, h⟩

theorem raises_convertBlock : Raises uncaught (convertBlock limit block) ↔
    BlockBreaks limit block := by
  have hlast : ∀ f : List PeerConfig → FederationBlock,
      Raises uncaught (peerItems block >>= fun items =>
        items.mapM (peerConfig limit) >>= fun peers => pure (f peers)) ↔
      PeersBreak limit block := by
    intro f
    rw [← raises_peers, ← bind_assoc, raises_bind_iff, or_iff_left]
    rintro ⟨peers, -, h⟩
    exact not_raises_ok _ h
  unfold convertBlock BlockBreaks
  dsimp only
  simp only [raises_bind_iff, Yaml.raises_toFloat, Yaml.raises_toInt, hlast, exists_and_right]

/-- **When `parse_config` returns**, and then its result is one that the daemon can use. -/
theorem parsed_iff (limit : ℕ) (raw : Yaml) :
    (∃ b errors, parseConfig limit raw = .ok (b, errors) ∧ (errors ≠ [] → b = {}) ∧
      (errors = [] → b.Valid)) ↔ ∀ block, raw = .dict block → ¬ BlockBreaks limit block := by
  have hreturn : (∃ b errors, parseConfig limit raw = .ok (b, errors) ∧ (errors ≠ [] → b = {}) ∧
      (errors = [] → b.Valid)) ↔ ∃ b errors, parseConfig limit raw = .ok (b, errors) :=
    exists_congr fun b => exists_congr fun errors =>
      ⟨fun h => h.1, fun h => ⟨h, parseConfig_ok h⟩⟩
  rw [hreturn]
  cases raw with
  | dict block =>
    simp only [Yaml.dict.injEq, forall_eq', ← raises_convertBlock]
    unfold parseConfig
    dsimp only
    cases hblock : convertBlock limit block with
    | ok b =>
      refine iff_of_true ?_ (not_raises_ok b)
      dsimp only
      split_ifs
      · exact ⟨_, _, rfl⟩
      · exact ⟨_, _, rfl⟩
    | error e =>
      rw [raises_error]
      dsimp only
      unfold uncaught
      split_ifs with hcaught
      · exact iff_of_true ⟨_, _, rfl⟩ (by simp [hcaught])
      · exact iff_of_false (fun ⟨_, _, h⟩ => by cases h)
          (not_not.2 (Bool.not_eq_true _ ▸ hcaught))
  | null => exact iff_of_true ⟨_, _, rfl⟩ fun _ h => by cases h
  | _ => exact iff_of_true ⟨_, _, rfl⟩ fun _ h => by cases h

/-- A block with an infinite time. -/
def infiniteRescue : Yaml :=
  .dict [(.str "enabled", .bool true), (.str "rescue_after_seconds", .float .posInf)]

/-- It raises an `OverflowError`. -/
theorem not_parsed : ¬ ∃ b errors, parseConfig 1000 infiniteRescue = .ok (b, errors) := by
  have hraised : parseConfig 1000 infiniteRescue = .error .overflowError := by decide +kernel
  rintro ⟨b, errors, h⟩
  rw [hraised] at h
  cases h

end RunnerSwarm
