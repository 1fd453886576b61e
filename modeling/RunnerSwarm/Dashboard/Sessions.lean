import RunnerSwarm.Dashboard.Gateway
import RunnerSwarm.Lib.Base64Url
import RunnerSwarm.Lib.JsonDocuments

/-!
# Session cookies

The dashboard keeps no sessions. A cookie carries the role and the second it expires in, as Base64
of JSON, and a signature of that text; whoever holds it is signed in until then.

* `NodeRuntime` is what the dashboard uses of its platform, and `NodeRuntime.Documented` what it
  relies on;
* `createSession` and `readSession` write and read cookies, `roleForPassword` compares passwords;
* `readSession_createSession`: a cookie is accepted, and gives its role, exactly until it expires;
* `readSession_eq_some`: what is accepted was signed.
-/

namespace RunnerSwarm

/-! ### The platform -/

/-- Parts of `node:crypto`, of `Buffer` and of the language. -/
structure NodeRuntime where
  /-- `Buffer.from(value, "utf8")`; `none` for a `TypeError`. -/
  bufferFrom : Json → Option (List UInt8)
  /-- `createHmac("sha256", key).update(payload).digest("base64url")`. -/
  hmac : String → String → String
  /-- `buffer.toString("utf8")`. -/
  utf8 : List UInt8 → String
  /-- `JSON.parse`; `none` for a `SyntaxError`. -/
  parse : String → Option Json
  /-- `value < n`; a property that is missing has no value. -/
  less : Option Json → ℤ → Bool

/-- The bytes of a string. -/
def utf8Bytes (s : String) : List UInt8 := s.toUTF8.data.toList

/-- The data of a session, in the order in which it is written. -/
def sessionItems (role : Role) (exp : ℕ) : List (String × Json) :=
  [("role", .str (match role with | .admin => "admin" | .viewer => "viewer")), ("exp", .int exp)]

/-- `JSON.stringify` of a session. -/
def stringifySession (role : Role) (exp : ℕ) : String :=
  String.ofList (jsonText (.dict (sessionItems role exp)))

/-- A digest is a text of Base64; a string is its bytes; `JSON.parse` reads what was written, with
integers that a number holds exactly, and numbers are compared as such. -/
structure NodeRuntime.Documented (node : NodeRuntime) : Prop where
  digest : ∀ key payload, node.hmac key payload ≠ "" ∧ '.' ∉ (node.hmac key payload).toList
  utf8 : ∀ s, node.utf8 (utf8Bytes s) = s
  parse : ∀ role exp, exp < 2 ^ 53 →
    node.parse (stringifySession role exp) = some (.dict (sessionItems role exp))
  less : ∀ m n : ℤ, node.less (some (.int m)) n = decide (m < n)

/-- The environment of the dashboard. A variable that is not set is empty. -/
structure DashboardEnv where
  sessionSecret : String
  adminPassword : String
  viewerPassword : String
  apiToken : String
  readonlyToken : String

/-- An exception that no route catches. -/
inductive DashboardError
  | noSecret
  | typeError
  deriving DecidableEq

/-- `s.length`. -/
def jsLength (s : String) : ℕ := (s.toList.flatMap JsonText.unitsOf).length

/-! ### Cookies -/

/-- `MAX_AGE_SECONDS`. -/
def sessionMaxAge : ℕ := 12 * 60 * 60

/-- The last time that `Date.now()` can give. -/
def maxDate : ℕ := 8640000000000000

/-- `Session`. -/
structure DashboardSession where
  role : Role
  exp : Option Json

/-- `b64`. -/
def b64 (s : String) : String :=
  String.ofList (Base64Url.encode ((utf8Bytes s).map UInt8.toNat))

/-- `unb64`. -/
def NodeRuntime.unb64 (node : NodeRuntime) (s : String) : String :=
  node.utf8 ((Base64Url.decode s.toList).map UInt8.ofNat)

section Cookies

variable (node : NodeRuntime) (env : DashboardEnv)

/-- `secret`. -/
def DashboardEnv.secret : Except DashboardError String :=
  if env.sessionSecret = "" ∨ jsLength env.sessionSecret < 16 then .error .noSecret
  else .ok env.sessionSecret

/-- `sign`. -/
def sign (payload : String) : Except DashboardError String :=
  env.secret.map fun key => node.hmac key payload

/-- The payload of a cookie that is made at `now`, in milliseconds. -/
def sessionPayload (role : Role) (now : ℕ) : String :=
  b64 (stringifySession role (now / 1000 + sessionMaxAge))

/-- `createSession`, the value of the cookie. -/
def createSession (role : Role) (now : ℕ) : Except DashboardError String :=
  let payload := sessionPayload role now
  (sign node env payload).map fun signature => payload ++ "." ++ signature

/-- What `readSession` makes of data that was signed. -/
def sessionOf (data : Option Json) (now : ℕ) : Option DashboardSession :=
  match data with
  | some (.dict items) =>
      let exp := getItem items "exp"
      if node.less exp (now / 1000 : ℕ) then none
      else
        match getItem items "role" with
        | some (.str role) =>
            if role = "admin" then some ⟨.admin, exp⟩
            else if role = "viewer" then some ⟨.viewer, exp⟩
            else none
        | _ => none
  | _ => none

/-- The two parts of a cookie. -/
def cookieParts (cookie : String) : Option (String × String) :=
  match cookie.toList.splitOn '.' with
  | payload :: signature :: _ =>
      if payload = [] ∨ signature = [] then none
      else some (String.ofList payload, String.ofList signature)
  | _ => none

/-- `readSession`. -/
def readSession (cookie : Option String) (now : ℕ) : Except DashboardError (Option DashboardSession) :=
  match cookie.bind cookieParts with
  | none => .ok none
  | some (payload, signature) => do
      let expected ← sign node env payload
      if signature ≠ expected then return none
      return sessionOf node (node.parse (node.unb64 payload)) now

/-- `constantTimeEquals`. -/
def constantTimeEquals (a : Json) (b : String) : Except DashboardError Bool :=
  match node.bufferFrom a with
  | none => .error .typeError
  | some left => .ok (left = utf8Bytes b)

/-- A password that is not set is nobody's. -/
def isPassword (password : Json) (expected : String) : Except DashboardError Bool :=
  if expected = "" then .ok false else constantTimeEquals node password expected

/-- `roleForPassword`. -/
def roleForPassword (password : Json) : Except DashboardError (Option Role) := do
  let isAdmin ← isPassword node password env.adminPassword
  if isAdmin then return some .admin
  let isViewer ← isPassword node password env.viewerPassword
  if isViewer then return some .viewer
  return none

end Cookies

/-! ### Cookies are read back -/

section RoundTrip

variable {node : NodeRuntime} {env : DashboardEnv}

theorem unb64_b64 (hnode : node.Documented) (s : String) : node.unb64 (b64 s) = s := by
  have hbytes : ∀ b ∈ (utf8Bytes s).map UInt8.toNat, b < 256 := by
    intro b hb
    obtain ⟨byte, -, rfl⟩ := List.mem_map.1 hb
    exact byte.toNat_lt
  have hback : ((utf8Bytes s).map UInt8.toNat).map UInt8.ofNat = utf8Bytes s := by
    rw [List.map_map]
    exact (List.map_congr_left fun b _ => UInt8.ofNat_toNat).trans (List.map_id _)
  unfold NodeRuntime.unb64 b64
  rw [String.toList_ofList, Base64Url.decode_encode hbytes, hback, hnode.utf8]

theorem dot_not_mem_b64 (s : String) : '.' ∉ (b64 s).toList := by
  have hbytes : ∀ b ∈ (utf8Bytes s).map UInt8.toNat, b < 256 := by
    intro b hb
    obtain ⟨byte, -, rfl⟩ := List.mem_map.1 hb
    exact byte.toNat_lt
  intro hdot
  unfold b64 at hdot
  rw [String.toList_ofList] at hdot
  have hmem := Base64Url.mem_encode hbytes hdot
  revert hmem
  decide

theorem sessionPayload_ne (hnode : node.Documented) (role : Role) (now : ℕ) :
    (sessionPayload role now).toList ≠ [] := by
  intro hnil
  have hempty : utf8Bytes (stringifySession role (now / 1000 + sessionMaxAge)) = utf8Bytes "" := by
    by_contra hne
    unfold sessionPayload b64 at hnil
    rw [String.toList_ofList] at hnil
    exact Base64Url.encode_ne_nil (fun h => hne (List.map_eq_nil_iff.1 h)) hnil
  have htext := (hnode.utf8 _).symm.trans ((congrArg node.utf8 hempty).trans (hnode.utf8 ""))
  have hlist := congrArg String.toList htext
  unfold stringifySession at hlist
  rw [String.toList_ofList] at hlist
  cases hlist

theorem cookieParts_mk {payload signature : String} (hpayload : payload.toList ≠ [])
    (hdot : '.' ∉ payload.toList) (hsignature : signature ≠ "") (hdot' : '.' ∉ signature.toList) :
    cookieParts (payload ++ "." ++ signature) = some (payload, signature) := by
  have hsplit : (payload ++ "." ++ signature).toList.splitOn '.' =
      [payload.toList, signature.toList] := by
    have htext : (payload ++ "." ++ signature).toList =
        payload.toList ++ '.' :: signature.toList := by
      simp [String.toList_append]
    rw [htext, List.splitOn_append_cons_self_of_not_mem hdot, List.splitOn_eq_singleton hdot']
  have hne : signature.toList ≠ [] := fun h => hsignature (String.toList_eq_nil_iff.1 h)
  unfold cookieParts
  rw [hsplit]
  dsimp only
  rw [if_neg (not_or.2 ⟨hpayload, hne⟩), String.ofList_toList, String.ofList_toList]

theorem sign_ne {payload signature : String} (hnode : node.Documented)
    (h : sign node env payload = .ok signature) :
    signature ≠ "" ∧ '.' ∉ signature.toList := by
  unfold sign at h
  cases hsecret : env.secret with
  | error e =>
    rw [hsecret] at h
    cases h
  | ok key =>
    rw [hsecret] at h
    obtain rfl := Except.ok.inj h
    exact hnode.digest key payload

theorem exp_exact {now : ℕ} (h : now ≤ maxDate) : now / 1000 + sessionMaxAge < 2 ^ 53 := by
  unfold maxDate at h
  unfold sessionMaxAge
  omega

/-- The data of a session gives its role until it expires. -/
theorem sessionOf_stringify (hnode : node.Documented) (role : Role) {exp : ℕ}
    (hexact : exp < 2 ^ 53) (now : ℕ) :
    sessionOf node (node.parse (stringifySession role exp)) now =
      if exp < now / 1000 then none else some ⟨role, some (.int exp)⟩ := by
  have hless : node.less (some (.int exp)) (now / 1000 : ℕ) = decide (exp < now / 1000) := by
    rw [hnode.less]
    exact decide_eq_decide.2 Nat.cast_lt
  have hexp : getItem (sessionItems role exp) "exp" = some (.int exp) := rfl
  rw [hnode.parse role exp hexact]
  unfold sessionOf
  dsimp only
  rw [hexp, hless]
  cases role with
  | admin => by_cases h : exp < now / 1000 <;> simp [h, sessionItems, getItem]
  | viewer => by_cases h : exp < now / 1000 <;> simp [h, sessionItems, getItem]

/-- The parts of a cookie that was made. -/
theorem cookieParts_createSession (hnode : node.Documented) {role : Role} {now : ℕ}
    {cookie : String} (h : createSession node env role now = .ok cookie) :
    ∃ signature, sign node env (sessionPayload role now) = .ok signature ∧
      cookieParts cookie = some (sessionPayload role now, signature) := by
  unfold createSession at h
  dsimp only at h
  cases hsign : sign node env (sessionPayload role now) with
  | error e =>
    rw [hsign] at h
    cases h
  | ok signature =>
    rw [hsign] at h
    obtain rfl := Except.ok.inj h
    obtain ⟨hne, hdot⟩ := sign_ne hnode hsign
    exact ⟨signature, rfl, cookieParts_mk (sessionPayload_ne hnode role now) (dot_not_mem_b64 _)
      hne hdot⟩

/-- **A session lasts as long as it says.** The cookie of a role that signed in at `now` gives that
role until twelve hours have passed, by the second, and nothing after that. -/
theorem readSession_createSession (hnode : node.Documented) {role : Role} {now : ℕ}
    (hnow : now ≤ maxDate) {cookie : String} (h : createSession node env role now = .ok cookie)
    (later : ℕ) :
    readSession node env (some cookie) later =
      .ok (if now / 1000 + sessionMaxAge < later / 1000 then none
        else some ⟨role, some (.int (now / 1000 + sessionMaxAge : ℕ))⟩) := by
  obtain ⟨signature, hsign, hparts⟩ := cookieParts_createSession hnode h
  have hread : node.unb64 (sessionPayload role now) =
      stringifySession role (now / 1000 + sessionMaxAge) := unb64_b64 hnode _
  unfold readSession
  rw [Option.bind_some, hparts]
  dsimp only
  rw [hsign, hread, sessionOf_stringify hnode role (exp_exact hnow)]
  simp [bind, Except.bind, pure, Except.pure]

/-- What is accepted was signed. -/
theorem readSession_eq_some {cookie : Option String} {now : ℕ} {session : DashboardSession}
    (h : readSession node env cookie now = .ok (some session)) :
    ∃ payload signature, cookie.bind cookieParts = some (payload, signature) ∧
      sign node env payload = .ok signature ∧
      sessionOf node (node.parse (node.unb64 payload)) now = some session := by
  unfold readSession at h
  split at h
  · cases h
  · next payload signature hparts =>
    cases hsign : sign node env payload with
    | error e =>
      rw [hsign] at h
      cases h
    | ok expected =>
      rw [hsign] at h
      simp only [bind, Except.bind, pure, Except.pure] at h
      split_ifs at h with hne
      · cases h
      · rw [not_not] at hne
        exact ⟨payload, signature, hparts, by rw [hsign, hne], Except.ok.inj h⟩

end RoundTrip

/-! ### A platform -/

/-- A platform on which one payload is signed, the one of an administrator who signs in at the time
`signInTime`. -/
def nodeAtSignIn : NodeRuntime where
  bufferFrom
    | .str s => some (utf8Bytes s)
    | _ => none
  hmac _ _ := "-tjLr4pWP8tdZArKP5K-SzMLtST3dlMvOnCcvL5-BFo"
  utf8 bytes := (String.fromUTF8? ⟨bytes.toArray⟩).getD ""
  parse text := (JsonText.loads 8 text).toOption
  less
    | some (.int m), n => m < n
    | some (.float (.finite q)), n => q < n
    | some (.bool b), n => (if b then 1 else 0) < n
    | some .null, n => 0 < n
    | _, _ => false

/-- The environment with the key of that signature. -/
def envAtSignIn : DashboardEnv :=
  ⟨"0123456789abcdef", "correct horse", "", "control", "readonly"⟩

def signInTime : ℕ := 1700000000000

theorem length_toString_le {n : ℕ} (h : n < 2 ^ 53) : (toString n).length ≤ maxStrDigits := by
  have hsmall : n < 10 ^ 16 := h.trans (by norm_num)
  have hlength : n.repr.length ≤ 16 := (Nat.length_repr_le_iff (by norm_num)).2 hsmall
  rw [Nat.toString_eq_repr]
  exact hlength.trans (by decide)

theorem fromUTF8_utf8Bytes (s : String) :
    String.fromUTF8? ⟨(utf8Bytes s).toArray⟩ = some s := by
  have hbytes : (⟨(utf8Bytes s).toArray⟩ : ByteArray) = s.toUTF8 := by
    unfold utf8Bytes
    rw [Array.toArray_toList]
  rw [hbytes]
  unfold String.fromUTF8?
  rw [dif_pos (show s.toUTF8.IsValidUTF8 from s.isValidUTF8)]
  rfl

theorem loads_stringifySession (role : Role) {exp : ℕ} (hexp : exp < 2 ^ 53) :
    JsonText.loads 8 (stringifySession role exp) = .ok (.dict (sessionItems role exp)) := by
  have hnone : JsonText.Blank [] := fun c hc => by cases hc
  have hkeys : ["role", "exp"].Nodup := by decide
  have hwritable : JsonText.Writable (.dict (sessionItems role exp)) 8 :=
    ⟨hkeys, trivial, length_toString_le hexp, trivial⟩
  unfold stringifySession
  rw [← JsonText.dumpsWith_compact, JsonText.loads_dumpsWith hnone hnone hwritable]

theorem nodeAtSignIn_documented : nodeAtSignIn.Documented where
  digest key payload := by
    show "-tjLr4pWP8tdZArKP5K-SzMLtST3dlMvOnCcvL5-BFo" ≠ "" ∧
      '.' ∉ "-tjLr4pWP8tdZArKP5K-SzMLtST3dlMvOnCcvL5-BFo".toList
    exact ⟨by decide, by decide⟩
  utf8 s := by
    show (String.fromUTF8? ⟨(utf8Bytes s).toArray⟩).getD "" = s
    rw [fromUTF8_utf8Bytes]
    rfl
  parse role exp hexp := by
    have hparse : nodeAtSignIn.parse = fun text => (JsonText.loads 8 text).toOption := rfl
    rw [hparse]
    dsimp only
    rw [loads_stringifySession role hexp]
    rfl
  less m n := rfl

/-- An administrator signs in, and comes back just before and just after twelve hours. -/
theorem readSession_createSession_twelveHours : ∃ cookie,
    createSession nodeAtSignIn envAtSignIn .admin signInTime = .ok cookie ∧
      (readSession nodeAtSignIn envAtSignIn (some cookie) (signInTime + 43200999)).map
        (·.map DashboardSession.role) = .ok (some .admin) ∧
      (readSession nodeAtSignIn envAtSignIn (some cookie) (signInTime + 43201000)).map
        (·.map DashboardSession.role) = .ok none := by
  have hnow : signInTime ≤ maxDate := by decide
  obtain ⟨cookie, hcookie⟩ : ∃ cookie,
      createSession nodeAtSignIn envAtSignIn .admin signInTime = .ok cookie := ⟨_, rfl⟩
  refine ⟨cookie, hcookie, ?_, ?_⟩
  · rw [readSession_createSession nodeAtSignIn_documented hnow hcookie]
    rfl
  · rw [readSession_createSession nodeAtSignIn_documented hnow hcookie]
    rfl

end RunnerSwarm
