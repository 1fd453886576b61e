import RunnerSwarm.Lib.Collation
import RunnerSwarm.Lib.Run
import RunnerSwarm.Lib.Log
import RunnerSwarm.Lib.Text

/-!
# Retries with an Idempotency-Key

The `idempotent` wrapper of the control routes, for any number of requests served at once. A
request claims its key (`InFlightKeys.claim`), looks the stored response up, runs the view, stores
a 2xx response and releases the key; each of these is one step, and any other request, or the
pruning of old responses, may move between two of them. The view may return any status or raise.

The `log` records what happened, oldest first, and is read by no step. The store does not fail. It
compares keys by their `weight`, as the database does: SQLite by the strings themselves, MariaDB by
what its collation makes of them.

* `scopedKey_injective`: the string `method:path:key` determines the three parts, since the routes
  that are wrapped have four segments and no colon in the last;
* `NamesItsRow`: no response stands under another key that the database takes for the request's;
* `Sound`: the invariant that relates statuses, the set of keys in flight, the table and the log;
* `Sound.ofUpdate`: what is left to show of it when one request moves.
-/

namespace RunnerSwarm

/-! ### Requests -/

/-- The collection and the last segment of the wrapped routes, all of them `POST`. -/
def idempotentRoutes : List (String × String) :=
  [("containers", "stop"), ("containers", "restart"), ("pools", "scale")]

/-- The path of a wrapped route; `<name>` matches one segment. -/
def IdempotentPath (path : String) : Prop :=
  ∃ route ∈ idempotentRoutes, ∃ name : String, '/' ∉ name.toList ∧
    path = "/api/" ++ route.1 ++ "/" ++ name ++ "/" ++ route.2

/-- A request to a wrapped route that carries an Idempotency-Key. -/
structure KeyedRequest where
  method : String
  path : String
  key : String
  post : method = "POST"
  routed : IdempotentPath path
  keyed : key ≠ ""

namespace KeyedRequest

/-- `scoped`. -/
def scopedKey (r : KeyedRequest) : String := r.method ++ ":" ++ r.path ++ ":" ++ r.key

theorem segments_notMem {route : String × String} (h : route ∈ idempotentRoutes) :
    '/' ∉ route.1.toList ∧ ':' ∉ route.2.toList := by
  revert route
  decide

/-- Two wrapped requests with one scoped key are the same request. -/
theorem scopedKey_injective : Function.Injective scopedKey := by
  rintro ⟨m₁, p₁, k₁, rfl, ⟨r₁, h₁, n₁, hn₁, rfl⟩, hk₁⟩
    ⟨m₂, p₂, k₂, rfl, ⟨r₂, h₂, n₂, hn₂, rfl⟩, hk₂⟩ h
  obtain ⟨hcoll₁, hverb₁⟩ := segments_notMem h₁
  obtain ⟨hcoll₂, hverb₂⟩ := segments_notMem h₂
  have hchars := congrArg String.toList h
  simp only [scopedKey, String.toList_append, List.append_assoc] at hchars
  have htail := List.append_cancel_left (List.append_cancel_left (List.append_cancel_left hchars))
  obtain ⟨hcoll, hrest⟩ := sep_inj hcoll₁ hcoll₂ htail
  obtain ⟨hname, hrest⟩ := sep_inj hn₁ hn₂ hrest
  obtain ⟨hverb, hkey⟩ := sep_inj hverb₁ hverb₂ hrest
  obtain rfl := String.toList_injective hname
  obtain rfl := String.toList_injective hkey
  obtain rfl : r₁ = r₂ :=
    Prod.ext (String.toList_injective hcoll) (String.toList_injective hverb)
  rfl

end KeyedRequest

/-! ### The server -/

/-- How the wrapped view ends. -/
inductive ViewOutcome
  | returned (status : ℕ) (body : String)
  | raised
  deriving DecidableEq

/-- The body of a 2xx response. -/
def ViewOutcome.success : ViewOutcome → Option String
  | .returned status body => if 200 ≤ status ∧ status < 300 then some body else none
  | .raised => none

/-- What a request is answered: 409, a stored body, or what its own run of the view gave. -/
inductive Answer
  | inProgress
  | replayed (body : String)
  | executed (outcome : ViewOutcome)
  deriving DecidableEq

inductive RequestStatus
  | waiting
  | claimed
  | executing
  /-- The view has returned a 2xx response, which is not stored yet. -/
  | remembering (outcome : ViewOutcome) (body : String)
  /-- In the `finally` block. -/
  | leaving (answer : Answer)
  | answered (answer : Answer)
  deriving DecidableEq

/-- A row of the `idempotency` table. -/
structure StoredResponse where
  response : String
  ts : ℚ
  deriving DecidableEq

/-- What happened, for the record. -/
inductive HttpEvent (ρ : Type*)
  | started (r : ρ)
  | ended (r : ρ) (outcome : ViewOutcome)
  | replayed (r : ρ) (body : String)
  /-- Pruning has removed the response stored under `key`. -/
  | dropped (key : String)
  deriving DecidableEq

structure IdempotentServer (ρ : Type*) where
  inFlight : Finset String
  responses : Table String StoredResponse
  status : ρ → RequestStatus
  log : List (HttpEvent ρ)

inductive HttpAction (ρ : Type*)
  | claim (r : ρ)
  | lookUp (r : ρ)
  | viewEnds (r : ρ) (outcome : ViewOutcome)
  | remember (r : ρ) (ts : ℚ)
  | release (r : ρ)
  | prune (cutoff : ℚ)

namespace IdempotentServer

variable {ρ : Type*} [DecidableEq ρ]

def setStatus (s : IdempotentServer ρ) (r : ρ) (status : RequestStatus) : IdempotentServer ρ :=
  { s with status := Function.update s.status r status }

/-- The keys whose response `prune_idempotency` deletes. -/
def prunedKeys (responses : Table String StoredResponse) (cutoff : ℚ) : List String :=
  (responses.rows.filter fun row => row.2.ts < cutoff).map Prod.fst

/-- One step of a request, or a pruning. `req` says what the requests are. -/
def step (weight : String → String) (req : ρ → KeyedRequest) (s : IdempotentServer ρ) :
    HttpAction ρ → Option (IdempotentServer ρ)
  | .claim r =>
      match s.status r with
      | .waiting =>
          if (req r).scopedKey ∈ s.inFlight then some (s.setStatus r (.answered .inProgress))
          else some { s.setStatus r .claimed with
            inFlight := insert (req r).scopedKey s.inFlight }
      | _ => none
  | .lookUp r =>
      match s.status r with
      | .claimed =>
          match s.responses.get (s.responses.spelling weight (req r).scopedKey) with
          | some row => some { s.setStatus r (.leaving (.replayed row.response)) with
              log := s.log ++ [.replayed r row.response] }
          | none => some { s.setStatus r .executing with log := s.log ++ [.started r] }
      | _ => none
  | .viewEnds r outcome =>
      match s.status r with
      | .executing =>
          let next := match outcome.success with
            | some body => .remembering outcome body
            | none => .leaving (.executed outcome)
          some { s.setStatus r next with log := s.log ++ [.ended r outcome] }
      | _ => none
  | .remember r ts =>
      match s.status r with
      | .remembering outcome body =>
          some { s.setStatus r (.leaving (.executed outcome)) with
            responses :=
              s.responses.put (s.responses.spelling weight (req r).scopedKey) ⟨body, ts⟩ }
      | _ => none
  | .release r =>
      match s.status r with
      | .leaving answer =>
          some { s.setStatus r (.answered answer) with
            inFlight := s.inFlight.erase (req r).scopedKey }
      | _ => none
  | .prune cutoff =>
      some { s with
        responses := s.responses.deleteWhere fun _ row => row.ts < cutoff
        log := s.log ++ (prunedKeys s.responses cutoff).map .dropped }

/-- When the request looks for a response or stores one, none stands under another key that the
database takes for its own. -/
def NamesItsRow (weight : String → String) (req : ρ → KeyedRequest) (s : IdempotentServer ρ) :
    HttpAction ρ → Prop
  | .lookUp r => ¬ s.responses.Clash weight (req r).scopedKey
  | .remember r _ => ¬ s.responses.Clash weight (req r).scopedKey
  | _ => True

instance (weight : String → String) (req : ρ → KeyedRequest) (s : IdempotentServer ρ)
    (a : HttpAction ρ) : Decidable (NamesItsRow weight req s a) :=
  match a with
  | .lookUp r | .remember r _ =>
    inferInstanceAs (Decidable (¬ s.responses.Clash weight (req r).scopedKey))
  | .claim _ | .viewEnds _ _ | .release _ | .prune _ => inferInstanceAs (Decidable True)

/-- A server that has not seen a request. -/
def init : IdempotentServer ρ where
  inFlight := ∅
  responses := Table.empty
  status := fun _ => .waiting
  log := []

end IdempotentServer

/-! ### The invariant -/

/-- The request holds its key. -/
def RequestStatus.holdsKey : RequestStatus → Bool
  | .waiting => false
  | .answered _ => false
  | _ => true

/-- What an event does to the response that ought to be stored under a key. -/
def HttpEvent.stores {ρ : Type*} (req : ρ → KeyedRequest) (key : String) :
    HttpEvent ρ → Option (Option String)
  | .ended r outcome =>
      if (req r).scopedKey = key then outcome.success.map some else none
  | .dropped key' => if key' = key then some none else none
  | _ => none

section Invariant

variable {ρ : Type*}

/-- The response that ought to be stored under a key. -/
def remembered (req : ρ → KeyedRequest) (key : String) (log : List (HttpEvent ρ)) :
    Option String := lastWrite (HttpEvent.stores req key) log

/-- An event in order: the view starts and succeeds only when nothing is stored, and what is
replayed is what is stored. -/
def EventOk (req : ρ → KeyedRequest) (past : List (HttpEvent ρ)) : HttpEvent ρ → Prop
  | .started r => remembered req (req r).scopedKey past = none
  | .ended r outcome => .started r ∈ past ∧
      (outcome.success ≠ none → remembered req (req r).scopedKey past = none)
  | .replayed r body => remembered req (req r).scopedKey past = some body
  | .dropped _ => True

/-- The event behind an answer. -/
def AnswerLogged (log : List (HttpEvent ρ)) (r : ρ) : Answer → Prop
  | .inProgress => True
  | .replayed body => .replayed r body ∈ log
  | .executed outcome => .ended r outcome ∈ log

/-- What the status of a request says about the table and the log. -/
def StatusOk (req : ρ → KeyedRequest) (s : IdempotentServer ρ) (r : ρ) : RequestStatus → Prop
  | .waiting => True
  | .claimed => True
  | .executing => s.responses.get (req r).scopedKey = none ∧ .started r ∈ s.log
  | .remembering outcome body => s.responses.get (req r).scopedKey = none ∧
      outcome.success = some body ∧ .ended r outcome ∈ s.log ∧
      remembered req (req r).scopedKey s.log = some body
  | .leaving answer => AnswerLogged s.log r answer
  | .answered answer => AnswerLogged s.log r answer

/-- The response under `key` is on its way to the table. -/
def Remembering (req : ρ → KeyedRequest) (s : IdempotentServer ρ) (key : String) : Prop :=
  ∃ r outcome body, s.status r = .remembering outcome body ∧ (req r).scopedKey = key

structure Sound (req : ρ → KeyedRequest) (s : IdempotentServer ρ) : Prop where
  flight : ∀ r, (s.status r).holdsKey = true → (req r).scopedKey ∈ s.inFlight
  exclusive : ∀ r r', (s.status r).holdsKey = true → (s.status r').holdsKey = true →
    (req r).scopedKey = (req r').scopedKey → r = r'
  status : ∀ r, StatusOk req s r (s.status r)
  stored : ∀ key, ¬ Remembering req s key →
    (s.responses.get key).map (·.response) = remembered req key s.log
  log : EachEvent (EventOk req) s.log

variable {req : ρ → KeyedRequest} {s t : IdempotentServer ρ} {r : ρ}

/-! ### What is remembered -/

theorem remembered_concat (key : String) (log : List (HttpEvent ρ)) (e : HttpEvent ρ) :
    remembered req key (log ++ [e]) = (e.stores req key).getD (remembered req key log) :=
  lastWrite_concat

/-- An event about another key, or one that stores nothing. -/
theorem remembered_of_silent {key : String} {log : List (HttpEvent ρ)} {e : HttpEvent ρ}
    (h : e.stores req key = none) : remembered req key (log ++ [e]) = remembered req key log := by
  rw [remembered_concat, h]
  rfl

theorem stores_ended_of_ne {key : String} {outcome : ViewOutcome} (h : key ≠ (req r).scopedKey) :
    (HttpEvent.ended r outcome).stores req key = none := if_neg h.symm

theorem stores_ended_self (outcome : ViewOutcome) :
    (HttpEvent.ended r outcome).stores req (req r).scopedKey = outcome.success.map some :=
  if_pos rfl

theorem remembered_pruned (key : String) (log : List (HttpEvent ρ)) (keys : List String) :
    remembered req key (log ++ keys.map .dropped) =
      if key ∈ keys then none else remembered req key log := by
  induction keys using List.reverseRecOn with
  | nil => simp
  | append_singleton keys k ih =>
    rw [List.map_append, List.map_singleton, ← List.append_assoc, remembered_concat, ih]
    by_cases hk : k = key
    · subst hk
      simp [HttpEvent.stores]
    · simp [HttpEvent.stores, hk, Ne.symm hk]

theorem mem_prunedKeys {responses : Table String StoredResponse} {cutoff : ℚ} {key : String} :
    key ∈ IdempotentServer.prunedKeys responses cutoff ↔
      ∃ row, responses.get key = some row ∧ row.ts < cutoff := by
  simp only [IdempotentServer.prunedKeys, List.mem_map, List.mem_filter, Table.get_eq_some_iff]
  constructor
  · rintro ⟨⟨k, row⟩, ⟨hmem, hts⟩, rfl⟩
    exact ⟨row, hmem, by simpa using hts⟩
  · rintro ⟨row, hmem, hts⟩
    exact ⟨(key, row), ⟨hmem, by simpa using hts⟩, rfl⟩

/-! ### Moving one request -/

theorem AnswerLogged.mono {log log' : List (HttpEvent ρ)} {answer : Answer} (h : log ⊆ log')
    (ha : AnswerLogged log r answer) : AnswerLogged log' r answer := by
  cases answer with
  | inProgress => trivial
  | replayed body => exact h ha
  | executed outcome => exact h ha

/-- A request whose key is not touched keeps what its status says. -/
theorem StatusOk.mono {status : RequestStatus} (hlog : s.log ⊆ t.log)
    (hget : status.holdsKey = true → s.responses.get (req r).scopedKey = none →
      t.responses.get (req r).scopedKey = none ∧
        remembered req (req r).scopedKey t.log = remembered req (req r).scopedKey s.log)
    (h : StatusOk req s r status) : StatusOk req t r status := by
  cases status with
  | waiting => trivial
  | claimed => trivial
  | executing => exact ⟨(hget rfl h.1).1, hlog h.2⟩
  | remembering outcome body =>
    obtain ⟨hnone, hsucc, hended, hrem⟩ := h
    obtain ⟨hnone', hkeep⟩ := hget rfl hnone
    exact ⟨hnone', hsucc, hlog hended, hkeep.trans hrem⟩
  | leaving answer => exact AnswerLogged.mono hlog h
  | answered answer => exact AnswerLogged.mono hlog h

/-- No other request with the key of `r` holds it. -/
theorem Sound.other (h : Sound req s) (hr : (s.status r).holdsKey = true) {r' : ρ} (hne : r' ≠ r)
    (hr' : (s.status r').holdsKey = true) : (req r').scopedKey ≠ (req r).scopedKey :=
  fun heq => hne (h.exclusive r' r hr' hr heq)

/-- What `r` finds under the key it holds is what is remembered. -/
theorem Sound.stored_self (h : Sound req s) (hr : (s.status r).holdsKey = true)
    (hnot : ∀ outcome body, s.status r ≠ .remembering outcome body) :
    (s.responses.get (req r).scopedKey).map (·.response) =
      remembered req (req r).scopedKey s.log := by
  refine h.stored _ ?_
  rintro ⟨r', outcome, body, hst, hkey⟩
  obtain rfl := h.exclusive r' r (by rw [hst]; rfl) hr hkey
  exact hnot outcome body hst

variable [DecidableEq ρ]

/-- The invariant after the status of `r` has changed. -/
theorem Sound.ofUpdate (h : Sound req s) {status : RequestStatus}
    (ht : t.status = Function.update s.status r status)
    (hflight : status.holdsKey = true → (req r).scopedKey ∈ t.inFlight)
    (hothers : ∀ r' ≠ r, (s.status r').holdsKey = true → (req r').scopedKey ∈ t.inFlight)
    (hexcl : status.holdsKey = true → ∀ r' ≠ r, (s.status r').holdsKey = true →
      (req r').scopedKey ≠ (req r).scopedKey)
    (hself : StatusOk req t r status) (hrest : ∀ r' ≠ r, StatusOk req t r' (s.status r'))
    (hstored : ∀ key, ¬ Remembering req t key →
      (t.responses.get key).map (·.response) = remembered req key t.log)
    (hlog : EachEvent (EventOk req) t.log) : Sound req t := by
  have hcase : ∀ r', (r' = r ∧ t.status r' = status) ∨ (r' ≠ r ∧ t.status r' = s.status r') := by
    intro r'
    rw [ht]
    by_cases hr : r' = r
    · exact Or.inl ⟨hr, by rw [hr, Function.update_self]⟩
    · exact Or.inr ⟨hr, Function.update_of_ne hr _ _⟩
  refine ⟨fun r' hr' => ?_, fun r₁ r₂ h₁ h₂ heq => ?_, fun r' => ?_, hstored, hlog⟩
  · rcases hcase r' with ⟨rfl, hst⟩ | ⟨hne, hst⟩
    · exact hflight (hst ▸ hr')
    · exact hothers r' hne (hst ▸ hr')
  · rcases hcase r₁ with ⟨hr₁, hst₁⟩ | ⟨hne₁, hst₁⟩ <;>
      rcases hcase r₂ with ⟨hr₂, hst₂⟩ | ⟨hne₂, hst₂⟩ <;> rw [hst₁] at h₁ <;> rw [hst₂] at h₂
    · rw [hr₁, hr₂]
    · rw [hr₁] at heq
      exact absurd heq.symm (hexcl h₁ r₂ hne₂ h₂)
    · rw [hr₂] at heq
      exact absurd heq (hexcl h₂ r₁ hne₁ h₁)
    · exact h.exclusive r₁ r₂ h₁ h₂ heq
  · rcases hcase r' with ⟨rfl, hst⟩ | ⟨hne, hst⟩
    · rw [hst]
      exact hself
    · rw [hst]
      exact hrest r' hne

/-- A response on its way under another key stays on its way. -/
theorem Remembering.ofUpdate {status : RequestStatus} {key : String}
    (ht : t.status = Function.update s.status r status) (hkey : key ≠ (req r).scopedKey)
    (h : Remembering req s key) : Remembering req t key := by
  obtain ⟨r', outcome, body, hst, rfl⟩ := h
  refine ⟨r', outcome, body, ?_, rfl⟩
  have hne : r' ≠ r := by
    rintro rfl
    exact hkey rfl
  rw [ht, Function.update_of_ne hne, hst]

/-- A request that has no response on its way changes nothing about those of the others. -/
theorem Remembering.ofOther {status : RequestStatus} {key : String}
    (hnot : ∀ outcome body, s.status r ≠ .remembering outcome body)
    (ht : t.status = Function.update s.status r status) (h : Remembering req s key) :
    Remembering req t key := by
  obtain ⟨r', outcome, body, hst, hkey⟩ := h
  refine ⟨r', outcome, body, ?_, hkey⟩
  have hne : r' ≠ r := by
    rintro rfl
    exact hnot outcome body hst
  rw [ht, Function.update_of_ne hne, hst]

end Invariant

end RunnerSwarm
