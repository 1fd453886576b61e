import RunnerSwarm.Lib.Run
import RunnerSwarm.GitHub.Client

/-!
# Requests of many threads through one client

Every `i : ι` is one call of `_request`. The calls interleave as their threads are scheduled; what
`_state_lock` guards is one step. In between a call waits for a request slot, a mutation waits for
`_mutation_lock` and sleeps, and the server answers when it likes, from content that changes.

* `RequestPhase` says where a call is, `requestStep` what one step does, and `requestStep_cases`
  lists the cases;
* the log keeps what an observer sees: when a request was sent, which cooldown was recorded, and
  how and when a call ended;
* `ended` also keeps the content the server held when it answered.
-/

namespace RunnerSwarm

/-- The arguments of one `_request`. -/
structure GitHubCall where
  pat : String
  path : String
  method : HttpMethod
  deriving DecidableEq

/-- Where a call is; `cached` is the response it has read under the check. -/
inductive RequestPhase (β γ : Type*)
  | start
  /-- Past the check, without a slot. -/
  | checked (cached : Option (ConditionalResponse γ))
  /-- A mutation with a slot, before its pacing. -/
  | slotted (cached : Option (ConditionalResponse γ))
  /-- Holds the mutation lock and sleeps until `wake`. -/
  | pacing (cached : Option (ConditionalResponse γ)) (wake : ℚ)
  | ready (cached : Option (ConditionalResponse γ))
  | sent (cached : Option (ConditionalResponse γ))
  | answered (cached : Option (ConditionalResponse γ)) (held : β) (answer : HttpAnswer β)
  | ended (held : Option β) (outcome : Outcome γ)

/-- Past the check and not yet sent. -/
def RequestPhase.isWaiting {β γ : Type*} : RequestPhase β γ → Bool
  | .checked _ => true
  | .slotted _ => true
  | .pacing _ _ => true
  | .ready _ => true
  | _ => false

/-- The cached response a call carries. -/
def RequestPhase.cached {β γ : Type*} : RequestPhase β γ → Option (ConditionalResponse γ)
  | .checked cached => cached
  | .slotted cached => cached
  | .pacing cached _ => cached
  | .ready cached => cached
  | .sent cached => cached
  | .answered cached _ _ => cached
  | _ => none

/-- When the sleep of a paced call is over. -/
def RequestPhase.wake {β γ : Type*} : RequestPhase β γ → Option ℚ
  | .pacing _ wake => some wake
  | _ => none

def RequestPhase.isReady {β γ : Type*} : RequestPhase β γ → Bool
  | .ready _ => true
  | _ => false

/-- On the wire. -/
def RequestPhase.isSent {β γ : Type*} : RequestPhase β γ → Bool
  | .sent _ => true
  | _ => false

inductive RequestEvent (ι δ γ : Type*)
  | sent (i : ι) (time : ℚ)
  | blocked (token : δ) (retryAt : ℚ)
  | ended (i : ι) (outcome : Outcome γ) (time : ℚ)
  deriving DecidableEq

/-- The calls, and what the client takes from its surroundings: `hashlib` and `json`. -/
structure Traffic (ι δ β γ : Type*) where
  call : ι → GitHubCall
  digest : String → δ
  loads : β → Option γ

/-- The client, its threads, the wall clock and the server. -/
structure Requests (ι δ β γ : Type*) where
  client : GitHubClient δ γ
  clock : ℚ
  slots : ℕ
  mutationLock : Option ι
  content : (pat path : String) → β
  phase : ι → RequestPhase β γ
  log : List (RequestEvent ι δ γ)

inductive RequestAction (ι β : Type*)
  | check (i : ι)
  | takeSlot (i : ι)
  | lockMutation (i : ι)
  | paced (i : ι)
  | send (i : ι)
  | answer (i : ι) (answer : HttpAnswer β)
  | handle (i : ι)
  | setClock (time : ℚ)
  | evolve (content : (pat path : String) → β)

def mutationDelaySeconds : ℚ := 1

/-- When the sleep of `_pace_mutation` is over. -/
def wakeAt (now lastMutationAt : ℚ) : ℚ :=
  let delay := mutationDelaySeconds - (now - lastMutationAt)
  if 0 < delay then now + delay else now

/-- The sleep of a pacing reaches past the pause after the last mutation. -/
theorem le_wakeAt (now lastMutationAt : ℚ) :
    lastMutationAt + mutationDelaySeconds ≤ wakeAt now lastMutationAt := by
  unfold wakeAt
  dsimp only
  split_ifs with h
  · linarith
  · linarith

namespace Requests

variable {ι δ β γ : Type*} [DecidableEq ι]

/-- A new client: no call has begun. -/
def init (reserve maxConcurrentRequests : ℤ) (clock : ℚ) (content : (pat path : String) → β) :
    Requests ι δ β γ where
  client := { reserve := reserve }
  clock := clock
  slots := (max 1 maxConcurrentRequests).toNat
  mutationLock := none
  content := content
  phase := fun _ => .start
  log := []

def move (s : Requests ι δ β γ) (i : ι) (phase : RequestPhase β γ) : Requests ι δ β γ :=
  { s with phase := Function.update s.phase i phase }

@[simp] theorem move_phase (s : Requests ι δ β γ) (i : ι) (phase : RequestPhase β γ) :
    (s.move i phase).phase = Function.update s.phase i phase := rfl

def record (s : Requests ι δ β γ) (events : List (RequestEvent ι δ γ)) : Requests ι δ β γ :=
  { s with log := s.log ++ events }

omit [DecidableEq ι] in
@[simp] theorem record_phase (s : Requests ι δ β γ) (events : List (RequestEvent ι δ γ)) :
    (s.record events).phase = s.phase := rfl

end Requests

section Step

variable {ι δ β γ : Type*} [DecidableEq δ]

def Traffic.token (x : Traffic ι δ β γ) (i : ι) : δ := x.digest (x.call i).pat

def Traffic.key (x : Traffic ι δ β γ) (i : ι) : δ × String := (x.token i, (x.call i).path)

def Traffic.isMutation (x : Traffic ι δ β γ) (i : ι) : Bool := (x.call i).method.isMutation

/-- The cooldown that stands after a request raised `GitHubRateLimitError`. -/
def blockedEvents (client : GitHubClient δ γ) (token : δ) :
    Outcome γ → List (RequestEvent ι δ γ)
  | .raised (.rateLimit _ _) =>
      (client.blockedUntil.get token).elim [] fun retryAt => [.blocked token retryAt]
  | _ => []

/-- The cached response a call reads under the check. -/
def Traffic.cached (x : Traffic ι δ β γ) (client : GitHubClient δ γ) (i : ι) :
    Option (ConditionalResponse γ) :=
  if (x.call i).method = .get then client.conditionalCache.get (x.key i) else none

/-- What `handle` returns for a call. -/
def Traffic.handle (x : Traffic ι δ β γ) (client : GitHubClient δ γ) (i : ι)
    (cached : Option (ConditionalResponse γ)) (now : ℚ) (answer : HttpAnswer β) :
    GitHubClient δ γ × Outcome γ :=
  client.handle x.loads (x.token i) (x.call i).path (x.call i).method cached now answer

variable [DecidableEq ι]

/-- One step of `_request`, of the clock or of the server's content. -/
def requestStep (x : Traffic ι δ β γ) (s : Requests ι δ β γ) :
    RequestAction ι β → Option (Requests ι δ β γ)
  | .check i =>
      match s.phase i with
      | .start =>
          -- the cooldown is looked at here and not again
          match s.client.raiseIfBlocked (x.token i) s.clock with
          | .ok client => some ({ s with client := client }.move i (.checked (x.cached client i)))
          | .error error =>
              some ((s.move i (.ended none (.raised error))).record
                [.ended i (.raised error) s.clock])
      | _ => none
  | .takeSlot i =>
      match s.phase i with
      | .checked cached =>
          if 0 < s.slots then
            -- `_pace_mutation` returns at once for a GET
            some ({ s with slots := s.slots - 1 }.move i
              (if x.isMutation i then .slotted cached else .ready cached))
          else none
      | _ => none
  | .lockMutation i =>
      match s.phase i with
      | .slotted cached =>
          if s.mutationLock.isNone then
            some ({ s with mutationLock := some i }.move i
              (.pacing cached (wakeAt s.clock s.client.lastMutationAt)))
          else none
      | _ => none
  | .paced i =>
      match s.phase i with
      | .pacing cached _ =>
          -- the lock is left before the request is sent
          some ({ s with
            mutationLock := none
            client := { s.client with lastMutationAt := s.clock } }.move i (.ready cached))
      | _ => none
  | .send i =>
      match s.phase i with
      | .ready cached => some ((s.move i (.sent cached)).record [.sent i s.clock])
      | _ => none
  | .answer i answer =>
      match s.phase i with
      | .sent cached =>
          some (s.move i (.answered cached (s.content (x.call i).pat (x.call i).path) answer))
      | _ => none
  | .handle i =>
      match s.phase i with
      | .answered cached held answer =>
          -- the slot is given back however the request ends
          let (client, outcome) := x.handle s.client i cached s.clock answer
          some (({ s with client := client, slots := s.slots + 1 }.move i
            (.ended (some held) outcome)).record
              (blockedEvents client (x.token i) outcome ++ [RequestEvent.ended i outcome s.clock]))
      | _ => none
  | .setClock time => some { s with clock := time }
  | .evolve content => some { s with content := content }

/-- The cases of a step. -/
inductive RequestStep (x : Traffic ι δ β γ) (s : Requests ι δ β γ) :
    RequestAction ι β → Requests ι δ β γ → Prop
  | pass {i client} (hphase : s.phase i = .start)
      (hcheck : s.client.raiseIfBlocked (x.token i) s.clock = .ok client) :
      RequestStep x s (.check i)
        ({ s with client := client }.move i (.checked (x.cached client i)))
  | blocked {i error} (hphase : s.phase i = .start)
      (hcheck : s.client.raiseIfBlocked (x.token i) s.clock = .error error) :
      RequestStep x s (.check i)
        ((s.move i (.ended none (.raised error))).record [.ended i (.raised error) s.clock])
  | takeSlot {i cached} (hphase : s.phase i = .checked cached) :
      RequestStep x s (.takeSlot i)
        ({ s with slots := s.slots - 1 }.move i
          (if x.isMutation i then .slotted cached else .ready cached))
  | lockMutation {i cached} (hphase : s.phase i = .slotted cached) (hfree : s.mutationLock = none) :
      RequestStep x s (.lockMutation i)
        ({ s with mutationLock := some i }.move i
          (.pacing cached (wakeAt s.clock s.client.lastMutationAt)))
  | paced {i cached wake} (hphase : s.phase i = .pacing cached wake) :
      RequestStep x s (.paced i)
        ({ s with
          mutationLock := none
          client := { s.client with lastMutationAt := s.clock } }.move i (.ready cached))
  | send {i cached} (hphase : s.phase i = .ready cached) :
      RequestStep x s (.send i) ((s.move i (.sent cached)).record [.sent i s.clock])
  | answer {i answer cached} (hphase : s.phase i = .sent cached) :
      RequestStep x s (.answer i answer)
        (s.move i (.answered cached (s.content (x.call i).pat (x.call i).path) answer))
  | handle {i cached held answer} (client outcome)
      (hphase : s.phase i = .answered cached held answer)
      (hhandled : Handled x.loads s.client (x.token i) (x.call i).path (x.call i).method cached
        s.clock answer client outcome) :
      RequestStep x s (.handle i)
        (({ s with client := client, slots := s.slots + 1 }.move i
          (.ended (some held) outcome)).record
            (blockedEvents client (x.token i) outcome ++ [RequestEvent.ended i outcome s.clock]))
  | setClock {time} : RequestStep x s (.setClock time) { s with clock := time }
  | evolve {content} : RequestStep x s (.evolve content) { s with content := content }

/-- **What a step can do.** -/
theorem requestStep_cases {x : Traffic ι δ β γ} {s t : Requests ι δ β γ} {a : RequestAction ι β}
    (h : requestStep x s a = some t) : RequestStep x s a t := by
  cases a with
  | check i =>
    unfold requestStep at h
    dsimp only at h
    split at h
    · rename_i hphase
      split at h
      · rename_i client hcheck
        obtain rfl := Option.some.inj h
        exact .pass hphase hcheck
      · rename_i error hcheck
        obtain rfl := Option.some.inj h
        exact .blocked hphase hcheck
    · cases h
  | takeSlot i =>
    unfold requestStep at h
    dsimp only at h
    split at h
    · rename_i cached hphase
      by_cases hslot : 0 < s.slots
      · rw [if_pos hslot] at h
        obtain rfl := Option.some.inj h
        exact .takeSlot hphase
      · rw [if_neg hslot] at h
        cases h
    · cases h
  | lockMutation i =>
    unfold requestStep at h
    dsimp only at h
    split at h
    · rename_i cached hphase
      split_ifs at h with hfree
      obtain rfl := Option.some.inj h
      exact .lockMutation hphase (Option.isNone_iff_eq_none.1 hfree)
    · cases h
  | paced i =>
    unfold requestStep at h
    dsimp only at h
    split at h
    · rename_i cached wake hphase
      obtain rfl := Option.some.inj h
      exact .paced hphase
    · cases h
  | send i =>
    unfold requestStep at h
    dsimp only at h
    split at h
    · rename_i cached hphase
      obtain rfl := Option.some.inj h
      exact .send hphase
    · cases h
  | answer i answer =>
    unfold requestStep at h
    dsimp only at h
    split at h
    · rename_i cached hphase
      obtain rfl := Option.some.inj h
      exact .answer hphase
    · cases h
  | handle i =>
    unfold requestStep at h
    dsimp only at h
    split at h
    · rename_i cached held answer hphase
      obtain rfl := Option.some.inj h
      exact .handle _ _ hphase (handled x.loads s.client (x.token i) (x.call i).path
        (x.call i).method cached s.clock answer)
    · cases h
  | setClock time =>
    obtain rfl := Option.some.inj h
    exact .setClock
  | evolve content =>
    obtain rfl := Option.some.inj h
    exact .evolve

end Step

end RunnerSwarm
