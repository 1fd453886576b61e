import RunnerSwarm.Lib.Log
import RunnerSwarm.GitHub.Requests

/-!
# Cooldowns

A response that reaches the reserve or a rate limit records, for its token, until when nothing is
to be sent. A request looks at that record once, before it waits for a slot and perhaps sleeps; a
cooldown that is recorded while it waits does not stop it.

* `CooldownsRespected` is the promise, on the log: after a recorded cooldown nothing is sent with
  its token before the cooldown is over, and what ends before that without having been sent has
  raised `GitHubRateLimitError`;
* `not_cooldowns_respected` is a run of two GETs that breaks it;
* `cooldowns_respected`: it holds in every run in which no limit is handled while another request
  with the token waits between its check and its send, and the wall clock is not set back to before
  a cooldown that the client has forgotten or that a request in flight has outlasted.
-/

namespace RunnerSwarm

variable {ι δ β γ : Type*}

/-- An event is in order after the events before it. -/
def RespectsCooldown (x : Traffic ι δ β γ) (past : List (RequestEvent ι δ γ)) :
    RequestEvent ι δ γ → Prop
  | .sent i time => ∀ retryAt, .blocked (x.token i) retryAt ∈ past → retryAt ≤ time
  | .ended i outcome time => ∀ before retryAt after,
      past = before ++ .blocked (x.token i) retryAt :: after →
      (∀ start, .sent i start ∉ before) → time < retryAt →
      ∃ blockedUntil reason, outcome = .raised (.rateLimit blockedUntil reason)
  | .blocked _ _ => True

/-- **Cooldowns are respected.** -/
def CooldownsRespected (x : Traffic ι δ β γ) (s : Requests ι δ β γ) : Prop :=
  EachEvent (RespectsCooldown x) s.log

/-- The answer a call has received is a limit. -/
def RequestPhase.isLimit (reserve : ℤ) (now : ℚ) : RequestPhase β γ → Bool
  | .answered cached _ answer => answer.isLimit reserve now cached.isSome
  | _ => false

/-- Sent, and not yet handled. -/
def RequestPhase.isUnderWay : RequestPhase β γ → Bool
  | .sent _ => true
  | .answered _ _ _ => true
  | _ => false

def RequestEvent.sends [DecidableEq ι] (i : ι) : RequestEvent ι δ γ → Bool
  | .sent j _ => j = i
  | _ => false

/-- A cooldown recorded after `past` is over at `time`, or the client still has it and what is in
flight with its token was sent before. -/
def StillHeld [DecidableEq ι] [DecidableEq δ] (x : Traffic ι δ β γ) (s : Requests ι δ β γ)
    (time : ℚ) (past : List (RequestEvent ι δ γ)) : RequestEvent ι δ γ → Prop
  | .blocked token retryAt => retryAt ≤ time ∨
      ((s.client.blockedUntil.get token).any (fun blockedUntil => retryAt ≤ blockedUntil) ∧
        ∀ i, x.token i = token → (s.phase i).isWaiting = false ∧
          ((s.phase i).isUnderWay → past.any fun event => event.sends i))
  | _ => True

/-- A clock that is set back leaves every cooldown `StillHeld`, and a limit is handled only while no
other request with its token is past its check and not yet sent. -/
def NoneWaiting [DecidableEq ι] [DecidableEq δ] (x : Traffic ι δ β γ) (s : Requests ι δ β γ) :
    RequestAction ι β → Prop
  | .setClock time => s.clock ≤ time ∨ EachEvent (StillHeld x s time) s.log
  | .handle i => (s.phase i).isLimit s.client.reserve s.clock → ∀ j, x.token j = x.token i →
      (s.phase j).isWaiting = false
  | _ => True

section Decidable

variable [DecidableEq ι] [DecidableEq δ] [Fintype ι] (x : Traffic ι δ β γ) (s : Requests ι δ β γ)

instance decidableStillHeld (time : ℚ) (past : List (RequestEvent ι δ γ)) :
    ∀ event, Decidable (StillHeld x s time past event)
  | .blocked token retryAt => inferInstanceAs (Decidable (retryAt ≤ time ∨
      ((s.client.blockedUntil.get token).any (fun blockedUntil => retryAt ≤ blockedUntil) ∧
        ∀ i, x.token i = token → (s.phase i).isWaiting = false ∧
          ((s.phase i).isUnderWay → past.any fun event => event.sends i))))
  | .sent _ _ => inferInstanceAs (Decidable True)
  | .ended _ _ _ => inferInstanceAs (Decidable True)

instance decidableNoneWaiting : ∀ a, Decidable (NoneWaiting x s a)
  | .setClock time => inferInstanceAs (Decidable
      (s.clock ≤ time ∨ EachEvent (StillHeld x s time) s.log))
  | .handle i => inferInstanceAs (Decidable ((s.phase i).isLimit s.client.reserve s.clock →
      ∀ j, x.token j = x.token i → (s.phase j).isWaiting = false))
  | .check _ => inferInstanceAs (Decidable True)
  | .takeSlot _ => inferInstanceAs (Decidable True)
  | .lockMutation _ => inferInstanceAs (Decidable True)
  | .paced _ => inferInstanceAs (Decidable True)
  | .send _ => inferInstanceAs (Decidable True)
  | .answer _ _ => inferInstanceAs (Decidable True)
  | .evolve _ => inferInstanceAs (Decidable True)

end Decidable

/-! ### The invariant -/

theorem exists_of_any_sends [DecidableEq ι] {i : ι} {past : List (RequestEvent ι δ γ)}
    (h : past.any fun event => event.sends i) : ∃ start, .sent i start ∈ past := by
  obtain ⟨event, hmem, hsends⟩ := List.any_eq_true.1 h
  cases event with
  | sent j start =>
    obtain rfl : j = i := of_decide_eq_true hsends
    exact ⟨start, hmem⟩
  | blocked | ended => cases hsends

/-- A cooldown of the token recorded after `past` is over, or the call was sent before. -/
def SentOrOver (x : Traffic ι δ β γ) (clock : ℚ) (i : ι) (past : List (RequestEvent ι δ γ)) :
    RequestEvent ι δ γ → Prop
  | .blocked token retryAt => token = x.token i → retryAt ≤ clock ∨ ∃ start, .sent i start ∈ past
  | _ => True

/-- The call was sent, and no cooldown held it then that is not over. -/
structure WasSent (x : Traffic ι δ β γ) (clock : ℚ) (i : ι) (log : List (RequestEvent ι δ γ)) :
    Prop where
  sent : ∃ start, .sent i start ∈ log
  inOrder : EachEvent (SentOrOver x clock i) log

/-- What is recorded later does not concern a call that was sent. -/
theorem WasSent.append {x : Traffic ι δ β γ} {clock : ℚ} {i : ι}
    {log : List (RequestEvent ι δ γ)} (h : WasSent x clock i log)
    (events : List (RequestEvent ι δ γ)) : WasSent x clock i (log ++ events) := by
  obtain ⟨start, hmem⟩ := h.sent
  refine ⟨⟨start, List.mem_append_left _ hmem⟩, h.inOrder.append fun pre event _ _ => ?_⟩
  cases event with
  | blocked token retryAt => exact fun _ => .inr ⟨start, List.mem_append_left _ hmem⟩
  | sent | ended => trivial

theorem WasSent.later {x : Traffic ι δ β γ} {clock time : ℚ} {i : ι}
    {log : List (RequestEvent ι δ γ)} (h : WasSent x clock i log) (hle : clock ≤ time) :
    WasSent x time i log := by
  refine ⟨h.sent, h.inOrder.mono fun past event hevent => ?_⟩
  cases event with
  | blocked token retryAt =>
    exact fun htoken => (hevent htoken).imp_left fun hover => hover.trans hle
  | sent | ended => trivial

/-- A recorded cooldown is over or still in the table; for a request that waits, those of its token
are over; and what is under way was sent. -/
structure Cooling [DecidableEq δ] (x : Traffic ι δ β γ) (s : Requests ι δ β γ) : Prop where
  recorded : ∀ token retryAt, .blocked token retryAt ∈ s.log →
    retryAt ≤ s.clock ∨ ∃ blockedUntil ∈ s.client.blockedUntil.get token, retryAt ≤ blockedUntil
  waiting : ∀ i, (s.phase i).isWaiting → ∀ retryAt, .blocked (x.token i) retryAt ∈ s.log →
    retryAt ≤ s.clock
  started : ∀ i, (s.phase i).isUnderWay → WasSent x s.clock i s.log
  respected : EachEvent (RespectsCooldown x) s.log

/-- A call that was sent ends in order: it was on the wire when the cooldown was recorded, or was
sent when it was over. -/
theorem respects_ended {x : Traffic ι δ β γ} {log : List (RequestEvent ι δ γ)} {i : ι} {now : ℚ}
    (h : WasSent x now i log) (outcome : Outcome γ) :
    RespectsCooldown x log (.ended i outcome now) := by
  rintro before retryAt after rfl hbefore hearly
  exfalso
  rcases h.inOrder before (.blocked (x.token i) retryAt) after rfl rfl with hover | ⟨start, hmem⟩
  · linarith
  · exact hbefore start hmem

section Step

variable [DecidableEq δ] [DecidableEq ι] {x : Traffic ι δ β γ} {s t : Requests ι δ β γ}
  {a : RequestAction ι β}

/-- One call moves, and the log grows by `events`. -/
theorem Cooling.move (h : Cooling x s) {i : ι} {phase : RequestPhase β γ}
    {events : List (RequestEvent ι δ γ)} (hmoved : t.phase = Function.update s.phase i phase)
    (hclock : t.clock = s.clock) (hlog : t.log = s.log ++ events)
    (hrecorded : ∀ token retryAt, .blocked token retryAt ∈ s.log ++ events →
      retryAt ≤ s.clock ∨ ∃ blockedUntil ∈ t.client.blockedUntil.get token,
        retryAt ≤ blockedUntil)
    (hwaiting : ∀ j, (Function.update s.phase i phase j).isWaiting → ∀ retryAt,
      .blocked (x.token j) retryAt ∈ s.log ++ events → retryAt ≤ s.clock)
    (hstarted : phase.isUnderWay → WasSent x s.clock i (s.log ++ events))
    (hrespected : EachEvent (RespectsCooldown x) (s.log ++ events)) : Cooling x t := by
  have hstarted' := (Function.forall_update_iff s.phase fun j phase => phase.isUnderWay →
    WasSent x s.clock j (s.log ++ events)).2
      ⟨hstarted, fun j _ hj => (h.started j hj).append events⟩
  refine ⟨?_, ?_, ?_, ?_⟩
  · rw [hlog, hclock]
    exact hrecorded
  · rw [hmoved, hlog, hclock]
    exact hwaiting
  · rw [hmoved, hlog, hclock]
    exact hstarted'
  · rw [hlog]
    exact hrespected

omit [DecidableEq δ] [DecidableEq ι] in
/-- Where nothing is recorded, the recorded cooldowns are the old ones. -/
theorem blocked_mem_append {events : List (RequestEvent ι δ γ)} {token : δ} {retryAt : ℚ}
    (hquiet : ∀ token retryAt, .blocked token retryAt ∉ events)
    (h : .blocked token retryAt ∈ s.log ++ events) : .blocked token retryAt ∈ s.log := by
  rcases List.mem_append.1 h with h | h
  · exact h
  · exact absurd h (hquiet token retryAt)

/-- One call moves without a look at the cooldowns, and only within its wait or off it. -/
theorem Cooling.moveQuiet (h : Cooling x s) {i : ι} {phase : RequestPhase β γ}
    {events : List (RequestEvent ι δ γ)} (hmoved : t.phase = Function.update s.phase i phase)
    (hclock : t.clock = s.clock) (hlog : t.log = s.log ++ events)
    (hblocked : t.client.blockedUntil = s.client.blockedUntil)
    (hquiet : ∀ token retryAt, .blocked token retryAt ∉ events)
    (hwait : phase.isWaiting → (s.phase i).isWaiting)
    (hstarted : phase.isUnderWay → WasSent x s.clock i (s.log ++ events))
    (hrespected : EachEvent (RespectsCooldown x) (s.log ++ events)) : Cooling x t := by
  refine h.move hmoved hclock hlog (fun token retryAt hmem => ?_) (fun j hj retryAt hmem => ?_)
    hstarted hrespected
  · rw [hblocked]
    exact h.recorded token retryAt (blocked_mem_append hquiet hmem)
  · refine h.waiting j ?_ retryAt (blocked_mem_append hquiet hmem)
    by_cases hji : j = i
    · subst hji
      rw [Function.update_self] at hj
      exact hwait hj
    · rwa [Function.update_of_ne hji] at hj

/-- A call passes the check: the cooldowns of its token are over. -/
theorem Cooling.pass (h : Cooling x s) {i : ι} {client : GitHubClient δ γ}
    {phase : RequestPhase β γ} (hcheck : s.client.raiseIfBlocked (x.token i) s.clock = .ok client)
    (hphase : phase.isUnderWay = false) : Cooling x ({ s with client := client }.move i phase) := by
  obtain ⟨hover, rfl⟩ := GitHubClient.raiseIfBlocked_ok hcheck
  have hdone : ∀ retryAt, .blocked (x.token i) retryAt ∈ s.log → retryAt ≤ s.clock := by
    intro retryAt hmem
    rcases h.recorded (x.token i) retryAt hmem with hle | ⟨blockedUntil, hget, hle⟩
    · exact hle
    · rw [Option.mem_def.1 hget] at hover
      exact hle.trans hover
  have hlog : s.log = s.log ++ [] := (List.append_nil s.log).symm
  refine h.move rfl rfl hlog (fun token retryAt hmem => ?_)
    (fun j hj retryAt hmem => ?_) (fun hway => ?_) (hlog ▸ h.respected)
  · rw [← hlog] at hmem
    by_cases htoken : token = x.token i
    · subst htoken
      exact Or.inl (hdone retryAt hmem)
    · rcases h.recorded token retryAt hmem with hle | ⟨blockedUntil, hget, hle⟩
      · exact Or.inl hle
      · refine Or.inr ⟨blockedUntil, ?_, hle⟩
        show blockedUntil ∈ (s.client.blockedUntil.erase (x.token i)).get token
        rw [Table.get_erase, if_neg htoken]
        exact hget
  · rw [← hlog] at hmem
    by_cases hji : j = i
    · subst hji
      exact hdone retryAt hmem
    · rw [Function.update_of_ne hji] at hj
      exact h.waiting j hj retryAt hmem
  · rw [hphase] at hway
    cases hway

/-- A call handles its answer while nobody with its token waits for a limit to be recorded. -/
theorem Cooling.handle (h : Cooling x s) {i : ι} {cached : Option (ConditionalResponse γ)}
    {held : β} {answer : HttpAnswer β} {client : GitHubClient δ γ} {outcome : Outcome γ}
    (hphase : s.phase i = .answered cached held answer)
    (hhandled : Handled x.loads s.client (x.token i) (x.call i).path (x.call i).method cached
      s.clock answer client outcome)
    (hok : answer.isLimit s.client.reserve s.clock cached.isSome → ∀ j, x.token j = x.token i →
      (s.phase j).isWaiting = false) :
    Cooling x (({ s with client := client, slots := s.slots + 1 }.move i
      (.ended (some held) outcome)).record
        (blockedEvents client (x.token i) outcome ++ [RequestEvent.ended i outcome s.clock])) := by
  have hsent := h.started i (by rw [hphase]; rfl)
  have hrespected : ∀ events : List (RequestEvent ι δ γ),
      EachEvent (RespectsCooldown x) (s.log ++ events) →
      EachEvent (RespectsCooldown x) (s.log ++ (events ++ [.ended i outcome s.clock])) := by
    intro events hevents
    rw [← List.append_assoc]
    exact hevents.concat (respects_ended (hsent.append events) outcome)
  rcases hhandled.cooldown with ⟨hsame, hnolimit⟩ | ⟨hlimit, retryAt, reason, rfl, htable⟩
  · -- no cooldown: the log grows by the end of the call alone
    have hnone : blockedEvents (ι := ι) client (x.token i) outcome = [] := by
      unfold blockedEvents
      split
      · exact absurd rfl (hnolimit _ _)
      · rfl
    rw [hnone]
    refine h.moveQuiet rfl rfl rfl hsame (by simp) (fun hwait => by cases hwait)
      (fun hway => by cases hway) (hrespected [] ?_)
    rw [List.append_nil]
    exact h.respected
  · have hget : ∀ token, client.blockedUntil.get token = if token = x.token i then
        some (max ((s.client.blockedUntil.get (x.token i)).getD 0) retryAt)
        else s.client.blockedUntil.get token := fun token => by
      rw [htable, Table.get_put]
    have hevents : blockedEvents (ι := ι) client (x.token i)
        (.raised (.rateLimit retryAt reason) : Outcome γ) =
          [.blocked (x.token i) (max ((s.client.blockedUntil.get (x.token i)).getD 0) retryAt)] := by
      unfold blockedEvents
      rw [hget, if_pos rfl]
      rfl
    rw [hevents]
    refine h.move rfl rfl rfl (fun token time hmem => ?_) (fun j hj time hmem => ?_)
      (fun hway => by cases hway) (hrespected _ (h.respected.concat trivial))
    · show _ ∨ ∃ blockedUntil ∈ client.blockedUntil.get token, _
      rw [hget]
      by_cases htoken : token = x.token i
      · subst htoken
        rw [if_pos rfl]
        rcases List.mem_append.1 hmem with hmem | hmem
        · -- the table keeps the later of two cooldowns
          rcases h.recorded _ time hmem with hle | ⟨previous, hprevious, hle⟩
          · exact Or.inl hle
          · refine Or.inr ⟨_, rfl, hle.trans ?_⟩
            rw [Option.mem_def.1 hprevious]
            exact le_max_left _ _
        · obtain rfl : time = max ((s.client.blockedUntil.get (x.token i)).getD 0) retryAt := by
            simpa using hmem
          exact Or.inr ⟨_, rfl, le_rfl⟩
      · rw [if_neg htoken]
        refine h.recorded token time ?_
        simpa [htoken] using hmem
    · by_cases hji : j = i
      · subst hji
        rw [Function.update_self] at hj
        cases hj
      · rw [Function.update_of_ne hji] at hj
        -- a call that waits has another token, by the condition of the run
        have htoken : x.token j ≠ x.token i := fun htoken => by
          rw [hok hlimit j htoken] at hj
          cases hj
        refine h.waiting j hj time ?_
        simpa [htoken] using hmem

omit [DecidableEq ι] in
/-- The clock goes on. -/
theorem Cooling.forward (h : Cooling x s) {time : ℚ} (hle : s.clock ≤ time) :
    Cooling x { s with clock := time } := by
  constructor
  · intro token retryAt hmem
    exact (h.recorded token retryAt hmem).imp_left fun hover => hover.trans hle
  · exact fun i hi retryAt hmem => (h.waiting i hi retryAt hmem).trans hle
  · exact fun i hi => (h.started i hi).later hle
  · exact h.respected

/-- The clock is set back, and every recorded cooldown is still held. -/
theorem Cooling.setBack (h : Cooling x s) {time : ℚ}
    (hheld : EachEvent (StillHeld x s time) s.log) : Cooling x { s with clock := time } := by
  have hmem : ∀ {token retryAt}, .blocked token retryAt ∈ s.log →
      ∃ past, StillHeld x s time past (.blocked token retryAt) := by
    intro token retryAt hmem
    obtain ⟨before, after, hlog⟩ := List.append_of_mem hmem
    exact ⟨before, hheld before _ after hlog⟩
  constructor
  · intro token retryAt hblocked
    obtain ⟨past, hover | ⟨hstill, -⟩⟩ := hmem hblocked
    · exact .inl hover
    · obtain ⟨blockedUntil, hget, hle⟩ := (Option.any_eq_true _ _).1 hstill
      exact .inr ⟨blockedUntil, hget, of_decide_eq_true hle⟩
  · intro i hi retryAt hblocked
    obtain ⟨past, hover | ⟨-, hflight⟩⟩ := hmem hblocked
    · exact hover
    · rw [(hflight i rfl).1] at hi
      cases hi
  · intro i hi
    refine ⟨(h.started i hi).sent, ?_⟩
    rintro before (_ | ⟨token, retryAt⟩ | _) after hlog
    · trivial
    · rintro rfl
      rcases hheld before _ after hlog with hover | ⟨-, hflight⟩
      · exact .inl hover
      · exact .inr (exists_of_any_sends ((hflight i rfl).2 hi))
    · trivial
  · exact h.respected

/-- One step, in a run in which no limit overtakes a request that waits. -/
theorem cooling_step (h : Cooling x s) (hok : NoneWaiting x s a)
    (hstep : requestStep x s a = some t) : Cooling x t := by
  have hlog : s.log = s.log ++ [] := (List.append_nil s.log).symm
  cases requestStep_cases hstep with
  | @pass i client hphase hcheck => exact h.pass hcheck rfl
  | @blocked i error hphase hcheck =>
    obtain ⟨retryAt, reason, rfl⟩ := GitHubClient.raiseIfBlocked_error hcheck
    refine h.moveQuiet rfl rfl rfl rfl (by simp) (fun hwait => by cases hwait)
      (fun hway => by cases hway) (h.respected.concat ?_)
    exact fun _ _ _ _ _ _ => ⟨retryAt, reason, rfl⟩
  | @takeSlot i cached hphase =>
    have hwait : (s.phase i).isWaiting := by
      rw [hphase]
      rfl
    refine h.moveQuiet rfl rfl hlog rfl (by simp) (fun _ => hwait) (fun hway => ?_)
      (hlog ▸ h.respected)
    split_ifs at hway
    · cases hway
    · cases hway
  | @lockMutation i cached hphase hfree =>
    have hwait : (s.phase i).isWaiting := by
      rw [hphase]
      rfl
    exact h.moveQuiet rfl rfl hlog rfl (by simp) (fun _ => hwait) (fun hway => by cases hway)
      (hlog ▸ h.respected)
  | @paced i cached wake hphase =>
    have hwait : (s.phase i).isWaiting := by
      rw [hphase]
      rfl
    exact h.moveQuiet rfl rfl hlog rfl (by simp) (fun _ => hwait) (fun hway => by cases hway)
      (hlog ▸ h.respected)
  | @send i cached hphase =>
    have hwait : (s.phase i).isWaiting := by
      rw [hphase]
      rfl
    have hover : EachEvent (SentOrOver x s.clock i) s.log := by
      rintro before (_ | ⟨token, retryAt⟩ | _) after heq
      · trivial
      · rintro rfl
        exact .inl (h.waiting i hwait retryAt (by simp [heq]))
      · trivial
    exact h.moveQuiet rfl rfl rfl rfl (by simp) (fun hnow => by cases hnow)
      (fun _ => ⟨⟨s.clock, by simp⟩, hover.concat trivial⟩)
      (h.respected.concat (h.waiting i hwait))
  | @answer i answer cached hphase =>
    have hway : (s.phase i).isUnderWay := by
      rw [hphase]
      rfl
    exact h.moveQuiet rfl rfl hlog rfl (by simp) (fun hnow => by cases hnow)
      (fun _ => hlog ▸ h.started i hway) (hlog ▸ h.respected)
  | @handle i cached held answer client outcome hphase hhandled =>
    refine h.handle hphase hhandled fun hlimit => hok ?_
    rw [hphase]
    exact hlimit
  | setClock =>
    rcases hok with hforward | hheld
    · exact h.forward hforward
    · exact h.setBack hheld
  | evolve => exact ⟨h.recorded, h.waiting, h.started, h.respected⟩

/-- **Cooldowns are respected** in every run in which no limit is handled while another request
with its token waits between its check and its send, and every cooldown is still held when the clock
is set back. -/
theorem cooldowns_respected (x : Traffic ι δ β γ) (reserve maxConcurrentRequests : ℤ) (clock : ℚ)
    (content : (pat path : String) → β) {l : List (RequestAction ι β)}
    (hok : Along (requestStep x) (NoneWaiting x)
      (Requests.init reserve maxConcurrentRequests clock content) l)
    (hrun : run (requestStep x) (Requests.init reserve maxConcurrentRequests clock content) l =
      some s) : CooldownsRespected x s := by
  have hinit : Cooling x (Requests.init reserve maxConcurrentRequests clock content) :=
    ⟨fun _ _ hmem => (List.not_mem_nil hmem).elim, fun _ hwait => (Bool.false_ne_true hwait).elim,
      fun _ hway => (Bool.false_ne_true hway).elim, eachEvent_nil⟩
  exact (run_invariant (fun _ _ _ => cooling_step) hinit hok hrun).respected

end Step

/-! ### A request that waits for a slot -/

/-- Two GETs with one token. -/
def twoGets : Traffic (Fin 2) String Unit Unit where
  call := fun i => ⟨"pat", if i = 0 then "/repos/o/a" else "/repos/o/b", .get⟩
  digest := id
  loads := some

/-- The server asks to wait for a minute. -/
def retryAfterMinute : HttpAnswer Unit :=
  .httpError 429 (fun name => if name = "Retry-After" then some "60" else none) (some "slow down")

/-- Both pass the check; the second waits for the only slot while the first is answered. -/
def lateRequest : List (RequestAction (Fin 2) Unit) :=
  [.check 0, .check 1, .takeSlot 0, .send 0, .answer 0 retryAfterMinute, .handle 0,
    .takeSlot 1, .send 1]

/-- **A request is sent a minute before the recorded cooldown is over.** -/
theorem not_cooldowns_respected :
    ¬ ∀ (l : List (RequestAction (Fin 2) Unit)) (s : Requests (Fin 2) String Unit Unit),
      run (requestStep twoGets) (Requests.init 100 1 100 fun _ _ => ()) l = some s →
      CooldownsRespected twoGets s := by
  intro h
  have hrun : (run (requestStep twoGets) (Requests.init 100 1 100 fun _ _ => ())
      lateRequest).map Requests.log = some
        [.sent 0 100, .blocked "pat" 160,
          .ended 0 (.raised (.rateLimit 160 "GitHub requested retry after 60s")) 100,
          .sent 1 100] := by decide +kernel
  obtain ⟨s, hs, hlog⟩ := Option.map_eq_some_iff.1 hrun
  have hlate : (160 : ℚ) ≤ 100 := h lateRequest s hs
    [.sent 0 100, .blocked "pat" 160,
      .ended 0 (.raised (.rateLimit 160 "GitHub requested retry after 60s")) 100]
    (.sent 1 100) [] hlog 160 (by simp [Traffic.token, twoGets])
  norm_num at hlate

/-- The second comes after the first has been handled, when the clock has been set back. -/
def laterRequest : List (RequestAction (Fin 2) Unit) :=
  [.check 0, .takeSlot 0, .send 0, .answer 0 retryAfterMinute, .handle 0, .setClock 90, .check 1]

/-- It is not sent. -/
theorem cooldowns_respected_later : ∃ s : Requests (Fin 2) String Unit Unit,
    run (requestStep twoGets) (Requests.init 100 1 100 fun _ _ => ()) laterRequest = some s ∧
      CooldownsRespected twoGets s := by
  have hrun : (run (requestStep twoGets) (Requests.init 100 1 100 fun _ _ => ())
      laterRequest).isSome := by decide +kernel
  obtain ⟨s, hs⟩ := Option.isSome_iff_exists.1 hrun
  exact ⟨s, hs, cooldowns_respected twoGets 100 1 100 (fun _ _ => ()) (by decide +kernel) hs⟩

end RunnerSwarm
