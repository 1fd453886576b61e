import Mathlib
import RunnerSwarm.GitHub.Requests

/-!
# The pacing of mutations

`_mutation_lock` is there so that mutations stay strictly serial and paced. It is held for the sleep
and the note of the time, and released before the request is sent: nothing keeps a second mutation
from being sent while the first is still on the wire, or from being sent less than the pause after
a first one whose thread was held up in between.

* `PacedMutations` is what is promised, and `not_mutations_paced` a run of two deregistrations in
  which it fails;
* `mutations_paced`: it holds in every run in which a mutation is answered before the pacing of the
  next one ends, and is not held up for longer than the next one between its pacing and its send.
-/

namespace RunnerSwarm

variable {ι δ β γ : Type*}

/-- The times at which mutations were sent. -/
def mutationStarts (x : Traffic ι δ β γ) (log : List (RequestEvent ι δ γ)) : List ℚ :=
  log.filterMap fun
    | .sent i time => if x.isMutation i then some time else none
    | _ => none

/-- Mutations are serial and at least the pause apart. -/
structure PacedMutations (x : Traffic ι δ β γ) (s : Requests ι δ β γ) : Prop where
  serial : ∀ i j, x.isMutation i → x.isMutation j → (s.phase i).isSent → (s.phase j).isSent →
    i = j
  apart : (mutationStarts x s.log).Pairwise fun first second =>
    first + mutationDelaySeconds ≤ second

/-- The wall clock does not go back, and a sleep lasts at least its argument. -/
def Timely (s : Requests ι δ β γ) : RequestAction ι β → Prop
  | .setClock time => s.clock ≤ time
  | .paced i => ∀ wake ∈ (s.phase i).wake, wake ≤ s.clock
  | _ => True

/-- The pacing of a mutation ends only when no other one is still to be sent or on the wire. -/
def OneOut (x : Traffic ι δ β γ) (s : Requests ι δ β γ) : RequestAction ι β → Prop
  | .paced i => ∀ j, j ≠ i → x.isMutation j → (s.phase j).isReady = false ∧
      (s.phase j).isSent = false
  | _ => True

/-- When the pacing of a mutation ended, and when it was sent. -/
structure PacedSend where
  paced : ℚ
  sent : ℚ

/-- A mutation that is sent now. The last pacing that has ended is its own one as long as no other
mutation is out. -/
def Requests.sending (s : Requests ι δ β γ) : PacedSend where
  paced := s.client.lastMutationAt
  sent := s.clock

/-- The mutation that a step sends. -/
def pacedSend (x : Traffic ι δ β γ) (s : Requests ι δ β γ) : RequestAction ι β → Option PacedSend
  | .send i => if x.isMutation i then some s.sending else none
  | _ => none

/-- The first mutation was held up between its pacing and its send for no longer than the second
one, unless the pause after it was over anyway when the pacing of the second one ended. -/
def HeldUpNoLonger (first second : PacedSend) : Prop :=
  first.sent - first.paced ≤ second.sent - second.paced ∨
    first.sent + mutationDelaySeconds ≤ second.paced

instance decidableTimely (s : Requests ι δ β γ) : ∀ a, Decidable (Timely s a)
  | .setClock time => inferInstanceAs (Decidable (s.clock ≤ time))
  | .paced i => inferInstanceAs (Decidable (∀ wake ∈ (s.phase i).wake, wake ≤ s.clock))
  | .check _ => inferInstanceAs (Decidable True)
  | .takeSlot _ => inferInstanceAs (Decidable True)
  | .lockMutation _ => inferInstanceAs (Decidable True)
  | .send _ => inferInstanceAs (Decidable True)
  | .answer _ _ => inferInstanceAs (Decidable True)
  | .handle _ => inferInstanceAs (Decidable True)
  | .evolve _ => inferInstanceAs (Decidable True)

instance decidableOneOut [DecidableEq ι] [Fintype ι] (x : Traffic ι δ β γ)
    (s : Requests ι δ β γ) : ∀ a, Decidable (OneOut x s a)
  | .paced i => inferInstanceAs (Decidable (∀ j, j ≠ i → x.isMutation j →
      (s.phase j).isReady = false ∧ (s.phase j).isSent = false))
  | .check _ => inferInstanceAs (Decidable True)
  | .takeSlot _ => inferInstanceAs (Decidable True)
  | .lockMutation _ => inferInstanceAs (Decidable True)
  | .send _ => inferInstanceAs (Decidable True)
  | .answer _ _ => inferInstanceAs (Decidable True)
  | .handle _ => inferInstanceAs (Decidable True)
  | .setClock _ => inferInstanceAs (Decidable True)
  | .evolve _ => inferInstanceAs (Decidable True)

instance decidableHeldUpNoLonger : DecidableRel HeldUpNoLonger := fun first second =>
  inferInstanceAs (Decidable (first.sent - first.paced ≤ second.sent - second.paced ∨
    first.sent + mutationDelaySeconds ≤ second.paced))

/-! ### The invariant -/

/-- A mutation between the end of its pacing and its answer. -/
def Requests.Out (x : Traffic ι δ β γ) (s : Requests ι δ β γ) (i : ι) : Prop :=
  x.isMutation i ∧ ((s.phase i).isReady ∨ (s.phase i).isSent)

/-- The lock is held by the call that sleeps, whose sleep reaches past the pause. At most one
mutation is out, and while it is not sent the pacing of the last one in `past`, the mutations sent
so far, is a pause back. -/
structure Pacing (x : Traffic ι δ β γ) (past : List PacedSend) (s : Requests ι δ β γ) : Prop where
  lock : ∀ i, ∀ wake ∈ (s.phase i).wake, s.mutationLock = some i ∧
    s.client.lastMutationAt + mutationDelaySeconds ≤ wake
  out : ∀ i j, s.Out x i → s.Out x j → i = j
  starts : mutationStarts x s.log = past.map PacedSend.sent
  last : ∀ mutation ∈ past.getLast?, mutation.paced ≤ s.client.lastMutationAt
  gap : ∀ i, x.isMutation i → (s.phase i).isReady → s.client.lastMutationAt ≤ s.clock ∧
    ∀ mutation ∈ past.getLast?, mutation.paced + mutationDelaySeconds ≤ s.client.lastMutationAt
  apart : past.IsChain fun first second => first.sent + mutationDelaySeconds ≤ second.sent

theorem mutationDelaySeconds_nonneg : 0 ≤ mutationDelaySeconds := by
  unfold mutationDelaySeconds
  norm_num

/-- Starts that are a pause apart from their neighbours are so from all others. -/
theorem pairwise_apart {times : List ℚ}
    (h : times.IsChain fun first second => first + mutationDelaySeconds ≤ second) :
    times.Pairwise fun first second => first + mutationDelaySeconds ≤ second := by
  have htrans : IsTrans ℚ fun first second => first + mutationDelaySeconds ≤ second := by
    constructor
    intro first second third hfirst hsecond
    have := mutationDelaySeconds_nonneg
    linarith
  exact h.pairwise

theorem Pacing.pacedMutations {x : Traffic ι δ β γ} {past : List PacedSend}
    {s : Requests ι δ β γ} (h : Pacing x past s) : PacedMutations x s where
  serial := fun i j hi hj hsi hsj => h.out i j ⟨hi, Or.inr hsi⟩ ⟨hj, Or.inr hsj⟩
  apart := by
    rw [h.starts]
    apply pairwise_apart
    exact (List.isChain_map PacedSend.sent).2 h.apart

theorem mutationStarts_append (x : Traffic ι δ β γ) (log events : List (RequestEvent ι δ γ)) :
    mutationStarts x (log ++ events) = mutationStarts x log ++ mutationStarts x events :=
  List.filterMap_append

theorem mutationStarts_sent (x : Traffic ι δ β γ) (i : ι) (time : ℚ) :
    mutationStarts x [.sent i time] = if x.isMutation i then [time] else [] := by
  unfold mutationStarts
  cases hi : x.isMutation i <;> simp [hi]

/-- Recording a cooldown or the end of a call starts nothing. -/
theorem mutationStarts_ended (x : Traffic ι δ β γ) [DecidableEq δ] (client : GitHubClient δ γ)
    (token : δ) (i : ι) (outcome outcome' : Outcome γ) (time : ℚ) :
    mutationStarts x (blockedEvents client token outcome ++ [.ended i outcome' time]) = [] := by
  rw [mutationStarts_append]
  unfold blockedEvents
  split
  · cases client.blockedUntil.get token <;> rfl
  · rfl

section Step

variable [DecidableEq ι] [DecidableEq δ] {x : Traffic ι δ β γ} {past : List PacedSend}
  {s t : Requests ι δ β γ} {a : RequestAction ι β}

omit [DecidableEq δ] in
/-- A call moves to a phase in which it holds no lock and is not out. -/
theorem Pacing.move (h : Pacing x past s) {i : ι} {phase : RequestPhase β γ}
    (hmoved : t.phase = Function.update s.phase i phase)
    (hwake : phase.wake = none)
    (hidle : x.isMutation i → phase.isReady = false ∧ phase.isSent = false)
    (hlock : t.mutationLock = s.mutationLock)
    (hlast : t.client.lastMutationAt = s.client.lastMutationAt)
    (hclock : t.clock = s.clock)
    (hstarts : mutationStarts x t.log = mutationStarts x s.log) : Pacing x past t := by
  have hold : ∀ j, t.Out x j → s.Out x j ∧ j ≠ i := by
    rintro j ⟨hj, hout⟩
    rw [hmoved] at hout
    by_cases hji : j = i
    · subst hji
      rw [Function.update_self, (hidle hj).1, (hidle hj).2] at hout
      simp at hout
    · rw [Function.update_of_ne hji] at hout
      exact ⟨⟨hj, hout⟩, hji⟩
  refine ⟨fun j wake hj => ?_, fun j k hj hk => h.out j k (hold j hj).1 (hold k hk).1, ?_, ?_,
    fun j hj hjr => ?_, h.apart⟩
  · rw [hmoved] at hj
    by_cases hji : j = i
    · subst hji
      rw [Function.update_self, hwake] at hj
      cases hj
    · rw [Function.update_of_ne hji] at hj
      rw [hlock, hlast]
      exact h.lock j wake hj
  · rw [hstarts]
    exact h.starts
  · rw [hlast]
    exact h.last
  · rw [hlast, hclock]
    obtain ⟨-, hji⟩ := hold j ⟨hj, Or.inl hjr⟩
    rw [hmoved, Function.update_of_ne hji] at hjr
    exact h.gap j hj hjr

omit [DecidableEq δ] in
/-- A call that is asleep, or that has gone to sleep, is not out. -/
theorem out_of_sleep {i j : ι} {lock : Option ι} {cached : Option (ConditionalResponse γ)}
    {wake : ℚ}
    (h : Requests.Out x ({ s with mutationLock := lock }.move i (.pacing cached wake)) j) :
    s.Out x j ∧ j ≠ i := by
  obtain ⟨hj, hout⟩ := h
  rw [Requests.move_phase] at hout
  by_cases hji : j = i
  · subst hji
    rw [Function.update_self] at hout
    simp [RequestPhase.isReady, RequestPhase.isSent] at hout
  · rw [Function.update_of_ne hji] at hout
    exact ⟨⟨hj, hout⟩, hji⟩

omit [DecidableEq δ] in
/-- A mutation takes the lock. -/
theorem Pacing.sleep (h : Pacing x past s) (hfree : s.mutationLock = none) (i : ι)
    (cached : Option (ConditionalResponse γ)) :
    Pacing x past ({ s with mutationLock := some i }.move i
      (.pacing cached (wakeAt s.clock s.client.lastMutationAt))) := by
  refine ⟨fun j wake hj => ?_, fun j k hj hk => h.out j k (out_of_sleep hj).1 (out_of_sleep hk).1,
    h.starts, h.last, fun j hj hready => ?_, h.apart⟩
  · rw [Requests.move_phase] at hj
    by_cases hji : j = i
    · subst hji
      rw [Function.update_self] at hj
      obtain rfl := Option.mem_some_iff.1 hj
      exact ⟨rfl, le_wakeAt s.clock s.client.lastMutationAt⟩
    · -- nobody else sleeps: the lock was free
      rw [Function.update_of_ne hji] at hj
      have hlocked := (h.lock j wake hj).1
      rw [hfree] at hlocked
      cases hlocked
  · -- whoever is ready was so before
    obtain ⟨-, hji⟩ := out_of_sleep ⟨hj, Or.inl hready⟩
    rw [Requests.move_phase, Function.update_of_ne hji] at hready
    exact h.gap j hj hready

omit [DecidableEq δ] in
/-- The sleep is over. -/
theorem Pacing.wakeUp (h : Pacing x past s) {i : ι} {cached : Option (ConditionalResponse γ)}
    {wake : ℚ} (hphase : s.phase i = .pacing cached wake) (hwake : wake ≤ s.clock)
    (hok : ∀ j, j ≠ i → x.isMutation j → (s.phase j).isReady = false ∧ (s.phase j).isSent = false) :
    Pacing x past ({ s with
      mutationLock := none
      client := { s.client with lastMutationAt := s.clock } }.move i (.ready cached)) := by
  have hslept : wake ∈ (s.phase i).wake := by
    rw [hphase]
    exact Option.mem_some_self wake
  obtain ⟨hlock, hpause⟩ := h.lock i wake hslept
  have honly : ∀ j, Requests.Out x ({ s with
      mutationLock := none
      client := { s.client with lastMutationAt := s.clock } }.move i (.ready cached)) j → j = i := by
    rintro j ⟨hj, hout⟩
    by_contra hji
    rw [Requests.move_phase, Function.update_of_ne hji] at hout
    obtain ⟨hready, hsent⟩ := hok j hji hj
    rw [hready, hsent] at hout
    simp at hout
  have hgap : ∀ mutation ∈ past.getLast?, mutation.paced + mutationDelaySeconds ≤ s.clock := by
    intro mutation hmutation
    have hpaced := h.last mutation hmutation
    linarith
  refine ⟨fun j other hj => ?_, fun j k hj hk => (honly j hj).trans (honly k hk).symm, h.starts,
    fun mutation hmutation => ?_, fun _ _ _ => ⟨le_refl s.clock, hgap⟩, h.apart⟩
  · rw [Requests.move_phase] at hj
    by_cases hji : j = i
    · subst hji
      rw [Function.update_self] at hj
      cases hj
    · -- the lock has one holder
      rw [Function.update_of_ne hji] at hj
      have hlocked := (h.lock j other hj).1
      rw [hlock] at hlocked
      exact absurd (Option.some.inj hlocked).symm hji
  · show mutation.paced ≤ s.clock
    have hpaced := hgap mutation hmutation
    have hpositive := mutationDelaySeconds_nonneg
    linarith

/-- A mutation that is held up no less than the one before it starts a pause after it. -/
theorem HeldUpNoLonger.apart {first second : PacedSend} (h : HeldUpNoLonger first second)
    (hpaced : first.paced + mutationDelaySeconds ≤ second.paced)
    (hsent : second.paced ≤ second.sent) :
    first.sent + mutationDelaySeconds ≤ second.sent := by
  rcases h with h | h
  · linarith
  · linarith

omit [DecidableEq δ] in
/-- A mutation is sent. -/
theorem Pacing.sendMutation (h : Pacing x past s) {i : ι}
    {cached : Option (ConditionalResponse γ)} (hphase : s.phase i = .ready cached)
    (hi : x.isMutation i = true)
    (hchain : (past ++ [s.sending]).IsChain HeldUpNoLonger) :
    Pacing x (past ++ [s.sending])
      ((s.move i (.sent cached)).record [.sent i s.clock]) := by
  have hready : (s.phase i).isReady := by
    rw [hphase]
    rfl
  have hold : ∀ j, Requests.Out x ((s.move i (.sent cached)).record [.sent i s.clock]) j →
      s.Out x j := by
    rintro j ⟨hj, hout⟩
    by_cases hji : j = i
    · subst hji
      exact ⟨hj, Or.inl hready⟩
    · rw [Requests.record_phase, Requests.move_phase, Function.update_of_ne hji] at hout
      exact ⟨hj, hout⟩
  obtain ⟨hnow, hgap⟩ := h.gap i hi hready
  refine ⟨fun j wake hj => ?_, fun j k hj hk => h.out j k (hold j hj) (hold k hk), ?_,
    fun mutation hmutation => ?_, fun j hj hjr => ?_, ?_⟩
  · -- the sender holds no lock any more
    rw [Requests.record_phase, Requests.move_phase] at hj
    by_cases hji : j = i
    · subst hji
      rw [Function.update_self] at hj
      cases hj
    · rw [Function.update_of_ne hji] at hj
      exact h.lock j wake hj
  · refine (mutationStarts_append x s.log _).trans ?_
    rw [mutationStarts_sent, if_pos hi, h.starts, List.map_append]
    rfl
  · rw [List.getLast?_concat] at hmutation
    obtain rfl := Option.mem_some_iff.1 hmutation
    exact le_refl s.client.lastMutationAt
  · -- the only mutation that was out is now on the wire
    obtain rfl := h.out j i (hold j ⟨hj, Or.inl hjr⟩) ⟨hi, Or.inl hready⟩
    rw [Requests.record_phase, Requests.move_phase, Function.update_self] at hjr
    cases hjr
  · apply h.apart.append (List.isChain_singleton _)
    intro mutation hmutation now hnow'
    obtain rfl := Option.mem_some_iff.1 hnow'
    have hheld : HeldUpNoLonger mutation s.sending :=
      (List.isChain_append.1 hchain).2.2 mutation hmutation _ rfl
    exact hheld.apart (hgap mutation hmutation) hnow

/-- One step of the pacing. -/
theorem pacing_step (h : Pacing x past s) (htimely : Timely s a) (hok : OneOut x s a)
    (hchain : (past ++ (pacedSend x s a).toList).IsChain HeldUpNoLonger)
    (hstep : requestStep x s a = some t) : Pacing x (past ++ (pacedSend x s a).toList) t := by
  have hquiet : pacedSend x s a = none → Pacing x past t →
      Pacing x (past ++ (pacedSend x s a).toList) t := by
    intro hnone ht
    rw [hnone, Option.toList_none, List.append_nil]
    exact ht
  cases requestStep_cases hstep with
  | @pass i client hphase hcheck =>
    obtain ⟨-, rfl⟩ := GitHubClient.raiseIfBlocked_ok hcheck
    exact hquiet rfl (h.move rfl rfl (fun _ => ⟨rfl, rfl⟩) rfl rfl rfl rfl)
  | @blocked i error hphase hcheck =>
    apply hquiet rfl
    refine h.move rfl rfl (fun _ => ⟨rfl, rfl⟩) rfl rfl rfl ?_
    exact (mutationStarts_append x _ _).trans (List.append_nil _)
  | @takeSlot i cached hphase =>
    apply hquiet rfl
    refine h.move rfl ?_ (fun hi => ?_) rfl rfl rfl rfl
    · split_ifs
      · rfl
      · rfl
    · rw [if_pos hi]
      exact ⟨rfl, rfl⟩
  | @lockMutation i cached hphase hfree => exact hquiet rfl (h.sleep hfree i cached)
  | @paced i cached wake hphase =>
    apply hquiet rfl
    refine h.wakeUp hphase (htimely wake ?_) hok
    rw [hphase]
    exact Option.mem_some_self wake
  | @send i cached hphase =>
    by_cases hi : x.isMutation i = true
    · have hnote : pacedSend x s (.send i) = some s.sending := if_pos hi
      rw [hnote] at hchain ⊢
      exact h.sendMutation hphase hi hchain
    · apply hquiet (if_neg hi)
      refine h.move rfl rfl (fun hmutation => absurd hmutation hi) rfl rfl rfl ?_
      refine (mutationStarts_append x s.log _).trans ?_
      rw [mutationStarts_sent, if_neg hi, List.append_nil]
  | @answer i answer cached hphase =>
    exact hquiet rfl (h.move rfl rfl (fun _ => ⟨rfl, rfl⟩) rfl rfl rfl rfl)
  | @handle i cached held answer client outcome hphase hhandled =>
    apply hquiet rfl
    refine h.move rfl rfl (fun _ => ⟨rfl, rfl⟩) rfl hhandled.lastMutationAt rfl ?_
    exact (mutationStarts_append x _ _).trans
      (by rw [mutationStarts_ended, List.append_nil]; rfl)
  | @setClock time =>
    apply hquiet rfl
    refine ⟨h.lock, h.out, h.starts, h.last, fun i hi hready => ?_, h.apart⟩
    obtain ⟨hnow, hgap⟩ := h.gap i hi hready
    exact ⟨hnow.trans htimely, hgap⟩
  | evolve => exact hquiet rfl ⟨h.lock, h.out, h.starts, h.last, h.gap, h.apart⟩

/-- **Mutations are serial and paced** in every run in which none is out when the pacing of another
one ends, and none is held up between its pacing and its send for longer than the next one. -/
theorem mutations_paced (x : Traffic ι δ β γ) (reserve maxConcurrentRequests : ℤ) (clock : ℚ)
    (content : (pat path : String) → β) {l : List (RequestAction ι β)}
    (htimely : Along (requestStep x) Timely
      (Requests.init reserve maxConcurrentRequests clock content) l)
    (hok : Along (requestStep x) (OneOut x)
      (Requests.init reserve maxConcurrentRequests clock content) l)
    (hheld : (notes (requestStep x) (pacedSend x)
      (Requests.init reserve maxConcurrentRequests clock content) l).IsChain HeldUpNoLonger)
    (hrun : run (requestStep x) (Requests.init reserve maxConcurrentRequests clock content) l =
      some s) : PacedMutations x s := by
  have hinit : Pacing x [] (Requests.init reserve maxConcurrentRequests clock content) := by
    refine ⟨fun _ _ hwake => (Option.not_mem_none _ hwake).elim, fun i j hi _ => ?_, rfl,
      fun _ hlast => (Option.not_mem_none _ hlast).elim, fun i _ hready => ?_, List.isChain_nil⟩
    · obtain ⟨-, hout | hout⟩ := hi
      · cases hout
      · cases hout
    · cases hready
  have hpacing : Pacing x ([] ++ notes (requestStep x) (pacedSend x) _ l) s := run_notes
    (fun _ _ _ _ h hsa hchain hstep => pacing_step h hsa.1 hsa.2 hchain hstep) hinit
    (along_and htimely hok) hheld hrun
  exact hpacing.pacedMutations

end Step

/-! ### Two deregistrations -/

/-- Two runners are deregistered by two threads. -/
def twoDeletes : Traffic Bool String Unit Unit where
  call := fun second => ⟨"pat", if second then "/runners/2" else "/runners/1", .delete⟩
  digest := id
  loads := some

/-- The first one is on the wire for longer than the pause. -/
def slowDelete : List (RequestAction Bool Unit) :=
  [.check false, .takeSlot false, .check true, .takeSlot true, .lockMutation false, .paced false,
    .send false, .lockMutation true, .setClock 101, .paced true, .send true]

/-- **A second mutation is sent while the first is on the wire.** -/
theorem not_mutations_paced :
    ¬ ∀ (l : List (RequestAction Bool Unit)) (s : Requests Bool String Unit Unit),
      Along (requestStep twoDeletes) Timely (Requests.init 100 8 100 fun _ _ => ()) l →
      run (requestStep twoDeletes) (Requests.init 100 8 100 fun _ _ => ()) l = some s →
      PacedMutations twoDeletes s := by
  intro h
  have hpaced := h slowDelete _ (by decide +kernel) rfl
  exact absurd (hpaced.serial false true rfl rfl rfl rfl) (by decide)

/-- The first one is sent a hundredth of a second after its pacing, and answered in time; the
second one is held up for longer. -/
def answeredDelete : List (RequestAction Bool Unit) :=
  [.check false, .takeSlot false, .check true, .takeSlot true, .lockMutation false, .paced false,
    .setClock (100 + 1 / 100), .send false, .lockMutation true,
    .answer false (.ok 204 (fun _ => none) ()), .handle false, .setClock 101, .paced true,
    .setClock (101 + 1 / 50), .send true]

/-- The same two when the first is answered in time. -/
theorem mutations_paced_answered : ∃ s : Requests Bool String Unit Unit,
    run (requestStep twoDeletes) (Requests.init 100 8 100 fun _ _ => ()) answeredDelete = some s ∧
      PacedMutations twoDeletes s :=
  ⟨_, rfl, mutations_paced twoDeletes 100 8 100 (fun _ _ => ()) (l := answeredDelete)
    (by decide +kernel) (by decide +kernel) (by decide +kernel) rfl⟩

end RunnerSwarm
