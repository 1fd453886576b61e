import RunnerSwarm.Docker.Spawn
import RunnerSwarm.Lib.Log
import RunnerSwarm.Lib.Run
import RunnerSwarm.Lib.Table

/-!
# The image of a runner

`ensureImage` is `ensure_image`: it inspects an image and, when that is not usable, pulls it from
its registry or builds it. After a pull or a build that fails, `_build_retry_at` holds the image
back for five minutes. A pull that ends well and brings an unusable image notes nothing.

Calls are serialized by `_build_lock`. An `ImageCall` is one of them, with what the method meets,
and `ImageRun` the client after some of them, under a clock that never goes back.

* `ensureImage_cases`: the four things a call can do;
* `ensured_images`: what holds of every run of the client. That it rests after an attempt which left
  the image unusable takes that every pull that ends well brings a usable image.
-/

namespace RunnerSwarm

/-! ### One call -/

def buildRetrySeconds : ℚ := 300

/-- `RUNNER_BUILD_CONTEXT`. -/
def runnerBuildContext : String := "/app/runner-image"

def runtimeGid : String := "runtime"

/-- The digits that are not decimal: superscripts, circled digits and the like. -/
def otherDigits : List (ℕ × ℕ) :=
  [(0xb2, 0xb3), (0xb9, 0xb9), (0x1369, 0x1371), (0x19da, 0x19da), (0x2070, 0x2070),
    (0x2074, 0x2079), (0x2080, 0x2089), (0x2460, 0x2468), (0x2474, 0x247c), (0x2488, 0x2490),
    (0x24ea, 0x24ea), (0x24f5, 0x24fd), (0x24ff, 0x24ff), (0x2776, 0x277e), (0x2780, 0x2788),
    (0x278a, 0x2792), (0x10a40, 0x10a43), (0x10e60, 0x10e68), (0x11052, 0x1105a),
    (0x1f100, 0x1f10a)]

/-- `str.isdigit`. -/
def isDigitText (s : List Char) : Bool :=
  !s.isEmpty && s.all fun c => (digitValue c).isSome ||
    otherDigits.any fun range => range.1 ≤ c.toNat && c.toNat ≤ range.2

/-- `_is_registry_ref`. -/
def isRegistryRef (image : String) : Bool := '/' ∈ image.toList.takeWhile (· ≠ '@')

/-- `_pinned_runner_version`. -/
def pinnedRunnerVersion (image : String) : String :=
  let tag := (image.toList.dropWhile (· ≠ ':')).drop 1
  let parts := tag.splitOn '.'
  if 2 ≤ parts.length ∧ parts.all isDigitText then String.ofList tag else ""

/-- `_image_state`, from the answer of `docker image inspect`: none for an image that is usable,
else the reason why it is not. -/
def imageState (gid : ℕ) (inspected : CommandResult String) : Option String :=
  if inspected.code ≠ 0 then some "missing"
  else
    let label := strip inspected.output
    if label = runtimeGid ∨ label = toString gid then none
    else some ("built for docker GID " ++ (if label = "" then "unknown" else label) ++
      ", host socket is " ++ toString gid)

/-- A call of `ensure_image`, with what it meets. -/
structure ImageCall where
  image : String
  /-- `_host_docker_gid()`. -/
  gid : ℕ
  /-- The answer of `docker image inspect`. -/
  inspected : CommandResult String
  /-- Whether the build context has a Dockerfile. -/
  hasContext : Bool
  /-- `time.monotonic()`, when the retry time is looked up. -/
  checkedAt : ℚ
  /-- The exit code of `docker pull` or `docker build`. -/
  exitCode : ℤ
  /-- The answer of `docker image inspect` after a pull. -/
  pulled : CommandResult String
  /-- `time.monotonic()`, when the pull or the build has ended. -/
  endedAt : ℚ
  deriving DecidableEq

/-- The result of `ensure_image`, the arguments of the `docker` that pulls or builds, and
`_build_retry_at` afterwards. -/
structure EnsuredImage where
  usable : Bool
  command : Option (List String)
  retryAt : Table String ℚ

/-- `_backing_off`. -/
def backingOff (retryAt : Table String ℚ) (image : String) (now : ℚ) : Bool :=
  now < (retryAt.get image).getD 0

/-- `_pull`. -/
def pullImage (retryAt : Table String ℚ) (image : String) (c : ImageCall) : EnsuredImage :=
  if backingOff retryAt image c.checkedAt then ⟨false, none, retryAt⟩
  else if c.exitCode ≠ 0 then
    ⟨false, some ["pull", image], retryAt.put image (c.endedAt + buildRetrySeconds)⟩
  else if (imageState c.gid c.pulled).isSome then ⟨false, some ["pull", image], retryAt⟩
  else ⟨true, some ["pull", image], retryAt⟩

/-- The arguments of `docker build`. -/
def buildArgs (image : String) : List String :=
  let pinned := pinnedRunnerVersion image
  "build" :: (if pinned ≠ "" then ["--build-arg", "RUNNER_VERSION=" ++ pinned] else []) ++
    ["-t", image, runnerBuildContext]

/-- `ensure_image`. -/
def ensureImage (version : String) (retryAt : Table String ℚ) (c : ImageCall) : EnsuredImage :=
  let image := expandImage c.image version
  if (imageState c.gid c.inspected).isNone then ⟨true, none, retryAt⟩
  else if isRegistryRef image then pullImage retryAt image c
  else if !c.hasContext then ⟨false, none, retryAt⟩
  else if backingOff retryAt image c.checkedAt then ⟨false, none, retryAt⟩
  else if c.exitCode ≠ 0 then
    ⟨false, some (buildArgs image), retryAt.put image (c.endedAt + buildRetrySeconds)⟩
  else ⟨true, some (buildArgs image), retryAt⟩

/-- The command that a call may give: a reference to a registry is pulled. -/
def imageCommand (image : String) : List String :=
  if isRegistryRef image then ["pull", image] else buildArgs image

/-- The pull or the build of a call fails, or the pulled image is not usable. -/
def ImageCall.leavesUnusable (c : ImageCall) (image : String) : Bool :=
  c.exitCode ≠ 0 || (isRegistryRef image && (imageState c.gid c.pulled).isSome)

/-- What a call can do: neither pull nor build, because the image is usable, because there is no
Dockerfile or because the image backs off; or attempt to get the image. -/
theorem ensureImage_cases (version : String) (retryAt : Table String ℚ) (c : ImageCall) :
    (∃ usable, ensureImage version retryAt c = ⟨usable, none, retryAt⟩ ∧
      (usable = true → imageState c.gid c.inspected = none) ∧
      ((imageState c.gid c.inspected).isSome = true →
        (isRegistryRef (expandImage c.image version) || c.hasContext) = true →
          backingOff retryAt (expandImage c.image version) c.checkedAt = true)) ∨
    ((imageState c.gid c.inspected).isSome = true ∧
      backingOff retryAt (expandImage c.image version) c.checkedAt = false ∧
      ensureImage version retryAt c =
        ⟨!c.leavesUnusable (expandImage c.image version),
          some (imageCommand (expandImage c.image version)),
          if c.exitCode ≠ 0 then
            retryAt.put (expandImage c.image version) (c.endedAt + buildRetrySeconds)
          else retryAt⟩) := by
  unfold ensureImage pullImage ImageCall.leavesUnusable imageCommand
  dsimp only
  generalize expandImage c.image version = image
  cases hstate : imageState c.gid c.inspected with
  | none => exact Or.inl ⟨true, rfl, fun _ => rfl, fun h => by cases h⟩
  | some reason =>
    cases href : isRegistryRef image with
    | true =>
      cases hback : backingOff retryAt image c.checkedAt with
      | true => exact Or.inl ⟨false, rfl, fun h => (by cases h), fun _ _ => rfl⟩
      | false =>
        refine Or.inr ⟨rfl, rfl, ?_⟩
        by_cases hcode : c.exitCode = 0
        · cases hpulled : imageState c.gid c.pulled <;> simp [hcode]
        · simp [hcode]
    | false =>
      cases hcontext : c.hasContext with
      | false => exact Or.inl ⟨false, rfl, fun h => (by cases h), fun _ h => by cases h⟩
      | true =>
        cases hback : backingOff retryAt image c.checkedAt with
        | true => exact Or.inl ⟨false, rfl, fun h => (by cases h), fun _ _ => rfl⟩
        | false =>
          refine Or.inr ⟨rfl, rfl, ?_⟩
          by_cases hcode : c.exitCode = 0 <;> simp [hcode]

/-! ### Runs of the client -/

/-- A call that has been made, and what came of it. -/
structure ImageEvent where
  call : ImageCall
  /-- The image, after `expand_image`. -/
  image : String
  command : Option (List String)
  usable : Bool

namespace ImageEvent

variable (e : ImageEvent)

/-- The call started a pull or a build that did not leave the image usable. -/
def failedAttempt : Bool := e.command.isSome && e.call.leavesUnusable e.image

/-- The image was not usable and the call could have pulled or built it, and did not. -/
def heldBack : Bool :=
  e.command.isNone && (imageState e.call.gid e.call.inspected).isSome &&
    (isRegistryRef e.image || e.call.hasContext)

/-- No attempt for the image that left it unusable ended in the last five minutes. -/
def Rested (past : List ImageEvent) : Prop :=
  ∀ a ∈ past, a.image = e.image → a.failedAttempt = true →
    a.call.endedAt + buildRetrySeconds ≤ e.call.checkedAt

/-- A command is a pull, for a reference to a registry; the image backs off for an attempt of its
own; and the image is called usable for a reason. -/
def InOrder (past : List ImageEvent) : Prop :=
  (isRegistryRef e.image = true → ∀ args ∈ e.command, args = ["pull", e.image]) ∧
  (e.heldBack = true → ∃ a ∈ past, a.image = e.image ∧ a.failedAttempt = true ∧
    e.call.checkedAt < a.call.endedAt + buildRetrySeconds) ∧
  (e.usable = true → imageState e.call.gid e.call.inspected = none ∨
    (e.command.isSome = true ∧ e.failedAttempt = false))

end ImageEvent

/-- The client, as far as it looks after images. -/
structure ImageRun where
  clock : ℚ
  /-- `_build_retry_at`. -/
  retryAt : Table String ℚ
  log : List ImageEvent

namespace ImageRun

/-- A new client. The monotonic clock is never negative. -/
def new : ImageRun := ⟨0, Table.empty, []⟩

/-- The event of a call. -/
def event (version : String) (s : ImageRun) (c : ImageCall) : ImageEvent :=
  ⟨c, expandImage c.image version, (ensureImage version s.retryAt c).command,
    (ensureImage version s.retryAt c).usable⟩

/-- A call, which no other one overlaps. -/
def step (version : String) (s : ImageRun) (c : ImageCall) : Option ImageRun :=
  if s.clock ≤ c.checkedAt ∧ c.checkedAt ≤ c.endedAt then
    some ⟨c.endedAt, (ensureImage version s.retryAt c).retryAt, s.log ++ [event version s c]⟩
  else none

/-- A pull that the call starts and that ends well brings a usable image. -/
def PullUsable (version : String) (s : ImageRun) (c : ImageCall) : Prop :=
  (imageState c.gid c.inspected).isSome = true →
    isRegistryRef (expandImage c.image version) = true →
      backingOff s.retryAt (expandImage c.image version) c.checkedAt = false →
        c.exitCode = 0 → imageState c.gid c.pulled = none

instance (version : String) (s : ImageRun) (c : ImageCall) : Decidable (PullUsable version s c) :=
  inferInstanceAs (Decidable (_ → _ → _ → _ → _))

variable {version : String} {s t : ImageRun} {c : ImageCall}

theorem step_eq (version : String) (hstart : s.clock ≤ c.checkedAt)
    (hend : c.checkedAt ≤ c.endedAt) :
    step version s c = some
      ⟨c.endedAt, (ensureImage version s.retryAt c).retryAt, s.log ++ [event version s c]⟩ :=
  if_pos ⟨hstart, hend⟩

theorem step_eq_some (h : step version s c = some t) :
    s.clock ≤ c.checkedAt ∧ c.checkedAt ≤ c.endedAt ∧
      t = ⟨c.endedAt, (ensureImage version s.retryAt c).retryAt, s.log ++ [event version s c]⟩ := by
  unfold step at h
  split_ifs at h with htime
  exact ⟨htime.1, htime.2, (Option.some.inj h).symm⟩

/-! ### Back-off -/

/-- Every retry time is five minutes after an attempt for its own image that failed. -/
def Sourced (s : ImageRun) : Prop :=
  ∀ image at', s.retryAt.get image = some at' → ∃ a ∈ s.log,
    a.image = image ∧ a.failedAttempt = true ∧ at' = a.call.endedAt + buildRetrySeconds

theorem Sourced.backingOff (h : s.Sourced) {image : String} {now : ℚ} (hnow : 0 ≤ now)
    (hback : RunnerSwarm.backingOff s.retryAt image now = true) :
    ∃ a ∈ s.log, a.image = image ∧ a.failedAttempt = true ∧
      now < a.call.endedAt + buildRetrySeconds := by
  unfold RunnerSwarm.backingOff at hback
  have hlt := of_decide_eq_true hback
  cases hget : s.retryAt.get image with
  | none =>
    rw [hget] at hlt
    exact absurd hlt (not_lt.2 hnow)
  | some at' =>
    rw [hget] at hlt
    obtain ⟨a, ha, himage, hfailed, rfl⟩ := h image at' hget
    exact ⟨a, ha, himage, hfailed, hlt⟩

/-- The event of a call, from what the call returns. -/
theorem event_eq {usable : Bool} {command : Option (List String)} {retryAt : Table String ℚ}
    (h : ensureImage version s.retryAt c = ⟨usable, command, retryAt⟩) :
    event version s c = ⟨c, expandImage c.image version, command, usable⟩ := by
  unfold event
  rw [h]

theorem Sourced.step (h : s.Sourced) (ht : ImageRun.step version s c = some t) : t.Sourced := by
  obtain ⟨-, -, rfl⟩ := step_eq_some ht
  intro image at' hget
  have hkeep : s.retryAt.get image = some at' → ∃ a ∈ s.log ++ [event version s c],
      a.image = image ∧ a.failedAttempt = true ∧ at' = a.call.endedAt + buildRetrySeconds := by
    intro hold
    obtain ⟨a, ha, hrest⟩ := h image at' hold
    exact ⟨a, List.mem_append_left _ ha, hrest⟩
  rcases ensureImage_cases version s.retryAt c with ⟨usable, heq, -, -⟩ | ⟨-, -, heq⟩
  · exact hkeep (by rwa [heq] at hget)
  · rw [heq] at hget
    dsimp only at hget
    split_ifs at hget with hcode
    · rw [Table.get_put] at hget
      split_ifs at hget with himage
      · have hfailed : (event version s c).failedAttempt = true := by
          rw [event_eq heq]
          unfold ImageEvent.failedAttempt ImageCall.leavesUnusable
          simp [hcode]
        exact ⟨event version s c, by simp, himage.symm, hfailed, (Option.some.inj hget).symm⟩
      · exact hkeep hget
    · exact hkeep hget

/-- What a call does, it does in order. -/
theorem Sourced.inOrder (h : s.Sourced) (hnow : 0 ≤ c.checkedAt) :
    (event version s c).InOrder s.log := by
  unfold ImageEvent.InOrder ImageEvent.heldBack ImageEvent.failedAttempt
  rcases ensureImage_cases version s.retryAt c with ⟨usable, heq, husable, hheld⟩ | ⟨-, -, heq⟩
  · rw [event_eq heq]
    refine ⟨fun _ args hargs => (by cases hargs), fun hidle => ?_, fun h => Or.inl (husable h)⟩
    obtain ⟨hleft, hcould⟩ := Bool.and_eq_true_iff.1 hidle
    exact h.backingOff hnow (hheld (Bool.and_eq_true_iff.1 hleft).2 hcould)
  · rw [event_eq heq]
    refine ⟨fun href args hargs => ?_, fun hidle => (by cases hidle), fun h => Or.inr ⟨rfl, ?_⟩⟩
    · obtain rfl := Option.some.inj hargs
      unfold imageCommand
      rw [if_pos href]
    · exact Bool.not_eq_true' _ ▸ h

/-! ### Rest -/

/-- The attempts that left an image unusable are over, and it backs off for each of them. -/
def Armed (s : ImageRun) : Prop :=
  ∀ a ∈ s.log, a.call.endedAt ≤ s.clock ∧
    (a.failedAttempt = true →
      a.call.endedAt + buildRetrySeconds ≤ (s.retryAt.get a.image).getD 0)

theorem Armed.rested (h : s.Armed) (hcommand : (event version s c).command.isSome = true) :
    (event version s c).Rested s.log := by
  intro a ha himage hfailed
  have hbound := (h a ha).2 hfailed
  rw [himage] at hbound
  rcases ensureImage_cases version s.retryAt c with ⟨usable, heq, -, -⟩ | ⟨-, hback, -⟩
  · rw [event_eq heq] at hcommand
    cases hcommand
  · exact hbound.trans (not_lt.1 (of_decide_eq_false hback))

/-- A retry time that is noted is later than the ones before it. -/
theorem Armed.put (h : s.Armed) {image : String} {now : ℚ} (hnow : s.clock ≤ now) {a : ImageEvent}
    (ha : a ∈ s.log) (hfailed : a.failedAttempt = true) :
    a.call.endedAt + buildRetrySeconds ≤
      ((s.retryAt.put image (now + buildRetrySeconds)).get a.image).getD 0 := by
  rw [Table.get_put]
  split_ifs with himage
  · exact add_le_add_left ((h a ha).1.trans hnow) buildRetrySeconds
  · exact (h a ha).2 hfailed

theorem Armed.step (h : s.Armed) (hpull : PullUsable version s c)
    (ht : ImageRun.step version s c = some t) : t.Armed := by
  obtain ⟨hstart, hend, rfl⟩ := step_eq_some ht
  have hlater : s.clock ≤ c.endedAt := hstart.trans hend
  intro a ha
  rcases ensureImage_cases version s.retryAt c with ⟨usable, heq, -, -⟩ | ⟨hstate, hback, heq⟩
  · rw [event_eq heq] at ha
    rw [heq]
    rcases List.mem_append.1 ha with ha | ha
    · exact ⟨(h a ha).1.trans hlater, (h a ha).2⟩
    · obtain rfl := List.mem_singleton.1 ha
      exact ⟨le_rfl, fun hfailed => by cases hfailed⟩
  · rw [event_eq heq] at ha
    rw [heq]
    rcases List.mem_append.1 ha with ha | ha
    · refine ⟨(h a ha).1.trans hlater, fun hfailed => ?_⟩
      dsimp only
      split_ifs
      · exact h.put hlater ha hfailed
      · exact (h a ha).2 hfailed
    · obtain rfl := List.mem_singleton.1 ha
      refine ⟨le_rfl, fun hfailed => ?_⟩
      have hcode : c.exitCode ≠ 0 := by
        -- a pull that ends well brings a usable image, and a build that does is not looked at
        intro hcode
        obtain ⟨href, hpulled⟩ : isRegistryRef (expandImage c.image version) = true ∧
            (imageState c.gid c.pulled).isSome = true := by
          simpa [ImageEvent.failedAttempt, ImageCall.leavesUnusable, hcode] using hfailed
        rw [hpull hstate href hback hcode] at hpulled
        cases hpulled
      dsimp only
      rw [if_pos hcode, Table.get_put, if_pos rfl]
      exact le_rfl

/-- **The image of a runner.** In every run of the client a reference to a registry is only ever
pulled, an image backs off for its own failed attempts only, and an image that is called usable has
been found usable or has just been pulled or built. In every run whose pulls bring usable images, no
image is attempted for five minutes after an attempt that left it unusable. -/
theorem ensured_images {l : List ImageCall} (h : run (ImageRun.step version) new l = some s) :
    (Along (ImageRun.step version) (PullUsable version) new l →
      EachEvent (fun past e => e.command.isSome = true → e.Rested past) s.log) ∧
    EachEvent (fun past e => e.InOrder past) s.log := by
  constructor
  · intro hpulls
    have hkeep : ∀ (s : ImageRun) c t,
        s.Armed ∧ EachEvent (fun past e => e.command.isSome = true → e.Rested past) s.log →
          PullUsable version s c → ImageRun.step version s c = some t →
            t.Armed ∧
              EachEvent (fun past e => e.command.isSome = true → e.Rested past) t.log := by
      rintro s c t ⟨harmed, hlog⟩ hpull ht
      refine ⟨harmed.step hpull ht, ?_⟩
      obtain ⟨-, -, rfl⟩ := step_eq_some ht
      exact hlog.concat harmed.rested
    have hnew : new.Armed := fun a ha => by cases ha
    exact (run_invariant hkeep ⟨hnew, eachEvent_nil⟩ hpulls h).2
  · have hkeep : ∀ (s : ImageRun) c t,
        (0 ≤ s.clock ∧ s.Sourced ∧ EachEvent (fun past e => e.InOrder past) s.log) → True →
          ImageRun.step version s c = some t →
            0 ≤ t.clock ∧ t.Sourced ∧ EachEvent (fun past e => e.InOrder past) t.log := by
      rintro s c t ⟨hclock, hsourced, hlog⟩ - ht
      have hnext := hsourced.step ht
      obtain ⟨hstart, hend, rfl⟩ := step_eq_some ht
      have hnow := hclock.trans hstart
      exact ⟨hnow.trans hend, hnext, hlog.concat (hsourced.inOrder hnow)⟩
    have hnew : new.Sourced := fun image at' hget => by cases hget
    exact (run_invariant hkeep ⟨le_rfl, hnew, eachEvent_nil⟩
      (along_of_forall (fun _ _ => trivial) _ _) h).2.2

/-- A published image, whose registry answers only after a while. -/
def slowCall (now : ℚ) : ImageCall :=
  ⟨"ghcr.io/acme/gh-runner:1.0", 991, ⟨"", 1⟩, true, now, if now < 100 then 1 else 0,
    ⟨"runtime", 0⟩, now + 5⟩

/-- A pull that fails, and one that is tried again later. -/
theorem ensured_images_slow : ∃ s,
    run (ImageRun.step "1.0") new [slowCall 10, slowCall 20, slowCall 400] = some s ∧
    EachEvent (fun past e => e.command.isSome = true → e.Rested past) s.log ∧
    EachEvent (fun past e => e.InOrder past) s.log := by
  have hsome : (run (ImageRun.step "1.0") new
      [slowCall 10, slowCall 20, slowCall 400]).isSome = true := by decide +kernel
  obtain ⟨s, hs⟩ := Option.isSome_iff_exists.1 hsome
  have h := ensured_images hs
  exact ⟨s, hs, h.1 (by decide +kernel), h.2⟩

/-- The same image, built for the group of another host. -/
def foreignCall (now : ℚ) : ImageCall :=
  ⟨"ghcr.io/acme/gh-runner:1.0", 991, ⟨"988", 0⟩, true, now, 0, ⟨"988", 0⟩, now + 5⟩

/-- A pull that brings an unusable image is repeated ten seconds later. -/
theorem not_rested : ∃ s, run (ImageRun.step "1.0") new [foreignCall 10, foreignCall 20] = some s ∧
    ¬ EachEvent (fun past e => e.command.isSome = true → e.Rested past) s.log := by
  have hfirst := step_eq "1.0" (s := new) (c := foreignCall 10) (by decide +kernel)
    (by decide +kernel)
  set s := ImageRun.mk _ _ _
  have hsecond := step_eq "1.0" (s := s) (c := foreignCall 20) (by decide +kernel)
    (by decide +kernel)
  refine ⟨_, by rw [run_cons, hfirst, Option.bind_some, run_cons, hsecond]; rfl, fun h => ?_⟩
  have hrest := h [event "1.0" new (foreignCall 10)] (event "1.0" s (foreignCall 20)) [] rfl
    (by decide +kernel) _ (List.mem_singleton_self _) rfl (by decide +kernel)
  exact absurd hrest (by decide +kernel)

end ImageRun

end RunnerSwarm
