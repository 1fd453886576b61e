import RunnerSwarm.Docker.AgeLimits
import RunnerSwarm.Lib.Ordered
import RunnerSwarm.Server.ControlRoutes

/-!
# What the text of an age is good for

The reapers compare the age of a container with a limit, and a scale down picks the runner with the
most minutes. Both read the age from the text of `docker ps`. A text that cannot be read leaves a
container below every limit, and counts as no minutes.

* `shownAge` are the minutes the dashboard shows for an age;
* `idleContainer_run`: the victim of a scale down is the first idle runner with the most of them;
* `age_order_iff`: when a container that has grown older is still over its limit, when the older of
  two containers has no fewer minutes, and when the victim is an oldest idle runner.
-/

namespace RunnerSwarm

/-- The minutes shown for an age. -/
def shownAge (age : ℚ) : ℚ := if ReadableAge age then readAge age else 0

theorem runningMinutes_text (F : RunningFor) (age : ℚ) :
    runningMinutes (F.text age) = .finite (shownAge age) := by
  unfold runningMinutes shownAge
  rw [parse_text]
  split_ifs <;> rfl

theorem readAge_pos {age : ℚ} (h : ReadableAge age) : 0 < readAge age := by
  rcases lt_or_ge age 60 with hshort | hlong
  · unfold readAge
    rcases (readableAge_iff_of_lt hshort).1 h with ⟨hsecond, hone⟩ | htwo
    · have hfloor : 0 < ⌊60 * age⌋₊ := Nat.floor_pos.2 (by linarith)
      have hcast : (0 : ℚ) < ⌊60 * age⌋₊ := by exact_mod_cast hfloor
      rw [if_pos hone]
      linarith
    · have hfloor : 0 < ⌊age⌋₊ := Nat.floor_pos.2 (by linarith)
      rw [if_neg (by linarith), if_pos hshort]
      exact_mod_cast hfloor
  · linarith [le_readAge hlong h]

/-- **The older of two shows no fewer minutes** unless its text cannot be read and the other's can.
-/
theorem shownAge_le_iff {a b : ℚ} (h : a ≤ b) :
    shownAge a ≤ shownAge b ↔ (ReadableAge a → ReadableAge b) := by
  unfold shownAge
  split_ifs with ha hb hb
  · exact iff_of_true (readAge_mono ha hb h) fun _ => hb
  · exact iff_of_false (not_le.2 (readAge_pos ha)) fun himp => hb (himp ha)
  · exact iff_of_true (readAge_pos hb).le fun _ => hb
  · exact iff_of_true le_rfl fun hread => absurd hread ha

/-- The texts of the two ages give the same minutes, or neither can be read. -/
def ReadsAlike (a b : ℚ) : Prop :=
  (ReadableAge a ↔ ReadableAge b) ∧ (ReadableAge a → readAge a = readAge b)

theorem shownAge_eq_iff {a b : ℚ} : shownAge a = shownAge b ↔ ReadsAlike a b := by
  unfold shownAge ReadsAlike
  split_ifs with ha hb hb
  · exact ⟨fun h => ⟨iff_of_true ha hb, fun _ => h⟩, fun h => h.2 ha⟩
  · exact iff_of_false (readAge_pos ha).ne' fun h => hb (h.1.1 ha)
  · exact iff_of_false (readAge_pos hb).ne fun h => ha (h.1.2 hb)
  · exact iff_of_true rfl ⟨iff_of_false ha hb, fun hread => absurd hread ha⟩

/-- **The older of two shows more minutes** if it does not show fewer, and they are not read alike.
-/
theorem shownAge_lt_iff {a b : ℚ} (h : a ≤ b) :
    shownAge a < shownAge b ↔ (ReadableAge a → ReadableAge b) ∧ ¬ ReadsAlike a b := by
  rw [lt_iff_le_and_ne, shownAge_le_iff h, Ne, shownAge_eq_iff]

/-- The body of the loop over the candidates. -/
def betterOf (best : Option ContainerInfo) (info : ContainerInfo) : Option ContainerInfo :=
  match best with
  | none => some info
  | some b => if b.minutes.lt info.minutes then some info else some b

theorem oldest_eq_foldl (candidates : List ContainerInfo) :
    oldest candidates = candidates.foldl betterOf none := rfl

/-- The candidate that is picked, when all minutes are numbers. -/
theorem oldest_eq_argmax {candidates : List ContainerInfo} {minutes : ContainerInfo → ℚ}
    (h : ∀ info ∈ candidates, info.minutes = .finite (minutes info)) :
    oldest candidates = candidates.argmax minutes := by
  -- The two loops have the same best candidate so far.
  have hfold : ∀ best : Option ContainerInfo, (∀ b ∈ best, b.minutes = .finite (minutes b)) →
      candidates.foldl betterOf best =
      candidates.foldl (List.argAux fun b c => minutes c < minutes b) best := by
    induction candidates with
    | nil => exact fun best _ => rfl
    | cons info candidates ih =>
      intro best hbest
      have hinfo := h info List.mem_cons_self
      have hrest := ih fun i hi => h i (List.mem_cons_of_mem info hi)
      rw [List.foldl_cons, List.foldl_cons]
      cases best with
      | none => exact hrest (some info) fun b hb => by rwa [← Option.some.inj hb]
      | some b =>
        have hb := hbest b rfl
        dsimp only [List.argAux, betterOf]
        rw [hb, hinfo]
        simp only [finite_lt_finite]
        split_ifs
        · exact hrest (some info) fun c hc => by rwa [← Option.some.inj hc]
        · exact hrest (some b) fun c hc => by rwa [← Option.some.inj hc]
  rw [oldest_eq_foldl]
  exact hfold none nofun

section Victim

variable (site : Site) (docker : DockerAnswers) (pool : PoolConfig) (w : World)

/-- The candidates of a scale down. -/
def idleRunners : List ContainerInfo :=
  (containerDetails site.nameFilter docker w.containers pool.containerPrefix).filter fun info =>
    !w.store.isBusy info.name

theorem idleContainer_run : (idleContainer site docker pool).run w =
    (.ok ((oldest (idleRunners site docker pool w)).map (·.name)), w) := rfl

end Victim

/-- Docker prints these ages of the containers. -/
def Prints (F : RunningFor) (age : String → ℚ) (containers : List Container) : Prop :=
  ∀ c ∈ containers, c.runningFor = F.text (age c.name)

instance (F : RunningFor) (age : String → ℚ) (containers : List Container) :
    Decidable (Prints F age containers) :=
  inferInstanceAs (Decidable (∀ c ∈ containers, c.runningFor = F.text (age c.name)))

section Order

variable {F : RunningFor} {age : String → ℚ} {site : Site} {docker : DockerAnswers}
  {pool : PoolConfig} {w : World}

theorem minutes_of_prints (h : Prints F age w.containers) {start : String} :
    ∀ info ∈ containerDetails site.nameFilter docker w.containers start,
      info.minutes = .finite (shownAge (age info.name)) := by
  intro info hinfo
  unfold containerDetails at hinfo
  split_ifs at hinfo
  · cases hinfo
  · obtain ⟨c, hc, rfl⟩ := List.mem_map.1 hinfo
    dsimp only
    rw [h c (List.mem_filter.1 hc).1, runningMinutes_text]

/-- One of these runners is an oldest one, its age can be read unless no age can be, and no runner
listed before it has an age that is read alike. -/
def PicksOldest (age : String → ℚ) (runners : List ContainerInfo) : Prop :=
  ∃ earlier info later, runners = earlier ++ info :: later ∧
    (∀ i ∈ runners, age i.name ≤ age info.name) ∧
    (ReadableAge (age info.name) ∨ ∀ i ∈ runners, ¬ ReadableAge (age i.name)) ∧
    ∀ i ∈ earlier, ¬ ReadsAlike (age i.name) (age info.name)

/-- An oldest runner shows the most minutes if its age can be read or none can be. -/
theorem most_minutes_iff {runners : List ContainerInfo} {info : ContainerInfo}
    (holdest : ∀ i ∈ runners, age i.name ≤ age info.name) :
    (∀ i ∈ runners, shownAge (age i.name) ≤ shownAge (age info.name)) ↔
      ReadableAge (age info.name) ∨ ∀ i ∈ runners, ¬ ReadableAge (age i.name) := by
  constructor
  · intro hmost
    by_cases hread : ReadableAge (age info.name)
    · exact Or.inl hread
    · refine Or.inr fun i hi hreadable => hread ?_
      exact (shownAge_le_iff (holdest i hi)).1 (hmost i hi) hreadable
  · intro hcase i hi
    refine (shownAge_le_iff (holdest i hi)).2 fun hreadable => ?_
    rcases hcase with hread | hnone
    · exact hread
    · exact absurd hreadable (hnone i hi)

/-- It is picked if moreover those before it show fewer. -/
theorem picks_iff {earlier later : List ContainerInfo} {info : ContainerInfo}
    (holdest : ∀ i ∈ earlier ++ info :: later, age i.name ≤ age info.name) :
    ((∀ i ∈ earlier, shownAge (age i.name) < shownAge (age info.name)) ∧
      ∀ i ∈ later, shownAge (age i.name) ≤ shownAge (age info.name)) ↔
    (ReadableAge (age info.name) ∨ ∀ i ∈ earlier ++ info :: later, ¬ ReadableAge (age i.name)) ∧
      ∀ i ∈ earlier, ¬ ReadsAlike (age i.name) (age info.name) := by
  rw [← most_minutes_iff holdest]
  have hmem : ∀ i ∈ earlier, age i.name ≤ age info.name :=
    fun i hi => holdest i (List.mem_append_left _ hi)
  constructor
  · rintro ⟨hearlier, hlater⟩
    refine ⟨fun i hi => ?_, fun i hi => ((shownAge_lt_iff (hmem i hi)).1 (hearlier i hi)).2⟩
    rcases List.mem_append.1 hi with hi | hi
    · exact (hearlier i hi).le
    · rcases List.mem_cons.1 hi with rfl | hi
      · exact le_refl _
      · exact hlater i hi
  · rintro ⟨hmost, hearlier⟩
    refine ⟨fun i hi => (shownAge_lt_iff (hmem i hi)).2 ⟨?_, hearlier i hi⟩, fun i hi => ?_⟩
    · exact (shownAge_le_iff (hmem i hi)).1 (hmost i (List.mem_append_left _ hi))
    · exact hmost i (List.mem_append_right _ (List.mem_cons_of_mem info hi))

/-- **When the victim is an oldest idle runner.** -/
theorem victim_oldest_iff (h : Prints F age w.containers) :
    (∀ victim, (idleContainer site docker pool).run w = (.ok (some victim), w) →
      ∀ info ∈ idleRunners site docker pool w, age info.name ≤ age victim) ↔
    (idleRunners site docker pool w = [] ∨ PicksOldest age (idleRunners site docker pool w)) := by
  have hmax : oldest (idleRunners site docker pool w) =
      (idleRunners site docker pool w).argmax fun info => shownAge (age info.name) :=
    oldest_eq_argmax fun info hinfo => minutes_of_prints h info (List.mem_filter.1 hinfo).1
  rw [idleContainer_run, hmax]
  generalize idleRunners site docker pool w = idle
  constructor
  · intro hall
    cases hvictim : idle.argmax fun info => shownAge (age info.name) with
    | none => exact Or.inl (List.argmax_eq_none.1 hvictim)
    | some info =>
      obtain ⟨earlier, later, rfl, hshown⟩ := argmax_eq_some_iff_append.1 hvictim
      rw [hvictim] at hall
      have holdest := hall info.name rfl
      exact Or.inr ⟨earlier, info, later, rfl, holdest, (picks_iff holdest).1 hshown⟩
  · rintro (rfl | ⟨earlier, info, later, rfl, holdest, hpicked⟩) victim hrun i hi
    · cases hi
    · have hshown := (picks_iff holdest).2 hpicked
      rw [argmax_eq_some_iff_append.2 ⟨earlier, later, rfl, hshown⟩] at hrun
      obtain rfl : info.name = victim := by simpa using hrun
      exact holdest i hi

end Order

/-! ### Order of ages -/

/-- A container that nothing else spares is still over the limit at a greater age, if that can be
read. -/
theorem still_over_iff {exposed : Prop} {a b : ℚ} (h : a ≤ b) {limit : ℤ} :
    (exposed ∧ ReadableAge a ∧ limit ≤ readAge a → exposed ∧ ReadableAge b ∧ limit ≤ readAge b) ↔
      ¬ exposed ∨ (ReadableAge a ∧ limit ≤ readAge a → ReadableAge b) := by
  constructor
  · intro hstill
    by_cases hexposed : exposed
    · exact Or.inr fun hover => (hstill ⟨hexposed, hover⟩).2.1
    · exact Or.inl hexposed
  · rintro hcase ⟨hexposed, hread, hlimit⟩
    have hread' : ReadableAge b := hcase.resolve_left (not_not.2 hexposed) ⟨hread, hlimit⟩
    exact ⟨hexposed, hread', hlimit.trans (readAge_mono hread hread' h)⟩

/-- A host with one container, some days old. -/
def leakedHost (days : ℚ) : RunningContainers :=
  ⟨[("gh-runner-ci-1", days * 1440)], List.nodup_singleton _⟩

/-- The ages of two runners. -/
def pairAges (name : String) : ℚ := if name = "gh-runner-ci-1" then 40 else 70

/-- Two idle runners of a pool, of 40 and of 70 minutes. -/
def pairWorld : World :=
  { World.empty with
    containers := ["gh-runner-ci-1", "gh-runner-ci-2"].map fun name =>
      ⟨name, "", "", dockerAges.text (pairAges name), true⟩ }

def pairPool : PoolConfig := { name := "ci", pat := "t", owner := "acme" }

/-- **Getting older can save a container**: after thirteen days it is over a limit of six hours, and
after fourteen it is not. Of two idle runners the one of 40 minutes is stopped and the one of 70 is
not: its age is printed as about an hour. -/
theorem older_container_spared :
    cleanupAged (dockerAges.listing (leakedHost 13)) 360 [] = ["gh-runner-ci-1"] ∧
      cleanupAged (dockerAges.listing (leakedHost 14)) 360 [] = [] ∧
      cleanupStuck (dockerAges.listing (leakedHost 13)) [] 8 (fun _ => some false) =
        ["gh-runner-ci-1"] ∧
      cleanupStuck (dockerAges.listing (leakedHost 14)) [] 8 (fun _ => some false) = [] ∧
      (containerDetails (plainSite []).nameFilter {} pairWorld.containers "gh-runner-ci").map
        (·.minutes) = [.finite 40, .finite 0] ∧
      ((idleContainer (plainSite []) {} pairPool).run pairWorld).1 =
        .ok (some "gh-runner-ci-1") ∧
      pairAges "gh-runner-ci-1" < pairAges "gh-runner-ci-2" := by
  decide +kernel

/-- **What growing older does**: a container that is over a limit stays over it exactly when its
text can still be read; the older of two shows no fewer minutes unless its text cannot be read and
the other's can; and the victim of a scale down is an oldest idle runner exactly when one of these
can be read, or none can, and no runner listed before it is read alike. -/
theorem age_order_iff (F : RunningFor) {before after : RunningContainers} {name : String} {a b : ℚ}
    (ha : (name, a) ∈ before.ages) (hb : (name, b) ∈ after.ages) (hle : a ≤ b) (limit : ℤ)
    (exclude onlineNames : List String) (runningJob : String → Option Bool)
    {age : String → ℚ} {w : World} (hprints : Prints F age w.containers)
    (site : Site) (docker : DockerAnswers) (pool : PoolConfig) :
    ((name ∈ cleanupAged (F.listing before) limit exclude →
        name ∈ cleanupAged (F.listing after) limit exclude) ↔
      limit ≤ 0 ∨ name ∈ exclude ∨ (ReadableAge a ∧ limit ≤ readAge a → ReadableAge b)) ∧
    ((name ∈ cleanupStuck (F.listing before) onlineNames limit runningJob →
        name ∈ cleanupStuck (F.listing after) onlineNames limit runningJob) ↔
      name ∈ onlineNames ∨ runningJob name ≠ some false ∨
        (ReadableAge a ∧ limit ≤ readAge a → ReadableAge b)) ∧
    (∀ start, ∀ i ∈ containerDetails site.nameFilter docker w.containers start,
      ∀ j ∈ containerDetails site.nameFilter docker w.containers start,
        age i.name ≤ age j.name → (i.minutes.le j.minutes = true ↔
          (ReadableAge (age i.name) → ReadableAge (age j.name)))) ∧
    ((∀ victim, (idleContainer site docker pool).run w = (.ok (some victim), w) →
        ∀ info ∈ idleRunners site docker pool w, age info.name ≤ age victim) ↔
      (idleRunners site docker pool w = [] ∨
        PicksOldest age (idleRunners site docker pool w))) := by
  refine ⟨?_, ?_, fun start i hi j hj hij => ?_, victim_oldest_iff hprints⟩
  · have hstill := @still_over_iff (0 < limit ∧ name ∉ exclude) a b hle limit
    rw [and_assoc, and_assoc, not_and_or, not_lt, not_not, or_assoc] at hstill
    rw [mem_cleanupAged ha, mem_cleanupAged hb]
    exact hstill
  · have hstill := @still_over_iff (name ∉ onlineNames ∧ runningJob name = some false) a b hle limit
    rw [and_assoc, and_assoc, not_and_or, not_not, or_assoc] at hstill
    rw [mem_cleanupStuck ha, mem_cleanupStuck hb]
    exact hstill
  · rw [minutes_of_prints hprints i hi, minutes_of_prints hprints j hj, ← shownAge_le_iff hij]
    exact decide_eq_true_iff

theorem age_order_iff_leaked :
    "gh-runner-ci-1" ∈ cleanupAged (dockerAges.listing (leakedHost 3)) 360 [] := by
  have h := @age_order_iff dockerAges (leakedHost 2) (leakedHost 3) "gh-runner-ci-1" 2880 4320
    (by decide +kernel) (by decide +kernel) (by norm_num) 360 [] [] (fun _ => none) pairAges
    pairWorld (by decide +kernel) (plainSite []) {} pairPool
  exact h.1.2 (Or.inr (Or.inr fun _ => by decide +kernel)) (by decide +kernel)

end RunnerSwarm
