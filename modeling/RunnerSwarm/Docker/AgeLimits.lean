import RunnerSwarm.Docker.RunningFor

/-!
# Age limits

`cleanup_aged` and `cleanup_stuck` compare the age of a container with a limit in minutes. Both know
it only from the text `docker ps` prints, and from an hour on that text is rounded to whole hours.
So a container can be over a limit that it has not reached.

* `cleanupAged` is the backstop of `max_runner_lifetime`;
* `mem_cleanupAged` and `mem_cleanupStuck` say which containers of a host a reaper removes;
* `spared_below_limit_iff`: a container below the limit is left alone exactly when its age is not
  rounded past it, or something else spares it.
-/

namespace RunnerSwarm

/-- The comparison both reapers make. -/
def overLimit (limit : ℤ) (runningFor : String) : Bool :=
  match parseRunningMinutes runningFor with
  | none => false
  | some minutes => !minutes.lt (.finite limit)

/-- `cleanup_aged`: the containers it kills. Rows are name and running time. -/
def cleanupAged (listed : CommandResult (List (String × String))) (maxMinutes : ℤ)
    (exclude : List String) : List String :=
  if maxMinutes ≤ 0 then []
  else (listed.output.filter fun (name, runningFor) =>
    name ∉ exclude && overLimit maxMinutes runningFor).map Prod.fst

/-- The running containers of a prefix, with their ages in minutes. Docker has a name once. -/
structure RunningContainers where
  ages : List (String × ℚ)
  distinct : (ages.map Prod.fst).Nodup

/-- `docker ps` with the columns of the reapers. -/
def RunningFor.listing (F : RunningFor) (host : RunningContainers) :
    CommandResult (List (String × String)) :=
  ⟨host.ages.map fun c => (c.1, F.text c.2), 0⟩

theorem finite_lt_finite {p q : ℚ} : (PyFloat.finite p).lt (.finite q) = true ↔ p < q := by
  simp [PyFloat.lt, PyFloat.le, lt_iff_le_and_ne]

section Reapers

variable {F : RunningFor} {host : RunningContainers} {name : String} {age : ℚ} {limit : ℤ}
  {exclude onlineNames : List String} {runningJob : String → Option Bool}

/-- A name has one age. -/
theorem RunningContainers.age_unique {age' : ℚ} (h : (name, age) ∈ host.ages)
    (h' : (name, age') ∈ host.ages) : age = age' := by
  have hpair := List.inj_on_of_nodup_map host.distinct h h' rfl
  exact congrArg Prod.snd hpair

/-- **When a text is over a limit**: the age is readable, and is read as the limit or more. -/
theorem overLimit_text : overLimit limit (F.text age) = true ↔
    ReadableAge age ∧ limit ≤ readAge age := by
  unfold overLimit
  rw [parse_text]
  split_ifs with hread
  · dsimp only
    rw [Bool.not_eq_true', Bool.eq_false_iff, Ne, finite_lt_finite, not_lt]
    exact (and_iff_right hread).symm
  · simp [hread]

/-- What `cleanup_aged` removes of a host. -/
theorem mem_cleanupAged (h : (name, age) ∈ host.ages) :
    name ∈ cleanupAged (F.listing host) limit exclude ↔
      0 < limit ∧ name ∉ exclude ∧ ReadableAge age ∧ limit ≤ readAge age := by
  unfold cleanupAged RunningFor.listing
  split_ifs with hoff
  · exact ⟨fun h => absurd h List.not_mem_nil, fun h => absurd h.1 (not_lt.2 hoff)⟩
  simp only [List.mem_map, List.mem_filter, Bool.and_eq_true, decide_eq_true_eq]
  constructor
  · rintro ⟨_, ⟨⟨⟨name', age'⟩, hc, rfl⟩, hspare, hover⟩, rfl⟩
    obtain rfl := host.age_unique h hc
    exact ⟨not_le.1 hoff, hspare, overLimit_text.1 hover⟩
  · rintro ⟨-, hspare, hover⟩
    exact ⟨_, ⟨⟨_, h, rfl⟩, hspare, overLimit_text.2 hover⟩, rfl⟩

/-- What `cleanup_stuck` removes of a host. -/
theorem mem_cleanupStuck (h : (name, age) ∈ host.ages) :
    name ∈ cleanupStuck (F.listing host) onlineNames limit runningJob ↔
      name ∉ onlineNames ∧ runningJob name = some false ∧ ReadableAge age ∧
        limit ≤ readAge age := by
  have hcheck : cleanupStuck (F.listing host) onlineNames limit runningJob =
      ((F.listing host).output.filter fun (name, runningFor) =>
        name ∉ onlineNames && overLimit limit runningFor &&
          runningJob name = some false).map Prod.fst := rfl
  rw [hcheck]
  simp only [RunningFor.listing, List.mem_map, List.mem_filter, Bool.and_eq_true,
    decide_eq_true_eq]
  constructor
  · rintro ⟨_, ⟨⟨⟨name', age'⟩, hc, rfl⟩, ⟨hspare, hover⟩, hjob⟩, rfl⟩
    obtain rfl := host.age_unique h hc
    exact ⟨hspare, hjob, overLimit_text.1 hover⟩
  · rintro ⟨hspare, hjob, hover⟩
    exact ⟨_, ⟨⟨_, h, rfl⟩, ⟨hspare, overLimit_text.2 hover⟩, hjob⟩, rfl⟩

end Reapers

/-! ### Containers below the limit -/

/-- A host with one container of an hour and forty minutes. -/
def youngHost : RunningContainers := ⟨[("gh-runner-ci-1", 100)], by decide⟩

/-- **A container of 100 minutes is removed at a limit of 110**, by both reapers: its age is printed
as two hours. -/
theorem young_container_removed : (100 : ℚ) < (110 : ℤ) ∧
    dockerAges.text 100 = "2 hours ago" ∧
    cleanupAged (dockerAges.listing youngHost) 110 [] = ["gh-runner-ci-1"] ∧
    cleanupStuck (dockerAges.listing youngHost) [] 110 (fun _ => some false) =
      ["gh-runner-ci-1"] := by
  decide +kernel

/-- **When a container below the limit is spared**: its age is not rounded past the limit, or it is
spared at every age. -/
theorem spared_below_limit_iff (F : RunningFor) (host : RunningContainers) {name : String} {age : ℚ}
    (h : (name, age) ∈ host.ages) {limit : ℤ} (hlimit : 1 ≤ limit)
    (exclude onlineNames : List String) (runningJob : String → Option Bool) :
    ((age < limit → name ∉ cleanupAged (F.listing host) limit exclude) ↔
      name ∈ exclude ∨ ¬ RoundedPast age limit) ∧
    ((age < limit → name ∉ cleanupStuck (F.listing host) onlineNames limit runningJob) ↔
      name ∈ onlineNames ∨ runningJob name ≠ some false ∨ ¬ RoundedPast age limit) := by
  rw [mem_cleanupAged h, mem_cleanupStuck h, ← readPast_iff]
  have hpos : 0 < limit := by omega
  constructor
  · tauto
  · tauto

/-- At a limit of 121 minutes the container is left alone. -/
theorem spared_below_limit_iff_young :
    ((100 : ℚ) < (121 : ℤ) →
      "gh-runner-ci-1" ∉ cleanupAged (dockerAges.listing youngHost) 121 []) ∧
    ((100 : ℚ) < (121 : ℤ) → "gh-runner-ci-1" ∉
      cleanupStuck (dockerAges.listing youngHost) [] 121 (fun _ => some false)) := by
  have h := @spared_below_limit_iff dockerAges youngHost "gh-runner-ci-1" 100 (by decide +kernel)
    121 (by decide) [] [] fun _ => some false
  exact ⟨h.1.2 (Or.inr (by decide +kernel)), h.2.2 (Or.inr (Or.inr (by decide +kernel)))⟩

end RunnerSwarm
