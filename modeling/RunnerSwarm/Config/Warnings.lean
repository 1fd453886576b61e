import Mathlib.Data.List.Duplicate
import RunnerSwarm.Config.Pool
import RunnerSwarm.Lib.Loop

/-!
# Warnings about a configuration

`validationWarnings` goes through the pools once. It warns of a name that was seen before, of a
prefix that also starts the prefix of a pool with another name, and of a work tmpfs that is not
below the memory limit. Reading a size may raise.

* `ReportedPool` is what the pools must be like for a pool to be named in one of the first two
  kinds;
* `reports_iff`: when the warnings are returned, exactly these pools are;
* `message_names_pool`: every message begins with the name of a pool.
-/

namespace RunnerSwarm

/-- The kinds of warnings, each with the pool it is about. -/
inductive PoolWarning
  | duplicate (p : PoolConfig)
  | overlap (p other : PoolConfig)
  | tmpfs (p : PoolConfig) (size : String)
  deriving DecidableEq

namespace PoolWarning

/-- The text of a warning. -/
def text : PoolWarning → String
  | duplicate p =>
      "Pool '" ++ p.name ++
        "' is defined more than once. Both copies share the container prefix '" ++
        p.containerPrefix ++
        "', so they scale the same runners, double the GitHub API calls for " ++ p.display ++ ", and share one row of dashboard state."
  | overlap p other =>
      "Pool '" ++ p.name ++ "' matches containers by the prefix '" ++ p.containerPrefix ++
        "-', which also matches pool '" ++ other.name ++
        "'. It would count and reap that pool's " ++ "runners as its own; rename one of them."
  | tmpfs p size =>
      "Pool '" ++ p.name ++ "': work_tmpfs_size " ++ size ++ " is not below memory_limit " ++
        p.memoryLimit ++ ". tmpfs pages count toward the memory limit, so a job that fills its " ++
        "workspace gets OOM-killed instead of a disk-full error."

/-- The pool a warning is about. -/
def pool : PoolWarning → PoolConfig
  | duplicate p => p
  | overlap p _ => p
  | tmpfs p _ => p

/-- The pool is named as one that matches the containers of another. -/
def Reports (w : PoolWarning) (name : String) : Prop :=
  match w with
  | duplicate p => p.name = name
  | overlap p _ => p.name = name
  | tmpfs _ _ => False

instance (w : PoolWarning) (name : String) : Decidable (w.Reports name) := by
  unfold Reports
  split <;> infer_instance

end PoolWarning

/-- The bytes of the work tmpfs, if it is enabled. -/
def tmpfsBytes (p : PoolConfig) : Except PyError (Option ℕ) := do
  if !(← p.workTmpfsEnabled) then return none
  parseSize (← p.effectiveWorkTmpfsSize)

/-- `tmpfs and memory and tmpfs >= memory`. -/
def notBelow : Option ℕ → Option ℕ → Bool
  | some tmpfs, some memory => tmpfs ≠ 0 && memory ≠ 0 && memory ≤ tmpfs
  | _, _ => false

/-- The part about the work tmpfs. -/
def sizeWarnings (p : PoolConfig) : Except PyError (List PoolWarning) := do
  let tmpfs ← tmpfsBytes p
  let memory ← parseSize p.memoryLimit
  if notBelow tmpfs memory then
    let size ← p.effectiveWorkTmpfsSize
    return [.tmpfs p size]
  return []

/-- The prefix of the other pool starts with the prefix of this one and a dash. -/
def PoolConfig.overlaps (p other : PoolConfig) : Bool :=
  other.name ≠ p.name && startsWith other.containerPrefix (p.containerPrefix ++ "-")

/-- The body of the loop over the pools; `seen` are the names before. -/
def poolWarnings (pools : List PoolConfig) (seen : List String) (p : PoolConfig) :
    Except PyError (List PoolWarning) := do
  let sizes ← sizeWarnings p
  return (if p.name ∈ seen then [.duplicate p] else []) ++
    (pools.filter p.overlaps).map (.overlap p) ++ sizes

/-- The loop. -/
def warningsFrom (pools : List PoolConfig) :
    List String → List PoolConfig → Except PyError (List PoolWarning)
  | _, [] => .ok []
  | seen, p :: rest => do
      let warnings ← poolWarnings pools seen p
      let more ← warningsFrom pools (p.name :: seen) rest
      return warnings ++ more

/-- `validation_warnings`, before the warnings are put into words. -/
def validationWarnings (pools : List PoolConfig) : Except PyError (List PoolWarning) :=
  warningsFrom pools [] pools

/-- `validation_warnings`. -/
def validationMessages (pools : List PoolConfig) : Except PyError (List String) :=
  (validationWarnings pools).map fun warnings => warnings.map PoolWarning.text

/-! ### Which pools are named -/

/-- The name is given twice, or a pool of that name overlaps another. -/
def ReportedPool (pools : List PoolConfig) (name : String) : Prop :=
  (pools.map (·.name)).Duplicate name ∨
    ∃ p ∈ pools, p.name = name ∧ ∃ other ∈ pools, p.overlaps other = true

/-- The sizes of every pool can be read. -/
def AllSizesReadable (pools : List PoolConfig) : Prop :=
  ∀ p ∈ pools, ∃ warnings, sizeWarnings p = .ok warnings

variable {pools rest : List PoolConfig} {seen : List String} {p : PoolConfig} {name : String}
  {warnings : List PoolWarning}

/-- Only tmpfs warnings come from the sizes. -/
theorem not_reports_of_sizeWarnings (h : sizeWarnings p = .ok warnings) :
    ∀ w ∈ warnings, ¬ w.Reports name := by
  unfold sizeWarnings at h
  obtain ⟨tmpfs, -, h⟩ := bind_eq_ok h
  obtain ⟨memory, -, h⟩ := bind_eq_ok h
  intro w hw hreports
  split_ifs at h
  · obtain ⟨size, -, h⟩ := bind_eq_ok h
    cases h
    obtain rfl := List.mem_singleton.1 hw
    exact hreports
  · cases h
    cases hw

/-- **Which pools one round of the loop names.** -/
theorem poolWarnings_reports (h : poolWarnings pools seen p = .ok warnings) :
    (∃ w ∈ warnings, w.Reports name) ↔
      p.name = name ∧ (name ∈ seen ∨ ∃ other ∈ pools, p.overlaps other = true) := by
  unfold poolWarnings at h
  obtain ⟨sizes, hsizes, h⟩ := bind_eq_ok h
  cases h
  have hnot := @not_reports_of_sizeWarnings p name sizes hsizes
  constructor
  · rintro ⟨w, hw, hreports⟩
    rcases List.mem_append.1 hw with hw | hw
    · rcases List.mem_append.1 hw with hw | hw
      · split_ifs at hw with hseen
        · obtain rfl := List.mem_singleton.1 hw
          obtain rfl : p.name = name := hreports
          exact ⟨rfl, Or.inl hseen⟩
        · cases hw
      · obtain ⟨other, hother, rfl⟩ := List.mem_map.1 hw
        obtain ⟨hmem, hoverlaps⟩ := List.mem_filter.1 hother
        exact ⟨hreports, Or.inr ⟨other, hmem, hoverlaps⟩⟩
    · exact absurd hreports (hnot w hw)
  · rintro ⟨rfl, hseen | ⟨other, hmem, hoverlaps⟩⟩
    · refine ⟨.duplicate p, ?_, rfl⟩
      rw [if_pos hseen]
      simp
    · refine ⟨.overlap p other, List.mem_append_left _ (List.mem_append_right _ ?_), rfl⟩
      exact List.mem_map_of_mem (List.mem_filter.2 ⟨hmem, hoverlaps⟩)

/-- Which pools the rest of the loop names. -/
theorem warningsFrom_reports (h : warningsFrom pools seen rest = .ok warnings) :
    (∃ w ∈ warnings, w.Reports name) ↔
      (name ∈ seen ∧ name ∈ rest.map (·.name)) ∨ (rest.map (·.name)).Duplicate name ∨
        ∃ p ∈ rest, p.name = name ∧ ∃ other ∈ pools, p.overlaps other = true := by
  induction rest generalizing seen warnings with
  | nil =>
    obtain rfl := Except.ok.inj h
    simp
  | cons p rest ih =>
    unfold warningsFrom at h
    obtain ⟨first, hfirst, h⟩ := bind_eq_ok h
    obtain ⟨more, hmore, h⟩ := bind_eq_ok h
    cases h
    have hround := @poolWarnings_reports pools seen p name first hfirst
    have hrest := ih hmore
    have hsplit : (∃ w ∈ first ++ more, w.Reports name) ↔
        (∃ w ∈ first, w.Reports name) ∨ ∃ w ∈ more, w.Reports name := by
      simp only [List.mem_append, or_and_right, exists_or]
    rw [hsplit, hround, hrest, List.map_cons, List.mem_cons, List.mem_cons,
      List.duplicate_cons_iff, List.exists_mem_cons_iff]
    generalize (∃ other ∈ pools, p.overlaps other = true) = overlapping
    generalize (∃ p ∈ rest, p.name = name ∧ ∃ other ∈ pools, p.overlaps other = true) = later
    generalize (rest.map (·.name)).Duplicate name = twice
    generalize (name ∈ rest.map (·.name)) = again
    by_cases hname : p.name = name
    · simp only [hname, true_and, true_or, and_true, or_assoc, or_left_comm]
    · have hother : name ≠ p.name := Ne.symm hname
      simp only [hname, hother, false_and, false_or]

/-- **Which pools are named**, when the warnings are returned. -/
theorem reports_iff (h : validationWarnings pools = .ok warnings) :
    (∃ w ∈ warnings, w.Reports name) ↔ ReportedPool pools name := by
  rw [warningsFrom_reports h]
  exact or_iff_right fun hseen => List.not_mem_nil hseen.1

/-! ### The messages -/

theorem PoolWarning.text_startsWith (w : PoolWarning) :
    startsWith w.text ("Pool '" ++ w.pool.name ++ "'") = true := by
  unfold startsWith
  rw [List.isPrefixOf_iff_prefix]
  cases w with
  | duplicate p => simp [text, pool, String.toList_append]
  | overlap p other => simp [text, pool, String.toList_append]
  | tmpfs p size => simp [text, pool, String.toList_append]

theorem pool_of_sizeWarnings (h : sizeWarnings p = .ok warnings) : ∀ w ∈ warnings, w.pool = p := by
  unfold sizeWarnings at h
  obtain ⟨tmpfs, -, h⟩ := bind_eq_ok h
  obtain ⟨memory, -, h⟩ := bind_eq_ok h
  intro w hw
  split_ifs at h
  · obtain ⟨size, -, h⟩ := bind_eq_ok h
    obtain rfl := Except.ok.inj h
    rw [List.mem_singleton.1 hw]
    rfl
  · obtain rfl := Except.ok.inj h
    cases hw

theorem pool_of_poolWarnings (h : poolWarnings pools seen p = .ok warnings) :
    ∀ w ∈ warnings, w.pool = p := by
  unfold poolWarnings at h
  obtain ⟨sizes, hsizes, h⟩ := bind_eq_ok h
  obtain rfl := Except.ok.inj h
  intro w hw
  rcases List.mem_append.1 hw with hw | hw
  · rcases List.mem_append.1 hw with hw | hw
    · split_ifs at hw
      · rw [List.mem_singleton.1 hw]
        rfl
      · cases hw
    · obtain ⟨other, -, rfl⟩ := List.mem_map.1 hw
      rfl
  · exact pool_of_sizeWarnings hsizes w hw

theorem pool_mem_of_warningsFrom (h : warningsFrom pools seen rest = .ok warnings) :
    ∀ w ∈ warnings, w.pool ∈ rest := by
  induction rest generalizing seen warnings with
  | nil =>
    obtain rfl := Except.ok.inj h
    simp
  | cons p rest ih =>
    unfold warningsFrom at h
    obtain ⟨first, hfirst, h⟩ := bind_eq_ok h
    obtain ⟨more, hmore, h⟩ := bind_eq_ok h
    obtain rfl := Except.ok.inj h
    intro w hw
    rcases List.mem_append.1 hw with hw | hw
    · rw [pool_of_poolWarnings hfirst w hw]
      exact List.mem_cons_self
    · exact List.mem_cons_of_mem _ (ih hmore w hw)

/-- **Every message begins with the name of a pool.** -/
theorem message_names_pool {messages : List String} (h : validationMessages pools = .ok messages) :
    ∀ message ∈ messages, ∃ p ∈ pools,
      startsWith message ("Pool '" ++ p.name ++ "'") = true := by
  unfold validationMessages at h
  cases hwarnings : validationWarnings pools with
  | error e =>
    rw [hwarnings] at h
    cases h
  | ok warnings =>
    rw [hwarnings] at h
    obtain rfl := Except.ok.inj h
    intro message hmessage
    obtain ⟨w, hw, rfl⟩ := List.mem_map.1 hmessage
    exact ⟨w.pool, pool_mem_of_warningsFrom hwarnings w hw, w.text_startsWith⟩

/-! ### The sizes -/

/-- The tmpfs warnings are those of the sizes. -/
theorem mem_poolWarnings_tmpfs {q : PoolConfig} {size : String}
    (h : poolWarnings pools seen p = .ok warnings) :
    .tmpfs q size ∈ warnings ↔ ∃ own, sizeWarnings p = .ok own ∧ .tmpfs q size ∈ own := by
  unfold poolWarnings at h
  obtain ⟨sizes, hsizes, h⟩ := bind_eq_ok h
  obtain rfl := Except.ok.inj h
  rw [hsizes]
  constructor
  · intro hmem
    rcases List.mem_append.1 hmem with hmem | hmem
    · rcases List.mem_append.1 hmem with hmem | hmem
      · split_ifs at hmem
        · cases List.mem_singleton.1 hmem
        · cases hmem
      · obtain ⟨other, -, hother⟩ := List.mem_map.1 hmem
        cases hother
    · exact ⟨sizes, rfl, hmem⟩
  · rintro ⟨own, hown, hmem⟩
    obtain rfl := Except.ok.inj hown
    exact List.mem_append_right _ hmem

/-- **Which pools a size is reported of.** -/
theorem mem_validationWarnings_tmpfs {size : String} (h : validationWarnings pools = .ok warnings) :
    .tmpfs p size ∈ warnings ↔
      p ∈ pools ∧ ∃ own, sizeWarnings p = .ok own ∧ .tmpfs p size ∈ own := by
  have hloop : ∀ rest seen warnings, warningsFrom pools seen rest = .ok warnings →
      (.tmpfs p size ∈ warnings ↔
        p ∈ rest ∧ ∃ own, sizeWarnings p = .ok own ∧ .tmpfs p size ∈ own) := by
    intro rest
    induction rest with
    | nil =>
      intro seen warnings h
      obtain rfl := Except.ok.inj h
      simp
    | cons q rest ih =>
      intro seen warnings h
      unfold warningsFrom at h
      obtain ⟨first, hfirst, h⟩ := bind_eq_ok h
      obtain ⟨more, hmore, h⟩ := bind_eq_ok h
      obtain rfl := Except.ok.inj h
      rw [List.mem_append, mem_poolWarnings_tmpfs hfirst, ih _ _ hmore, List.mem_cons]
      constructor
      · rintro (⟨own, hown, hmem⟩ | ⟨hp, hown⟩)
        · obtain rfl : p = q := pool_of_sizeWarnings hown _ hmem
          exact ⟨Or.inl rfl, own, hown, hmem⟩
        · exact ⟨Or.inr hp, hown⟩
      · rintro ⟨rfl | hp, hown⟩
        · exact Or.inl hown
        · exact Or.inr ⟨hp, hown⟩
  exact hloop pools [] warnings h

/-- The warnings are returned when all sizes can be read. -/
theorem exists_validationWarnings_iff :
    (∃ warnings, validationWarnings pools = .ok warnings) ↔ AllSizesReadable pools := by
  have hround : ∀ seen p, (∃ warnings, poolWarnings pools seen p = .ok warnings) ↔
      ∃ warnings, sizeWarnings p = .ok warnings := fun seen p => by
    unfold poolWarnings
    rw [bind_ok_iff]
    constructor
    · exact fun ⟨sizes, hsizes, _⟩ => ⟨sizes, hsizes⟩
    · exact fun ⟨sizes, hsizes⟩ => ⟨sizes, hsizes, _, rfl⟩
  have hloop : ∀ rest seen, (∃ warnings, warningsFrom pools seen rest = .ok warnings) ↔
      AllSizesReadable rest := fun rest => by
    induction rest with
    | nil => exact fun seen => iff_of_true ⟨[], rfl⟩ (by simp [AllSizesReadable])
    | cons p rest ih =>
      intro seen
      unfold AllSizesReadable
      rw [List.forall_mem_cons, ← hround seen p]
      unfold warningsFrom
      rw [bind_ok_iff]
      constructor
      · rintro ⟨first, hfirst, hmore⟩
        obtain ⟨more, hmore, -⟩ := bind_ok_iff.1 hmore
        exact ⟨⟨first, hfirst⟩, (ih _).1 ⟨more, hmore⟩⟩
      · rintro ⟨⟨first, hfirst⟩, hrest⟩
        obtain ⟨more, hmore⟩ := (ih _).2 hrest
        exact ⟨first, hfirst, bind_ok_iff.2 ⟨more, hmore, _, rfl⟩⟩
  exact hloop pools []

end RunnerSwarm
