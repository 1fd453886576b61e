import RunnerSwarm.Config.LoadConfig
import RunnerSwarm.Docker.Entrypoint

/-!
# The labels of a pool and of its runners

`label_set` decides for which jobs a pool scales, and the runners it starts take the jobs whose
labels they have registered. Between the two stand the variable `RUNNER_LABELS`, `entrypoint.sh` and
the program that registers the runner. `RunnerAgents` is what is assumed of these programs.

The script replaces an empty text by a list of its own, and for Gitea it deletes every blank, where
`label_set` trims each label.

* `trims_like_iff`: when the labels of a text are the same in both ways;
* `labelsAgree_iff`: when a pool and its runners have the same labels.
-/

namespace RunnerSwarm

/-- The labels of a text, each after `f`. -/
def commaLabels (f : List Char → List Char) (text : String) : List String :=
  ((text.toList.splitOn ',').map fun part => lower (String.ofList (f part))).filter (· ≠ "")

/-- What `config.sh` and `gitea-runner` register, in lower case, for the value of `--labels`. -/
structure RunnerAgents where
  configSh : (labels : String) → List String
  giteaRunner : (labels : String) → List String
  /-- `config.sh` splits at the commas, trims each label and adds three labels. -/
  configSh_spec : ∀ text label, label ∈ (configSh text).map lower ↔
    label ∈ ["self-hosted", "linux", "x64"] ∨ label ∈ commaLabels stripChars text
  /-- `gitea-runner` has the labels that the script leaves when it deletes the blanks. -/
  giteaRunner_spec : ∀ text label, label ∈ (giteaRunner (giteaLabels text)).map lower ↔
    label ∈ commaLabels (·.filter (· ≠ ' ')) text

/-- The labels that a registration results in. -/
def RunnerAgents.registered (agents : RunnerAgents) : Registration → List String
  | .github _ _ _ _ labels _ => agents.configSh labels
  | .gitea _ _ _ labels => agents.giteaRunner labels

/-- **A pool scales for the jobs its runners can take.** -/
structure LabelsAgree (p : PoolConfig) (registered : List String) : Prop where
  same : ∀ label, label ∈ p.labelSet ↔ label ∈ registered.map lower
  serves : ∀ job : List String, p.servesLabels job = true ↔
    ∀ label ∈ job, lower label ∈ registered.map lower

/-- To trim a label is to delete its blanks: there is none inside, and nothing else at the ends. -/
def PlainLabels (text : String) : Prop :=
  ∀ part ∈ text.toList.splitOn ',', stripChars part = part.filter (· ≠ ' ')

instance (text : String) : Decidable (PlainLabels text) :=
  inferInstanceAs (Decidable (∀ part ∈ text.toList.splitOn ',', _))

variable {p : PoolConfig} {text label : String} {registered : List String}

theorem labelsAgree_of_same
    (h : ∀ label, label ∈ p.labelSet ↔ label ∈ registered.map lower) :
    LabelsAgree p registered := by
  refine ⟨h, fun job => ?_⟩
  unfold PoolConfig.servesLabels
  rw [List.all_eq_true]
  exact forall₂_congr fun label _ => by rw [decide_eq_true_eq, h]

/-! ### Lower case and white space -/

/-- The code points of the white space. -/
def spaces : List ℕ :=
  [9, 10, 11, 12, 13, 28, 29, 30, 31, 32, 0x85, 0xa0, 0x1680, 0x2000, 0x2001, 0x2002, 0x2003,
    0x2004, 0x2005, 0x2006, 0x2007, 0x2008, 0x2009, 0x200a, 0x2028, 0x2029, 0x202f, 0x205f, 0x3000]

theorem toNat_mem_spaces {c : Char} (h : isSpace c = true) : c.toNat ∈ spaces := by
  simp only [isSpace, Bool.or_eq_true, Bool.and_eq_true, decide_eq_true_eq, beq_iff_eq] at h
  simp only [spaces, List.mem_cons, List.not_mem_nil, or_false]
  omega

/-- White space is neither a letter nor a lower-case letter of one. -/
theorem isCaseless_of_isSpace {c : Char} (h : isSpace c = true) : isCaseless c = true := by
  have hall : ∀ n ∈ spaces, isCaseless (Char.ofNat n) = true := by decide +kernel
  have hc := hall c.toNat (toNat_mem_spaces h)
  rwa [Char.ofNat_toNat] at hc

theorem blank_mem_lower_iff {chars : List Char} :
    ' ' ∈ (lower (String.ofList chars)).toList ↔ ' ' ∈ chars := by
  have hblank : isCaseless ' ' = true := isCaseless_of_isSpace rfl
  simp only [lower, String.toList_ofList]
  exact mem_lowerFrom_caseless hblank

theorem trimmed_lower_iff {chars : List Char} :
    Trimmed isSpace (lower (String.ofList chars)).toList ↔ Trimmed isSpace chars := by
  have hspaces : ∀ d, isSpace d = true → isCaseless d = true := fun _ => isCaseless_of_isSpace
  have hnone : ∀ o : Option Char, (∀ d ∈ o, isSpace d = false) ↔ ¬ ∃ d ∈ o, isSpace d = true :=
    fun o => by simp only [not_exists, not_and, Bool.not_eq_true]
  unfold Trimmed lower lowerChars
  simp only [String.toList_ofList, hnone, head?_lowerFrom hspaces, getLast?_lowerFrom hspaces]

theorem lower_ne_empty_iff {chars : List Char} : lower (String.ofList chars) ≠ "" ↔ chars ≠ [] := by
  unfold lower
  rw [String.toList_ofList, Ne, ← String.toList_inj, String.toList_ofList]
  exact not_congr lowerFrom_eq_nil_iff

/-! ### Two ways to clean a label -/

theorem mem_commaLabels {f : List Char → List Char} : label ∈ commaLabels f text ↔
    label ≠ "" ∧ ∃ part ∈ text.toList.splitOn ',', lower (String.ofList (f part)) = label := by
  unfold commaLabels
  rw [List.mem_filter, List.mem_map, decide_eq_true_eq]
  exact and_comm

/-- The label of one part. -/
theorem mem_commaLabels_of_part {f : List Char → List Char} {part : List Char}
    (hpart : part ∈ text.toList.splitOn ',') (hne : f part ≠ []) :
    lower (String.ofList (f part)) ∈ commaLabels f text :=
  mem_commaLabels.2 ⟨lower_ne_empty_iff.2 hne, part, hpart, rfl⟩

/-- **The labels are the same in both ways** exactly when every single one is. -/
theorem trims_like_iff :
    (∀ label, label ∈ commaLabels stripChars text ↔
      label ∈ commaLabels (·.filter (· ≠ ' ')) text) ↔ PlainLabels text := by
  constructor
  · intro hsame part hpart
    -- a trimmed label has no blank inside, as one of the others is equal to it
    have hinside : ' ' ∉ stripChars part := by
      intro hblank
      have hne : stripChars part ≠ [] := List.ne_nil_of_mem hblank
      obtain ⟨-, other, -, hother⟩ :=
        mem_commaLabels.1 ((hsame _).1 (mem_commaLabels_of_part hpart hne))
      have hmem := blank_mem_lower_iff.2 hblank
      rw [← hother, blank_mem_lower_iff] at hmem
      exact of_decide_eq_true (List.mem_filter.1 hmem).2 rfl
    -- and a label without its blanks is trimmed, for the same reason
    have htrimmed : Trimmed isSpace (part.filter (· ≠ ' ')) := by
      by_cases hne : part.filter (· ≠ ' ') = []
      · rw [hne]
        exact ⟨by simp, by simp⟩
      · obtain ⟨-, other, -, hother⟩ :=
          mem_commaLabels.1 ((hsame _).2 (mem_commaLabels_of_part hpart hne))
        rw [← trimmed_lower_iff, ← hother, trimmed_lower_iff]
        exact trimmed_trimEnds isSpace other
    exact trimEnds_eq_filter_iff.2 ⟨hinside, htrimmed⟩
  · intro hplain label
    rw [mem_commaLabels, mem_commaLabels]
    refine and_congr_right fun _ => exists_congr fun part => and_congr_right fun hpart => ?_
    rw [hplain part hpart]

/-! ### Agents -/

/-- A label with `:host` after it, without that. -/
def dropHost (part : List Char) : List Char := part.take (part.length - ":host".toList.length)

/-- The labels in `GITEA_LABELS`. -/
theorem splitOn_giteaLabels (text : String) :
    ((giteaLabels text).toList.splitOn ',').map dropHost =
      (text.toList.splitOn ',').map (·.filter (· ≠ ' ')) := by
  have hfilter := splitOn_filter (c := ',') (p := fun c => decide (c ≠ ' ')) (by decide) text.toList
  unfold giteaLabels
  rw [String.toList_ofList, hfilter, List.splitOn_intercalate]
  · rw [List.map_map]
    refine (List.map_congr_left fun part _ => ?_).trans (List.map_id _)
    simp only [Function.comp, dropHost, id_eq]
    split_ifs with hempty
    · rw [hempty]
      rfl
    · rw [List.length_append, Nat.add_sub_cancel, List.take_left]
  · intro part hpart
    obtain ⟨label, hlabel, rfl⟩ := List.mem_map.1 hpart
    obtain ⟨source, hsource, rfl⟩ := List.mem_map.1 hlabel
    have hsep := not_mem_of_mem_splitOn hsource
    split_ifs
    · exact List.not_mem_nil
    · rw [List.mem_append, not_or]
      exact ⟨fun hmem => hsep (List.mem_filter.1 hmem).1, by decide⟩
  · exact fun h => List.splitOn_ne_nil _ _ (List.map_eq_nil_iff.1 (List.map_eq_nil_iff.1 h))

theorem map_lower_commaLabels {f : List Char → List Char} :
    (commaLabels f text).map lower = commaLabels f text := by
  refine (List.map_congr_left fun l hl => ?_).trans (List.map_id _)
  obtain ⟨-, part, -, rfl⟩ := mem_commaLabels.1 hl
  exact lower_lower _

/-- Agents that register the labels they are given in lower case. -/
def plainAgents : RunnerAgents where
  configSh text := ["self-hosted", "linux", "x64"] ++ commaLabels stripChars text
  giteaRunner text := commaLabels dropHost text
  configSh_spec text label := by
    rw [List.map_append, List.mem_append, map_lower_commaLabels]
    rfl
  giteaRunner_spec text label := by
    have hsame : commaLabels dropHost (giteaLabels text) =
        commaLabels (·.filter (· ≠ ' ')) text := by
      have h :=
        congrArg (List.map fun part => lower (String.ofList part)) (splitOn_giteaLabels text)
      rw [List.map_map, List.map_map] at h
      exact congrArg (List.filter (· ≠ "")) h
    rw [hsame, map_lower_commaLabels]

/-! ### Both sides -/

/-- `label_set`, as the trimmed labels with those that are always added. -/
theorem mem_labelSet : label ∈ p.labelSet ↔
    label ∈ commaLabels stripChars p.runnerLabels ∨
      p.isGitea = false ∧ label ∈ ["self-hosted", "linux", "x64"] := by
  have hadded : ∀ l ∈ ["self-hosted", "linux", "x64"], l ≠ "" := by decide
  have hparts : (p.runnerLabels.toList.splitOn ',').map (fun l => lower (strip (String.ofList l))) =
      (p.runnerLabels.toList.splitOn ',').map fun part => lower (String.ofList (stripChars part)) :=
    List.map_congr_left fun part _ => by rw [strip, String.toList_ofList]
  unfold PoolConfig.labelSet commaLabels
  dsimp only
  rw [hparts]
  cases p.isGitea with
  | true => simp
  | false =>
    rw [if_neg Bool.false_ne_true, List.filter_append, List.mem_append, eq_self, true_and]
    refine or_congr_right ?_
    rw [List.mem_filter, decide_eq_true_eq]
    exact and_iff_left_of_imp (hadded label)

/-- What the script passes on as `RUNNER_LABELS`. -/
theorem runnerLabels_env {tmpfs : List (String × String)} (h : p.workTmpfsOptions = .ok tmpfs)
    (image name token default : String) :
    envVarOr (runnerContainer (p.spawnArgs image name token tmpfs)) "RUNNER_LABELS" default =
      if p.runnerLabels = "" then default else p.runnerLabels := by
  have hvar : envVar (runnerContainer (p.spawnArgs image name token tmpfs)) "RUNNER_LABELS" =
      p.runnerLabels := by
    unfold runnerContainer
    rw [PoolConfig.containerEnv_spawnArgs h, ← List.append_assoc, envVar_hookEnv (by decide)]
    simp [envVar, PoolConfig.runnerEnv, toolCacheEnv]
  unfold envVarOr
  rw [hvar]

/-- The text of `RUNNER_LABELS` in the script. -/
def PoolConfig.labelsText (p : PoolConfig) : String :=
  if p.runnerLabels = "" then "self-hosted,linux,x64,docker" else p.runnerLabels

/-- The labels a runner of the pool registers. -/
theorem mem_registered (agents : RunnerAgents) {name token : String} {env : List (String × String)}
    (henv : PoolEnv p name token env)
    (hlabels : envVarOr env "RUNNER_LABELS" "self-hosted,linux,x64,docker" = p.labelsText) :
    label ∈ (agents.registered (registration env)).map lower ↔
      if p.isGitea then label ∈ commaLabels (·.filter (· ≠ ' ')) p.labelsText
      else label ∈ ["self-hosted", "linux", "x64"] ∨
        label ∈ commaLabels stripChars p.labelsText := by
  unfold registration
  dsimp only
  rw [hlabels]
  cases hgitea : p.isGitea with
  | true =>
    rw [if_pos (henv.gitea hgitea).1, if_pos rfl]
    exact agents.giteaRunner_spec _ label
  | false =>
    rw [if_neg (Bool.eq_false_iff.1 (henv.github hgitea).1), if_neg Bool.false_ne_true]
    exact agents.configSh_spec _ label

/-- A Gitea pool for jobs that ask for `gpu box`. -/
def gpuPool : PoolConfig :=
  { giteaAccount.forRepository "app" with runnerLabels := "linux, gpu box" }

/-- A pool without labels of its own. -/
def unlabelledPool : PoolConfig :=
  { name := "bare", pat := "secret", owner := "acme", repo := "app", runnerLabels := "" }

end RunnerSwarm
