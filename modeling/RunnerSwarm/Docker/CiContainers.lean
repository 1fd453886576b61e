import RunnerSwarm.Config.Excluded
import RunnerSwarm.Config.LoadConfig
import RunnerSwarm.Docker.CreatedAt

/-!
# Leftover containers of jobs

`cleanup_ci_containers` lists every container of the host and removes the old ones that a job has
left behind. A row of the listing has four columns; the networks and the labels of a container are
joined with commas there, and nothing is escaped. So a comma in a label's value starts what is read
as another label. And the listing is stripped as a whole, which takes the last column off the last
row when that container has no labels.

* `isCiContainer_iff`: what the text of a row is taken for;
* `rows_listing`: the rows that are read from the listing of a host;
* `removed_exactly_iff`: when a sweep removes exactly the containers it is for.
-/

namespace RunnerSwarm

/-! ### The sweep -/

/-- `RUNNER_JOB_NETWORK_PREFIX`. -/
def runnerJobNetworkPrefix : String := "github_network_"

/-- `PROTECTED_CONTAINER_PREFIXES`. -/
def protectedContainerPrefixes : List String := ["gh-runner-", "rorch-"]

/-- `name.startswith(PROTECTED_CONTAINER_PREFIXES)`. -/
def isProtected (name : String) : Bool := protectedContainerPrefixes.any (startsWith name)

/-- `pair.split("=", 1)[0]`. -/
def labelKey (pair : List Char) : String := String.ofList (pair.takeWhile (· ≠ '='))

/-- The keys that are read from a column of labels. -/
def labelKeys (labels : String) : List String :=
  ((labels.toList.splitOn ',').filter (· ≠ [])).map labelKey

/-- `pattern.removeprefix("label=")`. -/
def patternKey (pattern : String) : String := String.ofList (pattern.toList.drop 6)

/-- A pattern is a `label=KEY` with one of the keys, or a glob for the name. -/
def matchesPattern (name : String) (keys : List String) (pattern : String) : Bool :=
  if startsWith pattern "label=" then patternKey pattern ∈ keys else fnmatch name pattern

/-- `_is_ci_container`. -/
def isCiContainer (name networks labels : String) (patterns : List String) : Bool :=
  if isProtected name then false
  else if (networks.toList.splitOn ',').any fun network =>
      startsWith (String.ofList network) runnerJobNetworkPrefix then true
  else patterns.any (matchesPattern name (labelKeys labels))

/-- One row of the listing: the container that is removed. -/
def leftoverOfRow (maxMinutes : ℤ) (patterns : List String) (now : ℚ) (line : List Char) :
    Option String :=
  match line.splitOn '\t' with
  | [name, createdAt, networks, labels] =>
      if isCiContainer (String.ofList name) (String.ofList networks) (String.ofList labels)
          patterns then
        (parseCreatedAt (String.ofList createdAt)).bind fun created =>
          if (now - created) / 60 < maxMinutes then none else some (String.ofList name)
      else none
  | _ => none

/-- `cleanup_ci_containers`, from what `_capture` returns: the containers it removes. -/
def cleanupCiContainers (out : String) (maxMinutes : ℤ) (patterns : List String) (now : ℚ) :
    List String :=
  if maxMinutes ≤ 0 then []
  else if out = "" then []
  else (out.toList.splitOn '\n').filterMap (leftoverOfRow maxMinutes patterns now)

/-! ### The host -/

/-- A container of the host. Keys have no commas and equals signs. -/
structure CiContainer where
  name : String
  created : CreatedAt
  networks : List String
  labels : List (String × String)
  name_plain : isColumnText name = true
  name_starts : ∃ c ∈ name.toList.head?, isSpace c = false
  networks_plain : ∀ network ∈ networks, isColumnText network = true
  labels_plain : ∀ label ∈ labels, isColumnText label.1 = true ∧ isColumnText label.2 = true
  keys_plain : ∀ label ∈ labels, ',' ∉ label.1.toList ∧ '=' ∉ label.1.toList

namespace CiContainer

variable (c : CiContainer)

/-- Texts, joined with commas. -/
def commaJoin (texts : List (List Char)) : List Char := [','].intercalate texts

/-- `key=value`. -/
def pairText (label : String × String) : List Char := label.1.toList ++ '=' :: label.2.toList

/-- The first three columns. -/
def front : List Char :=
  c.name.toList ++ '\t' ::
    (c.created.text.toList ++ '\t' :: commaJoin (c.networks.map String.toList))

/-- `{{.Names}}\t{{.CreatedAt}}\t{{.Networks}}\t{{.Labels}}`. -/
def row : List Char := c.front ++ '\t' :: commaJoin (c.labels.map pairText)

/-- The container is on a job network, matches a name glob, or has a label with a configured key. -/
def marked (patterns : List String) : Bool :=
  c.networks.any (startsWith · runnerJobNetworkPrefix) ||
    patterns.any (matchesPattern c.name (c.labels.map Prod.fst))

/-- The container is at least as old as the ceiling. A ceiling of zero or less is none. -/
def Old (maxMinutes : ℤ) (now : ℚ) : Prop :=
  0 < maxMinutes ∧ maxMinutes ≤ (now - c.created.moment) / 60

/-- A leftover of a job. -/
def Leftover (maxMinutes : ℤ) (patterns : List String) (now : ℚ) : Prop :=
  c.Old maxMinutes now ∧ isProtected c.name = false ∧ c.marked patterns = true

end CiContainer

/-- `s.rstrip()`. -/
def rstrip (s : String) : String := String.ofList (s.toList.rdropWhile isSpace)

/-- The labels of the last row: the value of the last one loses the spaces at its end. -/
def trimLast : List (String × String) → List (String × String)
  | [] => []
  | [label] => [(label.1, rstrip label.2)]
  | label :: labels => label :: trimLast labels

/-- What follows the first comma of a text, cut at the commas. -/
def afterComma (text : List Char) : List (List Char) := (text.splitOn ',').tail

/-- Behind a comma in the name of a network there is a job network, or behind one in the value of a
label there is a configured key. -/
def misread (networks : List String) (labels : List (String × String)) (patterns : List String) :
    Bool :=
  (networks.any fun network => (afterComma network.toList).any fun part =>
    startsWith (String.ofList part) runnerJobNetworkPrefix) ||
  labels.any fun label => ((afterComma label.2.toList).filter (· ≠ [])).any fun part =>
    patterns.any fun pattern => startsWith pattern "label=" && patternKey pattern = labelKey part

/-! ### What a row is taken for -/

theorem startsWith_ofList {part : List Char} {p : String} :
    startsWith (String.ofList part) p = true ↔ p.toList <+: part := by
  unfold startsWith
  rw [String.toList_ofList, List.isPrefixOf_iff_prefix]

/-- The networks of a row. -/
theorem any_network_iff (networks : List String) :
    (((CiContainer.commaJoin (networks.map String.toList)).splitOn ',').any fun network =>
      startsWith (String.ofList network) runnerJobNetworkPrefix) = true ↔
      (networks.any fun network => startsWith network runnerJobNetworkPrefix) = true ∨
      (networks.any fun network => (afterComma network.toList).any fun part =>
        startsWith (String.ofList part) runnerJobNetworkPrefix) = true := by
  rcases eq_or_ne networks [] with rfl | hne
  · decide
  unfold CiContainer.commaJoin
  rw [splitOn_intercalate_eq_flatMap (by simpa using hne)]
  simp only [List.any_eq_true, List.mem_flatMap, List.mem_map, startsWith_ofList]
  have hpart : ∀ network : String,
      (∃ part ∈ network.toList.splitOn ',', runnerJobNetworkPrefix.toList <+: part) ↔
        startsWith network runnerJobNetworkPrefix = true ∨
          ∃ part ∈ afterComma network.toList, runnerJobNetworkPrefix.toList <+: part := by
    intro network
    obtain ⟨first, parts, hparts⟩ :=
      List.exists_cons_of_ne_nil (List.splitOn_ne_nil ',' network.toList)
    unfold afterComma
    rw [hparts, List.tail_cons, List.exists_mem_cons_iff, prefix_splitOn_iff (by decide) hparts,
      ← startsWith_ofList, String.ofList_toList]
  constructor
  · rintro ⟨part, ⟨_, ⟨network, hnetwork, rfl⟩, hmem⟩, hpre⟩
    exact ((hpart network).1 ⟨part, hmem, hpre⟩).imp (fun h => ⟨network, hnetwork, h⟩)
      fun h => ⟨network, hnetwork, h⟩
  · rintro (⟨network, hnetwork, h⟩ | ⟨network, hnetwork, h⟩)
    · obtain ⟨part, hmem, hpre⟩ := (hpart network).2 (Or.inl h)
      exact ⟨part, ⟨_, ⟨network, hnetwork, rfl⟩, hmem⟩, hpre⟩
    · obtain ⟨part, hmem, hpre⟩ := (hpart network).2 (Or.inr h)
      exact ⟨part, ⟨_, ⟨network, hnetwork, rfl⟩, hmem⟩, hpre⟩

/-- The keys of a row: those of its labels, and what follows a comma. -/
theorem mem_labelKeys_iff {labels : List (String × String)}
    (h : ∀ label ∈ labels, ',' ∉ label.1.toList ∧ '=' ∉ label.1.toList) {key : String} :
    key ∈ labelKeys (String.ofList (CiContainer.commaJoin (labels.map CiContainer.pairText))) ↔
      key ∈ labels.map Prod.fst ∨
        ∃ label ∈ labels, ∃ part ∈ afterComma label.2.toList, part ≠ [] ∧ labelKey part = key := by
  unfold labelKeys
  rw [String.toList_ofList]
  rcases eq_or_ne labels [] with rfl | hne
  · simp [CiContainer.commaJoin]
  unfold CiContainer.commaJoin
  rw [splitOn_intercalate_eq_flatMap (by simpa using hne)]
  simp only [List.mem_map, List.mem_filter, List.mem_flatMap, decide_eq_true_eq]
  have hpart : ∀ label ∈ labels,
      (∃ part ∈ (CiContainer.pairText label).splitOn ',', part ≠ [] ∧ labelKey part = key) ↔
        label.1 = key ∨ ∃ part ∈ afterComma label.2.toList, part ≠ [] ∧ labelKey part = key := by
    intro label hlabel
    obtain ⟨hcomma, hequals⟩ := h label hlabel
    obtain ⟨first, parts, hparts⟩ :=
      List.exists_cons_of_ne_nil (List.splitOn_ne_nil ',' label.2.toList)
    have hfront : ',' ∉ label.1.toList ++ ['='] := by simp [hcomma]
    have htext : CiContainer.pairText label = (label.1.toList ++ ['=']) ++ label.2.toList := by
      simp [CiContainer.pairText]
    have hkey : labelKey (label.1.toList ++ ['='] ++ first) = label.1 := by
      unfold labelKey
      rw [List.append_assoc, List.takeWhile_append_of_pos, List.singleton_append,
        List.takeWhile_cons_of_neg (by decide), List.append_nil, String.ofList_toList]
      exact fun c hc => decide_eq_true fun heq => hequals (heq ▸ hc)
    unfold afterComma
    rw [htext, splitOn_append_of_not_mem hfront hparts, hparts, List.tail_cons,
      List.exists_mem_cons_iff, hkey]
    simp
  constructor
  · rintro ⟨part, ⟨⟨_, ⟨label, hlabel, rfl⟩, hmem⟩, hfull⟩, hkey⟩
    rcases (hpart label hlabel).1 ⟨part, hmem, hfull, hkey⟩ with hown | hother
    · exact Or.inl ⟨label, hlabel, hown⟩
    · exact Or.inr ⟨label, hlabel, hother⟩
  · rintro (⟨label, hlabel, hown⟩ | ⟨label, hlabel, hother⟩)
    · obtain ⟨part, hmem, hfull, hkey⟩ := (hpart label hlabel).2 (Or.inl hown)
      exact ⟨part, ⟨⟨_, ⟨label, hlabel, rfl⟩, hmem⟩, hfull⟩, hkey⟩
    · obtain ⟨part, hmem, hfull, hkey⟩ := (hpart label hlabel).2 (Or.inr hother)
      exact ⟨part, ⟨⟨_, ⟨label, hlabel, rfl⟩, hmem⟩, hfull⟩, hkey⟩

/-- The patterns, against the keys of a row. -/
theorem any_pattern_iff {name : String} {labels : List (String × String)} {patterns : List String}
    (h : ∀ label ∈ labels, ',' ∉ label.1.toList ∧ '=' ∉ label.1.toList) :
    patterns.any (matchesPattern name (labelKeys (String.ofList
      (CiContainer.commaJoin (labels.map CiContainer.pairText))))) = true ↔
      patterns.any (matchesPattern name (labels.map Prod.fst)) = true ∨
      (labels.any fun label => ((afterComma label.2.toList).filter (· ≠ [])).any fun part =>
        patterns.any fun pattern =>
          startsWith pattern "label=" && patternKey pattern = labelKey part) = true := by
  have hpattern : ∀ pattern, matchesPattern name (labelKeys (String.ofList
      (CiContainer.commaJoin (labels.map CiContainer.pairText)))) pattern = true ↔
        matchesPattern name (labels.map Prod.fst) pattern = true ∨
          (startsWith pattern "label=" = true ∧ ∃ label ∈ labels,
            ∃ part ∈ afterComma label.2.toList, part ≠ [] ∧ labelKey part = patternKey pattern) := by
    intro pattern
    unfold matchesPattern
    split_ifs with hlabel
    · rw [decide_eq_true_eq, decide_eq_true_eq, mem_labelKeys_iff h]
      exact or_congr_right (and_iff_right hlabel).symm
    · exact (or_iff_left fun h => hlabel h.1).symm
  simp only [List.any_eq_true, hpattern, List.mem_filter, Bool.and_eq_true, decide_eq_true_eq]
  constructor
  · rintro ⟨pattern, hmem, hown | ⟨hlabel, label, hin, part, hpart, hfull, hkey⟩⟩
    · exact Or.inl ⟨pattern, hmem, hown⟩
    · exact Or.inr ⟨label, hin, part, ⟨hpart, hfull⟩, pattern, hmem, hlabel, hkey.symm⟩
  · rintro (⟨pattern, hmem, hown⟩ | ⟨label, hin, part, ⟨hpart, hfull⟩, pattern, hmem, hlabel, hkey⟩)
    · exact ⟨pattern, hmem, Or.inl hown⟩
    · exact ⟨pattern, hmem, Or.inr ⟨hlabel, label, hin, part, hpart, hfull, hkey.symm⟩⟩

/-- **What the text of a row is taken for.** -/
theorem isCiContainer_iff {name : String} {networks : List String}
    {labels : List (String × String)} {patterns : List String}
    (h : ∀ label ∈ labels, ',' ∉ label.1.toList ∧ '=' ∉ label.1.toList) :
    isCiContainer name (String.ofList (CiContainer.commaJoin (networks.map String.toList)))
      (String.ofList (CiContainer.commaJoin (labels.map CiContainer.pairText))) patterns = true ↔
      isProtected name = false ∧
        ((networks.any (startsWith · runnerJobNetworkPrefix) ||
            patterns.any (matchesPattern name (labels.map Prod.fst))) = true ∨
          misread networks labels patterns = true) := by
  have hnetwork := any_network_iff networks
  have hpattern := @any_pattern_iff name labels patterns h
  unfold isCiContainer misread
  rw [String.toList_ofList, Bool.or_eq_true, Bool.or_eq_true]
  split_ifs with hprotected hjob
  · simp [hprotected]
  · have hin := hnetwork.1 hjob
    simp only [Bool.not_eq_true] at hprotected
    exact iff_of_true rfl ⟨hprotected, or_or_or_comm.1 (Or.inl hin)⟩
  · have hout := (not_congr hnetwork).1 hjob
    rw [not_or] at hout
    simp only [Bool.not_eq_true] at hprotected
    rw [hpattern, or_or_or_comm, or_iff_right (not_or.2 hout)]
    exact (and_iff_right hprotected).symm

/-! ### The rows that are read -/

/-- No character of a column. -/
def isBreak (c : Char) : Bool := c ∈ ['\t', '\n', '\r']

theorem isColumnText_iff {s : String} :
    isColumnText s = true ↔ ∀ c ∈ s.toList, isBreak c = false := by
  unfold isColumnText isBreak
  simp only [List.all_eq_true, decide_eq_true_eq, decide_eq_false_iff_not]

theorem not_break_of_not_space {c : Char} (h : isSpace c = false) : isBreak c = false := by
  rw [← Bool.not_eq_true]
  intro hbreak
  have hmem : c ∈ ['\t', '\n', '\r'] := of_decide_eq_true hbreak
  simp only [List.mem_cons, List.not_mem_nil, or_false] at hmem
  rcases hmem with rfl | rfl | rfl <;> revert h <;> decide

theorem CreatedAt.text_plain (t : CreatedAt) : ∀ c ∈ t.text.toList, isBreak c = false := by
  obtain ⟨hdate, htime, hoffset⟩ := fields_plain t
  unfold CreatedAt.text
  rw [String.toList_ofList]
  simp only [List.forall_mem_append, List.forall_mem_cons]
  exact ⟨fun c hc => not_break_of_not_space (hdate c hc), by decide,
    fun c hc => not_break_of_not_space (htime c hc), by decide,
    fun c hc => not_break_of_not_space (hoffset c hc), by decide, isColumnText_iff.1 t.zone_plain⟩

theorem commaJoin_plain {texts : List (List Char)}
    (h : ∀ text ∈ texts, ∀ c ∈ text, isBreak c = false) :
    ∀ c ∈ CiContainer.commaJoin texts, isBreak c = false := by
  unfold CiContainer.commaJoin
  induction texts with
  | nil => exact fun c hc => by cases hc
  | cons text texts ih =>
    obtain ⟨htext, htexts⟩ := List.forall_mem_cons.1 h
    cases texts with
    | nil => simpa using htext
    | cons next texts =>
      rw [List.intercalate_cons_cons]
      simp only [List.forall_mem_append, List.forall_mem_singleton]
      exact ⟨⟨htext, by decide⟩, ih htexts⟩

namespace CiContainer

variable (c : CiContainer)

theorem front_plain : (∀ d ∈ c.name.toList, isBreak d = false) ∧
    ∀ d ∈ commaJoin (c.networks.map String.toList), isBreak d = false := by
  refine ⟨isColumnText_iff.1 c.name_plain, commaJoin_plain fun text htext => ?_⟩
  obtain ⟨network, hnetwork, rfl⟩ := List.mem_map.1 htext
  exact isColumnText_iff.1 (c.networks_plain network hnetwork)

theorem not_mem_of_plain {l : List Char} (h : ∀ d ∈ l, isBreak d = false) {d : Char}
    (hd : isBreak d = true) : d ∉ l := fun hmem => by
  rw [h d hmem] at hd
  cases hd

/-- The columns of a row are found again. -/
theorem splitOn_front {l : List Char} (hl : ∀ d ∈ l, isBreak d = false) :
    (c.front ++ '\t' :: l).splitOn '\t' =
      [c.name.toList, c.created.text.toList, commaJoin (c.networks.map String.toList), l] := by
  obtain ⟨hname, hnetworks⟩ := c.front_plain
  unfold front
  rw [List.append_assoc, List.cons_append, List.append_assoc, List.cons_append,
    List.splitOn_append_cons_self_of_not_mem (not_mem_of_plain hname (by decide)),
    List.splitOn_append_cons_self_of_not_mem
      (not_mem_of_plain c.created.text_plain (by decide)),
    List.splitOn_append_cons_self_of_not_mem (not_mem_of_plain hnetworks (by decide)),
    List.splitOn_eq_singleton (not_mem_of_plain hl (by decide))]

/-- Without its last column, a row has too few. -/
theorem splitOn_prefix_front {l : List Char} (hl : l <+: c.front) {x y z w : List Char} :
    l.splitOn '\t' ≠ [x, y, z, w] := by
  intro h
  obtain ⟨hname, hnetworks⟩ := c.front_plain
  have hcount : c.front.count '\t' = 2 := by
    unfold front
    rw [List.count_append, List.count_cons_self, List.count_append, List.count_cons_self,
      List.count_eq_zero.2 (not_mem_of_plain hname (by decide)),
      List.count_eq_zero.2 (not_mem_of_plain c.created.text_plain (by decide)),
      List.count_eq_zero.2 (not_mem_of_plain hnetworks (by decide))]
  have hle := hl.sublist.count_le '\t'
  have hjoin : ['\t'].intercalate (l.splitOn '\t') = l := List.intercalate_splitOn '\t'
  rw [h] at hjoin
  rw [hcount, ← hjoin] at hle
  simp only [List.intercalate_cons_cons, List.intercalate_singleton, List.count_append,
    List.count_singleton_self] at hle
  omega

/-- What becomes of the labels of the last row. -/
theorem rdropWhile_labels {labels : List (String × String)} (h : labels ≠ []) (front : List Char) :
    (front ++ commaJoin (labels.map pairText)).rdropWhile isSpace =
      front ++ commaJoin ((trimLast labels).map pairText) := by
  induction labels generalizing front with
  | nil => exact absurd rfl h
  | cons label labels ih =>
    cases labels with
    | nil =>
      have htext : ∀ value : String, commaJoin ([(label.1, value)].map pairText) =
          label.1.toList ++ '=' :: value.toList := fun value => by
        simp [commaJoin, pairText]
      rw [trimLast, htext, ← Prod.eta label, htext, ← List.append_assoc,
        rdropWhile_append_cons (by decide), List.append_assoc]
      simp [rstrip]
    | cons next labels =>
      have hstep : ∀ rest : List (String × String), rest ≠ [] →
          commaJoin ((label :: rest).map pairText) =
            (pairText label ++ [',']) ++ commaJoin (rest.map pairText) := by
        intro rest hrest
        obtain ⟨first, rest, rfl⟩ := List.exists_cons_of_ne_nil hrest
        simp [commaJoin]
      have hne : trimLast (next :: labels) ≠ [] := by
        cases labels <;> exact List.cons_ne_nil _ _
      rw [trimLast, hstep _ (List.cons_ne_nil _ _), hstep _ hne, ← List.append_assoc,
        ih (List.cons_ne_nil _ _), List.append_assoc]
      exact List.cons_ne_nil _ _

/-- The labels of the last row, one by one: a key that there was, and the beginning of its value. -/
theorem trimLast_forall₂ (labels : List (String × String)) :
    List.Forall₂ (fun label trimmed => trimmed.1 = label.1 ∧ trimmed.2.toList <+: label.2.toList)
      labels (trimLast labels) := by
  induction labels with
  | nil => exact .nil
  | cons label labels ih =>
    cases labels with
    | nil =>
      refine .cons ⟨rfl, ?_⟩ .nil
      unfold rstrip
      rw [String.toList_ofList]
      exact List.rdropWhile_prefix _ _
    | cons next labels => exact .cons ⟨rfl, List.prefix_refl _⟩ ih

/-- Labels with plain keys and texts. -/
def PlainLabels (labels : List (String × String)) : Prop :=
  (∀ label ∈ labels, isColumnText label.1 = true ∧ isColumnText label.2 = true) ∧
    ∀ label ∈ labels, ',' ∉ label.1.toList ∧ '=' ∉ label.1.toList

theorem PlainLabels.trimmed {labels : List (String × String)} (h : PlainLabels labels) :
    PlainLabels (trimLast labels) ∧ (trimLast labels).map Prod.fst = labels.map Prod.fst := by
  have hpairs := trimLast_forall₂ labels
  generalize trimLast labels = trimmed at hpairs
  obtain ⟨htext, hkeys⟩ := h
  induction hpairs with
  | nil => exact ⟨⟨htext, hkeys⟩, rfl⟩
  | @cons label first labels trimmed hfirst hrest ih =>
    obtain ⟨hkey, hvalue⟩ := hfirst
    obtain ⟨htext, htexts⟩ := List.forall_mem_cons.1 htext
    obtain ⟨hkeys, hkeys'⟩ := List.forall_mem_cons.1 hkeys
    obtain ⟨⟨htrimmed, htrimmed'⟩, hsame⟩ := ih htexts hkeys'
    refine ⟨⟨List.forall_mem_cons.2 ⟨⟨hkey ▸ htext.1, ?_⟩, htrimmed⟩,
      List.forall_mem_cons.2 ⟨hkey ▸ hkeys, htrimmed'⟩⟩, ?_⟩
    · rw [isColumnText_iff]
      exact fun d hd => isColumnText_iff.1 htext.2 d (hvalue.subset hd)
    · rw [List.map_cons, List.map_cons, hkey, hsame]

theorem PlainLabels.join {labels : List (String × String)} (h : PlainLabels labels) :
    ∀ d ∈ commaJoin (labels.map pairText), isBreak d = false := by
  refine commaJoin_plain fun text htext => ?_
  obtain ⟨label, hlabel, rfl⟩ := List.mem_map.1 htext
  obtain ⟨hkey, hvalue⟩ := h.1 label hlabel
  unfold pairText
  simp only [List.forall_mem_append, List.forall_mem_cons]
  exact ⟨isColumnText_iff.1 hkey, by decide, isColumnText_iff.1 hvalue⟩

variable {c} {maxMinutes : ℤ} {patterns : List String} {now : ℚ} {name : String}

/-- **What is made of a row.** -/
theorem leftoverOfRow_eq_some {labels : List (String × String)} (h : PlainLabels labels) :
    leftoverOfRow maxMinutes patterns now (c.front ++ '\t' :: commaJoin (labels.map pairText)) =
        some name ↔
      c.name = name ∧ maxMinutes ≤ (now - c.created.moment) / 60 ∧ isProtected c.name = false ∧
        ((c.networks.any (startsWith · runnerJobNetworkPrefix) ||
            patterns.any (matchesPattern c.name (labels.map Prod.fst))) = true ∨
          misread c.networks labels patterns = true) := by
  have hci := @isCiContainer_iff c.name c.networks labels patterns h.2
  unfold leftoverOfRow
  rw [c.splitOn_front h.join]
  dsimp only
  rw [String.ofList_toList, String.ofList_toList, parse_created, Option.bind_some, ← hci]
  split_ifs with hmatch hage
  · exact iff_of_false (fun h => by cases h) fun h => absurd hage (not_lt.2 h.2.1)
  · rw [Option.some_inj]
    exact ⟨fun h => ⟨h, not_lt.1 hage, hmatch⟩, fun h => h.1⟩
  · exact iff_of_false (fun h => by cases h) fun h => hmatch h.2.2

end CiContainer

/-! ### A sweep of the host -/

/-- The containers of the host, in the order in which they are listed. Docker has a name once. -/
structure CiHost where
  containers : List CiContainer
  distinct : (containers.map (·.name)).Nodup

namespace CiHost

variable (host : CiHost)

/-- What `docker ps` prints. -/
def listing : String := String.ofList (host.containers.flatMap fun c => c.row ++ ['\n'])

/-- The container of the last row. -/
def isLast (c : CiContainer) : Bool := host.containers.getLast?.any fun last => last.name = c.name

/-- Whether the text that the sweep reads for a container is taken for what the container is: a
container that is listed last has a label, unless it is no leftover; and no text behind a comma makes
a leftover of one that is none. -/
def ReadsRight (patterns : List String) (c : CiContainer) : Prop :=
  if host.isLast c then
    if c.labels = [] then c.marked patterns = false
    else misread c.networks (trimLast c.labels) patterns = true → c.marked patterns = true
  else misread c.networks c.labels patterns = true → c.marked patterns = true

/-- The row of a container is taken for that of a leftover. -/
def Taken (patterns : List String) (c : CiContainer) : Prop :=
  if host.isLast c then
    c.labels ≠ [] ∧
      (c.marked patterns = true ∨ misread c.networks (trimLast c.labels) patterns = true)
  else c.marked patterns = true ∨ misread c.networks c.labels patterns = true

end CiHost

variable {host : CiHost} {maxMinutes : ℤ} {patterns : List String} {now : ℚ} {name : String}

namespace CiContainer

variable (c : CiContainer)

theorem labels_are_plain : PlainLabels c.labels := ⟨c.labels_plain, c.keys_plain⟩

theorem row_starts : ∃ d rest, c.row = d :: rest ∧ isSpace d = false := by
  obtain ⟨d, hd, hspace⟩ := c.name_starts
  obtain ⟨rest, hrest⟩ := List.head?_eq_some_iff.1 hd
  unfold row front
  rw [hrest]
  exact ⟨d, _, rfl, hspace⟩

theorem newline_not_mem_row : '\n' ∉ c.row := by
  obtain ⟨hname, hnetworks⟩ := c.front_plain
  unfold row front
  simp only [List.mem_append, List.mem_cons, not_or]
  exact ⟨⟨not_mem_of_plain hname (by decide), by decide,
    not_mem_of_plain c.created.text_plain (by decide), by decide,
    not_mem_of_plain hnetworks (by decide)⟩, by decide,
    not_mem_of_plain c.labels_are_plain.join (by decide)⟩

/-- The row of a container that is not the last. -/
theorem leftoverOfRow_row : leftoverOfRow maxMinutes patterns now c.row = some name ↔
    c.name = name ∧ maxMinutes ≤ (now - c.created.moment) / 60 ∧ isProtected c.name = false ∧
      (c.marked patterns = true ∨ misread c.networks c.labels patterns = true) :=
  leftoverOfRow_eq_some c.labels_are_plain

/-- The last row. -/
theorem leftoverOfRow_last :
    leftoverOfRow maxMinutes patterns now (c.row.rdropWhile isSpace) = some name ↔
      c.name = name ∧ maxMinutes ≤ (now - c.created.moment) / 60 ∧ isProtected c.name = false ∧
        c.labels ≠ [] ∧
          (c.marked patterns = true ∨ misread c.networks (trimLast c.labels) patterns = true) := by
  have hrow : c.row = (c.front ++ ['\t']) ++ commaJoin (c.labels.map pairText) := by
    unfold row
    rw [List.append_assoc, List.singleton_append]
  by_cases hempty : c.labels = []
  · have hcut : c.row.rdropWhile isSpace = c.front.rdropWhile isSpace := by
      rw [hrow, hempty, List.map_nil]
      unfold commaJoin
      rw [List.intercalate_nil, List.append_nil, List.rdropWhile_concat_pos _ _ _ (by decide)]
    refine iff_of_false (fun h => ?_) fun h => h.2.2.2.1 hempty
    rw [hcut] at h
    unfold leftoverOfRow at h
    split at h
    · exact c.splitOn_prefix_front (List.rdropWhile_prefix _ _) (by assumption)
    · cases h
  · obtain ⟨hplain, hkeys⟩ := c.labels_are_plain.trimmed
    rw [hrow, rdropWhile_labels hempty, List.append_assoc, List.singleton_append,
      leftoverOfRow_eq_some hplain, hkeys]
    exact and_congr_right' (and_congr_right' (and_congr_right' (and_iff_right hempty).symm))

end CiContainer

/-- **The rows that are read from the listing of a host.** -/
theorem rows_listing {front : List CiContainer} {last : CiContainer}
    (h : host.containers = front ++ [last]) : (strip host.listing).toList.splitOn '\n' =
      front.map CiContainer.row ++ [last.row.rdropWhile isSpace] := by
  obtain ⟨d, rest, hlast, hspace⟩ := last.row_starts
  have htext : host.containers.flatMap (fun c => c.row ++ ['\n']) =
      (front.flatMap fun c => c.row ++ ['\n']) ++ last.row ++ ['\n'] := by
    rw [h, List.flatMap_append, List.flatMap_singleton, List.append_assoc]
  have hbegins : ((front.flatMap fun c => c.row ++ ['\n']) ++ last.row ++ ['\n']).dropWhile
      isSpace = (front.flatMap fun c => c.row ++ ['\n']) ++ last.row ++ ['\n'] := by
    cases front with
    | nil =>
      rw [hlast]
      exact List.dropWhile_cons_of_neg (Bool.eq_false_iff.1 hspace)
    | cons first front =>
      obtain ⟨d, rest, hfirst, hspace⟩ := first.row_starts
      rw [List.flatMap_cons, hfirst]
      exact List.dropWhile_cons_of_neg (Bool.eq_false_iff.1 hspace)
  have hends : ∀ l : List Char, (l ++ last.row).rdropWhile isSpace =
      l ++ last.row.rdropWhile isSpace := by
    intro l
    have hself := rdropWhile_append_cons (p := isSpace) (a := []) (b := rest) hspace
    rw [List.nil_append, List.nil_append] at hself
    rw [hlast, rdropWhile_append_cons hspace, hself]
  have hstrip : (strip host.listing).toList =
      ((front.map CiContainer.row).flatMap fun line => line ++ ['\n']) ++
        last.row.rdropWhile isSpace := by
    unfold strip CiHost.listing
    rw [String.toList_ofList, String.toList_ofList, htext, stripChars_eq]
    unfold trimEnds
    rw [hbegins, List.rdropWhile_concat_pos _ _ _ (by decide), hends, List.flatMap_map]
  rw [hstrip, splitOn_lines]
  · intro line hline
    obtain ⟨c, -, rfl⟩ := List.mem_map.1 hline
    exact c.newline_not_mem_row
  · exact fun hmem => last.newline_not_mem_row ((List.rdropWhile_prefix _ _).subset hmem)

/-- Which containers are taken from the last row. -/
theorem isLast_iff {front : List CiContainer} {last : CiContainer}
    (h : host.containers = front ++ [last]) :
    (∀ c ∈ front, host.isLast c = false) ∧ host.isLast last = true := by
  have hdistinct := host.distinct
  unfold CiHost.isLast
  rw [h, List.getLast?_concat]
  rw [h, List.map_append, List.map_singleton] at hdistinct
  refine ⟨fun c hc => decide_eq_false fun hname => ?_, decide_eq_true rfl⟩
  have hmem : last.name ∈ front.map (·.name) := hname ▸ List.mem_map_of_mem hc
  exact (List.nodup_append.1 hdistinct).2.2 _ hmem _ (List.mem_singleton_self _) rfl

/-- **What a sweep removes.** -/
theorem mem_cleanupCiContainers :
    name ∈ cleanupCiContainers (strip host.listing) maxMinutes patterns now ↔
      ∃ c ∈ host.containers, c.name = name ∧ c.Old maxMinutes now ∧
        isProtected c.name = false ∧ host.Taken patterns c := by
  unfold cleanupCiContainers
  by_cases hoff : maxMinutes ≤ 0
  · rw [if_pos hoff]
    exact iff_of_false List.not_mem_nil fun ⟨c, _, _, hold, _⟩ => absurd hold.1 (not_lt.2 hoff)
  have hon := not_le.1 hoff
  rw [if_neg hoff]
  have hrows : (if strip host.listing = "" then []
      else ((strip host.listing).toList.splitOn '\n').filterMap
        (leftoverOfRow maxMinutes patterns now)) =
      ((strip host.listing).toList.splitOn '\n').filterMap
        (leftoverOfRow maxMinutes patterns now) := by
    split_ifs with hempty
    · rw [hempty]
      rfl
    · rfl
  rw [hrows, List.mem_filterMap]
  rcases List.eq_nil_or_concat host.containers with hnil | ⟨front, last, hcontainers⟩
  · have hempty : (strip host.listing).toList = [] := by
      unfold CiHost.listing strip
      rw [hnil]
      rfl
    rw [hempty, hnil]
    exact iff_of_false (fun ⟨row, hrow, h⟩ => by
      obtain rfl := List.mem_singleton.1 hrow
      cases h) fun ⟨c, hc, _⟩ => List.not_mem_nil hc
  rw [List.concat_eq_append] at hcontainers
  obtain ⟨hfront, hlast⟩ := isLast_iff hcontainers
  rw [rows_listing hcontainers, hcontainers]
  constructor
  · rintro ⟨row, hrow, h⟩
    rcases List.mem_append.1 hrow with hrow | hrow
    · obtain ⟨c, hc, rfl⟩ := List.mem_map.1 hrow
      obtain ⟨hname, hage, hprotected, htaken⟩ := c.leftoverOfRow_row.1 h
      refine ⟨c, List.mem_append_left _ hc, hname, ⟨hon, hage⟩, hprotected, ?_⟩
      unfold CiHost.Taken
      rwa [if_neg (Bool.eq_false_iff.1 (hfront c hc))]
    · obtain rfl := List.mem_singleton.1 hrow
      obtain ⟨hname, hage, hprotected, htaken⟩ := last.leftoverOfRow_last.1 h
      refine ⟨last, by simp, hname, ⟨hon, hage⟩, hprotected, ?_⟩
      unfold CiHost.Taken
      rwa [if_pos hlast]
  · rintro ⟨c, hc, hname, ⟨-, hage⟩, hprotected, htaken⟩
    unfold CiHost.Taken at htaken
    rcases List.mem_append.1 hc with hc | hc
    · rw [if_neg (Bool.eq_false_iff.1 (hfront c hc))] at htaken
      exact ⟨c.row, List.mem_append_left _ (List.mem_map_of_mem hc),
        c.leftoverOfRow_row.2 ⟨hname, hage, hprotected, htaken⟩⟩
    · obtain rfl := List.mem_singleton.1 hc
      rw [if_pos hlast] at htaken
      exact ⟨_, by simp, c.leftoverOfRow_last.2 ⟨hname, hage, hprotected, htaken⟩⟩

/-- The text of a container is taken for what the container is, or it is not. -/
theorem CiHost.readsRight_iff (host : CiHost) (c : CiContainer) :
    host.ReadsRight patterns c ↔ (host.Taken patterns c ↔ c.marked patterns = true) := by
  unfold CiHost.ReadsRight CiHost.Taken
  split_ifs with hlast hempty
  · simp [hempty]
  · simp [hempty]
  · simp

/-- **What a sweep removes** is exactly what it is for, when every old container's text is read
right. -/
theorem removed_exactly_iff (host : CiHost) (maxMinutes : ℤ) (patterns : List String) (now : ℚ) :
    (∀ name, name ∈ cleanupCiContainers (strip host.listing) maxMinutes patterns now ↔
      ∃ c ∈ host.containers, c.name = name ∧ c.Leftover maxMinutes patterns now) ↔
    ∀ c ∈ host.containers, c.Old maxMinutes now → isProtected c.name = false →
      host.ReadsRight patterns c := by
  have hsame : ∀ {c c' : CiContainer}, c ∈ host.containers → c' ∈ host.containers →
      c.name = c'.name → c = c' := fun hc hc' h => List.inj_on_of_nodup_map host.distinct hc hc' h
  simp only [mem_cleanupCiContainers, CiHost.readsRight_iff, CiContainer.Leftover]
  constructor
  · intro h c hc hold hprotected
    constructor
    · intro htaken
      obtain ⟨c', hc', hname, -, -, hmarked⟩ := (h c.name).1 ⟨c, hc, rfl, hold, hprotected, htaken⟩
      exact hsame hc' hc hname ▸ hmarked
    · intro hmarked
      obtain ⟨c', hc', hname, -, -, htaken⟩ := (h c.name).2 ⟨c, hc, rfl, hold, hprotected, hmarked⟩
      exact hsame hc' hc hname ▸ htaken
  · intro h name
    refine exists_congr fun c => and_congr_right fun hc => and_congr_right fun _ =>
      and_congr_right fun hold => and_congr_right fun hprotected => h c hc hold hprotected

/-- A database of the host, that lists the services which depend on it. -/
def hostDatabase : CiContainer where
  name := "shortlinks-mysql"
  created := ⟨2026, 10, 3, 10, 35, 44, false, 3, 0, "EEST", by decide, by decide, by decide,
    by decide, by decide, by decide⟩
  networks := ["shortlinks_default"]
  labels := [("used-by", "shortlinks,petopolis-ci")]
  name_plain := by decide
  name_starts := ⟨'s', rfl, by decide⟩
  networks_plain := by decide
  labels_plain := by decide
  keys_plain := by decide

/-- It is removed, though none of its keys is the configured one. -/
theorem not_removed_exactly : ∃ host : CiHost, host.containers = [hostDatabase] ∧
    ¬ ∀ name, name ∈ cleanupCiContainers (strip host.listing) 360 ["label=petopolis-ci"]
        (hostDatabase.created.moment + 86400) ↔
      ∃ c ∈ host.containers, c.name = name ∧
        c.Leftover 360 ["label=petopolis-ci"] (hostDatabase.created.moment + 86400) := by
  refine ⟨⟨[hostDatabase], List.nodup_singleton _⟩, rfl, fun h => ?_⟩
  have hremoved := (h "shortlinks-mysql").1 (by decide +kernel)
  obtain ⟨c, hc, -, -, -, hmarked⟩ := hremoved
  obtain rfl := List.mem_singleton.1 hc
  exact absurd hmarked (by decide +kernel)

end RunnerSwarm
