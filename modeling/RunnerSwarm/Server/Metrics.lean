import RunnerSwarm.Lib.Exposition
import RunnerSwarm.Server.Payloads

/-!
# The metrics page

`/metrics` is written line by line, with the names of the snapshots and of the events put between
quotes as they are. In the text format a name may have any characters, but three of them are to be
escaped.

* `exposes_iff`: the page is well formed and has exactly one sample for each metric and pool, one
  for each event and those of the whole site, when no name has a quote, a backslash or a newline,
  and when the pools, if there is no snapshot yet, have different names;
* `not_exposes`: a pool whose name has a quote in it.
-/

namespace RunnerSwarm

open Exposition (Sample Entry Family Exposes IsPlain ReadAs isName isMetricChar isLabelChar isText
  intText)

/-! ### The samples there are to be -/

/-- A sample with an integer, as all samples of the page. -/
def intSample (name : String) (labels : List (String × String)) (value : ℤ) : Sample :=
  ⟨name, labels, .number value, none⟩

/-- The samples of one metric of the pools. -/
def poolSamples (keys : List String) (snapshots : Table String SnapshotRow)
    (metric : String × String × (SnapshotRow → ℤ)) : List Sample :=
  keys.map fun key =>
    intSample ("rorch_pool_" ++ metric.1) [("pool", key)] ((snapshots.get key).elim 0 metric.2.2)

/-- The samples of the events. -/
def eventSamples (counts : List (String × ℕ)) : List Sample :=
  counts.map fun c => intSample "rorch_events_24h" [("event", c.1)] c.2

/-- The budget GitHub has last told. -/
def rateSamples (rateLimit : List (String × Json)) : List Sample :=
  match getItem rateLimit "remaining" with
  | some (.int n) => [intSample "rorch_github_rate_remaining" [] n]
  | _ => []

/-- **One sample for each metric and pool, and one for each event**, and those of the site. -/
def expectedSamples (w : World) (now : ℚ) (effective : EffectiveConfig) : List Sample :=
  let snapshots := w.store.latestSnapshots
  poolMetrics.flatMap (poolSamples (metricKeys effective snapshots) snapshots) ++
    eventSamples (w.store.eventCountsSince now (.finite 24)).rows ++
    [intSample "rorch_max_total_runners" [] effective.maxTotalRunners,
      intSample "rorch_paused" [] (if effective.paused then 1 else 0)] ++
    rateSamples w.rateLimit

/-- `rate_limit_status` has a number of requests that remain, or `None`. -/
def World.RateKnown (w : World) : Prop :=
  ∀ value ∈ getItem w.rateLimit "remaining", value = .null ∨ ∃ n, value = .int n

/-- A name that is written as it is to be read. -/
def PlainName (s : String) : Prop := IsPlain s.toList ∧ '\n' ∉ s.toList

/-- The names on the page. -/
def pageNames (w : World) (now : ℚ) (effective : EffectiveConfig) : List String :=
  metricKeys effective w.store.latestSnapshots ++
    (w.store.eventCountsSince now (.finite 24)).rows.map Prod.fst

/-! ### The lines of the page -/

/-- The lines of a metric that is not of a pool. -/
def gaugeLines (name help : String) (lines : List String) : List String :=
  metricHeader name help ++ lines

/-- The lines that tell what remains of the budget. -/
def rateLines (rateLimit : List (String × Json)) : List String :=
  match getItem rateLimit "remaining" with
  | none => []
  | some .null => []
  | some remaining => gaugeLines "rorch_github_rate_remaining" "Last seen GitHub API budget."
      ["rorch_github_rate_remaining " ++ pyStr remaining]

def eventLines (counts : List (String × ℕ)) : List String :=
  (counts.insertionSort fun a b => a.1 ≤ b.1).map fun c =>
    sampleLine "rorch_events_24h" "event" c.1 (toString c.2)

def pageLines (w : World) (now : ℚ) (effective : EffectiveConfig) : List String :=
  let snapshots := w.store.latestSnapshots
  poolMetrics.flatMap (poolMetricLines (metricKeys effective snapshots) snapshots) ++
    (gaugeLines "rorch_events_24h" "Runner lifecycle events in the last 24 hours."
      (eventLines (w.store.eventCountsSince now (.finite 24)).rows) ++
    (gaugeLines "rorch_max_total_runners" "Global ceiling (0 = unlimited)."
      ["rorch_max_total_runners " ++ toString effective.maxTotalRunners] ++
    (gaugeLines "rorch_paused" "Whether all provisioning is paused."
      ["rorch_paused " ++ if effective.paused then "1" else "0"] ++
    rateLines w.rateLimit)))

variable {w : World} {now : ℚ} {effective : EffectiveConfig}

theorem prometheus_eq : prometheus w now effective =
    "\n".intercalate (pageLines w now effective) ++ "\n" := by
  unfold prometheus pageLines gaugeLines eventLines rateLines
  simp only [List.append_assoc]
  rfl

theorem pageLines_ne_nil : pageLines w now effective ≠ [] := by
  unfold pageLines gaugeLines metricHeader
  simp

/-- Lines that are joined and ended with a separator. -/
theorem intercalate_end {α : Type*} {c : α} {lines : List (List α)} (h : lines ≠ []) :
    [c].intercalate lines ++ [c] = lines.flatMap fun line => line ++ [c] := by
  induction lines with
  | nil => exact absurd rfl h
  | cons line lines ih =>
    cases lines with
    | nil => simp
    | cons next lines =>
      rw [List.intercalate_cons_cons, List.append_assoc, ih (List.cons_ne_nil _ _),
        List.flatMap_cons]
      rfl

theorem prometheus_toList : (prometheus w now effective).toList =
    ((pageLines w now effective).map String.toList).flatMap fun line => line ++ ['\n'] := by
  have hne : (pageLines w now effective).map String.toList ≠ [] :=
    fun h => pageLines_ne_nil (List.map_eq_nil_iff.1 h)
  rw [prometheus_eq, String.toList_append, String.toList_intercalate, ← intercalate_end hne]
  rfl

theorem sampleLine_toList (name label key value : String) :
    (sampleLine name label key value).toList = name.toList ++ '\x7b' :: (label.toList ++
      '=' :: '"' :: (key.toList ++ '"' :: '\x7d' :: ' ' :: value.toList)) := by
  unfold sampleLine
  simp [String.toList_append]

/-! ### Reading a page of plain names -/

/-- The comments of a metric are read. -/
def HeaderRead (name help : String) : Prop :=
  ReadAs ("# HELP " ++ name ++ " " ++ help).toList (.help name help) ∧
    ReadAs ("# TYPE " ++ name ++ " gauge").toList (.type name "gauge")

theorem headerRead {name help : String} (hname : isName isMetricChar name.toList = true)
    (hhelp : isText help.toList = true) : HeaderRead name help := by
  have hread := Exposition.readLine_help hname hhelp
  have hkind : Exposition.readLine ('#' :: ' ' :: (['T', 'Y', 'P', 'E'] ++ ' ' ::
      (name.toList ++ ' ' :: "gauge".toList))) =
        some (some (.type (String.ofList name.toList) (String.ofList "gauge".toList))) :=
    Exposition.readLine_type hname (by decide +kernel) (by decide +kernel)
  have hhelpLine : ("# HELP " ++ name ++ " " ++ help).toList =
      '#' :: ' ' :: (['H', 'E', 'L', 'P'] ++ ' ' :: (name.toList ++ ' ' :: help.toList)) := by
    simp [String.toList_append]
  have htypeLine : ("# TYPE " ++ name ++ " gauge").toList =
      '#' :: ' ' :: (['T', 'Y', 'P', 'E'] ++ ' ' :: (name.toList ++ ' ' :: "gauge".toList)) := by
    simp [String.toList_append]
  rw [String.ofList_toList, String.ofList_toList] at hread hkind
  unfold HeaderRead ReadAs
  rw [hhelpLine, htypeLine]
  exact ⟨hread, hkind⟩

/-- A metric of the page. -/
def gauge (name help : String) (samples : List Sample) (named : ∀ s ∈ samples, s.name = name)
    (distinct : (samples.map (·.labels)).Nodup) : Family where
  name := name
  help := some help
  type := some "gauge"
  samples := samples
  named := named
  distinct := distinct

/-- The lines of a metric are read as its entries. -/
theorem readAs_gauge {name help : String} {samples : List Sample} {named} {distinct}
    {lines : List String} (hheader : HeaderRead name help)
    (h : List.Forall₂ ReadAs (lines.map String.toList) (samples.map .sample)) :
    List.Forall₂ ReadAs ((gaugeLines name help lines).map String.toList)
      (gauge name help samples named distinct).entries :=
  .cons hheader.1 (.cons hheader.2 h)

/-- The line of a sample is read when its label value is plain. -/
theorem readAs_sampleLine {name label key : String} (value : ℤ)
    (hname : isName isMetricChar name.toList = true)
    (hlabel : isName isLabelChar label.toList = true)
    (hkey : IsPlain key.toList) :
    ReadAs (sampleLine name label key (toString value)).toList
      (.sample (intSample name [(label, key)] value)) := by
  have hread := Exposition.readLine_labelled hname hlabel hkey value
  rw [String.ofList_toList, String.ofList_toList, String.ofList_toList] at hread
  unfold ReadAs
  rw [sampleLine_toList]
  exact hread

/-- The line of a sample without labels is read. -/
theorem readAs_siteLine {name : String} (value : ℤ)
    (hname : isName isMetricChar name.toList = true) :
    ReadAs (name ++ " " ++ toString value).toList (.sample (intSample name [] value)) := by
  have hread := Exposition.readLine_unlabelled hname value
  rw [String.ofList_toList] at hread
  have hline : (name ++ " " ++ toString value).toList = name.toList ++ ' ' :: intText value := by
    simp [String.toList_append, intText]
  unfold ReadAs
  rw [hline]
  exact hread

/-- The samples of a metric of the pools have different labels. -/
theorem poolSamples_distinct {keys : List String} (hkeys : keys.Nodup)
    (snapshots : Table String SnapshotRow) (metric : String × String × (SnapshotRow → ℤ)) :
    ((poolSamples keys snapshots metric).map (·.labels)).Nodup := by
  unfold poolSamples
  rw [List.map_map]
  refine hkeys.map fun a b h => ?_
  exact congrArg Prod.snd (List.cons.inj h).1

theorem eventSamples_distinct {counts : List (String × ℕ)} (h : (counts.map Prod.fst).Nodup) :
    ((eventSamples counts).map (·.labels)).Nodup := by
  have hlabels : (eventSamples counts).map (·.labels) =
      (counts.map Prod.fst).map fun event => [("event", event)] := by
    unfold eventSamples
    rw [List.map_map, List.map_map]
    rfl
  rw [hlabels]
  exact h.map fun a b h => congrArg Prod.snd (List.cons.inj h).1

/-! ### What the lines are -/

/-- A text without a quote and in one line. -/
def Quiet (s : String) : Prop := '"' ∉ s.toList ∧ '\n' ∉ s.toList

instance (s : String) : Decidable (Quiet s) := inferInstanceAs (Decidable (_ ∧ _))

theorem Quiet.append {s t : String} (hs : Quiet s) (ht : Quiet t) : Quiet (s ++ t) := by
  unfold Quiet
  rw [String.toList_append, List.mem_append, List.mem_append, not_or, not_or]
  exact ⟨⟨hs.1, ht.1⟩, hs.2, ht.2⟩

theorem quiet_toString (n : ℤ) : Quiet (toString n) := by
  obtain ⟨-, -, -, hall⟩ := Exposition.exists_intText n
  refine ⟨fun hmem => ?_, fun hmem => ?_⟩
  · exact absurd (hall _ hmem) (by decide)
  · exact absurd (hall _ hmem) (by decide)

/-- A line has a name of the page between its only quotes, or no quote at all. -/
def LineOf (names : List String) (line : String) : Prop :=
  Quiet line ∨ ∃ name label value key, Quiet name ∧ Quiet label ∧ Quiet value ∧ key ∈ names ∧
    line = sampleLine name label key value

/-- The comments of a metric. -/
theorem quiet_metricHeader {name help : String} (hname : Quiet name) (hhelp : Quiet help) :
    ∀ line ∈ metricHeader name help, Quiet line := by
  have hspace : Quiet " " := by decide
  intro line hline
  rcases List.mem_cons.1 hline with rfl | hline
  · exact (((by decide : Quiet "# HELP ").append hname).append hspace).append hhelp
  · rw [List.mem_singleton.1 hline]
    exact ((by decide : Quiet "# TYPE ").append hname).append (by decide)

theorem lineOf_gauge {names : List String} {name help : String} (hname : Quiet name)
    (hhelp : Quiet help) {lines : List String}
    (hlines : ∀ line ∈ lines, LineOf names line) :
    ∀ line ∈ gaugeLines name help lines, LineOf names line := by
  intro line hline
  rcases List.mem_append.1 hline with hline | hline
  · exact Or.inl (quiet_metricHeader hname hhelp line hline)
  · exact hlines line hline

theorem lineOf_rate (hrate : w.RateKnown) {names : List String} :
    ∀ line ∈ rateLines w.rateLimit, LineOf names line := by
  unfold rateLines
  unfold World.RateKnown at hrate
  cases hremaining : getItem w.rateLimit "remaining" with
  | none =>
    intro line hline
    cases hline
  | some value =>
    rcases hrate value hremaining with rfl | ⟨n, rfl⟩
    · intro line hline
      cases hline
    · refine lineOf_gauge (by decide +kernel) (by decide +kernel) fun line hline => Or.inl ?_
      rw [List.mem_singleton.1 hline]
      exact Quiet.append (by decide +kernel) (quiet_toString n)

/-- **What the lines of the page are.** -/
theorem lineOf_pageLines (hrate : w.RateKnown) :
    ∀ line ∈ pageLines w now effective, LineOf (pageNames w now effective) line := by
  have hmetrics : ∀ m ∈ poolMetrics, Quiet ("rorch_pool_" ++ m.1) ∧ Quiet m.2.1 := by
    decide +kernel
  intro line hline
  unfold pageLines at hline
  simp only [List.mem_append] at hline
  rcases hline with hline | hline | hline | hline | hline
  · obtain ⟨m, hm, hline⟩ := List.mem_flatMap.1 hline
    obtain ⟨hname, hhelp⟩ := hmetrics m hm
    refine lineOf_gauge hname hhelp (fun line hline => Or.inr ?_) line hline
    obtain ⟨key, hkey, rfl⟩ := List.mem_map.1 hline
    exact ⟨_, _, _, key, hname, by decide, quiet_toString _, List.mem_append_left _ hkey, rfl⟩
  · refine lineOf_gauge (by decide +kernel) (by decide +kernel) (fun line hline => Or.inr ?_)
      line hline
    obtain ⟨c, hc, rfl⟩ := List.mem_map.1 hline
    rw [List.mem_insertionSort] at hc
    exact ⟨_, _, _, c.1, by decide, by decide, quiet_toString c.2,
      List.mem_append_right _ (List.mem_map_of_mem hc), rfl⟩
  · refine lineOf_gauge (by decide +kernel) (by decide +kernel) (fun line hline => Or.inl ?_)
      line hline
    rw [List.mem_singleton.1 hline]
    exact Quiet.append (by decide +kernel) (quiet_toString _)
  · refine lineOf_gauge (by decide +kernel) (by decide +kernel) (fun line hline => Or.inl ?_)
      line hline
    rw [List.mem_singleton.1 hline]
    refine Quiet.append (by decide +kernel) ?_
    split_ifs
    · decide
    · decide
  · exact lineOf_rate hrate line hline

/-- No line of a page of plain names is broken. -/
theorem newline_not_mem_pageLines (hrate : w.RateKnown)
    (hplain : ∀ name ∈ pageNames w now effective, PlainName name) :
    ∀ line ∈ (pageLines w now effective).map String.toList, '\n' ∉ line := by
  intro chars hchars
  obtain ⟨line, hline, rfl⟩ := List.mem_map.1 hchars
  rcases lineOf_pageLines hrate line hline with hquiet | ⟨name, label, value, key, hname, hlabel,
    hvalue, hkey, rfl⟩
  · exact hquiet.2
  · rw [sampleLine_toList]
    simp [hname.2, hlabel.2, hvalue.2, (hplain key hkey).2]

/-! ### The metrics of the page -/

section Families

variable (keys : List String) (hkeys : keys.Nodup) (snapshots : Table String SnapshotRow)

def poolFamily (metric : String × String × (SnapshotRow → ℤ)) : Family :=
  gauge ("rorch_pool_" ++ metric.1) metric.2.1 (poolSamples keys snapshots metric)
    (fun _ hs => by obtain ⟨key, -, rfl⟩ := List.mem_map.1 hs; rfl)
    (poolSamples_distinct hkeys snapshots metric)

/-- The events in the order of the page. -/
def sortedCounts (counts : Table String ℕ) : List (String × ℕ) :=
  counts.rows.insertionSort fun a b => a.1 ≤ b.1

theorem sortedCounts_perm (counts : Table String ℕ) : (sortedCounts counts).Perm counts.rows :=
  List.perm_insertionSort _ _

def eventFamily (counts : Table String ℕ) : Family :=
  gauge "rorch_events_24h" "Runner lifecycle events in the last 24 hours."
    (eventSamples (sortedCounts counts))
    (fun _ hs => by obtain ⟨c, -, rfl⟩ := List.mem_map.1 hs; rfl)
    (eventSamples_distinct (((sortedCounts_perm counts).map _).nodup_iff.2 counts.keyed))

def siteFamily (name help : String) (value : ℤ) : Family :=
  gauge name help [intSample name [] value] (fun _ hs => by rw [List.mem_singleton.1 hs]; rfl)
    (List.nodup_singleton _)

def rateFamilies (rateLimit : List (String × Json)) : List Family :=
  match getItem rateLimit "remaining" with
  | some (.int n) => [siteFamily "rorch_github_rate_remaining" "Last seen GitHub API budget." n]
  | _ => []

variable {keys hkeys snapshots}

theorem readAs_poolFamily {metric : String × String × (SnapshotRow → ℤ)} (hm : metric ∈ poolMetrics)
    (hplain : ∀ key ∈ keys, PlainName key) :
    List.Forall₂ ReadAs ((poolMetricLines keys snapshots metric).map String.toList)
      (poolFamily keys hkeys snapshots metric).entries := by
  have hmetrics : ∀ m ∈ poolMetrics, isName isMetricChar ("rorch_pool_" ++ m.1).toList = true ∧
      isText m.2.1.toList = true := by decide +kernel
  obtain ⟨hname, hhelp⟩ := hmetrics metric hm
  refine readAs_gauge (headerRead hname hhelp) ?_
  unfold poolSamples
  rw [List.map_map, List.map_map, List.forall₂_map_left_iff, List.forall₂_map_right_iff,
    List.forall₂_same]
  exact fun key hkey => readAs_sampleLine _ hname (by decide +kernel) (hplain key hkey).1

theorem readAs_eventFamily {counts : Table String ℕ}
    (hplain : ∀ event ∈ counts.rows.map Prod.fst, PlainName event) :
    List.Forall₂ ReadAs ((gaugeLines "rorch_events_24h"
        "Runner lifecycle events in the last 24 hours." (eventLines counts.rows)).map String.toList)
      (eventFamily counts).entries := by
  refine readAs_gauge (headerRead (by decide +kernel) (by decide +kernel)) ?_
  unfold eventSamples eventLines
  rw [List.map_map, List.map_map, List.forall₂_map_left_iff, List.forall₂_map_right_iff]
  refine List.forall₂_same.2 fun c hc => ?_
  have hc' : c ∈ counts.rows := (List.mem_insertionSort _).1 hc
  exact readAs_sampleLine c.2 (by decide +kernel) (by decide +kernel)
    (hplain c.1 (List.mem_map_of_mem hc')).1

theorem readAs_siteFamily {name help head : String} (value : ℤ)
    (hname : isName isMetricChar name.toList = true) (hhelp : isText help.toList = true)
    (hhead : head = name ++ " ") :
    List.Forall₂ ReadAs ((gaugeLines name help [head ++ toString value]).map String.toList)
      (siteFamily name help value).entries := by
  rw [hhead]
  exact readAs_gauge (headerRead hname hhelp) (.cons (readAs_siteLine value hname) .nil)

theorem readAs_rateFamilies (hrate : w.RateKnown) :
    List.Forall₂ ReadAs ((rateLines w.rateLimit).map String.toList)
      ((rateFamilies w.rateLimit).flatMap Family.entries) := by
  unfold rateLines rateFamilies
  unfold World.RateKnown at hrate
  cases hremaining : getItem w.rateLimit "remaining" with
  | none => exact .nil
  | some value =>
    rcases hrate value hremaining with rfl | ⟨n, rfl⟩
    · exact .nil
    · dsimp only
      rw [List.flatMap_singleton]
      exact readAs_siteFamily n (by decide +kernel) (by decide +kernel) (by decide +kernel)

/-- The metrics of the page. -/
def pageFamilies (w : World) (now : ℚ) (effective : EffectiveConfig)
    (hkeys : (metricKeys effective w.store.latestSnapshots).Nodup) : List Family :=
  poolMetrics.map (poolFamily (metricKeys effective w.store.latestSnapshots) hkeys
      w.store.latestSnapshots) ++
    (eventFamily (w.store.eventCountsSince now (.finite 24)) ::
      siteFamily "rorch_max_total_runners" "Global ceiling (0 = unlimited)."
        effective.maxTotalRunners ::
      siteFamily "rorch_paused" "Whether all provisioning is paused."
        (if effective.paused then 1 else 0) ::
      rateFamilies w.rateLimit)

variable {hkeys : (metricKeys effective w.store.latestSnapshots).Nodup}

theorem rateFamilies_names (rateLimit : List (String × Json)) :
    (rateFamilies rateLimit).map (·.name) = [] ∨
      (rateFamilies rateLimit).map (·.name) = ["rorch_github_rate_remaining"] := by
  unfold rateFamilies
  split
  · exact Or.inr rfl
  · exact Or.inl rfl

theorem pageFamilies_names : ((pageFamilies w now effective hkeys).map (·.name)).Nodup := by
  have hnames : (pageFamilies w now effective hkeys).map (·.name) =
      poolMetrics.map (fun m => "rorch_pool_" ++ m.1) ++ ("rorch_events_24h" ::
        "rorch_max_total_runners" :: "rorch_paused" ::
          (rateFamilies w.rateLimit).map (·.name)) := by
    unfold pageFamilies
    rw [List.map_append, List.map_map]
    rfl
  rw [hnames]
  rcases rateFamilies_names w.rateLimit with hrate | hrate
  · rw [hrate]
    decide +kernel
  · rw [hrate]
    decide +kernel

/-- The samples of these metrics are those that there are to be. -/
theorem pageFamilies_samples :
    ((pageFamilies w now effective hkeys).flatMap (·.samples)).Perm
      (expectedSamples w now effective) := by
  have hrate : (rateFamilies w.rateLimit).flatMap (·.samples) = rateSamples w.rateLimit := by
    unfold rateFamilies rateSamples
    split
    · rfl
    · rfl
  have hpools : (poolMetrics.map (poolFamily (metricKeys effective w.store.latestSnapshots) hkeys
      w.store.latestSnapshots)).flatMap (·.samples) = poolMetrics.flatMap (poolSamples
        (metricKeys effective w.store.latestSnapshots) w.store.latestSnapshots) := rfl
  have hevents : (eventSamples (sortedCounts (w.store.eventCountsSince now (.finite 24)))).Perm
      (eventSamples (w.store.eventCountsSince now (.finite 24)).rows) :=
    (sortedCounts_perm _).map _
  unfold pageFamilies expectedSamples
  simp only [List.flatMap_append, List.flatMap_cons, hrate, hpools, List.append_assoc]
  exact (hevents.append_right _).append_left _

/-- **A page of plain names is read as its metrics.** -/
theorem readAs_pageFamilies (hrate : w.RateKnown)
    (hplain : ∀ name ∈ pageNames w now effective, PlainName name) :
    List.Forall₂ ReadAs ((pageLines w now effective).map String.toList)
      ((pageFamilies w now effective hkeys).flatMap Family.entries) := by
  have hpools : ∀ metrics : List (String × String × (SnapshotRow → ℤ)),
      (∀ m ∈ metrics, m ∈ poolMetrics) → List.Forall₂ ReadAs
        ((metrics.flatMap (poolMetricLines (metricKeys effective w.store.latestSnapshots)
          w.store.latestSnapshots)).map String.toList)
        ((metrics.map (poolFamily (metricKeys effective w.store.latestSnapshots) hkeys
          w.store.latestSnapshots)).flatMap Family.entries) := by
    intro metrics hmetrics
    induction metrics with
    | nil => exact .nil
    | cons m metrics ih =>
      obtain ⟨hm, hrest⟩ := List.forall_mem_cons.1 hmetrics
      rw [List.flatMap_cons, List.map_append, List.map_cons, List.flatMap_cons]
      exact List.rel_append (readAs_poolFamily hm fun key hkey =>
        hplain key (List.mem_append_left _ hkey)) (ih hrest)
  have hpaused : (if effective.paused then "1" else "0") =
      toString (if effective.paused then 1 else 0 : ℤ) := by
    cases effective.paused
    · rfl
    · rfl
  unfold pageLines pageFamilies
  dsimp only
  simp only [List.map_append, List.flatMap_append, List.flatMap_cons]
  refine List.rel_append (hpools poolMetrics fun _ hm => hm) (List.rel_append ?_
    (List.rel_append ?_ (List.rel_append ?_ (readAs_rateFamilies hrate))))
  · exact readAs_eventFamily fun event hevent => hplain event (List.mem_append_right _ hevent)
  · exact readAs_siteFamily _ (by decide +kernel) (by decide +kernel) (by decide +kernel)
  · rw [hpaused]
    exact readAs_siteFamily _ (by decide +kernel) (by decide +kernel) (by decide +kernel)

/-- **A page of plain names is well formed** and has the samples there are to be. -/
theorem exposes_of_plain (hrate : w.RateKnown)
    (hkeys : (metricKeys effective w.store.latestSnapshots).Nodup)
    (hplain : ∀ name ∈ pageNames w now effective, PlainName name) :
    Exposes (prometheus w now effective).toList (expectedSamples w now effective) := by
  refine ⟨pageFamilies w now effective hkeys, pageFamilies_names, ?_, pageFamilies_samples⟩
  rw [prometheus_toList]
  exact Exposition.readPage_of_forall₂ (newline_not_mem_pageLines hrate hplain)
    (readAs_pageFamilies hrate hplain)

end Families

/-! ### The longest name that is not plain -/

instance (s : String) : Decidable (PlainName s) :=
  inferInstanceAs (Decidable (('"' ∉ s.toList ∧ '\\' ∉ s.toList) ∧ '\n' ∉ s.toList))

/-- There is to be a sample for each name. -/
theorem exists_expectedSample {key : String} (hkey : key ∈ pageNames w now effective) :
    ∃ s ∈ expectedSamples w now effective, ∃ label, (label, key) ∈ s.labels := by
  rcases List.mem_append.1 hkey with hkey | hkey
  · obtain ⟨metric, metrics, hmetrics⟩ : ∃ m ms, poolMetrics = m :: ms := ⟨_, _, rfl⟩
    have hs : intSample ("rorch_pool_" ++ metric.1) [("pool", key)]
        ((w.store.latestSnapshots.get key).elim 0 metric.2.2) ∈ poolMetrics.flatMap
          (poolSamples (metricKeys effective w.store.latestSnapshots) w.store.latestSnapshots) :=
      List.mem_flatMap.2 ⟨metric, hmetrics ▸ List.mem_cons_self, List.mem_map_of_mem hkey⟩
    exact ⟨_, List.mem_append_left _ (List.mem_append_left _ (List.mem_append_left _ hs)), "pool",
      List.mem_singleton_self _⟩
  · obtain ⟨c, hc, rfl⟩ := List.mem_map.1 hkey
    have hs : intSample "rorch_events_24h" [("event", c.1)] c.2 ∈
        eventSamples (w.store.eventCountsSince now (.finite 24)).rows := List.mem_map_of_mem hc
    exact ⟨_, List.mem_append_left _ (List.mem_append_left _ (List.mem_append_right _ hs)), "event",
      List.mem_singleton_self _⟩

/-- What stands between two quotes of a line stands in a name, as no line has other quotes. -/
theorem LineOf.infix_name {names : List String} {line : String} (h : LineOf names line)
    {raw : List Char} (hraw : ('"' :: raw ++ ['"']) <:+: line.toList) :
    ∃ key ∈ names, raw <:+: key.toList := by
  rcases h with hquiet | ⟨name, label, value, key, hname, hlabel, hvalue, hkey, rfl⟩
  · exact absurd (hraw.subset List.mem_cons_self) hquiet.1
  · refine ⟨key, hkey, ?_⟩
    have hbefore : '"' ∉ name.toList ++ '\x7b' :: (label.toList ++ ['=']) := by
      simp [hname.1, hlabel.1]
    have hafter : '"' ∉ '\x7d' :: ' ' :: value.toList := by
      simp [hvalue.1]
    have hline : (sampleLine name label key value).toList =
        (name.toList ++ '\x7b' :: (label.toList ++ ['='])) ++ '"' :: (key.toList ++
          '"' :: ('\x7d' :: ' ' :: value.toList)) := by
      rw [sampleLine_toList]
      simp
    rw [hline] at hraw
    exact Exposition.infix_between hbefore hafter hraw

/-- A name that is not plain and is read from the page is read from a longer one, which has a
backslash. -/
theorem exists_longer_name (hrate : w.RateKnown)
    (h : Exposes (prometheus w now effective).toList (expectedSamples w now effective))
    {name : String} (hname : name ∈ pageNames w now effective) (hplain : ¬ PlainName name) :
    ∃ key ∈ pageNames w now effective, ¬ PlainName key ∧
      name.toList.length < key.toList.length := by
  obtain ⟨s, hs, label, hlabel⟩ := exists_expectedSample hname
  obtain ⟨piece, hpiece, hquotes⟩ := h.exists_line hs
  obtain ⟨raw, hraw, hreads⟩ := hquotes _ hlabel
  have hbroken : '\n' ∉ raw := fun hmem => by
    have hinner : raw <:+: '"' :: raw ++ ['"'] := ⟨['"'], ['"'], rfl⟩
    exact not_mem_of_mem_splitOn hpiece ((hinner.trans hraw).subset hmem)
  -- a line may be broken by the names in it, but what is between its quotes is in one of them
  obtain ⟨line, hline, hinfix⟩ : ∃ line ∈ pageLines w now effective, piece <:+: line.toList := by
    rw [prometheus_toList, splitOn_flatMap_end] at hpiece
    rcases List.mem_append.1 hpiece with hpiece | hpiece
    · obtain ⟨chars, hchars, hpiece⟩ := List.mem_flatMap.1 hpiece
      obtain ⟨line, hline, rfl⟩ := List.mem_map.1 hchars
      exact ⟨line, hline, infix_of_mem_splitOn hpiece⟩
    · rw [List.mem_singleton.1 hpiece] at hraw
      exact absurd (List.infix_nil.1 hraw) (List.cons_ne_nil _ _)
  obtain ⟨key, hkey, hinside⟩ :=
    (lineOf_pageLines hrate line hline).infix_name (hraw.trans hinfix)
  rcases hreads with ⟨heq, hrawPlain⟩ | ⟨hlen, hescape⟩
  · exact absurd ⟨heq ▸ hrawPlain, heq ▸ hbroken⟩ hplain
  · exact ⟨key, hkey, fun hkeyPlain => hkeyPlain.1.2 (hinside.subset hescape),
      hlen.trans_le hinside.length_le⟩

/-- **All names of a well formed page are plain.** -/
theorem plainName_of_exposes (hrate : w.RateKnown)
    (h : Exposes (prometheus w now effective).toList (expectedSamples w now effective)) :
    ∀ name ∈ pageNames w now effective, PlainName name := by
  intro name hname
  by_contra hplain
  have hmem : ∀ key, key ∈ (pageNames w now effective).toFinset.filter (¬ PlainName ·) ↔
      key ∈ pageNames w now effective ∧ ¬ PlainName key := fun key => by
    rw [Finset.mem_filter, List.mem_toFinset]
  obtain ⟨longest, hlongest, hmax⟩ := Finset.exists_max_image
    ((pageNames w now effective).toFinset.filter (¬ PlainName ·)) (·.toList.length)
    ⟨name, (hmem name).2 ⟨hname, hplain⟩⟩
  obtain ⟨hlongestMem, hlongestPlain⟩ := (hmem longest).1 hlongest
  obtain ⟨key, hkey, hkeyPlain, hlonger⟩ :=
    exists_longer_name hrate h hlongestMem hlongestPlain
  exact absurd hlonger (hmax key ((hmem key).2 ⟨hkey, hkeyPlain⟩)).not_gt

/-- The keys of a well formed page are different. -/
theorem nodup_of_exposes
    (h : Exposes (prometheus w now effective).toList (expectedSamples w now effective)) :
    (metricKeys effective w.store.latestSnapshots).Nodup := by
  have hsamples := h.nodup
  unfold expectedSamples at hsamples
  have hpools := (hsamples.of_append_left.of_append_left).of_append_left
  have hfirst := (List.nodup_flatMap.1 hpools).1 _ List.mem_cons_self
  exact hfirst.of_map _

/-- **The page is well formed** and has exactly one sample for each metric and pool, and for each
event, **just when its names are plain** and the keys different. -/
theorem exposes_iff (hrate : w.RateKnown) :
    Exposes (prometheus w now effective).toList (expectedSamples w now effective) ↔
      (metricKeys effective w.store.latestSnapshots).Nodup ∧
        ∀ name ∈ pageNames w now effective, PlainName name := by
  constructor
  · exact fun h => ⟨nodup_of_exposes h, plainName_of_exposes hrate h⟩
  · exact fun ⟨hkeys, hplain⟩ => exposes_of_plain hrate hkeys hplain

/-! ### A pool with a quote in its name -/

def scrapedPool (name : String) : PoolConfig := { name := name, pat := "ghp", owner := "acme" }

/-- An orchestrator with this pool alone, which has ticked once and started a runner. -/
def scrapedWorld (name : String) : World :=
  { World.empty with
    store := { World.empty.store with tickSnapshots := [⟨0, name, "acme", 2, 2, 1, 1, 3, 1⟩] }
      |>.recordEvent 0 "spawned" "gh-runner-1" name ""
    rateLimit := [("remaining", .int 4999)] }

def scrapedConfig (name : String) : EffectiveConfig :=
  (plainSite [scrapedPool name]).resolver.resolveWithoutStore

theorem rateKnown_scraped (name : String) : (scrapedWorld name).RateKnown :=
  fun _ h => Or.inr ⟨4999, (Option.some.inj h).symm⟩

theorem exposes_scraped : Exposes
    (prometheus (scrapedWorld "build-1") 60 (scrapedConfig "build-1")).toList
    (expectedSamples (scrapedWorld "build-1") 60 (scrapedConfig "build-1")) :=
  (exposes_iff (rateKnown_scraped "build-1")).2 (by decide +kernel)

/-- The page is not well formed when an accepted pool has a quote in its name. -/
theorem not_exposes :
    validationErrors [scrapedPool "a\"b"] = .ok [] ∧
      (plainSite [scrapedPool "a\"b"]).resolver.resolve (scrapedWorld "a\"b").store.toDatabase =
        .ok (scrapedConfig "a\"b") ∧
      (scrapedWorld "a\"b").RateKnown ∧
      ¬ Exposes (prometheus (scrapedWorld "a\"b") 60 (scrapedConfig "a\"b")).toList
        (expectedSamples (scrapedWorld "a\"b") 60 (scrapedConfig "a\"b")) := by
  refine ⟨by decide +kernel, rfl, rateKnown_scraped _, fun h => ?_⟩
  have hplain := plainName_of_exposes (rateKnown_scraped _) h "a\"b" (by decide +kernel)
  exact absurd hplain (by decide +kernel)

end RunnerSwarm
