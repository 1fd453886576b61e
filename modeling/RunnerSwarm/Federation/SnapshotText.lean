import RunnerSwarm.Lib.JsonPrefix
import RunnerSwarm.Federation.Agreement

/-!
# Snapshots on the wire

Between two hosts a snapshot is text: `peer_state` answers with what `jsonify` writes, and
`fetch_snapshot` reads no more than its first 256 KiB before `json.loads`. The other modules take
the object for the answer (`fetchSnapshot`).

* `fetch_whole`: whatever object was published, the peer reads that object, or it gets a
  `ValueError`; what is cut off is never taken for something else;
* `Snapshot.writable_jsonify`: a snapshot within the limits can be written;
* `Snapshot.accepted_text`: a peer that was handed the text has the slots of the host.
-/

namespace RunnerSwarm

/-- The body of a response, by `jsonify`. -/
def responseText (published : Json) : List Char := jsonText published ++ ['\n']

/-- `fetch_snapshot`, of the body of the response. -/
def fetchText (depth : ℕ) (body : List Char) : Except PyError Json :=
  match JsonText.loads depth (String.ofList (body.take fetchLimit)) with
  | .ok data => .ok data
  | .error .malformed => .error .valueError
  | .error .tooDeep => .error .recursionError

section Whole

variable {depth : ℕ}

theorem fetchText_of_ok {body : List Char} {data : Json}
    (h : JsonText.loads depth (String.ofList (body.take fetchLimit)) = .ok data) :
    fetchText depth body = .ok data := by
  unfold fetchText
  rw [h]

theorem fetchText_of_malformed {body : List Char}
    (h : JsonText.loads depth (String.ofList (body.take fetchLimit)) = .error .malformed) :
    fetchText depth body = .error .valueError := by
  unfold fetchText
  rw [h]

/-- The line feed alone may be cut off. -/
theorem loads_of_length_le {published : Json} (h : JsonText.Writable published depth)
    (hlength : (jsonText published).length ≤ fetchLimit) :
    JsonText.loads depth (String.ofList ((responseText published).take fetchLimit)) =
      .ok published := by
  unfold responseText
  rcases hlength.eq_or_lt with heq | hlt
  · have htake : (jsonText published ++ ['\n']).take fetchLimit = jsonText published := by
      rw [← heq, List.take_left]
    have hnone : JsonText.Blank [] := fun c hc => by cases hc
    rw [htake, ← JsonText.dumpsWith_compact]
    exact JsonText.loads_dumpsWith hnone hnone h
  · have hle : (jsonText published ++ ['\n']).length ≤ fetchLimit := by
      rw [List.length_append, List.length_singleton]
      omega
    rw [List.take_of_length_le hle]
    exact JsonText.loads_jsonText h

/-- Without its last brace, an object is none. -/
theorem loads_of_lt_length {kvs : List (String × Json)}
    (h : JsonText.Writable (.dict kvs) depth)
    (hlength : fetchLimit < (jsonText (.dict kvs)).length) :
    JsonText.loads depth (String.ofList ((responseText (.dict kvs)).take fetchLimit)) =
      .error .malformed := by
  have hnone : JsonText.Blank [] := fun c hc => by cases hc
  have htake : (responseText (.dict kvs)).take fetchLimit =
      (jsonText (.dict kvs)).take fetchLimit := List.take_append_of_le_length hlength.le
  have hmore : (jsonText (.dict kvs)).drop fetchLimit ≠ [] := by
    rw [Ne, List.drop_eq_nil_iff]
    omega
  rw [htake]
  refine JsonText.loads_prefix hnone hnone h hmore ?_
  rw [JsonText.dumpsWith_compact, List.take_append_drop]

/-- **A peer reads the whole object or nothing.** For every object that can be published, what
`fetch_snapshot` makes of the text of the response is the object as it was published, or a
`ValueError` when the text was cut off. -/
theorem fetch_whole {kvs : List (String × Json)} (h : JsonText.Writable (.dict kvs) depth) :
    fetchText depth (responseText (.dict kvs)) = fetchSnapshot (.dict kvs) := by
  unfold fetchSnapshot
  split_ifs with hlength
  · exact fetchText_of_ok (loads_of_length_le h hlength)
  · exact fetchText_of_malformed (loads_of_lt_length h (Nat.lt_of_not_le hlength))

end Whole

/-! ### Snapshots can be written -/

section Snapshots

variable {depth : ℕ}

/-- The floats of the snapshot are decimals, as floats are. -/
structure Snapshot.Decimal (s : Snapshot) : Prop where
  ts : JsonText.IsDecimal (.finite s.ts)
  load1 : JsonText.IsDecimal (.finite s.host.load1)
  tempC : ∀ t, s.host.tempC = some t → JsonText.IsDecimal (.finite t)

/-- Within the limits, numbers have few digits. -/
theorem writable_int {n : ℤ} (h : |n| ≤ 2 ^ 40) (depth : ℕ) :
    JsonText.Writable (.int n) depth := by
  have hlt : n.natAbs < 10 ^ maxStrDigits := by
    have hnat : n.natAbs ≤ 2 ^ 40 := by
      rw [abs_le] at h
      omega
    exact (hnat.trans_lt (by norm_num : 2 ^ 40 < 10 ^ 13)).trans_le
      (Nat.pow_le_pow_right (by norm_num) (by decide))
  have hlength : (toString n.natAbs).length ≤ maxStrDigits := by
    rw [Nat.toString_eq_repr]
    exact (Nat.length_repr_le_iff (by decide)).2 hlt
  unfold JsonText.Writable
  exact hlength

theorem PoolCounts.WithinLimits.writable {c : PoolCounts} (h : c.WithinLimits) (depth : ℕ) :
    JsonText.Writable c.toJson (depth + 1) := by
  have hmax : maxCount = 1000 := rfl
  have hint : ∀ n : ℤ, 0 ≤ n ∧ n ≤ maxCount → JsonText.Writable (.int n) depth := fun n hn =>
    writable_int (by rw [abs_le]; omega) depth
  have hkeys : ["busy", "max_runners", "running"].Nodup := by decide
  exact ⟨hkeys, hint _ h.busy, hint _ h.maxRunners, hint _ h.running, trivial⟩

theorem HostState.WithinLimits.writable {m : HostState} (h : m.WithinLimits)
    (hload : JsonText.IsDecimal (.finite m.load1))
    (htemp : ∀ t, m.tempC = some t → JsonText.IsDecimal (.finite t)) (depth : ℕ) :
    JsonText.Writable (.dict m.items) (depth + 1) := by
  have hmax : maxCores = 1024 := rfl
  have hint : ∀ n : ℤ, 0 ≤ n ∧ n ≤ 2 ^ 30 → JsonText.Writable (.int n) depth := fun n hn =>
    writable_int (by rw [abs_le]; omega) depth
  have hcores := h.cores
  have hcpu := h.cpuCount
  have hfree := h.freeCores
  have hkeys : ["cores", "cpu_count", "free_cores", "load1", "mem_available_mb", "mem_total_mb",
      "temp_c"].Nodup := by decide
  refine ⟨hkeys, hint _ (by omega), hint _ (by omega), hint _ (by omega), hload,
    hint _ h.memAvailableMb, hint _ h.memTotalMb, ?_, trivial⟩
  cases ht : m.tempC with
  | none => trivial
  | some t => exact htemp t ht

theorem writableItems_iff {items : List (String × Json)} {depth : ℕ} :
    JsonText.WritableItems items depth ↔ ∀ item ∈ items, JsonText.Writable item.2 depth := by
  induction items with
  | nil => exact ⟨fun _ _ h => (List.not_mem_nil h).elim, fun _ => trivial⟩
  | cons item items ih =>
    obtain ⟨key, x⟩ := item
    rw [List.forall_mem_cons, ← ih]
    rfl

/-- A snapshot within the limits can be written. -/
theorem Snapshot.writable_jsonify {s : Snapshot} (h : s.WithinLimits) (hdecimal : s.Decimal)
    (depth : ℕ) : JsonText.Writable s.jsonify (depth + 3) := by
  have hmax : maxCount = 1000 := rfl
  have hperm : s.sortedPools.Perm s.pools.rows := List.perm_insertionSort _ _
  have hkeys : (s.poolItems.map Prod.fst).Nodup := by
    have hfst : s.poolItems.map Prod.fst = s.sortedPools.map Prod.fst := by
      simp only [poolItems, List.map_map]
      rfl
    rw [hfst]
    exact (hperm.map _).nodup_iff.2 s.pools.keyed
  have hpools : JsonText.WritableItems s.poolItems (depth + 1) := by
    rw [writableItems_iff]
    intro item hitem
    obtain ⟨row, hrow, rfl⟩ := List.mem_map.1 hitem
    exact (h.counts row.1 row.2 (Table.get_eq_some_iff.2 (hperm.mem_iff.1 hrow))).writable depth
  have hfields : ["global_free", "host", "instance", "pools", "ts", "version"].Nodup := by decide
  refine ⟨hfields, ?_, h.host.writable hdecimal.load1 hdecimal.tempC (depth + 1), trivial,
    ⟨hkeys, hpools⟩, hdecimal.ts, trivial, trivial⟩
  cases hfree : s.globalFree with
  | none => trivial
  | some free =>
    have hbounds := h.globalFree free hfree
    exact writable_int (by rw [abs_le]; omega) _

/-- **A host is seen as it is, in text.** A peer that reads the text of a snapshot within the limits
has the host's own slot for every pool; where the text is too long, it has a `ValueError`. -/
theorem Snapshot.accepted_text {s : Snapshot} (h : s.WithinLimits) (hdecimal : s.Decimal)
    (depth : ℕ) :
    ((jsonText s.jsonify).length ≤ fetchLimit → ∃ data copy,
      fetchText (depth + 3) (responseText s.jsonify) = .ok data ∧
        validateSnapshot data = .ok copy ∧
        ∀ pool maxTempC, slotFor copy pool maxTempC = slotFor s pool maxTempC) ∧
    (fetchLimit < (jsonText s.jsonify).length →
      fetchText (depth + 3) (responseText s.jsonify) = .error .valueError) := by
  have hwhole := fetch_whole (s.writable_jsonify h hdecimal depth)
  refine ⟨fun hlength => ?_, fun hlength => hwhole.trans (if_neg (Nat.not_le.2 hlength))⟩
  obtain ⟨copy, hvalid, hagrees⟩ := validateSnapshot_jsonify h
  exact ⟨s.jsonify, copy, hwhole.trans (if_pos hlength), hvalid, hagrees.slotFor⟩

end Snapshots

/-! ### A host and its text -/

theorem hostWith_decimal : ((hostWith "a" 3).snapshot .exact).Decimal where
  ts := by
    show JsonText.IsDecimal (.finite 1)
    exact ⟨⟨0, by decide, by norm_num⟩, by decide +kernel⟩
  load1 := by
    show JsonText.IsDecimal (.finite 2)
    exact ⟨⟨0, by decide, by norm_num⟩, by decide +kernel⟩
  tempC t ht := by
    obtain rfl : (45 : ℚ) = t := Option.some.inj ht
    exact ⟨⟨0, by decide, by norm_num⟩, by decide +kernel⟩

/-- The text of a host with one pool is read as its snapshot. -/
theorem fetch_whole_hostWith :
    fetchText 3 (responseText ((hostWith "a" 3).snapshot .exact).jsonify) =
      .ok ((hostWith "a" 3).snapshot .exact).jsonify := by
  have hwritable := Snapshot.writable_jsonify hostWith_a.snapshot hostWith_decimal 0
  exact (fetch_whole hwritable).trans (if_pos hostWith_a.text)

/-- Its peers have its slot for the pool. -/
theorem accepted_text_hostWith : ∃ data copy,
    fetchText 3 (responseText ((hostWith "a" 3).snapshot .exact).jsonify) = .ok data ∧
      validateSnapshot data = .ok copy ∧ slotFor copy "ci" (.finite 85) = some ⟨"a", 6, 2⟩ := by
  obtain ⟨data, copy, hfetch, hvalid, hslot⟩ :=
    (Snapshot.accepted_text hostWith_a.snapshot hostWith_decimal 0).1 hostWith_a.text
  refine ⟨data, copy, hfetch, hvalid, (hslot "ci" (.finite 85)).trans ?_⟩
  decide +kernel

end RunnerSwarm
