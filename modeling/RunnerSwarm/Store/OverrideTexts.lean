import RunnerSwarm.Lib.JsonDocuments
import RunnerSwarm.Store.History

/-!
# Overrides as they are stored

The table `pool_overrides` has the data of a row as text: `set_pool_override` writes `json.dumps`,
and `pool_overrides` reads each row with `json.loads`. The other modules keep the value that the
text stands for (`Store.setPoolOverride`, `readOverrides`). The two agree:

* `Table.mapValues` is a table whose values are read, and the operations go through it;
* `overridesOfTexts_eq`: the rows are read alike;
* `reads_as_stored`: after any sets and deletions, what is read from the texts is what the values
  say, whatever was in the table before.
-/

namespace RunnerSwarm

namespace Table

variable {κ β γ : Type*}

/-- The values are read by `f`. -/
def mapValues (f : β → γ) (t : Table κ β) : Table κ γ where
  rows := t.rows.map fun row => (row.1, f row.2)
  keyed := by
    rw [List.map_map]
    exact t.keyed

theorem mapValues_deleteWhere (f : β → γ) (t : Table κ β) (p : κ → Bool) :
    (t.deleteWhere fun key _ => p key).mapValues f =
      (t.mapValues f).deleteWhere fun key _ => p key := by
  apply eq_of_rows
  simp only [mapValues, deleteWhere, List.filter_map]
  rfl

theorem mapValues_spelling {ω : Type*} [DecidableEq ω] (weight : κ → ω) (f : β → γ)
    (t : Table κ β) (key : κ) : (t.mapValues f).spelling weight key = t.spelling weight key := by
  unfold spelling mapValues
  rw [List.find?_map, Option.map_map]
  rfl

variable [DecidableEq κ]

theorem mapValues_put (f : β → γ) (t : Table κ β) (key : κ) (value : β) :
    (t.put key value).mapValues f = (t.mapValues f).put key (f value) := by
  apply eq_of_rows
  have hkeys : (t.mapValues f).rows.map Prod.fst = t.rows.map Prod.fst := by
    simp only [mapValues, List.map_map]
    rfl
  have hrows : ((t.put key value).mapValues f).rows =
      (t.put key value).rows.map fun row => (row.1, f row.2) := rfl
  unfold put at hrows ⊢
  rw [hrows, rows_upsert, rows_upsert, hkeys]
  split_ifs with hkey
  · simp only [mapValues, List.map_map]
    refine List.map_congr_left fun row _ => ?_
    simp only [Function.comp_apply]
    split_ifs <;> rfl
  · simp only [mapValues, List.map_append, List.map_cons, List.map_nil]

end Table

/-- A row of `pool_overrides` as it is stored, without its key. -/
structure OverrideText where
  data : String
  origin : String
  disabled : Bool

/-- What `json.loads` makes of the data. -/
def OverrideText.decoded (depth : ℕ) (row : OverrideText) : OverrideRow where
  data :=
    match JsonText.loads depth row.data with
    | .ok data => .value data
    | .error .malformed => .malformed
    | .error .tooDeep => .tooDeep
  origin := row.origin
  disabled := row.disabled

theorem OverrideText.decoded_data (row : OverrideText) (depth : ℕ) :
    (row.decoded depth).data =
      match JsonText.loads depth row.data with
      | .ok data => .value data
      | .error .malformed => .malformed
      | .error .tooDeep => .tooDeep := rfl

/-- `pool_overrides`. A `ValueError` skips the row. -/
def overridesOfTexts (depth : ℕ) :
    List (String × OverrideText) → Except PyError (List (String × OverrideEntry))
  | [] => .ok []
  | (pool, row) :: rows =>
      match JsonText.loads depth row.data with
      | .error .tooDeep => .error .recursionError
      | .error .malformed => overridesOfTexts depth rows
      | .ok data => do
          let entries ← overridesOfTexts depth rows
          return (pool, ⟨data, row.origin, row.disabled⟩) :: entries

/-- A call that changes the table. -/
inductive OverrideEdit
  | set (pool : String) (data : List (String × Json)) (origin : String) (disabled : Bool)
  | delete (pool : String)

namespace OverrideEdit

/-- `set_pool_override` and `delete_pool_override`, on a database that compares keys by `weight`. -/
def onTexts (weight : String → String) (t : Table String OverrideText) :
    OverrideEdit → Table String OverrideText
  | .set pool data origin disabled =>
      t.put (t.spelling weight pool) ⟨jsonDumps (.dict data), origin, disabled⟩
  | .delete pool => t.deleteWhere fun key _ => weight key = weight pool

/-- The same, on values. -/
def onStore (s : Store) : OverrideEdit → Store
  | .set pool data origin disabled => s.setPoolOverride pool (.dict data) origin disabled
  | .delete pool => s.deletePoolOverride pool

/-- `json.dumps` writes the data. -/
def Dumps (depth : ℕ) : OverrideEdit → Prop
  | .set _ data _ _ => JsonText.Writable (.dict data) depth
  | .delete _ => True

end OverrideEdit

/-- The store whose overrides are read from the table. -/
def Store.reading (s : Store) (depth : ℕ) (t : Table String OverrideText) : Store :=
  { s with poolOverrides := t.mapValues (OverrideText.decoded depth) }

/-- The rows are read alike. -/
theorem overridesOfTexts_eq (depth : ℕ) (rows : List (String × OverrideText)) :
    overridesOfTexts depth rows =
      readOverrides (rows.map fun row => (row.1, row.2.decoded depth)) := by
  induction rows with
  | nil => rfl
  | cons row rows ih =>
    obtain ⟨pool, row⟩ := row
    rw [overridesOfTexts, List.map_cons, readOverrides, row.decoded_data, ih]
    cases JsonText.loads depth row.data with
    | ok data => rfl
    | error e => cases e <;> rfl

/-- **One call.** What is written is what will be read. -/
theorem OverrideEdit.onStore_reading {e : OverrideEdit} {depth : ℕ} (he : e.Dumps depth)
    (s : Store) (t : Table String OverrideText) :
    e.onStore (s.reading depth t) = s.reading depth (e.onTexts s.weight t) := by
  cases e with
  | set pool data origin disabled =>
    have hread : OverrideText.decoded depth ⟨jsonDumps (.dict data), origin, disabled⟩ =
        ⟨.value (.dict data), origin, disabled⟩ := by
      unfold OverrideText.decoded
      dsimp only
      rw [JsonText.loads_jsonDumps he]
    simp only [onStore, onTexts, Store.setPoolOverride, Store.reading, Table.mapValues_spelling,
      Table.mapValues_put, hread]
  | delete pool =>
    have hdelete := Table.mapValues_deleteWhere (OverrideText.decoded depth) t fun key =>
      s.weight key = s.weight pool
    exact congrArg (fun overrides => { s with poolOverrides := overrides }) hdelete.symm

/-- **Overrides are read as they were stored.** After any calls of `set_pool_override` and
`delete_pool_override`, on a table with any texts in it, `pool_overrides` returns what it would
return if the values were kept as they are. -/
theorem reads_as_stored {depth : ℕ} {edits : List OverrideEdit}
    (hedits : ∀ e ∈ edits, e.Dumps depth) (s : Store) (t : Table String OverrideText) :
    overridesOfTexts depth (edits.foldl (OverrideEdit.onTexts s.weight) t).rows =
      readOverrides (edits.foldl OverrideEdit.onStore (s.reading depth t)).poolOverrides.rows := by
  have hrun : edits.foldl OverrideEdit.onStore (s.reading depth t) =
      s.reading depth (edits.foldl (OverrideEdit.onTexts s.weight) t) := by
    induction edits generalizing t with
    | nil => rfl
    | cons e edits ih =>
      obtain ⟨he, hrest⟩ := List.forall_mem_cons.1 hedits
      rw [List.foldl_cons, List.foldl_cons, e.onStore_reading he, ih hrest]
  rw [hrun, overridesOfTexts_eq]
  rfl

/-- A pool is edited, another one is edited and reverted, and a third one has text in it that is no
JSON. -/
theorem reads_as_stored_editPool :
    overridesOfTexts 100
        ([.set "ci" [("max_runners", .int 4), ("cpu_limit", .float (.finite (3 / 2)))] "yaml" false,
          .set "gpu" [] "custom" true, .delete "gpu"].foldl (OverrideEdit.onTexts id)
            ⟨[("arm", ⟨"max_runners: 2", "yaml", false⟩)], List.nodup_singleton _⟩).rows =
      .ok [("ci", ⟨.dict [("max_runners", .int 4), ("cpu_limit", .float (.finite (3 / 2)))],
        "yaml", false⟩)] := by
  refine (reads_as_stored (fun e he => ?_)
    ⟨⟨.empty, .empty, .empty, []⟩, id, [], [], [], .empty, .empty, .empty⟩ _).trans ?_
  · simp only [List.mem_cons, List.not_mem_nil, or_false] at he
    rcases he with rfl | rfl | rfl
    · refine ⟨by decide, ?_, ⟨⟨1, by decide, ?_⟩, ?_⟩, trivial⟩
      · show (toString 4).length ≤ maxStrDigits
        decide
      · norm_num
      · decide +kernel
    · exact ⟨List.nodup_nil, trivial⟩
    · trivial
  · rfl

end RunnerSwarm
