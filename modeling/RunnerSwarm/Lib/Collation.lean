import RunnerSwarm.Lib.Table

/-!
# Tables under a collation

An index compares keys by their *weight*, what the collation of the column makes of them, while
every row keeps the key it was inserted with. The operations are those of SQL on such a table; the
upsert changes the other columns and leaves the key of the row as it is.

* `dict` is the table as a map from exact keys, as a client builds it from all rows;
* `Clash t k` says that the row with the weight of `k` was inserted under another key;
* without a clash `get`, `put` and `erase` are the operations of that map, and each of them tells a
  clash: `get_eq_dict_iff`, `put_sameRows_iff`, `erase_sameRows_iff`.

A client that reads the rows of such a table has a table of exact keys. There a statement on a key
addresses its `Table.spelling`, which is the key itself unless a row with its weight stands under
another one: `Table.spelling_eq`.
-/

namespace RunnerSwarm

variable {κ ω ω' β : Type*}

/-- A weight that ignores the case of ASCII letters. -/
def caseWeight (s : String) : String := String.ofList (s.toList.map Char.toLower)

/-! ### The rows of a client -/

namespace Table

section Spelling

variable (weight : κ → ω) (t : Table κ β) (k : κ)

/-- A row with the weight of `k` stands under another key. -/
def Clash : Prop := ∃ r ∈ t.rows, weight r.1 = weight k ∧ r.1 ≠ k

instance [DecidableEq κ] [DecidableEq ω] : Decidable (t.Clash weight k) :=
  inferInstanceAs (Decidable (∃ r ∈ t.rows, weight r.1 = weight k ∧ r.1 ≠ k))

variable {weight t k}

theorem eq_of_not_clash (h : ¬ t.Clash weight k) {r : κ × β} (hr : r ∈ t.rows)
    (hweight : weight r.1 = weight k) : r.1 = k := by
  by_contra hne
  exact h ⟨r, hr, hweight, hne⟩

variable [DecidableEq ω]

/-- The key under which a statement on `k` finds or puts its row. -/
def spelling (weight : κ → ω) (t : Table κ β) (k : κ) : κ :=
  ((t.rows.find? fun r => weight r.1 = weight k).map Prod.fst).getD k

theorem weight_spelling : weight (t.spelling weight k) = weight k := by
  unfold spelling
  cases hfind : t.rows.find? fun r => weight r.1 = weight k with
  | none => rfl
  | some r => simpa using List.find?_some hfind

/-- **Without a clash** a statement addresses the key it names. -/
theorem spelling_eq (h : ¬ t.Clash weight k) : t.spelling weight k = k := by
  unfold spelling
  cases hfind : t.rows.find? fun r => weight r.1 = weight k with
  | none => rfl
  | some r =>
    have hr := List.mem_of_find?_eq_some hfind
    have hweight : weight r.1 = weight k := by simpa using List.find?_some hfind
    exact eq_of_not_clash h hr hweight

variable [DecidableEq κ]

theorem deleteWhere_weight (h : ¬ t.Clash weight k) :
    (t.deleteWhere fun key _ => weight key = weight k) = t.without k := by
  refine eq_of_rows (List.filter_congr fun r hr => ?_)
  have hsame : weight r.1 = weight k ↔ r.1 = k :=
    ⟨eq_of_not_clash h hr, fun hkey => hkey ▸ rfl⟩
  simp only [hsame]

end Spelling

end Table

/-! ### Tables of weighed keys -/

/-- A table whose key is compared by weight. -/
structure CollatedTable (weight : κ → ω) (β : Type*) where
  index : Table ω (κ × β)
  weighed : ∀ x k v, (x, (k, v)) ∈ index.rows → weight k = x

namespace CollatedTable

variable {weight : κ → ω} {weight' : κ → ω'}

def empty : CollatedTable weight β := ⟨Table.empty, fun _ _ _ h => (List.not_mem_nil h).elim⟩

def rows (t : CollatedTable weight β) : List (κ × β) := t.index.rows.map Prod.snd

/-- `DELETE … WHERE …` with a condition on the other columns. -/
def deleteWhere (t : CollatedTable weight β) (p : β → Bool) : CollatedTable weight β where
  index := t.index.deleteWhere fun _ row => p row.2
  weighed := fun x k v h => t.weighed x k v (Table.mem_deleteWhere.1 h).1

section Operations

variable [DecidableEq ω]

/-- `SELECT … WHERE key = ?`. -/
def get (t : CollatedTable weight β) (k : κ) : Option β :=
  (t.index.get (weight k)).map Prod.snd

/-- `DELETE … WHERE key = ?`. -/
def erase (t : CollatedTable weight β) (k : κ) : CollatedTable weight β where
  index := t.index.deleteWhere fun x _ => x = weight k
  weighed := fun x k v h => t.weighed x k v (Table.mem_deleteWhere.1 h).1

/-- `INSERT`, or an update of every column but the key. -/
def put (t : CollatedTable weight β) (k : κ) (v : β) : CollatedTable weight β where
  index := t.index.upsert (weight k) (k, v) fun row => (row.1, v)
  weighed := by
    intro x k' v' h
    rw [← Table.get_eq_some_iff, Table.get_upsert] at h
    split_ifs at h with hx
    · cases hold : t.index.get (weight k) with
      | none =>
        rw [hold] at h
        obtain ⟨rfl, -⟩ := Prod.mk.inj (Option.some.inj h)
        exact hx.symm
      | some row =>
        rw [hold] at h
        obtain ⟨rfl, -⟩ := Prod.mk.inj (Option.some.inj h)
        exact (t.weighed _ _ _ (Table.get_eq_some_iff.1 hold)).trans hx.symm
    · exact t.weighed x k' v' (Table.get_eq_some_iff.1 h)

/-- The row with the weight of `k` was inserted under another key. -/
def Clash (t : CollatedTable weight β) (k : κ) : Prop :=
  ∃ row ∈ t.index.get (weight k), row.1 ≠ k

instance [DecidableEq κ] (t : CollatedTable weight β) (k : κ) : Decidable (t.Clash k) :=
  inferInstanceAs (Decidable (∃ row ∈ t.index.get (weight k), row.1 ≠ k))

end Operations

/-! ### The table as a map -/

variable [DecidableEq κ]

/-- The dict made of the rows. -/
def dict (t : CollatedTable weight β) (k : κ) : Option β :=
  (t.rows.find? fun r => r.1 = k).map Prod.snd

/-- Two tables hold the same rows. -/
def SameRows (t : CollatedTable weight β) (u : CollatedTable weight' β) : Prop :=
  ∀ k, t.dict k = u.dict k

theorem sameRows_empty :
    (empty : CollatedTable weight β).SameRows (empty : CollatedTable weight' β) := fun _ => rfl

variable [DecidableEq ω] [DecidableEq ω']

omit [DecidableEq κ] in
theorem mem_rows {t : CollatedTable weight β} {k : κ} {v : β} :
    (k, v) ∈ t.rows ↔ t.index.get (weight k) = some (k, v) := by
  unfold rows
  rw [Table.get_eq_some_iff, List.mem_map]
  constructor
  · rintro ⟨⟨x, k', v'⟩, hmem, hrow⟩
    obtain ⟨rfl, rfl⟩ := Prod.mk.inj hrow
    rwa [t.weighed x _ _ hmem]
  · exact fun hmem => ⟨_, hmem, rfl⟩

/-- **The dict is the index**, as far as the keys are spelled alike. -/
theorem dict_eq (t : CollatedTable weight β) (k : κ) :
    t.dict k = ((t.index.get (weight k)).filter fun row => row.1 = k).map Prod.snd := by
  unfold dict
  cases hfind : t.rows.find? fun r => r.1 = k with
  | none =>
    have hnone : (t.index.get (weight k)).filter (fun row => row.1 = k) = none := by
      refine Option.filter_eq_none_iff.2 fun row hrow hk => ?_
      obtain rfl : row.1 = k := of_decide_eq_true hk
      have hmem : row ∈ t.rows := mem_rows.2 hrow
      exact List.find?_eq_none.1 hfind row hmem hk
    rw [hnone, Option.map_none]
  | some row =>
    obtain rfl : row.1 = k := by simpa using List.find?_some hfind
    rw [mem_rows.1 (List.mem_of_find?_eq_some hfind)]
    simp

omit [DecidableEq κ] in
/-- Keys with different weights never clash. -/
theorem not_clash (h : Function.Injective weight) (t : CollatedTable weight β) (k : κ) :
    ¬ t.Clash k := by
  rintro ⟨⟨k', v⟩, hrow, hne⟩
  exact hne (h (t.weighed _ _ _ (Table.get_eq_some_iff.1 hrow)))

/-- A clash hides the key from the dict. -/
theorem dict_of_clash {t : CollatedTable weight β} {k : κ} (h : t.Clash k) : t.dict k = none := by
  obtain ⟨row, hrow, hne⟩ := h
  rw [dict_eq, Option.mem_def.1 hrow]
  simp [hne]

/-- **A lookup finds what the dict holds** exactly when no other key is found in its place. -/
theorem get_eq_dict_iff {t : CollatedTable weight β} {k : κ} :
    t.get k = t.dict k ↔ ¬ t.Clash k := by
  constructor
  · intro h hclash
    rw [dict_of_clash hclash] at h
    obtain ⟨row, hrow, -⟩ := hclash
    unfold get at h
    rw [Option.mem_def.1 hrow] at h
    cases h
  · intro h
    unfold get
    rw [dict_eq]
    cases hrow : t.index.get (weight k) with
    | none => rfl
    | some row =>
      have hk : row.1 = k := by_contra fun hne => h ⟨row, hrow, hne⟩
      simp [Option.filter_some, hk]

/-- What an upsert makes of the dict. -/
theorem dict_put {t : CollatedTable weight β} {k : κ} (h : ¬ t.Clash k) (v : β) (k' : κ) :
    (t.put k v).dict k' = if k' = k then some v else t.dict k' := by
  rw [dict_eq, dict_eq]
  unfold put
  dsimp only
  rw [Table.get_upsert]
  by_cases hw : weight k' = weight k
  · rw [if_pos hw, hw]
    cases hrow : t.index.get (weight k) with
    | none =>
      by_cases hk : k' = k
      · simp [hk]
      · simp [hk, Ne.symm hk]
    | some row =>
      have hkey : row.1 = k := by_contra fun hne => h ⟨row, hrow, hne⟩
      by_cases hk : k' = k
      · simp [hk, hkey]
      · simp [Option.filter_some, hk, Ne.symm hk, hkey]
  · have hk : k' ≠ k := fun hk => hw (hk ▸ rfl)
    rw [if_neg hw, if_neg hk]

/-- An upsert under a clash leaves no row with its key. -/
theorem dict_put_of_clash {t : CollatedTable weight β} {k : κ} (h : t.Clash k) (v : β) :
    (t.put k v).dict k = none := by
  obtain ⟨row, hrow, hne⟩ := h
  rw [dict_eq]
  unfold put
  dsimp only
  rw [Table.get_upsert, if_pos rfl, Option.mem_def.1 hrow]
  simp [hne]

/-- What a deletion makes of the dict. -/
theorem dict_erase {t : CollatedTable weight β} {k : κ} (h : ¬ t.Clash k) (k' : κ) :
    (t.erase k).dict k' = if k' = k then none else t.dict k' := by
  rw [dict_eq, dict_eq]
  unfold erase
  dsimp only
  rw [Table.get_deleteWhere]
  by_cases hw : weight k' = weight k
  · rw [hw]
    cases hrow : t.index.get (weight k) with
    | none => simp
    | some row =>
      have hkey : row.1 = k := by_contra fun hne => h ⟨row, hrow, hne⟩
      by_cases hk : k' = k
      · simp [hk]
      · simp [hk, Ne.symm hk, hkey]
  · have hk : k' ≠ k := fun hk => hw (hk ▸ rfl)
    rw [if_neg hk]
    cases t.index.get (weight k') with
    | none => rfl
    | some row => simp [hw]

/-- A deletion under a clash deletes the row of another key. -/
theorem dict_erase_of_clash {t : CollatedTable weight β} {k : κ} (h : t.Clash k) :
    ∃ k' v, k' ≠ k ∧ t.dict k' = some v ∧ (t.erase k).dict k' = none := by
  obtain ⟨⟨k', v⟩, hrow, hne⟩ := h
  have hw : weight k' = weight k := t.weighed _ _ _ (Table.get_eq_some_iff.1 hrow)
  refine ⟨k', v, hne, ?_, ?_⟩
  · rw [dict_eq, hw, Option.mem_def.1 hrow]
    simp
  · rw [dict_eq]
    unfold erase
    dsimp only
    rw [Table.get_deleteWhere, hw, Option.mem_def.1 hrow]
    simp

theorem dict_deleteWhere (t : CollatedTable weight β) (p : β → Bool) (k : κ) :
    (t.deleteWhere p).dict k = (t.dict k).filter fun v => !p v := by
  rw [dict_eq, dict_eq]
  unfold deleteWhere
  dsimp only
  rw [Table.get_deleteWhere]
  cases t.index.get (weight k) with
  | none => rfl
  | some row =>
    by_cases hk : row.1 = k
    · cases hp : p row.2
      · simp [Option.filter_some, hk, hp]
      · simp [Option.filter_some, hk, hp]
    · simp [Option.filter_some, hk]

/-! ### Beside a table of exact keys -/

section Exact

variable {t : CollatedTable weight β} {u : CollatedTable weight' β}
  (hinj : Function.Injective weight)
include hinj

/-- A lookup tells a clash. -/
theorem get_eq_get_iff (h : t.SameRows u) (k : κ) : t.get k = u.get k ↔ ¬ u.Clash k := by
  rw [get_eq_dict_iff.2 (not_clash hinj t k), h k, eq_comm]
  exact get_eq_dict_iff

/-- **An upsert keeps the rows the same** exactly when there is no clash. -/
theorem put_sameRows_iff (h : t.SameRows u) (k : κ) (v : β) :
    (t.put k v).SameRows (u.put k v) ↔ ¬ u.Clash k := by
  constructor
  · intro hsame hclash
    have hk := hsame k
    rw [dict_put (not_clash hinj t k), if_pos rfl, dict_put_of_clash hclash] at hk
    cases hk
  · intro hclash k'
    rw [dict_put (not_clash hinj t k), dict_put hclash, h k']

/-- **A deletion keeps the rows the same** exactly when there is no clash. -/
theorem erase_sameRows_iff (h : t.SameRows u) (k : κ) :
    (t.erase k).SameRows (u.erase k) ↔ ¬ u.Clash k := by
  constructor
  · intro hsame hclash
    obtain ⟨k', v, hne, hrow, hgone⟩ := dict_erase_of_clash hclash
    have hk := hsame k'
    rw [dict_erase (not_clash hinj t k), if_neg hne, h k', hrow, hgone] at hk
    cases hk
  · intro hclash k'
    rw [dict_erase (not_clash hinj t k), dict_erase hclash, h k']

end Exact

theorem deleteWhere_sameRows {t : CollatedTable weight β} {u : CollatedTable weight' β}
    (h : t.SameRows u) (p : β → Bool) : (t.deleteWhere p).SameRows (u.deleteWhere p) := by
  intro k
  rw [dict_deleteWhere, dict_deleteWhere, h k]

end CollatedTable

end RunnerSwarm
