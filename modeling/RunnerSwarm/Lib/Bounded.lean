import Mathlib.Data.List.MinMax
import RunnerSwarm.Lib.Lru

/-!
# Tables of bounded size

A table that makes room for a new key. When it is full, it loses the first of the rows with the
lowest rank, such as the time at which a row expires. A key that is there keeps its place.

* `putBounded`: assign under a key;
* `length_putBounded_le`: the table does not outgrow its bound;
* `displaces_putBounded`: at most one other row is lost, and one of lowest rank.
-/

namespace RunnerSwarm.Table

variable {κ β γ : Type*} [DecidableEq κ] [LinearOrder γ]

/-! ### Making room -/

/-- `min(d, key=lambda k: rank(d[k]))`. -/
def lowest (rank : β → γ) (t : Table κ β) : Option κ :=
  (t.rows.argmin fun r => rank r.2).map Prod.fst

/-- The table with room for a row of the key `k`. -/
def makeRoom (rank : β → γ) (bound : ℕ) (t : Table κ β) (k : κ) : Table κ β :=
  if t.get k = none ∧ bound ≤ t.rows.length then
    match t.lowest rank with
    | some old => t.erase old
    | none => t
  else t

/-- Assign under a key in a table of at most `bound` rows. -/
def putBounded (rank : β → γ) (bound : ℕ) (t : Table κ β) (k : κ) (v : β) : Table κ β :=
  (t.makeRoom rank bound k).put k v

/-- **At most one row other than that of `k` is lost**, and one of lowest rank. The others stay. -/
def Displaces (rank : β → γ) (t : Table κ β) (k : κ) (u : Table κ β) : Prop :=
  (∀ k' ≠ k, u.get k' = t.get k') ∨
    ∃ old ≠ k, ∃ v, t.get old = some v ∧ (∀ k' w, t.get k' = some w → rank v ≤ rank w) ∧
      u.get old = none ∧ ∀ k', k' ≠ k → k' ≠ old → u.get k' = t.get k'

variable {rank : β → γ} {bound : ℕ} {t : Table κ β} {k : κ}

theorem lowest_eq_some {old : κ} (h : t.lowest rank = some old) :
    ∃ v, t.get old = some v ∧ ∀ k' w, t.get k' = some w → rank v ≤ rank w := by
  obtain ⟨⟨_, v⟩, hmin, rfl⟩ := Option.map_eq_some_iff.1 h
  refine ⟨v, get_eq_some_iff.2 (List.argmin_mem hmin), fun k' w hw => ?_⟩
  have hle : rank v ≤ rank (k', w).2 :=
    List.le_of_mem_argmin (f := fun r : κ × β => rank r.2) (get_eq_some_iff.1 hw) hmin
  exact hle

omit [DecidableEq κ] in
theorem exists_lowest (rank : β → γ) (h : t.rows ≠ []) : ∃ old, t.lowest rank = some old := by
  cases hmin : t.rows.argmin fun r => rank r.2 with
  | none => exact absurd (List.argmin_eq_none.1 hmin) h
  | some r => exact ⟨r.1, congrArg (Option.map Prod.fst) hmin⟩

/-- **Making room** for a key leaves the table, or drops one row of lowest rank. -/
theorem makeRoom_cases (rank : β → γ) (hbound : 0 < bound) (t : Table κ β) (k : κ) :
    (t.makeRoom rank bound k = t ∧ (t.get k = none → t.rows.length < bound)) ∨
      ∃ old v, t.get k = none ∧ t.get old = some v ∧
        (∀ k' w, t.get k' = some w → rank v ≤ rank w) ∧ t.makeRoom rank bound k = t.erase old := by
  unfold makeRoom
  split_ifs with hfull
  · obtain ⟨hk, hlen⟩ := hfull
    have hrows : t.rows ≠ [] := List.ne_nil_of_length_pos (hbound.trans_le hlen)
    obtain ⟨old, hold⟩ := exists_lowest rank hrows
    obtain ⟨v, hv, hmin⟩ := lowest_eq_some hold
    refine Or.inr ⟨old, v, hk, hv, hmin, ?_⟩
    rw [hold]
  · exact Or.inl ⟨rfl, fun hk => not_le.1 fun hlen => hfull ⟨hk, hlen⟩⟩

/-! ### Assigning -/

theorem length_put (t : Table κ β) (k : κ) (v : β) :
    (t.put k v).rows.length = if t.get k = none then t.rows.length + 1 else t.rows.length := by
  split_ifs with hk
  · rw [rows_put_of_get_eq_none hk, List.length_append, List.length_singleton]
  · have hmem : k ∈ t.rows.map Prod.fst := by
      obtain ⟨w, hw⟩ := Option.ne_none_iff_exists'.1 hk
      exact List.mem_map_of_mem (get_eq_some_iff.1 hw)
    unfold put
    rw [rows_upsert, if_pos hmem, List.length_map]

theorem get_putBounded_self (t : Table κ β) (k : κ) (v : β) :
    (t.putBounded rank bound k v).get k = some v := by
  unfold putBounded
  rw [get_put, if_pos rfl]

theorem get_putBounded_of_ne {k' : κ} (h : k' ≠ k) (t : Table κ β) (v : β) :
    (t.putBounded rank bound k v).get k' = (t.makeRoom rank bound k).get k' := by
  unfold putBounded
  rw [get_put, if_neg h]

/-- **The bound is kept.** -/
theorem length_putBounded_le (hbound : 0 < bound) (h : t.rows.length ≤ bound) (k : κ) (v : β) :
    (t.putBounded rank bound k v).rows.length ≤ bound := by
  unfold putBounded
  rw [length_put]
  rcases makeRoom_cases rank hbound t k with ⟨hroom, hlen⟩ | ⟨old, w, -, hold, -, hroom⟩
  · rw [hroom]
    split_ifs with hk
    · exact hlen hk
    · exact h
  · have hlt := length_erase_lt hold
    rw [hroom]
    split_ifs
    · omega
    · omega

/-- **Only one row gives way**, one of lowest rank. -/
theorem displaces_putBounded (hbound : 0 < bound) (t : Table κ β) (k : κ) (v : β) :
    Displaces rank t k (t.putBounded rank bound k v) := by
  rcases makeRoom_cases rank hbound t k with
    ⟨hroom, -⟩ | ⟨old, w, hk, hold, hmin, hroom⟩
  · refine Or.inl fun k' hk' => ?_
    rw [get_putBounded_of_ne hk', hroom]
  · have hne : old ≠ k := by
      rintro rfl
      rw [hk] at hold
      cases hold
    refine Or.inr ⟨old, hne, w, hold, hmin, ?_, fun k' hk' hkept => ?_⟩
    · rw [get_putBounded_of_ne hne, hroom, get_erase, if_pos rfl]
    · rw [get_putBounded_of_ne hk', hroom, get_erase, if_neg hkept]

end RunnerSwarm.Table
