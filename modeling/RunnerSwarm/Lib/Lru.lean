import RunnerSwarm.Lib.Table

/-!
# Least recently used rows

A table whose rows stand in the order of their last use, oldest first:

* `putLast`: assign under a key and move it to the end;
* `moveToEnd`: a use of a key that may be missing;
* `trim`: drop the oldest rows while there are more than a bound.

No operation invents a row: what is in the table afterwards was in it before, or is the one that
was put (`mem_putLast`, `mem_moveToEnd`, `mem_of_mem_trim`). `length_trim` is the bound.
-/

namespace RunnerSwarm

namespace Table

variable {κ β : Type*} [DecidableEq κ]

/-- Drop the row of a key. -/
def erase (t : Table κ β) (k : κ) : Table κ β := t.deleteWhere fun k' _ => k' = k

theorem mem_erase {t : Table κ β} {k k' : κ} {v : β} :
    (k', v) ∈ (t.erase k).rows ↔ (k', v) ∈ t.rows ∧ k' ≠ k := by
  unfold erase
  rw [mem_deleteWhere, decide_eq_false_iff_not]

@[simp] theorem get_erase (t : Table κ β) (k k' : κ) :
    (t.erase k).get k' = if k' = k then none else t.get k' := by
  unfold erase
  rw [get_deleteWhere]
  split_ifs with hk <;> cases t.get k' <;> simp [hk]

theorem length_erase_le (t : Table κ β) (k : κ) : (t.erase k).rows.length ≤ t.rows.length :=
  List.length_filter_le _ _

/-- `d[k] = v` and `d.move_to_end(k)`. -/
def putLast (t : Table κ β) (k : κ) (v : β) : Table κ β where
  rows := (t.erase k).rows ++ [(k, v)]
  keyed := by
    rw [List.map_append]
    refine List.nodup_append.2 ⟨(t.erase k).keyed, List.nodup_singleton _, ?_⟩
    rintro a ha b hb rfl
    obtain ⟨⟨a', w⟩, hw, rfl⟩ := List.mem_map.1 ha
    exact (mem_erase.1 hw).2 (by simpa using hb)

theorem mem_putLast {t : Table κ β} {k k' : κ} {v v' : β} :
    (k', v') ∈ (t.putLast k v).rows ↔ ((k', v') ∈ t.rows ∧ k' ≠ k) ∨ (k' = k ∧ v' = v) := by
  show (k', v') ∈ (t.erase k).rows ++ [(k, v)] ↔ _
  rw [List.mem_append, mem_erase, List.mem_singleton, Prod.mk.injEq]

/-- `d.move_to_end(k)` when the key is there. -/
def moveToEnd (t : Table κ β) (k : κ) : Table κ β :=
  match t.get k with
  | some v => t.putLast k v
  | none => t

theorem mem_moveToEnd {t : Table κ β} {k k' : κ} {v : β} :
    (k', v) ∈ (t.moveToEnd k).rows ↔ (k', v) ∈ t.rows := by
  unfold moveToEnd
  cases hk : t.get k with
  | none => rfl
  | some w =>
    rw [mem_putLast, ← get_eq_some_iff]
    constructor
    · rintro (⟨h, -⟩ | ⟨rfl, rfl⟩)
      · exact h
      · exact hk
    · intro h
      by_cases hkk : k' = k
      · subst hkk
        exact Or.inr ⟨rfl, Option.some.inj (h.symm.trans hk)⟩
      · exact Or.inl ⟨h, hkk⟩

/-- The row of a key that is there is dropped before it is put last. -/
theorem length_erase_lt {t : Table κ β} {k : κ} {v : β} (h : t.get k = some v) :
    (t.erase k).rows.length < t.rows.length := by
  refine List.length_filter_lt_length_iff_exists.2 ⟨(k, v), get_eq_some_iff.1 h, ?_⟩
  simp

theorem length_moveToEnd_le (t : Table κ β) (k : κ) :
    (t.moveToEnd k).rows.length ≤ t.rows.length := by
  unfold moveToEnd
  cases hk : t.get k with
  | none => exact le_rfl
  | some v =>
    have hlt := length_erase_lt hk
    show ((t.erase k).rows ++ [(k, v)]).length ≤ _
    rw [List.length_append, List.length_singleton]
    omega

end Table

/-- `while len(d) > bound: d.popitem(last=False)`. -/
def trimRows {α : Type*} (bound : ℕ) : List α → List α
  | [] => []
  | r :: rows => if bound < (r :: rows).length then trimRows bound rows else r :: rows

theorem trimRows_suffix {α : Type*} (bound : ℕ) (rows : List α) :
    trimRows bound rows <:+ rows := by
  induction rows with
  | nil => exact List.suffix_rfl
  | cons r rows ih =>
    unfold trimRows
    split_ifs
    · exact ih.trans (List.suffix_cons r rows)
    · exact List.suffix_rfl

theorem length_trimRows {α : Type*} (bound : ℕ) (rows : List α) :
    (trimRows bound rows).length ≤ bound := by
  induction rows with
  | nil => exact Nat.zero_le _
  | cons r rows ih =>
    unfold trimRows
    split_ifs with h
    · exact ih
    · exact Nat.le_of_not_lt h

namespace Table

variable {κ β : Type*}

/-- Drop the oldest rows while there are more than `bound`. -/
def trim (t : Table κ β) (bound : ℕ) : Table κ β where
  rows := trimRows bound t.rows
  keyed := t.keyed.sublist ((trimRows_suffix bound t.rows).sublist.map _)

theorem mem_of_mem_trim {t : Table κ β} {bound : ℕ} {r : κ × β} (h : r ∈ (t.trim bound).rows) :
    r ∈ t.rows := (trimRows_suffix bound t.rows).subset h

theorem length_trim (t : Table κ β) (bound : ℕ) : (t.trim bound).rows.length ≤ bound :=
  length_trimRows bound t.rows

end Table

end RunnerSwarm
