import Mathlib.Tactic

/-!
# Tables with a primary key

A table is a list of rows with pairwise different keys, in insertion order. The operations are
those of SQL on such a table:

* `get`: `SELECT … WHERE key = ?`;
* `upsert`: `INSERT … ON CONFLICT(key) DO UPDATE`;
* `modify`: `UPDATE … SET … WHERE …`;
* `deleteWhere`: `DELETE … WHERE …`.

Each has one lemma, which says what `get` returns afterwards; `get_eq_some_iff` connects `get`
with the rows. `get_foldl_put` is a table that is filled row by row; where a key comes more than
once, its last row stays (`get_foldl_put_last`), and `foldl_put_eq_iff` says when the rows are there
already.
-/

namespace RunnerSwarm

/-- A table: rows with distinct keys. -/
structure Table (κ β : Type*) where
  rows : List (κ × β)
  keyed : (rows.map Prod.fst).Nodup

namespace Table

variable {κ β : Type*}

/-- The table without rows. -/
def empty : Table κ β := ⟨[], List.nodup_nil⟩

instance : Inhabited (Table κ β) := ⟨empty⟩

/-- Keep the keys and change the values. -/
def modify (t : Table κ β) (f : κ → β → β) : Table κ β where
  rows := t.rows.map fun r => (r.1, f r.1 r.2)
  keyed := by
    rw [List.map_map]
    exact t.keyed

/-- Drop the rows that satisfy `p`. -/
def deleteWhere (t : Table κ β) (p : κ → β → Bool) : Table κ β where
  rows := t.rows.filter fun r => !p r.1 r.2
  keyed := t.keyed.sublist (List.filter_sublist.map _)

theorem mem_modify {t : Table κ β} {f : κ → β → β} {k : κ} {v : β} :
    (k, v) ∈ (t.modify f).rows ↔ ∃ w, (k, w) ∈ t.rows ∧ v = f k w := by
  simp only [modify, List.mem_map, Prod.mk.injEq, Prod.exists]
  constructor
  · rintro ⟨k', w, hmem, rfl, rfl⟩
    exact ⟨w, hmem, rfl⟩
  · rintro ⟨w, hmem, rfl⟩
    exact ⟨k, w, hmem, rfl, rfl⟩

theorem mem_deleteWhere {t : Table κ β} {p : κ → β → Bool} {k : κ} {v : β} :
    (k, v) ∈ (t.deleteWhere p).rows ↔ (k, v) ∈ t.rows ∧ p k v = false := by
  simp [deleteWhere]

variable [DecidableEq κ]

/-- The value stored under a key. -/
def get (t : Table κ β) (k : κ) : Option β :=
  (t.rows.find? fun r => r.1 = k).map Prod.snd

@[simp] theorem get_empty (k : κ) : (empty : Table κ β).get k = none := rfl

theorem get_eq_some_iff {t : Table κ β} {k : κ} {v : β} :
    t.get k = some v ↔ (k, v) ∈ t.rows := by
  unfold get
  rw [Option.map_eq_some_iff]
  constructor
  · rintro ⟨⟨k', w⟩, hfind, rfl⟩
    obtain rfl : k' = k := by simpa using List.find?_some hfind
    exact List.mem_of_find?_eq_some hfind
  · intro hmem
    cases hfind : t.rows.find? fun r => r.1 = k with
    | none =>
      have := List.find?_eq_none.1 hfind _ hmem
      simp at this
    | some r =>
      have hr := List.mem_of_find?_eq_some hfind
      have hk : r.1 = k := by simpa using List.find?_some hfind
      exact ⟨r, rfl, by rw [List.inj_on_of_nodup_map t.keyed hr hmem hk]⟩

theorem get_eq_none_iff {t : Table κ β} {k : κ} : t.get k = none ↔ ∀ v, (k, v) ∉ t.rows := by
  rw [Option.eq_none_iff_forall_ne_some]
  exact forall_congr' fun v => not_congr get_eq_some_iff

theorem get_modify (t : Table κ β) (f : κ → β → β) (k : κ) :
    (t.modify f).get k = (t.get k).map (f k) := by
  refine Option.ext fun v => ?_
  rw [get_eq_some_iff, mem_modify, Option.map_eq_some_iff]
  exact exists_congr fun w => and_congr get_eq_some_iff.symm eq_comm

theorem get_deleteWhere (t : Table κ β) (p : κ → β → Bool) (k : κ) :
    (t.deleteWhere p).get k = (t.get k).filter fun v => !p k v := by
  refine Option.ext fun v => ?_
  rw [get_eq_some_iff, mem_deleteWhere, Option.filter_eq_some_iff, get_eq_some_iff]
  simp

/-- Insert a row, or change the one that has its key. -/
def upsert (t : Table κ β) (k : κ) (new : β) (f : β → β) : Table κ β :=
  if h : k ∈ t.rows.map Prod.fst then t.modify fun k' v => if k' = k then f v else v
  else
    { rows := t.rows ++ [(k, new)]
      keyed := by
        rw [List.map_append]
        refine List.nodup_append.2 ⟨t.keyed, List.nodup_singleton _, ?_⟩
        rintro a ha b hb rfl
        obtain rfl : a = k := by simpa using hb
        exact h ha }

/-- Insert a row or replace it. -/
def put (t : Table κ β) (k : κ) (v : β) : Table κ β := t.upsert k v fun _ => v

theorem get_upsert (t : Table κ β) (k : κ) (new : β) (f : β → β) (k' : κ) :
    (t.upsert k new f).get k' =
      if k' = k then some ((t.get k).elim new f) else t.get k' := by
  unfold upsert
  by_cases hk : k ∈ t.rows.map Prod.fst
  · rw [dif_pos hk, get_modify]
    split_ifs with heq
    · subst heq
      obtain ⟨⟨_, v⟩, hv, rfl⟩ := List.mem_map.1 hk
      rw [get_eq_some_iff.2 hv]
      rfl
    · simp
  · rw [dif_neg hk]
    have hnone : t.get k = none :=
      get_eq_none_iff.2 fun v hv => hk (List.mem_map.2 ⟨_, hv, rfl⟩)
    refine Option.ext fun v => ?_
    rw [get_eq_some_iff]
    split_ifs with heq
    · subst heq
      have hmiss : (k', v) ∉ t.rows := get_eq_none_iff.1 hnone v
      simp [hmiss, hnone, eq_comm]
    · simp [heq, get_eq_some_iff]

@[simp] theorem get_put (t : Table κ β) (k : κ) (v : β) (k' : κ) :
    (t.put k v).get k' = if k' = k then some v else t.get k' := by
  unfold put
  rw [get_upsert]
  cases t.get k <;> rfl

/-- A new key is put last. -/
theorem rows_put_of_get_eq_none {t : Table κ β} {k : κ} (h : t.get k = none) (v : β) :
    (t.put k v).rows = t.rows ++ [(k, v)] := by
  have hk : k ∉ t.rows.map Prod.fst := fun hk => by
    obtain ⟨⟨_, w⟩, hw, rfl⟩ := List.mem_map.1 hk
    exact get_eq_none_iff.1 h w hw
  unfold put upsert
  rw [dif_neg hk]

/-- The table without the row of a key. -/
def without (t : Table κ β) (k : κ) : Table κ β := t.deleteWhere fun k' _ => k' = k

theorem rows_without (t : Table κ β) (k : κ) :
    (t.without k).rows = t.rows.filter fun r => r.1 ≠ k := by
  unfold without deleteWhere
  simp only [decide_not]

theorem get_without (t : Table κ β) (k k' : κ) :
    (t.without k).get k' = if k' = k then none else t.get k' := by
  unfold without
  rw [get_deleteWhere]
  split_ifs with hk
  · cases t.get k' <;> simp [hk]
  · cases t.get k' <;> simp [hk]

omit [DecidableEq κ] in
theorem eq_of_rows {t u : Table κ β} (h : t.rows = u.rows) : t = u := by
  cases t
  cases u
  cases h
  rfl

theorem rows_upsert (t : Table κ β) (k : κ) (new : β) (f : β → β) :
    (t.upsert k new f).rows =
      if k ∈ t.rows.map Prod.fst then t.rows.map fun r => (r.1, if r.1 = k then f r.2 else r.2)
      else t.rows ++ [(k, new)] := by
  unfold upsert
  split <;> rfl

/-- What happens to a row is gone with it. -/
theorem without_upsert_self (t : Table κ β) (k : κ) (new : β) (f : β → β) :
    (t.upsert k new f).without k = t.without k := by
  apply eq_of_rows
  rw [rows_without, rows_without, rows_upsert]
  split_ifs with hk
  · rw [List.filter_map]
    have hkeep : ∀ r ∈ t.rows.filter fun r => r.1 ≠ k,
        (r.1, if r.1 = k then f r.2 else r.2) = r := fun r hr => by
      rw [if_neg (of_decide_eq_true (List.mem_filter.1 hr).2)]
    exact (List.map_congr_left hkeep).trans (List.map_id _)
  · rw [List.filter_append, List.filter_singleton]
    simp

/-- The other rows stay in their places. -/
theorem without_upsert_of_ne {k k' : κ} (h : k ≠ k') (t : Table κ β) (new : β) (f : β → β) :
    (t.upsert k new f).without k' = (t.without k').upsert k new f := by
  have hkey : k ∈ (t.without k').rows.map Prod.fst ↔ k ∈ t.rows.map Prod.fst := by
    rw [rows_without, List.mem_map, List.mem_map]
    constructor
    · rintro ⟨r, hr, hk⟩
      exact ⟨r, (List.mem_filter.1 hr).1, hk⟩
    · rintro ⟨r, hr, hk⟩
      exact ⟨r, List.mem_filter.2 ⟨hr, decide_eq_true (hk ▸ h)⟩, hk⟩
  apply eq_of_rows
  rw [rows_without, rows_upsert, rows_upsert]
  simp only [hkey]
  split_ifs with hk
  · rw [rows_without, List.filter_map]
    rfl
  · rw [rows_without, List.filter_append, List.filter_singleton]
    simp [h]

/-- Rows with distinct keys, put one after the other. -/
theorem get_foldl_put {rows : List (κ × β)} (hrows : (rows.map Prod.fst).Nodup) (t : Table κ β)
    (k : κ) (v : β) :
    (rows.foldl (fun t r => t.put r.1 r.2) t).get k = some v ↔
      (k, v) ∈ rows ∨ (k ∉ rows.map Prod.fst ∧ t.get k = some v) := by
  induction rows generalizing t with
  | nil => simp
  | cons r rows ih =>
    obtain ⟨hr, hrest⟩ := List.nodup_cons.1 hrows
    rw [List.foldl_cons, ih hrest, get_put, List.map_cons, List.mem_cons, List.mem_cons]
    by_cases hk : k = r.1
    · subst hk
      have hnot : (r.1, v) ∉ rows := fun hmem => hr (List.mem_map.2 ⟨_, hmem, rfl⟩)
      have heq : (r.1, v) = r ↔ r.2 = v := by
        rw [Prod.ext_iff]
        exact ⟨fun h => h.2.symm, fun h => ⟨rfl, h.symm⟩⟩
      simp [hnot, hr, heq]
    · have hne : (k, v) ≠ r := fun h => hk (congrArg Prod.fst h)
      simp [hk, hne]

/-- The same keys in the same places, with the same values. -/
theorem eq_of_get {t u : Table κ β} (hkeys : t.rows.map Prod.fst = u.rows.map Prod.fst)
    (hget : ∀ k, t.get k = u.get k) : t = u := by
  apply eq_of_rows
  have hlength : t.rows.length = u.rows.length := by
    simpa only [List.length_map] using congrArg List.length hkeys
  apply List.ext_getElem hlength
  intro i ht hu
  have hkey : t.rows[i].1 = u.rows[i].1 := by
    have hboth : (t.rows.map Prod.fst)[i]? = (u.rows.map Prod.fst)[i]? := by rw [hkeys]
    simpa [ht, hu] using hboth
  have hvalue : t.get t.rows[i].1 = some t.rows[i].2 := get_eq_some_iff.2 (List.getElem_mem ht)
  have hother : u.get u.rows[i].1 = some u.rows[i].2 := get_eq_some_iff.2 (List.getElem_mem hu)
  rw [hget, hkey, hother] at hvalue
  exact Prod.ext hkey (Option.some.inj hvalue).symm

theorem keys_put_of_get_eq_some {t : Table κ β} {k : κ} {w : β} (h : t.get k = some w) (v : β) :
    (t.put k v).rows.map Prod.fst = t.rows.map Prod.fst := by
  have hk : k ∈ t.rows.map Prod.fst := List.mem_map.2 ⟨_, get_eq_some_iff.1 h, rfl⟩
  unfold put
  rw [rows_upsert, if_pos hk, List.map_map]
  rfl

section Puts

variable {ι : Type*} (key : ι → κ) (value : ι → β)

/-- Rows put one after the other: under each key stands its last one. -/
theorem get_foldl_put_last (items : List ι) (t : Table κ β) (k : κ) :
    (items.foldl (fun t a => t.put (key a) (value a)) t).get k =
      ((items.filter fun a => key a = k).getLast?.map value).or (t.get k) := by
  induction items using List.reverseRecOn with
  | nil => rfl
  | append_singleton items a ih =>
    rw [List.foldl_append, List.foldl_cons, List.foldl_nil, get_put, List.filter_append]
    by_cases hk : k = key a
    · subst hk
      simp
    · have hskip : [a].filter (fun a => key a = k) = [] := by simp [Ne.symm hk]
      rw [if_neg hk, hskip, List.append_nil, ih]

theorem keys_foldl_put (items : List ι) (t : Table κ β)
    (h : ∀ a ∈ items, (t.get (key a)).isSome) :
    (items.foldl (fun t a => t.put (key a) (value a)) t).rows.map Prod.fst =
      t.rows.map Prod.fst := by
  induction items generalizing t with
  | nil => rfl
  | cons a items ih =>
    obtain ⟨w, hw⟩ := Option.isSome_iff_exists.1 (h a List.mem_cons_self)
    have hrest : ∀ b ∈ items, ((t.put (key a) (value a)).get (key b)).isSome := by
      intro b hb
      rw [get_put]
      split_ifs with hkey
      · rfl
      · exact h b (List.mem_cons_of_mem _ hb)
    rw [List.foldl_cons, ih _ hrest, keys_put_of_get_eq_some hw]

/-- The rows change nothing exactly when the last one under each key is there already. -/
theorem foldl_put_eq_iff (items : List ι) (t : Table κ β) :
    items.foldl (fun t a => t.put (key a) (value a)) t = t ↔
      ∀ a ∈ items, t.get (key a) = (items.filter fun b => key b = key a).getLast?.map value := by
  have hlast : ∀ a ∈ items, ∃ b,
      (items.filter fun b => key b = key a).getLast? = some b := by
    intro a ha
    have hmem : a ∈ items.filter fun b => key b = key a :=
      List.mem_filter.2 ⟨ha, decide_eq_true rfl⟩
    exact ⟨_, List.getLast?_eq_some_getLast (List.ne_nil_of_mem hmem)⟩
  constructor
  · intro h a ha
    obtain ⟨b, hb⟩ := hlast a ha
    have hget := get_foldl_put_last key value items t (key a)
    rw [h, hb] at hget
    rw [hget, hb]
    rfl
  · intro h
    have hthere : ∀ a ∈ items, (t.get (key a)).isSome := by
      intro a ha
      obtain ⟨b, hb⟩ := hlast a ha
      rw [h a ha, hb]
      rfl
    apply eq_of_get (keys_foldl_put key value items t hthere)
    intro k
    rw [get_foldl_put_last]
    by_cases hk : ∃ a ∈ items, key a = k
    · obtain ⟨a, ha, rfl⟩ := hk
      obtain ⟨b, hb⟩ := hlast a ha
      rw [h a ha, hb]
      rfl
    · have hnone : items.filter (fun a => key a = k) = [] :=
        List.filter_eq_nil_iff.2 fun a ha => by
          simpa using fun hkey => hk ⟨a, ha, hkey⟩
      rw [hnone]
      rfl

end Puts

end Table

end RunnerSwarm
