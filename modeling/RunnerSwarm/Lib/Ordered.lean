import Mathlib.Data.List.MinMax
import Mathlib.Data.List.Sort

/-!
# Lists in order, the first of the largest and the first of each key

Sorting forgets the order of a list whose elements the relation tells apart: `insertionSort_perm`,
and `insertionSort_filter` for a list that loses elements.

`List.argmax f l` is the first element of `l` at which `f` is largest. A list that loses other
elements keeps it (`argmax_filter`), functions that agree on the list have the same one
(`argmax_congr`), and `argmax_eq_some_iff_append` says where in the list it stands.

`firstSeen key seen l` is what a loop takes from `l` that skips the keys it has seen. It takes each
new key once: `mem_keys_firstSeen` and `firstSeen_nodup`.
-/

namespace RunnerSwarm

section Sorted

variable {α : Type*} {r : α → α → Prop} [DecidableRel r] [Std.Total r] [IsTrans α r]
  {l l' : List α}

/-- **A sorted list does not remember** how it was listed before. -/
theorem insertionSort_perm (hanti : ∀ a ∈ l, ∀ b ∈ l, r a b → r b a → a = b) (h : l.Perm l') :
    l.insertionSort r = l'.insertionSort r := by
  have hperm : (l.insertionSort r).Perm (l'.insertionSort r) :=
    (List.perm_insertionSort r l).trans (h.trans (List.perm_insertionSort r l').symm)
  refine List.Perm.eq_of_pairwise (fun a b ha hb => hanti a ?_ b ?_)
    (List.pairwise_insertionSort r l) (List.pairwise_insertionSort r l') hperm
  · exact (List.perm_insertionSort r l).subset ha
  · exact (List.perm_insertionSort r l).subset (hperm.symm.subset hb)

theorem insertionSort_filter (hanti : ∀ a ∈ l, ∀ b ∈ l, r a b → r b a → a = b) (p : α → Bool) :
    (l.filter p).insertionSort r = (l.insertionSort r).filter p := by
  have hperm : ((l.filter p).insertionSort r).Perm ((l.insertionSort r).filter p) :=
    (List.perm_insertionSort r _).trans ((List.perm_insertionSort r l).symm.filter p)
  have hmem : ∀ a ∈ (l.insertionSort r).filter p, a ∈ l := fun a ha =>
    (List.perm_insertionSort r l).subset (List.mem_filter.1 ha).1
  exact List.Perm.eq_of_pairwise
    (fun a b ha hb => hanti a (hmem a (hperm.subset ha)) b (hmem b hb))
    (List.pairwise_insertionSort r _) ((List.pairwise_insertionSort r l).filter p) hperm

end Sorted

variable {α β : Type*} [LinearOrder β] {f g : α → β} {l : List α} {m : α}

theorem argmax_congr (h : ∀ a ∈ l, f a = g a) : l.argmax f = l.argmax g := by
  induction l with
  | nil => rfl
  | cons a l ih =>
    have hl : l.argmax f = l.argmax g := ih fun b hb => h b (List.mem_cons_of_mem a hb)
    rw [List.argmax_cons, List.argmax_cons, hl]
    cases hmax : l.argmax g with
    | none => rfl
    | some b =>
      have hb : b ∈ l := List.argmax_mem hmax
      simp only [h a List.mem_cons_self, h b (List.mem_cons_of_mem a hb)]

/-- **The first of the largest stays so** when elements other than it are dropped. -/
theorem argmax_filter {p : α → Bool} (hm : l.argmax f = some m) (hp : p m = true) :
    (l.filter p).argmax f = some m := by
  induction l with
  | nil => cases hm
  | cons a l ih =>
    rw [List.argmax_cons] at hm
    cases hmax : l.argmax f with
    | none =>
      -- `a` is the only element.
      obtain rfl := List.argmax_eq_none.1 hmax
      cases hm
      rw [List.filter_cons_of_pos hp]
      exact List.argmax_singleton
    | some b =>
      rw [hmax] at hm
      dsimp only at hm
      by_cases hlt : f a < f b
      · rw [if_pos hlt, Option.some_inj] at hm
        subst hm
        have htail := ih hmax
        by_cases ha : p a = true
        · rw [List.filter_cons_of_pos ha, List.argmax_cons, htail]
          exact if_pos hlt
        · rwa [List.filter_cons_of_neg ha]
      · rw [if_neg hlt, Option.some_inj] at hm
        subst hm
        rw [List.filter_cons_of_pos hp, List.argmax_cons]
        cases htail : (l.filter p).argmax f with
        | none => rfl
        | some c =>
          have hc : c ∈ l := (List.mem_filter.1 (List.argmax_mem htail)).1
          have hle : f c ≤ f b := List.le_of_mem_argmax hc hmax
          exact if_neg fun hac => hlt (hac.trans_le hle)

/-- **Where the first of the largest stands**: before it everything is smaller, and after it nothing
is larger. -/
theorem argmax_eq_some_iff_append : l.argmax f = some m ↔
    ∃ before after, l = before ++ m :: after ∧ (∀ a ∈ before, f a < f m) ∧
      ∀ a ∈ after, f a ≤ f m := by
  constructor
  · intro h
    induction l with
    | nil => cases h
    | cons a l ih =>
      rw [List.argmax_cons] at h
      cases hmax : l.argmax f with
      | none =>
        obtain rfl := List.argmax_eq_none.1 hmax
        cases h
        exact ⟨[], [], rfl, by simp, by simp⟩
      | some c =>
        rw [hmax] at h
        dsimp only at h
        split_ifs at h with hlt
        · cases h
          obtain ⟨before, after, rfl, hbefore, hafter⟩ := ih hmax
          exact ⟨a :: before, after, rfl, by simpa using ⟨hlt, hbefore⟩, hafter⟩
        · cases h
          exact ⟨[], l, rfl, by simp, fun b hb =>
            (List.le_of_mem_argmax hb hmax).trans (not_lt.1 hlt)⟩
  · rintro ⟨before, after, rfl, hbefore, hafter⟩
    induction before with
    | nil =>
      rw [List.nil_append, List.argmax_cons]
      cases hmax : after.argmax f with
      | none => rfl
      | some c => exact if_neg (not_lt.2 (hafter c (List.argmax_mem hmax)))
    | cons a before ih =>
      rw [List.cons_append, List.argmax_cons,
        ih fun b hb => hbefore b (List.mem_cons_of_mem a hb)]
      exact if_pos (hbefore a List.mem_cons_self)

section FirstSeen

variable {α κ : Type*} [DecidableEq κ] {key : α → κ} {seen : List κ} {l l' : List α}

/-- The elements of a list with keys that were not seen before them. -/
def firstSeen (key : α → κ) : List κ → List α → List α
  | _, [] => []
  | seen, a :: l =>
      if key a ∈ seen then firstSeen key seen l else a :: firstSeen key (key a :: seen) l

/-- The keys seen after the list. -/
def seenAfter (key : α → κ) (seen : List κ) (l : List α) : List κ :=
  ((firstSeen key seen l).map key).reverse ++ seen

/-- **Each new key is taken.** -/
theorem mem_keys_firstSeen {k : κ} :
    k ∈ (firstSeen key seen l).map key ↔ k ∉ seen ∧ k ∈ l.map key := by
  induction l generalizing seen with
  | nil => simp [firstSeen]
  | cons a l ih =>
    unfold firstSeen
    split_ifs with ha
    · rw [ih, List.map_cons, List.mem_cons]
      constructor
      · exact fun h => ⟨h.1, Or.inr h.2⟩
      · rintro ⟨hk, rfl | hl⟩
        · exact absurd ha hk
        · exact ⟨hk, hl⟩
    · rw [List.map_cons, List.mem_cons, ih, List.map_cons, List.mem_cons, List.mem_cons]
      by_cases hk : k = key a
      · subst hk
        simp [ha]
      · simp [hk]

theorem firstSeen_sublist : (firstSeen key seen l).Sublist l := by
  induction l generalizing seen with
  | nil => exact .refl _
  | cons a l ih =>
    unfold firstSeen
    split_ifs
    · exact .cons a ih
    · exact .cons_cons a ih

/-- **No key is taken twice.** -/
theorem firstSeen_nodup : ((firstSeen key seen l).map key).Nodup := by
  induction l generalizing seen with
  | nil => exact List.nodup_nil
  | cons a l ih =>
    unfold firstSeen
    split_ifs
    · exact ih
    · rw [List.map_cons, List.nodup_cons]
      exact ⟨fun hmem => (mem_keys_firstSeen.1 hmem).1 List.mem_cons_self, ih⟩

theorem firstSeen_append : firstSeen key seen (l ++ l') =
    firstSeen key seen l ++ firstSeen key (seenAfter key seen l) l' := by
  induction l generalizing seen with
  | nil => rfl
  | cons a l ih =>
    unfold seenAfter
    rw [List.cons_append, firstSeen, firstSeen]
    split_ifs with ha
    · exact ih
    · rw [ih, List.cons_append, seenAfter]
      simp

end FirstSeen

end RunnerSwarm
