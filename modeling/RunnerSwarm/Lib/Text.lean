import Mathlib

/-!
# Text with separators

Facts about lists of characters that are joined by a separator or share a prefix, and about lists
that are trimmed at their ends or split at a separator.
-/

namespace RunnerSwarm

variable {α : Type*} {c : α} {a b x y : List α}

/-- A separator that occurs in neither first part is found at the same place. -/
theorem sep_inj (ha : c ∉ a) (hb : c ∉ b) (h : a ++ c :: x = b ++ c :: y) : a = b ∧ x = y := by
  induction a generalizing b with
  | nil =>
    cases b with
    | nil => exact ⟨rfl, (List.cons.inj h).2⟩
    | cons d b => exact absurd ((List.cons.inj h).1 ▸ List.mem_cons_self) hb
  | cons d a ih =>
    cases b with
    | nil => exact absurd ((List.cons.inj h).1 ▸ List.mem_cons_self) ha
    | cons e b =>
      obtain ⟨rfl, htail⟩ := List.cons.inj h
      obtain ⟨rfl, rfl⟩ := ih (fun hd => ha (List.mem_cons_of_mem _ hd))
        (fun hd => hb (List.mem_cons_of_mem _ hd)) htail
      exact ⟨rfl, rfl⟩

/-- A text that ends in a separator begins `a ++ c :: x` only up to the last separator. -/
theorem prefix_sep_iff (hx : c ∉ x) : b ++ [c] <+: a ++ c :: x ↔ b ++ [c] <+: a ++ [c] := by
  induction a generalizing b with
  | nil =>
    cases b with
    | nil => simp
    | cons d b =>
      have hnot : ∀ y, c ∉ y → ¬ b ++ [c] <+: y := fun y hy hpre =>
        hy (hpre.subset (List.mem_append_right b List.mem_cons_self))
      simp [hnot x hx]
  | cons d a ih =>
    cases b with
    | nil => simp
    | cons e b =>
      rw [List.cons_append, List.cons_append, List.cons_append, List.cons_prefix_cons,
        List.cons_prefix_cons, ih]

/-- What stands before a separator stands before the last one. -/
theorem prefix_of_last_sep (hy : c ∉ y) (h : a ++ c :: x = b ++ c :: y) : a <+: b := by
  rcases List.append_eq_append_iff.1 h with ⟨more, rfl, -⟩ | ⟨more, rfl, hmore⟩
  · exact List.prefix_append a more
  · cases more with
    | nil => rw [List.append_nil]
    | cons d more =>
      obtain ⟨-, rfl⟩ := List.cons.inj hmore
      exact absurd (List.mem_append_right more List.mem_cons_self) hy

/-- What stands after a separator stands after the first one. -/
theorem suffix_of_first_sep (hb : c ∉ b) (h : a ++ c :: x = b ++ c :: y) : x <:+ y := by
  rcases List.append_eq_append_iff.1 h with ⟨more, rfl, hmore⟩ | ⟨more, -, hmore⟩
  · cases more with
    | nil => exact (List.cons.inj hmore).2 ▸ List.suffix_rfl
    | cons d more =>
      obtain ⟨rfl, -⟩ := List.cons.inj hmore
      exact absurd (List.mem_append_right a List.mem_cons_self) hb
  · cases more with
    | nil => exact (List.cons.inj hmore).2 ▸ List.suffix_rfl
    | cons d more =>
      obtain ⟨-, rfl⟩ := List.cons.inj hmore
      exact (List.suffix_cons c x).trans (List.suffix_append more _)

/-- The length of a joined list. -/
theorem length_intercalate (sep : List α) (l : List (List α)) :
    (sep.intercalate l).length = (l.map List.length).sum + sep.length * (l.length - 1) := by
  induction l with
  | nil => simp
  | cons part l ih =>
    cases l with
    | nil => simp
    | cons next l =>
      rw [List.intercalate_cons_cons, List.length_append, List.length_append, ih]
      simp only [List.map_cons, List.sum_cons, List.length_cons, Nat.add_sub_cancel,
        Nat.mul_succ]
      omega

/-! ### Trimming -/

/-- `l` without what it begins and ends with of `p`. -/
def trimEnds (p : α → Bool) (l : List α) : List α := (l.dropWhile p).rdropWhile p

/-- The list neither begins nor ends with an element of `p`. -/
def Trimmed (p : α → Bool) (l : List α) : Prop :=
  (∀ a ∈ l.head?, p a = false) ∧ ∀ a ∈ l.getLast?, p a = false

instance (p : α → Bool) (l : List α) : Decidable (Trimmed p l) :=
  inferInstanceAs (Decidable (_ ∧ _))

variable {p q : α → Bool} {l : List α}

theorem rdropWhile_eq_self (h : ∀ a ∈ l.getLast?, p a = false) : l.rdropWhile p = l := by
  refine List.rdropWhile_eq_self_iff.2 fun hl hlast => ?_
  rw [h _ (List.getLast?_eq_some_getLast hl)] at hlast
  cases hlast

theorem trimmed_trimEnds (p : α → Bool) (l : List α) : Trimmed p (trimEnds p l) := by
  refine ⟨fun a ha => ?_, fun a ha => ?_⟩
  · -- What is left begins as the list does after its front is dropped.
    obtain ⟨rest, hrest⟩ : trimEnds p l <+: l.dropWhile p := List.rdropWhile_prefix p _
    obtain ⟨tail, htail⟩ := List.head?_eq_some_iff.1 ha
    have hhead := List.head?_dropWhile_not p l
    rw [← hrest, htail] at hhead
    exact hhead
  · obtain ⟨hne, rfl⟩ := List.mem_getLast?_eq_getLast ha
    exact Bool.eq_false_iff.2 (List.rdropWhile_last_not p _ hne)

theorem trimEnds_eq_self_iff : trimEnds p l = l ↔ Trimmed p l := by
  refine ⟨fun h => h ▸ trimmed_trimEnds p l, fun h => ?_⟩
  have hfront : l.dropWhile p = l := by
    cases l with
    | nil => rfl
    | cons a l => exact List.dropWhile_cons_of_neg (Bool.eq_false_iff.1 (h.1 a rfl))
  unfold trimEnds
  rw [hfront]
  exact rdropWhile_eq_self h.2

/-- A list is shortened at its end up to an element that stays. -/
theorem rdropWhile_append_cons (hc : p c = false) :
    (a ++ c :: b).rdropWhile p = a ++ c :: b.rdropWhile p := by
  induction b using List.reverseRecOn with
  | nil =>
    rw [List.rdropWhile_nil, List.rdropWhile_concat_neg _ _ _ (Bool.eq_false_iff.1 hc)]
  | append_singleton b d ih =>
    rw [← List.cons_append, ← List.append_assoc]
    by_cases hd : p d = true
    · rw [List.rdropWhile_concat_pos _ _ _ hd, ih, List.rdropWhile_concat_pos _ _ _ hd]
    · rw [List.rdropWhile_concat_neg _ _ _ hd, List.rdropWhile_concat_neg _ _ _ hd,
        List.append_assoc, List.cons_append]

/-- A list that is trimmed and shortened at its end is as long as before only if neither does
anything. -/
theorem rdropWhile_trimEnds_eq_self_iff :
    (trimEnds p l).rdropWhile q = l ↔ trimEnds p l = l ∧ l.rdropWhile q = l := by
  refine ⟨fun h => ?_, fun ⟨htrim, hend⟩ => by rw [htrim, hend]⟩
  have hsub : trimEnds p l <:+: l :=
    (List.rdropWhile_prefix p _).isInfix.trans (List.dropWhile_suffix p).isInfix
  have hlong : l.length ≤ (trimEnds p l).length :=
    (congrArg List.length h).symm.le.trans (List.rdropWhile_prefix q _).length_le
  have htrim : trimEnds p l = l := hsub.eq_of_length (hsub.length_le.antisymm hlong)
  rw [htrim] at h
  exact ⟨htrim, h⟩

/-- What is trimmed off. -/
theorem exists_trimEnds (p : α → Bool) (l : List α) : ∃ before after,
    l = before ++ trimEnds p l ++ after ∧ (∀ d ∈ before, p d = true) ∧ ∀ d ∈ after, p d = true := by
  refine ⟨l.takeWhile p, (l.dropWhile p).rtakeWhile p, ?_, fun d hd => ?_, fun d hd => ?_⟩
  · unfold trimEnds
    rw [List.append_assoc, List.rdropWhile_append_rtakeWhile, List.takeWhile_append_dropWhile]
  · exact List.mem_takeWhile_imp hd
  · exact List.mem_rtakeWhile_imp hd

/-- To trim a list is to delete one of the elements that are trimmed, when that element does not
stand inside and its deletion leaves a trimmed list. -/
theorem trimEnds_eq_filter_iff [DecidableEq α] :
    trimEnds p l = l.filter (· ≠ c) ↔ c ∉ trimEnds p l ∧ Trimmed p (l.filter (· ≠ c)) := by
  constructor
  · intro h
    have htrimmed := trimmed_trimEnds p l
    rw [h] at htrimmed ⊢
    exact ⟨fun hmem => of_decide_eq_true (List.mem_filter.1 hmem).2 rfl, htrimmed⟩
  · rintro ⟨hinside, htrimmed⟩
    obtain ⟨before, after, hl, hbefore, hafter⟩ := exists_trimEnds p l
    have hkept : (trimEnds p l).filter (· ≠ c) = trimEnds p l :=
      List.filter_eq_self.2 fun d hd => decide_eq_true fun heq => hinside (heq ▸ hd)
    have hfilter : l.filter (· ≠ c) =
        before.filter (· ≠ c) ++ trimEnds p l ++ after.filter (· ≠ c) := by
      conv_lhs => rw [hl]
      rw [List.filter_append, List.filter_append, hkept]
    rw [hfilter] at htrimmed ⊢
    -- what is left of either end would be at the end of a trimmed list
    have hnone : before.filter (· ≠ c) = [] := by
      cases hrest : before.filter (· ≠ c) with
      | nil => rfl
      | cons d rest =>
        have hd : d ∈ before := (List.mem_filter.1 (hrest ▸ List.mem_cons_self)).1
        rw [hrest] at htrimmed
        exact absurd ((hbefore d hd).symm.trans (htrimmed.1 d rfl)) (by decide)
    have hnone' : after.filter (· ≠ c) = [] := by
      rcases List.eq_nil_or_concat (after.filter (· ≠ c)) with hrest | ⟨rest, d, hrest⟩
      · exact hrest
      · rw [List.concat_eq_append] at hrest
        have hmem : d ∈ after.filter (· ≠ c) := hrest ▸ List.mem_concat_self
        have hd : d ∈ after := (List.mem_filter.1 hmem).1
        rw [hrest, ← List.append_assoc] at htrimmed
        have hlast := htrimmed.2 d List.getLast?_concat
        exact absurd ((hafter d hd).symm.trans hlast) (by decide)
    rw [hnone, hnone', List.nil_append, List.append_nil]

/-! ### Splitting -/

section Splitting

variable [DecidableEq α]

/-- What is not a separator may be deleted before a list is split, or after. -/
theorem splitOn_filter (hc : p c = true) (l : List α) :
    (l.filter p).splitOn c = (l.splitOn c).map (List.filter p) := by
  induction l with
  | nil => rfl
  | cons d l ih =>
    obtain ⟨part, parts, hparts⟩ := List.exists_cons_of_ne_nil (List.splitOn_ne_nil c l)
    rw [hparts, List.map_cons] at ih
    rw [List.splitOn_cons_eq_if_modifyHead, hparts]
    by_cases hd : d = c
    · subst hd
      rw [List.filter_cons_of_pos hc, List.splitOn_cons_eq_if_modifyHead,
        if_pos (beq_self_eq_true d), if_pos (beq_self_eq_true d), ih]
      rfl
    · have hother : ¬ (d == c) = true := fun h => hd (beq_iff_eq.1 h)
      rw [if_neg hother, List.modifyHead_cons, List.map_cons]
      by_cases hp : p d = true
      · rw [List.filter_cons_of_pos hp, List.filter_cons_of_pos hp,
          List.splitOn_cons_eq_if_modifyHead, if_neg hother, ih, List.modifyHead_cons]
      · rw [List.filter_cons_of_neg hp, List.filter_cons_of_neg hp, ih]

/-- No part contains the separator. -/
theorem not_mem_of_mem_splitOn {part : List α} (h : part ∈ l.splitOn c) : c ∉ part := by
  induction l generalizing part with
  | nil =>
    obtain rfl := List.mem_singleton.1 h
    exact List.not_mem_nil
  | cons d l ih =>
    obtain ⟨first, parts, hparts⟩ := List.exists_cons_of_ne_nil (List.splitOn_ne_nil c l)
    rw [List.splitOn_cons_eq_if_modifyHead] at h
    split_ifs at h with hd
    · rcases List.mem_cons.1 h with rfl | h
      · exact List.not_mem_nil
      · exact ih h
    · rw [hparts, List.modifyHead_cons] at h
      rw [hparts] at ih
      rcases List.mem_cons.1 h with rfl | h
      · refine List.not_mem_cons_of_ne_of_not_mem (fun heq => hd ?_) (ih List.mem_cons_self)
        rw [heq]
        exact beq_self_eq_true d
      · exact ih (List.mem_cons_of_mem _ h)

omit [DecidableEq α] in
/-- Each part stands in what they are joined to. -/
theorem infix_intercalate {sep part : List α} {parts : List (List α)} (h : part ∈ parts) :
    part <:+: sep.intercalate parts := by
  induction parts with
  | nil => cases h
  | cons first parts ih =>
    cases parts with
    | nil =>
      obtain rfl := List.mem_singleton.1 h
      rw [List.intercalate_singleton]
    | cons next parts =>
      rw [List.intercalate_cons_cons]
      rcases List.mem_cons.1 h with rfl | h
      · rw [List.append_assoc]
        exact (List.prefix_append _ _).isInfix
      · exact (ih h).trans (List.suffix_append _ _).isInfix

theorem infix_of_mem_splitOn {part : List α} (h : part ∈ l.splitOn c) : part <:+: l := by
  have hl : [c].intercalate (l.splitOn c) = l := List.intercalate_splitOn c
  have hpart : part <:+: [c].intercalate (l.splitOn c) := infix_intercalate h
  rwa [hl] at hpart

/-- What is joined with a separator is split part by part. -/
theorem splitOn_intercalate_eq_flatMap {parts : List (List α)} (h : parts ≠ []) :
    ([c].intercalate parts).splitOn c = parts.flatMap (List.splitOn c) := by
  induction parts with
  | nil => exact absurd rfl h
  | cons part parts ih =>
    cases parts with
    | nil => simp
    | cons next parts =>
      rw [List.intercalate_cons_cons, List.append_assoc, List.singleton_append,
        List.splitOn_append_cons_self, ih (List.cons_ne_nil _ _)]
      rfl

/-- Lines that end with a separator, and a last one that does not. -/
theorem splitOn_lines {lines : List (List α)} (h : ∀ line ∈ lines, c ∉ line) (ha : c ∉ a) :
    ((lines.flatMap fun line => line ++ [c]) ++ a).splitOn c = lines ++ [a] := by
  induction lines with
  | nil => exact List.splitOn_eq_singleton ha
  | cons line lines ih =>
    obtain ⟨hline, hlines⟩ := List.forall_mem_cons.1 h
    rw [List.flatMap_cons, List.append_assoc, List.append_assoc, List.singleton_append,
      List.splitOn_append_cons_self_of_not_mem hline, ih hlines, List.cons_append]

/-- The parts of a text of lines are the parts of its lines, and an empty one at the end. -/
theorem splitOn_flatMap_end (lines : List (List α)) :
    (lines.flatMap fun line => line ++ [c]).splitOn c = lines.flatMap (List.splitOn c) ++ [[]] := by
  induction lines with
  | nil => exact List.splitOn_eq_singleton List.not_mem_nil
  | cons line lines ih =>
    rw [List.flatMap_cons, List.append_assoc, List.singleton_append,
      List.splitOn_append_cons_self, ih, List.flatMap_cons, List.append_assoc]

/-- A text without the separator is put before the first part. -/
theorem splitOn_append_of_not_mem {first : List α} {parts : List (List α)} (ha : c ∉ a)
    (h : l.splitOn c = first :: parts) : (a ++ l).splitOn c = (a ++ first) :: parts := by
  induction a with
  | nil => exact h
  | cons d a ih =>
    have hd : ¬ (d == c) = true := fun heq => ha (beq_iff_eq.1 heq ▸ List.mem_cons_self)
    rw [List.cons_append, List.splitOn_cons_eq_if_modifyHead, if_neg hd,
      ih fun hmem => ha (List.mem_cons_of_mem _ hmem), List.modifyHead_cons, List.cons_append]

/-- A text and its first part begin alike, up to the separator. -/
theorem prefix_splitOn_iff {first : List α} {parts : List (List α)} (ha : c ∉ a)
    (h : l.splitOn c = first :: parts) : a <+: first ↔ a <+: l := by
  have hl : [c].intercalate (l.splitOn c) = l := List.intercalate_splitOn c
  rw [h] at hl
  cases parts with
  | nil => rw [← hl, List.intercalate_singleton]
  | cons next parts =>
    rw [List.intercalate_cons_cons, List.append_assoc, List.singleton_append] at hl
    rw [← hl]
    generalize [c].intercalate (next :: parts) = rest
    refine ⟨fun hpre => hpre.trans (List.prefix_append _ _), fun hpre => ?_⟩
    rcases List.prefix_or_prefix_of_prefix hpre (List.prefix_append first (c :: rest)) with
      hfirst | ⟨t, rfl⟩
    · exact hfirst
    · cases t with
      | nil => rw [List.append_nil]
      | cons d t =>
        -- the longer text would contain the separator
        obtain ⟨rfl, -⟩ := List.cons_prefix_cons.1 ((List.prefix_append_right_inj first).1 hpre)
        exact absurd (List.mem_append_right _ List.mem_cons_self) ha

end Splitting

end RunnerSwarm
