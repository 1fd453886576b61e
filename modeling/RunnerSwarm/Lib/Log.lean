import Mathlib.Tactic

/-!
# The last write in a log

A log is a list of events, oldest first. For one register, `w : ε → Option (Option β)` says what
an event does to it: nothing (`none`), erase it (`some none`) or write a value. `lastWrite w l` is
the register after the log.

* `lastWrite_eq_some`: a value that is still there was written, and not touched since;
* `erased_between`: a value that is gone was erased.

`EachEvent P` says that every event satisfied `P` against the log before it.
-/

namespace RunnerSwarm

variable {ε β : Type*}

/-- The register after the events of `l`. -/
def lastWrite (w : ε → Option (Option β)) (l : List ε) : Option β :=
  l.foldl (fun r e => (w e).getD r) none

variable {w : ε → Option (Option β)} {l m : List ε} {e : ε} {b : β}

@[simp] theorem lastWrite_nil : lastWrite w [] = none := rfl

theorem lastWrite_concat : lastWrite w (l ++ [e]) = (w e).getD (lastWrite w l) := by
  unfold lastWrite
  rw [List.foldl_append]
  rfl

theorem lastWrite_eq_some (h : lastWrite w l = some b) :
    ∃ pre e post, l = pre ++ e :: post ∧ w e = some (some b) ∧ ∀ x ∈ post, w x = none := by
  induction l using List.reverseRecOn with
  | nil => cases h
  | append_singleton l e ih =>
    rw [lastWrite_concat] at h
    cases he : w e with
    | none =>
      rw [he] at h
      obtain ⟨pre, e', post, rfl, hw, hpost⟩ := ih h
      refine ⟨pre, e', post ++ [e], by simp, hw, fun x hx => ?_⟩
      rcases List.mem_append.1 hx with hx | hx
      · exact hpost x hx
      · rw [List.mem_singleton.1 hx, he]
    | some r =>
      rw [he] at h
      exact ⟨l, e, [], rfl, by rw [he]; exact congrArg some h, fun x hx => by cases hx⟩

/-- After a write, an empty register has been erased. -/
theorem erased_between {pre post : List ε} (hw : w e = some (some b))
    (h : lastWrite w (pre ++ e :: post) = none) : ∃ x ∈ post, w x = some none := by
  induction post using List.reverseRecOn with
  | nil =>
    rw [lastWrite_concat, hw] at h
    cases h
  | append_singleton post x ih =>
    rw [← List.cons_append, ← List.append_assoc, lastWrite_concat] at h
    cases hx : w x with
    | none =>
      rw [hx] at h
      obtain ⟨y, hy, hyw⟩ := ih h
      exact ⟨y, by simp [hy], hyw⟩
    | some r =>
      rw [hx] at h
      obtain rfl : r = none := h
      exact ⟨x, by simp, hx⟩

/-- Every event of the log was in order when it happened. -/
def EachEvent (P : List ε → ε → Prop) (l : List ε) : Prop :=
  ∀ pre e post, l = pre ++ e :: post → P pre e

variable {P : List ε → ε → Prop}

theorem eachEvent_nil : EachEvent P [] := by
  intro pre e post h
  simp at h

theorem EachEvent.concat (h : EachEvent P l) (he : P l e) : EachEvent P (l ++ [e]) := by
  intro pre x post hl
  rcases List.eq_nil_or_concat post with rfl | ⟨post', y, rfl⟩
  · obtain ⟨rfl, hx⟩ := List.append_inj' hl rfl
    obtain rfl := List.singleton_injective hx
    exact he
  · rw [List.concat_eq_append, ← List.cons_append, ← List.append_assoc] at hl
    exact h pre x post' (List.append_inj' hl rfl).1

theorem EachEvent.append (h : EachEvent P l)
    (hm : ∀ pre e post, m = pre ++ e :: post → P (l ++ pre) e) : EachEvent P (l ++ m) := by
  induction m using List.reverseRecOn with
  | nil =>
    rw [List.append_nil]
    exact h
  | append_singleton m e ih =>
    rw [← List.append_assoc]
    apply EachEvent.concat
    · apply ih
      rintro pre x post rfl
      exact hm pre x (post ++ [e]) (by simp)
    · exact hm m e [] rfl

theorem EachEvent.mono {Q : List ε → ε → Prop} (h : EachEvent P l)
    (himp : ∀ pre e, P pre e → Q pre e) : EachEvent Q l :=
  fun pre e post hl => himp pre e (h pre e post hl)

theorem eachEvent_iff_getElem : EachEvent P l ↔ ∀ n : Fin l.length, P (l.take n) l[n] := by
  constructor
  · intro h n
    apply h (l.take n) l[n] (l.drop (n + 1))
    simp
  · rintro h pre e post rfl
    have hn : pre.length < (pre ++ e :: post).length := by simp
    simpa using h ⟨pre.length, hn⟩

instance [∀ pre e, Decidable (P pre e)] : Decidable (EachEvent P l) :=
  decidable_of_iff' _ eachEvent_iff_getElem

end RunnerSwarm
