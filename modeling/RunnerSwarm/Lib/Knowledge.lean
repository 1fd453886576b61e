import Mathlib.Tactic

/-!
# What an observer knows

An observer starts with some values and sees texts. It knows what it was given and every part of a
text it has seen. `Hidden` says that a value is part of none of them; `Known.ne_of_hidden` is the rule
that secrecy proofs use, and `Hidden.append` its step.
-/

namespace RunnerSwarm

variable {α : Type*}

/-- What an observer that was given `given` can say after having seen `seen`. -/
def Known (given seen : List (List α)) (value : List α) : Prop :=
  value ∈ given ∨ ∃ text ∈ seen, value <:+: text

instance [DecidableEq α] (given seen : List (List α)) (value : List α) :
    Decidable (Known given seen value) :=
  inferInstanceAs (Decidable (value ∈ given ∨ ∃ text ∈ seen, value <:+: text))

/-- The value is part of no text. -/
def Hidden (secret : List α) (seen : List (List α)) : Prop := ∀ text ∈ seen, ¬ secret <:+: text

instance [DecidableEq α] (secret : List α) (seen : List (List α)) : Decidable (Hidden secret seen) :=
  inferInstanceAs (Decidable (∀ text ∈ seen, ¬ secret <:+: text))

variable {given seen more : List (List α)} {secret value : List α}

@[simp] theorem hidden_nil : Hidden secret [] := fun _ h => absurd h List.not_mem_nil

theorem Hidden.append (h : Hidden secret seen) (h' : Hidden secret more) :
    Hidden secret (seen ++ more) := by
  intro text htext
  rcases List.mem_append.1 htext with hmem | hmem
  · exact h text hmem
  · exact h' text hmem

/-- **A hidden value is not known** to an observer that was not given it. -/
theorem Known.ne_of_hidden (h : Known given seen value) (hgiven : secret ∉ given)
    (hseen : Hidden secret seen) : value ≠ secret := by
  rintro rfl
  rcases h with hmem | ⟨text, htext, hpart⟩
  · exact hgiven hmem
  · exact hseen text htext hpart

/-- Every text that was seen is known. -/
theorem known_of_mem (h : value ∈ seen) : Known given seen value :=
  .inr ⟨value, h, List.infix_rfl⟩

end RunnerSwarm
