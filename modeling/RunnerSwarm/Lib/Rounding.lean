import Mathlib.Tactic

/-!
# Rounded arithmetic

A `Rounding` is what an operation on floats does to the exact result. Nothing is used of it but that
it is monotone and keeps the natural numbers a float can hold.
-/

namespace RunnerSwarm

/-- The rounding of an operation's exact result to a float. -/
structure Rounding where
  round : ℚ → ℚ
  mono : Monotone round
  round_nat : ∀ n : ℕ, n ≤ 2 ^ 53 → round n = n

namespace Rounding

/-- Arithmetic that is not rounded. -/
def exact : Rounding := ⟨id, monotone_id, fun _ _ => rfl⟩

variable (ρ : Rounding) {q : ℚ} {n : ℕ}

theorem round_nonneg (h : 0 ≤ q) : 0 ≤ ρ.round q := by
  have hzero := ρ.round_nat 0 (Nat.zero_le _)
  rw [Nat.cast_zero] at hzero
  exact hzero ▸ ρ.mono h

theorem round_le_nat (hn : n ≤ 2 ^ 53) (h : q ≤ n) : ρ.round q ≤ n :=
  ρ.round_nat n hn ▸ ρ.mono h

end Rounding

end RunnerSwarm
