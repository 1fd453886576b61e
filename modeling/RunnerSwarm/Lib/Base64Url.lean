import Mathlib.Tactic.NormNum
import Mathlib.Data.List.Basic

/-!
# Base64 for URLs

Three bytes are written as four digits of six bits, without padding. The reader skips what is no
digit, and takes the digits of plain Base64 as well.

* `decode_encode`: bytes are read back;
* `encode_ne_nil` and `mem_encode`: a text is empty only for no bytes, and consists of digits.
-/

namespace RunnerSwarm

namespace Base64Url

/-! ### Digits -/

def alphabet : List Char :=
  "ABCDEFGHIJKLMNOPQRSTUVWXYZabcdefghijklmnopqrstuvwxyz0123456789-_".toList

/-- The digit for six bits. -/
def digit (n : ℕ) : Char := alphabet.getD n 'A'

/-- The six bits of a digit, of either alphabet. -/
def value (c : Char) : Option ℕ :=
  if c = '+' then some 62
  else if c = '/' then some 63
  else alphabet.idxOf? c

theorem value_digit : ∀ n < 64, value (digit n) = some n := by decide +kernel

theorem digit_mem : ∀ n < 64, digit n ∈ alphabet := by decide

/-! ### Bytes -/

/-- The digits of bytes. -/
def encode : List ℕ → List Char
  | a :: b :: c :: bytes =>
      digit (a / 4) :: digit (a % 4 * 16 + b / 16) :: digit (b % 16 * 4 + c / 64) ::
        digit (c % 64) :: encode bytes
  | [a, b] => [digit (a / 4), digit (a % 4 * 16 + b / 16), digit (b % 16 * 4)]
  | [a] => [digit (a / 4), digit (a % 4 * 16)]
  | [] => []

/-- The bytes of digits. A last digit of its own is no byte. -/
def bytesOf : List ℕ → List ℕ
  | w :: x :: y :: z :: digits =>
      (w * 4 + x / 16) :: (x % 16 * 16 + y / 4) :: (y % 4 * 64 + z) :: bytesOf digits
  | [w, x, y] => [w * 4 + x / 16, x % 16 * 16 + y / 4]
  | [w, x] => [w * 4 + x / 16]
  | _ => []

def decode (text : List Char) : List ℕ := bytesOf (text.filterMap value)

section Bytes

variable {bytes : List ℕ} (h : ∀ b ∈ bytes, b < 256)

include h

/-- **Bytes are read back.** -/
theorem decode_encode : decode (encode bytes) = bytes := by
  unfold decode
  fun_induction encode bytes with
  | case1 a b c bytes ih =>
    simp only [List.forall_mem_cons] at h
    obtain ⟨ha, hb, hc, hbytes⟩ := h
    simp only [List.filterMap_cons, value_digit (a / 4) (by omega),
      value_digit (a % 4 * 16 + b / 16) (by omega), value_digit (b % 16 * 4 + c / 64) (by omega),
      value_digit (c % 64) (by omega), bytesOf, ih hbytes]
    refine congrArg₂ List.cons ?_ (congrArg₂ List.cons ?_ (congrArg₂ List.cons ?_ rfl))
    · omega
    · omega
    · omega
  | case2 a b =>
    simp only [List.forall_mem_cons] at h
    obtain ⟨ha, hb, -⟩ := h
    simp only [List.filterMap_cons, List.filterMap_nil, value_digit (a / 4) (by omega),
      value_digit (a % 4 * 16 + b / 16) (by omega), value_digit (b % 16 * 4) (by omega), bytesOf]
    refine congrArg₂ List.cons ?_ (congrArg₂ List.cons ?_ rfl)
    · omega
    · omega
  | case3 a =>
    simp only [List.forall_mem_cons] at h
    obtain ⟨ha, -⟩ := h
    simp only [List.filterMap_cons, List.filterMap_nil, value_digit (a / 4) (by omega),
      value_digit (a % 4 * 16) (by omega), bytesOf]
    refine congrArg₂ List.cons ?_ rfl
    omega
  | case4 => rfl

/-- A text consists of digits. -/
theorem mem_encode {c : Char} (hc : c ∈ encode bytes) : c ∈ alphabet := by
  fun_induction encode bytes with
  | case1 a b d bytes ih =>
    simp only [List.forall_mem_cons] at h
    obtain ⟨ha, hb, hd, hbytes⟩ := h
    simp only [List.mem_cons] at hc
    rcases hc with rfl | rfl | rfl | rfl | hc
    · exact digit_mem _ (by omega)
    · exact digit_mem _ (by omega)
    · exact digit_mem _ (by omega)
    · exact digit_mem _ (by omega)
    · exact ih hbytes hc
  | case2 a b =>
    simp only [List.forall_mem_cons] at h
    obtain ⟨ha, hb, -⟩ := h
    simp only [List.mem_cons, List.not_mem_nil, or_false] at hc
    rcases hc with rfl | rfl | rfl
    · exact digit_mem _ (by omega)
    · exact digit_mem _ (by omega)
    · exact digit_mem _ (by omega)
  | case3 a =>
    simp only [List.forall_mem_cons] at h
    obtain ⟨ha, -⟩ := h
    simp only [List.mem_cons, List.not_mem_nil, or_false] at hc
    rcases hc with rfl | rfl
    · exact digit_mem _ (by omega)
    · exact digit_mem _ (by omega)
  | case4 => cases hc

end Bytes

theorem encode_ne_nil {bytes : List ℕ} (h : bytes ≠ []) : encode bytes ≠ [] := by
  fun_cases encode bytes with
  | case4 => exact absurd rfl h
  | _ => exact List.cons_ne_nil _ _

end Base64Url

end RunnerSwarm
