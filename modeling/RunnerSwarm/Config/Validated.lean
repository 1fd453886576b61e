import RunnerSwarm.Config.Pool
import RunnerSwarm.Lib.Loop

/-!
# Validated pools

What is known of a pool that `validationErrors` accepts, check by check.
-/

namespace RunnerSwarm

theorem errorIf_eq_nil {failed : Bool} {message : String} :
    errorIf failed message = [] ↔ failed = false := by
  cases failed <;> simp [errorIf]

theorem poolErrors_nil_instance {p : PoolConfig} (h : poolErrors p = .ok []) :
    p.instance = "" ∨ isLowerAlnum p.instance = true := by
  obtain ⟨bad, -, h⟩ := bind_eq_ok h
  have hnil := Except.ok.inj h
  simp only [List.append_eq_nil_iff] at hnil
  have hinstance := errorIf_eq_nil.1 hnil.1.1.1.1.1.1.1.1.2
  by_cases hempty : p.instance = ""
  · exact .inl hempty
  · exact .inr (by simpa [hempty] using hinstance)

theorem validationErrors_nil {pools : List PoolConfig} (h : validationErrors pools = .ok []) :
    ∀ p ∈ pools, poolErrors p = .ok [] := by
  obtain ⟨errors, herrors, hok⟩ := bind_eq_ok h
  have hflat := Except.ok.inj hok
  clear h hok
  induction pools generalizing errors with
  | nil => exact fun p hp => absurd hp List.not_mem_nil
  | cons q pools ih =>
    rw [List.mapM_cons] at herrors
    obtain ⟨first, hfirst, herrors⟩ := bind_eq_ok herrors
    obtain ⟨rest, hrest, herrors⟩ := bind_eq_ok herrors
    cases herrors
    rw [List.flatten_cons, List.append_eq_nil_iff] at hflat
    rw [hflat.1] at hfirst
    exact List.forall_mem_cons.2 ⟨hfirst, ih rest hrest hflat.2⟩

/-- What a validated pool has for its forge. -/
structure PoolConfig.HasForge (p : PoolConfig) : Prop where
  pat : p.pat ≠ ""
  owner : p.owner ≠ ""
  provider : p.provider = "github" ∨ p.provider = "gitea"
  baseUrl : p.isGitea = true → p.baseUrl ≠ ""

theorem hasForge_of_poolErrors {p : PoolConfig} (h : poolErrors p = .ok []) : p.HasForge := by
  obtain ⟨bad, -, h⟩ := bind_eq_ok h
  have hnil := Except.ok.inj h
  simp only [List.append_eq_nil_iff, errorIf_eq_nil] at hnil
  -- the first five checks
  obtain ⟨⟨⟨⟨hpat, howner⟩, hprovider⟩, hgitea⟩, -⟩ := hnil.1.1.1.1.1.1.1.1.1.1.1.1.1.1.1
  refine ⟨?_, of_decide_eq_false howner, ?_, fun hforge hempty => ?_⟩
  · exact of_decide_eq_false (Bool.or_eq_false_iff.1 hpat).1
  · rcases Bool.and_eq_false_iff.1 hprovider with h | h
    · exact .inl (not_not.1 (of_decide_eq_false h))
    · exact .inr (not_not.1 (of_decide_eq_false h))
  · rw [hforge, hempty] at hgitea
    cases hgitea

end RunnerSwarm
