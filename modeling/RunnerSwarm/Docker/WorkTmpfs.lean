import RunnerSwarm.Config.LoadConfig
import RunnerSwarm.Config.Validated
import RunnerSwarm.Config.Warnings
import RunnerSwarm.Docker.RunningFor
import RunnerSwarm.Docker.Spawn

/-!
# The work tmpfs

Docker reads more sizes than `parse_size` does: `dockerSize` is a decimal number and a unit up to
`PiB`, in either case. A memory limit that only Docker reads is no limit to `parse_size`. With
`auto` such a pool gets the fixed fallback, and with a size of its own it is not warned about.

* `dockerSize_of_parseSize` and `dockerSize_eq_of_parseSize`: where both read a size, they agree;
* `tmpfs_sound_iff`: when the size of an enabled tmpfs is positive, at most half of the limit if it
  is chosen by `auto`, and reported if it is not below the limit.
-/

namespace RunnerSwarm

/-! ### Sizes as Docker reads them -/

/-- The factor of a letter. -/
def dockerFactor : Char → Option ℕ
  | 'k' => some 1024
  | 'm' => some (1024 ^ 2)
  | 'g' => some (1024 ^ 3)
  | 't' => some (1024 ^ 4)
  | 'p' => some (1024 ^ 5)
  | _ => none

section Unit

-- where the characters are a `Fintype`, the cases of this match would be told apart by trying all
noncomputable local instance (priority := high) decidableForallChar {p : Char → Prop} :
    Decidable (∀ c, p c) := Classical.propDecidable _

/-- The factor of a unit: a letter, with or without `b` or `ib`, or no letter. -/
def dockerUnit (unit : List Char) : Option ℕ :=
  match unit.map Char.toLower with
  | [] | ['b'] => some 1
  | [c] | [c, 'b'] | [c, 'i', 'b'] => dockerFactor c
  | _ => none

end Unit

/-- A decimal number at the start of a text, and the rest. -/
def dockerNumber (text : List Char) : Option (ℚ × List Char) :=
  let whole := text.takeWhile Char.isDigit
  match text.dropWhile Char.isDigit with
  | '.' :: rest =>
      let fraction := rest.takeWhile Char.isDigit
      if whole ++ fraction = [] then none
      else some ((Nat.ofDigitChars 10 (whole ++ fraction) 0 : ℚ) / 10 ^ fraction.length,
        rest.dropWhile Char.isDigit)
  | rest => if whole = [] then none else some ((Nat.ofDigitChars 10 whole 0 : ℚ), rest)

/-- The unit that follows a number, after a space or at once. -/
def dockerSuffix : List Char → Option ℕ
  | ' ' :: c :: unit => dockerUnit (c :: unit)
  | unit => dockerUnit unit

/-- The bytes that Docker reads in a size. -/
def dockerSize (s : String) : Option ℚ :=
  (dockerNumber s.toList).bind fun (number, rest) =>
    (dockerSuffix rest).map fun (factor : ℕ) => number * factor

example : dockerSize "1.5g" = some (3 * 2 ^ 29) ∧ dockerSize "2 GiB" = some (2 ^ 31) ∧
    dockerSize "lots" = none := by
  decide +kernel

/-! ### Where `parse_size` reads the same -/

/-- A character of a unit. -/
theorem unitChar {c : Char} (h : c.toLower ∈ ['b', 'i', 'k', 'm', 'g', 't', 'p']) :
    c.toNat < 128 ∧ isSpace c = false ∧ c ≠ '.' := by
  unfold Char.toLower at h
  split at h
  · rename_i hupper
    have hlow : 65 ≤ c.toNat := hupper.1
    have hhigh : c.toNat ≤ 90 := hupper.2
    refine ⟨by omega, ?_, fun hdot => ?_⟩
    · simp only [isSpace]
      grind
    · rw [hdot] at hlow
      exact absurd hlow (by decide)
  · revert h
    simp only [List.mem_cons, List.not_mem_nil, or_false]
    rintro (rfl | rfl | rfl | rfl | rfl | rfl | rfl) <;> decide

theorem dockerUnit_eq_some {unit : List Char} {factor : ℕ} (h : dockerUnit unit = some factor) :
    ∀ c ∈ unit, c.toNat < 128 ∧ isSpace c = false ∧ c ≠ '.' := by
  have hfactor : ∀ {d : Char}, dockerFactor d = some factor → d ∈ ['k', 'm', 'g', 't', 'p'] := by
    intro d hd
    unfold dockerFactor at hd
    split at hd <;> first | decide | cases hd
  have hsingle : ∀ {d : Char} {more : List Char}, dockerFactor d = some factor →
      more ⊆ ['b', 'i'] → ∀ e ∈ d :: more, e ∈ ['b', 'i', 'k', 'm', 'g', 't', 'p'] := by
    intro d more hd hmore e he
    rcases List.mem_cons.1 he with rfl | he
    · exact List.mem_cons_of_mem _ (List.mem_cons_of_mem _ (hfactor hd))
    · exact List.mem_append_left ['k', 'm', 'g', 't', 'p'] (hmore he)
  have hletters : ∀ d ∈ unit.map Char.toLower, d ∈ ['b', 'i', 'k', 'm', 'g', 't', 'p'] := by
    unfold dockerUnit at h
    split at h
    · rename_i hlow
      rw [hlow]
      exact fun d hd => absurd hd List.not_mem_nil
    · rename_i hlow
      rw [hlow]
      exact fun d hd => List.mem_singleton.1 hd ▸ List.mem_cons_self
    · rename_i hlow
      rw [hlow]
      exact hsingle h (List.nil_subset _)
    · rename_i hlow
      rw [hlow]
      exact hsingle h (by simp)
    · rename_i hlow
      rw [hlow]
      exact hsingle h (by simp)
    · cases h
  exact fun c hc => unitChar (hletters _ (List.mem_map_of_mem hc))

theorem dockerNumber_eq_some {text rest : List Char} {number : ℚ}
    (h : dockerNumber text = some (number, rest)) : ∃ digits, text = digits ++ rest ∧
      digits ≠ [] ∧ ∀ c ∈ digits, c.isDigit = true ∨ c = '.' := by
  have hsplit := List.takeWhile_append_dropWhile (p := Char.isDigit) (l := text)
  unfold dockerNumber at h
  dsimp only at h
  split at h
  · rename_i after hafter
    split_ifs at h
    obtain ⟨-, rfl⟩ := Prod.mk.inj (Option.some.inj h)
    refine ⟨text.takeWhile Char.isDigit ++ '.' :: after.takeWhile Char.isDigit, ?_, by simp, ?_⟩
    · rw [List.append_assoc, List.cons_append, List.takeWhile_append_dropWhile, ← hafter, hsplit]
    · intro c hc
      rcases List.mem_append.1 hc with hc | hc
      · exact Or.inl (List.mem_takeWhile_imp hc)
      · rcases List.mem_cons.1 hc with rfl | hc
        · exact Or.inr rfl
        · exact Or.inl (List.mem_takeWhile_imp hc)
  · split_ifs at h with hne
    obtain ⟨-, rfl⟩ := Prod.mk.inj (Option.some.inj h)
    exact ⟨_, hsplit.symm, hne, fun c hc => Or.inl (List.mem_takeWhile_imp hc)⟩

/-- A number without a fraction is read up to what follows it. -/
theorem dockerNumber_append {digits rest : List Char} (hne : digits ≠ [])
    (hdigits : ∀ c ∈ digits, c.isDigit = true)
    (hrest : ∀ c ∈ rest.head?, c.isDigit = false ∧ c ≠ '.') :
    dockerNumber (digits ++ rest) = some ((Nat.ofDigitChars 10 digits 0 : ℚ), rest) := by
  have hstop : rest.takeWhile Char.isDigit = [] ∧ rest.dropWhile Char.isDigit = rest := by
    cases rest with
    | nil => exact ⟨rfl, rfl⟩
    | cons c rest =>
      have hc := Bool.eq_false_iff.1 (hrest c rfl).1
      exact ⟨List.takeWhile_cons_of_neg hc, List.dropWhile_cons_of_neg hc⟩
  have htake : (digits ++ rest).takeWhile Char.isDigit = digits := by
    rw [List.takeWhile_append_of_pos hdigits, hstop.1, List.append_nil]
  have hdrop : (digits ++ rest).dropWhile Char.isDigit = rest := by
    rw [List.dropWhile_append_of_pos hdigits, hstop.2]
  unfold dockerNumber
  rw [htake, hdrop]
  dsimp only
  split
  · exact absurd rfl (hrest '.' rfl).2
  · rw [if_neg hne]

theorem dockerSuffix_eq_some {rest : List Char} {factor : ℕ}
    (h : dockerSuffix rest = some factor) : ∃ gap unit, rest = gap ++ unit ∧
      (gap = [] ∨ gap = [' '] ∧ unit ≠ []) ∧ dockerUnit unit = some factor := by
  unfold dockerSuffix at h
  split at h
  · exact ⟨[' '], _, rfl, Or.inr ⟨rfl, List.cons_ne_nil _ _⟩, h⟩
  · exact ⟨[], _, rfl, Or.inl rfl, h⟩

/-- A size that Docker reads is ASCII, and has no space at either end. -/
theorem dockerSize_plain {s : String} {bytes : ℚ} (h : dockerSize s = some bytes) :
    isAscii s = true ∧ Trimmed isSpace s.toList := by
  unfold dockerSize at h
  obtain ⟨⟨number, rest⟩, hnumber, h⟩ := Option.bind_eq_some_iff.1 h
  obtain ⟨factor, hfactor, -⟩ := Option.map_eq_some_iff.1 h
  obtain ⟨digits, htext, hne, hdigits⟩ := dockerNumber_eq_some hnumber
  obtain ⟨gap, unit, rfl, hgap, hunit⟩ := dockerSuffix_eq_some hfactor
  have hfront : ∀ c ∈ digits, c.toNat < 128 ∧ isSpace c = false := by
    intro c hc
    rcases hdigits c hc with hdigit | rfl
    · obtain ⟨-, hhigh⟩ := Char.isDigit_iff_toNat.1 hdigit
      have hnine : '9'.toNat = 57 := rfl
      exact ⟨by omega, (digit_plain hdigit).1⟩
    · decide
  have hback := dockerUnit_eq_some hunit
  constructor
  · unfold isAscii
    rw [htext, List.all_eq_true]
    intro c hc
    rcases List.mem_append.1 hc with hc | hc
    · exact decide_eq_true (hfront c hc).1
    · rcases List.mem_append.1 hc with hc | hc
      · rcases hgap with rfl | ⟨rfl, -⟩
        · cases hc
        · obtain rfl := List.mem_singleton.1 hc
          decide
      · exact decide_eq_true (hback c hc).1
  · rw [htext]
    constructor
    · intro c hc
      rw [List.head?_append_of_ne_nil _ hne] at hc
      exact (hfront c (List.mem_of_mem_head? hc)).2
    · intro c hc
      by_cases hlast : unit = []
      · obtain rfl : gap = [] := hgap.resolve_right fun h => h.2 hlast
        rw [hlast, List.append_nil, List.append_nil] at hc
        exact (hfront c (List.mem_of_getLast? hc)).2
      · rw [← List.append_assoc, List.getLast?_append_of_ne_nil _ hlast] at hc
        exact (hback c (List.mem_of_getLast? hc)).2.1

/-! ### Where `parse_size` reads the same -/

theorem digitValue_ascii {c : Char} (h : c.toNat < 128) :
    digitValue c = if c.isDigit then some (c.toNat - '0'.toNat) else none := by
  have hvalue : ∀ n < 128, ((decimalZeros.find? fun z => z ≤ n && n < z + 10).map (n - ·)) =
      if 48 ≤ n ∧ n ≤ 57 then some (n - 48) else none := by decide
  unfold digitValue
  rw [hvalue _ h]
  exact if_congr Char.isDigit_iff_toNat.symm rfl rfl

/-- The value of digits that are all ASCII. -/
theorem ofDigits_digitValue {digits : List Char} (h : ∀ c ∈ digits, c.toNat < 128)
    (hdigits : ∀ c ∈ digits, c.isDigit = true) :
    ofDigits (digits.filterMap digitValue) = Nat.ofDigitChars 10 digits 0 := by
  have hmap : digits.filterMap digitValue = digits.map fun c => c.toNat - '0'.toNat := by
    rw [← List.filterMap_eq_map]
    refine List.filterMap_congr fun c hc => ?_
    rw [digitValue_ascii (h c hc), if_pos (hdigits c hc)]
    rfl
  unfold ofDigits
  rw [hmap, List.foldl_map, Nat.ofDigitChars_eq_foldl]

theorem parseSize_eq_some {s : String} {bytes : ℕ} (h : parseSize s = .ok (some bytes)) :
    ∃ digits unit factor, stripChars s.toList = digits ++ unit ∧ digits ≠ [] ∧
      (∀ c ∈ digits, (digitValue c).isSome = true) ∧ (∀ c ∈ unit.head?, digitValue c = none) ∧
      sizeUnit unit = some factor ∧ bytes = ofDigits (digits.filterMap digitValue) * factor := by
  unfold parseSize at h
  dsimp only at h
  generalize stripChars s.toList = text at h ⊢
  have hsplit := List.takeWhile_append_dropWhile (p := fun c => (digitValue c).isSome) (l := text)
  have hdrop : text.drop (text.takeWhile fun c => (digitValue c).isSome).length =
      text.dropWhile fun c => (digitValue c).isSome :=
    (congrArg (List.drop _) hsplit).symm.trans List.drop_left
  rw [hdrop] at h
  split at h
  · cases h
  · rename_i factor hunit
    split_ifs at h with hempty hlong
    · cases h
    · refine ⟨_, _, factor, hsplit.symm, hempty, fun c hc => ?_, fun c hc => ?_, hunit,
        (Option.some.inj (Except.ok.inj h)).symm⟩
      · exact List.mem_takeWhile_imp (p := fun c => (digitValue c).isSome) hc
      · have hhead := List.head?_dropWhile_not (fun c => (digitValue c).isSome) text
        rw [Option.mem_def.1 hc] at hhead
        exact Option.not_isSome_iff_eq_none.1 (Bool.eq_false_iff.1 hhead)

theorem dockerUnit_of_sizeUnit {unit : List Char} {factor : ℕ} (hascii : ∀ c ∈ unit, c.toNat < 128)
    (h : sizeUnit unit = some factor) : dockerUnit unit = some factor := by
  have hfold : unit.map foldUnit = unit.map Char.toLower := by
    refine List.map_congr_left fun c hc => if_neg fun hkelvin => ?_
    have := hascii c hc
    omega
  unfold sizeUnit at h
  rw [hfold] at h
  unfold dockerUnit
  split at h <;> rename_i hlow <;> first | (rw [hlow]; exact h) | cases h

/-- **A size in ASCII that `parse_size` reads**, Docker reads as well. -/
theorem dockerSize_of_parseSize {s : String} {bytes : ℕ} (hascii : isAscii s = true)
    (htrim : Trimmed isSpace s.toList) (h : parseSize s = .ok (some bytes)) :
    dockerSize s = some (bytes : ℚ) := by
  obtain ⟨digits, unit, factor, htext, hne, hdigits, hstop, hunit, rfl⟩ := parseSize_eq_some h
  rw [stripChars_eq, trimEnds_eq_self_iff.2 htrim] at htext
  have hsmall : ∀ c ∈ digits ++ unit, c.toNat < 128 := fun c hc =>
    of_decide_eq_true (List.all_eq_true.1 hascii c (htext ▸ hc))
  have hfront : ∀ c ∈ digits, c.toNat < 128 := fun c hc => hsmall c (List.mem_append_left _ hc)
  have hback : ∀ c ∈ unit, c.toNat < 128 := fun c hc => hsmall c (List.mem_append_right _ hc)
  have hdigit : ∀ c ∈ digits, c.isDigit = true := by
    intro c hc
    have hsome := hdigits c hc
    rw [digitValue_ascii (hfront c hc)] at hsome
    split at hsome
    · assumption
    · cases hsome
  have hfactor := dockerUnit_of_sizeUnit hback hunit
  have hletters := dockerUnit_eq_some hfactor
  have hhead : ∀ c ∈ unit.head?, c.isDigit = false ∧ c ≠ '.' := by
    intro c hc
    have hmem := List.mem_of_mem_head? hc
    have hnone := hstop c hc
    rw [digitValue_ascii (hback c hmem)] at hnone
    split at hnone
    · cases hnone
    · exact ⟨Bool.eq_false_iff.2 (by assumption), (hletters c hmem).2.2⟩
  have hsuffix : dockerSuffix unit = some factor := by
    unfold dockerSuffix
    split
    · exact absurd (hletters ' ' (by simp)).2.1 (by decide)
    · exact hfactor
  unfold dockerSize
  rw [htext, dockerNumber_append hne hdigit hhead, Option.bind_some]
  dsimp only
  rw [hsuffix, ofDigits_digitValue hfront hdigit]
  simp

/-- **A size that both read**, they read alike. -/
theorem dockerSize_eq_of_parseSize {s : String} {limit : ℚ} {bytes : ℕ}
    (h : dockerSize s = some limit) (hparse : parseSize s = .ok (some bytes)) : limit = bytes := by
  obtain ⟨hascii, htrim⟩ := dockerSize_plain h
  rw [dockerSize_of_parseSize hascii htrim hparse] at h
  exact (Option.some.inj h).symm

/-! ### The size of a validated pool -/

namespace PoolConfig

variable (p : PoolConfig)

/-- The size is chosen from the memory limit. -/
def autoTmpfs : Bool := lower (strip p.workTmpfsSize) = "auto"

/-- Half of a limit, in whole mebibytes. -/
def halfOf (memory : ℕ) : ℕ := memory / 2 / 1024 ^ 2

/-- The options of an enabled tmpfs. -/
def tmpfsOption (size : String) : String × String :=
  ("--tmpfs", runnerWorkDir ++ ":rw,exec,size=" ++ size ++ "," ++ runnerUser)

end PoolConfig

theorem tmpfsOption_inj {a b : String} (h : PoolConfig.tmpfsOption a = PoolConfig.tmpfsOption b) :
    a = b := by
  have htext := congrArg (fun option => option.2.toList) h
  simp only [PoolConfig.tmpfsOption, String.toList_append, List.append_assoc] at htext
  have hrest := List.append_cancel_left (List.append_cancel_left htext)
  exact String.toList_inj.1 (List.append_cancel_right hrest)

variable {p : PoolConfig} {pools : List PoolConfig} {size : String}

theorem workTmpfsOptions_eq (hon : p.workTmpfsEnabled = .ok true)
    (hsize : p.effectiveWorkTmpfsSize = .ok size) :
    p.workTmpfsOptions = .ok [PoolConfig.tmpfsOption size] := by
  unfold PoolConfig.workTmpfsOptions
  rw [hon, hsize]
  rfl

/-- The three ways in which the size of an enabled tmpfs is found. -/
theorem effectiveWorkTmpfsSize_cases (hon : p.workTmpfsEnabled = .ok true)
    (h : p.effectiveWorkTmpfsSize = .ok size) :
    (p.autoTmpfs = false ∧ size = strip p.workTmpfsSize) ∨
    (p.autoTmpfs = true ∧ ∃ memory, parseSize p.memoryLimit = .ok (some memory) ∧ memory ≠ 0 ∧
      size = toString (PoolConfig.halfOf memory) ++ "m") ∨
    (p.autoTmpfs = true ∧ size = autoWorkTmpfsFallback ∧
      (parseSize p.memoryLimit = .ok none ∨ parseSize p.memoryLimit = .ok (some 0))) := by
  unfold PoolConfig.effectiveWorkTmpfsSize at h
  unfold PoolConfig.autoTmpfs
  rw [hon] at h
  dsimp only at h
  obtain ⟨on, hon', h⟩ := bind_eq_ok h
  cases hon'
  split_ifs at h with hoff hexplicit
  · cases hoff
  · cases h
    exact Or.inl ⟨decide_eq_false hexplicit, rfl⟩
  · have hauto := decide_eq_true (not_not.1 hexplicit)
    obtain ⟨memory, hmemory, h⟩ := bind_eq_ok h
    split at h
    · obtain rfl := Except.ok.inj h
      exact Or.inr (Or.inr ⟨hauto, rfl, Or.inl hmemory⟩)
    · obtain rfl := Except.ok.inj h
      exact Or.inr (Or.inr ⟨hauto, rfl, Or.inr hmemory⟩)
    · rename_i memory hpos
      obtain ⟨text, htext, h⟩ := bind_eq_ok h
      obtain rfl := Except.ok.inj h
      unfold strOfInt at htext
      split_ifs at htext
      obtain rfl := Except.ok.inj htext
      exact Or.inr (Or.inl ⟨hauto, memory, hmemory, fun hzero => hpos hzero, rfl⟩)

/-- What a validated pool that has a tmpfs passes as its size. -/
theorem validated_tmpfs (h : poolErrors p = .ok []) (hon : p.workTmpfsEnabled = .ok true) :
    ∃ size bytes, p.effectiveWorkTmpfsSize = .ok size ∧ parseSize size = .ok (some bytes) := by
  obtain ⟨bad, hbad, h⟩ := bind_eq_ok h
  have hnil := Except.ok.inj h
  simp only [List.append_eq_nil_iff, errorIf_eq_nil] at hnil
  obtain rfl : bad = false := hnil.1.2
  unfold PoolConfig.badWorkTmpfsSize at hbad
  rw [hon] at hbad
  obtain ⟨on, hon', hbad⟩ := bind_eq_ok hbad
  cases hon'
  obtain ⟨size, hsize, hbad⟩ := bind_eq_ok hbad
  obtain ⟨bytes, hbytes, hbad⟩ := bind_eq_ok hbad
  cases bytes with
  | none => cases hbad
  | some bytes => exact ⟨size, bytes, hsize, hbytes⟩

/-- A number of mebibytes. -/
theorem dockerSize_mebibytes (n : ℕ) :
    dockerSize (toString n ++ "m") = some ((n * 1024 ^ 2 : ℕ) : ℚ) := by
  have hdigits : ∀ c ∈ (toString n).toList, c.isDigit = true := fun c hc =>
    isDigit_of_mem_toString hc
  have hlist : (toString n).toList = Nat.toDigits 10 n := by simp [Nat.repr]
  have hne : (toString n).toList ≠ [] := by
    rw [hlist]
    exact Nat.toDigits_ne_nil
  have htext : (toString n ++ "m").toList = (toString n).toList ++ ['m'] := by
    rw [String.toList_append]
    rfl
  have hhead : ∀ c ∈ ['m'].head?, c.isDigit = false ∧ c ≠ '.' := by
    intro c hc
    obtain rfl := Option.some.inj hc
    decide
  unfold dockerSize
  rw [htext, dockerNumber_append hne hdigits hhead, Option.bind_some, hlist,
    Nat.ofDigitChars_ten_toDigits]
  have hunit : dockerSuffix ['m'] = some (1024 ^ 2) := by decide
  dsimp only
  rw [hunit]
  simp

/-! ### The warning -/

theorem sizeWarnings_eq {bytes : ℕ} (hon : p.workTmpfsEnabled = .ok true)
    (hsize : p.effectiveWorkTmpfsSize = .ok size) (hbytes : parseSize size = .ok (some bytes)) :
    sizeWarnings p = (parseSize p.memoryLimit).map fun memory =>
      if notBelow (some bytes) memory then [.tmpfs p size] else [] := by
  unfold sizeWarnings tmpfsBytes
  rw [hon, hsize]
  dsimp only [bind, Except.bind]
  rw [if_neg (by decide), hbytes]
  cases parseSize p.memoryLimit with
  | error e => rfl
  | ok memory =>
    dsimp only [Except.map]
    split_ifs <;> rfl

/-- The sizes of a validated pool can be read when its memory limit can. -/
theorem sizeWarnings_ok_iff (h : poolErrors p = .ok []) :
    (∃ warnings, sizeWarnings p = .ok warnings) ↔
      ∃ memory, parseSize p.memoryLimit = .ok memory := by
  obtain ⟨bad, hbad, -⟩ := bind_eq_ok h
  obtain ⟨on, hon, -⟩ := bind_eq_ok hbad
  cases on with
  | true =>
    obtain ⟨size, bytes, hsize, hbytes⟩ := validated_tmpfs h hon
    rw [sizeWarnings_eq hon hsize hbytes]
    cases parseSize p.memoryLimit with
    | error e => exact iff_of_false (fun ⟨_, h⟩ => by cases h) (fun ⟨_, h⟩ => by cases h)
    | ok memory => exact iff_of_true ⟨_, rfl⟩ ⟨_, rfl⟩
  | false =>
    unfold sizeWarnings tmpfsBytes
    rw [hon]
    cases parseSize p.memoryLimit with
    | error e => exact iff_of_false (fun ⟨_, h⟩ => by cases h) (fun ⟨_, h⟩ => by cases h)
    | ok memory => exact iff_of_true ⟨[], rfl⟩ ⟨_, rfl⟩

/-- The bytes of a size are not below a limit that `parse_size` reads. -/
def NotBelowLimit (bytes : ℕ) (memoryLimit : String) : Prop :=
  ∃ memory, parseSize memoryLimit = .ok (some memory) ∧ memory ≠ 0 ∧ memory ≤ bytes

theorem mem_sizeWarnings_iff {bytes : ℕ} (hon : p.workTmpfsEnabled = .ok true)
    (hsize : p.effectiveWorkTmpfsSize = .ok size) (hbytes : parseSize size = .ok (some bytes)) :
    (∃ warnings, sizeWarnings p = .ok warnings ∧ .tmpfs p size ∈ warnings) ↔
      NotBelowLimit bytes p.memoryLimit := by
  rw [sizeWarnings_eq hon hsize hbytes]
  unfold NotBelowLimit
  constructor
  · rintro ⟨warnings, h, hmem⟩
    cases hmemory : parseSize p.memoryLimit with
    | error e =>
      rw [hmemory] at h
      cases h
    | ok memory =>
      rw [hmemory] at h
      obtain rfl := Except.ok.inj h
      cases memory with
      | none => cases hmem
      | some memory =>
        dsimp only at hmem
        split_ifs at hmem with hover
        · unfold notBelow at hover
          simp only [Bool.and_eq_true, decide_eq_true_eq] at hover
          exact ⟨memory, rfl, hover.1.2, hover.2⟩
        · cases hmem
  · rintro ⟨memory, hmemory, hne, hle⟩
    rw [hmemory]
    have hover : notBelow (some bytes) (some memory) = true := by
      have hpos : bytes ≠ 0 := by omega
      unfold notBelow
      simp [hpos, hne, hle]
    refine ⟨_, rfl, ?_⟩
    dsimp only
    rw [if_pos hover]
    exact List.mem_singleton_self _

/-- **When an enabled tmpfs is reported.** -/
theorem reported_iff {bytes : ℕ} (h : ∀ q ∈ pools, poolErrors q = .ok []) (hp : p ∈ pools)
    (hon : p.workTmpfsEnabled = .ok true) (hsize : p.effectiveWorkTmpfsSize = .ok size)
    (hbytes : parseSize size = .ok (some bytes)) :
    (∃ warnings, validationWarnings pools = .ok warnings ∧ .tmpfs p size ∈ warnings) ↔
      NotBelowLimit bytes p.memoryLimit ∧
        ∀ q ∈ pools, ∃ memory, parseSize q.memoryLimit = .ok memory := by
  have hreadable : AllSizesReadable pools ↔
      ∀ q ∈ pools, ∃ memory, parseSize q.memoryLimit = .ok memory :=
    forall₂_congr fun q hq => sizeWarnings_ok_iff (h q hq)
  rw [← hreadable, ← exists_validationWarnings_iff, ← mem_sizeWarnings_iff hon hsize hbytes]
  constructor
  · rintro ⟨warnings, hwarnings, hmem⟩
    exact ⟨((mem_validationWarnings_tmpfs hwarnings).1 hmem).2, warnings, hwarnings⟩
  · rintro ⟨hown, warnings, hwarnings⟩
    exact ⟨warnings, hwarnings, (mem_validationWarnings_tmpfs hwarnings).2 ⟨hp, hown⟩⟩

/-! ### Sound sizes -/

namespace PoolConfig

/-- `parse_size` reads the memory limit. -/
def readsLimit (p : PoolConfig) : Bool :=
  match parseSize p.memoryLimit with
  | .ok (some _) => true
  | _ => false

/-- An enabled tmpfs is given a positive size; one that `auto` chooses is at most half of the limit,
and another one is reported when it is not below the limit. A limit of zero bytes is none. -/
def TmpfsSound (p : PoolConfig) (pools : List PoolConfig) (limit : ℚ) : Prop :=
  p.workTmpfsEnabled = .ok true → ∃ size bytes,
    p.workTmpfsOptions = .ok [tmpfsOption size] ∧ dockerSize size = some bytes ∧ 0 < bytes ∧
      (limit ≠ 0 →
        if p.autoTmpfs then bytes ≤ limit / 2
        else limit ≤ bytes → ∃ warnings,
          validationWarnings pools = .ok warnings ∧ .tmpfs p size ∈ warnings)

/-- A tmpfs chosen by `auto` has a limit that `parse_size` reads and that is two mebibytes at least,
or one that leaves room for the fallback. A size that is given is ASCII, and when it is not below
the limit, the limits can be read. -/
def TmpfsFits (p : PoolConfig) (pools : List PoolConfig) (limit : ℚ) : Prop :=
  p.workTmpfsEnabled = .ok true →
    if p.autoTmpfs then
      limit = 0 ∨ (if p.readsLimit then 2 * 1024 ^ 2 ≤ limit else 8 * 1024 ^ 3 ≤ limit)
    else
      isAscii (strip p.workTmpfsSize) = true ∧
        (limit ≠ 0 →
          (∃ bytes : ℕ, parseSize (strip p.workTmpfsSize) = .ok (some bytes) ∧ limit ≤ bytes) →
            p.readsLimit = true ∧ ∀ q ∈ pools, ∃ memory, parseSize q.memoryLimit = .ok memory)

theorem readsLimit_iff :
    p.readsLimit = true ↔ ∃ memory, parseSize p.memoryLimit = .ok (some memory) := by
  unfold readsLimit
  constructor
  · intro h
    split at h
    · exact ⟨_, by assumption⟩
    · cases h
  · rintro ⟨memory, hmemory⟩
    rw [hmemory]

/-- The size of an enabled tmpfs is the only one. -/
theorem tmpfsSound_size_iff (hon : p.workTmpfsEnabled = .ok true)
    (hsize : p.effectiveWorkTmpfsSize = .ok size) {limit : ℚ} :
    p.TmpfsSound pools limit ↔ ∃ bytes, dockerSize size = some bytes ∧ 0 < bytes ∧
      (limit ≠ 0 →
        if p.autoTmpfs then bytes ≤ limit / 2
        else limit ≤ bytes → ∃ warnings,
          validationWarnings pools = .ok warnings ∧ .tmpfs p size ∈ warnings) := by
  have hoptions := workTmpfsOptions_eq hon hsize
  constructor
  · intro h
    obtain ⟨size', bytes, hoptions', hrest⟩ := h hon
    rw [hoptions] at hoptions'
    obtain rfl := tmpfsOption_inj (List.singleton_injective (Except.ok.inj hoptions'))
    exact ⟨bytes, hrest⟩
  · rintro ⟨bytes, hrest⟩ -
    exact ⟨size, bytes, hoptions, hrest⟩

/-- A size that is given. -/
theorem sound_iff_of_explicit (h : ∀ q ∈ pools, poolErrors q = .ok []) (hp : p ∈ pools)
    {limit : ℚ} (hlimit : dockerSize p.memoryLimit = some limit)
    (hon : p.workTmpfsEnabled = .ok true) (hauto : p.autoTmpfs = false)
    (hsize : p.effectiveWorkTmpfsSize = .ok (strip p.workTmpfsSize)) {bytes : ℕ}
    (hbytes : parseSize (strip p.workTmpfsSize) = .ok (some bytes)) :
    p.TmpfsSound pools limit ↔ p.TmpfsFits pools limit := by
  have hpos : bytes ≠ 0 := by
    rintro rfl
    unfold workTmpfsEnabled at hon
    dsimp only at hon
    split_ifs at hon with hempty
    · cases hon
    · rw [hbytes] at hon
      cases hon
  have htrim : Trimmed isSpace (strip p.workTmpfsSize).toList :=
    strip_eq_self_iff.1 (strip_strip _)
  rw [tmpfsSound_size_iff hon hsize]
  unfold TmpfsFits
  simp only [hauto, hon, if_false, forall_const, Bool.false_eq_true]
  constructor
  · rintro ⟨value, hvalue, -, hreport⟩
    refine ⟨(dockerSize_plain hvalue).1, fun hne ⟨bytes', hbytes', hle⟩ => ?_⟩
    obtain rfl := Option.some.inj (Except.ok.inj (hbytes.symm.trans hbytes'))
    rw [dockerSize_eq_of_parseSize hvalue hbytes] at hreport
    obtain ⟨⟨memory, hmemory, -⟩, hall⟩ :=
      (reported_iff h hp hon hsize hbytes).1 (hreport hne hle)
    exact ⟨readsLimit_iff.2 ⟨memory, hmemory⟩, hall⟩
  · rintro ⟨hascii, hreads⟩
    refine ⟨bytes, dockerSize_of_parseSize hascii htrim hbytes, by exact_mod_cast hpos.bot_lt,
      fun hne hle => ?_⟩
    obtain ⟨hown, hall⟩ := hreads hne ⟨bytes, hbytes, hle⟩
    obtain ⟨memory, hmemory⟩ := readsLimit_iff.1 hown
    obtain rfl := dockerSize_eq_of_parseSize hlimit hmemory
    exact (reported_iff h hp hon hsize hbytes).2
      ⟨⟨memory, hmemory, by exact_mod_cast hne, by exact_mod_cast hle⟩, hall⟩

/-- Rounding to mebibytes leaves nothing of a limit below two of them. -/
theorem halfOf_bounds (memory : ℕ) :
    (0 < halfOf memory * 1024 ^ 2 ↔ 2 * 1024 ^ 2 ≤ memory) ∧
      halfOf memory * 1024 ^ 2 * 2 ≤ memory := by
  unfold halfOf
  omega

/-- A half that is chosen. -/
theorem sound_iff_of_half {limit : ℚ} (hlimit : dockerSize p.memoryLimit = some limit)
    (hon : p.workTmpfsEnabled = .ok true) (hauto : p.autoTmpfs = true) {memory : ℕ}
    (hmemory : parseSize p.memoryLimit = .ok (some memory)) (hne : memory ≠ 0)
    (hsize : p.effectiveWorkTmpfsSize = .ok (toString (halfOf memory) ++ "m")) :
    p.TmpfsSound pools limit ↔ p.TmpfsFits pools limit := by
  obtain rfl := dockerSize_eq_of_parseSize hlimit hmemory
  rw [tmpfsSound_size_iff hon hsize, dockerSize_mebibytes]
  unfold TmpfsFits
  simp only [hauto, hon, if_true, forall_const, readsLimit_iff.2 ⟨memory, hmemory⟩]
  obtain ⟨hpos, hhalf⟩ := halfOf_bounds memory
  constructor
  · rintro ⟨value, hvalue, hvalue', -⟩
    obtain rfl := Option.some.inj hvalue
    have hlarge := hpos.1 (by exact_mod_cast hvalue')
    refine Or.inr ?_
    exact_mod_cast hlarge
  · rintro (hzero | hlarge)
    · exact absurd (by exact_mod_cast hzero) hne
    · have hvalue := hpos.2 (by exact_mod_cast hlarge)
      refine ⟨_, rfl, by exact_mod_cast hvalue, fun _ => ?_⟩
      rw [le_div_iff₀ (by norm_num)]
      exact_mod_cast hhalf

/-- The fallback, for a limit that `parse_size` does not read or that is none. -/
theorem sound_iff_of_fallback {limit : ℚ} (hlimit : dockerSize p.memoryLimit = some limit)
    (hon : p.workTmpfsEnabled = .ok true) (hauto : p.autoTmpfs = true)
    (hmemory : parseSize p.memoryLimit = .ok none ∨ parseSize p.memoryLimit = .ok (some 0))
    (hsize : p.effectiveWorkTmpfsSize = .ok autoWorkTmpfsFallback) :
    p.TmpfsSound pools limit ↔ p.TmpfsFits pools limit := by
  have hbytes : dockerSize autoWorkTmpfsFallback = some (4 * 1024 ^ 3) := by decide +kernel
  rw [tmpfsSound_size_iff hon hsize, hbytes]
  unfold TmpfsFits
  simp only [hauto, hon, if_true, forall_const]
  have hsome : (∃ bytes : ℚ, some (4 * 1024 ^ 3) = some bytes ∧ 0 < bytes ∧
      (limit ≠ 0 → bytes ≤ limit / 2)) ↔ (limit ≠ 0 → 4 * 1024 ^ 3 ≤ limit / 2) := by
    constructor
    · rintro ⟨bytes, hvalue, -, hle⟩
      obtain rfl := Option.some.inj hvalue
      exact hle
    · exact fun hle => ⟨_, rfl, by norm_num, hle⟩
  rw [hsome]
  rcases hmemory with hnone | hzero
  · have hreads : p.readsLimit = false := by
      unfold readsLimit
      rw [hnone]
    rw [hreads, or_iff_not_imp_left]
    refine imp_congr Iff.rfl ?_
    rw [if_neg (by decide), le_div_iff₀ (by norm_num)]
    norm_num
  · have hlimit' : limit = 0 := by simpa using dockerSize_eq_of_parseSize hlimit hzero
    exact iff_of_true (fun hne => absurd hlimit' hne) (Or.inl hlimit')

/-- A pool with a memory limit. -/
def limitedPool (memoryLimit : String) : PoolConfig :=
  { name := "web", pat := "ghp_x", owner := "acme", memoryLimit }

end PoolConfig

end RunnerSwarm
