import RunnerSwarm.Docker.Client
import RunnerSwarm.Lib.Text

/-!
# The age of a container as text

`docker ps` prints the age of a container rounded and in words, and the reapers and the dashboard
read that text back with `_parse_running_minutes`. `RunningFor` is what Docker prints for an age in
minutes; below an hour it is cut off to whole seconds or minutes, from an hour on it is rounded to
the nearest hour first.

* `ReadableAge` are the ages whose text begins with a number and has a unit the parser knows, and
  `readAge` is the number of minutes it finds there;
* `parse_text`: an age is read as `readAge` when it is `ReadableAge`, and not at all otherwise;
* `readAge_mono`: of two readable ages the greater is never read as less;
* `lt_readAge_iff`: which ages are read as more than they are.
-/

namespace RunnerSwarm

/-- Hours to the nearest one. -/
def roundedHours (age : ℚ) : ℕ := ⌊age / 60 + 1 / 2⌋₊

/-- A number of units, as an age. -/
def ageText (n : ℕ) (unit : String) : String := toString n ++ " " ++ unit ++ " ago"

/-- How `docker ps` prints an age in minutes. -/
structure RunningFor where
  text : (age : ℚ) → String
  moment : ∀ age, age < 1 / 60 → text age = "Less than a second ago"
  seconds : ∀ age, 1 / 60 ≤ age → age < 1 →
    ∃ unit ∈ ["second", "seconds"], text age = ageText ⌊60 * age⌋₊ unit
  minute : ∀ age, 1 ≤ age → age < 2 → text age = "About a minute ago"
  minutes : ∀ age, 2 ≤ age → age < 60 → text age = ageText ⌊age⌋₊ "minutes"
  hour : ∀ age, 60 ≤ age → roundedHours age < 2 → text age = "About an hour ago"
  hours : ∀ age, 2 ≤ roundedHours age → roundedHours age < 48 →
    text age = ageText (roundedHours age) "hours"
  days : ∀ age, 48 ≤ roundedHours age → roundedHours age < 336 →
    text age = ageText (roundedHours age / 24) "days"
  later : ∀ age, 336 ≤ roundedHours age →
    ∃ n, ∃ unit ∈ ["weeks", "months", "years"], text age = ageText n unit

/-! ### Words -/

/-- A word ends at the first space. -/
theorem wordsFrom_append_space {word : List Char} (rest : List Char) (hne : word ≠ [])
    (hword : ∀ c ∈ word, isSpace c = false) :
    wordsFrom [] (word ++ ' ' :: rest) = word :: wordsFrom [] rest := by
  have hread : ∀ start, start ++ word ≠ [] →
      wordsFrom start (word ++ ' ' :: rest) = (start ++ word) :: wordsFrom [] rest := by
    clear hne
    induction word with
    | nil =>
      intro start hstart
      have hspace : isSpace ' ' = true := by decide
      rw [List.append_nil] at hstart ⊢
      rw [List.nil_append, wordsFrom, if_pos hspace, if_neg hstart]
    | cons c word ih =>
      intro start _
      have hc : isSpace c = false := hword c List.mem_cons_self
      rw [List.cons_append, wordsFrom, if_neg (Bool.eq_false_iff.1 hc),
        ih (fun d hd => hword d (List.mem_cons_of_mem c hd)) _ (by simp), List.append_assoc,
        List.singleton_append]
  exact hread [] (by simpa using hne)

theorem isDigit_of_mem_toString {n : ℕ} {c : Char} (h : c ∈ (toString n).toList) :
    c.isDigit = true := by
  have hdigits : c ∈ Nat.toDigits 10 n := by simpa [Nat.repr] using h
  exact Nat.isDigit_of_mem_toDigits (by decide) (by decide) hdigits

/-- A digit is neither a space nor a letter. -/
theorem digit_plain {c : Char} (h : c.isDigit = true) :
    isSpace c = false ∧ c.toNat < 128 ∧ c.toLower = c := by
  obtain ⟨hlow, hhigh⟩ := Char.isDigit_iff_toNat.1 h
  have hzero : '0'.toNat = 48 := rfl
  have hnine : '9'.toNat = 57 := rfl
  refine ⟨?_, by omega, ?_⟩
  · simp only [isSpace]
    grind
  · unfold Char.toLower
    refine dif_neg fun hupper => ?_
    have hletter : 65 ≤ c.val.toNat := hupper.1
    have hval : c.val.toNat = c.toNat := rfl
    omega

/-- An ASCII word without spaces and capitals. -/
def isPlainWord (word : String) : Bool :=
  word.toList.all fun c => !isSpace c && (c.toNat < 128 && c.toLower = c)

theorem isPlainWord_iff {word : String} : isPlainWord word = true ↔
    ∀ c ∈ word.toList, isSpace c = false ∧ c.toNat < 128 ∧ c.toLower = c := by
  simp [isPlainWord]

/-- **The words of an age**: its number, its unit and the word after them. -/
theorem words_ageText {n : ℕ} {unit : String} (hunit : unit ≠ "")
    (hword : isPlainWord unit = true) :
    words (lower (ageText n unit)) = [toString n, unit, "ago"] := by
  have hplain := isPlainWord_iff.1 hword
  have hdigit : ∀ c ∈ (toString n).toList, isSpace c = false ∧ c.toNat < 128 ∧ c.toLower = c :=
    fun c hc => digit_plain (isDigit_of_mem_toString hc)
  have hlower : (lower (ageText n unit)).toList =
      (toString n).toList ++ ' ' :: (unit.toList ++ ' ' :: "ago".toList) := by
    have hkept : ∀ c ∈ (toString n).toList ++ ' ' :: (unit.toList ++ ' ' :: "ago".toList),
        c.toNat < 128 ∧ c.toLower = c := by
      have hago := isPlainWord_iff.1 (by decide : isPlainWord "ago" = true)
      intro c hc
      simp only [List.mem_append, List.mem_cons] at hc
      rcases hc with hc | rfl | hc | rfl | hc
      · exact (hdigit c hc).2
      · decide
      · exact (hplain c hc).2
      · decide
      · exact (hago c hc).2
    have htext : (ageText n unit).toList =
        (toString n).toList ++ ' ' :: (unit.toList ++ ' ' :: "ago".toList) := by
      simp [ageText]
    rw [lower, String.toList_ofList, htext, lowerChars_ascii fun c hc => (hkept c hc).1]
    exact (List.map_congr_left fun c hc => (hkept c hc).2).trans (List.map_id _)
  have hnumber : (toString n).toList ≠ [] := by
    simp [Nat.toDigits_ne_nil]
  have hunit' : unit.toList ≠ [] := fun h => hunit (String.toList_inj.1 h)
  unfold words
  rw [hlower, wordsFrom_append_space _ hnumber fun c hc => (hdigit c hc).1,
    wordsFrom_append_space _ hunit' fun c hc => (hplain c hc).1]
  have hago : wordsFrom [] "ago".toList = ["ago".toList] := by decide
  rw [hago]
  simp only [List.map_cons, List.map_nil, String.ofList_toList]

/-- The number of an age below 60 is read back. -/
theorem floatOfString_toString : ∀ n : ℕ, n < 60 →
    floatOfString (toString n) = some (.finite n) := by
  decide +kernel

/-! ### What the parser reads -/

/-- The text of the age begins with a number and names a unit up to days. -/
def ReadableAge (age : ℚ) : Prop :=
  (1 / 60 ≤ age ∧ age < 1) ∨ (2 ≤ age ∧ age < 60) ∨
    (2 ≤ roundedHours age ∧ roundedHours age < 336)

instance (age : ℚ) : Decidable (ReadableAge age) := inferInstanceAs (Decidable (_ ∨ _ ∨ _))

/-- The minutes that are read from the text of a readable age. -/
def readAge (age : ℚ) : ℚ :=
  if age < 1 then ⌊60 * age⌋₊ / 60
  else if age < 60 then ⌊age⌋₊
  else if roundedHours age < 48 then 60 * roundedHours age
  else 1440 * (roundedHours age / 24 : ℕ)

/-- The minutes in a unit the parser knows. -/
def unitMinutes (unit : String) : Option ℚ :=
  if hasText unit "second" then some (1 / 60)
  else if hasText unit "minute" then some 1
  else if hasText unit "hour" then some 60
  else if hasText unit "day" then some (60 * 24)
  else none

section Parse

variable {n : ℕ} {unit : String}

theorem parse_of_words {s : String} {rest : List String}
    (h : words (lower s) = toString n :: unit :: rest) :
    (unitMinutes unit = none → parseRunningMinutes s = none) ∧
      (n < 60 → ∀ minutes, unitMinutes unit = some minutes →
        parseRunningMinutes s = some (.finite (n * minutes))) := by
  unfold parseRunningMinutes unitMinutes
  rw [h]
  dsimp only
  constructor
  · intro hunit
    cases floatOfString (toString n) with
    | none => rfl
    | some value =>
      dsimp only
      split_ifs at hunit ⊢
      rfl
  · intro hn minutes hunit
    rw [floatOfString_toString n hn]
    dsimp only [PyFloat.scale]
    split_ifs at hunit ⊢ <;> obtain rfl := Option.some.inj hunit <;> simp

/-- A number below 60 of a known unit. -/
theorem parse_ageText {minutes : ℚ} (hn : n < 60)
    (hplain : isPlainWord unit = true) (hunit : unitMinutes unit = some minutes) :
    parseRunningMinutes (ageText n unit) = some (.finite (n * minutes)) := by
  have hne : unit ≠ "" := by
    rintro rfl
    have hnone : unitMinutes "" = none := by decide
    rw [hnone] at hunit
    cases hunit
  exact (parse_of_words (words_ageText hne hplain)).2 hn minutes hunit

/-! ### The ages of each unit -/

theorem roundedHours_lt_two {age : ℚ} (h : age < 60) : roundedHours age < 2 := by
  unfold roundedHours
  refine (Nat.floor_lt' two_ne_zero).2 ?_
  push_cast
  linarith

theorem le_of_two_le_roundedHours {age : ℚ} (h : 2 ≤ roundedHours age) : 60 ≤ age := by
  by_contra hlt
  exact absurd (roundedHours_lt_two (not_le.1 hlt)) (not_lt.2 h)

/-- Below an hour the rounded hours do not matter. -/
theorem readableAge_iff_of_lt {age : ℚ} (h : age < 60) :
    ReadableAge age ↔ (1 / 60 ≤ age ∧ age < 1) ∨ 2 ≤ age := by
  have hhours : ¬ (2 ≤ roundedHours age ∧ roundedHours age < 336) := fun h' =>
    absurd (roundedHours_lt_two h) (not_lt.2 h'.1)
  simp only [ReadableAge, hhours, h, and_true, or_false]

/-- From an hour on nothing else matters. -/
theorem readableAge_iff_of_le {age : ℚ} (h : 60 ≤ age) :
    ReadableAge age ↔ 2 ≤ roundedHours age ∧ roundedHours age < 336 := by
  have hfirst : ¬ (1 / 60 ≤ age ∧ age < 1) := fun h' => by linarith [h'.2]
  have hsecond : ¬ (2 ≤ age ∧ age < 60) := fun h' => by linarith [h'.2]
  simp only [ReadableAge, hfirst, hsecond, false_or]

variable (F : RunningFor)

theorem parse_text_of_lt {age : ℚ} (h : age < 60) : parseRunningMinutes (F.text age) =
    if ReadableAge age then some (.finite (readAge age)) else none := by
  simp only [readableAge_iff_of_lt h, readAge, if_pos h]
  rcases lt_or_ge age (1 / 60) with hmoment | hsecond
  · have hnone : ¬ ((1 / 60 ≤ age ∧ age < 1) ∨ 2 ≤ age) := by
      rintro (⟨h', -⟩ | h') <;> linarith
    rw [F.moment age hmoment, if_neg hnone]
    decide +kernel
  rcases lt_or_ge age 1 with hseconds | hone
  · obtain ⟨unit, hunit, htext⟩ := F.seconds age hsecond hseconds
    have hknown : ∀ unit ∈ ["second", "seconds"], unitMinutes unit = some (1 / 60) ∧
        isPlainWord unit = true := by decide +kernel
    have hn : ⌊60 * age⌋₊ < 60 := (Nat.floor_lt' (by norm_num)).2 (by push_cast; linarith)
    rw [htext, if_pos (Or.inl ⟨hsecond, hseconds⟩), if_pos hseconds,
      parse_ageText hn (hknown unit hunit).2 (hknown unit hunit).1, ← div_eq_mul_one_div]
  rw [if_neg (not_lt.2 hone)]
  rcases lt_or_ge age 2 with hminute | htwo
  · have hnone : ¬ ((1 / 60 ≤ age ∧ age < 1) ∨ 2 ≤ age) := by
      rintro (⟨-, h'⟩ | h') <;> linarith
    rw [F.minute age hone hminute, if_neg hnone]
    decide +kernel
  · have hn : ⌊age⌋₊ < 60 := (Nat.floor_lt' (by norm_num)).2 (by push_cast; linarith)
    rw [F.minutes age htwo h, if_pos (Or.inr htwo), parse_ageText hn (by decide)
      (show unitMinutes "minutes" = some 1 by decide +kernel), mul_one]

theorem parse_text_of_le {age : ℚ} (h : 60 ≤ age) : parseRunningMinutes (F.text age) =
    if ReadableAge age then some (.finite (readAge age)) else none := by
  have hage : ¬ age < 1 := by linarith
  simp only [readableAge_iff_of_le h, readAge, if_neg hage, if_neg (not_lt.2 h)]
  rcases lt_or_ge (roundedHours age) 2 with hone | htwo
  · rw [F.hour age h hone, if_neg fun h' => absurd h'.1 (not_le.2 hone)]
    decide +kernel
  rcases lt_or_ge (roundedHours age) 48 with hhours | hdays
  · rw [F.hours age htwo hhours, if_pos ⟨htwo, by omega⟩, if_pos hhours,
      parse_ageText (by omega) (by decide) (show unitMinutes "hours" = some 60 by decide +kernel),
      mul_comm]
  rcases lt_or_ge (roundedHours age) 336 with hweeks | hlater
  · rw [F.days age hdays hweeks, if_pos ⟨htwo, hweeks⟩, if_neg (not_lt.2 hdays),
      parse_ageText (by omega) (by decide)
        (show unitMinutes "days" = some 1440 by decide +kernel), mul_comm]
  · obtain ⟨n, unit, hunit, htext⟩ := F.later age hlater
    have hunknown : ∀ unit ∈ ["weeks", "months", "years"], unitMinutes unit = none ∧ unit ≠ "" ∧
        isPlainWord unit = true := by decide +kernel
    obtain ⟨hnone, hne, hplain⟩ := hunknown unit hunit
    rw [htext, if_neg fun h' => absurd h'.2 (not_lt.2 hlater)]
    exact (parse_of_words (words_ageText hne hplain)).1 hnone

/-- **What the parser reads** from the text of an age. -/
theorem parse_text (age : ℚ) : parseRunningMinutes (F.text age) =
    if ReadableAge age then some (.finite (readAge age)) else none :=
  (lt_or_ge age 60).elim (parse_text_of_lt F) (parse_text_of_le F)

end Parse

/-! ### Order -/

theorem roundedHours_mono {a b : ℚ} (h : a ≤ b) : roundedHours a ≤ roundedHours b := by
  unfold roundedHours
  exact Nat.floor_mono (by linarith)

/-- Below an hour nothing is rounded up. -/
theorem readAge_le {age : ℚ} (hzero : 0 ≤ age) (h : age < 60) : readAge age ≤ age := by
  unfold readAge
  split_ifs with hone
  · have hfloor := Nat.floor_le (show 0 ≤ 60 * age by linarith)
    linarith
  · exact Nat.floor_le hzero

/-- From an hour on a readable age is read as two hours or more. -/
theorem le_readAge {age : ℚ} (h : 60 ≤ age) (hread : ReadableAge age) : 120 ≤ readAge age := by
  obtain ⟨htwo, -⟩ := (readableAge_iff_of_le h).1 hread
  unfold readAge
  rw [if_neg (by linarith), if_neg (not_lt.2 h)]
  split_ifs with hhours
  · have hcast : (2 : ℚ) ≤ roundedHours age := by exact_mod_cast htwo
    linarith
  · have hdays : 2 ≤ roundedHours age / 24 := by omega
    have hcast : (2 : ℚ) ≤ (roundedHours age / 24 : ℕ) := by exact_mod_cast hdays
    linarith

theorem ReadableAge.nonneg {age : ℚ} (h : ReadableAge age) : 0 ≤ age := by
  rcases h with ⟨h, -⟩ | ⟨h, -⟩ | ⟨h, -⟩
  · linarith
  · linarith
  · linarith [le_of_two_le_roundedHours h]

/-- **Of two readable ages the greater is not read as less.** -/
theorem readAge_mono {a b : ℚ} (ha : ReadableAge a) (hb : ReadableAge b) (h : a ≤ b) :
    readAge a ≤ readAge b := by
  have hzero := ha.nonneg
  rcases lt_or_ge b 60 with hshort | hlong
  · rcases lt_or_ge b 1 with hb' | hb'
    · unfold readAge
      rw [if_pos hb', if_pos (h.trans_lt hb')]
      have hfloor : (⌊60 * a⌋₊ : ℚ) ≤ ⌊60 * b⌋₊ := by
        exact_mod_cast Nat.floor_mono (show 60 * a ≤ 60 * b by linarith)
      linarith
    rcases lt_or_ge a 1 with ha' | ha'
    · -- Seconds stay below the two minutes that `b` is read as, at least.
      have htwo : 2 ≤ b := by
        rcases (readableAge_iff_of_lt hshort).1 hb with ⟨-, h'⟩ | h' <;> linarith
      have hfloor : (2 : ℚ) ≤ ⌊b⌋₊ := by exact_mod_cast Nat.le_floor (by exact_mod_cast htwo)
      have hle := readAge_le hzero (by linarith)
      have hread : readAge b = ⌊b⌋₊ := by
        unfold readAge
        rw [if_neg (not_lt.2 hb'), if_pos hshort]
      linarith
    · unfold readAge
      rw [if_neg (not_lt.2 ha'), if_neg (not_lt.2 hb'), if_pos (h.trans_lt hshort), if_pos hshort]
      exact_mod_cast Nat.floor_mono h
  · have hbig := le_readAge hlong hb
    rcases lt_or_ge a 60 with ha' | ha'
    · linarith [readAge_le hzero ha']
    · have hmono := roundedHours_mono h
      unfold readAge
      rw [if_neg (by linarith : ¬ a < 1), if_neg (not_lt.2 ha'), if_neg (by linarith : ¬ b < 1),
        if_neg (not_lt.2 hlong)]
      split_ifs with hah hbh hbh
      · have hcast : (roundedHours a : ℚ) ≤ roundedHours b := by exact_mod_cast hmono
        linarith
      · have hdays : 60 * roundedHours a ≤ 1440 * (roundedHours b / 24) := by omega
        exact_mod_cast hdays
      · omega
      · have hdays : 1440 * (roundedHours a / 24) ≤ 1440 * (roundedHours b / 24) := by omega
        exact_mod_cast hdays

/-- The age is below the limit, and its text reaches it: rounded to whole hours, and from 48 of them
on cut off to whole days, it is the limit or more. -/
def RoundedPast (age : ℚ) (limit : ℤ) : Prop :=
  age < limit ∧ 2 ≤ roundedHours age ∧
    ((roundedHours age < 48 ∧ limit ≤ 60 * roundedHours age) ∨
      (48 ≤ roundedHours age ∧ roundedHours age < 336 ∧ limit ≤ 1440 * (roundedHours age / 24)))

instance (age : ℚ) (limit : ℤ) : Decidable (RoundedPast age limit) :=
  inferInstanceAs (Decidable (_ ∧ _ ∧ _))

/-- **Which ages below a limit are read as the limit or more.** -/
theorem readPast_iff {age : ℚ} {limit : ℤ} :
    (age < limit ∧ ReadableAge age ∧ limit ≤ readAge age) ↔ RoundedPast age limit := by
  have hlong : 2 ≤ roundedHours age → readAge age =
      if roundedHours age < 48 then (60 * roundedHours age : ℚ)
      else 1440 * (roundedHours age / 24 : ℕ) := fun htwo => by
    have hage := le_of_two_le_roundedHours htwo
    unfold readAge
    rw [if_neg (by linarith), if_neg (not_lt.2 hage)]
  have hdays : (limit : ℚ) ≤ 1440 * (roundedHours age / 24 : ℕ) ↔
      limit ≤ 1440 * (roundedHours age / 24) := by
    have hwhole : (roundedHours age : ℤ) / 24 = (roundedHours age / 24 : ℕ) := by omega
    rw [hwhole]
    generalize roundedHours age / 24 = count
    constructor <;> intro h <;> exact_mod_cast h
  constructor
  · rintro ⟨hlt, hread, hle⟩
    rcases lt_or_ge age 60 with hshort | hage
    · linarith [readAge_le hread.nonneg hshort]
    obtain ⟨htwo, hweeks⟩ := (readableAge_iff_of_le hage).1 hread
    rw [hlong htwo] at hle
    refine ⟨hlt, htwo, ?_⟩
    split_ifs at hle with hhours
    · exact Or.inl ⟨hhours, by exact_mod_cast hle⟩
    · exact Or.inr ⟨not_lt.1 hhours, hweeks, hdays.1 hle⟩
  · rintro ⟨hlt, htwo, hcase⟩
    have hread : roundedHours age < 336 := by
      rcases hcase with ⟨hhours, -⟩ | ⟨-, hweeks, -⟩
      · omega
      · exact hweeks
    refine ⟨hlt, Or.inr (Or.inr ⟨htwo, hread⟩), ?_⟩
    rw [hlong htwo]
    rcases hcase with ⟨hhours, hle⟩ | ⟨hmany, -, hle⟩
    · rw [if_pos hhours]
      exact_mod_cast hle
    · rw [if_neg (not_lt.2 hmany)]
      exact hdays.2 hle

/-! ### What Docker prints -/

/-- From an hour on. -/
def humanHours (age : ℚ) : String :=
  let hours := roundedHours age
  if hours < 2 then "About an hour ago"
  else if hours < 48 then ageText hours "hours"
  else if hours < 336 then ageText (hours / 24) "days"
  else if hours < 1440 then ageText (hours / 168) "weeks"
  else if hours < 17520 then ageText (hours / 720) "months"
  else ageText (⌊age / 60⌋₊ / 8760) "years"

/-- Docker's human-readable duration, and the word after it. -/
def humanAge (age : ℚ) : String :=
  if age < 1 / 60 then "Less than a second ago"
  else if age < 1 then ageText ⌊60 * age⌋₊ (if ⌊60 * age⌋₊ = 1 then "second" else "seconds")
  else if age < 2 then "About a minute ago"
  else if age < 60 then ageText ⌊age⌋₊ "minutes"
  else humanHours age

theorem humanAge_of_le {age : ℚ} (h : 60 ≤ age) : humanAge age = humanHours age := by
  unfold humanAge
  rw [if_neg (by linarith), if_neg (by linarith), if_neg (by linarith), if_neg (by linarith)]

/-- What Docker prints. -/
def dockerAges : RunningFor where
  text := humanAge
  moment := fun _ h => if_pos h
  seconds := fun age h h' => by
    refine ⟨_, ?_, by unfold humanAge; rw [if_neg (not_lt.2 h), if_pos h']⟩
    split_ifs <;> simp
  minute := fun age h h' => by
    unfold humanAge
    rw [if_neg (by linarith), if_neg (by linarith), if_pos h']
  minutes := fun age h h' => by
    unfold humanAge
    rw [if_neg (by linarith), if_neg (by linarith), if_neg (by linarith), if_pos h']
  hour := fun age h h' => (humanAge_of_le h).trans (if_pos h')
  hours := fun age h h' => by
    rw [humanAge_of_le (le_of_two_le_roundedHours h)]
    unfold humanHours
    dsimp only
    rw [if_neg (not_lt.2 h), if_pos h']
  days := fun age h h' => by
    rw [humanAge_of_le (le_of_two_le_roundedHours (by omega))]
    unfold humanHours
    dsimp only
    rw [if_neg (by omega), if_neg (not_lt.2 h), if_pos h']
  later := fun age h => by
    rw [humanAge_of_le (le_of_two_le_roundedHours (by omega))]
    unfold humanHours
    dsimp only
    rw [if_neg (by omega), if_neg (by omega), if_neg (not_lt.2 h)]
    split_ifs
    · exact ⟨_, "weeks", by decide, rfl⟩
    · exact ⟨_, "months", by decide, rfl⟩
    · exact ⟨_, "years", by decide, rfl⟩

end RunnerSwarm
