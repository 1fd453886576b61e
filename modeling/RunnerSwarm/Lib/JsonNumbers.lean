import RunnerSwarm.Lib.JsonText
import RunnerSwarm.Lib.Text

/-!
# Numbers in JSON text

`json.dumps` writes an integer by its digits and a float by its `repr`. Both are read back:

* `Numeral` is a number as the two sides of a point and a power of ten, and `Numeral.text` how it is
  written;
* `Numeral.readNumber_float` and `Numeral.readNumber_int`: a numeral is read as its value;
* `exists_numeral_repr`: `repr` of a positive float is the text of a numeral of its value;
* `readNumber_jsonText`: what is written for a number is read as the number.
-/

namespace RunnerSwarm

namespace JsonText

/-! ### Digits -/

/-- The number that digits denote. -/
def digitsValue (digits : List Char) : ℕ := Nat.ofDigitChars 10 digits 0

theorem digitsValue_append (front back : List Char) :
    digitsValue (front ++ back) = 10 ^ back.length * digitsValue front + digitsValue back := by
  unfold digitsValue
  rw [Nat.ofDigitChars_append, Nat.ofDigitChars_eq_ofDigitChars_zero]

theorem digitsValue_zeros (n : ℕ) : digitsValue (List.replicate n '0') = 0 := by
  unfold digitsValue
  rw [Nat.ofDigitChars_replicate_zero, Nat.mul_zero]

theorem digitsValue_toDigits (n : ℕ) : digitsValue (Nat.toDigits 10 n) = n :=
  Nat.ofDigitChars_ten_toDigits

theorem isDigit_zeros (n : ℕ) : ∀ c ∈ List.replicate n '0', c.isDigit = true := fun c hc => by
  rw [List.eq_of_mem_replicate hc]
  rfl

/-- No number but zero is written with a zero in front. -/
theorem head_toDigits {n : ℕ} (hn : n ≠ 0) : (Nat.toDigits 10 n).head? ≠ some '0' := by
  induction n using Nat.strong_induction_on with
  | _ n ih =>
    rcases lt_or_ge n 10 with hlt | hge
    · rw [Nat.toDigits_of_lt_base hlt]
      have hdigit : ∀ n < 10, n ≠ 0 → n.digitChar ≠ '0' := by decide
      simpa using hdigit n hlt hn
    · rw [Nat.toDigits_of_base_le (by norm_num) hge,
        List.head?_append_of_ne_nil _ Nat.toDigits_ne_nil]
      exact ih (n / 10) (by omega) (by omega)

theorem digitValue_of_isDigit {c : Char} (h : c.isDigit = true) :
    digitValue c = some (c.toNat - '0'.toNat) := by
  have hvalue : ∀ n < 58, 48 ≤ n →
      (decimalZeros.find? fun z => z ≤ n && n < z + 10).map (n - ·) = some (n - 48) := by decide
  have hrange := Char.isDigit_iff_toNat.1 h
  have hzero : '0'.toNat = 48 := rfl
  have hnine : '9'.toNat = 57 := rfl
  exact hvalue _ (by omega) (by omega)

/-- Digits are a digit part. -/
theorem digitPart_of_digits {digits : List Char} (hne : digits ≠ [])
    (h : ∀ c ∈ digits, c.isDigit = true) :
    digitPart digits = some (digits.map fun c => c.toNat - '0'.toNat) := by
  induction digits with
  | nil => exact absurd rfl hne
  | cons c digits ih =>
    obtain ⟨hc, hdigits⟩ := List.forall_mem_cons.1 h
    cases digits with
    | nil => simp [digitPart, digitValue_of_isDigit hc]
    | cons d digits =>
      have hd : d ≠ '_' := by
        rintro rfl
        exact absurd (hdigits '_' List.mem_cons_self) (by decide)
      rw [digitPart]
      · rw [digitValue_of_isDigit hc, ih (List.cons_ne_nil _ _) hdigits]
        rfl
      · exact List.cons_ne_nil _ _
      · rintro rest heq
        exact hd (List.cons.inj heq).1

theorem ofDigits_map (digits : List Char) :
    ofDigits (digits.map fun c => c.toNat - '0'.toNat) = digitsValue digits := by
  unfold ofDigits digitsValue
  rw [List.foldl_map, Nat.ofDigitChars_eq_foldl]

/-- A digit has one case. -/
theorem toLower_of_isDigit {c : Char} (h : c.isDigit = true) : c.toLower = c := by
  refine Char.toLower_eq_of_not_isUpper fun hupper => ?_
  have hrange := Char.isDigit_iff_toNat.1 h
  have hnine : '9'.toNat = 57 := rfl
  simp only [Char.isUpper, decide_eq_true_eq, UInt32.le_iff_toNat_le] at hupper
  have hletter : 65 ≤ c.toNat := hupper.1
  omega

/-- A text without spaces is not trimmed. -/
theorem stripChars_eq_self {text : List Char} (h : ∀ c ∈ text, isSpace c = false) :
    stripChars text = text :=
  trimEnds_eq_self_iff.2 ⟨fun c hc => h c (List.mem_of_mem_head? hc),
    fun c hc => h c (List.mem_of_getLast? hc)⟩

/-- A rest in which no number goes on. -/
def Stops (rest : List Char) : Prop :=
  ∀ c ∈ rest.head?, c.isDigit = false ∧ c ≠ '.' ∧ c ≠ 'e' ∧ c ≠ 'E'

theorem span_digits {digits rest : List Char} (h : ∀ c ∈ digits, c.isDigit = true)
    (hrest : ∀ c ∈ rest.head?, c.isDigit = false) :
    (digits ++ rest).span Char.isDigit = (digits, rest) := by
  rw [List.span_eq_takeWhile_dropWhile, List.takeWhile_append_of_pos h,
    List.dropWhile_append_of_pos h]
  cases rest with
  | nil => simp
  | cons c rest =>
    have hc := hrest c rfl
    rw [List.takeWhile_cons_of_neg (by simp [hc]), List.dropWhile_cons_of_neg (by simp [hc]),
      List.append_nil]

/-! ### Numerals -/

/-- A number: digits before and behind the point, and the power of ten. -/
structure Numeral where
  whole : List Char
  fraction : List Char
  exponent : Option (Bool × List Char)
  whole_ne : whole ≠ []
  whole_digits : ∀ c ∈ whole, c.isDigit = true
  /-- No zero stands in front of others. -/
  whole_starts : whole.head? = some '0' → whole = ['0']
  fraction_digits : ∀ c ∈ fraction, c.isDigit = true
  exponent_digits : ∀ e ∈ exponent, e.2 ≠ [] ∧ ∀ c ∈ e.2, c.isDigit = true

namespace Numeral

variable (n : Numeral)

/-- The point and what follows it. -/
def fractionText : List Char := if n.fraction = [] then [] else '.' :: n.fraction

def exponentText : List Char :=
  match n.exponent with
  | none => []
  | some (neg, digits) => 'e' :: (if neg then '-' else '+') :: digits

/-- How the number is written. -/
def text : List Char := n.whole ++ n.fractionText ++ n.exponentText

/-- The power of ten. -/
def power : ℤ :=
  match n.exponent with
  | none => 0
  | some (neg, digits) => if neg then -(digitsValue digits : ℤ) else digitsValue digits

/-- The number. -/
def value : ℚ :=
  (digitsValue (n.whole ++ n.fraction) : ℚ) / 10 ^ n.fraction.length * 10 ^ n.power

theorem exists_whole : ∃ d rest, n.whole = d :: rest ∧ d.isDigit = true := by
  obtain ⟨d, rest, hwhole⟩ := List.exists_cons_of_ne_nil n.whole_ne
  exact ⟨d, rest, hwhole, n.whole_digits d (hwhole ▸ List.mem_cons_self)⟩

/-- The characters of a numeral. -/
theorem mem_text {c : Char} (h : c ∈ n.text) : c.isDigit = true ∨ c ∈ ['.', 'e', '-', '+'] := by
  unfold text fractionText exponentText at h
  rcases List.mem_append.1 h with h | h
  · rcases List.mem_append.1 h with h | h
    · exact Or.inl (n.whole_digits c h)
    · split_ifs at h
      · cases h
      · rcases List.mem_cons.1 h with rfl | h
        · exact Or.inr (by decide)
        · exact Or.inl (n.fraction_digits c h)
  · rcases hexp : n.exponent with _ | ⟨neg, digits⟩
    · rw [hexp] at h
      cases h
    · rw [hexp] at h
      rcases List.mem_cons.1 h with rfl | h
      · exact Or.inr (by decide)
      · rcases List.mem_cons.1 h with rfl | h
        · exact Or.inr (by cases neg <;> decide)
        · exact Or.inl ((n.exponent_digits _ hexp).2 c h)

theorem not_space_of_mem_text {c : Char} (h : c ∈ n.text) : isSpace c = false := by
  rcases n.mem_text h with h | h
  · have hrange := Char.isDigit_iff_toNat.1 h
    have hzero : '0'.toNat = 48 := rfl
    have hnine : '9'.toNat = 57 := rfl
    simp only [isSpace]
    grind
  · simp only [List.mem_cons, List.not_mem_nil, or_false] at h
    rcases h with rfl | rfl | rfl | rfl <;> rfl

/-- The two sides of the point. -/
theorem mantissa_text : mantissa (n.whole ++ n.fractionText) =
    some (n.whole.map (fun c => c.toNat - '0'.toNat),
      n.fraction.map fun c => c.toNat - '0'.toNat) := by
  have hpoint : ∀ c ∈ n.whole, decide (c ≠ '.') = true := fun c hc => decide_eq_true fun heq =>
    absurd (n.whole_digits c hc) (by rw [heq]; decide)
  have hwhole := digitPart_of_digits n.whole_ne n.whole_digits
  unfold mantissa fractionText
  split_ifs with hnone
  · rw [List.append_nil, List.span_eq_takeWhile_dropWhile, List.takeWhile_eq_self_iff.2 hpoint,
      List.dropWhile_eq_nil_iff.2 hpoint]
    dsimp only
    rw [hwhole, hnone]
    rfl
  · have hspan : (n.whole ++ '.' :: n.fraction).span (· ≠ '.') =
        (n.whole, '.' :: n.fraction) := by
      rw [List.span_eq_takeWhile_dropWhile, List.takeWhile_append_of_pos hpoint,
        List.dropWhile_append_of_pos hpoint, List.takeWhile_cons_of_neg (by decide),
        List.dropWhile_cons_of_neg (by decide), List.append_nil]
    obtain ⟨d, rest, hcons, -⟩ := n.exists_whole
    obtain ⟨f, more, hfraction⟩ := List.exists_cons_of_ne_nil hnone
    have hback := digitPart_of_digits hnone n.fraction_digits
    rw [hspan]
    rw [hcons] at hwhole ⊢
    rw [hfraction] at hback ⊢
    dsimp only
    rw [hwhole, hback]
    rfl

/-- **The value of the text.** -/
theorem decimalValue_text : decimalValue n.text = some n.value := by
  have hplain : ∀ c ∈ n.whole ++ n.fractionText, decide (c ≠ 'e' ∧ c ≠ 'E') = true := by
    intro c hc
    refine decide_eq_true ?_
    have hdigit : c.isDigit = true ∨ c = '.' := by
      rcases List.mem_append.1 hc with hc | hc
      · exact Or.inl (n.whole_digits c hc)
      · unfold fractionText at hc
        split_ifs at hc
        · cases hc
        · rcases List.mem_cons.1 hc with rfl | hc
          · exact Or.inr rfl
          · exact Or.inl (n.fraction_digits c hc)
    rcases hdigit with hdigit | rfl
    · constructor <;> rintro rfl <;> exact absurd hdigit (by decide)
    · decide
  have hvalue : ofDigits (n.whole.map (fun c => c.toNat - '0'.toNat) ++
      n.fraction.map fun c => c.toNat - '0'.toNat) = digitsValue (n.whole ++ n.fraction) := by
    rw [← List.map_append, ofDigits_map]
  unfold decimalValue text value power exponentText
  rcases hexp : n.exponent with _ | ⟨neg, digits⟩
  · dsimp only
    rw [List.append_nil, List.span_eq_takeWhile_dropWhile, List.takeWhile_eq_self_iff.2 hplain,
      List.dropWhile_eq_nil_iff.2 hplain]
    dsimp only
    rw [n.mantissa_text, Option.map_some]
    dsimp only
    rw [hvalue, List.length_map, zpow_zero, mul_one]
  · obtain ⟨hne, hdigits⟩ := n.exponent_digits _ hexp
    have hspan : ((n.whole ++ n.fractionText) ++ 'e' :: (if neg then '-' else '+') :: digits).span
        (fun c => c ≠ 'e' ∧ c ≠ 'E') =
          (n.whole ++ n.fractionText, 'e' :: (if neg then '-' else '+') :: digits) := by
      rw [List.span_eq_takeWhile_dropWhile, List.takeWhile_append_of_pos hplain,
        List.dropWhile_append_of_pos hplain, List.takeWhile_cons_of_neg (by decide),
        List.dropWhile_cons_of_neg (by decide), List.append_nil]
    have hpower : RunnerSwarm.exponent ((if neg then '-' else '+') :: digits) =
        some (if neg then -(digitsValue digits : ℤ) else digitsValue digits) := by
      unfold RunnerSwarm.exponent
      cases neg
      · simp only [Bool.false_eq_true, if_false, splitSign]
        rw [digitPart_of_digits hne hdigits, Option.map_some, ofDigits_map]
      · simp only [if_true, splitSign]
        rw [digitPart_of_digits hne hdigits, Option.map_some, ofDigits_map]
    dsimp only
    rw [hspan]
    dsimp only
    rw [n.mantissa_text, hpower]
    dsimp only [Option.bind_eq_bind, Option.bind_some]
    rw [hvalue, List.length_map]
    rfl

theorem exists_text : ∃ d rest, n.text = d :: rest ∧ d.isDigit = true := by
  obtain ⟨d, rest, hwhole, hdigit⟩ := n.exists_whole
  refine ⟨d, rest ++ n.fractionText ++ n.exponentText, ?_, hdigit⟩
  rw [text, hwhole]
  rfl

/-- The text behind a sign, or none. -/
def signed (neg : Bool) : List Char := (if neg then ['-'] else []) ++ n.text

theorem stripChars_signed (neg : Bool) : stripChars (n.signed neg) = n.signed neg := by
  refine stripChars_eq_self fun c hc => ?_
  rcases List.mem_append.1 hc with hc | hc
  · cases neg
    · cases hc
    · obtain rfl := List.mem_singleton.1 hc
      rfl
  · exact n.not_space_of_mem_text hc

theorem splitSign_signed (neg : Bool) : splitSign (n.signed neg) = (neg, n.text) := by
  cases neg
  · obtain ⟨d, rest, htext, hdigit⟩ := n.exists_text
    have hplain : n.signed false = n.text := rfl
    rw [hplain, htext]
    unfold splitSign
    split
    · next heq =>
      rw [(List.cons.inj heq).1] at hdigit
      exact absurd hdigit (by decide)
    · next heq =>
      rw [(List.cons.inj heq).1] at hdigit
      exact absurd hdigit (by decide)
    · rfl
  · rfl

/-- The text, behind a sign or none, is no word for a special value. -/
theorem floatOfString_signed (neg : Bool) : floatOfString (String.ofList (n.signed neg)) =
    some (roundFloat (if neg then -n.value else n.value)) := by
  obtain ⟨d, rest, htext, hdigit⟩ := n.exists_text
  have hword : ∀ c more, c.isDigit = false →
      String.ofList (n.text.map Char.toLower) ≠ String.ofList (c :: more) := by
    intro c more hc heq
    rw [String.ofList_inj, htext, List.map_cons] at heq
    rw [← (List.cons.inj heq).1, toLower_of_isDigit hdigit, hdigit] at hc
    cases hc
  have hinf : String.ofList (n.text.map Char.toLower) ≠ "inf" := hword 'i' ['n', 'f'] rfl
  have hinfinity : String.ofList (n.text.map Char.toLower) ≠ "infinity" :=
    hword 'i' ['n', 'f', 'i', 'n', 'i', 't', 'y'] rfl
  have hnan : String.ofList (n.text.map Char.toLower) ≠ "nan" := hword 'n' ['a', 'n'] rfl
  unfold floatOfString
  rw [String.toList_ofList, n.stripChars_signed, n.splitSign_signed]
  dsimp only
  rw [if_neg (not_or.2 ⟨hinf, hinfinity⟩), if_neg hnan, n.decimalValue_text, Option.map_some]

/-! ### Reading a numeral -/

theorem readMinus_signed (neg : Bool) (rest : List Char) :
    readMinus (n.signed neg ++ rest) = (if neg then ['-'] else [], n.text ++ rest) := by
  cases neg
  · obtain ⟨d, tail, htext, hdigit⟩ := n.exists_text
    have hplain : n.signed false = n.text := rfl
    rw [hplain, htext, List.cons_append]
    unfold readMinus
    split
    · next heq =>
      rw [(List.cons.inj heq).1] at hdigit
      exact absurd hdigit (by decide)
    · rfl
  · rfl

/-- What follows the digits before the point. -/
theorem head_after_whole {rest : List Char} (h : Stops rest) :
    ∀ c ∈ (n.fractionText ++ (n.exponentText ++ rest)).head?, c.isDigit = false := by
  intro c hc
  unfold fractionText exponentText at hc
  split_ifs at hc
  · rw [List.nil_append] at hc
    rcases hexp : n.exponent with _ | ⟨neg, digits⟩
    · rw [hexp] at hc
      exact (h c hc).1
    · rw [hexp] at hc
      obtain rfl := Option.some.inj hc
      rfl
  · obtain rfl := Option.some.inj hc
    rfl

theorem readWhole_text {rest : List Char} (h : Stops rest) :
    readWhole (n.whole ++ (n.fractionText ++ (n.exponentText ++ rest))) =
      (n.whole, n.fractionText ++ (n.exponentText ++ rest)) := by
  obtain ⟨d, tail, hwhole, -⟩ := n.exists_whole
  have hspan := span_digits n.whole_digits (n.head_after_whole h)
  by_cases hzero : d = '0'
  · have hone := n.whole_starts (by rw [hwhole, hzero]; rfl)
    rw [hone]
    rfl
  · rw [hwhole] at hspan ⊢
    rw [List.cons_append] at hspan ⊢
    unfold readWhole
    split
    · next heq => exact absurd (List.cons.inj heq).1 hzero
    · exact hspan

theorem readFraction_text {rest : List Char} (h : Stops rest) :
    readFraction (n.fractionText ++ (n.exponentText ++ rest)) =
      (n.fractionText, n.exponentText ++ rest) := by
  have hafter : ∀ c ∈ (n.exponentText ++ rest).head?, c.isDigit = false ∧ c ≠ '.' := by
    intro c hc
    unfold exponentText at hc
    rcases hexp : n.exponent with _ | ⟨neg, digits⟩
    · rw [hexp] at hc
      exact ⟨(h c hc).1, (h c hc).2.1⟩
    · rw [hexp] at hc
      obtain rfl := Option.some.inj hc
      decide
  unfold fractionText
  split_ifs with hnone
  · rw [List.nil_append]
    unfold readFraction
    split
    · next heq => exact absurd rfl (hafter '.' (by rw [heq]; rfl)).2
    · rfl
  · have hspan := span_digits n.fraction_digits fun c hc => (hafter c hc).1
    rw [List.cons_append]
    simp only [readFraction, hspan, if_neg hnone]

theorem readExponent_text {rest : List Char} (h : Stops rest) :
    readExponent (n.exponentText ++ rest) = (n.exponentText, rest) := by
  unfold exponentText
  rcases hexp : n.exponent with _ | ⟨neg, digits⟩
  · dsimp only
    rw [List.nil_append]
    cases rest with
    | nil => rfl
    | cons c rest =>
      obtain ⟨-, -, hlow, hhigh⟩ := h c rfl
      unfold readExponent
      dsimp only
      rw [if_neg fun hc => (hc.1.elim hlow hhigh)]
  · obtain ⟨hne, hdigits⟩ := n.exponent_digits _ hexp
    have hsign : readSign (((if neg then '-' else '+') :: digits) ++ rest) =
        ([if neg then '-' else '+'], digits ++ rest) := by
      cases neg <;> rfl
    dsimp only
    rw [List.cons_append]
    unfold readExponent
    dsimp only
    rw [hsign]
    dsimp only
    rw [span_digits hdigits fun c hc => (h c hc).1]
    dsimp only
    rw [if_pos ⟨Or.inl rfl, hne⟩]
    rfl

/-- The parts in which a numeral is read. -/
theorem readNumber_signed (neg : Bool) {rest : List Char} (h : Stops rest) :
    readNumber (n.signed neg ++ rest) =
      (numberOf (n.signed neg) (n.fractionText = [] && n.exponentText = [])).elim
        (.error .malformed) fun x => .ok (x, rest) := by
  have hsplit : n.text ++ rest = n.whole ++ (n.fractionText ++ (n.exponentText ++ rest)) := by
    simp only [text, List.append_assoc]
  have hshown : (if neg then ['-'] else []) ++ n.whole ++ n.fractionText ++ n.exponentText =
      n.signed neg := by
    simp only [signed, text, List.append_assoc]
  unfold readNumber
  rw [n.readMinus_signed, hsplit]
  dsimp only
  rw [n.readWhole_text h]
  dsimp only
  rw [if_neg n.whole_ne, n.readFraction_text h]
  dsimp only
  rw [n.readExponent_text h]
  dsimp only
  rw [hshown]

/-- **A numeral with a fraction or an exponent is read as its value.** -/
theorem readNumber_float (neg : Bool) {rest : List Char} (h : Stops rest)
    (hfloat : n.fraction ≠ [] ∨ n.exponent ≠ none) :
    readNumber (n.signed neg ++ rest) =
      .ok (.float (roundFloat (if neg then -n.value else n.value)), rest) := by
  have hparts : (decide (n.fractionText = []) && decide (n.exponentText = [])) = false := by
    rw [Bool.and_eq_false_iff, decide_eq_false_iff_not, decide_eq_false_iff_not]
    rcases hfloat with hne | hne
    · left
      rw [fractionText, if_neg hne]
      exact List.cons_ne_nil _ _
    · right
      obtain ⟨e, he⟩ := Option.ne_none_iff_exists'.1 hne
      rw [exponentText, he]
      exact List.cons_ne_nil _ _
  rw [n.readNumber_signed neg h, hparts, numberOf, if_neg Bool.false_ne_true,
    n.floatOfString_signed]
  rfl

/-- The numeral of a natural number. -/
def ofNat (n : ℕ) : Numeral where
  whole := Nat.toDigits 10 n
  fraction := []
  exponent := none
  whole_ne := Nat.toDigits_ne_nil
  whole_digits := Exposition.isDigit_toDigits
  whole_starts h := by
    rcases eq_or_ne n 0 with rfl | hn
    · rfl
    · exact absurd h (head_toDigits hn)
  fraction_digits := fun _ h => absurd h List.not_mem_nil
  exponent_digits := fun _ h => by cases h

theorem text_ofNat (n : ℕ) : (ofNat n).text = Nat.toDigits 10 n := by
  simp [text, fractionText, exponentText, ofNat]

/-- How an integer is written. -/
theorem toList_toString (n : ℤ) :
    (toString n).toList = (ofNat n.natAbs).signed (decide (n < 0)) := by
  rw [signed, text_ofNat]
  cases n with
  | ofNat n => exact Exposition.intText_natCast n
  | negSucc n =>
    rw [decide_eq_true (Int.negSucc_lt_zero n), if_pos rfl]
    exact Exposition.intText_negSucc n

/-- **An integer is read back**, when it has not too many digits. -/
theorem readNumber_int {n : ℤ} {rest : List Char} (h : Stops rest)
    (hlimit : (toString n.natAbs).length ≤ maxStrDigits) :
    readNumber ((toString n).toList ++ rest) = .ok (.int n, rest) := by
  have hlength : (Nat.toDigits 10 n.natAbs).length ≤ maxStrDigits := by
    have hlist : (toString n.natAbs).length = (Nat.toDigits 10 n.natAbs).length := by
      rw [← String.length_toList]
      simp [Nat.repr]
    omega
  have hread : intOfString (String.ofList ((ofNat n.natAbs).signed (decide (n < 0)))) = some n := by
    have hdigits := digitPart_of_digits (Nat.toDigits_ne_nil (b := 10) (n := n.natAbs))
      Exposition.isDigit_toDigits
    unfold intOfString
    rw [String.toList_ofList, stripChars_signed, splitSign_signed, text_ofNat]
    dsimp only
    rw [hdigits]
    dsimp only
    rw [List.length_map, if_neg (not_lt.2 hlength), ofDigits_map, digitsValue_toDigits]
    congr 1
    rcases lt_or_ge n 0 with hneg | hpos
    · rw [decide_eq_true hneg, if_pos rfl]
      omega
    · rw [decide_eq_false (not_lt.2 hpos), if_neg Bool.false_ne_true]
      omega
  have hwhole : (decide ((ofNat n.natAbs).fractionText = []) &&
      decide ((ofNat n.natAbs).exponentText = [])) = true := rfl
  rw [toList_toString, readNumber_signed _ _ h, hwhole, numberOf, if_pos rfl, hread]
  rfl

end Numeral

/-! ### Floats -/

/-- A float that text can denote: of fewer than 400 decimals, and not as large as to be infinite. -/
def IsDecimal : PyFloat → Prop
  | .finite q => (∃ k < 400, (q * 10 ^ k).den = 1) ∧ |q| < floatOverflow
  | _ => True

/-- The decimals write the number exactly. -/
theorem decimals_spec {q : ℚ} (h : ∃ k < 400, (q * 10 ^ k).den = 1) :
    (q * 10 ^ decimals q).den = 1 := by
  obtain ⟨k, hk, hden⟩ := h
  obtain ⟨found, hfound⟩ : ∃ found,
      (List.range 400).find? (fun k => (q * 10 ^ k).den == 1) = some found := by
    refine Option.isSome_iff_exists.1 (List.find?_isSome.2 ⟨k, List.mem_range.2 hk, ?_⟩)
    simp [hden]
  have hspec := List.find?_some hfound
  unfold decimals
  rw [hfound]
  simpa using hspec

/-- The digits of a positive number, the zeros at their end apart. -/
theorem exists_digits {m : ℕ} (hm : m ≠ 0) : ∃ digits : List Char, ∃ zeros : ℕ,
    (toString m).toList.rdropWhile (· = '0') = digits ∧
      (toString m).toList.length = digits.length + zeros ∧ digits ≠ [] ∧
      (∀ c ∈ digits, c.isDigit = true) ∧ digits.head? ≠ some '0' ∧
      m = 10 ^ zeros * digitsValue digits := by
  have hshown : (toString m).toList = Nat.toDigits 10 m := by simp [Nat.repr]
  rw [hshown]
  have hzeros : (Nat.toDigits 10 m).rtakeWhile (· = '0') =
      List.replicate ((Nat.toDigits 10 m).rtakeWhile (· = '0')).length '0' :=
    List.eq_replicate_of_mem fun c hc => by
      simpa using List.mem_rtakeWhile_imp hc
  have hsplit := List.rdropWhile_append_rtakeWhile (p := (· = '0')) (l := Nat.toDigits 10 m)
  have hhead := head_toDigits hm
  have hvalue := digitsValue_toDigits m
  have hdigit : ∀ c ∈ (Nat.toDigits 10 m).rdropWhile (· = '0'), c.isDigit = true := fun c hc =>
    Exposition.isDigit_toDigits c ((List.rdropWhile_prefix _ _).subset hc)
  generalize (Nat.toDigits 10 m).rdropWhile (· = '0') = digits at hsplit hdigit ⊢
  generalize ((Nat.toDigits 10 m).rtakeWhile (· = '0')).length = zeros at hzeros
  rw [hzeros] at hsplit
  rw [← hsplit] at hhead hvalue ⊢
  rw [digitsValue_append, digitsValue_zeros, List.length_replicate, Nat.add_zero] at hvalue
  have hne : digits ≠ [] := by
    rintro rfl
    exact hm (by rw [← hvalue]; simp [digitsValue])
  rw [List.head?_append_of_ne_nil _ hne] at hhead
  exact ⟨digits, zeros, rfl, by rw [List.length_append, List.length_replicate], hne, hdigit, hhead,
    hvalue.symm⟩

/-- A positive decimal number is its digits and a power of ten. -/
theorem eq_digitsValue_mul {q : ℚ} (hq : 0 < q) (h : ∃ k < 400, (q * 10 ^ k).den = 1) :
    (q * 10 ^ decimals q).num.toNat ≠ 0 ∧
      q = ((q * 10 ^ decimals q).num.toNat : ℚ) * 10 ^ (-(decimals q : ℤ)) := by
  have hden := decimals_spec h
  have hpos : 0 < q * 10 ^ decimals q := by positivity
  have hnum : (((q * 10 ^ decimals q).num.toNat : ℕ) : ℚ) = q * 10 ^ decimals q := by
    have hint : (((q * 10 ^ decimals q).num.toNat : ℕ) : ℤ) = (q * 10 ^ decimals q).num :=
      Int.toNat_of_nonneg (Rat.num_pos.2 hpos).le
    have hself := Rat.coe_int_num_of_den_eq_one hden
    rw [← hint] at hself
    exact_mod_cast hself
  constructor
  · intro hzero
    rw [hzero, Nat.cast_zero] at hnum
    exact absurd hnum hpos.ne
  · rw [hnum, zpow_neg, zpow_natCast, mul_assoc, mul_inv_cancel₀ (by positivity), mul_one]

/-- The digits of an exponent, at least two. -/
def exponentDigits (e : ℕ) : List Char :=
  if (toString e).toList.length < 2 then '0' :: (toString e).toList else (toString e).toList

theorem exponentDigits_spec (e : ℕ) : exponentDigits e ≠ [] ∧
    (∀ c ∈ exponentDigits e, c.isDigit = true) ∧ digitsValue (exponentDigits e) = e := by
  have hshown : (toString e).toList = Nat.toDigits 10 e := by simp [Nat.repr]
  have hdigits : ∀ c ∈ Nat.toDigits 10 e, c.isDigit = true := Exposition.isDigit_toDigits
  unfold exponentDigits
  rw [hshown]
  split_ifs
  · refine ⟨List.cons_ne_nil _ _, List.forall_mem_cons.2 ⟨rfl, hdigits⟩, ?_⟩
    have hzero := digitsValue_append ['0'] (Nat.toDigits 10 e)
    have hone : digitsValue ['0'] = 0 := digitsValue_zeros 1
    rw [hone, mul_zero, zero_add, digitsValue_toDigits] at hzero
    exact hzero
  · exact ⟨Nat.toDigits_ne_nil, hdigits, digitsValue_toDigits e⟩

section Forms

variable {digits : List Char} (h : ∀ c ∈ digits, c.isDigit = true)

include h

/-- The exponent form. -/
theorem exists_exponentForm (hne : digits ≠ []) (e : ℤ) : ∃ n : Numeral, n.exponent ≠ none ∧
    n.text = digits.take 1 ++ (if digits.length ≤ 1 then [] else '.' :: digits.drop 1) ++
      ['e', if e < 0 then '-' else '+'] ++ exponentDigits e.natAbs ∧
    n.value = digitsValue digits * 10 ^ (e + 1 - digits.length) := by
  obtain ⟨hexp, hexp', hpower⟩ := exponentDigits_spec e.natAbs
  obtain ⟨d, more, rfl⟩ := List.exists_cons_of_ne_nil hne
  obtain ⟨hd, hmore⟩ := List.forall_mem_cons.1 h
  refine ⟨{ whole := [d], fraction := more
            exponent := some (decide (e < 0), exponentDigits e.natAbs)
            whole_ne := List.cons_ne_nil _ _
            whole_digits := by simpa using hd
            whole_starts := fun heq => by rw [Option.some.inj heq]
            fraction_digits := hmore
            exponent_digits := fun x hx => Option.some.inj hx ▸ ⟨hexp, hexp'⟩ },
    by simp, ?_, ?_⟩
  · cases more <;> simp [Numeral.text, Numeral.fractionText, Numeral.exponentText]
  · have hsign : (if decide (e < 0) = true then -(e.natAbs : ℤ) else e.natAbs) = e := by
      split_ifs with hneg
      · rw [decide_eq_true_eq] at hneg
        omega
      · rw [decide_eq_true_eq] at hneg
        omega
    have hlength : e + 1 - ((d :: more).length : ℤ) = -(more.length : ℤ) + e := by
      rw [List.length_cons]
      push_cast
      ring
    simp only [Numeral.value, Numeral.power, hpower, hsign]
    rw [hlength, zpow_add₀ (by norm_num), zpow_neg, zpow_natCast, ← mul_assoc, div_eq_mul_inv]
    rfl

/-- A number below one. -/
theorem exists_smallForm (hne : digits ≠ []) (zeros : ℕ) : ∃ n : Numeral, n.fraction ≠ [] ∧
    n.text = "0.".toList ++ List.replicate zeros '0' ++ digits ∧
    n.value = digitsValue digits * 10 ^ (-(zeros : ℤ) - digits.length) := by
  refine ⟨{ whole := ['0'], fraction := List.replicate zeros '0' ++ digits, exponent := none
            whole_ne := List.cons_ne_nil _ _
            whole_digits := by simp
            whole_starts := fun _ => rfl
            fraction_digits := List.forall_mem_append.2 ⟨isDigit_zeros zeros, h⟩
            exponent_digits := fun x hx => by cases hx }, by simp [hne], ?_, ?_⟩
  · simp [Numeral.text, Numeral.fractionText, Numeral.exponentText, hne]
  · have hzeros : digitsValue (['0'] ++ (List.replicate zeros '0' ++ digits)) =
        digitsValue digits := by
      rw [← List.append_assoc, digitsValue_append]
      have hone := digitsValue_zeros (zeros + 1)
      rw [List.replicate_succ] at hone
      rw [List.singleton_append, hone, mul_zero, zero_add]
    have hpower : -(zeros : ℤ) - digits.length = -((zeros + digits.length : ℕ) : ℤ) := by
      push_cast
      ring
    simp only [Numeral.value, Numeral.power, zpow_zero, mul_one, hzeros, List.length_append,
      List.length_replicate]
    rw [hpower, zpow_neg, zpow_natCast, div_eq_mul_inv]

/-- An integer. -/
theorem exists_integerForm (hne : digits ≠ []) (hhead : digits.head? ≠ some '0') (zeros : ℕ) :
    ∃ n : Numeral, n.fraction ≠ [] ∧
      n.text = digits ++ List.replicate zeros '0' ++ ".0".toList ∧
      n.value = digitsValue digits * 10 ^ (zeros : ℤ) := by
  refine ⟨{ whole := digits ++ List.replicate zeros '0', fraction := ['0'], exponent := none
            whole_ne := List.append_ne_nil_of_left_ne_nil hne _
            whole_digits := List.forall_mem_append.2 ⟨h, isDigit_zeros zeros⟩
            whole_starts := fun heq => by
              rw [List.head?_append_of_ne_nil _ hne] at heq
              exact absurd heq hhead
            fraction_digits := by simp
            exponent_digits := fun x hx => by cases hx }, by simp, ?_, ?_⟩
  · simp [Numeral.text, Numeral.fractionText, Numeral.exponentText]
  · have hzeros : digitsValue (digits ++ List.replicate zeros '0' ++ ['0']) =
        10 ^ (zeros + 1) * digitsValue digits := by
      rw [List.append_assoc, digitsValue_append, ← List.replicate_succ', digitsValue_zeros,
        List.length_replicate, add_zero]
    simp only [Numeral.value, Numeral.power, zpow_zero, mul_one, hzeros, List.length_singleton]
    rw [zpow_natCast, pow_succ]
    push_cast
    ring

/-- A point between the digits. -/
theorem exists_pointForm (hhead : digits.head? ≠ some '0') {point : ℕ} (hpos : 0 < point)
    (hlt : point < digits.length) : ∃ n : Numeral, n.fraction ≠ [] ∧
      n.text = digits.take point ++ '.' :: digits.drop point ∧
      n.value = digitsValue digits * 10 ^ ((point : ℤ) - digits.length) := by
  have hback : digits.drop point ≠ [] := by
    rw [Ne, List.drop_eq_nil_iff]
    omega
  have hfront : digits.take point ≠ [] := by
    rw [Ne, List.take_eq_nil_iff]
    rintro (rfl | rfl)
    · omega
    · exact absurd hlt (Nat.not_lt_zero _)
  refine ⟨{ whole := digits.take point, fraction := digits.drop point, exponent := none
            whole_ne := hfront
            whole_digits := fun c hc => h c (List.mem_of_mem_take hc)
            whole_starts := fun heq => by
              rw [List.head?_take, if_neg hpos.ne'] at heq
              exact absurd heq hhead
            fraction_digits := fun c hc => h c (List.mem_of_mem_drop hc)
            exponent_digits := fun x hx => by cases hx }, hback, ?_, ?_⟩
  · simp [Numeral.text, Numeral.fractionText, Numeral.exponentText, hback]
  · have hpower : (point : ℤ) - digits.length = -((digits.length - point : ℕ) : ℤ) := by
      omega
    simp only [Numeral.value, Numeral.power, zpow_zero, mul_one, List.take_append_drop,
      List.length_drop]
    rw [hpower, zpow_neg, zpow_natCast, div_eq_mul_inv]

end Forms

/-- **`repr` of a positive float is the text of a numeral of its value**, in each of its forms. -/
theorem exists_numeral_repr {q : ℚ} (hq : 0 < q) (h : ∃ k < 400, (q * 10 ^ k).den = 1) :
    ∃ n : Numeral, (n.fraction ≠ [] ∨ n.exponent ≠ none) ∧
      (reprPositive q).toList = n.text ∧ n.value = q := by
  obtain ⟨hm, hvalue⟩ := eq_digitsValue_mul hq h
  obtain ⟨digits, zeros, hdigits, hlength, hne, hdigit, hhead, hshown⟩ := exists_digits hm
  have hq' : q = digitsValue digits * 10 ^ ((zeros : ℤ) - decimals q) := by
    rw [hshown, Nat.cast_mul, Nat.cast_pow, mul_comm ((_ : ℚ) ^ zeros) _, mul_assoc] at hvalue
    rw [sub_eq_add_neg, zpow_add₀ (by norm_num), zpow_natCast]
    exact hvalue
  have hpoint : ((digits.length + zeros : ℕ) : ℤ) - decimals q =
      digits.length + ((zeros : ℤ) - decimals q) := by
    push_cast
    ring
  have hreverse : ((toString (q * 10 ^ decimals q).num.toNat).toList.reverse.dropWhile
      (· = '0')).reverse = digits := hdigits
  unfold reprPositive
  dsimp only
  rw [hreverse, hlength, hpoint]
  generalize (zeros : ℤ) - decimals q = shift at hq'
  by_cases hform : (digits.length : ℤ) + shift ≤ -4 ∨ 16 < (digits.length : ℤ) + shift
  · obtain ⟨n, hexp, htext, hn⟩ :=
      exists_exponentForm hdigit hne ((digits.length : ℤ) + shift - 1)
    have hpower : (digits.length : ℤ) + shift - 1 + 1 - digits.length = shift := by ring
    refine ⟨n, Or.inr hexp, ?_, by rw [hn, hpower, ← hq']⟩
    rw [if_pos hform, String.toList_ofList, htext]
    rfl
  rw [if_neg hform]
  by_cases hsmall : (digits.length : ℤ) + shift ≤ 0
  · obtain ⟨n, hfraction, htext, hn⟩ :=
      exists_smallForm hdigit hne ((digits.length : ℤ) + shift).natAbs
    have hpower : -(((digits.length : ℤ) + shift).natAbs : ℤ) - digits.length = shift := by omega
    refine ⟨n, Or.inl hfraction, ?_, by rw [hn, hpower, ← hq']⟩
    rw [if_pos hsmall, String.toList_ofList, htext]
  rw [if_neg hsmall]
  by_cases hlarge : digits.length ≤ ((digits.length : ℤ) + shift).toNat
  · obtain ⟨n, hfraction, htext, hn⟩ := exists_integerForm hdigit hne hhead
      (((digits.length : ℤ) + shift).toNat - digits.length)
    have hpower : (((((digits.length : ℤ) + shift).toNat - digits.length : ℕ)) : ℤ) = shift := by
      omega
    refine ⟨n, Or.inl hfraction, ?_, by rw [hn, hpower, ← hq']⟩
    rw [if_pos hlarge, String.toList_ofList, htext]
  · obtain ⟨n, hfraction, htext, hn⟩ := exists_pointForm hdigit hhead
      (show 0 < ((digits.length : ℤ) + shift).toNat by omega) (by omega)
    have hpower : ((((digits.length : ℤ) + shift).toNat : ℕ) : ℤ) - digits.length = shift := by
      omega
    refine ⟨n, Or.inl hfraction, ?_, by rw [hn, hpower, ← hq']⟩
    rw [if_neg hlarge, String.toList_ofList, htext]

/-- A finite float that is no overflow. -/
theorem roundFloat_eq {q : ℚ} (h : |q| < floatOverflow) : roundFloat q = .finite q := by
  obtain ⟨hlow, hhigh⟩ := abs_lt.1 h
  unfold roundFloat
  rw [if_neg (not_le.2 hhigh), if_neg (not_le.2 hlow)]

theorem toList_append_neg (s : String) : ("-" ++ s).toList = '-' :: s.toList := by
  rw [String.toList_append]
  rfl

/-- **A float is read back**, when it is neither infinite nor no number. -/
theorem readNumber_repr {q : ℚ} (hq : IsDecimal (.finite q)) {rest : List Char}
    (h : Stops rest) :
    readNumber ((PyFloat.finite q).repr.toList ++ rest) = .ok (.float (.finite q), rest) := by
  obtain ⟨⟨k, hk, hden⟩, hsize⟩ := hq
  unfold PyFloat.repr
  dsimp only
  split_ifs with hzero hpos
  · -- `0.0`.
    have hdigit : ∀ c ∈ ['0'], c.isDigit = true := isDigit_zeros 1
    obtain ⟨n, hfraction, htext, hn⟩ := exists_smallForm hdigit (List.cons_ne_nil _ _) 0
    have hvalue : digitsValue ['0'] = 0 := digitsValue_zeros 1
    have hread := n.readNumber_float false h (Or.inl hfraction)
    rw [if_neg Bool.false_ne_true, hn, hvalue, Nat.cast_zero, zero_mul, ← hzero,
      roundFloat_eq hsize] at hread
    rw [← hread, Numeral.signed, htext]
    rfl
  · obtain ⟨n, hfloat, htext, rfl⟩ := exists_numeral_repr hpos ⟨k, hk, hden⟩
    have hread := n.readNumber_float false h hfloat
    rw [if_neg Bool.false_ne_true, roundFloat_eq hsize] at hread
    rw [htext]
    exact hread
  · have hneg : 0 < -q := by
      rcases lt_trichotomy q 0 with hlt | rfl | hgt
      · exact neg_pos.2 hlt
      · exact absurd rfl hzero
      · exact absurd hgt hpos
    have hden' : (-q * 10 ^ k).den = 1 := by
      rw [neg_mul, Rat.neg_den]
      exact hden
    obtain ⟨n, hfloat, htext, hn⟩ := exists_numeral_repr hneg ⟨k, hk, hden'⟩
    have hread := n.readNumber_float true h hfloat
    rw [if_pos rfl, hn, neg_neg, roundFloat_eq hsize] at hread
    rw [toList_append_neg, htext]
    exact hread

end JsonText

end RunnerSwarm
