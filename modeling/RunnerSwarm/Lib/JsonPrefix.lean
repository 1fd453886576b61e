import RunnerSwarm.Lib.JsonDocuments

/-!
# Documents that are cut off

The text of an object ends where its last brace does, so no proper beginning of it is a document:
`loads_prefix`. The reason is that a reader that has found the end of a value finds the same value
in every longer text (`Extends`). A number has no end of its own, so this needs a rest that stops
it. Nor can a beginning be too deep when the whole is not (`Deepens`).
-/

namespace RunnerSwarm

namespace JsonText

/-- A rest that is not empty, and in which no number goes on. -/
def Ends (rest : List Char) : Prop := rest ≠ [] ∧ Stops rest

/-- What the reader finds before an end, it finds in every longer text; and it finds nothing in no
text. -/
structure Extends (element : Reader Json) (more : List Char) : Prop where
  step : ∀ text x rest, element text = .ok (x, rest) → Ends rest →
    element (text ++ more) = .ok (x, rest ++ more)
  nil : ∀ x rest, element [] ≠ .ok (x, rest)

/-! ### Blanks -/

theorem skipBlank_append_of_ne_nil {text : List Char} (h : skipBlank text ≠ [])
    (more : List Char) : skipBlank (text ++ more) = skipBlank text ++ more := by
  induction text with
  | nil => exact absurd rfl h
  | cons c text ih =>
    unfold skipBlank at h ih ⊢
    cases hc : isBlankChar c with
    | true =>
      rw [List.dropWhile_cons_of_pos hc] at h
      rw [List.cons_append, List.dropWhile_cons_of_pos hc, List.dropWhile_cons_of_pos hc, ih h]
    | false =>
      have hne : ¬ isBlankChar c = true := Bool.eq_false_iff.1 hc
      rw [List.cons_append, List.dropWhile_cons_of_neg hne, List.dropWhile_cons_of_neg hne,
        List.cons_append]

/-- A rest that goes on with one of the characters behind a value. -/
theorem ends_of_skipBlank {text rest : List Char} {c : Char} (h : skipBlank text = c :: rest)
    (hc : c.isDigit = false ∧ c ≠ '.' ∧ c ≠ 'e' ∧ c ≠ 'E') : Ends text := by
  cases text with
  | nil => cases h
  | cons d text =>
    refine ⟨List.cons_ne_nil _ _, stops_cons ?_⟩
    cases hd : isBlankChar d with
    | true =>
      simp only [isBlankChar, Bool.or_eq_true, decide_eq_true_eq] at hd
      rcases hd with ((rfl | rfl) | rfl) | rfl <;> decide
    | false =>
      unfold skipBlank at h
      rw [List.dropWhile_cons_of_neg (Bool.eq_false_iff.1 hd)] at h
      rwa [(List.cons.inj h).1]

/-! ### Strings -/

theorem readUnits_append {text rest : List Char} {units : List ℕ} (more : List Char)
    (h : readUnits text = some (units, rest)) :
    readUnits (text ++ more) = some (units, rest ++ more) := by
  fun_induction readUnits text generalizing units rest with
  | case1 => cases h
  | case2 tail =>
    obtain ⟨rfl, rfl⟩ := Prod.mk.inj (Option.some.inj h)
    rfl
  | case3 a b c d tail ih =>
    obtain ⟨n, hn, h⟩ := Option.bind_eq_some_iff.1 h
    obtain ⟨⟨units', rest'⟩, hread, h⟩ := Option.bind_eq_some_iff.1 h
    obtain ⟨rfl, rfl⟩ := Prod.mk.inj (Option.some.inj h)
    simp only [List.cons_append, readUnits, hn, ih hread, Option.bind_eq_bind, Option.bind_some]
    rfl
  | case4 c tail hc ih =>
    obtain ⟨n, hn, h⟩ := Option.bind_eq_some_iff.1 h
    obtain ⟨⟨units', rest'⟩, hread, h⟩ := Option.bind_eq_some_iff.1 h
    obtain ⟨rfl, rfl⟩ := Prod.mk.inj (Option.some.inj h)
    rw [List.cons_append, List.cons_append, readUnits_escaped hn, ih hread]
    rfl
  | case5 c tail => cases h
  | case6 c tail hquote hunit hback hplain ih =>
    obtain ⟨⟨units', rest'⟩, hread, h⟩ := Option.bind_eq_some_iff.1 h
    obtain ⟨rfl, rfl⟩ := Prod.mk.inj (Option.some.inj h)
    have hne : c ≠ '\\' := by
      rintro rfl
      cases tail with
      | nil => cases hread
      | cons d tail => exact hback d tail rfl rfl
    rw [List.cons_append, readUnits_plain hquote hne (not_lt.1 hplain), ih hread]
    rfl

theorem readString_append {text rest : List Char} {s : String} (more : List Char)
    (h : readString text = .ok (s, rest)) : readString (text ++ more) = .ok (s, rest ++ more) := by
  unfold readString at h ⊢
  split at h
  · cases h
  · next units rest' hunits =>
    rw [readUnits_append more hunits]
    dsimp only
    split at h
    · cases h
    · next chars hchars =>
      obtain ⟨rfl, rfl⟩ := Prod.mk.inj (Except.ok.inj h)
      rfl

/-! ### Numbers -/

theorem span_append_of_ne_nil {p : Char → Bool} {text front back : List Char}
    (h : text.span p = (front, back)) (hback : back ≠ []) (more : List Char) :
    (text ++ more).span p = (front, back ++ more) := by
  rw [List.span_eq_takeWhile_dropWhile] at h ⊢
  obtain ⟨rfl, rfl⟩ := Prod.mk.inj h
  induction text with
  | nil => exact absurd rfl hback
  | cons c text ih =>
    cases hc : p c with
    | true =>
      rw [List.dropWhile_cons_of_pos hc] at hback
      rw [List.cons_append, List.takeWhile_cons_of_pos hc, List.dropWhile_cons_of_pos hc,
        List.takeWhile_cons_of_pos hc, List.dropWhile_cons_of_pos hc]
      obtain ⟨hfront, hrest⟩ := Prod.mk.inj (ih hback rfl)
      rw [hfront, hrest]
    | false =>
      have hne : ¬ p c = true := Bool.eq_false_iff.1 hc
      rw [List.cons_append, List.takeWhile_cons_of_neg hne, List.dropWhile_cons_of_neg hne,
        List.takeWhile_cons_of_neg hne, List.dropWhile_cons_of_neg hne, List.cons_append]

section Parts

variable {text part rest : List Char} (more : List Char)

theorem readMinus_append (h : readMinus text = (part, rest)) (hrest : rest ≠ []) :
    readMinus (text ++ more) = (part, rest ++ more) := by
  unfold readMinus at h
  split at h
  · obtain ⟨rfl, rfl⟩ := Prod.mk.inj h
    rfl
  · next hminus =>
    obtain ⟨rfl, rfl⟩ := Prod.mk.inj h
    obtain ⟨c, text, rfl⟩ := List.exists_cons_of_ne_nil hrest
    rw [List.cons_append]
    unfold readMinus
    split
    · next heq => exact absurd (by rw [(List.cons.inj heq).1]) (hminus text)
    · rfl

theorem readWhole_append (h : readWhole text = (part, rest)) (hrest : rest ≠ []) :
    readWhole (text ++ more) = (part, rest ++ more) := by
  unfold readWhole at h
  split at h
  · obtain ⟨rfl, rfl⟩ := Prod.mk.inj h
    rfl
  · next hzero =>
    have hspan := span_append_of_ne_nil h hrest more
    cases text with
    | nil =>
      obtain ⟨-, rfl⟩ := Prod.mk.inj h
      exact absurd rfl hrest
    | cons c text =>
      rw [List.cons_append] at hspan ⊢
      unfold readWhole
      split
      · next heq => exact absurd (by rw [(List.cons.inj heq).1]) (hzero text)
      · exact hspan

theorem readSign_append (h : readSign text = (part, rest)) (hrest : rest ≠ []) :
    readSign (text ++ more) = (part, rest ++ more) := by
  unfold readSign at h
  split at h
  · obtain ⟨rfl, rfl⟩ := Prod.mk.inj h
    rfl
  · obtain ⟨rfl, rfl⟩ := Prod.mk.inj h
    rfl
  · next hminus hplus =>
    obtain ⟨rfl, rfl⟩ := Prod.mk.inj h
    obtain ⟨c, text, rfl⟩ := List.exists_cons_of_ne_nil hrest
    rw [List.cons_append]
    unfold readSign
    split
    · next heq => exact absurd (by rw [(List.cons.inj heq).1]) (hminus text)
    · next heq => exact absurd (by rw [(List.cons.inj heq).1]) (hplus text)
    · rfl

/-- A point without digits behind it is left over. -/
theorem readFraction_append (h : readFraction text = (part, rest)) (hrest : rest ≠ [])
    (hpoint : rest.head? ≠ some '.') : readFraction (text ++ more) = (part, rest ++ more) := by
  unfold readFraction at h
  split at h
  · next tail =>
    dsimp only at h
    rcases hspan : tail.span Char.isDigit with ⟨digits, after⟩
    rw [hspan] at h
    dsimp only at h
    split_ifs at h with hnone
    · obtain ⟨-, rfl⟩ := Prod.mk.inj h
      exact absurd rfl hpoint
    · obtain ⟨rfl, rfl⟩ := Prod.mk.inj h
      have hlong := span_append_of_ne_nil hspan hrest more
      rw [List.cons_append]
      simp only [readFraction, hlong, if_neg hnone]
  · next hother =>
    obtain ⟨rfl, rfl⟩ := Prod.mk.inj h
    obtain ⟨c, text, rfl⟩ := List.exists_cons_of_ne_nil hrest
    rw [List.cons_append]
    unfold readFraction
    split
    · next heq => exact absurd (by rw [(List.cons.inj heq).1]) (hother text)
    · rfl

theorem readExponent_append (h : readExponent text = (part, rest)) (hrest : Ends rest) :
    readExponent (text ++ more) = (part, rest ++ more) := by
  cases text with
  | nil =>
    obtain ⟨-, rfl⟩ := Prod.mk.inj h
    exact absurd rfl hrest.1
  | cons e text =>
    unfold readExponent at h
    dsimp only at h
    rcases hsign : readSign text with ⟨sign, after⟩
    rw [hsign] at h
    dsimp only at h
    rcases hspan : after.span Char.isDigit with ⟨digits, last⟩
    rw [hspan] at h
    dsimp only at h
    split_ifs at h with hexp
    · obtain ⟨rfl, rfl⟩ := Prod.mk.inj h
      have hafter : after ≠ [] := by
        rintro rfl
        exact hexp.2 (Prod.mk.inj hspan).1.symm
      have hlong := span_append_of_ne_nil hspan hrest.1 more
      rw [List.cons_append]
      simp only [readExponent, readSign_append more hsign hafter, hlong, if_pos hexp]
    · obtain ⟨rfl, rfl⟩ := Prod.mk.inj h
      obtain ⟨-, -, hlow, hhigh⟩ := hrest.2 e rfl
      have hno : ∀ digits : List Char, ¬ ((e = 'e' ∨ e = 'E') ∧ digits ≠ []) :=
        fun digits hboth => hboth.1.elim hlow hhigh
      rw [List.cons_append]
      simp only [readExponent, if_neg (hno _)]

/-- What an exponent leaves over, or begins with, is no point. -/
theorem head_of_readExponent (h : readExponent text = (part, rest)) (hrest : Ends rest) :
    text ≠ [] ∧ text.head? ≠ some '.' := by
  cases text with
  | nil =>
    obtain ⟨-, rfl⟩ := Prod.mk.inj h
    exact absurd rfl hrest.1
  | cons e text =>
    refine ⟨List.cons_ne_nil _ _, ?_⟩
    rintro hpoint
    obtain rfl := Option.some.inj hpoint
    unfold readExponent at h
    dsimp only at h
    rw [if_neg fun hboth => by simp at hboth] at h
    obtain ⟨-, rfl⟩ := Prod.mk.inj h
    exact (hrest.2 '.' rfl).2.1 rfl

end Parts

/-- A number before an end. -/
theorem readNumber_append {text rest : List Char} {x : Json} (more : List Char)
    (h : readNumber text = .ok (x, rest)) (hrest : Ends rest) :
    readNumber (text ++ more) = .ok (x, rest ++ more) := by
  rcases hminus : readMinus text with ⟨minus, afterMinus⟩
  rcases hwhole : readWhole afterMinus with ⟨whole, afterWhole⟩
  rcases hfraction : readFraction afterWhole with ⟨fraction, afterFraction⟩
  rcases hexponent : readExponent afterFraction with ⟨exponent, last⟩
  simp only [readNumber, hminus, hwhole, hfraction, hexponent] at h
  split_ifs at h with hne
  cases hnumber : numberOf (minus ++ whole ++ fraction ++ exponent)
      (fraction = [] && exponent = []) with
  | none =>
    rw [hnumber] at h
    cases h
  | some y =>
    rw [hnumber] at h
    obtain ⟨rfl, rfl⟩ := Prod.mk.inj (Except.ok.inj h)
    -- Each part leaves something over, which is where the next one begins.
    obtain ⟨hafter, hpoint⟩ := head_of_readExponent hexponent hrest
    have hafter' : afterWhole ≠ [] := by
      rintro rfl
      obtain ⟨-, rfl⟩ := Prod.mk.inj hfraction
      exact hafter rfl
    have hafter'' : afterMinus ≠ [] := by
      rintro rfl
      obtain ⟨-, rfl⟩ := Prod.mk.inj hwhole
      exact hafter' rfl
    simp only [readNumber, readMinus_append more hminus hafter'',
      readWhole_append more hwhole hafter', readFraction_append more hfraction hafter hpoint,
      readExponent_append more hexponent hrest, if_neg hne, hnumber]
    rfl

/-- A number begins with a digit, or with a sign and a digit. -/
theorem head_of_readNumber {text rest : List Char} {x : Json}
    (h : readNumber text = .ok (x, rest)) : ∃ d tail, d.isDigit = true ∧
      (text = d :: tail ∨ text = '-' :: d :: tail) := by
  have hhead : ∀ text : List Char, (readWhole text).1 ≠ [] →
      ∃ d tail, text = d :: tail ∧ d.isDigit = true := by
    intro text hne
    cases text with
    | nil => exact absurd rfl hne
    | cons d tail =>
      refine ⟨d, tail, rfl, ?_⟩
      unfold readWhole at hne
      split at hne
      · next heq =>
        rw [(List.cons.inj heq).1]
        rfl
      · by_contra hd
        rw [List.span_eq_takeWhile_dropWhile, List.takeWhile_cons_of_neg hd] at hne
        exact hne rfl
  rcases hminus : readMinus text with ⟨minus, afterMinus⟩
  rcases hwhole : readWhole afterMinus with ⟨whole, afterWhole⟩
  simp only [readNumber, hminus, hwhole] at h
  split_ifs at h with hne
  obtain ⟨d, tail, rfl, hd⟩ := hhead afterMinus (by rw [hwhole]; exact hne)
  refine ⟨d, tail, hd, ?_⟩
  unfold readMinus at hminus
  split at hminus
  · next rest =>
    obtain ⟨-, rfl⟩ := Prod.mk.inj hminus
    exact Or.inr rfl
  · exact Or.inl (Prod.mk.inj hminus).2

/-! ### Values -/

theorem readWord_eq_some {text rest : List Char} {x : Json} (h : readWord text = some (x, rest)) :
    ∃ word, (word, x) ∈ wordsOfValues ∧ text = word ++ rest := by
  unfold readWord at h
  obtain ⟨⟨word, y⟩, hfind, heq⟩ := Option.map_eq_some_iff.1 h
  obtain ⟨rfl, rfl⟩ := Prod.mk.inj heq
  have hpre := List.find?_some hfind
  obtain ⟨tail, htail⟩ := List.isPrefixOf_iff_prefix.1 hpre
  refine ⟨word, List.mem_of_find?_eq_some hfind, ?_⟩
  rw [← htail, List.drop_left]

section Values

variable {list dict : Reader Json} {text rest more : List Char} {x : Json}

/-- How a value is read, by its first character. -/
theorem readWith_cases (h : readWith list dict text = .ok (x, rest)) :
    (∃ tail s, text = '"' :: tail ∧ readString tail = .ok (s, rest) ∧ x = .str s) ∨
    (∃ tail, text = '[' :: tail ∧ list tail = .ok (x, rest)) ∨
    (∃ tail, text = Char.ofNat 123 :: tail ∧ dict tail = .ok (x, rest)) ∨
    (∃ word, (word, x) ∈ wordsOfValues ∧ text = word ++ rest) ∨
    readNumber text = .ok (x, rest) := by
  cases text with
  | nil => cases h
  | cons c tail =>
    unfold readWith at h
    dsimp only at h
    split_ifs at h with hquote hbracket hbrace
    · refine Or.inl ?_
      cases hread : readString tail with
      | error e =>
        rw [hread] at h
        cases h
      | ok read =>
        rw [hread] at h
        obtain ⟨rfl, rfl⟩ := Prod.mk.inj (Except.ok.inj h)
        exact ⟨tail, read.1, by rw [hquote], hread, rfl⟩
    · exact Or.inr (Or.inl ⟨tail, by rw [hbracket], h⟩)
    · exact Or.inr (Or.inr (Or.inl ⟨tail, by rw [hbrace], h⟩))
    · refine Or.inr (Or.inr (Or.inr ?_))
      split at h
      · next found hword =>
        obtain rfl := Except.ok.inj h
        exact Or.inl (readWord_eq_some hword)
      · exact Or.inr h

/-- A value before an end. -/
theorem readWith_append (hlist : ∀ tail x rest, list tail = .ok (x, rest) →
      list (tail ++ more) = .ok (x, rest ++ more))
    (hdict : ∀ tail x rest, dict tail = .ok (x, rest) →
      dict (tail ++ more) = .ok (x, rest ++ more)) :
    Extends (readWith list dict) more where
  nil := fun x rest h => by cases h
  step := by
    intro text x rest h hrest
    rcases readWith_cases h with ⟨tail, s, rfl, hs, rfl⟩ | ⟨tail, rfl, hx⟩ | ⟨tail, rfl, hx⟩ |
      ⟨word, hword, rfl⟩ | hnumber
    · have hread := readString_append more hs
      rw [List.cons_append]
      unfold readWith
      dsimp only
      rw [if_pos rfl, hread]
      rfl
    · exact hlist tail x rest hx
    · exact hdict tail x rest hx
    · rw [List.append_assoc]
      exact readWith_word hword list dict (rest ++ more)
    · obtain ⟨d, tail, hd, htext⟩ := head_of_readNumber hnumber
      rw [readWith_eq_readNumber list dict ⟨d, tail ++ more, hd, ?_⟩]
      · exact readNumber_append more hnumber hrest
      · exact htext.imp (fun heq => by rw [heq, List.cons_append])
          fun heq => by rw [heq, List.cons_append, List.cons_append]

end Values

/-! ### Lists and objects -/

section Sequences

variable {element : Reader Json} {more : List Char} (h : Extends element more)

include h

theorem readElements_nil (fuel : ℕ) (xs : List Json) (rest : List Char) :
    readElements element fuel [] ≠ .ok (xs, rest) := by
  intro hread
  cases fuel with
  | zero => cases hread
  | succ fuel =>
    simp only [readElements, bind, Except.bind] at hread
    cases helement : element [] with
    | error e =>
      rw [helement] at hread
      cases hread
    | ok read => exact h.nil read.1 read.2 helement

theorem readElements_append {fuel fuel' : ℕ} (hfuel : fuel ≤ fuel') {text rest : List Char}
    {xs : List Json} (hread : readElements element fuel text = .ok (xs, rest)) :
    readElements element fuel' (text ++ more) = .ok (xs, rest ++ more) := by
  induction fuel generalizing fuel' text xs rest with
  | zero => cases hread
  | succ fuel ih =>
    obtain ⟨fuel', rfl⟩ : ∃ n, fuel' = n + 1 := ⟨fuel' - 1, by omega⟩
    simp only [readElements, bind, Except.bind] at hread ⊢
    cases helement : element text with
    | error e =>
      rw [helement] at hread
      cases hread
    | ok read =>
      obtain ⟨x, after⟩ := read
      rw [helement] at hread
      dsimp only at hread
      split at hread
      · next last hskip =>
        obtain ⟨rfl, rfl⟩ := Prod.mk.inj (Except.ok.inj hread)
        rw [h.step text x after helement (ends_of_skipBlank hskip (by decide))]
        dsimp only
        rw [skipBlank_append_of_ne_nil (by rw [hskip]; exact List.cons_ne_nil _ _), hskip]
        rfl
      · next next hskip =>
        rw [h.step text x after helement (ends_of_skipBlank hskip (by decide))]
        dsimp only
        rw [skipBlank_append_of_ne_nil (by rw [hskip]; exact List.cons_ne_nil _ _), hskip]
        cases hmore : readElements element fuel (skipBlank next) with
        | error e =>
          rw [hmore] at hread
          cases hread
        | ok read =>
          rw [hmore] at hread
          obtain ⟨rfl, rfl⟩ := Prod.mk.inj (Except.ok.inj hread)
          have hne : skipBlank next ≠ [] := fun hnil =>
            readElements_nil h fuel read.1 read.2 (hnil ▸ hmore)
          have hlong := ih (Nat.le_of_succ_le_succ hfuel) hmore
          simp only [List.cons_append, skipBlank_append_of_ne_nil hne, hlong]
      · cases hread

theorem readList_append {text rest : List Char} {x : Json}
    (hread : readList element text = .ok (x, rest)) :
    readList element (text ++ more) = .ok (x, rest ++ more) := by
  have hne : skipBlank text ≠ [] := by
    intro hnil
    unfold readList at hread
    rw [hnil] at hread
    cases hread
  unfold readList at hread ⊢
  rw [skipBlank_append_of_ne_nil hne]
  split at hread
  · next tail hskip =>
    obtain ⟨rfl, rfl⟩ := Prod.mk.inj (Except.ok.inj hread)
    rw [hskip]
    rfl
  · next hother =>
    cases helements : readElements element (skipBlank text).length (skipBlank text) with
    | error e =>
      rw [helements] at hread
      cases hread
    | ok read =>
      rw [helements] at hread
      obtain ⟨rfl, rfl⟩ := Prod.mk.inj (Except.ok.inj hread)
      have hlong := readElements_append h
        (show (skipBlank text).length ≤ (skipBlank text ++ more).length by simp) helements
      split
      · next tail heq =>
        obtain ⟨c, chars, hchars⟩ := List.exists_cons_of_ne_nil hne
        rw [hchars] at heq
        exact absurd (by rw [hchars, (List.cons.inj heq).1]) (hother chars)
      · rw [hlong]
        rfl

end Sequences

/-- The first item of an object, and what follows it. -/
structure FirstItem (element : Reader Json) (fuel : ℕ) (text rest : List Char)
    (kvs : List (String × Json)) where
  tail : List Char
  key : String
  afterKey : List Char
  value : List Char
  x : Json
  afterValue : List Char
  opens : text = '"' :: tail
  reads_key : readString tail = .ok (key, afterKey)
  colon : skipBlank afterKey = ':' :: value
  reads_value : element (skipBlank value) = .ok (x, afterValue)
  closes : (skipBlank afterValue = Char.ofNat 125 :: rest ∧ kvs = [(key, x)]) ∨
    ∃ next more, skipBlank afterValue = ',' :: next ∧
      readItems element fuel (skipBlank next) = .ok (more, rest) ∧ kvs = (key, x) :: more

section Objects

variable {element : Reader Json} {fuel : ℕ} {text rest : List Char} {kvs : List (String × Json)}

theorem readItems_succ_iff : readItems element (fuel + 1) text = .ok (kvs, rest) ↔
    Nonempty (FirstItem element fuel text rest kvs) := by
  constructor
  · intro hread
    unfold readItems at hread
    split at hread
    case h_2 => cases hread
    next tail =>
    simp only [bind, Except.bind] at hread
    cases hkey : readString tail with
    | error e =>
      rw [hkey] at hread
      cases hread
    | ok key =>
      rw [hkey] at hread
      dsimp only at hread
      split at hread
      case h_2 => cases hread
      next value hcolon =>
      cases hvalue : element (skipBlank value) with
      | error e =>
        rw [hvalue] at hread
        cases hread
      | ok read =>
        rw [hvalue] at hread
        dsimp only at hread
        split at hread
        case h_2 => cases hread
        next c after hafter =>
        split_ifs at hread with hbrace hcomma
        · obtain ⟨rfl, rfl⟩ := Prod.mk.inj (Except.ok.inj hread)
          exact ⟨⟨tail, key.1, key.2, value, read.1, read.2, rfl, hkey, hcolon, hvalue,
            Or.inl ⟨by rw [hafter, hbrace], rfl⟩⟩⟩
        · cases hmore : readItems element fuel (skipBlank after) with
          | error e =>
            rw [hmore] at hread
            cases hread
          | ok more =>
            rw [hmore] at hread
            obtain ⟨rfl, rfl⟩ := Prod.mk.inj (Except.ok.inj hread)
            exact ⟨⟨tail, key.1, key.2, value, read.1, read.2, rfl, hkey, hcolon, hvalue,
              Or.inr ⟨after, more.1, by rw [hafter, hcomma], hmore, rfl⟩⟩⟩
  · rintro ⟨i⟩
    refine (congrArg (readItems element (fuel + 1)) i.opens).trans ?_
    simp only [readItems, i.reads_key, i.colon, i.reads_value, bind, Except.bind]
    rcases i.closes with ⟨hbrace, hkvs⟩ | ⟨next, more, hcomma, hmore, hkvs⟩
    · simp only [hbrace, if_true]
      exact congrArg (fun kvs => Except.ok (kvs, rest)) hkvs.symm
    · simp only [hcomma, if_neg (show ¬ ',' = Char.ofNat 125 by decide), if_true, hmore]
      exact congrArg (fun kvs => Except.ok (kvs, rest)) hkvs.symm

end Objects

section Sequences

variable {element : Reader Json} {more : List Char} (h : Extends element more)

include h

theorem readItems_append {fuel fuel' : ℕ} (hfuel : fuel ≤ fuel') {text rest : List Char}
    {kvs : List (String × Json)} (hread : readItems element fuel text = .ok (kvs, rest)) :
    readItems element fuel' (text ++ more) = .ok (kvs, rest ++ more) := by
  induction fuel generalizing fuel' text kvs rest with
  | zero => cases hread
  | succ fuel ih =>
    obtain ⟨fuel', rfl⟩ : ∃ n, fuel' = n + 1 := ⟨fuel' - 1, by omega⟩
    obtain ⟨i⟩ := readItems_succ_iff.1 hread
    have hcolon : skipBlank (i.afterKey ++ more) = ':' :: (i.value ++ more) := by
      rw [skipBlank_append_of_ne_nil (by rw [i.colon]; exact List.cons_ne_nil _ _), i.colon,
        List.cons_append]
    have hvalue : skipBlank i.value ≠ [] := fun hnil =>
      h.nil i.x i.afterValue (hnil ▸ i.reads_value)
    have hends : Ends i.afterValue := by
      rcases i.closes with ⟨hbrace, -⟩ | ⟨next, kvs', hcomma, -⟩
      · exact ends_of_skipBlank hbrace (by decide)
      · exact ends_of_skipBlank hcomma (by decide)
    refine readItems_succ_iff.2 ⟨⟨i.tail ++ more, i.key, i.afterKey ++ more, i.value ++ more, i.x,
      i.afterValue ++ more, congrArg (· ++ more) i.opens,
      readString_append more i.reads_key, hcolon, ?_, ?_⟩⟩
    · rw [skipBlank_append_of_ne_nil hvalue]
      exact h.step _ _ _ i.reads_value hends
    · rcases i.closes with ⟨hbrace, hkvs⟩ | ⟨next, kvs', hcomma, hmore, hkvs⟩
      · refine Or.inl ⟨?_, hkvs⟩
        rw [skipBlank_append_of_ne_nil (by rw [hbrace]; exact List.cons_ne_nil _ _), hbrace,
          List.cons_append]
      · have hne : skipBlank next ≠ [] := by
          intro hnil
          rw [hnil] at hmore
          cases fuel <;> cases hmore
        refine Or.inr ⟨next ++ more, kvs', ?_, ?_, hkvs⟩
        · rw [skipBlank_append_of_ne_nil (by rw [hcomma]; exact List.cons_ne_nil _ _), hcomma,
            List.cons_append]
        · rw [skipBlank_append_of_ne_nil hne]
          exact ih (Nat.le_of_succ_le_succ hfuel) hmore

theorem readDict_append {text rest : List Char} {x : Json}
    (hread : readDict element text = .ok (x, rest)) :
    readDict element (text ++ more) = .ok (x, rest ++ more) := by
  have hne : skipBlank text ≠ [] := by
    intro hnil
    unfold readDict at hread
    rw [hnil] at hread
    cases hread
  obtain ⟨c, tail, hcons⟩ := List.exists_cons_of_ne_nil hne
  unfold readDict at hread ⊢
  rw [skipBlank_append_of_ne_nil hne]
  rw [hcons] at hread ⊢
  rw [List.cons_append]
  dsimp only at hread ⊢
  split_ifs at hread ⊢ with hbrace
  · obtain ⟨rfl, rfl⟩ := Prod.mk.inj (Except.ok.inj hread)
    rfl
  · cases hitems : readItems element (c :: tail).length (c :: tail) with
    | error e =>
      rw [hitems] at hread
      cases hread
    | ok read =>
      rw [hitems] at hread
      obtain ⟨rfl, rfl⟩ := Prod.mk.inj (Except.ok.inj hread)
      have hlong := readItems_append h
        (show (c :: tail).length ≤ (c :: (tail ++ more)).length by simp) hitems
      rw [List.cons_append] at hlong
      rw [hlong]
      rfl

end Sequences

/-! ### Depth -/

/-- What is too deep is so in every longer text; and no text is not. -/
structure Deepens (element : Reader Json) (more : List Char) : Prop where
  step : ∀ text, element text = .error .tooDeep → element (text ++ more) = .error .tooDeep
  nil : element [] ≠ .error .tooDeep

theorem readString_ne_tooDeep (text : List Char) : readString text ≠ .error .tooDeep := by
  intro h
  unfold readString at h
  split at h
  · cases h
  · split at h <;> cases h

theorem readNumber_ne_tooDeep (text : List Char) : readNumber text ≠ .error .tooDeep := by
  intro h
  unfold readNumber at h
  dsimp only at h
  split_ifs at h
  · cases h
  · generalize numberOf _ _ = found at h
    cases found <;> cases h

section Depth

variable {element : Reader Json} {more : List Char} (h : Extends element more)
  (hdeep : Deepens element more)

include h hdeep

theorem readElements_deepens {fuel fuel' : ℕ} (hfuel : fuel ≤ fuel') {text : List Char}
    (hread : readElements element fuel text = .error .tooDeep) :
    readElements element fuel' (text ++ more) = .error .tooDeep := by
  induction fuel generalizing fuel' text with
  | zero => cases hread
  | succ fuel ih =>
    obtain ⟨fuel', rfl⟩ : ∃ n, fuel' = n + 1 := ⟨fuel' - 1, by omega⟩
    simp only [readElements, bind, Except.bind] at hread ⊢
    cases helement : element text with
    | error e =>
      rw [helement] at hread
      obtain rfl := Except.error.inj hread
      rw [hdeep.step text helement]
    | ok read =>
      obtain ⟨x, after⟩ := read
      rw [helement] at hread
      dsimp only at hread
      split at hread
      · cases hread
      · next next hskip =>
        rw [h.step text x after helement (ends_of_skipBlank hskip (by decide))]
        dsimp only
        rw [skipBlank_append_of_ne_nil (by rw [hskip]; exact List.cons_ne_nil _ _), hskip]
        cases hmore : readElements element fuel (skipBlank next) with
        | ok read =>
          rw [hmore] at hread
          cases hread
        | error e =>
          rw [hmore] at hread
          obtain rfl := Except.error.inj hread
          have hne : skipBlank next ≠ [] := by
            intro hnil
            rw [hnil] at hmore
            cases fuel with
            | zero => cases hmore
            | succ fuel =>
              simp only [readElements, bind, Except.bind] at hmore
              split at hmore
              · next e hnone =>
                obtain rfl := Except.error.inj hmore
                exact hdeep.nil hnone
              · next read hsome => exact h.nil _ _ hsome
          have hlong := ih (Nat.le_of_succ_le_succ hfuel) hmore
          simp only [List.cons_append, skipBlank_append_of_ne_nil hne, hlong]
      · cases hread

theorem readList_deepens {text : List Char} (hread : readList element text = .error .tooDeep) :
    readList element (text ++ more) = .error .tooDeep := by
  have hne : skipBlank text ≠ [] := by
    intro hnil
    unfold readList at hread
    rw [hnil] at hread
    cases hread
  unfold readList at hread ⊢
  rw [skipBlank_append_of_ne_nil hne]
  split at hread
  · cases hread
  · next hother =>
    cases helements : readElements element (skipBlank text).length (skipBlank text) with
    | ok read =>
      rw [helements] at hread
      cases hread
    | error e =>
      rw [helements] at hread
      obtain rfl := Except.error.inj hread
      have hlong := readElements_deepens h hdeep
        (show (skipBlank text).length ≤ (skipBlank text ++ more).length by simp) helements
      split
      · next tail heq =>
        obtain ⟨c, chars, hchars⟩ := List.exists_cons_of_ne_nil hne
        rw [hchars] at heq
        exact absurd (by rw [hchars, (List.cons.inj heq).1]) (hother chars)
      · rw [hlong]
        rfl

theorem readItems_deepens {fuel fuel' : ℕ} (hfuel : fuel ≤ fuel') {text : List Char}
    (hread : readItems element fuel text = .error .tooDeep) :
    readItems element fuel' (text ++ more) = .error .tooDeep := by
  induction fuel generalizing fuel' text with
  | zero => cases hread
  | succ fuel ih =>
    obtain ⟨fuel', rfl⟩ : ∃ n, fuel' = n + 1 := ⟨fuel' - 1, by omega⟩
    unfold readItems at hread
    split at hread
    case h_2 => cases hread
    next tail =>
    simp only [bind, Except.bind] at hread
    rw [List.cons_append]
    simp only [readItems, bind, Except.bind]
    cases hkey : readString tail with
    | error e =>
      rw [hkey] at hread
      obtain rfl := Except.error.inj hread
      exact absurd hkey (readString_ne_tooDeep tail)
    | ok key =>
      rw [hkey] at hread
      dsimp only at hread
      split at hread
      case h_2 => cases hread
      next value hcolon =>
      have hcolon' : skipBlank (key.2 ++ more) = ':' :: (value ++ more) := by
        rw [skipBlank_append_of_ne_nil (by rw [hcolon]; exact List.cons_ne_nil _ _), hcolon,
          List.cons_append]
      simp only [readString_append more hkey, hcolon']
      cases hvalue : element (skipBlank value) with
      | error e =>
        rw [hvalue] at hread
        obtain rfl := Except.error.inj hread
        have hne : skipBlank value ≠ [] := fun hnil => hdeep.nil (hnil ▸ hvalue)
        rw [skipBlank_append_of_ne_nil hne, hdeep.step _ hvalue]
      | ok read =>
        rw [hvalue] at hread
        dsimp only at hread
        split at hread
        case h_2 => cases hread
        next c after hafter =>
        split_ifs at hread with hbrace hcomma
        case neg => cases hread
        cases hmore : readItems element fuel (skipBlank after) with
        | ok items =>
          rw [hmore] at hread
          cases hread
        | error e =>
          rw [hmore] at hread
          obtain rfl := Except.error.inj hread
          have hvalue' : skipBlank value ≠ [] := fun hnil => h.nil _ _ (hnil ▸ hvalue)
          have hends : Ends read.2 := ends_of_skipBlank hafter (by rw [hcomma]; decide)
          have hne : skipBlank after ≠ [] := by
            intro hnil
            rw [hnil] at hmore
            cases fuel <;> cases hmore
          have hafter' : skipBlank (read.2 ++ more) = c :: (after ++ more) := by
            rw [skipBlank_append_of_ne_nil (by rw [hafter]; exact List.cons_ne_nil _ _), hafter,
              List.cons_append]
          have hlong := ih (Nat.le_of_succ_le_succ hfuel) hmore
          rw [skipBlank_append_of_ne_nil hvalue', h.step _ _ _ hvalue hends]
          simp only [hafter', if_neg hbrace, if_pos hcomma, skipBlank_append_of_ne_nil hne, hlong]

theorem readDict_deepens {text : List Char} (hread : readDict element text = .error .tooDeep) :
    readDict element (text ++ more) = .error .tooDeep := by
  have hne : skipBlank text ≠ [] := by
    intro hnil
    unfold readDict at hread
    rw [hnil] at hread
    cases hread
  obtain ⟨c, tail, hcons⟩ := List.exists_cons_of_ne_nil hne
  unfold readDict at hread ⊢
  rw [skipBlank_append_of_ne_nil hne]
  rw [hcons] at hread ⊢
  rw [List.cons_append]
  dsimp only at hread ⊢
  split_ifs at hread ⊢ with hbrace
  cases hitems : readItems element (c :: tail).length (c :: tail) with
  | ok read =>
    rw [hitems] at hread
    cases hread
  | error e =>
    rw [hitems] at hread
    obtain rfl := Except.error.inj hread
    have hlong := readItems_deepens h hdeep
      (show (c :: tail).length ≤ (c :: (tail ++ more)).length by simp) hitems
    rw [List.cons_append] at hlong
    rw [hlong]
    rfl

end Depth

theorem readWith_deepens {list dict : Reader Json} {more : List Char}
    (hlist : ∀ tail, list tail = .error .tooDeep → list (tail ++ more) = .error .tooDeep)
    (hdict : ∀ tail, dict tail = .error .tooDeep → dict (tail ++ more) = .error .tooDeep) :
    Deepens (readWith list dict) more where
  nil := fun h => by cases h
  step := by
    intro text h
    cases text with
    | nil => cases h
    | cons c rest =>
      rw [List.cons_append]
      unfold readWith at h ⊢
      dsimp only at h ⊢
      split_ifs at h ⊢ with hquote hlist' hdict'
      · cases hs : readString rest with
        | ok read =>
          rw [hs] at h
          cases h
        | error e =>
          rw [hs] at h
          obtain rfl : e = .tooDeep := Except.error.inj h
          exact absurd hs (readString_ne_tooDeep rest)
      · exact hlist rest h
      · exact hdict rest h
      · split at h
        · cases h
        · exact absurd h (readNumber_ne_tooDeep _)

/-! ### Documents -/

/-- **What is read before an end is read in every longer text.** -/
theorem readJson_extends (more : List Char) (depth : ℕ) : Extends (readJson depth) more := by
  induction depth with
  | zero => exact readWith_append (fun _ _ _ h => by cases h) fun _ _ _ h => by cases h
  | succ depth ih =>
    exact readWith_append (fun _ _ _ h => readList_append ih h) fun _ _ _ h => readDict_append ih h

/-- **What is too deep is too deep in every longer text.** -/
theorem readJson_deepens (more : List Char) (depth : ℕ) : Deepens (readJson depth) more := by
  induction depth with
  | zero => exact readWith_deepens (fun _ _ => rfl) fun _ _ => rfl
  | succ depth ih =>
    have hextends := readJson_extends more depth
    exact readWith_deepens (fun _ h => readList_deepens hextends ih h)
      fun _ h => readDict_deepens hextends ih h

/-- **A text that is cut off is no document**, when the whole is an object. -/
theorem loads_prefix {blanks blanks' : List Char} (hcomma : Blank blanks)
    (hcolon : Blank blanks') {kvs : List (String × Json)} {depth : ℕ}
    (hkvs : Writable (.dict kvs) depth) {front more : List Char} (hmore : more ≠ [])
    (htext : dumpsWith (',' :: blanks) (':' :: blanks') (.dict kvs) = front ++ more) :
    loads depth (String.ofList front) = .error .malformed := by
  have hfull := readJson_dumps hcomma hcolon (.dict kvs) depth hkvs [] fun c hc => by cases hc
  rw [List.append_nil, htext] at hfull
  cases front with
  | nil => cases depth <;> rfl
  | cons c front =>
    obtain rfl : Char.ofNat 123 = c := (List.cons.inj htext).1
    have hskip : skipBlank (String.ofList (Char.ofNat 123 :: front)).toList =
        Char.ofNat 123 :: front := by
      rw [String.toList_ofList]
      rfl
    unfold loads
    rw [hskip]
    cases hread : readJson depth (Char.ofNat 123 :: front) with
    | error e =>
      cases e with
      | malformed => rfl
      | tooDeep =>
        have hlong := (readJson_deepens more depth).step _ hread
        rw [hfull] at hlong
        cases hlong
    | ok read =>
      obtain ⟨depth, rfl⟩ : ∃ d, depth = d + 1 := by
        cases depth with
        | zero => exact absurd hkvs id
        | succ d => exact ⟨d, rfl⟩
      have hdict : ∀ tail : List Char, readJson (depth + 1) (Char.ofNat 123 :: tail) =
          readDict (readJson depth) tail := fun tail => rfl
      rw [hdict] at hread
      rw [List.cons_append, hdict] at hfull
      have hlong := readDict_append (readJson_extends more depth) hread
      rw [hfull] at hlong
      have hrest := (Prod.mk.inj (Except.ok.inj hlong)).2
      exact absurd (List.append_eq_nil_iff.1 hrest.symm).2 hmore

end JsonText

end RunnerSwarm
