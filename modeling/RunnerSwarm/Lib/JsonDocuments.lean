import RunnerSwarm.Lib.JsonNumbers

/-!
# Documents in JSON text

`json.loads` is a left inverse of `json.dumps`, for every value that can be written: integers of not
too many digits, decimal floats, objects with distinct keys, and no deeper than the interpreter's
limit. This holds with any blanks behind the separators, so for the compact form as well.

* `Writable` says which values these are;
* `readJson_dumps`, `readElements_dumps` and `readItems_dumps` read values, lists and objects from
  the beginning of a text;
* `loads_dumpsWith` is the statement for documents, `loads_jsonDumps` and `loads_jsonText` its two
  cases.
-/

namespace RunnerSwarm

namespace JsonText

/-! ### Values that can be written -/

mutual

/-- The value is written without an exception, and nests no deeper than `depth`. -/
def Writable : Json → ℕ → Prop
  | .int n, _ => (toString n.natAbs).length ≤ maxStrDigits
  | .float x, _ => IsDecimal x
  | .list _, 0 => False
  | .list xs, depth + 1 => WritableElements xs depth
  | .dict _, 0 => False
  | .dict kvs, depth + 1 => (kvs.map Prod.fst).Nodup ∧ WritableItems kvs depth
  | _, _ => True

def WritableElements : List Json → ℕ → Prop
  | [], _ => True
  | x :: xs, depth => Writable x depth ∧ WritableElements xs depth

def WritableItems : List (String × Json) → ℕ → Prop
  | [], _ => True
  | (_, x) :: kvs, depth => Writable x depth ∧ WritableItems kvs depth

end

/-- Only blanks. -/
def Blank (text : List Char) : Prop := ∀ c ∈ text, isBlankChar c = true

theorem skipBlank_of_head {text : List Char} (h : ∀ c ∈ text.head?, isBlankChar c = false) :
    skipBlank text = text := by
  cases text with
  | nil => rfl
  | cons c text => exact List.dropWhile_cons_of_neg (Bool.eq_false_iff.1 (h c rfl))

theorem skipBlank_append {blanks text : List Char} (hblanks : Blank blanks)
    (h : ∀ c ∈ text.head?, isBlankChar c = false) : skipBlank (blanks ++ text) = text := by
  unfold skipBlank
  rw [List.dropWhile_append_of_pos hblanks]
  exact skipBlank_of_head h

theorem stops_cons {c : Char} {rest : List Char}
    (h : c.isDigit = false ∧ c ≠ '.' ∧ c ≠ 'e' ∧ c ≠ 'E') : Stops (c :: rest) := by
  intro d hd
  obtain rfl := Option.some.inj hd
  exact h

/-! ### Scalars -/

/-- The words for values are read as the values. -/
theorem readWith_word {word : List Char} {x : Json} (h : (word, x) ∈ wordsOfValues)
    (list dict : Reader Json) (rest : List Char) :
    readWith list dict (word ++ rest) = .ok (x, rest) := by
  simp only [wordsOfValues, List.mem_cons, Prod.mk.injEq, List.not_mem_nil, or_false] at h
  rcases h with ⟨rfl, rfl⟩ | ⟨rfl, rfl⟩ | ⟨rfl, rfl⟩ | ⟨rfl, rfl⟩ | ⟨rfl, rfl⟩ | ⟨rfl, rfl⟩ <;>
    rfl

/-- What begins like a number is read as one. -/
theorem readWith_eq_readNumber {text : List Char} (list dict : Reader Json)
    (hhead : ∃ d tail, d.isDigit = true ∧ (text = d :: tail ∨ text = '-' :: d :: tail)) :
    readWith list dict text = readNumber text := by
  obtain ⟨d, tail, hdigit, htext⟩ := hhead
  have hne : ∀ c, c.isDigit = false → d ≠ c := by
    rintro c hc rfl
    rw [hdigit] at hc
    cases hc
  have hfirst : ∀ c rest, (c = d ∨ c = '-' ∧ rest.head? = some d) →
      readWith list dict (c :: rest) = readNumber (c :: rest) := by
    intro c rest hc
    have hword : readWord (c :: rest) = none := by
      unfold readWord wordsOfValues
      rw [Option.map_eq_none_iff, List.find?_eq_none]
      intro word hmem hpre
      obtain ⟨more, hmore⟩ := List.isPrefixOf_iff_prefix.1 hpre
      simp only [List.mem_cons, List.not_mem_nil, or_false] at hmem
      rcases hc with rfl | ⟨rfl, hhead⟩
      · rcases hmem with rfl | rfl | rfl | rfl | rfl | rfl <;>
          exact hne _ (by rfl) (List.cons.inj hmore).1.symm
      · rcases hmem with rfl | rfl | rfl | rfl | rfl | rfl
        case inr.inr.inr.inr.inr =>
          rw [← (List.cons.inj hmore).2] at hhead
          exact hne 'I' rfl (Option.some.inj hhead).symm
        all_goals exact absurd (List.cons.inj hmore).1 (by decide)
    have hplain : c ≠ '"' ∧ c ≠ '[' ∧ c ≠ Char.ofNat 123 := by
      rcases hc with rfl | ⟨rfl, -⟩
      · exact ⟨hne _ rfl, hne _ rfl, hne _ rfl⟩
      · decide
    unfold readWith
    dsimp only
    rw [if_neg hplain.1, if_neg hplain.2.1, if_neg hplain.2.2, hword]
  rcases htext with rfl | rfl
  · exact hfirst _ _ (Or.inl rfl)
  · exact hfirst _ _ (Or.inr ⟨rfl, rfl⟩)

theorem readWith_number {text rest : List Char} {x : Json} (list dict : Reader Json)
    (hhead : ∃ d tail, d.isDigit = true ∧ (text = d :: tail ∨ text = '-' :: d :: tail))
    (h : readNumber (text ++ rest) = .ok (x, rest)) :
    readWith list dict (text ++ rest) = .ok (x, rest) := by
  obtain ⟨d, tail, hdigit, htext⟩ := hhead
  rw [readWith_eq_readNumber list dict ⟨d, tail ++ rest, hdigit, ?_⟩, h]
  exact htext.imp (fun heq => by rw [heq, List.cons_append])
    fun heq => by rw [heq, List.cons_append, List.cons_append]

/-- An integer. -/
theorem readWith_int {n : ℤ} (hn : (toString n.natAbs).length ≤ maxStrDigits)
    (list dict : Reader Json) {rest : List Char} (h : Stops rest) :
    readWith list dict ((toString n).toList ++ rest) = .ok (.int n, rest) := by
  refine readWith_number list dict ?_ (Numeral.readNumber_int h hn)
  obtain ⟨d, tail, htext, hdigit⟩ := (Numeral.ofNat n.natAbs).exists_text
  refine ⟨d, tail, hdigit, ?_⟩
  rw [Numeral.toList_toString, Numeral.signed, htext]
  split_ifs
  · exact Or.inr rfl
  · exact Or.inl rfl

/-- The text of a finite float begins like a number. -/
theorem exists_jsonText {q : ℚ} (hq : IsDecimal (.finite q)) : ∃ d tail, d.isDigit = true ∧
    ((PyFloat.finite q).jsonText = d :: tail ∨ (PyFloat.finite q).jsonText = '-' :: d :: tail) := by
  obtain ⟨⟨k, hk, hden⟩, -⟩ := hq
  have htext : (PyFloat.finite q).jsonText = (PyFloat.finite q).repr.toList := rfl
  rw [htext]
  unfold PyFloat.repr
  dsimp only
  split_ifs with hzero hpos
  · exact ⟨'0', ['.', '0'], rfl, Or.inl rfl⟩
  · obtain ⟨n, -, htext, -⟩ := exists_numeral_repr hpos ⟨k, hk, hden⟩
    obtain ⟨d, tail, hcons, hdigit⟩ := n.exists_text
    exact ⟨d, tail, hdigit, Or.inl (htext.trans hcons)⟩
  · have hneg : 0 < -q := neg_pos.2 (lt_of_le_of_ne (not_lt.1 hpos) hzero)
    have hden' : (-q * 10 ^ k).den = 1 := by
      rw [neg_mul, Rat.neg_den]
      exact hden
    obtain ⟨n, -, htext, -⟩ := exists_numeral_repr hneg ⟨k, hk, hden'⟩
    obtain ⟨d, tail, hcons, hdigit⟩ := n.exists_text
    refine ⟨d, tail, hdigit, Or.inr ?_⟩
    rw [toList_append_neg, htext, hcons]

/-- A float. -/
theorem readWith_float {x : PyFloat} (hx : IsDecimal x) (list dict : Reader Json)
    {rest : List Char} (h : Stops rest) :
    readWith list dict (x.jsonText ++ rest) = .ok (.float x, rest) := by
  cases x with
  | posInf =>
    have hmem : ("Infinity".toList, Json.float .posInf) ∈ wordsOfValues := by simp [wordsOfValues]
    exact readWith_word hmem list dict rest
  | negInf =>
    have hmem : ("-Infinity".toList, Json.float .negInf) ∈ wordsOfValues := by simp [wordsOfValues]
    exact readWith_word hmem list dict rest
  | nan =>
    have hmem : ("NaN".toList, Json.float .nan) ∈ wordsOfValues := by simp [wordsOfValues]
    exact readWith_word hmem list dict rest
  | finite q => exact readWith_number list dict (exists_jsonText hx) (readNumber_repr hx h)

/-- A string. -/
theorem readWith_string (s : String) (list dict : Reader Json) (rest : List Char) :
    readWith list dict (jsonString s ++ rest) = .ok (.str s, rest) := by
  have htext : jsonString s ++ rest = '"' :: (s.toList.flatMap jsonChar ++ '"' :: rest) := by
    simp [jsonString]
  rw [htext]
  unfold readWith
  dsimp only
  rw [if_pos rfl, readString_jsonString]
  rfl

/-! ### Lists and objects -/

/-- The first character of a value. -/
theorem head_dumpsWith (comma colon : List Char) (x : Json) (depth : ℕ) (hx : Writable x depth) :
    ∃ c rest, dumpsWith comma colon x = c :: rest ∧ isBlankChar c = false ∧ c ≠ ']' := by
  have hdigit : ∀ d : Char, d.isDigit = true → isBlankChar d = false ∧ d ≠ ']' := by
    intro d hd
    constructor
    · unfold isBlankChar
      simp only [Bool.or_eq_false_iff, decide_eq_false_iff_not]
      refine ⟨⟨⟨?_, ?_⟩, ?_⟩, ?_⟩ <;> rintro rfl <;> exact absurd hd (by decide)
    · rintro rfl
      exact absurd hd (by decide)
  cases x with
  | null => exact ⟨_, _, rfl, rfl, by decide⟩
  | bool b => cases b <;> exact ⟨_, _, rfl, rfl, by decide⟩
  | int n =>
    obtain ⟨d, tail, htext, hd⟩ := (Numeral.ofNat n.natAbs).exists_text
    have hshown := Numeral.toList_toString n
    rw [Numeral.signed, htext] at hshown
    split_ifs at hshown
    · exact ⟨'-', d :: tail, hshown, rfl, by decide⟩
    · exact ⟨d, tail, hshown, hdigit d hd⟩
  | float x =>
    cases x with
    | posInf => exact ⟨'I', _, rfl, rfl, by decide⟩
    | negInf => exact ⟨'-', _, rfl, rfl, by decide⟩
    | nan => exact ⟨'N', _, rfl, rfl, by decide⟩
    | finite q =>
      obtain ⟨d, tail, hd, htext | htext⟩ := exists_jsonText hx
      · exact ⟨d, tail, htext, hdigit d hd⟩
      · exact ⟨'-', d :: tail, htext, rfl, by decide⟩
  | str s => exact ⟨'"', _, rfl, rfl, by decide⟩
  | list xs => exact ⟨'[', _, rfl, rfl, by decide⟩
  | dict kvs => exact ⟨Char.ofNat 123, _, rfl, rfl, by decide⟩

theorem head_value {comma colon : List Char} {x : Json} {depth : ℕ} (hx : Writable x depth)
    (more : List Char) : ∀ d ∈ (dumpsWith comma colon x ++ more).head?, isBlankChar d = false := by
  obtain ⟨c, rest, htext, hblank, -⟩ := head_dumpsWith comma colon x depth hx
  intro d hd
  rw [htext] at hd
  exact Option.some.inj hd ▸ hblank

/-- Items with distinct keys are the dict. -/
theorem dictOfItems_of_nodup {kvs : List (String × Json)} (h : (kvs.map Prod.fst).Nodup) :
    dictOfItems kvs = .dict kvs := by
  have hput : ∀ kvs front : List (String × Json), ((front ++ kvs).map Prod.fst).Nodup →
      kvs.foldl putItem front = front ++ kvs := by
    intro kvs
    induction kvs with
    | nil => exact fun front _ => (List.append_nil front).symm
    | cons kv kvs ih =>
      intro front hnodup
      have hnew : kv.1 ∉ front.map Prod.fst := by
        rw [List.map_append, List.map_cons] at hnodup
        exact fun hmem => (List.nodup_append.1 hnodup).2.2 _ hmem _ List.mem_cons_self rfl
      have hsame : front ++ kv :: kvs = (front ++ [kv]) ++ kvs := by simp
      rw [List.foldl_cons, putItem, if_neg hnew, ih _ (hsame ▸ hnodup), ← hsame]
  unfold dictOfItems
  rw [hput kvs [] (by simpa using h), List.nil_append]

/-- A list has no more elements than its text has characters. -/
theorem length_le_dumpsList (comma colon : List Char) : ∀ (xs : List Json) (depth : ℕ),
    WritableElements xs depth → xs.length ≤ (dumpsList comma colon xs).length
  | [], _, _ => Nat.zero_le _
  | [x], depth, hxs => by
    obtain ⟨c, rest, htext, -⟩ := head_dumpsWith comma colon x depth hxs.1
    simp [dumpsList, htext]
  | x :: y :: xs, depth, hxs => by
    obtain ⟨c, rest, htext, -⟩ := head_dumpsWith comma colon x depth hxs.1
    have ih := length_le_dumpsList comma colon (y :: xs) depth hxs.2
    simp only [dumpsList, htext, List.length_append, List.length_cons] at ih ⊢
    omega

theorem length_le_dumpsItems (comma colon : List Char) : ∀ kvs : List (String × Json),
    kvs.length ≤ (dumpsItems comma colon kvs).length
  | [] => Nat.zero_le _
  | [(k, x)] => by simp [dumpsItems, jsonString]
  | (k, x) :: (k', x') :: kvs => by
    have ih := length_le_dumpsItems comma colon ((k', x') :: kvs)
    simp only [dumpsItems, jsonString, List.length_append, List.length_cons] at ih ⊢
    omega

/-- The text of the elements begins like the first. -/
theorem head_dumpsList (comma colon : List Char) {xs : List Json} (hne : xs ≠ []) {depth : ℕ}
    (hxs : WritableElements xs depth) (more : List Char) :
    ∃ c rest, dumpsList comma colon xs ++ more = c :: rest ∧ isBlankChar c = false ∧ c ≠ ']' := by
  obtain ⟨x, xs, rfl⟩ := List.exists_cons_of_ne_nil hne
  obtain ⟨c, rest, htext, hc⟩ := head_dumpsWith comma colon x depth hxs.1
  cases xs with
  | nil => exact ⟨c, rest ++ more, by rw [dumpsList, htext, List.cons_append], hc⟩
  | cons y xs =>
    refine ⟨c, rest ++ comma ++ dumpsList comma colon (y :: xs) ++ more, ?_, hc⟩
    rw [dumpsList, htext]
    · simp
    · exact List.cons_ne_nil _ _

theorem head_dumpsItems (comma colon : List Char) {kvs : List (String × Json)} (hne : kvs ≠ [])
    (more : List Char) : ∃ rest, dumpsItems comma colon kvs ++ more = '"' :: rest := by
  obtain ⟨⟨k, x⟩, kvs, rfl⟩ := List.exists_cons_of_ne_nil hne
  cases kvs with
  | nil => exact ⟨_, rfl⟩
  | cons kv kvs => exact ⟨_, rfl⟩

section Readers

variable {element : Reader Json} {x : Json} {xs : List Json} {key : String}
  {kvs : List (String × Json)} {text next rest blanks blanks' : List Char} {fuel : ℕ}

theorem readList_of_elements {c : Char} {more : List Char} (htext : text = c :: more)
    (hblank : isBlankChar c = false) (hbracket : c ≠ ']')
    (h : readElements element text.length text = .ok (xs, rest)) :
    readList element text = .ok (.list xs, rest) := by
  unfold readList
  rw [skipBlank_of_head fun d hd => by
    rw [htext] at hd
    exact Option.some.inj hd ▸ hblank]
  split
  · exact absurd (List.cons.inj htext).1.symm hbracket
  · rw [h]
    rfl

theorem readElements_last (h : element text = .ok (x, ']' :: rest)) :
    readElements element (fuel + 1) text = .ok ([x], rest) := by
  unfold readElements
  rw [h]
  rfl

theorem readElements_more (hblanks : Blank blanks)
    (hnext : ∀ c ∈ next.head?, isBlankChar c = false)
    (h : element text = .ok (x, ',' :: (blanks ++ next)))
    (hrest : readElements element fuel next = .ok (xs, rest)) :
    readElements element (fuel + 1) text = .ok (x :: xs, rest) := by
  have hcomma : skipBlank (',' :: (blanks ++ next)) = ',' :: (blanks ++ next) := rfl
  simp only [readElements, h, hcomma, skipBlank_append hblanks hnext, hrest, bind, Except.bind]

theorem readDict_of_items {more : List Char} (htext : text = '"' :: more)
    (h : readItems element text.length text = .ok (kvs, rest)) :
    readDict element text = .ok (dictOfItems kvs, rest) := by
  have hskip : skipBlank text = '"' :: more := by
    rw [htext]
    rfl
  unfold readDict
  rw [hskip]
  dsimp only
  rw [if_neg (by decide), ← htext, h]
  rfl

/-- The key of an item, and the beginning of its value. -/
theorem readItems_key (hblanks : Blank blanks')
    (hnext : ∀ c ∈ next.head?, isBlankChar c = false) :
    readItems element (fuel + 1) (jsonString key ++ ':' :: (blanks' ++ next)) =
      (element next).bind fun read =>
        match skipBlank read.2 with
        | c :: rest =>
            if c = Char.ofNat 125 then .ok ([(key, read.1)], rest)
            else if c = ',' then
              (readItems element fuel (skipBlank rest)).bind fun more =>
                .ok ((key, read.1) :: more.1, more.2)
            else .error .malformed
        | [] => .error .malformed := by
  have htext : jsonString key ++ ':' :: (blanks' ++ next) =
      '"' :: (key.toList.flatMap jsonChar ++ '"' :: ':' :: (blanks' ++ next)) := by
    simp [jsonString]
  have hcolon : skipBlank (':' :: (blanks' ++ next)) = ':' :: (blanks' ++ next) := rfl
  rw [htext]
  cases hread : element next with
  | error e =>
    simp [readItems, readString_jsonString, hcolon, skipBlank_append hblanks hnext, hread, bind,
      Except.bind]
  | ok read =>
    cases hrest : skipBlank read.2 with
    | nil =>
      simp [readItems, readString_jsonString, hcolon, skipBlank_append hblanks hnext, hread, hrest,
        bind, Except.bind]
    | cons c rest =>
      cases hmore : readItems element fuel (skipBlank rest) <;>
        simp [readItems, readString_jsonString, hcolon, skipBlank_append hblanks hnext, hread,
          hrest, hmore, bind, Except.bind]

theorem readItems_last (hblanks : Blank blanks')
    (hnext : ∀ c ∈ next.head?, isBlankChar c = false)
    (h : element next = .ok (x, Char.ofNat 125 :: rest)) :
    readItems element (fuel + 1) (jsonString key ++ ':' :: (blanks' ++ next)) =
      .ok ([(key, x)], rest) := by
  rw [readItems_key hblanks hnext, h]
  rfl

theorem readItems_more {after : List Char} (hblanks : Blank blanks) (hblanks' : Blank blanks')
    (hnext : ∀ c ∈ next.head?, isBlankChar c = false)
    (hafter : ∀ c ∈ after.head?, isBlankChar c = false)
    (h : element next = .ok (x, ',' :: (blanks ++ after)))
    (hrest : readItems element fuel after = .ok (kvs, rest)) :
    readItems element (fuel + 1) (jsonString key ++ ':' :: (blanks' ++ next)) =
      .ok ((key, x) :: kvs, rest) := by
  have hcomma : skipBlank (',' :: (blanks ++ after)) = ',' :: (blanks ++ after) := rfl
  rw [readItems_key hblanks' hnext, h]
  simp only [Except.bind, hcomma, skipBlank_append hblanks hafter, hrest]
  rfl

end Readers

section Documents

variable {blanks blanks' : List Char}

mutual

/-- **A value is read from the beginning of a text.** -/
theorem readJson_dumps (hcomma : Blank blanks) (hcolon : Blank blanks') :
    ∀ (x : Json) (depth : ℕ), Writable x depth → ∀ rest, Stops rest →
      readJson depth (dumpsWith (',' :: blanks) (':' :: blanks') x ++ rest) = .ok (x, rest)
  | .null, depth, _, rest, _ => by
    have hmem : ("null".toList, Json.null) ∈ wordsOfValues := by simp [wordsOfValues]
    cases depth <;> exact readWith_word hmem _ _ rest
  | .bool b, depth, _, rest, _ => by
    have hmem : ((if b then "true".toList else "false".toList), Json.bool b) ∈ wordsOfValues := by
      cases b <;> simp [wordsOfValues]
    cases depth <;> exact readWith_word hmem _ _ rest
  | .int n, depth, hx, rest, h => by cases depth <;> exact readWith_int hx _ _ h
  | .float x, depth, hx, rest, h => by cases depth <;> exact readWith_float hx _ _ h
  | .str s, depth, _, rest, _ => by cases depth <;> exact readWith_string s _ _ rest
  | .list xs, depth, hx, rest, h => by
    cases depth with
    | zero => exact absurd hx id
    | succ depth =>
      have htext : dumpsWith (',' :: blanks) (':' :: blanks') (.list xs) ++ rest =
          '[' :: (dumpsList (',' :: blanks) (':' :: blanks') xs ++ ']' :: rest) := by
        simp [dumpsWith]
      have hread : readJson (depth + 1) ('[' :: (dumpsList (',' :: blanks) (':' :: blanks') xs ++
          ']' :: rest)) = readList (readJson depth)
            (dumpsList (',' :: blanks) (':' :: blanks') xs ++ ']' :: rest) := rfl
      rw [htext, hread]
      rcases eq_or_ne xs [] with rfl | hne
      · rfl
      obtain ⟨c, more, hhead, hblank, hbracket⟩ :=
        head_dumpsList (',' :: blanks) (':' :: blanks') hne hx (']' :: rest)
      have hlength := length_le_dumpsList (',' :: blanks) (':' :: blanks') xs depth hx
      refine readList_of_elements hhead hblank hbracket
        (readElements_dumps hcomma hcolon xs depth hx hne _ ?_ rest)
      rw [List.length_append]
      omega
  | .dict kvs, depth, hx, rest, h => by
    cases depth with
    | zero => exact absurd hx id
    | succ depth =>
      have htext : dumpsWith (',' :: blanks) (':' :: blanks') (.dict kvs) ++ rest =
          Char.ofNat 123 ::
            (dumpsItems (',' :: blanks) (':' :: blanks') kvs ++ Char.ofNat 125 :: rest) := by
        simp [dumpsWith]
      have hread : readJson (depth + 1) (Char.ofNat 123 ::
          (dumpsItems (',' :: blanks) (':' :: blanks') kvs ++ Char.ofNat 125 :: rest)) =
            readDict (readJson depth)
              (dumpsItems (',' :: blanks) (':' :: blanks') kvs ++ Char.ofNat 125 :: rest) := rfl
      rw [htext, hread]
      rcases eq_or_ne kvs [] with rfl | hne
      · rfl
      obtain ⟨more, hhead⟩ :=
        head_dumpsItems (',' :: blanks) (':' :: blanks') hne (Char.ofNat 125 :: rest)
      have hlength := length_le_dumpsItems (',' :: blanks) (':' :: blanks') kvs
      rw [← dictOfItems_of_nodup hx.1]
      refine readDict_of_items hhead (readItems_dumps hcomma hcolon kvs depth hx.2 hne _ ?_ rest)
      rw [List.length_append]
      omega

/-- The elements of a list that is not empty. -/
theorem readElements_dumps (hcomma : Blank blanks) (hcolon : Blank blanks') :
    ∀ (xs : List Json) (depth : ℕ), WritableElements xs depth → xs ≠ [] →
      ∀ fuel, xs.length ≤ fuel → ∀ rest,
      readElements (readJson depth) fuel
        (dumpsList (',' :: blanks) (':' :: blanks') xs ++ ']' :: rest) = .ok (xs, rest)
  | [], _, _, hne, _, _, _ => absurd rfl hne
  | _ :: _, _, _, _, 0, hfuel, _ => absurd hfuel (by simp)
  | [x], depth, hxs, _, fuel + 1, _, rest =>
    readElements_last (readJson_dumps hcomma hcolon x depth hxs.1 _ (stops_cons (by decide)))
  | x :: y :: xs, depth, hxs, _, fuel + 1, hfuel, rest => by
    obtain ⟨c, more, hhead, hblank, -⟩ := head_dumpsList (',' :: blanks) (':' :: blanks')
      (List.cons_ne_nil y xs) hxs.2 (']' :: rest)
    have htext : dumpsList (',' :: blanks) (':' :: blanks') (x :: y :: xs) ++ ']' :: rest =
        dumpsWith (',' :: blanks) (':' :: blanks') x ++ ',' :: (blanks ++
          (dumpsList (',' :: blanks) (':' :: blanks') (y :: xs) ++ ']' :: rest)) := by
      simp [dumpsList]
    rw [htext]
    refine readElements_more hcomma (fun d hd => ?_)
      (readJson_dumps hcomma hcolon x depth hxs.1 _ (stops_cons (by decide)))
      (readElements_dumps hcomma hcolon (y :: xs) depth hxs.2 (List.cons_ne_nil _ _) fuel
        (Nat.le_of_succ_le_succ hfuel) rest)
    rw [hhead] at hd
    exact Option.some.inj hd ▸ hblank

/-- The items of an object that is not empty. -/
theorem readItems_dumps (hcomma : Blank blanks) (hcolon : Blank blanks') :
    ∀ (kvs : List (String × Json)) (depth : ℕ), WritableItems kvs depth → kvs ≠ [] →
      ∀ fuel, kvs.length ≤ fuel → ∀ rest,
      readItems (readJson depth) fuel
        (dumpsItems (',' :: blanks) (':' :: blanks') kvs ++ Char.ofNat 125 :: rest) =
          .ok (kvs, rest)
  | [], _, _, hne, _, _, _ => absurd rfl hne
  | _ :: _, _, _, _, 0, hfuel, _ => absurd hfuel (by simp)
  | [(key, x)], depth, hkvs, _, fuel + 1, _, rest => by
    have htext :
        dumpsItems (',' :: blanks) (':' :: blanks') [(key, x)] ++ Char.ofNat 125 :: rest =
        jsonString key ++ ':' :: (blanks' ++ (dumpsWith (',' :: blanks) (':' :: blanks') x ++
          Char.ofNat 125 :: rest)) := by
      simp [dumpsItems]
    rw [htext]
    exact readItems_last hcolon (head_value hkvs.1 _)
      (readJson_dumps hcomma hcolon x depth hkvs.1 _ (stops_cons (by decide)))
  | (key, x) :: (key', x') :: kvs, depth, hkvs, _, fuel + 1, hfuel, rest => by
    obtain ⟨more, hhead⟩ := head_dumpsItems (',' :: blanks) (':' :: blanks')
      (List.cons_ne_nil (key', x') kvs) (Char.ofNat 125 :: rest)
    have htext : dumpsItems (',' :: blanks) (':' :: blanks') ((key, x) :: (key', x') :: kvs) ++
        Char.ofNat 125 :: rest =
          jsonString key ++ ':' :: (blanks' ++ (dumpsWith (',' :: blanks) (':' :: blanks') x ++
            ',' :: (blanks ++ (dumpsItems (',' :: blanks) (':' :: blanks') ((key', x') :: kvs) ++
              Char.ofNat 125 :: rest)))) := by
      simp [dumpsItems]
    rw [htext]
    refine readItems_more hcomma hcolon (head_value hkvs.1 _) (fun d hd => ?_)
      (readJson_dumps hcomma hcolon x depth hkvs.1 _ (stops_cons (by decide)))
      (readItems_dumps hcomma hcolon ((key', x') :: kvs) depth hkvs.2 (List.cons_ne_nil _ _) fuel
        (Nat.le_of_succ_le_succ hfuel) rest)
    rw [hhead] at hd
    obtain rfl := Option.some.inj hd
    rfl

end

end Documents

/-! ### Documents -/

/-- **What `json.dumps` writes is read as what was written.** -/
theorem loads_dumpsWith {blanks blanks' : List Char} (hcomma : Blank blanks)
    (hcolon : Blank blanks') {x : Json} {depth : ℕ} (hx : Writable x depth) :
    loads depth (String.ofList (dumpsWith (',' :: blanks) (':' :: blanks') x)) = .ok x := by
  have hread := readJson_dumps hcomma hcolon x depth hx [] fun c hc => by cases hc
  have hhead : ∀ d ∈ (dumpsWith (',' :: blanks) (':' :: blanks') x ++ []).head?,
      isBlankChar d = false := head_value hx []
  rw [List.append_nil] at hread hhead
  unfold loads
  rw [String.toList_ofList, skipBlank_of_head hhead, hread]
  rfl

/-- The text of the store. -/
theorem loads_jsonDumps {x : Json} {depth : ℕ} (hx : Writable x depth) :
    loads depth (jsonDumps x) = .ok x := by
  have hblank : Blank [' '] := fun c hc => by
    obtain rfl := List.mem_singleton.1 hc
    rfl
  exact loads_dumpsWith hblank hblank hx

mutual

/-- The compact form has no blanks. -/
theorem dumpsWith_compact : ∀ x : Json, dumpsWith [','] [':'] x = jsonText x
  | .null => rfl
  | .bool _ => rfl
  | .int _ => rfl
  | .float _ => rfl
  | .str _ => rfl
  | .list xs => by simp [dumpsWith, jsonText, dumpsList_compact xs]
  | .dict kvs => by simp [dumpsWith, jsonText, dumpsItems_compact kvs]

theorem dumpsList_compact : ∀ xs : List Json, dumpsList [','] [':'] xs = jsonTexts xs
  | [] => rfl
  | [x] => by simp [dumpsList, jsonTexts, dumpsWith_compact x]
  | x :: y :: xs => by
    simp [dumpsList, jsonTexts, dumpsWith_compact x, dumpsList_compact (y :: xs)]

theorem dumpsItems_compact : ∀ kvs : List (String × Json),
    dumpsItems [','] [':'] kvs = jsonTextItems kvs
  | [] => rfl
  | [(k, x)] => by simp [dumpsItems, jsonTextItems, dumpsWith_compact x]
  | (k, x) :: (k', x') :: kvs => by
    simp [dumpsItems, jsonTextItems, dumpsWith_compact x, dumpsItems_compact ((k', x') :: kvs)]

end

/-- What `jsonify` writes, which ends in a line feed. -/
theorem loads_jsonText {x : Json} {depth : ℕ} (hx : Writable x depth) :
    loads depth (String.ofList (jsonText x ++ ['\n'])) = .ok x := by
  have hnone : Blank [] := fun c hc => by cases hc
  have hstop : Stops ['\n'] := stops_cons (by decide)
  have hread := readJson_dumps hnone hnone x depth hx ['\n'] hstop
  have hhead : ∀ d ∈ (dumpsWith [','] [':'] x ++ ['\n']).head?,
      isBlankChar d = false := head_value hx ['\n']
  rw [dumpsWith_compact] at hread hhead
  unfold loads
  rw [String.toList_ofList, skipBlank_of_head hhead, hread]
  rfl

end JsonText

end RunnerSwarm
