import Mathlib
import RunnerSwarm.Lib.Exposition
import RunnerSwarm.Lib.UrlPath
import RunnerSwarm.Python

/-!
# Reading JSON text

`json.loads` on the text of a document. The interpreter lets values nest only so deep; beyond, both
directions raise a `RecursionError`.

* `JsonText.loads` reads a document: spaces, one value, spaces, and nothing else;
* a string is read in two steps, its code points first (`readUnits`) and then the characters they
  denote, since two escapes may be the halves of one character (`fromUnits`);
* a number is the longest text of the shape of one, an integer if it has neither a fraction nor an
  exponent;
* `JsonText.loads_dumpsWith`: what `json.dumps` writes is read as what was written, whatever spaces
  the separators have.

A lone half of a surrogate pair is no character here, and is taken for an error.
-/

namespace RunnerSwarm

namespace JsonText

/-- How reading fails: by a `ValueError`, or by a `RecursionError`. -/
inductive Failure
  | malformed
  | tooDeep
  deriving DecidableEq

/-- What a reader makes of the beginning of a text, and the rest. -/
abbrev Reader (α : Type) := List Char → Except Failure (α × List Char)

/-- The spaces between the parts of a document. -/
def isBlankChar (c : Char) : Bool := c = ' ' || c = '\t' || c = '\n' || c = '\r'

def skipBlank (text : List Char) : List Char := text.dropWhile isBlankChar

/-! ### Strings -/

/-- What a character stands for after a backslash. -/
def escaped (c : Char) : Option ℕ :=
  if c = '"' ∨ c = '\\' ∨ c = '/' then some c.toNat
  else if c = 'b' then some 8
  else if c = 'f' then some 12
  else if c = 'n' then some 10
  else if c = 'r' then some 13
  else if c = 't' then some 9
  else none

/-- Four hexadecimal digits. -/
def hexUnit (a b c d : Char) : Option ℕ := do
  let w ← UrlPath.hexValue a
  let x ← UrlPath.hexValue b
  let y ← UrlPath.hexValue c
  let z ← UrlPath.hexValue d
  return 4096 * w + 256 * x + 16 * y + z

/-- The code points of a string up to its closing quote, and the rest. -/
def readUnits : List Char → Option (List ℕ × List Char)
  | [] => none
  | '"' :: rest => some ([], rest)
  | '\\' :: 'u' :: a :: b :: c :: d :: rest => do
      let n ← hexUnit a b c d
      let (units, rest) ← readUnits rest
      return (n :: units, rest)
  | '\\' :: c :: rest => do
      let n ← escaped c
      let (units, rest) ← readUnits rest
      return (n :: units, rest)
  | c :: rest =>
      if c.toNat < 32 then none
      else do
        let (units, rest) ← readUnits rest
        return (c.toNat :: units, rest)

def isHighHalf (n : ℕ) : Bool := 0xd800 ≤ n && n < 0xdc00

def isLowHalf (n : ℕ) : Bool := 0xdc00 ≤ n && n < 0xe000

/-- The characters of code points; two halves that follow each other are one character. -/
def fromUnits : List ℕ → Option (List Char)
  | [] => some []
  | high :: low :: units =>
      if isHighHalf high && isLowHalf low then
        (fromUnits units).map
          (Char.ofNat (0x10000 + (high - 0xd800) * 0x400 + (low - 0xdc00)) :: ·)
      else if isHighHalf high || isLowHalf high then none
      else (fromUnits (low :: units)).map (Char.ofNat high :: ·)
  | [n] => if isHighHalf n || isLowHalf n then none else some [Char.ofNat n]

/-- A string, behind its opening quote. -/
def readString : Reader String := fun text =>
  match readUnits text with
  | none => .error .malformed
  | some (units, rest) =>
      match fromUnits units with
      | none => .error .malformed
      | some chars => .ok (String.ofList chars, rest)

/-! ### Numbers -/

/-- A sign. -/
def readMinus : List Char → List Char × List Char
  | '-' :: rest => (['-'], rest)
  | text => ([], text)

/-- The digits before the point. No zero stands in front of others. -/
def readWhole : List Char → List Char × List Char
  | '0' :: rest => (['0'], rest)
  | text => text.span Char.isDigit

/-- A point and the digits behind it, or nothing. -/
def readFraction : List Char → List Char × List Char
  | '.' :: rest =>
      let (digits, more) := rest.span Char.isDigit
      if digits = [] then ([], '.' :: rest) else ('.' :: digits, more)
  | text => ([], text)

/-- A sign of either kind. -/
def readSign : List Char → List Char × List Char
  | '-' :: rest => (['-'], rest)
  | '+' :: rest => (['+'], rest)
  | text => ([], text)

/-- The letter of an exponent, a sign and digits, or nothing. -/
def readExponent : List Char → List Char × List Char
  | [] => ([], [])
  | e :: rest =>
      let (sign, more) := readSign rest
      let (digits, more) := more.span Char.isDigit
      if (e = 'e' ∨ e = 'E') ∧ digits ≠ [] then (e :: (sign ++ digits), more) else ([], e :: rest)

/-- The value of a number. An integer of too many digits is refused. -/
def numberOf (shown : List Char) (isInt : Bool) : Option Json :=
  if isInt then (intOfString (String.ofList shown)).map .int
  else (floatOfString (String.ofList shown)).map .float

/-- A number. -/
def readNumber : Reader Json := fun text =>
  let (minus, rest) := readMinus text
  let (whole, rest) := readWhole rest
  if whole = [] then .error .malformed
  else
    let (fraction, rest) := readFraction rest
    let (exponent, rest) := readExponent rest
    (numberOf (minus ++ whole ++ fraction ++ exponent) (fraction = [] && exponent = [])).elim
      (.error .malformed) fun x => .ok (x, rest)

/-! ### Documents -/

/-- The words for values. -/
def wordsOfValues : List (List Char × Json) :=
  [("null".toList, .null), ("true".toList, .bool true), ("false".toList, .bool false),
    ("NaN".toList, .float .nan), ("Infinity".toList, .float .posInf),
    ("-Infinity".toList, .float .negInf)]

/-- A value that is written as one word. -/
def readWord (text : List Char) : Option (Json × List Char) :=
  (wordsOfValues.find? fun word => word.1.isPrefixOf text).map fun word =>
    (word.2, text.drop word.1.length)

/-- The elements of a list that is not empty; `fuel` bounds their number. -/
def readElements (element : Reader Json) : ℕ → Reader (List Json)
  | 0, _ => .error .malformed
  | fuel + 1, text => do
      let (x, rest) ← element text
      match skipBlank rest with
      | ']' :: rest => .ok ([x], rest)
      | ',' :: rest => do
          let (xs, rest) ← readElements element fuel (skipBlank rest)
          .ok (x :: xs, rest)
      | _ => .error .malformed

/-- A list, behind its bracket. -/
def readList (element : Reader Json) : Reader Json := fun text =>
  match skipBlank text with
  | ']' :: rest => .ok (.list [], rest)
  | rest => do
      let (xs, rest) ← readElements element rest.length rest
      .ok (.list xs, rest)

/-- The items of an object that is not empty. -/
def readItems (element : Reader Json) : ℕ → Reader (List (String × Json))
  | 0, _ => .error .malformed
  | fuel + 1, text =>
      match text with
      | '"' :: text => do
          let (key, rest) ← readString text
          match skipBlank rest with
          | ':' :: rest => do
              let (x, rest) ← element (skipBlank rest)
              match skipBlank rest with
              | c :: rest =>
                  if c = Char.ofNat 125 then .ok ([(key, x)], rest)
                  else if c = ',' then do
                    let (items, rest) ← readItems element fuel (skipBlank rest)
                    .ok ((key, x) :: items, rest)
                  else .error .malformed
              | [] => .error .malformed
          | _ => .error .malformed
      | _ => .error .malformed

/-- `d[key] = value`. -/
def putItem (items : List (String × Json)) (item : String × Json) : List (String × Json) :=
  if item.1 ∈ items.map Prod.fst then items.map fun old => if old.1 = item.1 then item else old
  else items ++ [item]

/-- `dict(items)`: of items with one key, the last counts. -/
def dictOfItems (items : List (String × Json)) : Json := .dict (items.foldl putItem [])

/-- An object, behind its brace. -/
def readDict (element : Reader Json) : Reader Json := fun text =>
  match skipBlank text with
  | [] => .error .malformed
  | c :: rest =>
      if c = Char.ofNat 125 then .ok (.dict [], rest)
      else do
        let (items, rest) ← readItems element (c :: rest).length (c :: rest)
        .ok (dictOfItems items, rest)

/-- A value, when lists and objects are read by `list` and `dict`. -/
def readWith (list dict : Reader Json) : Reader Json
  | [] => .error .malformed
  | c :: rest =>
      if c = '"' then (readString rest).map fun (s, rest) => (.str s, rest)
      else if c = '[' then list rest
      else if c = Char.ofNat 123 then dict rest
      else
        match readWord (c :: rest) with
        | some found => .ok found
        | none => readNumber (c :: rest)

/-- A value that nests no deeper than `depth`. -/
def readJson : ℕ → Reader Json
  | 0 => readWith (fun _ => .error .tooDeep) (fun _ => .error .tooDeep)
  | depth + 1 => readWith (readList (readJson depth)) (readDict (readJson depth))

/-- `json.loads`. -/
def loads (depth : ℕ) (text : String) : Except Failure Json := do
  let (x, rest) ← readJson depth (skipBlank text.toList)
  if skipBlank rest = [] then .ok x else .error .malformed

/-! ### Strings are read back -/

/-- The code points of characters. -/
theorem toNat_range (c : Char) :
    c.toNat < 0xd800 ∨ 0xdfff < c.toNat ∧ c.toNat < 0x110000 := c.valid

theorem hexValue_hexDigit : ∀ n < 16, UrlPath.hexValue (hexDigit n) = some n := by decide

/-- An escape is read as its code unit. -/
theorem readUnits_jsonEscape {n : ℕ} (hn : n < 0x10000) (text : List Char) :
    readUnits (jsonEscape n ++ text) =
      (readUnits text).map fun read => (n :: read.1, read.2) := by
  have hunit : hexUnit (hexDigit (n / 4096)) (hexDigit (n / 256 % 16)) (hexDigit (n / 16 % 16))
      (hexDigit (n % 16)) = some n := by
    unfold hexUnit
    rw [hexValue_hexDigit _ (by omega), hexValue_hexDigit _ (by omega),
      hexValue_hexDigit _ (by omega), hexValue_hexDigit _ (by omega)]
    refine congrArg some ?_
    show 4096 * (n / 4096) + 256 * (n / 256 % 16) + 16 * (n / 16 % 16) + n % 16 = n
    omega
  unfold jsonEscape
  simp only [List.cons_append, List.nil_append, readUnits, hunit, Option.bind_eq_bind,
    Option.bind_some]
  cases readUnits text <;> rfl

/-- A character after a backslash is read as what it stands for. -/
theorem readUnits_escaped {c : Char} {n : ℕ} (hc : escaped c = some n) (text : List Char) :
    readUnits ('\\' :: c :: text) =
      (readUnits text).map fun read => (n :: read.1, read.2) := by
  have hu : c ≠ 'u' := by
    rintro rfl
    have hnone : escaped 'u' = none := by decide
    rw [hnone] at hc
    cases hc
  rw [readUnits]
  · rw [hc]
    cases readUnits text <;> rfl
  · rintro _ _ _ _ _ rfl -
    exact hu rfl

/-- A character that stands for itself. -/
theorem readUnits_plain {c : Char} (hquote : c ≠ '"') (hback : c ≠ '\\') (hc : 32 ≤ c.toNat)
    (text : List Char) :
    readUnits (c :: text) = (readUnits text).map fun read => (c.toNat :: read.1, read.2) := by
  rw [readUnits]
  · rw [if_neg (not_lt.2 hc)]
    cases readUnits text <;> rfl
  · exact hquote
  · rintro _ _ _ _ _ rfl
    exact absurd rfl hback
  · rintro _ _ rfl
    exact absurd rfl hback

/-- The code units that are written for a character. -/
def unitsOf (c : Char) : List ℕ :=
  if c.toNat < 0x10000 then [c.toNat]
  else [0xd800 + (c.toNat - 0x10000) / 0x400, 0xdc00 + (c.toNat - 0x10000) % 0x400]

/-- What is written for a character is read as its units. -/
theorem readUnits_jsonChar (c : Char) (text : List Char) : readUnits (jsonChar c ++ text) =
    (readUnits text).map fun read => (unitsOf c ++ read.1, read.2) := by
  have hsmall : c.toNat < 0x10000 → unitsOf c = [c.toNat] := fun h => if_pos h
  have hrange := toNat_range c
  unfold jsonChar
  dsimp only
  split_ifs with hquote hn hr ht hb hf hplain hbmp
  · have hesc : escaped c = some c.toNat :=
      if_pos (hquote.imp_right Or.inl)
    have hunits : unitsOf c = [c.toNat] := by
      rcases hquote with rfl | rfl <;> decide
    rw [hunits]
    exact readUnits_escaped hesc text
  · rw [hn]
    exact readUnits_escaped (by decide) text
  · rw [hr]
    exact readUnits_escaped (by decide) text
  · rw [ht]
    exact readUnits_escaped (by decide) text
  · rw [hsmall (by omega), hb]
    exact readUnits_escaped (by decide) text
  · rw [hsmall (by omega), hf]
    exact readUnits_escaped (by decide) text
  · rw [hsmall (by omega)]
    rw [not_or] at hquote
    exact readUnits_plain hquote.1 hquote.2 hplain.1 text
  · rw [hsmall hbmp]
    exact readUnits_jsonEscape hbmp text
  · have hunits : unitsOf c = [_, _] := if_neg hbmp
    rw [hunits, List.append_assoc, readUnits_jsonEscape (by omega),
      readUnits_jsonEscape (by omega), Option.map_map]
    rfl

/-- No character is the half of a pair. -/
theorem not_half (c : Char) : isHighHalf c.toNat = false ∧ isLowHalf c.toNat = false := by
  have hrange := toNat_range c
  unfold isHighHalf isLowHalf
  simp only [Bool.and_eq_false_iff, decide_eq_false_iff_not, not_le, not_lt]
  omega

/-- The units of a character are read as the character. -/
theorem fromUnits_unitsOf (c : Char) (units : List ℕ) :
    fromUnits (unitsOf c ++ units) = (fromUnits units).map (c :: ·) := by
  have hrange := toNat_range c
  obtain ⟨hhigh, hlow⟩ := not_half c
  unfold unitsOf
  split_ifs with hbmp
  · cases units with
    | nil => simp [fromUnits, hhigh, hlow]
    | cons low units =>
      simp [fromUnits, hhigh, hlow]
  · have hpair : isHighHalf (0xd800 + (c.toNat - 0x10000) / 0x400) = true ∧
        isLowHalf (0xdc00 + (c.toNat - 0x10000) % 0x400) = true := by
      unfold isHighHalf isLowHalf
      simp only [Bool.and_eq_true, decide_eq_true_eq]
      omega
    have hchar : 0x10000 + (0xd800 + (c.toNat - 0x10000) / 0x400 - 0xd800) * 0x400 +
        (0xdc00 + (c.toNat - 0x10000) % 0x400 - 0xdc00) = c.toNat := by
      omega
    rw [List.cons_append, List.cons_append, List.nil_append, fromUnits, hpair.1, hpair.2,
      hchar, Char.ofNat_toNat]
    rfl

/-- **A string is read back.** -/
theorem readString_jsonString (s : String) (rest : List Char) :
    readString (s.toList.flatMap jsonChar ++ '"' :: rest) = .ok (s, rest) := by
  have hunits : ∀ chars : List Char, readUnits (chars.flatMap jsonChar ++ '"' :: rest) =
      some (chars.flatMap unitsOf, rest) := by
    intro chars
    induction chars with
    | nil => rfl
    | cons c chars ih =>
      rw [List.flatMap_cons, List.append_assoc, readUnits_jsonChar, ih, List.flatMap_cons]
      rfl
  have hchars : ∀ chars : List Char, fromUnits (chars.flatMap unitsOf) = some chars := by
    intro chars
    induction chars with
    | nil => rfl
    | cons c chars ih =>
      rw [List.flatMap_cons, fromUnits_unitsOf, ih]
      rfl
  unfold readString
  rw [hunits]
  dsimp only
  rw [hchars]
  dsimp only
  rw [String.ofList_toList]

end JsonText

end RunnerSwarm
