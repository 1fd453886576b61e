import Mathlib.Tactic
import Mathlib.Data.Int.Log
import Mathlib.Data.List.DropRight
import Mathlib.Data.Rat.Floor
import RunnerSwarm.Lib.LetterCase

/-!
# Python values and their conversions

What the orchestrator takes from the language: the values `json.loads` and `yaml.safe_load`
return, and the built-in conversions applied to them.

* `Json` is such a value; an object keeps its keys in order, and `Json.get` finds the first;
* `PyFloat` is a float: a finite number (kept exact, without rounding to binary64) or one of the
  special values, which JSON text can also denote (`Infinity`, `NaN`, `1e400`);
* `pyInt`, `pyFloat`, `pyStr` and `pyBool` are `int(x)`, `float(x)`, `str(x)` and `bool(x)`;
  the first two raise, so they return `Except PyError`;
* `strip`, `lower` and `startsWith` are the string methods; `lower` maps every letter of Unicode.
-/

namespace RunnerSwarm

/-- The exceptions the modelled code raises or catches. -/
inductive PyError
  | typeError
  | valueError
  | overflowError
  | attributeError
  | keyError
  | recursionError
  | runtimeError
  deriving DecidableEq, Repr

/-- A float. -/
inductive PyFloat
  | finite (q : ℚ)
  | posInf
  | negInf
  | nan
  deriving DecidableEq

/-- The comparison `x <= y`, false when either side is `nan`. -/
def PyFloat.le : PyFloat → PyFloat → Bool
  | .finite p, .finite q => decide (p ≤ q)
  | .nan, _ => false
  | _, .nan => false
  | .negInf, _ => true
  | _, .posInf => true
  | .posInf, _ => false
  | _, .negInf => false

/-- The comparison `x < y`. -/
def PyFloat.lt (x y : PyFloat) : Bool := x.le y && x ≠ y

/-- `x * q` for a positive `q`. -/
def PyFloat.scale (x : PyFloat) (q : ℚ) : PyFloat :=
  match x with
  | .finite p => .finite (p * q)
  | x => x

/-- A value read from JSON or YAML. -/
inductive Json
  | null
  | bool (b : Bool)
  | int (n : ℤ)
  | float (x : PyFloat)
  | str (s : String)
  | list (xs : List Json)
  | dict (kvs : List (String × Json))

/-- `d.get(key)` on the items of a dict. -/
def getItem (kvs : List (String × Json)) (key : String) : Option Json :=
  (kvs.find? fun kv => kv.1 == key).map Prod.snd

/-! ### Text -/

/-- `str.isspace` of one character. -/
def isSpace (c : Char) : Bool :=
  let n := c.toNat
  (9 ≤ n && n ≤ 13) || (28 ≤ n && n ≤ 32) || n == 0x85 || n == 0xa0 || n == 0x1680 ||
    (0x2000 ≤ n && n ≤ 0x200a) || n == 0x2028 || n == 0x2029 || n == 0x202f || n == 0x205f ||
    n == 0x3000

/-- `s.strip()` on the characters of `s`. -/
def stripChars (s : List Char) : List Char :=
  ((s.dropWhile isSpace).reverse.dropWhile isSpace).reverse

/-- `s.strip()`. -/
def strip (s : String) : String := String.ofList (stripChars s.toList)

/-- `s.lower()`. -/
def lower (s : String) : String := String.ofList (lowerChars s.toList)

/-- `s.replace(a, b)` for single characters. -/
def replaceChar (s : String) (a b : Char) : String :=
  String.ofList (s.toList.map fun c => if c = a then b else c)

/-- `s.startswith(p)`. -/
def startsWith (s p : String) : Bool := p.toList.isPrefixOf s.toList

/-- `s.replace(old, new)` on the characters of `s`, for a text `old` that is not empty; of a match
that has begun, `skip` characters are left. -/
def replaceFrom (old new : List Char) : ℕ → List Char → List Char
  | _, [] => []
  | skip + 1, _ :: rest => replaceFrom old new skip rest
  | 0, c :: rest =>
      if old.isPrefixOf (c :: rest) then new ++ replaceFrom old new (old.length - 1) rest
      else c :: replaceFrom old new 0 rest

/-- `s.replace(old, new)`. -/
def replaceText (s old new : String) : String :=
  String.ofList (replaceFrom old.toList new.toList 0 s.toList)

/-- `s.rstrip(c)`. -/
def rstripChar (s : String) (c : Char) : String := String.ofList (s.toList.rdropWhile (· = c))

/-- `s.split()` on the characters of `s`; `word` is the word being read. -/
def wordsFrom (word : List Char) : List Char → List (List Char)
  | [] => if word = [] then [] else [word]
  | c :: rest =>
      if isSpace c then if word = [] then wordsFrom [] rest else word :: wordsFrom [] rest
      else wordsFrom (word ++ [c]) rest

/-- `s.split()`. -/
def words (s : String) : List String := (wordsFrom [] s.toList).map String.ofList

/-- `t in s`. -/
def hasText (s t : String) : Bool := s.toList.tails.any fun rest => t.toList.isPrefixOf rest

/-- `s.isascii()`. -/
def isAscii (s : String) : Bool := s.toList.all fun c => c.toNat < 128

/-- The code points of the decimal zeros (Unicode category Nd); the nine digits follow each. -/
def decimalZeros : List ℕ :=
  [0x30, 0x660, 0x6f0, 0x7c0, 0x966, 0x9e6, 0xa66, 0xae6, 0xb66, 0xbe6, 0xc66, 0xce6, 0xd66,
    0xde6, 0xe50, 0xed0, 0xf20, 0x1040, 0x1090, 0x17e0, 0x1810, 0x1946, 0x19d0, 0x1a80, 0x1a90,
    0x1b50, 0x1bb0, 0x1c40, 0x1c50, 0xa620, 0xa8d0, 0xa900, 0xa9d0, 0xa9f0, 0xaa50, 0xabf0,
    0xff10, 0x104a0, 0x10d30, 0x11066, 0x110f0, 0x11136, 0x111d0, 0x112f0, 0x11450, 0x114d0,
    0x11650, 0x116c0, 0x11730, 0x118e0, 0x11950, 0x11c50, 0x11d50, 0x11da0, 0x11f50, 0x16a60,
    0x16ac0, 0x16b50, 0x1d7ce, 0x1d7d8, 0x1d7e2, 0x1d7ec, 0x1d7f6, 0x1e140, 0x1e2f0, 0x1e4f0,
    0x1e950, 0x1fbf0]

/-- The value of a decimal digit. -/
def digitValue (c : Char) : Option ℕ :=
  (decimalZeros.find? fun z => z ≤ c.toNat && c.toNat < z + 10).map (c.toNat - ·)

/-- A digit part of a numeric literal: digits, with single underscores between them. -/
def digitPart : List Char → Option (List ℕ)
  | [] => none
  | [c] => (digitValue c).map fun d => [d]
  | c :: '_' :: rest => do
      let d ← digitValue c
      let ds ← digitPart rest
      return d :: ds
  | c :: rest => do
      let d ← digitValue c
      let ds ← digitPart rest
      return d :: ds

/-- The number a list of digits denotes, most significant first. -/
def ofDigits (ds : List ℕ) : ℕ := ds.foldl (fun n d => 10 * n + d) 0

/-- An optional sign, and the rest. -/
def splitSign : List Char → Bool × List Char
  | '-' :: rest => (true, rest)
  | '+' :: rest => (false, rest)
  | rest => (false, rest)

/-- The interpreter's limit on the digits of an `int` read from text. -/
def maxStrDigits : ℕ := 4300

/-- `int(s)` for a string, `none` for a `ValueError`. -/
def intOfString (s : String) : Option ℤ :=
  let (neg, body) := splitSign (stripChars s.toList)
  match digitPart body with
  | none => none
  | some ds =>
      if maxStrDigits < ds.length then none
      else some (if neg then -(ofDigits ds : ℤ) else ofDigits ds)

/-- `str(n)` of an int, which has the same limit. -/
def strOfInt (n : ℤ) : Except PyError String :=
  if maxStrDigits < (toString n.natAbs).length then .error .valueError else .ok (toString n)

/-- From this magnitude on a real number rounds to an infinite float. -/
def floatOverflow : ℚ := 2 ^ 1024 - 2 ^ 970

/-- The float nearest to an exact value, as far as overflow goes. -/
def roundFloat (q : ℚ) : PyFloat :=
  if floatOverflow ≤ q then .posInf else if q ≤ -floatOverflow then .negInf else .finite q

/-- The digits on the two sides of a decimal point; at least one side has some. -/
def mantissa (s : List Char) : Option (List ℕ × List ℕ) :=
  match s.span (· ≠ '.') with
  | (whole, []) => (digitPart whole).map fun ds => (ds, [])
  | (whole, _ :: []) => (digitPart whole).map fun ds => (ds, [])
  | ([], _ :: frac) => (digitPart frac).map fun ds => ([], ds)
  | (whole, _ :: frac) => do
      let ds ← digitPart whole
      let es ← digitPart frac
      return (ds, es)

/-- The exponent after `e`. -/
def exponent (s : List Char) : Option ℤ :=
  let (neg, body) := splitSign s
  (digitPart body).map fun ds => if neg then -(ofDigits ds : ℤ) else ofDigits ds

/-- The exact value of an unsigned decimal literal. -/
def decimalValue (s : List Char) : Option ℚ :=
  match s.span (fun c => c ≠ 'e' ∧ c ≠ 'E') with
  | (m, []) => (mantissa m).map fun (ds, es) => (ofDigits (ds ++ es) : ℚ) / 10 ^ es.length
  | (m, _ :: e) => do
      let (ds, es) ← mantissa m
      let k ← exponent e
      return (ofDigits (ds ++ es) : ℚ) / 10 ^ es.length * 10 ^ k

/-- `float(s)` for a string, `none` for a `ValueError`. -/
def floatOfString (s : String) : Option PyFloat :=
  let (neg, body) := splitSign (stripChars s.toList)
  let word := String.ofList (body.map Char.toLower)
  if word = "inf" ∨ word = "infinity" then some (if neg then .negInf else .posInf)
  else if word = "nan" then some .nan
  else (decimalValue body).map fun q => roundFloat (if neg then -q else q)

/-! ### Conversions -/

/-- Truncation toward zero. -/
def truncate (q : ℚ) : ℤ := if 0 ≤ q then ⌊q⌋ else ⌈q⌉

/-- `int(x)` of a float. -/
def PyFloat.toInt : PyFloat → Except PyError ℤ
  | .finite q => .ok (truncate q)
  | .nan => .error .valueError
  | .posInf => .error .overflowError
  | .negInf => .error .overflowError

/-- `int(x)`. -/
def pyInt : Json → Except PyError ℤ
  | .int n => .ok n
  | .bool b => .ok (if b then 1 else 0)
  | .float x => x.toInt
  | .str s => match intOfString s with
      | some n => .ok n
      | none => .error .valueError
  | .null => .error .typeError
  | .list _ => .error .typeError
  | .dict _ => .error .typeError

/-- `float(x)`. -/
def pyFloat : Json → Except PyError PyFloat
  | .int n => if roundFloat n = .finite n then .ok (.finite n) else .error .overflowError
  | .bool b => .ok (.finite (if b then 1 else 0))
  | .float x => .ok x
  | .str s => match floatOfString s with
      | some x => .ok x
      | none => .error .valueError
  | .null => .error .typeError
  | .list _ => .error .typeError
  | .dict _ => .error .typeError

/-- `bool(x)`. -/
def pyBool : Json → Bool
  | .null => false
  | .bool b => b
  | .int n => n ≠ 0
  | .float x => x ≠ .finite 0
  | .str s => s ≠ ""
  | .list xs => !xs.isEmpty
  | .dict kvs => !kvs.isEmpty

/-- The shortest number of decimals that writes `q` exactly, when 400 are enough. -/
def decimals (q : ℚ) : ℕ :=
  ((List.range 400).find? fun k => (q * 10 ^ k).den == 1).getD 400

/-- `repr(x)` of a positive finite float: 16 digits or more before the point, or four zeros
after it, switch to the exponent form. -/
def reprPositive (q : ℚ) : String :=
  let k := decimals q
  let shown := (toString (q * 10 ^ k).num.toNat).toList
  let digits := (shown.reverse.dropWhile (· = '0')).reverse
  let point : ℤ := shown.length - k
  if point ≤ -4 ∨ 16 < point then
    let e := point - 1
    let es := (toString e.natAbs).toList
    String.ofList (digits.take 1 ++ (if digits.length ≤ 1 then [] else '.' :: digits.drop 1) ++
      ['e', if e < 0 then '-' else '+'] ++ (if es.length < 2 then '0' :: es else es))
  else if point ≤ 0 then
    String.ofList ("0.".toList ++ List.replicate point.natAbs '0' ++ digits)
  else if digits.length ≤ point.toNat then
    String.ofList (digits ++ List.replicate (point.toNat - digits.length) '0' ++ ".0".toList)
  else String.ofList (digits.take point.toNat ++ '.' :: digits.drop point.toNat)

/-- `repr(x)` of a float. -/
def PyFloat.repr : PyFloat → String
  | .finite q =>
      if q = 0 then "0.0" else if 0 < q then reprPositive q else "-" ++ reprPositive (-q)
  | .posInf => "inf"
  | .negInf => "-inf"
  | .nan => "nan"

/-- A lower-case hexadecimal digit. -/
def hexDigit (n : ℕ) : Char := if n < 10 then Char.ofNat (48 + n) else Char.ofNat (87 + n)

/-- One character of `repr(s)` inside the quote `q`; every non-ASCII character counts as
printable. -/
def reprChar (q c : Char) : List Char :=
  if c = q ∨ c = '\\' then ['\\', c]
  else if c = '\n' then ['\\', 'n']
  else if c = '\r' then ['\\', 'r']
  else if c = '\t' then ['\\', 't']
  else if c.toNat < 32 ∨ c.toNat = 127 then
    ['\\', 'x', hexDigit (c.toNat / 16), hexDigit (c.toNat % 16)]
  else [c]

/-- `repr(s)` of a string: single quotes unless it holds one and no double quote. -/
def reprString (s : String) : String :=
  let q := if s.toList.contains '\'' && !s.toList.contains '"' then '"' else '\''
  String.ofList (q :: (s.toList.flatMap (reprChar q) ++ [q]))

mutual

/-- `repr(x)`. -/
def pyRepr : Json → String
  | .null => "None"
  | .bool b => if b then "True" else "False"
  | .int n => toString n
  | .float x => x.repr
  | .str s => reprString s
  | .list xs => "[" ++ ", ".intercalate (pyReprs xs) ++ "]"
  | .dict kvs => "\x7b" ++ ", ".intercalate (pyReprItems kvs) ++ "\x7d"

/-- `repr` of the elements of a list. -/
def pyReprs : List Json → List String
  | [] => []
  | x :: xs => pyRepr x :: pyReprs xs

/-- `repr` of the items of a dict. -/
def pyReprItems : List (String × Json) → List String
  | [] => []
  | (k, x) :: kvs => (reprString k ++ ": " ++ pyRepr x) :: pyReprItems kvs

end

/-! ### JSON text -/

/-- One UTF-16 code unit as `json.dumps` escapes it. -/
def jsonEscape (n : ℕ) : List Char :=
  ['\\', 'u', hexDigit (n / 4096), hexDigit (n / 256 % 16), hexDigit (n / 16 % 16),
    hexDigit (n % 16)]

/-- One character in a JSON string; only ASCII is left as it is. -/
def jsonChar (c : Char) : List Char :=
  let n := c.toNat
  if c = '"' ∨ c = '\\' then ['\\', c]
  else if c = '\n' then ['\\', 'n']
  else if c = '\r' then ['\\', 'r']
  else if c = '\t' then ['\\', 't']
  else if n = 8 then ['\\', 'b']
  else if n = 12 then ['\\', 'f']
  else if 32 ≤ n ∧ n ≤ 126 then [c]
  else if n < 0x10000 then jsonEscape n
  else jsonEscape (0xd800 + (n - 0x10000) / 0x400) ++ jsonEscape (0xdc00 + (n - 0x10000) % 0x400)

def jsonString (s : String) : List Char := '"' :: s.toList.flatMap jsonChar ++ ['"']

/-- A float in a JSON text. -/
def PyFloat.jsonText : PyFloat → List Char
  | .posInf => "Infinity".toList
  | .negInf => "-Infinity".toList
  | .nan => "NaN".toList
  | x => x.repr.toList

mutual

/-- `json.dumps` with compact separators. -/
def jsonText : Json → List Char
  | .null => "null".toList
  | .bool b => if b then "true".toList else "false".toList
  | .int n => (toString n).toList
  | .float x => x.jsonText
  | .str s => jsonString s
  | .list xs => '[' :: (jsonTexts xs ++ [']'])
  | .dict kvs => Char.ofNat 123 :: (jsonTextItems kvs ++ [Char.ofNat 125])

/-- The elements of a list with commas between them. -/
def jsonTexts : List Json → List Char
  | [] => []
  | [x] => jsonText x
  | x :: xs => jsonText x ++ ',' :: jsonTexts xs

/-- The items of an object with commas between them. -/
def jsonTextItems : List (String × Json) → List Char
  | [] => []
  | [(k, x)] => jsonString k ++ ':' :: jsonText x
  | (k, x) :: kvs => jsonString k ++ ':' :: jsonText x ++ ',' :: jsonTextItems kvs

end

mutual

/-- `json.dumps` with the separators `comma` and `colon`. -/
def dumpsWith (comma colon : List Char) : Json → List Char
  | .list xs => '[' :: (dumpsList comma colon xs ++ [']'])
  | .dict kvs => Char.ofNat 123 :: (dumpsItems comma colon kvs ++ [Char.ofNat 125])
  | .str s => jsonString s
  | x => jsonText x

def dumpsList (comma colon : List Char) : List Json → List Char
  | [] => []
  | [x] => dumpsWith comma colon x
  | x :: xs => dumpsWith comma colon x ++ comma ++ dumpsList comma colon xs

def dumpsItems (comma colon : List Char) : List (String × Json) → List Char
  | [] => []
  | [(k, x)] => jsonString k ++ colon ++ dumpsWith comma colon x
  | (k, x) :: kvs =>
      jsonString k ++ colon ++ dumpsWith comma colon x ++ comma ++ dumpsItems comma colon kvs

end

/-- `json.dumps(x)`. -/
def jsonDumps (x : Json) : String := String.ofList (dumpsWith [',', ' '] [':', ' '] x)

/-- `str(x)`. -/
def pyStr : Json → String
  | .str s => s
  | x => pyRepr x

/-- `str(b)`. -/
def strOfBool (b : Bool) : String := if b then "True" else "False"

/-! ### Rounding -/

/-- The nearest integer, the even one of two. -/
def roundHalfEven (q : ℚ) : ℤ :=
  if q - ⌊q⌋ < 1 / 2 then ⌊q⌋
  else if 1 / 2 < q - ⌊q⌋ then ⌊q⌋ + 1
  else if ⌊q⌋ % 2 = 0 then ⌊q⌋ else ⌊q⌋ + 1

/-- The binary64 number nearest to `q`, which decides the ties that `round` sees. -/
def nearestFloat (q : ℚ) : ℚ :=
  let ulp : ℚ := 2 ^ (Int.log 2 |q| - 52)
  roundHalfEven (q / ulp) * ulp

/-- `round(x, 1)`. -/
def PyFloat.roundTenth : PyFloat → PyFloat
  | .finite q => .finite (roundHalfEven (nearestFloat q * 10) / 10)
  | x => x

end RunnerSwarm
