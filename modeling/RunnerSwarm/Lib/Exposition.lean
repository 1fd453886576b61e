import Mathlib.Tactic
import RunnerSwarm.Lib.Text

/-!
# The Prometheus text format

A page is a text of lines, each of which ends with a newline. A line is blank, a comment or a
sample; `# HELP` and `# TYPE` comments tell about a metric. In the value of a label, a backslash, a
double quote and a newline are written with a backslash before `\`, `"` or `n`.

* `readPage` reads a page, and fails on a line that is not in the format; numbers are read in
  decimal notation;
* `Exposes` says that a page is well formed and has just the given samples;
* `readLine_labelled`: a sample whose label value needs no escape is read back;
* `exists_line_of_readPage`: a label value that is read stands between two quotes of one line, as it
  is or shortened by its escapes.
-/

namespace RunnerSwarm.Exposition

/-! ### Pages -/

/-- A number as it is written, before it is rounded to a float, or one of the special values. -/
inductive MetricValue
  | number (q : ℚ)
  | posInf
  | negInf
  | nan
  deriving DecidableEq

structure Sample where
  name : String
  labels : List (String × String)
  value : MetricValue
  timestamp : Option ℤ := none
  deriving DecidableEq

inductive Entry
  | help (metric text : String)
  | type (metric kind : String)
  | sample (s : Sample)
  deriving DecidableEq

/-- The lines of one metric: at most two comments, and samples with different labels. -/
structure Family where
  name : String
  help : Option String
  type : Option String
  typeFirst : Bool := false
  samples : List Sample
  named : ∀ s ∈ samples, s.name = name
  distinct : (samples.map (·.labels)).Nodup

def Family.entries (f : Family) : List Entry :=
  let help := f.help.toList.map (Entry.help f.name)
  let type := f.type.toList.map (Entry.type f.name)
  (if f.typeFirst then type ++ help else help ++ type) ++ f.samples.map .sample

/-! ### Reading a line -/

def isBlank (c : Char) : Bool := c = ' ' || c = '\t'

def skipBlanks (l : List Char) : List Char := l.dropWhile isBlank

/-- The tokens of a text. -/
def words (l : List Char) : List (List Char) := (l.splitOnP isBlank).filter (· ≠ [])

/-- What comes after the next token, if that is `c`. -/
def expect (c : Char) (l : List Char) : Option (List Char) :=
  match skipBlanks l with
  | [] => none
  | d :: rest => if d = c then some rest else none

def isLabelChar (c : Char) : Bool := c.isAlphanum || c = '_'

def isMetricChar (c : Char) : Bool := isLabelChar c || c = ':'

/-- A name of these characters, which does not begin with a digit. -/
def isName (p : Char → Bool) (l : List Char) : Bool :=
  l ≠ [] && l.all p && l.head?.all fun c => !c.isDigit

/-- What a backslash and this character stand for. -/
def unescape (c : Char) : Option Char :=
  if c = '\\' then some '\\' else if c = '"' then some '"' else if c = 'n' then some '\n' else none

/-- A label value up to the quote that ends it, and what follows; `escaped` after a backslash. -/
def readQuoted : Bool → List Char → Option (List Char × List Char)
  | _, [] => none
  | true, c :: rest => do
      let e ← unescape c
      let (value, rest) ← readQuoted false rest
      return (e :: value, rest)
  | false, c :: rest =>
      if c = '"' then some ([], rest)
      else if c = '\\' then readQuoted true rest
      else (readQuoted false rest).map fun (value, rest) => (c :: value, rest)

/-- `name="value"`. -/
def readLabel (l : List Char) : Option ((String × String) × List Char) := do
  let name := l.takeWhile isLabelChar
  guard (isName isLabelChar name)
  let rest ← expect '=' (l.dropWhile isLabelChar)
  let rest ← expect '"' rest
  let (value, rest) ← readQuoted false rest
  return ((String.ofList name, String.ofList value), rest)

/-- Labels up to the closing brace. There may be a comma after the last one. -/
def readLabels : ℕ → List Char → Option (List (String × String) × List Char)
  | 0, _ => none
  | fuel + 1, l =>
      match expect '\x7d' l with
      | some rest => some ([], rest)
      | none => do
          let (label, rest) ← readLabel (skipBlanks l)
          match expect ',' rest with
          | some rest => do
              let (labels, rest) ← readLabels fuel rest
              return (label :: labels, rest)
          | none => do
              let rest ← expect '\x7d' rest
              return ([label], rest)

/-- A sign, and what follows. -/
def readSign : List Char → Bool × List Char
  | [] => (false, [])
  | c :: rest =>
      if c = '-' then (true, rest) else if c = '+' then (false, rest) else (false, c :: rest)

def readInteger (l : List Char) : Option ℤ :=
  let (neg, digits) := readSign l
  if digits ≠ [] && digits.all Char.isDigit then
    let n : ℤ := Nat.ofDigitChars 10 digits 0
    some (if neg then -n else n)
  else none

/-- The exponent of a number, zero when there is none. -/
def readExponent : List Char → Option ℤ
  | [] => some 0
  | c :: rest => if c = 'e' || c = 'E' then readInteger rest else none

/-- The decimals of a number, and what follows. -/
def readFraction : List Char → List Char × List Char
  | [] => ([], [])
  | c :: rest =>
      if c = '.' then (rest.takeWhile Char.isDigit, rest.dropWhile Char.isDigit)
      else ([], c :: rest)

def readDecimal (l : List Char) : Option ℚ :=
  let whole := l.takeWhile Char.isDigit
  let (decimals, rest) := readFraction (l.dropWhile Char.isDigit)
  if whole ++ decimals = [] then none
  else (readExponent rest).map fun e : ℤ =>
    (Nat.ofDigitChars 10 (whole ++ decimals) 0 : ℚ) / 10 ^ decimals.length * 10 ^ e

def readValue (l : List Char) : Option MetricValue :=
  let (neg, body) := readSign l
  if l = ['N', 'a', 'N'] then some .nan
  else if body = ['I', 'n', 'f'] then some (if neg then .negInf else .posInf)
  else (readDecimal body).map fun q : ℚ => .number (if neg then -q else q)

/-- The labels of a sample, which may be left out with their braces. -/
def readLabelSet (l : List Char) : Option (List (String × String) × List Char) :=
  match expect '\x7b' l with
  | some rest => readLabels (rest.length + 1) rest
  | none => some ([], l)

/-- The value of a sample and its timestamp, which may be left out. -/
def readNumbers (l : List Char) : Option (MetricValue × Option ℤ) :=
  match words l with
  | [value] => (readValue value).map fun v => (v, none)
  | [value, time] => do
      let v ← readValue value
      let t ← readInteger time
      return (v, some t)
  | _ => none

def readSample (l : List Char) : Option Sample := do
  let name := l.takeWhile isMetricChar
  guard (isName isMetricChar name)
  let (labels, rest) ← readLabelSet (l.dropWhile isMetricChar)
  guard (labels.map Prod.fst).Nodup
  let (value, timestamp) ← readNumbers rest
  return ⟨String.ofList name, labels, value, timestamp⟩

/-- The text of a `HELP` comment. A quote is not escaped there. -/
def readText : Bool → List Char → Option (List Char)
  | escaped, [] => if escaped then none else some []
  | true, c :: rest => do
      let e ← if c = '"' then none else unescape c
      return e :: (← readText false rest)
  | false, c :: rest =>
      if c = '\\' then readText true rest else (readText false rest).map (c :: ·)

def kinds : List String := ["counter", "gauge", "histogram", "summary", "untyped"]

/-- A comment, after its `#`. Only two kinds of comments mean something. -/
def readComment (l : List Char) : Option (Option Entry) :=
  let l := skipBlanks l
  let rest := skipBlanks (l.dropWhile (!isBlank ·))
  let metric := rest.takeWhile (!isBlank ·)
  let rest := skipBlanks (rest.dropWhile (!isBlank ·))
  if l.takeWhile (!isBlank ·) = ['H', 'E', 'L', 'P'] then do
    guard (isName isMetricChar metric)
    return some (.help (String.ofList metric) (String.ofList (← readText false rest)))
  else if l.takeWhile (!isBlank ·) = ['T', 'Y', 'P', 'E'] then do
    guard (isName isMetricChar metric)
    guard (String.ofList rest ∈ kinds)
    return some (.type (String.ofList metric) (String.ofList rest))
  else some none

/-- A line without its newline; `some none` when it says nothing. -/
def readLine (line : List Char) : Option (Option Entry) :=
  match skipBlanks line with
  | [] => some none
  | c :: rest =>
      if c = '#' then readComment rest else (readSample (c :: rest)).map fun s => some (.sample s)

def readLines : List (List Char) → Option (List Entry)
  | [] => some []
  | line :: lines => do
      let entry ← readLine line
      let entries ← readLines lines
      return entry.toList ++ entries

/-- A page. Its last line ends with a newline too. -/
def readPage (text : List Char) : Option (List Entry) :=
  if text.getLast?.all (· = '\n') then readLines (text.splitOn '\n') else none

/-- **The page is well formed**, with all lines of a metric in one group, **and has these samples**
and no other. -/
def Exposes (text : List Char) (expected : List Sample) : Prop :=
  ∃ families : List Family, (families.map (·.name)).Nodup ∧
    readPage text = some (families.flatMap Family.entries) ∧
    (families.flatMap (·.samples)).Perm expected

/-! ### What is between two quotes -/

/-- A text that is read as it stands. -/
def IsPlain (raw : List Char) : Prop := '"' ∉ raw ∧ '\\' ∉ raw

/-- What a text between two quotes may be read as. -/
def ReadsAs (raw value : List Char) : Prop :=
  value = raw ∧ IsPlain raw ∨ value.length < raw.length ∧ '\\' ∈ raw

/-- A text that is read as this value stands between quotes. -/
def Quotes (l value : List Char) : Prop :=
  ∃ raw, ('"' :: raw ++ ['"']) <:+: l ∧ ReadsAs raw value

variable {l rest value : List Char} {c : Char}

theorem Quotes.mono {m : List Char} (h : Quotes l value) (hm : l <:+: m) : Quotes m value := by
  obtain ⟨raw, hraw, hreads⟩ := h
  exact ⟨raw, hraw.trans hm, hreads⟩

theorem readQuoted_eq_some {escaped : Bool} (h : readQuoted escaped l = some (value, rest)) :
    ∃ raw, l = raw ++ '"' :: rest ∧ ReadsAs (if escaped then '\\' :: raw else raw) value := by
  induction l generalizing escaped value with
  | nil => cases escaped <;> cases h
  | cons c l ih =>
    cases escaped with
    | true =>
      obtain ⟨e, -, h⟩ := Option.bind_eq_some_iff.1 h
      obtain ⟨⟨inner, after⟩, hinner, h⟩ := Option.bind_eq_some_iff.1 h
      cases h
      obtain ⟨raw, rfl, hreads⟩ := ih hinner
      refine ⟨c :: raw, rfl, Or.inr ⟨?_, List.mem_cons_self⟩⟩
      rcases hreads with ⟨rfl, -⟩ | ⟨hlen, -⟩
      · simp
      · simp only [Bool.false_eq_true, if_false, if_true, List.length_cons] at hlen ⊢
        omega
    | false =>
      unfold readQuoted at h
      split_ifs at h with hquote hescape
      · cases h
        exact ⟨[], hquote ▸ rfl, Or.inl ⟨rfl, List.not_mem_nil, List.not_mem_nil⟩⟩
      · obtain ⟨raw, rfl, hreads⟩ := ih h
        exact ⟨c :: raw, rfl, hescape ▸ hreads⟩
      · obtain ⟨⟨inner, after⟩, hinner, h⟩ := Option.map_eq_some_iff.1 h
        cases h
        obtain ⟨raw, rfl, hreads⟩ := ih hinner
        refine ⟨c :: raw, rfl, ?_⟩
        rcases hreads with ⟨rfl, hplain⟩ | ⟨hlen, hmem⟩
        · exact Or.inl ⟨rfl, List.not_mem_cons_of_ne_of_not_mem (Ne.symm hquote) hplain.1,
            List.not_mem_cons_of_ne_of_not_mem (Ne.symm hescape) hplain.2⟩
        · exact Or.inr ⟨Nat.succ_lt_succ hlen, List.mem_cons_of_mem c hmem⟩

theorem expect_eq_some (h : expect c l = some rest) : c :: rest <:+ l := by
  have hsuffix : skipBlanks l <:+ l := List.dropWhile_suffix _
  unfold expect at h
  split at h
  · cases h
  · next d tail hskip =>
    split_ifs at h with hd
    cases h
    exact hd ▸ hskip ▸ hsuffix

theorem readLabel_eq_some {label : String × String} (h : readLabel l = some (label, rest)) :
    Quotes l label.2.toList ∧ rest <:+ l := by
  obtain ⟨-, -, h⟩ := Option.bind_eq_some_iff.1 h
  obtain ⟨afterName, hequals, h⟩ := Option.bind_eq_some_iff.1 h
  obtain ⟨quoted, hquote, h⟩ := Option.bind_eq_some_iff.1 h
  obtain ⟨⟨value, after⟩, hvalue, h⟩ := Option.bind_eq_some_iff.1 h
  cases h
  obtain ⟨raw, rfl, hreads⟩ := readQuoted_eq_some hvalue
  have hsuffix : '"' :: (raw ++ '"' :: rest) <:+ l :=
    (expect_eq_some hquote).trans ((List.suffix_cons _ _).trans
      ((expect_eq_some hequals).trans (List.dropWhile_suffix _)))
  have hraw : '"' :: (raw ++ '"' :: rest) = ('"' :: raw ++ ['"']) ++ rest := by simp
  refine ⟨⟨raw, ?_, ?_⟩, ?_⟩
  · exact ((hraw ▸ List.prefix_append _ _).isInfix).trans hsuffix.isInfix
  · rwa [String.toList_ofList]
  · exact (hraw ▸ List.suffix_append _ _).trans hsuffix

theorem readLabels_eq_some {fuel : ℕ} {labels : List (String × String)}
    (h : readLabels fuel l = some (labels, rest)) :
    ∀ label ∈ labels, Quotes l label.2.toList := by
  induction fuel generalizing l labels with
  | zero => cases h
  | succ fuel ih =>
    unfold readLabels at h
    split at h
    · cases h
      simp
    · obtain ⟨⟨first, after⟩, hfirst, h⟩ := Option.bind_eq_some_iff.1 h
      have hskip : skipBlanks l <:+ l := List.dropWhile_suffix _
      obtain ⟨hquotes, hafter⟩ := readLabel_eq_some hfirst
      have hhere := hquotes.mono hskip.isInfix
      dsimp only at h
      split at h
      · next tail hcomma =>
        obtain ⟨⟨others, last⟩, hothers, h⟩ := Option.bind_eq_some_iff.1 h
        cases h
        have htail : tail <:+ l := (List.suffix_cons _ _).trans
          ((expect_eq_some hcomma).trans (hafter.trans hskip))
        refine List.forall_mem_cons.2 ⟨hhere, fun label hlabel => ?_⟩
        exact (ih hothers label hlabel).mono htail.isInfix
      · obtain ⟨last, -, h⟩ := Option.bind_eq_some_iff.1 h
        cases h
        exact List.forall_mem_singleton.2 hhere

theorem readLabelSet_eq_some {labels : List (String × String)}
    (h : readLabelSet l = some (labels, rest)) :
    ∀ label ∈ labels, Quotes l label.2.toList := by
  unfold readLabelSet at h
  split at h
  · next tail hbrace =>
    intro label hlabel
    have htail : tail <:+ l := (List.suffix_cons _ _).trans (expect_eq_some hbrace)
    exact (readLabels_eq_some h label hlabel).mono htail.isInfix
  · cases h
    simp

theorem readSample_eq_some {s : Sample} (h : readSample l = some s) :
    ∀ label ∈ s.labels, Quotes l label.2.toList := by
  obtain ⟨-, -, h⟩ := Option.bind_eq_some_iff.1 h
  obtain ⟨⟨labels, after⟩, hlabels, h⟩ := Option.bind_eq_some_iff.1 h
  obtain ⟨-, -, h⟩ := Option.bind_eq_some_iff.1 h
  obtain ⟨⟨value, timestamp⟩, -, h⟩ := Option.bind_eq_some_iff.1 h
  cases h
  have hsuffix : l.dropWhile isMetricChar <:+ l := List.dropWhile_suffix _
  intro label hlabel
  exact (readLabelSet_eq_some hlabels label hlabel).mono hsuffix.isInfix

theorem readComment_ne_sample {s : Sample} : readComment l ≠ some (some (.sample s)) := by
  unfold readComment
  dsimp only
  split_ifs with hhelp htype
  · intro h
    obtain ⟨-, -, h⟩ := Option.bind_eq_some_iff.1 h
    obtain ⟨text, -, h⟩ := Option.bind_eq_some_iff.1 h
    cases h
  · intro h
    obtain ⟨-, -, h⟩ := Option.bind_eq_some_iff.1 h
    obtain ⟨-, -, h⟩ := Option.bind_eq_some_iff.1 h
    cases h
  · intro h
    cases h

theorem readLine_eq_some {s : Sample} (h : readLine l = some (some (.sample s))) :
    ∀ label ∈ s.labels, Quotes l label.2.toList := by
  have hskip : skipBlanks l <:+ l := List.dropWhile_suffix _
  unfold readLine at h
  split at h
  · cases h
  · next d tail hd =>
    split_ifs at h
    · exact absurd h readComment_ne_sample
    · obtain ⟨s', hs', h⟩ := Option.map_eq_some_iff.1 h
      cases h
      intro label hlabel
      exact (readSample_eq_some hs' label hlabel).mono (hd ▸ hskip).isInfix

theorem readLines_eq_some {lines : List (List Char)} {entries : List Entry}
    (h : readLines lines = some entries) {s : Sample} (hs : .sample s ∈ entries) :
    ∃ line ∈ lines, ∀ label ∈ s.labels, Quotes line label.2.toList := by
  induction lines generalizing entries with
  | nil =>
    cases h
    cases hs
  | cons line lines ih =>
    obtain ⟨entry, hentry, h⟩ := Option.bind_eq_some_iff.1 h
    obtain ⟨others, hothers, h⟩ := Option.bind_eq_some_iff.1 h
    cases h
    rcases List.mem_append.1 hs with hs | hs
    · rw [Option.mem_toList] at hs
      exact ⟨line, List.mem_cons_self, readLine_eq_some (hentry.trans (congrArg some hs))⟩
    · obtain ⟨found, hfound, hquotes⟩ := ih hothers hs
      exact ⟨found, List.mem_cons_of_mem _ hfound, hquotes⟩

/-- **The label values of a page** stand between quotes in one of its lines. -/
theorem exists_line_of_readPage {entries : List Entry} {s : Sample}
    (h : readPage l = some entries) (hs : .sample s ∈ entries) :
    ∃ line ∈ l.splitOn '\n', ∀ label ∈ s.labels, Quotes line label.2.toList := by
  unfold readPage at h
  split_ifs at h
  exact readLines_eq_some h hs

theorem Exposes.exists_line {expected : List Sample} (h : Exposes l expected) {s : Sample}
    (hs : s ∈ expected) :
    ∃ line ∈ l.splitOn '\n', ∀ label ∈ s.labels, Quotes line label.2.toList := by
  obtain ⟨families, -, hread, hperm⟩ := h
  obtain ⟨f, hf, hsample⟩ := List.mem_flatMap.1 (hperm.mem_iff.2 hs)
  refine exists_line_of_readPage hread (List.mem_flatMap.2 ⟨f, hf, ?_⟩)
  exact List.mem_append_right _ (List.mem_map_of_mem hsample)

/-- **No two samples of a page have the same name and labels.** -/
theorem Exposes.nodup {expected : List Sample} (h : Exposes l expected) : expected.Nodup := by
  obtain ⟨families, hnames, -, hperm⟩ := h
  refine hperm.nodup_iff.1 (List.nodup_flatMap.2 ⟨fun f _ => f.distinct.of_map _, ?_⟩)
  refine (List.pairwise_map.1 hnames).imp fun {f g} hne s hf hg => ?_
  exact hne ((f.named s hf).symm.trans (g.named s hg))

/-- What stands between quotes in a line that has quotes in two places, or inside them. -/
theorem infix_between {before inside after raw : List Char} (hbefore : '"' ∉ before)
    (hafter : '"' ∉ after)
    (h : ('"' :: raw ++ ['"']) <:+: before ++ '"' :: (inside ++ '"' :: after)) :
    raw <:+: inside := by
  obtain ⟨front, back, heq⟩ := h
  have hline : front ++ '"' :: (raw ++ '"' :: back) =
      before ++ '"' :: (inside ++ '"' :: after) := by
    rw [← heq]
    simp
  obtain ⟨skipped, hskipped⟩ := suffix_of_first_sep hbefore hline
  rw [← List.append_assoc] at hskipped
  have hraw : skipped ++ raw <+: inside := prefix_of_last_sep hafter hskipped
  exact (List.suffix_append skipped raw).isInfix.trans hraw.isInfix

theorem readQuoted_of_plain (h : IsPlain value) :
    readQuoted false (value ++ '"' :: rest) = some (value, rest) := by
  induction value with
  | nil => rfl
  | cons c value ih =>
    obtain ⟨hquote, hescape⟩ := h
    rw [List.mem_cons, not_or] at hquote hescape
    rw [List.cons_append, readQuoted, if_neg (Ne.symm hquote.1), if_neg (Ne.symm hescape.1),
      ih ⟨hquote.2, hescape.2⟩]
    rfl

/-! ### Lines that are read back -/

theorem skipBlanks_cons (hc : isBlank c = false) : skipBlanks (c :: rest) = c :: rest :=
  List.dropWhile_cons_of_neg (Bool.eq_false_iff.1 hc)

theorem expect_self (hc : isBlank c = false) : expect c (c :: rest) = some rest := by
  unfold expect
  rw [skipBlanks_cons hc]
  exact if_pos rfl

theorem expect_ne {d : Char} (hd : isBlank d = false) (hne : d ≠ c) :
    expect c (d :: rest) = none := by
  unfold expect
  rw [skipBlanks_cons hd]
  exact if_neg hne

theorem isName_iff {p : Char → Bool} : isName p l = true ↔
    ∃ d tail, l = d :: tail ∧ d.isDigit = false ∧ ∀ c ∈ l, p c = true := by
  unfold isName
  cases l with
  | nil => simp
  | cons d tail =>
    simp only [ne_eq, reduceCtorEq, not_false_eq_true, decide_true, Bool.true_and,
      Bool.and_eq_true, List.all_eq_true, List.head?_cons, Option.all_some, Bool.not_eq_true']
    constructor
    · exact fun ⟨hall, hd⟩ => ⟨d, tail, rfl, hd, hall⟩
    · rintro ⟨d', tail', heq, hd, hall⟩
      cases heq
      exact ⟨hall, hd⟩

/-- A name is read up to a character that it cannot have. -/
theorem takeWhile_name {p : Char → Bool} (hl : ∀ d ∈ l, p d = true) (hc : p c = false) :
    (l ++ c :: rest).takeWhile p = l ∧ (l ++ c :: rest).dropWhile p = c :: rest := by
  rw [List.takeWhile_append_of_pos hl, List.dropWhile_append_of_pos hl,
    List.takeWhile_cons_of_neg (Bool.eq_false_iff.1 hc),
    List.dropWhile_cons_of_neg (Bool.eq_false_iff.1 hc), List.append_nil]
  exact ⟨rfl, rfl⟩

/-- What neither blank has is no blank. -/
theorem isBlank_eq_false {p : Char → Prop} (hspace : ¬ p ' ') (htab : ¬ p '\t') (hc : p c) :
    isBlank c = false := by
  refine Bool.eq_false_iff.2 fun hblank => ?_
  unfold isBlank at hblank
  rw [Bool.or_eq_true, decide_eq_true_iff, decide_eq_true_iff] at hblank
  rcases hblank with rfl | rfl
  · exact hspace hc
  · exact htab hc

theorem isBlank_of_isLabelChar (hc : isLabelChar c = true) : isBlank c = false :=
  isBlank_eq_false (p := fun c => isLabelChar c = true) (by decide) (by decide) hc

theorem readLabel_of_plain {name : List Char} (hname : isName isLabelChar name = true)
    (hvalue : IsPlain value) :
    readLabel (name ++ '=' :: '"' :: (value ++ '"' :: rest)) =
      some ((String.ofList name, String.ofList value), rest) := by
  obtain ⟨-, -, -, -, hall⟩ := isName_iff.1 hname
  obtain ⟨htake, hdrop⟩ : (name ++ '=' :: '"' :: (value ++ '"' :: rest)).takeWhile isLabelChar =
      name ∧ (name ++ '=' :: '"' :: (value ++ '"' :: rest)).dropWhile isLabelChar =
        '=' :: '"' :: (value ++ '"' :: rest) := takeWhile_name hall (by decide)
  unfold readLabel
  dsimp only
  rw [htake, hdrop, hname, expect_self (by decide)]
  dsimp only [Option.bind_some, bind, guard]
  rw [expect_self (by decide)]
  dsimp only [Option.bind_some]
  rw [readQuoted_of_plain hvalue]
  rfl

theorem readLabelSet_of_plain {name : List Char} (hname : isName isLabelChar name = true)
    (hvalue : IsPlain value) :
    readLabelSet ('\x7b' :: (name ++ '=' :: '"' :: (value ++ '"' :: '\x7d' :: rest))) =
      some ([(String.ofList name, String.ofList value)], rest) := by
  obtain ⟨d, tail, hcons, -, hall⟩ := isName_iff.1 hname
  have hd : isLabelChar d = true := hall d (hcons ▸ List.mem_cons_self)
  have hblank := isBlank_of_isLabelChar hd
  have hbrace : d ≠ '\x7d' := by
    rintro rfl
    exact absurd hd (by decide)
  have hlabel : readLabel (name ++ '=' :: '"' :: (value ++ '"' :: '\x7d' :: rest)) =
      some ((String.ofList name, String.ofList value), '\x7d' :: rest) :=
    readLabel_of_plain hname hvalue
  unfold readLabelSet
  rw [expect_self (by decide)]
  dsimp only
  unfold readLabels
  rw [hcons] at hlabel ⊢
  rw [List.cons_append] at hlabel ⊢
  rw [expect_ne hblank hbrace, skipBlanks_cons hblank, hlabel]
  dsimp only [Option.bind_some, bind]
  rw [expect_ne (by decide) (by decide), expect_self (by decide)]
  rfl

/-! ### Numbers -/

/-- The text of an integer. -/
def intText (n : ℤ) : List Char := (toString n).toList

theorem intText_natCast (n : ℕ) : intText n = Nat.toDigits 10 n := by
  have htext : toString (n : ℤ) = n.repr := rfl
  unfold intText
  rw [htext]
  simp [Nat.repr]

theorem intText_negSucc (n : ℕ) : intText (Int.negSucc n) = '-' :: Nat.toDigits 10 (n + 1) := by
  have htext : toString (Int.negSucc n) = "-" ++ (n + 1).repr := rfl
  unfold intText
  rw [htext, String.toList_append]
  simp [Nat.repr]

theorem isDigit_toDigits {n : ℕ} : ∀ d ∈ Nat.toDigits 10 n, d.isDigit = true :=
  fun _ hd => Nat.isDigit_of_mem_toDigits (by decide) (by decide) hd

/-- The text of an integer begins with a digit or a minus sign, and has no blank. -/
theorem exists_intText (n : ℤ) : ∃ d tail, intText n = d :: tail ∧
    ∀ c ∈ intText n, c.isDigit = true ∨ c = '-' := by
  cases n with
  | ofNat n =>
    have htext : intText (Int.ofNat n) = Nat.toDigits 10 n := intText_natCast n
    obtain ⟨d, tail, hd⟩ := List.exists_cons_of_ne_nil (Nat.toDigits_ne_nil (b := 10) (n := n))
    rw [htext]
    exact ⟨d, tail, hd, fun c hc => Or.inl (isDigit_toDigits c hc)⟩
  | negSucc n =>
    rw [intText_negSucc]
    refine ⟨'-', _, rfl, fun c hc => ?_⟩
    rcases List.mem_cons.1 hc with rfl | hc
    · exact Or.inr rfl
    · exact Or.inl (isDigit_toDigits c hc)

theorem isBlank_of_isDigit (hc : c.isDigit = true ∨ c = '-') : isBlank c = false :=
  isBlank_eq_false (p := fun c => c.isDigit = true ∨ c = '-') (by decide) (by decide) hc

theorem readDecimal_toDigits (n : ℕ) : readDecimal (Nat.toDigits 10 n) = some (n : ℚ) := by
  have hall := isDigit_toDigits (n := n)
  unfold readDecimal
  dsimp only
  rw [List.takeWhile_eq_self_iff.2 hall, List.dropWhile_eq_nil_iff.2 hall]
  simp only [readFraction, List.append_nil, if_neg Nat.toDigits_ne_nil,
    Nat.ofDigitChars_ten_toDigits]
  simp [readExponent]

/-- **An integer is read back.** -/
theorem readValue_intText (n : ℤ) : readValue (intText n) = some (.number n) := by
  cases n with
  | ofNat n =>
    have htext : intText (Int.ofNat n) = Nat.toDigits 10 n := intText_natCast n
    obtain ⟨d, tail, hd⟩ := List.exists_cons_of_ne_nil (Nat.toDigits_ne_nil (b := 10) (n := n))
    have hdigit : d.isDigit = true := isDigit_toDigits d (hd ▸ List.mem_cons_self)
    have hsign : readSign (d :: tail) = (false, d :: tail) := by
      unfold readSign
      dsimp only
      rw [if_neg, if_neg]
      · rintro rfl
        exact absurd hdigit (by decide)
      · rintro rfl
        exact absurd hdigit (by decide)
    have hword : ∀ e more, e.isDigit = false → d :: tail ≠ e :: more := by
      rintro e more he heq
      rw [(List.cons.inj heq).1, he] at hdigit
      cases hdigit
    have hread := readDecimal_toDigits n
    rw [hd] at hread
    unfold readValue
    rw [htext, hd, hsign]
    dsimp only
    rw [if_neg (hword _ _ (by decide)), if_neg (hword _ _ (by decide)), hread]
    rfl
  | negSucc n =>
    obtain ⟨d, tail, hd⟩ := List.exists_cons_of_ne_nil (Nat.toDigits_ne_nil (b := 10) (n := n + 1))
    have hdigit : d.isDigit = true := isDigit_toDigits d (hd ▸ List.mem_cons_self)
    have hword : d :: tail ≠ ['I', 'n', 'f'] := by
      intro heq
      rw [(List.cons.inj heq).1] at hdigit
      exact absurd hdigit (by decide)
    have hsign : readSign ('-' :: d :: tail) = (true, d :: tail) := rfl
    have hread := readDecimal_toDigits (n + 1)
    rw [hd] at hread
    unfold readValue
    rw [intText_negSucc, hd, hsign]
    dsimp only
    rw [if_neg (by simp), if_neg hword, hread]
    simp [Int.negSucc_eq]

theorem readNumbers_intText (n : ℤ) :
    readNumbers (' ' :: intText n) = some (.number n, none) := by
  obtain ⟨d, tail, hd, hall⟩ := exists_intText n
  have hblank : ∀ c ∈ intText n, isBlank c = false := fun c hc => isBlank_of_isDigit (hall c hc)
  have hwords : words (' ' :: intText n) = [intText n] := by
    unfold words
    rw [List.splitOnP_cons_eq_if_modifyHead, if_pos (by decide),
      List.splitOnP_eq_singleton hblank, hd]
    rfl
  unfold readNumbers
  rw [hwords]
  dsimp only
  rw [readValue_intText]
  rfl

theorem isBlank_of_isMetricChar (hc : isMetricChar c = true) : isBlank c = false := by
  unfold isMetricChar at hc
  rcases (Bool.or_eq_true _ _).mp hc with hc | hc
  · exact isBlank_of_isLabelChar hc
  · rw [of_decide_eq_true hc]
    decide

/-- A line that begins with a name is a sample. -/
theorem readLine_of_name {name : List Char} (hname : isName isMetricChar name = true) :
    readLine (name ++ rest) = (readSample (name ++ rest)).map fun s => some (.sample s) := by
  obtain ⟨d, tail, rfl, -, hall⟩ := isName_iff.1 hname
  have hd : isMetricChar d = true := hall d List.mem_cons_self
  have hcomment : d ≠ '#' := by
    rintro rfl
    exact absurd hd (by decide)
  unfold readLine
  rw [List.cons_append, skipBlanks_cons (isBlank_of_isMetricChar hd)]
  dsimp only
  rw [if_neg hcomment]

theorem readSample_of_name {name : List Char} (hname : isName isMetricChar name = true)
    (hc : isMetricChar c = false) {labels : List (String × String)} {after : List Char} {n : ℤ}
    (hlabels : readLabelSet (c :: rest) = some (labels, after))
    (hdistinct : (labels.map Prod.fst).Nodup) (hnumbers : after = ' ' :: intText n) :
    readSample (name ++ c :: rest) = some ⟨String.ofList name, labels, .number n, none⟩ := by
  obtain ⟨-, -, -, -, hall⟩ := isName_iff.1 hname
  obtain ⟨htake, hdrop⟩ : (name ++ c :: rest).takeWhile isMetricChar = name ∧
      (name ++ c :: rest).dropWhile isMetricChar = c :: rest := takeWhile_name hall hc
  unfold readSample
  dsimp only
  rw [htake, hdrop, hname, hlabels, hnumbers]
  dsimp only [Option.bind_some, bind, guard]
  rw [if_pos hdistinct, readNumbers_intText]
  rfl

/-- **A sample with one label** that needs no escape is read back. -/
theorem readLine_labelled {name label : List Char} (hname : isName isMetricChar name = true)
    (hlabel : isName isLabelChar label = true) (hvalue : IsPlain value) (n : ℤ) :
    readLine (name ++ '\x7b' :: (label ++ '=' :: '"' :: (value ++ '"' :: '\x7d' :: ' ' ::
      intText n))) = some (some (.sample
        ⟨String.ofList name, [(String.ofList label, String.ofList value)], .number n, none⟩)) := by
  rw [readLine_of_name hname, readSample_of_name hname (by decide)
    (readLabelSet_of_plain hlabel hvalue) (List.nodup_singleton _) rfl]
  rfl

/-- A sample without labels is read back. -/
theorem readLine_unlabelled {name : List Char} (hname : isName isMetricChar name = true) (n : ℤ) :
    readLine (name ++ ' ' :: intText n) = some (some (.sample
      ⟨String.ofList name, [], .number n, none⟩)) := by
  have hlabels : readLabelSet (' ' :: intText n) = some ([], ' ' :: intText n) := by
    obtain ⟨d, tail, hd, hall⟩ := exists_intText n
    have hdigit := hall d (hd ▸ List.mem_cons_self)
    have hbrace : d ≠ '\x7b' := by
      rintro rfl
      exact absurd hdigit (by decide)
    have hskip : expect '\x7b' (' ' :: intText n) = expect '\x7b' (d :: tail) := by
      rw [hd]
      rfl
    unfold readLabelSet
    rw [hskip, expect_ne (isBlank_of_isDigit hdigit) hbrace]
  rw [readLine_of_name hname, readSample_of_name hname (by decide) hlabels List.nodup_nil rfl]
  rfl

/-! ### Comments -/

/-- A text that a comment has as it is. -/
def isText (l : List Char) : Bool := l.all (· ≠ '\\') && l.head?.all (!isBlank ·)

theorem readText_of_all (h : l.all (· ≠ '\\') = true) : readText false l = some l := by
  induction l with
  | nil => rfl
  | cons c l ih =>
    rw [List.all_cons, Bool.and_eq_true, decide_eq_true_iff] at h
    rw [readText, if_neg h.1, ih h.2]
    rfl

theorem skipBlanks_of_isText (h : isText l = true) : skipBlanks l = l := by
  cases l with
  | nil => rfl
  | cons c l =>
    have hc : (!isBlank c) = true := (Bool.and_eq_true_iff.1 h).2
    exact skipBlanks_cons (Bool.not_eq_true' _ ▸ hc)

/-- The text before a blank, and what follows. -/
theorem takeWhile_word (hl : l.all (!isBlank ·) = true) (rest : List Char) :
    (l ++ ' ' :: rest).takeWhile (!isBlank ·) = l ∧
      (l ++ ' ' :: rest).dropWhile (!isBlank ·) = ' ' :: rest :=
  takeWhile_name (List.all_eq_true.1 hl) (by decide)

theorem readLine_comment : readLine ('#' :: rest) = readComment rest := by
  unfold readLine
  rw [skipBlanks_cons (by decide)]
  exact if_pos rfl

/-- A comment is taken apart word by word. -/
theorem comment_words (word : List Char) {name text : List Char} (hne : word ≠ [])
    (hword : word.all (!isBlank ·) = true) (hname : isName isMetricChar name = true)
    (htext : isText text = true) {l tail : List Char} (htail : tail = name ++ ' ' :: text)
    (hl : l = word ++ ' ' :: tail) :
    skipBlanks (' ' :: l) = l ∧ l.takeWhile (!isBlank ·) = word ∧
      skipBlanks (l.dropWhile (!isBlank ·)) = tail ∧ tail.takeWhile (!isBlank ·) = name ∧
      skipBlanks (tail.dropWhile (!isBlank ·)) = text := by
  obtain ⟨w, more, rfl⟩ := List.exists_cons_of_ne_nil hne
  obtain ⟨d, others, rfl, -, hall⟩ := isName_iff.1 hname
  have hblank : (d :: others).all (!isBlank ·) = true :=
    List.all_eq_true.2 fun c hc => by
      rw [isBlank_of_isMetricChar (hall c hc)]
      rfl
  have hw : isBlank w = false := by
    have hfirst := List.all_eq_true.1 hword w List.mem_cons_self
    rwa [Bool.not_eq_true'] at hfirst
  obtain ⟨htakeWord, hdropWord⟩ := takeWhile_word hword tail
  obtain ⟨htakeName, hdropName⟩ := takeWhile_word hblank text
  have hfirst : skipBlanks l = l := by
    rw [hl]
    exact skipBlanks_cons hw
  have hsecond : skipBlanks tail = tail := by
    rw [htail]
    exact skipBlanks_cons (isBlank_of_isMetricChar (hall d List.mem_cons_self))
  refine ⟨hfirst, hl ▸ htakeWord, ?_, htail ▸ htakeName, ?_⟩
  · rw [hl, hdropWord]
    exact hsecond
  · rw [htail, hdropName]
    exact skipBlanks_of_isText htext

/-- A `HELP` comment is read back. -/
theorem readLine_help {name text : List Char} (hname : isName isMetricChar name = true)
    (htext : isText text = true) :
    readLine ('#' :: ' ' :: (['H', 'E', 'L', 'P'] ++ ' ' :: (name ++ ' ' :: text))) =
      some (some (.help (String.ofList name) (String.ofList text))) := by
  obtain ⟨hstart, hword, hrest, hmetric, hlast⟩ :=
    comment_words ['H', 'E', 'L', 'P'] (by decide) (by decide) hname htext rfl rfl
  rw [readLine_comment]
  unfold readComment
  dsimp only
  rw [hstart, hword, hrest, hmetric, hlast, if_pos rfl, hname,
    readText_of_all (Bool.and_eq_true_iff.1 htext).1]
  rfl

/-- A `TYPE` comment is read back. -/
theorem readLine_type {name text : List Char} (hname : isName isMetricChar name = true)
    (htext : isText text = true) (hkind : String.ofList text ∈ kinds) :
    readLine ('#' :: ' ' :: (['T', 'Y', 'P', 'E'] ++ ' ' :: (name ++ ' ' :: text))) =
      some (some (.type (String.ofList name) (String.ofList text))) := by
  obtain ⟨hstart, hword, hrest, hmetric, hlast⟩ :=
    comment_words ['T', 'Y', 'P', 'E'] (by decide) (by decide) hname htext rfl rfl
  rw [readLine_comment]
  unfold readComment
  dsimp only
  rw [hstart, hword, hrest, hmetric, hlast, if_neg (by decide), if_pos rfl, hname]
  dsimp only [Option.bind_some, bind, guard]
  rw [if_pos hkind]
  rfl

/-! ### Whole pages -/

/-- Lines that are each read as an entry. -/
def ReadAs (line : List Char) (entry : Entry) : Prop := readLine line = some (some entry)

instance (line : List Char) (entry : Entry) : Decidable (ReadAs line entry) :=
  inferInstanceAs (Decidable (readLine line = some (some entry)))

theorem readLines_of_forall₂ {lines : List (List Char)} {entries : List Entry}
    (h : List.Forall₂ ReadAs lines entries) : readLines (lines ++ [[]]) = some entries := by
  induction h with
  | nil => rfl
  | cons hline _ ih =>
    rw [List.cons_append, readLines, hline, ih]
    rfl

/-- **A page of lines that are read is read.** -/
theorem readPage_of_forall₂ {lines : List (List Char)} {entries : List Entry}
    (hlines : ∀ line ∈ lines, '\n' ∉ line) (h : List.Forall₂ ReadAs lines entries) :
    readPage (lines.flatMap fun line => line ++ ['\n']) = some entries := by
  have hend : ((lines.flatMap fun line => line ++ ['\n']).getLast?.all (· = '\n')) = true := by
    rcases List.eq_nil_or_concat lines with rfl | ⟨front, last, rfl⟩
    · rfl
    · rw [List.concat_eq_append, List.flatMap_append, List.flatMap_singleton, ← List.append_assoc,
        List.getLast?_concat]
      rfl
  have hsplit := splitOn_lines hlines (List.not_mem_nil (a := '\n'))
  rw [List.append_nil] at hsplit
  unfold readPage
  rw [if_pos hend, hsplit, readLines_of_forall₂ h]

end RunnerSwarm.Exposition
