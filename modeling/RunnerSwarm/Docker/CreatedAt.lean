import RunnerSwarm.Docker.RunningFor

/-!
# When a container was created

`docker ps` prints the time a container was created as a local time with its offset from UTC and the
abbreviation of the zone, such as `2026-10-03 22:26:48 +0300 EEST`, and `_parse_created_at` reads
that back with `strptime`. `CreatedAt` is such a time, and `parse_created` says that the text of one
is read as the moment it is. A moment is a number of seconds since the beginning of year 1.
-/

namespace RunnerSwarm

/-! ### `strptime` -/

/-- `\d`. -/
def isDecimal (c : Char) : Bool := (digitValue c).isSome

/-- Whether a character is one of a range, as in `[0-5]`. -/
def isBetween (low high c : Char) : Bool := low ≤ c && c ≤ high

/-- A field of one or two digits: the first digits of two, each with the second ones it allows, and
the digits that may stand alone. -/
def strpField (pairs : List (Char × (Char → Bool))) (single : Char → Bool) :
    List Char → Option ℕ
  | [a, b] =>
      if pairs.any fun pair => a = pair.1 && pair.2 b then
        some (ofDigits ([a, b].filterMap digitValue))
      else none
  | [a] => if single a then digitValue a else none
  | _ => none

/-- `%Y`. -/
def strpYear (text : List Char) : Option ℕ :=
  if text.length = 4 ∧ text.all isDecimal then some (ofDigits (text.filterMap digitValue)) else none

/-- `%m`. -/
def strpMonth : List Char → Option ℕ :=
  strpField [('1', isBetween '0' '2'), ('0', isBetween '1' '9')] (isBetween '1' '9')

/-- `%d`. -/
def strpDay : List Char → Option ℕ :=
  strpField [('3', isBetween '0' '1'), ('1', isDecimal), ('2', isDecimal), ('0', isBetween '1' '9')]
    (isBetween '1' '9')

/-- `%H`. -/
def strpHour : List Char → Option ℕ :=
  strpField [('2', isBetween '0' '3'), ('0', isDecimal), ('1', isDecimal)] isDecimal

/-- `[0-5]\d|\d`. -/
def sixties : List (Char × (Char → Bool)) :=
  [('0', isDecimal), ('1', isDecimal), ('2', isDecimal), ('3', isDecimal), ('4', isDecimal),
    ('5', isDecimal)]

/-- `%M`. -/
def strpMinute : List Char → Option ℕ := strpField sixties isDecimal

/-- `%S`, which allows for leap seconds. -/
def strpSecond : List Char → Option ℕ :=
  strpField (('6', isBetween '0' '1') :: sixties) isDecimal

def isLeapYear (year : ℕ) : Bool := year % 4 = 0 && (year % 100 ≠ 0 || year % 400 = 0)

def daysInMonth (year month : ℕ) : ℕ :=
  if month = 2 then if isLeapYear year then 29 else 28
  else if month ∈ [4, 6, 9, 11] then 30 else 31

/-- `date(year, month, day).toordinal()`. -/
def toOrdinal (year month day : ℕ) : ℕ :=
  365 * (year - 1) + (year - 1) / 4 - (year - 1) / 100 + (year - 1) / 400 +
    ((List.range (month - 1)).map fun m => daysInMonth year (m + 1)).sum + day

/-- `%Y-%m-%d`, as an ordinal. A date that there is not is refused. -/
def strpDate (text : List Char) : Option ℕ :=
  match text.splitOn '-' with
  | [y, m, d] => do
      let year ← strpYear y
      let month ← strpMonth m
      let day ← strpDay d
      if 1 ≤ year ∧ day ≤ daysInMonth year month then some (toOrdinal year month day) else none
  | _ => none

/-- `%H:%M:%S`, in seconds. `datetime` has no leap seconds. -/
def strpTime (text : List Char) : Option ℕ :=
  match text.splitOn ':' with
  | [h, m, s] => do
      let hour ← strpHour h
      let minute ← strpMinute m
      let second ← strpSecond s
      if second < 60 then some (3600 * hour + 60 * minute + second) else none
  | _ => none

/-- Two digits, the first of which satisfies `first`. -/
def twoDigits (first : Char → Bool) (a b : Char) : Option ℕ :=
  if first a && isDecimal b then some (ofDigits ([a, b].filterMap digitValue)) else none

/-- The seconds of an offset, with a fraction of at most six digits. -/
def zoneSeconds : List Char → Option ℚ
  | [] => some 0
  | a :: b :: rest => do
      let seconds ← twoDigits (isBetween '0' '5') a b
      match rest with
      | [] => some seconds
      | '.' :: fraction =>
          if fraction ≠ [] ∧ fraction.length ≤ 6 ∧ fraction.all isDecimal then
            some (seconds + ofDigits (fraction.filterMap digitValue) / 10 ^ fraction.length)
          else none
      | _ => none
  | _ => none

/-- The digits of an offset. Colons stand after the hours and before the seconds, or nowhere. -/
def zoneSize : List Char → Option ℚ
  | h :: h' :: ':' :: m :: m' :: rest => do
      let hours ← twoDigits isDecimal h h'
      let minutes ← twoDigits (isBetween '0' '5') m m'
      let seconds ← match rest with
        | [] => some 0
        | [':'] => none
        | ':' :: rest => zoneSeconds rest
        | _ => none
      some (3600 * hours + 60 * minutes + seconds)
  | h :: h' :: m :: m' :: rest => do
      let hours ← twoDigits isDecimal h h'
      let minutes ← twoDigits (isBetween '0' '5') m m'
      let seconds ← zoneSeconds rest
      some (3600 * hours + 60 * minutes + seconds)
  | _ => none

/-- `%z`, in seconds. An offset is less than a day. -/
def strpZone : List Char → Option ℚ
  | ['Z'] => some 0
  | sign :: digits => do
      let size ← zoneSize digits
      if size < 86400 then
        if sign = '+' then some size else if sign = '-' then some (-size) else none
      else none
  | [] => none

/-- `_parse_created_at`, as a moment. -/
def parseCreatedAt (createdAt : String) : Option ℚ :=
  match (wordsFrom [] createdAt.toList).take 3 with
  | [date, time, zone] => do
      let days ← strpDate date
      let seconds ← strpTime time
      let offset ← strpZone zone
      some (86400 * days + seconds - offset)
  | _ => none

/-! ### What Docker prints -/

/-- A text that may stand in a column. A carriage return is read as a newline. -/
def isColumnText (s : String) : Bool := s.toList.all fun c => c ∉ ['\t', '\n', '\r']

/-- A time, as Docker prints it. The year has four digits. -/
structure CreatedAt where
  year : ℕ
  month : ℕ
  day : ℕ
  hour : ℕ
  minute : ℕ
  second : ℕ
  /-- The zone is behind UTC. -/
  behind : Bool
  offsetHours : ℕ
  offsetMinutes : ℕ
  /-- The abbreviation of the zone. -/
  zone : String
  year_mem : 1 ≤ year ∧ year < 10000
  month_mem : 1 ≤ month ∧ month ≤ 12
  day_mem : 1 ≤ day ∧ day ≤ daysInMonth year month
  time_mem : hour < 24 ∧ minute < 60 ∧ second < 60
  offset_mem : offsetHours < 24 ∧ offsetMinutes < 60
  zone_plain : isColumnText zone = true

namespace CreatedAt

/-- A number below 100. -/
def pad (n : ℕ) : List Char := [Nat.digitChar (n / 10), Nat.digitChar (n % 10)]

variable (t : CreatedAt)

def date : List Char :=
  pad (t.year / 100) ++ pad (t.year % 100) ++ '-' :: pad t.month ++ '-' :: pad t.day

def time : List Char := pad t.hour ++ ':' :: pad t.minute ++ ':' :: pad t.second

def offset : List Char :=
  (if t.behind then '-' else '+') :: (pad t.offsetHours ++ pad t.offsetMinutes)

/-- `{{.CreatedAt}}`. -/
def text : String :=
  String.ofList (t.date ++ ' ' :: (t.time ++ ' ' :: (t.offset ++ ' ' :: t.zone.toList)))

/-- The moment. -/
def moment : ℚ :=
  let offset : ℚ := 3600 * t.offsetHours + 60 * t.offsetMinutes
  86400 * toOrdinal t.year t.month t.day + (3600 * t.hour + 60 * t.minute + t.second : ℕ) -
    (if t.behind then -offset else offset)

end CreatedAt

open CreatedAt

/-- The digits that are printed. -/
theorem pad_digits {n : ℕ} (h : n < 100) : (∀ c ∈ pad n, c.isDigit = true ∧ isDecimal c = true) ∧
    (pad n).filterMap digitValue = [n / 10, n % 10] := by
  have hdigit : ∀ d < 10, ((Nat.digitChar d).isDigit = true ∧ isDecimal (Nat.digitChar d) = true) ∧
      digitValue (Nat.digitChar d) = some d := by decide
  obtain ⟨hten, hvalue⟩ := hdigit (n / 10) (by omega)
  obtain ⟨hone, hvalue'⟩ := hdigit (n % 10) (by omega)
  refine ⟨fun c hc => ?_, ?_⟩
  · rcases List.mem_pair.1 hc with rfl | rfl
    · exact hten
    · exact hone
  · unfold pad
    rw [List.filterMap_cons_some hvalue, List.filterMap_cons_some hvalue', List.filterMap_nil]

/-! ### Reading it back -/

theorem strpYear_pad {n : ℕ} (h : n < 10000) :
    strpYear (pad (n / 100) ++ pad (n % 100)) = some n := by
  obtain ⟨hfirst, hvalue⟩ := @pad_digits (n / 100) (by omega)
  obtain ⟨hlast, hvalue'⟩ := @pad_digits (n % 100) (by omega)
  have hall : (pad (n / 100) ++ pad (n % 100)).all isDecimal = true := by
    rw [List.all_eq_true]
    intro c hc
    rcases List.mem_append.1 hc with hc | hc
    · exact (hfirst c hc).2
    · exact (hlast c hc).2
  unfold strpYear
  rw [if_pos ⟨rfl, hall⟩, List.filterMap_append, hvalue, hvalue']
  simp only [ofDigits, List.cons_append, List.nil_append, List.foldl_cons, List.foldl_nil]
  congr 1
  omega

/-- A number of two digits is read back, by every field it is in the range of. -/
theorem strpField_pad :
    (∀ n < 13, 1 ≤ n → strpMonth (pad n) = some n) ∧ (∀ n < 32, 1 ≤ n → strpDay (pad n) = some n) ∧
    (∀ n < 24, strpHour (pad n) = some n) ∧ (∀ n < 60, strpMinute (pad n) = some n) ∧
    (∀ n < 60, strpSecond (pad n) = some n) := by
  decide +kernel

/-- The three numbers of a date or of a time. -/
theorem splitOn_pads {sep : Char} (hsep : sep.isDigit = false) {a b c : List Char}
    (ha : ∀ d ∈ a, d.isDigit = true) (hb : ∀ d ∈ b, d.isDigit = true)
    (hc : ∀ d ∈ c, d.isDigit = true) :
    (a ++ sep :: b ++ sep :: c).splitOn sep = [a, b, c] := by
  have hnot : ∀ l : List Char, (∀ d ∈ l, d.isDigit = true) → sep ∉ l := fun l hl hmem => by
    rw [hl sep hmem] at hsep
    cases hsep
  rw [List.append_assoc, List.cons_append, List.splitOn_append_cons_self_of_not_mem (hnot a ha),
    List.splitOn_append_cons_self_of_not_mem (hnot b hb), List.splitOn_eq_singleton (hnot c hc)]

variable (t : CreatedAt)

theorem daysInMonth_le (year month : ℕ) : daysInMonth year month < 32 := by
  unfold daysInMonth
  split_ifs <;> omega

theorem strpDate_date : strpDate t.date = some (toOrdinal t.year t.month t.day) := by
  obtain ⟨hyear, hyear'⟩ := t.year_mem
  obtain ⟨hmonth, hmonth'⟩ := t.month_mem
  obtain ⟨hday, hday'⟩ := t.day_mem
  have hlate : t.day < 32 := hday'.trans_lt (daysInMonth_le _ _)
  have hdigits : ∀ n < 100, ∀ c ∈ pad n, c.isDigit = true := fun n hn c hc =>
    ((pad_digits hn).1 c hc).1
  have hfirst : ∀ c ∈ pad (t.year / 100) ++ pad (t.year % 100), c.isDigit = true := by
    intro c hc
    rcases List.mem_append.1 hc with hc | hc
    · exact hdigits _ (by omega) c hc
    · exact hdigits _ (by omega) c hc
  unfold strpDate CreatedAt.date
  rw [splitOn_pads (by decide) hfirst (hdigits _ (by omega)) (hdigits _ (by omega))]
  dsimp only
  rw [strpYear_pad hyear', strpField_pad.1 _ (by omega) hmonth, strpField_pad.2.1 _ hlate hday]
  exact if_pos ⟨hyear, hday'⟩

theorem strpTime_time : strpTime t.time = some (3600 * t.hour + 60 * t.minute + t.second) := by
  obtain ⟨hhour, hminute, hsecond⟩ := t.time_mem
  have hdigits : ∀ n < 100, ∀ c ∈ pad n, c.isDigit = true := fun n hn c hc =>
    ((pad_digits hn).1 c hc).1
  obtain ⟨-, -, hreadHour, hreadMinute, hreadSecond⟩ := strpField_pad
  unfold strpTime CreatedAt.time
  rw [splitOn_pads (by decide) (hdigits _ (by omega)) (hdigits _ (by omega))
    (hdigits _ (by omega))]
  dsimp only
  rw [hreadHour _ hhour, hreadMinute _ hminute, hreadSecond _ hsecond]
  exact if_pos hsecond

/-- The offset, without a sign. -/
theorem zoneSize_pads : ∀ hours < 24, ∀ minutes < 60,
    zoneSize (pad hours ++ pad minutes) = some (3600 * hours + 60 * minutes : ℚ) := by
  decide +kernel

theorem strpZone_offset : strpZone t.offset =
    some (if t.behind then -(3600 * t.offsetHours + 60 * t.offsetMinutes : ℚ)
      else 3600 * t.offsetHours + 60 * t.offsetMinutes) := by
  obtain ⟨hhours, hminutes⟩ := t.offset_mem
  have hsize : (3600 * t.offsetHours + 60 * t.offsetMinutes : ℚ) < 86400 := by
    have hnat : 3600 * t.offsetHours + 60 * t.offsetMinutes < 86400 := by omega
    exact_mod_cast hnat
  unfold CreatedAt.offset
  cases t.behind with
  | true =>
    rw [if_pos rfl, if_pos rfl, strpZone, zoneSize_pads _ hhours _ hminutes]
    · exact if_pos hsize
    · exact fun h _ => by cases h
  | false =>
    rw [if_neg (by decide), if_neg (by decide), strpZone, zoneSize_pads _ hhours _ hminutes]
    · exact if_pos hsize
    · exact fun h _ => by cases h

/-- The printed fields are words. -/
theorem fields_plain : (∀ c ∈ t.date, isSpace c = false) ∧ (∀ c ∈ t.time, isSpace c = false) ∧
    ∀ c ∈ t.offset, isSpace c = false := by
  obtain ⟨-, hyear⟩ := t.year_mem
  obtain ⟨-, hmonth⟩ := t.month_mem
  have hday : t.day < 32 := t.day_mem.2.trans_lt (daysInMonth_le _ _)
  obtain ⟨hhour, hminute, hsecond⟩ := t.time_mem
  obtain ⟨hhours, hminutes⟩ := t.offset_mem
  have hpad : ∀ n < 100, ∀ c ∈ pad n, isSpace c = false := fun n hn c hc =>
    (digit_plain ((pad_digits hn).1 c hc).1).1
  simp only [CreatedAt.date, CreatedAt.time, CreatedAt.offset, List.forall_mem_append,
    List.forall_mem_cons]
  refine ⟨⟨⟨⟨hpad _ (by omega), hpad _ (by omega)⟩, by decide, hpad _ (by omega)⟩, by decide,
    hpad _ (by omega)⟩, ⟨⟨hpad _ (by omega), by decide, hpad _ (by omega)⟩, by decide,
    hpad _ (by omega)⟩, ?_, hpad _ (by omega), hpad _ (by omega)⟩
  split_ifs <;> decide

/-- **What is printed is read back.** -/
theorem parse_created : parseCreatedAt t.text = some t.moment := by
  obtain ⟨hdate, htime, hoffset⟩ := fields_plain t
  unfold parseCreatedAt CreatedAt.text
  rw [String.toList_ofList, wordsFrom_append_space _ (by simp [CreatedAt.date, pad]) hdate,
    wordsFrom_append_space _ (by simp [CreatedAt.time, pad]) htime,
    wordsFrom_append_space _ (by simp [CreatedAt.offset]) hoffset]
  simp only [List.take_succ_cons, List.take_zero]
  rw [strpDate_date, strpTime_time, strpZone_offset]
  unfold CreatedAt.moment
  rfl

end RunnerSwarm
