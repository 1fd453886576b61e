import Mathlib.Data.List.DropRight
import Mathlib.Tactic

/-!
# Paths of URLs

The path of an `http` URL on its way to a server. A client reads the URL: it drops white space, ends
the path at `?` or `#`, takes `\` for `/` and resolves the dot segments, which may be written with
`%2e`. The server decodes the percent signs of what it gets, once, and splits the result; what it
makes of extra slashes is its own matter, and `PathServer.Documented` what is known of it.

A path that starts with some plain segments may leave them by its dot segments. `climbs` says
whether it does; if it does not, these segments come first in what is sent, by `under_prefix`, and
in what the server sees, by `named_append`.
-/

namespace RunnerSwarm.UrlPath

/-! ### The client -/

/-- `/`, or the `\` that counts as one. -/
def isSlash (c : Char) : Bool := c = '/' || c = '\\'

/-- A space or a control character. -/
def isBlank (c : Char) : Bool := c.toNat ≤ 32

/-- Blanks are removed from the end of a URL, tabs and line ends everywhere. -/
def clean (text : List Char) : List Char :=
  (text.rdropWhile isBlank).filter fun c => c ≠ '\t' && c ≠ '\n' && c ≠ '\r'

/-- The text before the query and the fragment. -/
def pathText (text : List Char) : List Char := text.takeWhile fun c => c ≠ '?' && c ≠ '#'

def isSingleDot (segment : List Char) : Bool :=
  segment.map Char.toLower ∈ [['.'], ['%', '2', 'e']]

def isDoubleDot (segment : List Char) : Bool :=
  segment.map Char.toLower ∈ [['.', '.'], ['.', '%', '2', 'e'], ['%', '2', 'e', '.'],
    ['%', '2', 'e', '%', '2', 'e']]

/-- Resolve the dot segments; `stack` is the path so far, its last segment first. A dot segment at
the end leaves an empty segment. -/
def resolve (stack : List (List Char)) : List (List Char) → List (List Char)
  | [] => stack.reverse
  | [last] =>
      if isDoubleDot last then ([] :: stack.tail).reverse
      else if isSingleDot last then ([] :: stack).reverse
      else (last :: stack).reverse
  | segment :: next :: rest =>
      if isDoubleDot segment then resolve stack.tail (next :: rest)
      else if isSingleDot segment then resolve stack (next :: rest)
      else resolve (segment :: stack) (next :: rest)

/-- The segments that the client sends, of a URL text after the first slash of its path. -/
def sent (text : List Char) : List (List Char) :=
  resolve [] ((pathText (clean text)).splitOnP isSlash)

/-! ### The server -/

def hexValue (c : Char) : Option ℕ :=
  if '0' ≤ c ∧ c ≤ '9' then some (c.toNat - '0'.toNat)
  else if 'a' ≤ c ∧ c ≤ 'f' then some (c.toNat - 'a'.toNat + 10)
  else if 'A' ≤ c ∧ c ≤ 'F' then some (c.toNat - 'A'.toNat + 10)
  else none

/-- Decode the percent signs, each byte to the character of its number. -/
def percentDecode : List Char → List Char
  | '%' :: a :: b :: rest =>
      match hexValue a, hexValue b with
      | some x, some y => Char.ofNat (16 * x + y) :: percentDecode rest
      | _, _ => '%' :: percentDecode (a :: b :: rest)
  | c :: rest => c :: percentDecode rest
  | [] => []

/-- The decoded path of a request for `segments`, after its first slash. -/
def delivered (segments : List (List Char)) : List Char :=
  percentDecode (['/'].intercalate segments)

/-- The segments of a path when its extra slashes are dropped. -/
def named (path : List Char) : List (List Char) :=
  (path.splitOn '/').filter fun segment => segment ≠ []

/-- What a server makes of a decoded path before it looks for a route: the segments it goes by, and
`none` for a path that it serves by no route. -/
structure PathServer where
  segments : List Char → Option (List (List Char))

/-- A path without empty segments is split at its slashes. Extra slashes are dropped, by a
redirection or at once, or keep the path from being served. -/
structure PathServer.Documented (server : PathServer) : Prop where
  plain : ∀ path, [] ∉ path.splitOn '/' → server.segments path = some (path.splitOn '/')
  slashes : ∀ path segments, server.segments path = some segments → segments = named path

/-! ### Leaving a prefix -/

/-- Whether the dot segments lead above the place where they start; `depth` counts the segments
below it. -/
def climbs (depth : ℕ) : List (List Char) → Bool
  | [] => false
  | segment :: rest =>
      if isDoubleDot segment then depth = 0 || climbs (depth - 1) rest
      else if isSingleDot segment then climbs depth rest
      else climbs (depth + 1) rest

/-- A segment that is no dot segment. -/
def isPlain (segment : List Char) : Bool := !isDoubleDot segment && !isSingleDot segment

theorem resolve_plain {segments rest : List (List Char)} (h : segments.all isPlain = true)
    (hrest : rest ≠ []) (stack : List (List Char)) :
    resolve stack (segments ++ rest) = resolve (segments.reverse ++ stack) rest := by
  induction segments generalizing stack with
  | nil => rfl
  | cons segment segments ih =>
    rw [List.all_cons, Bool.and_eq_true] at h
    obtain ⟨hplain, hsegments⟩ := h
    have hdots : isDoubleDot segment = false ∧ isSingleDot segment = false := by
      simpa [isPlain] using hplain
    obtain ⟨next, more, hmore⟩ := List.exists_cons_of_ne_nil
      (List.append_ne_nil_of_right_ne_nil segments hrest)
    rw [List.cons_append, hmore]
    show (if isDoubleDot segment then _ else _) = _
    rw [if_neg (by simp [hdots.1]), if_neg (by simp [hdots.2]), ← hmore, ih hsegments,
      List.reverse_cons, List.append_assoc]
    rfl

theorem resolve_all_plain {segments : List (List Char)} (h : segments.all isPlain = true) :
    resolve [] segments = segments := by
  rcases List.eq_nil_or_concat segments with rfl | ⟨front, last, rfl⟩
  · rfl
  · rw [List.concat_eq_append, List.all_append, Bool.and_eq_true] at h
    have hlast : isDoubleDot last = false ∧ isSingleDot last = false := by
      simpa [isPlain] using h.2
    rw [List.concat_eq_append, resolve_plain h.1 (List.cons_ne_nil _ _), List.append_nil]
    show (if isDoubleDot last then _ else _) = _
    rw [if_neg (by simp [hlast.1]), if_neg (by simp [hlast.2]), List.reverse_cons,
      List.reverse_reverse]

/-- What does not climb stays below. -/
theorem resolve_below {stack below rest : List (List Char)}
    (h : climbs below.length rest = false) :
    ∃ more, resolve (below ++ stack) rest = stack.reverse ++ more := by
  induction rest generalizing below with
  | nil => exact ⟨below.reverse, List.reverse_append⟩
  | cons segment rest ih =>
    unfold climbs at h
    have hpop : isDoubleDot segment = true →
        ∃ top tail, below = top :: tail ∧ climbs tail.length rest = false := by
      intro hdots
      rw [if_pos hdots, Bool.or_eq_false_iff, decide_eq_false_iff_not] at h
      obtain ⟨top, tail, rfl⟩ := List.exists_cons_of_ne_nil
        (List.ne_nil_of_length_pos (Nat.pos_of_ne_zero h.1))
      exact ⟨top, tail, rfl, h.2⟩
    cases rest with
    | nil =>
      unfold resolve
      split_ifs with hdouble hsingle
      · obtain ⟨top, tail, rfl, -⟩ := hpop hdouble
        exact ⟨tail.reverse ++ [[]], by simp⟩
      · exact ⟨below.reverse ++ [[]], by simp⟩
      · exact ⟨below.reverse ++ [segment], by simp⟩
    | cons next more =>
      unfold resolve
      split_ifs with hdouble hsingle
      · obtain ⟨top, tail, rfl, htail⟩ := hpop hdouble
        exact ih htail
      · rw [if_neg hdouble, if_pos hsingle] at h
        exact ih h
      · rw [if_neg hdouble, if_neg hsingle] at h
        exact @ih (segment :: below) h

/-! ### Plain text passes unchanged -/

/-- A character that neither side treats specially. -/
def isOrdinary (c : Char) : Bool :=
  !isSlash c && !isBlank c && c ≠ '?' && c ≠ '#' && c ≠ '%'

/-- Ordinary characters and slashes. -/
def isOrdinaryPath (text : List Char) : Bool := text.all fun c => isOrdinary c || c = '/'

theorem isBlank_eq_false {c : Char} (h : (isOrdinary c || c = '/') = true) : isBlank c = false := by
  rw [Bool.or_eq_true, decide_eq_true_eq] at h
  rcases h with h | rfl
  · simp only [isOrdinary, Bool.and_eq_true] at h
    simpa using h.1.1.1.2
  · rfl

theorem clean_cons {c : Char} (h : isBlank c = false) (text : List Char) :
    clean (c :: text) = c :: clean text := by
  have hkeep : (c ≠ '\t' && c ≠ '\n' && c ≠ '\r') = true := by
    by_contra hno
    simp only [Bool.and_eq_true, decide_eq_true_eq, not_and_or, not_not] at hno
    rcases hno with (rfl | rfl) | rfl <;> exact absurd h (by decide)
  have hdrop : (c :: text).rdropWhile isBlank = c :: text.rdropWhile isBlank := by
    unfold List.rdropWhile
    rw [List.reverse_cons, List.dropWhile_append]
    split_ifs with hempty
    · rw [List.isEmpty_iff.1 hempty, List.dropWhile_cons_of_neg (by simp [h])]
      rfl
    · rw [List.reverse_append]
      rfl
  unfold clean
  rw [hdrop, List.filter_cons, if_pos hkeep]

theorem clean_append {front : List Char} (h : isOrdinaryPath front = true) (text : List Char) :
    clean (front ++ text) = front ++ clean text := by
  induction front with
  | nil => rfl
  | cons c front ih =>
    rw [isOrdinaryPath, List.all_cons, Bool.and_eq_true] at h
    rw [List.cons_append, clean_cons (isBlank_eq_false h.1), ih h.2]
    rfl

theorem pathText_append {front : List Char} (h : isOrdinaryPath front = true) (text : List Char) :
    pathText (front ++ text) = front ++ pathText text := by
  refine List.takeWhile_append_of_pos fun c hc => ?_
  have hc := List.all_eq_true.1 h c hc
  rw [Bool.or_eq_true, decide_eq_true_eq] at hc
  rcases hc with hc | rfl
  · simp only [isOrdinary, Bool.and_eq_true] at hc
    simp only [Bool.and_eq_true]
    exact ⟨hc.1.1.2, hc.1.2⟩
  · rfl

theorem percentDecode_cons {c : Char} (h : c ≠ '%') (text : List Char) :
    percentDecode (c :: text) = c :: percentDecode text := by
  rw [percentDecode]
  intro a b rest hc
  exact absurd hc h

theorem percentDecode_append {front : List Char} (h : isOrdinaryPath front = true)
    (text : List Char) : percentDecode (front ++ text) = front ++ percentDecode text := by
  induction front with
  | nil => rfl
  | cons c front ih =>
    rw [isOrdinaryPath, List.all_cons, Bool.and_eq_true] at h
    have hc : c ≠ '%' := by
      rintro rfl
      exact absurd h.1 (by decide)
    rw [List.cons_append, percentDecode_cons hc, ih h.2]
    rfl

/-! ### A prefix that is not left -/

theorem splitOnP_congr {α : Type*} {p q : α → Bool} {l : List α} (h : ∀ a ∈ l, p a = q a) :
    l.splitOnP p = l.splitOnP q := by
  induction l with
  | nil => rfl
  | cons a l ih =>
    rw [List.splitOnP_cons_eq_if_modifyHead, List.splitOnP_cons_eq_if_modifyHead,
      h a List.mem_cons_self, ih fun b hb => h b (List.mem_cons_of_mem a hb)]

theorem intercalate_append {α : Type*} (sep : List α) {front back : List (List α)}
    (hfront : front ≠ []) (hback : back ≠ []) :
    sep.intercalate (front ++ back) = sep.intercalate front ++ sep ++ sep.intercalate back := by
  induction front with
  | nil => exact absurd rfl hfront
  | cons l front ih =>
    cases front with
    | nil =>
      rw [List.singleton_append, List.intercalate_cons_of_ne_nil hback, List.intercalate_singleton]
    | cons l' front =>
      have hmore : l' :: front ++ back ≠ [] := List.cons_ne_nil _ _
      rw [List.cons_append, List.intercalate_cons_of_ne_nil hmore, ih (List.cons_ne_nil _ _),
        List.intercalate_cons_cons]
      simp only [List.append_assoc]

section Prefix

variable {front : List Char}

/-- The server gets an ordinary prefix before anything else. -/
theorem delivered_append (h : isOrdinaryPath front = true) (more : List (List Char)) :
    ∃ rest, (delivered (front.splitOn '/' ++ more)).splitOn '/' = front.splitOn '/' ++ rest := by
  cases more with
  | nil =>
    have hself : percentDecode front = front := by
      have hdecode := percentDecode_append h []
      rwa [List.append_nil, show percentDecode [] = [] from rfl, List.append_nil] at hdecode
    refine ⟨[], ?_⟩
    unfold delivered
    rw [List.append_nil, List.intercalate_splitOn, hself]
  | cons segment more =>
    refine ⟨(percentDecode (['/'].intercalate (segment :: more))).splitOn '/', ?_⟩
    have hjoin : ['/'].intercalate (front.splitOn '/' ++ segment :: more) =
        front ++ '/' :: ['/'].intercalate (segment :: more) := by
      rw [intercalate_append _ (List.splitOn_ne_nil _ _) (List.cons_ne_nil _ _),
        List.intercalate_splitOn, List.append_assoc]
      rfl
    unfold delivered
    rw [hjoin, percentDecode_append h, percentDecode_cons (by decide)]
    exact List.splitOn_append_cons_self _ _

/-- Segments that are not empty stay in front. -/
theorem named_of_splitOn {path : List Char} {segments rest : List (List Char)}
    (hnamed : [] ∉ segments) (h : path.splitOn '/' = segments ++ rest) :
    named path = segments ++ rest.filter fun segment => segment ≠ [] := by
  unfold named
  rw [h, List.filter_append]
  congr 1
  apply List.filter_eq_self.2
  intro segment hsegment
  exact decide_eq_true fun hempty => hnamed (hempty ▸ hsegment)

/-- The server sees an ordinary prefix before anything else. -/
theorem named_append (h : isOrdinaryPath front = true) (hnamed : [] ∉ front.splitOn '/')
    (more : List (List Char)) :
    ∃ rest, named (delivered (front.splitOn '/' ++ more)) = front.splitOn '/' ++ rest := by
  obtain ⟨rest, hrest⟩ := delivered_append h more
  exact ⟨_, named_of_splitOn hnamed hrest⟩

theorem pathText_clean_append (h : isOrdinaryPath front = true) (text : List Char) :
    pathText (clean (front ++ text)) = front ++ pathText (clean text) := by
  rw [clean_append h, pathText_append h]

/-- No character of the prefix is a `\`. -/
theorem splitOnP_isSlash (h : isOrdinaryPath front = true) :
    front.splitOnP isSlash = front.splitOn '/' := by
  rw [List.splitOn_eq_splitOnP]
  refine splitOnP_congr fun c hc => ?_
  have hc := List.all_eq_true.1 h c hc
  rw [Bool.or_eq_true, decide_eq_true_eq] at hc
  rcases hc with hc | rfl
  · simp only [isOrdinary, isSlash, Bool.and_eq_true, Bool.not_eq_true', Bool.or_eq_false_iff,
      decide_eq_false_iff_not] at hc
    simp [isSlash, hc.1.1.1.1]
  · rfl

/-- A prefix with nothing behind it but a query. -/
theorem at_prefix (h : isOrdinaryPath front = true)
    (hplain : (front.splitOn '/').all isPlain = true) {text : List Char}
    (hend : pathText (clean text) = []) : sent (front ++ text) = front.splitOn '/' := by
  unfold sent
  rw [pathText_clean_append h, hend, List.append_nil, splitOnP_isSlash h, resolve_all_plain hplain]

/-- **What does not climb stays under its prefix.** -/
theorem under_prefix (h : isOrdinaryPath front = true)
    (hplain : (front.splitOn '/').all isPlain = true) {text : List Char}
    (hclimbs : climbs 0 ((pathText (clean text)).splitOnP isSlash) = false) :
    ∃ more, sent (front ++ '/' :: text) = front.splitOn '/' ++ more := by
  have hslash : isOrdinaryPath ['/'] = true := by decide
  have hpath : pathText (clean (front ++ '/' :: text)) = front ++ '/' :: pathText (clean text) := by
    rw [pathText_clean_append h]
    exact congrArg (front ++ ·) (pathText_clean_append hslash text)
  obtain ⟨more, hmore⟩ := @resolve_below (front.splitOn '/').reverse [] _ hclimbs
  rw [List.nil_append, List.reverse_reverse] at hmore
  refine ⟨more, ?_⟩
  unfold sent
  rw [hpath, List.splitOnP_append_cons _ _ (by decide), splitOnP_isSlash h,
    resolve_plain hplain (List.splitOnP_ne_nil _ _), List.append_nil, hmore]

end Prefix

end RunnerSwarm.UrlPath
