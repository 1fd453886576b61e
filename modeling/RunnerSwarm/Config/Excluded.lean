import RunnerSwarm.Config.Pool

/-!
# Excluded repositories

`exclude_repos` is a comma-separated list of names and glob patterns. `fnmatch` reads a pattern as
Python does on a POSIX system, where case matters: `*` is any text, `?` any character, and `[…]` one
of the characters listed, with ranges, or none of them after `!`. A bracket that is not closed
stands for itself.

* `excludesRepo` says whether a name matches one of the patterns;
* `fnmatch_plain`: a pattern without wildcards matches its own text and nothing else.
-/

namespace RunnerSwarm

/-- A part of a glob pattern. -/
inductive GlobPart
  | star
  | any
  | char (c : Char)
  | oneOf (negated : Bool) (ranges : List (Char × Char))
  deriving DecidableEq

/-- The characters between brackets: `a-z` is a range, and a dash at an end is itself. -/
def globRanges : List Char → List (Char × Char)
  | c :: '-' :: d :: rest => (c, d) :: globRanges rest
  | c :: rest => (c, c) :: globRanges rest
  | [] => []

/-- How many characters stand between an opened bracket and the one that closes it. A closing
bracket that comes first is one of them. -/
def bracketLength (rest : List Char) : Option ℕ :=
  let lead := if rest.head? = some '!' then 1 else 0
  let lead := if rest[lead]? = some ']' then lead + 1 else lead
  ((rest.drop lead).findIdx? (· = ']')).map (lead + ·)

/-- What stands between brackets. -/
def GlobPart.ofBracket : List Char → GlobPart
  | '!' :: rest => .oneOf true (globRanges rest)
  | rest => .oneOf false (globRanges rest)

/-- The parts of a pattern; of a bracket that was read, `skip` characters are left. -/
def globParts : (skip : ℕ) → List Char → List GlobPart
  | _, [] => []
  | skip + 1, _ :: rest => globParts skip rest
  | 0, c :: rest =>
      if c = '*' then .star :: globParts 0 rest
      else if c = '?' then .any :: globParts 0 rest
      else if c = '[' then
        match bracketLength rest with
        | none => .char c :: globParts 0 rest
        | some n => .ofBracket (rest.take n) :: globParts (n + 1) rest
      else .char c :: globParts 0 rest

/-- One character against a part other than `*`. -/
def GlobPart.matches (part : GlobPart) (c : Char) : Bool :=
  match part with
  | .star => false
  | .any => true
  | .char d => c = d
  | .oneOf negated ranges => negated != ranges.any fun (low, high) => low ≤ c && c ≤ high

def globMatch : List GlobPart → List Char → Bool
  | [], s => s.isEmpty
  | .star :: parts, s => s.tails.any (globMatch parts)
  | _ :: _, [] => false
  | part :: parts, c :: s => part.matches c && globMatch parts s

/-- `fnmatch(name, pattern)`. -/
def fnmatch (name pattern : String) : Bool := globMatch (globParts 0 pattern.toList) name.toList

namespace PoolConfig

variable (p : PoolConfig)

/-- `excluded_repo_patterns`. -/
def excludedRepoPatterns : List String :=
  ((p.excludeRepos.toList.splitOn ',').map fun part => strip (String.ofList part)).filter (· ≠ "")

/-- `excludes_repo`. -/
def excludesRepo (name : String) : Bool := p.excludedRepoPatterns.any (fnmatch name)

end PoolConfig

/-- A character with no meaning of its own in a pattern. -/
def isPlain (c : Char) : Bool := c ≠ '*' && c ≠ '?' && c ≠ '['

theorem globParts_plain {l : List Char} (h : ∀ c ∈ l, isPlain c = true) :
    globParts 0 l = l.map .char := by
  induction l with
  | nil => rfl
  | cons c l ih =>
    obtain ⟨hc, hl⟩ := List.forall_mem_cons.1 h
    simp only [isPlain, Bool.and_eq_true, decide_eq_true_eq] at hc
    rw [globParts, if_neg hc.1.1, if_neg hc.1.2, if_neg hc.2, ih hl, List.map_cons]

theorem globMatch_char {l s : List Char} : globMatch (l.map .char) s = true ↔ s = l := by
  induction l generalizing s with
  | nil => simp [globMatch]
  | cons c l ih =>
    cases s with
    | nil => simp [globMatch]
    | cons d s => simp [globMatch, GlobPart.matches, ih]

/-- **A pattern without wildcards matches its own text only.** -/
theorem fnmatch_plain {name pattern : String} (h : ∀ c ∈ pattern.toList, isPlain c = true) :
    fnmatch name pattern = true ↔ name = pattern := by
  unfold fnmatch
  rw [globParts_plain h, globMatch_char, String.toList_inj]

example : fnmatch "legacy-api" "legacy-*" = true ∧ fnmatch "Legacy-api" "legacy-*" = false ∧
    fnmatch "v2-x" "v[!3-9a-]-?" = true ∧ fnmatch "v[2" "v[2" = true := by
  decide +kernel

end RunnerSwarm
