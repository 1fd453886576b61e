import RunnerSwarm.Config.Pool

/-!
# The Docker client

What the client makes of the answers of the `docker` command: `runningContainers`, the reapers
`cleanupExited` and `cleanupStuck`, and `stopContainer`. `_capture` returns what the command
printed and its exit status; every caller but `stopContainer` drops the status.

Listings are modelled by rows with the columns of their `--format`.

`NameFilter` is how Docker applies `--filter name=^P-`. The pattern is a regular expression, so of
the characters a container name may have, a dot in `P` stands for any character:
`dotPrefix`.
-/

namespace RunnerSwarm

/-- The result of `_capture`. -/
structure CommandResult (α : Type*) where
  output : α
  code : ℕ
  deriving DecidableEq

/-- The state of a container that exists. -/
inductive ContainerState
  | running
  | exited
  | other
  deriving DecidableEq

/-- `_parse_running_minutes`. -/
def parseRunningMinutes (runningFor : String) : Option PyFloat :=
  match words (lower runningFor) with
  | value :: unit :: _ =>
      match floatOfString value with
      | none => none
      | some value =>
          if hasText unit "second" then some (value.scale (1 / 60))
          else if hasText unit "minute" then some value
          else if hasText unit "hour" then some (value.scale 60)
          else if hasText unit "day" then some (value.scale (60 * 24))
          else none
  | _ => none

/-- `running_containers`: the status is dropped. -/
def runningContainers (listed : CommandResult (List String)) : List String :=
  listed.output.filter (· ≠ "")

/-- `cleanup_exited`: the containers it removes. Rows are name and status. -/
def cleanupExited (listed : CommandResult (List (String × String))) : List String :=
  listed.output.map Prod.fst

/-- `cleanup_stuck`: the containers it kills. Rows are name and running time, and `runningJob` is
`has_running_job`. -/
def cleanupStuck (listed : CommandResult (List (String × String))) (onlineNames : List String)
    (timeoutMinutes : ℤ) (runningJob : String → Option Bool) : List String :=
  (listed.output.filter fun (name, runningFor) =>
    name ∉ onlineNames &&
      (match parseRunningMinutes runningFor with
        | none => false
        | some minutes => !minutes.lt (.finite timeoutMinutes)) &&
      runningJob name = some false).map Prod.fst

/-- `name.rsplit("-", 1)[0]`, the start of the listing `stop_container` falls back to. -/
def beforeLastDash (name : String) : String :=
  match name.toList.reverse.dropWhile (· ≠ '-') with
  | [] => name
  | _ :: start => String.ofList start.reverse

/-- `stop_container`, from the answers of `docker rm` and of the listing it falls back to. -/
def stopContainer (name : String) (rmCode : ℕ) (listed : CommandResult (List String)) : Bool :=
  rmCode = 0 || name ∉ runningContainers listed

/-! ### Names -/

/-- A character of a container name. -/
def isNameChar (c : Char) : Bool := c.isAlphanum || c = '_' || c = '.' || c = '-'

/-- A name Docker accepts, as far as its characters go. -/
def DockerName (s : String) : Prop := ∀ c ∈ s.toList, isNameChar c = true

instance (s : String) : Decidable (DockerName s) :=
  List.decidableBAll (fun c => isNameChar c = true) s.toList

/-- `p` is a prefix of `s` when a dot in `p` stands for any character. -/
def dotPrefix : List Char → List Char → Bool
  | [], _ => true
  | _ :: _, [] => false
  | c :: p, d :: s => (c = '.' || c = d) && dotPrefix p s

theorem dotPrefix_self_append (p s : List Char) : dotPrefix p (p ++ s) = true := by
  induction p with
  | nil => rfl
  | cons c p ih => simp [dotPrefix, ih]

/-- A shared beginning does not matter. -/
theorem dotPrefix_append_left (b p s : List Char) : dotPrefix (b ++ p) (b ++ s) = dotPrefix p s := by
  induction b with
  | nil => rfl
  | cons c b ih => simpa [dotPrefix] using ih

theorem dotPrefix_cons_dash (p s : List Char) : dotPrefix ('-' :: p) ('-' :: s) = dotPrefix p s :=
  dotPrefix_append_left ['-'] p s

/-- A dash in the pattern stands for itself only. -/
theorem mem_of_dotPrefix_dash {p s : List Char} (h : dotPrefix (p ++ ['-']) s = true) : '-' ∈ s := by
  induction p generalizing s with
  | nil =>
    cases s with
    | nil => cases h
    | cons d s =>
      simp only [List.nil_append, dotPrefix, Bool.and_true, Bool.or_eq_true,
        decide_eq_true_eq] at h
      rcases h with h | rfl
      · exact absurd h (by decide)
      · exact List.mem_cons_self
  | cons c p ih =>
    cases s with
    | nil => cases h
    | cons d s =>
      simp only [List.cons_append, dotPrefix, Bool.and_eq_true] at h
      exact List.mem_cons_of_mem _ (ih h.2)

/-- What follows the last dash of a name does not decide whether a prefix and its dash match. -/
theorem dotPrefix_dash_append {p q uid : List Char} (huid : '-' ∉ uid) :
    dotPrefix (p ++ ['-']) (q ++ '-' :: uid) = dotPrefix (p ++ ['-']) (q ++ ['-']) := by
  induction p generalizing q with
  | nil => cases q <;> rfl
  | cons c p ih =>
    cases q with
    | nil =>
      have hshort : ∀ s, '-' ∉ s → dotPrefix (p ++ ['-']) s = false := fun s hs =>
        Bool.eq_false_iff.2 fun h => hs (mem_of_dotPrefix_dash h)
      simp only [List.nil_append, List.cons_append, dotPrefix, hshort uid huid,
        hshort [] List.not_mem_nil]
    | cons d q => simp only [List.cons_append, dotPrefix, ih]

/-- How `--filter name=^P-` selects names, for prefixes a container name can have. -/
structure NameFilter where
  selects : (start name : String) → Bool
  spec : ∀ p n, DockerName p → DockerName n →
    selects p n = dotPrefix (p.toList ++ ['-']) n.toList

/-- A filter that takes each character as it is. -/
theorem dotPrefix_spec (p n : String) (_ : DockerName p) (_ : DockerName n) :
    dotPrefix (p.toList ++ ['-']) n.toList = dotPrefix (p.toList ++ ['-']) n.toList := rfl

theorem dropWhile_ne_dash {l : List Char} (h : '-' ∈ l) :
    ∃ word rest, l = word ++ '-' :: rest ∧ l.dropWhile (· ≠ '-') = '-' :: rest := by
  induction l with
  | nil => cases h
  | cons c l ih =>
    by_cases hc : c = '-'
    · exact ⟨[], l, by rw [hc]; rfl, by simp [hc]⟩
    · obtain ⟨word, rest, rfl, hdrop⟩ := ih ((List.mem_cons.1 h).resolve_left (Ne.symm hc))
      exact ⟨c :: word, rest, rfl, by simpa [hc] using hdrop⟩

theorem beforeLastDash_append {name : String} (h : '-' ∈ name.toList) :
    ∃ rest, name.toList = (beforeLastDash name).toList ++ '-' :: rest := by
  obtain ⟨word, start, hname, hdrop⟩ := dropWhile_ne_dash (List.mem_reverse.2 h)
  refine ⟨word.reverse, ?_⟩
  unfold beforeLastDash
  rw [hdrop, String.toList_ofList, ← List.reverse_reverse name.toList, hname]
  simp

/-- A filter on the part before the last dash selects the name. -/
theorem NameFilter.selects_beforeLastDash (F : NameFilter) {name : String} (hname : DockerName name)
    (h : '-' ∈ name.toList) : F.selects (beforeLastDash name) name = true := by
  obtain ⟨rest, hrest⟩ := beforeLastDash_append h
  have hstart : DockerName (beforeLastDash name) := fun c hc =>
    hname c (hrest ▸ List.mem_append_left _ hc)
  rw [F.spec _ _ hstart hname, hrest]
  have hself := dotPrefix_self_append ((beforeLastDash name).toList ++ ['-']) rest
  rwa [List.append_assoc] at hself

/-- A hexadecimal digit as `uuid4().hex` prints it. -/
def isHexChar (c : Char) : Bool := c.isDigit || ('a' ≤ c && c ≤ 'f')

/-- The name `spawn_runner` gives a container of the pool, for some eight hexadecimal digits. -/
def PoolConfig.Spawns (p : PoolConfig) (name : String) : Prop :=
  ∃ uid : List Char, uid.length = 8 ∧ (∀ c ∈ uid, isHexChar c = true) ∧
    name.toList = p.containerPrefix.toList ++ '-' :: uid

theorem dash_not_hex {uid : List Char} (h : ∀ c ∈ uid, isHexChar c = true) : '-' ∉ uid :=
  fun hmem => absurd (h _ hmem) (by decide)

end RunnerSwarm
