import RunnerSwarm.Config.Pool
import RunnerSwarm.GitHub.Client

/-!
# The forges

`ForgeClients` hands the calls of a pool to the client of the forge the pool belongs to: the one
client of GitHub, or the Gitea client of the pool's base URL. A Gitea client sends the same paths to
another base, and has another name for the size of a page.

* `ForgeRequest` are the requests the methods of a client make, with their path and HTTP method;
* `PoolConfig.requestUrl` is the address a request goes to;
* `requestUrl_registrationToken` says that the token a runner registers with is asked for below the
  address its pool's runners are listed at.
-/

namespace RunnerSwarm

/-- `GitHubClient.API_BASE`. -/
def githubApiBase : String := "https://api.github.com"

/-- `API_BASE` of the Gitea client of a base URL. -/
def giteaApiBase (baseUrl : String) : String := rstripChar baseUrl '/' ++ "/api/v1"

/-- A request of one of the methods of a client. -/
inductive ForgeRequest
  | repositories (page : ℕ)
  | repository
  | orgRepositories
  | runs (repo status : String)
  | jobs (repo : String) (runId : ℤ)
  | listRunners
  | deregister (runnerId : ℤ)
  | registrationToken
  deriving DecidableEq

namespace ForgeRequest

def method : ForgeRequest → HttpMethod
  | deregister _ => .delete
  | registrationToken => .post
  | _ => .get

/-- The request is made through `_get_shared`. -/
def isShared : ForgeRequest → Bool
  | runs _ _ => true
  | jobs _ _ => true
  | _ => false

end ForgeRequest

namespace PoolConfig

variable (p : PoolConfig)

/-- `REPO_PAGE_SIZE` of the pool's client. -/
def repoPageSize : ℕ := if p.isGitea then 50 else 100

/-- The path a method passes to `_request`. -/
def requestPath : ForgeRequest → String
  | .repositories page =>
      "/user/repos?affiliation=owner&visibility=all&per_page=" ++ toString p.repoPageSize ++
        "&page=" ++ toString page
  | .repository => "/repos/" ++ p.owner ++ "/" ++ p.repo
  | .orgRepositories => "/orgs/" ++ p.owner ++ "/repos?per_page=100&type=all"
  | .runs repo status =>
      "/repos/" ++ p.owner ++ "/" ++ repo ++ "/actions/runs?status=" ++ status ++ "&per_page=50"
  | .jobs repo runId =>
      "/repos/" ++ p.owner ++ "/" ++ repo ++ "/actions/runs/" ++ toString runId ++
        "/jobs?filter=latest&per_page=50"
  | .listRunners => p.apiRunnersPath
  | .deregister runnerId => p.apiRunnersPath ++ "/" ++ toString runnerId
  | .registrationToken => p.apiRunnersPath ++ "/registration-token"

/-- The path after `_request`, which a Gitea client overrides. -/
def sentPath (request : ForgeRequest) : String :=
  if p.isGitea then replaceText (p.requestPath request) "per_page=" "limit="
  else p.requestPath request

/-- `API_BASE` of the pool's client. -/
def apiBase : String := if p.isGitea then giteaApiBase p.baseUrl else githubApiBase

/-- The address of a request. -/
def requestUrl (request : ForgeRequest) : String := p.apiBase ++ p.sentPath request

/-- `registration_url`. -/
def registrationUrl : String :=
  if p.repo ≠ "" then "https://github.com/" ++ p.owner ++ "/" ++ p.repo
  else "https://github.com/" ++ p.owner

end PoolConfig

/-! ### Replacing text -/

section Replace

variable {old new : List Char} {e : Char}

/-- A text whose last character does not occur in `y` is found in `x ++ y` where it is found in
`x`. -/
theorem prefix_append_iff_of_not_mem {x y : List Char} (he : e ∉ y) :
    old ++ [e] <+: x ++ y ↔ old ++ [e] <+: x := by
  constructor
  · intro h
    rcases Nat.le_total (old ++ [e]).length x.length with hle | hle
    · exact List.prefix_of_prefix_length_le h (List.prefix_append x y) hle
    · obtain ⟨z, hz⟩ := List.prefix_of_prefix_length_le (List.prefix_append x y) h hle
      rcases List.eq_nil_or_concat z with rfl | ⟨z', d, rfl⟩
      · rw [← hz, List.append_nil]
      · rw [List.concat_eq_append] at hz
        obtain rfl : d = e := by
          have hlast := congrArg List.getLast? hz
          rw [← List.append_assoc, List.getLast?_concat, List.getLast?_concat] at hlast
          exact Option.some.inj hlast
        rw [← hz] at h
        have hmem : d ∈ y := ((List.prefix_append_right_inj x).1 h).mem
          (List.mem_append_right _ (List.mem_singleton.2 rfl))
        exact absurd hmem he
  · exact fun h => h.trans (List.prefix_append x y)

/-- Nothing is replaced in a text without the last character of what is looked for. -/
theorem replaceFrom_of_not_mem {y : List Char} (he : e ∉ y) :
    replaceFrom (old ++ [e]) new 0 y = y := by
  induction y with
  | nil => rfl
  | cons c y ih =>
    have hnone : (old ++ [e]).isPrefixOf (c :: y) = false := by
      refine Bool.eq_false_iff.2 fun h => he ?_
      exact (List.isPrefixOf_iff_prefix.1 h).mem
        (List.mem_append_right _ (List.mem_singleton.2 rfl))
    unfold replaceFrom
    rw [if_neg (by rw [hnone]; exact Bool.false_ne_true), ih fun h => he (.tail c h)]

/-- A text without that character stays as it is, and what is before it is replaced as ever. -/
theorem replaceFrom_append {x y : List Char} (he : e ∉ y) {skip : ℕ} (hskip : skip ≤ x.length) :
    replaceFrom (old ++ [e]) new skip (x ++ y) = replaceFrom (old ++ [e]) new skip x ++ y := by
  induction x generalizing skip with
  | nil =>
    obtain rfl := Nat.le_zero.1 hskip
    rw [List.nil_append, replaceFrom_of_not_mem he]
    rfl
  | cons c x ih =>
    cases skip with
    | succ skip => exact ih (Nat.le_of_succ_le_succ hskip)
    | zero =>
      have hsame : (old ++ [e]).isPrefixOf (c :: (x ++ y)) = (old ++ [e]).isPrefixOf (c :: x) := by
        rw [Bool.eq_iff_iff, List.isPrefixOf_iff_prefix, List.isPrefixOf_iff_prefix,
          ← List.cons_append, prefix_append_iff_of_not_mem he]
      rw [List.cons_append]
      unfold replaceFrom
      rw [hsame]
      by_cases hfound : (old ++ [e]).isPrefixOf (c :: x) = true
      · have hlength := (List.isPrefixOf_iff_prefix.1 hfound).length_le
        rw [if_pos hfound, if_pos hfound, ih (by rw [List.length_cons] at hlength; omega),
          List.append_assoc]
      · rw [if_neg hfound, if_neg hfound, ih x.length.zero_le, List.cons_append]

theorem replaceText_append {s t old new : String} {start : List Char}
    (hold : old.toList = start ++ [e]) (he : e ∉ t.toList) :
    replaceText (s ++ t) old new = replaceText s old new ++ t := by
  unfold replaceText
  rw [String.toList_append, hold, replaceFrom_append he s.toList.length.zero_le,
    String.ofList_append, String.ofList_toList]

end Replace

theorem sentPath_registrationToken (p : PoolConfig) :
    p.sentPath .registrationToken = p.sentPath .listRunners ++ "/registration-token" := by
  have hpath : p.requestPath .registrationToken =
      p.requestPath .listRunners ++ "/registration-token" := rfl
  unfold PoolConfig.sentPath
  rw [hpath]
  have hold : "per_page=".toList = "per_page".toList ++ ['='] := by decide
  split_ifs
  · exact replaceText_append hold (by decide)
  · rfl

/-- **Where a registration token is asked for**: below the pool's list of runners. -/
theorem requestUrl_registrationToken (p : PoolConfig) :
    p.requestUrl .registrationToken = p.requestUrl .listRunners ++ "/registration-token" := by
  unfold PoolConfig.requestUrl
  rw [sentPath_registrationToken, String.append_assoc]

end RunnerSwarm
