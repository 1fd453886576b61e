import RunnerSwarm.Lib.Knowledge
import RunnerSwarm.Lib.Run
import RunnerSwarm.Server.App

/-!
# What a client with the read-only token can do

A client that was given the read-only token sends requests and presents as a bearer token, in the
query or as a cookie whatever it has been given or has seen in a response: any part of a header, a
cookie or a body. Between its requests everybody else may change the world and the guard.

The dashboard answers a visit with `?token=` by a cookie that holds the control token, whatever
scope the visitor has, so the two scopes are not apart.

* `readOnly_step`, `readOnly_run`: as long as no visit gets that cookie and the control token is not
  part of what the server shows anyway, no control endpoint runs for the client and the world is
  what the others make of it;
* `known_token_opens`, `cookie_opens`: a client that knows the control token runs any control
  endpoint, and after a visit that got the cookie it does know it.
-/

namespace RunnerSwarm

/-- The values of the headers and cookies, and the body. -/
def Response.texts (response : Response) : List (List Char) :=
  (response.headers.map fun h => h.2.toList) ++ (response.cookies.map fun c => c.2.toList) ++
    [response.body.toList]

/-- The client's view of the server, and the control endpoints that ran for it. -/
structure Session where
  guard : TokenGuard
  world : World
  seen : List (List Char)
  ran : List ControlRoute

inductive SessionAction
  | request (r : Request) (clock : Clock) (docker : DockerAnswers)
  /-- The scaler, other clients and the outside world. -/
  | others (world : World) (guard : TokenGuard)

namespace Deps

variable (d : Deps)

/-- What the client is given; an empty value is as good as none. -/
def given : List (List Char) := [[], d.readonlyToken.toList]

/-- What a request leaves for the client. -/
def answered (s : Session) (served : Served) : Session where
  guard := served.guard
  world := served.world
  seen := s.seen ++ served.response.texts
  ran := s.ran ++ served.ran.toList

/-- One request of the client, or a change made by others. -/
def sessionStep (s : Session) : SessionAction → Option Session
  | .request r clock docker =>
      if ∀ value ∈ r.credentials, Known d.given s.seen value.toList then
        some (answered s (d.serve docker clock r s.guard s.world))
      else none
  | .others world guard => some { s with world := world, guard := guard }

/-- The world as the others left it. -/
def worldAfter (world : World) : List SessionAction → World
  | [] => world
  | .request _ _ _ :: l => worldAfter world l
  | .others world _ :: l => worldAfter world l

/-- No control endpoint ran, and the world is what the others made of it. -/
def Untouched (s t : Session) (l : List SessionAction) : Prop :=
  t.ran = s.ran ∧ t.world = worldAfter s.world l

/-- The request is no visit that gets the cookie, and the control token is not part of what the
server shows. -/
def KeepsToken (s : Session) : SessionAction → Prop
  | .request r clock docker =>
      ¬ d.HandsOutCookie clock r s.guard ∧
        Hidden d.token.toList (d.shown docker clock r s.guard s.world).texts
  | .others _ _ => True

instance (s : Session) (a : SessionAction) : Decidable (d.KeepsToken s a) := by
  cases a with
  | request r clock docker =>
    exact inferInstanceAs (Decidable (¬ d.HandsOutCookie clock r s.guard ∧
      Hidden d.token.toList (d.shown docker clock r s.guard s.world).texts))
  | others world guard => exact inferInstanceAs (Decidable True)

/-- A server with two tokens and nothing to show. -/
def sample : Deps where
  toSite := plainSite []
  token := "s3cret"
  readonlyToken := "view"

def sampleSession : Session := ⟨⟨10, 300, Table.empty⟩, World.empty, [], []⟩

/-! ### Runs -/

theorem worldAfter_append (world : World) (l : List SessionAction) (a : SessionAction) :
    worldAfter world (l ++ [a]) = match a with
      | .request _ _ _ => worldAfter world l
      | .others w _ => w := by
  induction l generalizing world with
  | nil => cases a <;> rfl
  | cons b l ih => cases b <;> exact ih _

variable {d} {s t : Session}

/-- A client that does not know the control token gets no write access. -/
theorem authorize_of_known {g : TokenGuard} {clock : Clock} {r : Request} (hT : d.token ≠ "")
    (hne : d.token ≠ d.readonlyToken) (hseen : Hidden d.token.toList s.seen)
    (hknown : ∀ value ∈ r.credentials, Known d.given s.seen value.toList) :
    (d.authorize g clock r true).1 ≠ .ok none := by
  intro hauth
  obtain ⟨scope, hscope, hwrite⟩ := authorize_eq_none hauth
  obtain rfl := hwrite rfl
  have hsupplied := d.scope_eq_write hT hscope
  have hmem : r.suppliedToken ∈ r.credentials :=
    r.suppliedToken_mem fun hempty => hT (hsupplied ▸ hempty)
  have hgiven : d.token.toList ∉ d.given := by
    intro hmem
    rcases List.mem_cons.1 hmem with hempty | hmem
    · exact hT (String.toList_injective hempty)
    · exact hne (String.toList_injective (List.mem_singleton.1 hmem))
  exact (hknown _ hmem).ne_of_hidden hgiven hseen (congrArg String.toList hsupplied)

/-- What holds along the runs that keep the token. -/
structure ReadOnly (d : Deps) (s₀ : Session) (past : List SessionAction) (s : Session) : Prop where
  hidden : Hidden d.token.toList s.seen
  untouched : Untouched s₀ s past

theorem readOnly_step {s₀ : Session} {past : List SessionAction} {a : SessionAction}
    (hT : d.token ≠ "") (hne : d.token ≠ d.readonlyToken) (hs : ReadOnly d s₀ past s)
    (hkeeps : d.KeepsToken s a) (h : d.sessionStep s a = some t) :
    ReadOnly d s₀ (past ++ [a]) t := by
  cases a with
  | request r clock docker =>
    unfold sessionStep at h
    dsimp only at h
    split_ifs at h with hknown
    obtain rfl := Option.some.inj h
    have hdenied : (d.authorize s.guard clock r true).1 ≠ .ok none :=
      authorize_of_known hT hne hs.hidden hknown
    obtain ⟨hran, hworld, hresponse⟩ := serve_of_unauthorized docker s.world hdenied hkeeps.1
    unfold answered
    rw [hran, hworld, hresponse]
    refine ⟨hs.hidden.append hkeeps.2, ?_, ?_⟩
    · dsimp only
      rw [Option.toList_none, List.append_nil]
      exact hs.untouched.1
    · rw [worldAfter_append]
      exact hs.untouched.2
  | others world guard =>
    obtain rfl := Option.some.inj h
    refine ⟨hs.hidden, hs.untouched.1, ?_⟩
    rw [worldAfter_append]

/-- **The read-only token changes nothing** along a run in which no visit gets the cookie and the
control token is not shown. -/
theorem readOnly_run {l : List SessionAction} (hT : d.token ≠ "")
    (hne : d.token ≠ d.readonlyToken) (hseen : s.seen = [])
    (hkeeps : Along d.sessionStep d.KeepsToken s l) (h : run d.sessionStep s l = some t) :
    Untouched s t l := by
  have hstart : ReadOnly d s [] s := ⟨by rw [hseen]; exact hidden_nil, rfl, rfl⟩
  have hend := run_history (I := ReadOnly d s)
    (fun past u a v hu hok hstep => readOnly_step hT hne hu hok hstep) hstart hkeeps h
  exact hend.untouched

/-- The read-only token reads the events, and is refused when it pauses. -/
def readAndPause : List SessionAction :=
  [.request { method := .get, path := ["api", "events"], authorization := some "Bearer view" }
      ⟨0, 0, 0⟩ {},
    .request { method := .post, path := ["api", "pause"], authorization := some "Bearer view" }
      ⟨1, 1, 1⟩ {}]

theorem readOnly_run_refused :
    ∃ t, run sample.sessionStep sampleSession readAndPause = some t ∧
      Untouched sampleSession t readAndPause :=
  ⟨_, rfl, readOnly_run (d := sample) (by decide) (by decide) rfl (by decide +kernel) rfl⟩

/-- A visit of the dashboard with the read-only token, and a pause with the cookie. -/
def visitAndPause : List SessionAction :=
  [.request { method := .get, path := [], args := [("token", "view")] } ⟨0, 0, 0⟩ {},
    .request { method := .post, path := ["api", "pause"], cookie := some "s3cret" } ⟨1, 1, 1⟩ {}]

/-- **The scopes are not apart**: the read-only token gets the control token from the dashboard. -/
theorem not_untouched :
    ¬ ∀ (d : Deps) (s t : Session) (l : List SessionAction), d.token ≠ "" → d.readonlyToken ≠ "" →
      d.token ≠ d.readonlyToken → s.seen = [] → run d.sessionStep s l = some t →
      Untouched s t l := by
  intro h
  have hrun : ∃ t, run sample.sessionStep sampleSession visitAndPause = some t ∧
      t.ran = [.globalPause] := ⟨_, rfl, rfl⟩
  obtain ⟨t, ht, hran⟩ := hrun
  have huntouched := h sample sampleSession t visitAndPause (by decide) (by decide) (by decide) rfl ht
  have hnone : t.ran = [] := huntouched.1
  rw [hran] at hnone
  cases hnone

/-! ### What the cookie is worth -/

theorem mem_texts_cookie {response : Response} {cookie : String × String}
    (h : cookie ∈ response.cookies) : cookie.2.toList ∈ response.texts := by
  unfold Response.texts
  have hmem : cookie.2.toList ∈ response.cookies.map fun c => c.2.toList :=
    List.mem_map.2 ⟨cookie, h, rfl⟩
  simp [hmem]

/-- **A visit that gets the cookie** tells the client the control token. -/
theorem known_of_cookie {r : Request} {clock : Clock} {docker : DockerAnswers} (hT : d.token ≠ "")
    (hcookie : d.HandsOutCookie clock r s.guard)
    (h : d.sessionStep s (.request r clock docker) = some t) :
    Known d.given t.seen d.token.toList := by
  obtain ⟨route, hroute, hasks, hauth⟩ := hcookie
  obtain ⟨rfl, -⟩ := asksCookie_iff.1 hasks
  unfold sessionStep at h
  dsimp only at h
  split_ifs at h
  obtain rfl := Option.some.inj h
  refine known_of_mem (List.mem_append_right _ ?_)
  unfold serve
  rw [hroute]
  dsimp only
  rcases hserved : d.authorize s.guard clock r false with ⟨granted, g⟩
  rw [hserved] at hauth
  obtain rfl : granted = .ok none := hauth
  dsimp only
  rw [readView_dashboard hT hasks]
  have hmem : (authCookie, d.token) ∈ (d.send r ⟨200, [("Content-Type", "text/html")],
      [(authCookie, d.token)], d.dashboardHtml⟩).cookies := List.mem_singleton_self _
  exact mem_texts_cookie hmem

end Deps

/-- The request with nothing but a bearer token to present. -/
def Request.present (r : Request) (token : String) : Request :=
  { r with authorization := some ("Bearer " ++ token), args := [], cookie := none }

theorem Request.bearer_present (r : Request) (token : String) :
    (r.present token).bearer = some token := by
  unfold bearer present
  have hprefix : startsWith ("Bearer " ++ token) "Bearer " = true := by
    unfold startsWith
    rw [String.toList_append, List.isPrefixOf_iff_prefix]
    exact List.prefix_append _ _
  dsimp only [Option.getD_some]
  rw [if_pos hprefix, String.toList_append]
  have hdrop : ("Bearer ".toList ++ token.toList).drop "Bearer ".length = token.toList :=
    List.drop_left
  rw [hdrop, String.ofList_toList]

namespace Deps

variable {d : Deps} {s t : Session}

/-- **A client that knows the control token** runs any control endpoint, once it is not locked
out. -/
theorem known_token_opens {r : Request} {route : ControlRoute} {docker : DockerAnswers}
    (hT : d.token ≠ "") (hascii : isAscii d.token = true)
    (hknown : Known d.given s.seen d.token.toList)
    (hroute : routeOf r.method r.path = .control route) (hmax : 0 < s.guard.maxFailures) :
    ∃ clock t, d.sessionStep s (.request (r.present d.token) clock docker) = some t ∧
      route ∈ t.ran := by
  obtain ⟨now, hnow⟩ : ∃ now : ℚ, ∀ entry, s.guard.failures.get r.client = some entry →
      entry.2 + s.guard.lockoutSeconds ≤ now := by
    cases hentry : s.guard.failures.get r.client with
    | none => exact ⟨0, fun _ h => by cases h⟩
    | some entry =>
      refine ⟨entry.2 + s.guard.lockoutSeconds, fun other h => ?_⟩
      obtain rfl := Option.some.inj h
      exact le_refl _
  have hcredentials : (r.present d.token).credentials = [d.token] := by
    unfold Request.credentials
    rw [r.bearer_present]
    rfl
  have hsupplied : (r.present d.token).suppliedToken = d.token := by
    unfold Request.suppliedToken
    rw [r.bearer_present]
  have hauth : (d.authorize s.guard ⟨now, now, now⟩ (r.present d.token) true).1 = .ok none :=
    authorize_write_token hT hascii hsupplied (s.guard.lockedUntil_eq_zero _ now hmax hnow)
  have hpresents : ∀ value ∈ (r.present d.token).credentials,
      Known d.given s.seen value.toList := by
    rw [hcredentials]
    intro value hvalue
    rwa [List.mem_singleton.1 hvalue]
  have hpresent : routeOf (r.present d.token).method (r.present d.token).path = .control route :=
    hroute
  have hran := serve_control docker s.world hpresent hauth
  refine ⟨⟨now, now, now⟩, _, if_pos hpresents, ?_⟩
  unfold answered
  rw [hran]
  exact List.mem_append_right _ (List.mem_singleton_self _)

end Deps

end RunnerSwarm
