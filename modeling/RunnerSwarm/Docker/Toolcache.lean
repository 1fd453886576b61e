import Mathlib.Logic.Function.Basic
import RunnerSwarm.Lib.Run

/-!
# Warming the toolcache

The runners of a host share `/opt/hostedtoolcache`. Each of them, when it boots, copies the versions
of its image that have no `x64.complete` there, and copies that file last, so that the other runners
and the jobs take the version for installed. Nothing keeps two runners from copying the same version
at a time: a file that is copied again is cut to nothing first. Any runner may be stopped at any
moment, and `cp` goes on with the next file when one cannot be written, the marker included.

* `complete_whole`: when no two runners copy a version at a time and no write fails, a version with
  a marker is there as a whole, wherever runners are stopped;
* `complete_settles`: when no write fails and no runner is stopped with a file open, every file of a
  version with a marker is whole or being written, however the runners overlap;
* `complete_frozen`: what is wrong with a version that has its marker, and that no runner is copying
  any more, is never repaired.
-/

namespace RunnerSwarm

/-- How a file stands in the toolcache: `writing r` when `r` has opened it last. -/
inductive CachedFile (κ : Type*)
  | missing
  | writing (r : κ)
  | torn
  | whole
  deriving DecidableEq

/-- Where a runner is in the loop over the versions of its image. `failed` is the status of `cp`. -/
inductive WarmPhase (V F : Type*)
  | absent
  | looking (rest : List V)
  | copying (v : V) (todo : List F) (failed : Bool) (rest : List V)
  | writing (v : V) (f : F) (todo : List F) (failed : Bool) (rest : List V)
  | warm

/-- The runner is copying the version. -/
def WarmPhase.Copies {V F : Type*} (v : V) : WarmPhase V F → Prop
  | .copying w _ _ _ => w = v
  | .writing w _ _ _ _ => w = v
  | _ => False

inductive WarmAction (κ : Type*)
  | boot (r : κ)
  | look (r : κ)
  | open (r : κ)
  | close (r : κ)
  /-- The file cannot be opened. -/
  | refuse (r : κ)
  /-- The file cannot be written to its end. -/
  | fail (r : κ)
  | mark (r : κ)
  | stop (r : κ)

structure Toolcache (κ V F : Type*) where
  file : V × F → CachedFile κ
  complete : V → Bool
  phase : κ → WarmPhase V F

namespace Toolcache

variable {κ V F : Type*} [DecidableEq κ] [DecidableEq V] [DecidableEq F]

def init : Toolcache κ V F := ⟨fun _ => .missing, fun _ => false, fun _ => .absent⟩

def goto (s : Toolcache κ V F) (r : κ) (phase : WarmPhase V F) : Toolcache κ V F :=
  { s with phase := Function.update s.phase r phase }

/-- The files when a runner lets go of one. If another runner has opened it since, it is for that
one to leave it whole or torn. -/
def leftFile (s : Toolcache κ V F) (r : κ) (v : V) (f : F) (left : CachedFile κ) :
    V × F → CachedFile κ :=
  fun p => if p = (v, f) ∧ s.file (v, f) = .writing r then left else s.file p

/-- The script, for runners with the versions of their images. -/
def step (versions : κ → List V) (files : V → List F) (s : Toolcache κ V F) :
    WarmAction κ → Option (Toolcache κ V F)
  | .boot r =>
      match s.phase r with
      | .absent => some (s.goto r (.looking (versions r)))
      | _ => none
  | .look r =>
      match s.phase r with
      | .looking [] => some (s.goto r .warm)
      | .looking (v :: rest) =>
          if s.complete v then some (s.goto r (.looking rest))
          else some (s.goto r (.copying v (files v) false rest))
      | _ => none
  | .open r =>
      match s.phase r with
      | .copying v (f :: todo) failed rest =>
          some (({ s with file := Function.update s.file (v, f) (.writing r) }).goto r
            (.writing v f todo failed rest))
      | _ => none
  | .close r =>
      match s.phase r with
      | .writing v f todo failed rest =>
          some (({ s with file := s.leftFile r v f .whole }).goto r (.copying v todo failed rest))
      | _ => none
  | .refuse r =>
      match s.phase r with
      | .copying v (_ :: todo) _ rest => some (s.goto r (.copying v todo true rest))
      | _ => none
  | .fail r =>
      match s.phase r with
      | .writing v f todo _ rest =>
          some (({ s with file := s.leftFile r v f .torn }).goto r (.copying v todo true rest))
      | _ => none
  | .mark r =>
      match s.phase r with
      | .copying v [] failed rest =>
          some (({ s with complete := Function.update s.complete v true }).goto r
            (if failed then .absent else .looking rest))
      | _ => none
  | .stop r =>
      match s.phase r with
      | .writing v f _ _ _ => some (({ s with file := s.leftFile r v f .torn }).goto r .absent)
      | _ => some (s.goto r .absent)

section Steps

variable {versions : κ → List V} {files : V → List F} {s t : Toolcache κ V F} {r other : κ}
  {v w : V} {f g : F} {a : WarmAction κ}

/-- The state after a step of a runner. -/
def moved (s : Toolcache κ V F) (r : κ) (file : V × F → CachedFile κ) (complete : V → Bool)
    (phase : WarmPhase V F) : Toolcache κ V F :=
  ⟨file, complete, Function.update s.phase r phase⟩

/-- **What a step can do.** -/
inductive Moves (versions : κ → List V) (files : V → List F) (s : Toolcache κ V F) (r : κ) :
    WarmAction κ → Toolcache κ V F → Prop
  | boot (h : s.phase r = .absent) :
      Moves versions files s r (.boot r) (s.moved r s.file s.complete (.looking (versions r)))
  | done (h : s.phase r = .looking []) :
      Moves versions files s r (.look r) (s.moved r s.file s.complete .warm)
  | skip (v : V) (rest : List V) (h : s.phase r = .looking (v :: rest))
      (marked : s.complete v = true) :
      Moves versions files s r (.look r) (s.moved r s.file s.complete (.looking rest))
  | begins (v : V) (rest : List V) (h : s.phase r = .looking (v :: rest))
      (unmarked : s.complete v = false) :
      Moves versions files s r (.look r)
        (s.moved r s.file s.complete (.copying v (files v) false rest))
  | opens (v : V) (f : F) (todo : List F) (failed : Bool) (rest : List V)
      (h : s.phase r = .copying v (f :: todo) failed rest) :
      Moves versions files s r (.open r)
        (s.moved r (Function.update s.file (v, f) (.writing r)) s.complete
          (.writing v f todo failed rest))
  | closes (v : V) (f : F) (todo : List F) (failed : Bool) (rest : List V)
      (h : s.phase r = .writing v f todo failed rest) :
      Moves versions files s r (.close r)
        (s.moved r (s.leftFile r v f .whole) s.complete (.copying v todo failed rest))
  | refused (v : V) (f : F) (todo : List F) (failed : Bool) (rest : List V)
      (h : s.phase r = .copying v (f :: todo) failed rest) :
      Moves versions files s r (.refuse r)
        (s.moved r s.file s.complete (.copying v todo true rest))
  | fails (v : V) (f : F) (todo : List F) (failed : Bool) (rest : List V)
      (h : s.phase r = .writing v f todo failed rest) :
      Moves versions files s r (.fail r)
        (s.moved r (s.leftFile r v f .torn) s.complete (.copying v todo true rest))
  | marks (v : V) (failed : Bool) (rest : List V) (h : s.phase r = .copying v [] failed rest) :
      Moves versions files s r (.mark r)
        (s.moved r s.file (Function.update s.complete v true)
          (if failed then .absent else .looking rest))
  | stopsWriting (v : V) (f : F) (todo : List F) (failed : Bool) (rest : List V)
      (h : s.phase r = .writing v f todo failed rest) :
      Moves versions files s r (.stop r)
        (s.moved r (s.leftFile r v f .torn) s.complete .absent)
  | stops (h : ∀ v f todo failed rest, s.phase r ≠ .writing v f todo failed rest) :
      Moves versions files s r (.stop r) (s.moved r s.file s.complete .absent)

theorem moves_of_step (hstep : step versions files s a = some t) :
    ∃ r, Moves versions files s r a t := by
  cases a with
  | boot r =>
    simp only [step] at hstep
    split at hstep
    case h_2 => cases hstep
    next h =>
    obtain rfl := Option.some.inj hstep
    exact ⟨r, .boot h⟩
  | look r =>
    simp only [step] at hstep
    split at hstep
    case h_3 => cases hstep
    · next h =>
      obtain rfl := Option.some.inj hstep
      exact ⟨r, .done h⟩
    · next v rest h =>
      split_ifs at hstep with hmarked
      · obtain rfl := Option.some.inj hstep
        exact ⟨r, .skip v rest h hmarked⟩
      · obtain rfl := Option.some.inj hstep
        exact ⟨r, .begins v rest h (Bool.eq_false_iff.2 hmarked)⟩
  | «open» r =>
    simp only [step] at hstep
    split at hstep
    case h_2 => cases hstep
    next v f todo failed rest h =>
    obtain rfl := Option.some.inj hstep
    exact ⟨r, .opens v f todo failed rest h⟩
  | close r =>
    simp only [step] at hstep
    split at hstep
    case h_2 => cases hstep
    next v f todo failed rest h =>
    obtain rfl := Option.some.inj hstep
    exact ⟨r, .closes v f todo failed rest h⟩
  | refuse r =>
    simp only [step] at hstep
    split at hstep
    case h_2 => cases hstep
    next v f todo failed rest h =>
    obtain rfl := Option.some.inj hstep
    exact ⟨r, .refused v f todo failed rest h⟩
  | fail r =>
    simp only [step] at hstep
    split at hstep
    case h_2 => cases hstep
    next v f todo failed rest h =>
    obtain rfl := Option.some.inj hstep
    exact ⟨r, .fails v f todo failed rest h⟩
  | mark r =>
    simp only [step] at hstep
    split at hstep
    case h_2 => cases hstep
    next v failed rest h =>
    obtain rfl := Option.some.inj hstep
    exact ⟨r, .marks v failed rest h⟩
  | stop r =>
    simp only [step] at hstep
    split at hstep
    · next v f todo failed rest h =>
      obtain rfl := Option.some.inj hstep
      exact ⟨r, .stopsWriting v f todo failed rest h⟩
    · next h =>
      obtain rfl := Option.some.inj hstep
      exact ⟨r, .stops h⟩

/-! ### One runner at a time -/

/-- No write fails, and a runner begins with a version only while no other copies it. -/
def OneAtATime (s : Toolcache κ V F) : WarmAction κ → Prop
  | .look r => ∀ v rest, s.phase r = .looking (v :: rest) → s.complete v = false →
      ∀ other, ¬ (s.phase other).Copies v
  | .refuse _ => False
  | .fail _ => False
  | _ => True

/-- What a runner that is copying has copied is whole. -/
def HasCopied (files : V → List F) (file : V × F → CachedFile κ) (r : κ) : WarmPhase V F → Prop
  | .copying v todo _ _ => ∀ f ∈ files v, f ∉ todo → file (v, f) = .whole
  | .writing v f todo _ _ => file (v, f) = .writing r ∧
      ∀ g ∈ files v, g ∉ todo → g ≠ f → file (v, g) = .whole
  | _ => True

/-- Each version has at most one runner copying it, and none once it is marked. -/
structure Sole (files : V → List F) (s : Toolcache κ V F) : Prop where
  alone : ∀ r other v, (s.phase r).Copies v → (s.phase other).Copies v → r = other
  copied : ∀ r, HasCopied files s.file r (s.phase r)
  marked : ∀ v, s.complete v = true →
    (∀ f ∈ files v, s.file (v, f) = .whole) ∧ ∀ r, ¬ (s.phase r).Copies v

omit [DecidableEq κ] [DecidableEq V] [DecidableEq F] in
theorem sole_init (files : V → List F) : Sole files (init : Toolcache κ V F) where
  alone _ _ _ h := h.elim
  copied _ := trivial
  marked _ h := by cases h

omit [DecidableEq κ] [DecidableEq V] [DecidableEq F] in
/-- The phase of another runner is about a version whose files have not changed. -/
theorem HasCopied.congr {file file' : V × F → CachedFile κ} {phase : WarmPhase V F}
    (h : HasCopied files file r phase)
    (hfile : ∀ v f, phase.Copies v → file' (v, f) = file (v, f)) :
    HasCopied files file' r phase := by
  cases phase with
  | copying v todo failed rest =>
    intro f hf hdone
    rw [hfile v f rfl]
    exact h f hf hdone
  | writing v f todo failed rest =>
    refine ⟨(hfile v f rfl).trans h.1, fun g hg hdone hne => ?_⟩
    rw [hfile v g rfl]
    exact h.2 g hg hdone hne
  | _ => trivial

omit [DecidableEq V] [DecidableEq F] in
/-- The state is good after a step of a runner that touches only the version it is copying, begins
only with a version that is free, and marks only what is whole. -/
theorem Sole.moved (h : Sole files s) {file : V × F → CachedFile κ} {complete : V → Bool}
    {phase : WarmPhase V F}
    (hfile : ∀ v f, ¬ (s.phase r).Copies v → file (v, f) = s.file (v, f))
    (hcopied : HasCopied files file r phase)
    (hbegins : ∀ v, phase.Copies v → (s.phase r).Copies v ∨
      s.complete v = false ∧ ∀ other, ¬ (s.phase other).Copies v)
    (hmarks : ∀ v, complete v = true → s.complete v = true ∨
      (∀ f ∈ files v, file (v, f) = .whole) ∧ (s.phase r).Copies v ∧ ¬ phase.Copies v) :
    Sole files (s.moved r file complete phase) where
  alone x y v hx hy := by
    have hsame : ∀ z, z ≠ r → phase.Copies v → (s.phase z).Copies v → z = r := by
      intro z hz hnew hold
      rcases hbegins v hnew with hwas | ⟨-, hfree⟩
      · exact h.alone z r v hold hwas
      · exact absurd hold (hfree z)
    simp only [Toolcache.moved, Function.update_apply] at hx hy
    split_ifs at hx hy with hxr hyr hyr
    · rw [hxr, hyr]
    · rw [hxr]
      exact (hsame y hyr hx hy).symm
    · rw [hyr]
      exact hsame x hxr hy hx
    · exact h.alone x y v hx hy
  copied other := by
    simp only [Toolcache.moved, Function.update_apply]
    split_ifs with hr
    · rw [hr]
      exact hcopied
    · refine (h.copied other).congr fun v f hcopies => hfile v f fun hown => ?_
      exact hr (h.alone other r v hcopies hown)
  marked v hv := by
    have hothers : (∀ other, other ≠ r → ¬ (s.phase other).Copies v) → ¬ phase.Copies v →
        ∀ other, ¬ ((s.moved r file complete phase).phase other).Copies v := by
      intro hold hnew other
      simp only [Toolcache.moved, Function.update_apply]
      split_ifs with hr
      · exact hnew
      · exact hold other hr
    rcases hmarks v hv with hwas | ⟨hwhole, hown, hleft⟩
    · obtain ⟨hwhole, hfree⟩ := h.marked v hwas
      refine ⟨fun f hf => (hfile v f (hfree r)).trans (hwhole f hf),
        hothers (fun other _ => hfree other) fun hnew => ?_⟩
      rcases hbegins v hnew with hcopies | ⟨hunmarked, -⟩
      · exact hfree r hcopies
      · rw [hwas] at hunmarked
        cases hunmarked
    · exact ⟨hwhole, hothers (fun other hr hcopies => hr (h.alone other r v hcopies hown)) hleft⟩

theorem Sole.step (h : Sole files s) (hok : OneAtATime s a)
    (hstep : step versions files s a = some t) : Sole files t := by
  obtain ⟨r, hmoves⟩ := moves_of_step hstep
  have hold := h.copied r
  cases hmoves with
  | boot hphase => exact h.moved (fun _ _ _ => rfl) trivial (fun _ h => h.elim) fun _ => .inl
  | done hphase => exact h.moved (fun _ _ _ => rfl) trivial (fun _ h => h.elim) fun _ => .inl
  | skip v rest hphase hmarked =>
    exact h.moved (fun _ _ _ => rfl) trivial (fun _ h => h.elim) fun _ => .inl
  | begins v rest hphase hunmarked =>
    refine h.moved (fun _ _ _ => rfl) (fun f hf hnot => absurd hf hnot) (fun w hw => ?_)
      fun _ => .inl
    obtain rfl : v = w := hw
    exact .inr ⟨hunmarked, hok v rest hphase hunmarked⟩
  | opens v f todo failed rest hphase =>
    rw [hphase] at hold
    refine h.moved (fun w g hw => ?_) ⟨Function.update_self .., fun g hg hnot hne => ?_⟩
      (fun w hw => .inl (by rw [hphase]; exact hw)) fun _ => .inl
    · refine Function.update_of_ne (fun heq => hw ?_) ..
      rw [hphase]
      exact (Prod.mk.inj heq).1.symm
    · rw [Function.update_of_ne fun heq => hne (Prod.mk.inj heq).2]
      exact hold g hg fun hmem => (List.mem_cons.1 hmem).elim hne hnot
  | closes v f todo failed rest hphase =>
    rw [hphase] at hold
    refine h.moved (fun w g hw => if_neg fun heq => hw ?_) (fun g hg hnot => ?_)
      (fun w hw => .inl (by rw [hphase]; exact hw)) fun _ => .inl
    · rw [hphase]
      exact (Prod.mk.inj heq.1).1.symm
    · by_cases hgf : g = f
      · exact if_pos ⟨congrArg _ hgf, hold.1⟩
      · exact (if_neg fun heq => hgf (Prod.mk.inj heq.1).2).trans (hold.2 g hg hnot hgf)
  | refused v f todo failed rest hphase => exact hok.elim
  | fails v f todo failed rest hphase => exact hok.elim
  | marks v failed rest hphase =>
    rw [hphase] at hold
    have hleft : ∀ w, ¬ (if failed then WarmPhase.absent else
        WarmPhase.looking (F := F) rest).Copies w := by
      intro w
      split_ifs <;> exact id
    refine h.moved (fun _ _ _ => rfl) (by split_ifs <;> trivial) (fun w hw => (hleft w hw).elim)
      fun w hw => ?_
    rw [Function.update_apply] at hw
    split_ifs at hw with hwv
    · subst hwv
      exact .inr ⟨fun f hf => hold f hf List.not_mem_nil, by rw [hphase]; exact rfl, hleft w⟩
    · exact .inl hw
  | stopsWriting v f todo failed rest hphase =>
    refine h.moved (fun w g hw => if_neg fun heq => hw ?_) trivial (fun _ h => h.elim) fun _ => .inl
    rw [hphase]
    exact (Prod.mk.inj heq.1).1.symm
  | stops hphase => exact h.moved (fun _ _ _ => rfl) trivial (fun _ h => h.elim) fun _ => .inl

/-- **A marked version is whole**, when runners do not overlap. In every run in which no write fails
and each runner begins with a version only while no other is copying it, with runners stopped at any
moments, all files of a version that has its marker are there as a whole. -/
theorem complete_whole {actions : List (WarmAction κ)}
    (hs : run (step versions files) init actions = some s)
    (hok : Along (step versions files) OneAtATime init actions) (hv : s.complete v = true) :
    ∀ f ∈ files v, s.file (v, f) = .whole :=
  ((run_invariant (fun _ _ _ h hok hstep => h.step hok hstep) (sole_init files) hok hs).marked v
    hv).1

/-! ### Runners that overlap -/

/-- No write fails, and no runner is stopped with a file open. -/
def Calm (s : Toolcache κ V F) : WarmAction κ → Prop
  | .refuse _ => False
  | .fail _ => False
  | .stop r => ∀ v f todo failed rest, s.phase r ≠ .writing v f todo failed rest
  | _ => True

/-- What a runner has come past is there. -/
def HasBegun (files : V → List F) (file : V × F → CachedFile κ) : WarmPhase V F → Prop
  | .copying v todo _ _ => ∀ f ∈ files v, f ∉ todo → file (v, f) ≠ .missing
  | .writing v _ todo _ _ => ∀ f ∈ files v, f ∉ todo → file (v, f) ≠ .missing
  | _ => True

/-- Who has opened a file last still has it open, and what has been opened is there. -/
structure Settled (files : V → List F) (s : Toolcache κ V F) : Prop where
  opened : ∀ v f r, s.file (v, f) = .writing r →
    ∃ todo failed rest, s.phase r = .writing v f todo failed rest
  untorn : ∀ p, s.file p ≠ .torn
  begun : ∀ r, HasBegun files s.file (s.phase r)
  marked : ∀ v, s.complete v = true → ∀ f ∈ files v, s.file (v, f) ≠ .missing

omit [DecidableEq κ] [DecidableEq V] [DecidableEq F] in
theorem settled_init (files : V → List F) : Settled files (init : Toolcache κ V F) where
  opened _ _ _ h := by cases h
  untorn _ h := by cases h
  begun _ := trivial
  marked _ h := by cases h

omit [DecidableEq κ] [DecidableEq V] [DecidableEq F] in
theorem HasBegun.mono {file file' : V × F → CachedFile κ} {phase : WarmPhase V F}
    (h : HasBegun files file phase) (hkeeps : ∀ p, file' p = .missing → file p = .missing) :
    HasBegun files file' phase := by
  cases phase with
  | copying v todo failed rest => exact fun f hf hnot hgone => h f hf hnot (hkeeps _ hgone)
  | writing v f todo failed rest => exact fun g hg hnot hgone => h g hg hnot (hkeeps _ hgone)
  | _ => trivial

omit [DecidableEq V] [DecidableEq F] in
theorem Settled.moved (h : Settled files s) {file : V × F → CachedFile κ} {complete : V → Bool}
    {phase : WarmPhase V F} (hkeeps : ∀ p, file p = .missing → s.file p = .missing)
    (huntorn : ∀ p, file p ≠ .torn)
    (hopened : ∀ v f x, file (v, f) = .writing x →
      (x = r ∧ ∃ todo failed rest, phase = .writing v f todo failed rest) ∨
        x ≠ r ∧ s.file (v, f) = .writing x)
    (hbegun : HasBegun files file phase)
    (hmarks : ∀ v, complete v = true → s.complete v = true ∨
      ∀ f ∈ files v, file (v, f) ≠ .missing) :
    Settled files (s.moved r file complete phase) where
  opened v f x hx := by
    simp only [Toolcache.moved, Function.update_apply]
    rcases hopened v f x hx with ⟨rfl, hphase⟩ | ⟨hne, hold⟩
    · rw [if_pos rfl]
      exact hphase
    · rw [if_neg hne]
      exact h.opened v f x hold
  untorn := huntorn
  begun other := by
    simp only [Toolcache.moved, Function.update_apply]
    split_ifs
    · exact hbegun
    · exact (h.begun other).mono hkeeps
  marked v hv f hf hgone := by
    rcases hmarks v hv with hwas | hthere
    · exact h.marked v hwas f hf (hkeeps _ hgone)
    · exact hthere f hf hgone

omit [DecidableEq κ] [DecidableEq V] [DecidableEq F] in
/-- A runner that has no file open has opened none last. -/
theorem Settled.others (h : Settled files s)
    (hphase : ∀ v f todo failed rest, s.phase r ≠ .writing v f todo failed rest) (v : V) (f : F)
    (x : κ) (hx : s.file (v, f) = .writing x) : x ≠ r := by
  rintro rfl
  obtain ⟨todo, failed, rest, hwriting⟩ := h.opened v f x hx
  exact hphase v f todo failed rest hwriting

theorem Settled.step (h : Settled files s) (hok : Calm s a)
    (hstep : step versions files s a = some t) : Settled files t := by
  obtain ⟨r, hmoves⟩ := moves_of_step hstep
  have hold := h.begun r
  -- a step that leaves the files alone, by a runner that has none open
  have hquiet : ∀ {phase : WarmPhase V F},
      (∀ v f todo failed rest, s.phase r ≠ .writing v f todo failed rest) →
      HasBegun files s.file phase → Settled files (s.moved r s.file s.complete phase) :=
    fun hphase hbegun => h.moved (fun _ => id) h.untorn
      (fun v f x hx => .inr ⟨h.others hphase v f x hx, hx⟩) hbegun fun _ => .inl
  cases hmoves with
  | boot hphase => exact hquiet (fun _ _ _ _ _ => by rw [hphase]; exact nofun) trivial
  | done hphase => exact hquiet (fun _ _ _ _ _ => by rw [hphase]; exact nofun) trivial
  | skip v rest hphase hmarked =>
    exact hquiet (fun _ _ _ _ _ => by rw [hphase]; exact nofun) trivial
  | begins v rest hphase hunmarked =>
    exact hquiet (fun _ _ _ _ _ => by rw [hphase]; exact nofun)
      fun f hf hnot => absurd hf hnot
  | opens v f todo failed rest hphase =>
    rw [hphase] at hold
    refine h.moved (fun p hp => ?_) (fun p hp => ?_) (fun w g x hx => ?_) (fun g hg hnot hgone => ?_)
      fun _ => .inl
    · rw [Function.update_apply] at hp
      split_ifs at hp
      exact hp
    · rw [Function.update_apply] at hp
      split_ifs at hp
      exact h.untorn p hp
    · rw [Function.update_apply] at hx
      split_ifs at hx with heq
      · obtain ⟨rfl, rfl⟩ := Prod.mk.inj heq
        obtain rfl := CachedFile.writing.inj hx
        exact .inl ⟨rfl, todo, failed, rest, rfl⟩
      · exact .inr ⟨h.others (fun _ _ _ _ _ => by rw [hphase]; exact nofun) w g x hx, hx⟩
    · rw [Function.update_apply] at hgone
      split_ifs at hgone with heq
      refine hold g hg (fun hmem => (List.mem_cons.1 hmem).elim (fun hgf => ?_) hnot) hgone
      exact heq (congrArg _ hgf)
  | closes v f todo failed rest hphase =>
    rw [hphase] at hold
    have hleft : ∀ p, s.leftFile r v f .whole p = .whole ∨
        s.leftFile r v f .whole p = s.file p ∧ ¬ (p = (v, f) ∧ s.file (v, f) = .writing r) := by
      intro p
      unfold leftFile
      split_ifs with hp
      · exact .inl rfl
      · exact .inr ⟨rfl, hp⟩
    refine h.moved (fun p hp => ?_) (fun p hp => ?_) (fun w g x hx => ?_) ?_ fun _ => .inl
    · rcases hleft p with heq | ⟨heq, -⟩
      · rw [heq] at hp
        cases hp
      · rwa [heq] at hp
    · rcases hleft p with heq | ⟨heq, -⟩
      · rw [heq] at hp
        cases hp
      · rw [heq] at hp
        exact h.untorn p hp
    · rcases hleft (w, g) with heq | ⟨heq, hp⟩
      · rw [heq] at hx
        cases hx
      · rw [heq] at hx
        refine .inr ⟨?_, hx⟩
        -- what the runner opened last is the file that it closes
        rintro rfl
        obtain ⟨todo', failed', rest', hsame⟩ := h.opened w g x hx
        rw [hphase] at hsame
        obtain ⟨rfl, rfl, -⟩ := WarmPhase.writing.inj hsame
        exact hp ⟨rfl, hx⟩
    · have hcopied : HasBegun files s.file (.copying v todo failed rest) := hold
      refine hcopied.mono fun p hp => ?_
      rcases hleft p with heq | ⟨heq, -⟩
      · rw [heq] at hp
        cases hp
      · rwa [heq] at hp
  | refused v f todo failed rest hphase => exact hok.elim
  | fails v f todo failed rest hphase => exact hok.elim
  | marks v failed rest hphase =>
    rw [hphase] at hold
    refine h.moved (fun _ => id) h.untorn
      (fun w g x hx => .inr ⟨h.others (fun _ _ _ _ _ => by rw [hphase]; exact nofun) w g x hx, hx⟩)
      (by split_ifs <;> trivial) fun w hw => ?_
    rw [Function.update_apply] at hw
    split_ifs at hw with hwv
    · subst hwv
      exact .inr fun f hf => hold f hf List.not_mem_nil
    · exact .inl hw
  | stopsWriting v f todo failed rest hphase => exact absurd hphase (hok v f todo failed rest)
  | stops hphase => exact hquiet hphase trivial

/-- **A marked version settles**, however runners overlap. In every run in which no write fails and
no runner is stopped with a file open, each file of a version that has its marker is whole, or a
runner is writing it. -/
theorem complete_settles {actions : List (WarmAction κ)}
    (hs : run (step versions files) init actions = some s)
    (hok : Along (step versions files) Calm init actions) (hv : s.complete v = true)
    (hf : f ∈ files v) : s.file (v, f) = .whole ∨
      ∃ r todo failed rest, s.phase r = .writing v f todo failed rest := by
  have h : Settled files s :=
    run_invariant (fun _ _ _ h hok hstep => h.step hok hstep) (settled_init files) hok hs
  cases hfile : s.file (v, f) with
  | missing => exact absurd hfile (h.marked v hv f hf)
  | writing r => exact .inr ⟨r, h.opened v f r hfile⟩
  | torn => exact absurd hfile (h.untorn _)
  | whole => exact .inl rfl

/-! ### What cannot be repaired -/

/-- **A version with its marker is left as it is.** Once no runner is copying a marked version, its
files stay as they are in every run, the torn and the missing ones included. -/
theorem complete_frozen {actions : List (WarmAction κ)} (hv : s.complete v = true)
    (hfree : ∀ r, ¬ (s.phase r).Copies v) (ht : run (step versions files) s actions = some t) :
    t.complete v = true ∧ ∀ f, t.file (v, f) = s.file (v, f) := by
  have hinvariant : t.complete v = true ∧ (∀ r, ¬ (t.phase r).Copies v) ∧
      ∀ f, t.file (v, f) = s.file (v, f) := by
    refine run_invariant (I := fun u => u.complete v = true ∧ (∀ r, ¬ (u.phase r).Copies v) ∧
      ∀ f, u.file (v, f) = s.file (v, f)) (fun u a u' h _ hstep => ?_) ⟨hv, hfree, fun _ => rfl⟩
      (along_of_forall (fun _ _ => trivial) s actions) ht
    obtain ⟨hmarked, hidle, hfile⟩ := h
    obtain ⟨r, hmoves⟩ := moves_of_step hstep
    have hmoved : ∀ {file : V × F → CachedFile κ} {complete : V → Bool} {phase : WarmPhase V F},
        complete v = true → ¬ phase.Copies v → (∀ f, file (v, f) = u.file (v, f)) →
        (u.moved r file complete phase).complete v = true ∧
          (∀ r', ¬ ((u.moved r file complete phase).phase r').Copies v) ∧
          ∀ f, (u.moved r file complete phase).file (v, f) = s.file (v, f) := by
      intro file complete phase hcomplete hphase hsame
      refine ⟨hcomplete, fun r' => ?_, fun f => (hsame f).trans (hfile f)⟩
      simp only [moved, Function.update_apply]
      split_ifs
      · exact hphase
      · exact hidle r'
    have hown := hidle r
    cases hmoves with
    | boot hphase => exact hmoved hmarked id fun _ => rfl
    | done hphase => exact hmoved hmarked id fun _ => rfl
    | skip w rest hphase hw => exact hmoved hmarked id fun _ => rfl
    | begins w rest hphase hw =>
      refine hmoved hmarked (fun hwv => ?_) fun _ => rfl
      obtain rfl : w = v := hwv
      rw [hmarked] at hw
      cases hw
    | opens w f todo failed rest hphase =>
      rw [hphase] at hown
      exact hmoved hmarked hown fun g =>
        Function.update_of_ne (fun heq => hown (Prod.mk.inj heq).1.symm) ..
    | closes w f todo failed rest hphase =>
      rw [hphase] at hown
      exact hmoved hmarked hown fun g => if_neg fun heq => hown (Prod.mk.inj heq.1).1.symm
    | refused w f todo failed rest hphase =>
      rw [hphase] at hown
      exact hmoved hmarked hown fun _ => rfl
    | fails w f todo failed rest hphase =>
      rw [hphase] at hown
      exact hmoved hmarked hown fun g => if_neg fun heq => hown (Prod.mk.inj heq.1).1.symm
    | marks w failed rest hphase =>
      rw [hphase] at hown
      refine hmoved ((Function.update_of_ne (Ne.symm hown) ..).trans hmarked) ?_ fun _ => rfl
      split_ifs <;> exact id
    | stopsWriting w f todo failed rest hphase =>
      rw [hphase] at hown
      exact hmoved hmarked id fun g => if_neg fun heq => hown (Prod.mk.inj heq.1).1.symm
    | stops hphase => exact hmoved hmarked id fun _ => rfl
  exact ⟨hinvariant.1, hinvariant.2.2⟩

end Steps

/-! ### Two runners and a version -/

instance decidableCopies (v : V) (phase : WarmPhase V F) : Decidable (phase.Copies v) := by
  cases phase with
  | copying w todo failed rest => exact inferInstanceAs (Decidable (w = v))
  | writing w f todo failed rest => exact inferInstanceAs (Decidable (w = v))
  | _ => exact inferInstanceAs (Decidable False)

instance [Fintype κ] (s : Toolcache κ V F) (a : WarmAction κ) : Decidable (OneAtATime s a) := by
  cases a with
  | look r =>
    refine decidable_of_iff (∀ v ∈ (match s.phase r with | .looking (v :: _) => [v] | _ => []),
      s.complete v = false → ∀ other, ¬ (s.phase other).Copies v) ⟨fun h v rest hphase => ?_,
        fun h v hmem => ?_⟩
    · rw [hphase] at h
      exact h v (List.mem_singleton_self v)
    · split at hmem
      · next w rest hphase =>
        obtain rfl := List.mem_singleton.1 hmem
        exact h v rest hphase
      · cases hmem
  | refuse r => exact inferInstanceAs (Decidable False)
  | fail r => exact inferInstanceAs (Decidable False)
  | _ => exact inferInstanceAs (Decidable True)

instance (s : Toolcache κ V F) (a : WarmAction κ) : Decidable (Calm s a) := by
  cases a with
  | stop r =>
    refine decidable_of_iff ((match s.phase r with | .writing .. => true | _ => false) = false)
      ⟨fun h v f todo failed rest hphase => ?_, fun h => ?_⟩
    · rw [hphase] at h
      cases h
    · split
      · next v f todo failed rest hphase => exact absurd hphase (h v f todo failed rest)
      · rfl
  | refuse r => exact inferInstanceAs (Decidable False)
  | fail r => exact inferInstanceAs (Decidable False)
  | _ => exact inferInstanceAs (Decidable True)

/-- Node, as two files. -/
abbrev warmStep : Toolcache Bool String String → WarmAction Bool →
    Option (Toolcache Bool String String) :=
  step (fun _ => ["node/22"]) fun _ => ["bin/node", "lib/libnode.so"]

/-- A runner is stopped in the middle of a file, and the next one begins anew. -/
def stoppedRunner : List (WarmAction Bool) :=
  [.boot false, .look false, .open false, .stop false, .boot true, .look true, .open true,
    .close true, .open true, .close true, .mark true]

theorem complete_whole_stoppedRunner : ∃ s, run warmStep init stoppedRunner = some s ∧
    s.file ("node/22", "bin/node") = .whole := by
  have hmarked : (run warmStep init stoppedRunner).map (fun s => s.complete "node/22") =
      some true := by decide +kernel
  have hok : Along warmStep OneAtATime init stoppedRunner := by decide +kernel
  obtain ⟨s, hs, hcomplete⟩ := Option.map_eq_some_iff.1 hmarked
  exact ⟨s, hs, complete_whole hs hok hcomplete _ List.mem_cons_self⟩

/-- The second runner is still writing when the first one has set the marker. -/
def overlappingRunners : List (WarmAction Bool) :=
  [.boot false, .look false, .boot true, .look true, .open false, .open true, .close false,
    .close true, .open false, .close false, .mark false, .open true]

theorem complete_settles_overlappingRunners : ∃ s, run warmStep init overlappingRunners = some s ∧
    (s.file ("node/22", "lib/libnode.so") = .whole ∨ ∃ r todo failed rest,
      s.phase r = .writing "node/22" "lib/libnode.so" todo failed rest) := by
  have hmarked : (run warmStep init overlappingRunners).map (fun s => s.complete "node/22") =
      some true := by decide +kernel
  have hok : Along warmStep Calm init overlappingRunners := by decide +kernel
  obtain ⟨s, hs, hcomplete⟩ := Option.map_eq_some_iff.1 hmarked
  exact ⟨s, hs, complete_settles hs hok hcomplete (List.mem_cons_of_mem _ List.mem_cons_self)⟩

/-- A file that could not be written, in a version that is marked, and the next runner. -/
theorem complete_frozen_fullDisk : ∃ s t,
    run warmStep init [.boot false, .look false, .open false, .fail false, .open false,
      .close false, .mark false] = some s ∧ run warmStep s [.boot true, .look true] = some t ∧
      t.file ("node/22", "bin/node") = .torn := by
  have hstate : (run warmStep init [.boot false, .look false, .open false, .fail false,
      .open false, .close false, .mark false]).map (fun s => (s.complete "node/22",
        s.file ("node/22", "bin/node"), decide (∀ r, ¬ (s.phase r).Copies "node/22"),
        (run warmStep s [.boot true, .look true]).isSome)) = some (true, .torn, true, true) := by
    decide +kernel
  obtain ⟨s, hs, hfacts⟩ := Option.map_eq_some_iff.1 hstate
  obtain ⟨hcomplete, hrest⟩ := Prod.mk.inj hfacts
  obtain ⟨hfile, hrest⟩ := Prod.mk.inj hrest
  obtain ⟨hfree, hsome⟩ := Prod.mk.inj hrest
  obtain ⟨t, ht⟩ := Option.isSome_iff_exists.1 hsome
  exact ⟨s, t, hs, ht, ((complete_frozen hcomplete (of_decide_eq_true hfree) ht).2 _).trans hfile⟩

end Toolcache

end RunnerSwarm
