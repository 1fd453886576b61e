import RunnerSwarm.Lib.Agree
import RunnerSwarm.Lib.Run

/-!
# Threads under one lock

Threads run programs over a shared state, call by call and in any interleaving. The *guarded* ones
hold a lock from their first call to their last. The others are blind: they write one cell of the
state with their first call, and read nothing.

* `serial` is what some order of the threads does when each runs on its own;
* `serialisable`: if the guarded programs agree with themselves whatever is in the cell, then every
  interleaving in which all threads end has the result of a serial order, and what each guarded
  thread found when it started it finds there as well (`SerialAlong`).

Where a blind write belongs is not known when it happens: a guarded thread in progress may or may not
overwrite the cell later. `Tracks` therefore follows the guarded thread from every content of the
cell at once. As long as it has not written the cell, the blind writes since its first call come
after it; when it does, they come before.
-/

namespace RunnerSwarm

variable {ι σ ε α V : Type}

/-! ### Threads -/

inductive ThreadPhase (σ ε α : Type)
  | waiting
  | running (rest : Program σ ε α)
  | ended (outcome : Except ε α)

/-- The shared state, the holder of the lock, and what each thread is doing. -/
structure Threads (ι σ ε α : Type) where
  shared : σ
  holder : Option ι
  phase : ι → ThreadPhase σ ε α

inductive ThreadAction (ι : Type)
  | start (i : ι)
  | call (i : ι)
  | finish (i : ι)

section Threads

variable [DecidableEq ι] (code : ι → Program σ ε α) (guarded : ι → Bool)

def Threads.set (m : Threads ι σ ε α) (i : ι) (phase : ThreadPhase σ ε α) : Threads ι σ ε α :=
  { m with phase := Function.update m.phase i phase }

/-- One step of one thread. -/
def threadStep (m : Threads ι σ ε α) : ThreadAction ι → Option (Threads ι σ ε α)
  | .start i =>
      match m.phase i with
      | .waiting =>
          if guarded i then
            if m.holder.isSome then none
            else some { m.set i (.running (code i)) with holder := some i }
          else some (m.set i (.running (code i)))
      | _ => none
  | .call i =>
      match m.phase i with
      | .running p => (p.next m.shared).map fun next =>
          { m.set i (.running next.1) with shared := next.2 }
      | _ => none
  | .finish i =>
      match m.phase i with
      | .running p => p.outcome.map fun outcome =>
          { m.set i (.ended outcome) with holder := if guarded i then none else m.holder }
      | _ => none

end Threads

/-- Before any thread has started. -/
def Threads.init (ι : Type) {σ ε α : Type} (s : σ) : Threads ι σ ε α := ⟨s, none, fun _ => .waiting⟩

/-- The threads one after the other: their outcomes and the state at the end. -/
def serial (code : ι → Program σ ε α) : List ι → σ → List (ι × Except ε α) × σ
  | [], s => ([], s)
  | i :: order, s =>
      let rest := serial code order ((code i).run s).2
      ((i, ((code i).run s).1) :: rest.1, rest.2)

/-- `P` holds of every thread and the state it finds when its turn comes. -/
def SerialAlong (code : ι → Program σ ε α) (P : ι → σ → Prop) : List ι → σ → Prop
  | [], _ => True
  | i :: order, s => P i s ∧ SerialAlong code P order ((code i).run s).2

/-- `P` holds of a thread that starts and the state it finds. -/
def StartsIn (P : ι → σ → Prop) (m : Threads ι σ ε α) : ThreadAction ι → Prop
  | .start i => P i m.shared
  | _ => True

/-! ### Serial orders -/

section Serial

variable {code : ι → Program σ ε α}

theorem serial_cons (i : ι) (l : List ι) (s : σ) :
    serial code (i :: l) s = ((i, ((code i).run s).1) :: (serial code l ((code i).run s).2).1,
      (serial code l ((code i).run s).2).2) := rfl

theorem serial_append (l m : List ι) (s : σ) :
    serial code (l ++ m) s =
      ((serial code l s).1 ++ (serial code m (serial code l s).2).1,
        (serial code m (serial code l s).2).2) := by
  induction l generalizing s with
  | nil => rfl
  | cons i l ih =>
    rw [List.cons_append, serial_cons, ih, serial_cons]
    rfl

theorem serial_keys (l : List ι) (s : σ) : (serial code l s).1.map Prod.fst = l := by
  induction l generalizing s with
  | nil => rfl
  | cons i l ih =>
    rw [serial_cons]
    exact congrArg _ (ih _)

theorem serialAlong_append {P : ι → σ → Prop} (l m : List ι) (s : σ) :
    SerialAlong code P (l ++ m) s ↔
      SerialAlong code P l s ∧ SerialAlong code P m (serial code l s).2 := by
  induction l generalizing s with
  | nil => exact (and_iff_right trivial).symm
  | cons i l ih =>
    rw [List.cons_append, SerialAlong, SerialAlong, ih, and_assoc]
    rfl

theorem serialAlong_of_forall {P : ι → σ → Prop} {l : List ι} (h : ∀ i ∈ l, ∀ s, P i s) (s : σ) :
    SerialAlong code P l s := by
  induction l generalizing s with
  | nil => trivial
  | cons i l ih =>
    exact ⟨h i List.mem_cons_self s, ih (fun j hj => h j (List.mem_cons_of_mem _ hj)) _⟩

/-- The content of the cell after some blind writes. -/
def lastWritten (value : ι → V) (l : List ι) (v : V) : V := l.foldl (fun _ i => value i) v

@[simp] theorem lastWritten_nil (value : ι → V) (v : V) : lastWritten value [] v = v := rfl

@[simp] theorem lastWritten_concat (value : ι → V) (l : List ι) (i : ι) (v : V) :
    lastWritten value (l ++ [i]) v = value i := by
  unfold lastWritten
  rw [List.foldl_append]
  rfl

/-- The outcomes of blind threads. -/
def answers (answer : ι → α) (l : List ι) : List (ι × Except ε α) := l.map fun i => (i, .ok (answer i))

/-- **Blind threads one after the other.** -/
theorem serial_blind {c : Cell σ V} {value : ι → V} {answer : ι → α} {l : List ι}
    (h : ∀ i ∈ l, c.Writes (value i) (answer i) (code i)) (s : σ) :
    (serial code l s).1 = answers answer l ∧ c.Same s (serial code l s).2 ∧
      c.cell (serial code l s).2 = lastWritten value l (c.cell s) := by
  induction l generalizing s with
  | nil => exact ⟨rfl, c.refl s, rfl⟩
  | cons i l ih =>
    obtain ⟨hresult, hsame, hcell⟩ := (h i List.mem_cons_self).run s
    obtain ⟨hresults, hsames, hcells⟩ :=
      ih (fun j hj => h j (List.mem_cons_of_mem _ hj)) ((code i).run s).2
    rw [serial_cons]
    refine ⟨?_, hsame.trans hsames, ?_⟩
    · rw [hresult, hresults]
      rfl
    · rw [hcells, hcell]
      rfl

end Serial

/-! ### The invariant -/

section Invariant

variable [DecidableEq ι] (c : Cell σ V) (R : α → α → Prop) (code : ι → Program σ ε α)
  (guarded : ι → Bool) (answer : ι → α) (value : ι → V) (P : ι → σ → Prop)

/-- `P` does not depend on the cell, and of blind threads it holds anyway. -/
structure CellFree : Prop where
  same : ∀ {i s t}, c.Same s t → P i s → P i t
  blind : ∀ {i}, guarded i = false → ∀ s, P i s

/-- Where a thread stands, when the serial order so far has these outcomes. -/
inductive Fate (outcomes : List (ι × Except ε α)) (i : ι) : ThreadPhase σ ε α → Prop
  | waiting (h : i ∉ outcomes.map Prod.fst) : Fate outcomes i .waiting
  | begun (h : i ∉ outcomes.map Prod.fst) (blind : guarded i = false) :
      Fate outcomes i (.running (code i))
  | written {p : Program σ ε α} (h : (i, .ok (answer i)) ∈ outcomes) (blind : guarded i = false)
      (quiet : c.Quiet (answer i) p) : Fate outcomes i (.running p)
  | ended {x y : Except ε α} (h : (i, y) ∈ outcomes) (related : Cell.Outcomes R x y) :
      Fate outcomes i (.ended x)

/-- The thread that has reached `p` and `w` is followed from every state that is the same as `s`; its
own writes so far change the cell by `q`. -/
def Tracks (h : ι) (p : Program σ ε α) (w s : σ) (q : V → V) : Prop :=
  ∀ u, c.Same s u → ∃ p' w', (code h).run u = p'.run w' ∧ c.Agree R p p' ∧ c.Same w w' ∧
    c.cell w' = q (c.cell u)

/-- No thread holds the lock: the state is that of a serial order of the threads that count. -/
structure Free (s : σ) (m : Threads ι σ ε α) (order : List ι) : Prop where
  nodup : order.Nodup
  holder : m.holder = none
  same : c.Same m.shared (serial code order s).2
  cell : c.cell m.shared = c.cell (serial code order s).2
  along : SerialAlong code P order s
  fate : ∀ i, Fate c R code guarded answer (serial code order s).1 i (m.phase i)

/-- The thread `h` holds the lock: it started after `before`, the blind threads `pre` come between,
and the blind threads `post` will come after it. -/
structure Held (s : σ) (m : Threads ι σ ε α) (h : ι) (before pre post : List ι)
    (p : Program σ ε α) (q : V → V) : Prop where
  nodup : (before ++ pre ++ h :: post).Nodup
  holder : m.holder = some h
  locking : guarded h = true
  blind : ∀ i ∈ pre ++ post, guarded i = false
  phase : m.phase h = .running p
  tracks : Tracks c R code h p m.shared (serial code before s).2 q
  own : (pre = [] ∧ q = id) ∨ ∃ v, q = fun _ => v
  cell : c.cell m.shared = lastWritten value post (q (c.cell (serial code before s).2))
  along : SerialAlong code P (before ++ [h]) s
  fate : ∀ i ≠ h, Fate c R code guarded answer
    ((serial code before s).1 ++ answers answer (pre ++ post)) i (m.phase i)

/-- What every interleaving keeps. -/
def Serialised (s : σ) (m : Threads ι σ ε α) : Prop :=
  (∃ order, Free c R code guarded answer P s m order) ∨
    ∃ h before pre post p q, Held c R code guarded answer value P s m h before pre post p q

end Invariant

/-! ### Steps -/

section Steps

variable {c : Cell σ V} {R : α → α → Prop} {code : ι → Program σ ε α} {guarded : ι → Bool}
  {answer : ι → α} {value : ι → V} {P : ι → σ → Prop} {outcomes outcomes' : List (ι × Except ε α)}
  {i j : ι}
  {m t : Threads ι σ ε α} {s : σ}

theorem Fate.congr {phase : ThreadPhase σ ε α} (h : Fate c R code guarded answer outcomes i phase)
    (hmem : ∀ y, (i, y) ∈ outcomes → (i, y) ∈ outcomes')
    (hkeys : i ∈ outcomes'.map Prod.fst → i ∈ outcomes.map Prod.fst) :
    Fate c R code guarded answer outcomes' i phase := by
  cases h with
  | waiting h => exact .waiting (mt hkeys h)
  | begun h blind => exact .begun (mt hkeys h) blind
  | written h blind quiet => exact .written (hmem _ h) blind quiet
  | ended h related => exact .ended (hmem _ h) related

theorem mem_answers (l : List ι) {y : Except ε α} (h : (i, y) ∈ answers answer l) : i ∈ l := by
  obtain ⟨k, hk, heq⟩ := List.mem_map.1 h
  obtain ⟨rfl, -⟩ := Prod.mk.inj heq
  exact hk

theorem Fate.concat {phase : ThreadPhase σ ε α} {y : Except ε α}
    (h : Fate c R code guarded answer outcomes j phase) (hne : j ≠ i) :
    Fate c R code guarded answer (outcomes ++ [(i, y)]) j phase := by
  refine h.congr (fun y hy => List.mem_append_left _ hy) fun hkey => ?_
  rw [List.map_append, List.mem_append] at hkey
  exact hkey.resolve_right fun hlast => hne (by simpa using hlast)

theorem answers_concat (l : List ι) :
    answers answer (l ++ [i]) = answers answer l ++ [(i, (.ok (answer i) : Except ε α))] :=
  List.map_append

theorem keys_held (before l : List ι) :
    ((serial code before s).1 ++ answers answer l).map Prod.fst = before ++ l := by
  rw [List.map_append, serial_keys]
  congr 1
  unfold answers
  rw [List.map_map]
  exact List.map_id l

theorem nodup_concat {l : List ι} (h : l.Nodup) (hi : i ∉ l) : (l ++ [i]).Nodup := by
  refine List.nodup_append.2 ⟨h, List.nodup_singleton i, ?_⟩
  rintro a ha b hb rfl
  rw [List.mem_singleton.1 hb] at ha
  exact hi ha

theorem Cell.Agree.outcome {p p' : Program σ ε α} {x : Except ε α} (h : c.Agree R p p')
    (hx : p.outcome = some x) : ∃ y, p'.outcome = some y ∧ Cell.Outcomes R x y := by
  cases h with
  | done h =>
    obtain rfl := Option.some.inj hx
    exact ⟨_, rfl, .ok h⟩
  | fail e =>
    obtain rfl := Option.some.inj hx
    exact ⟨_, rfl, .error e⟩
  | call hf h => cases hx

variable [DecidableEq ι]

@[simp] theorem Threads.set_phase_self (m : Threads ι σ ε α) (i : ι) (phase : ThreadPhase σ ε α) :
    (m.set i phase).phase i = phase := Function.update_self ..

theorem Threads.set_phase_of_ne (m : Threads ι σ ε α) (phase : ThreadPhase σ ε α) (h : j ≠ i) :
    (m.set i phase).phase j = m.phase j := Function.update_of_ne h ..

/-- A thread starts when it waits, and a guarded one when the lock is free. -/
theorem start_cases (hstep : threadStep code guarded m (.start i) = some t) :
    m.phase i = .waiting ∧
      ((guarded i = true ∧ m.holder = none ∧
          t = { m.set i (.running (code i)) with holder := some i }) ∨
        (guarded i = false ∧ t = m.set i (.running (code i)))) := by
  unfold threadStep at hstep
  dsimp only at hstep
  cases hphase : m.phase i with
  | running rest => simp [hphase] at hstep
  | ended outcome => simp [hphase] at hstep
  | waiting =>
    refine ⟨rfl, ?_⟩
    rw [hphase] at hstep
    dsimp only at hstep
    split_ifs at hstep with hguarded hholder
    · obtain rfl := Option.some.inj hstep
      rw [Bool.not_eq_true, Option.isSome_eq_false_iff, Option.isNone_iff_eq_none] at hholder
      exact .inl ⟨hguarded, hholder, rfl⟩
    · obtain rfl := Option.some.inj hstep
      exact .inr ⟨Bool.eq_false_iff.2 hguarded, rfl⟩

theorem call_cases (hstep : threadStep code guarded m (.call i) = some t) :
    ∃ p q w, m.phase i = .running p ∧ p.next m.shared = some (q, w) ∧
      t = { m.set i (.running q) with shared := w } := by
  unfold threadStep at hstep
  dsimp only at hstep
  cases hphase : m.phase i with
  | waiting => simp [hphase] at hstep
  | ended outcome => simp [hphase] at hstep
  | running p =>
    rw [hphase] at hstep
    obtain ⟨⟨q, w⟩, hnext, rfl⟩ := Option.map_eq_some_iff.1 hstep
    exact ⟨p, q, w, rfl, hnext, rfl⟩

theorem finish_cases (hstep : threadStep code guarded m (.finish i) = some t) :
    ∃ p x, m.phase i = .running p ∧ p.outcome = some x ∧
      t = { m.set i (.ended x) with holder := if guarded i then none else m.holder } := by
  unfold threadStep at hstep
  dsimp only at hstep
  cases hphase : m.phase i with
  | waiting => simp [hphase] at hstep
  | ended outcome => simp [hphase] at hstep
  | running p =>
    rw [hphase] at hstep
    obtain ⟨x, hx, rfl⟩ := Option.map_eq_some_iff.1 hstep
    exact ⟨p, x, rfl, hx, rfl⟩

/-- What a thread that does not hold the lock does with a call. -/
theorem call_of_fate (hblind : ∀ i, guarded i = false → c.Writes (value i) (answer i) (code i))
    (hfate : Fate c R code guarded answer outcomes i (m.phase i))
    (hstep : threadStep code guarded m (.call i) = some t) :
    ∃ p w, t = { m.set i (.running p) with shared := w } ∧ guarded i = false ∧
      c.Same m.shared w ∧ c.Quiet (answer i) p ∧
      ((c.cell w = c.cell m.shared ∧ (i, .ok (answer i)) ∈ outcomes) ∨
        (c.cell w = value i ∧ i ∉ outcomes.map Prod.fst)) := by
  obtain ⟨p, q, w, hphase, hnext, rfl⟩ := call_cases hstep
  rw [hphase] at hfate
  cases hfate with
  | begun h blind =>
    have hwrites := hblind i blind
    generalize code i = program at hwrites hnext
    cases hwrites with
    | call same write hquiet =>
      obtain ⟨rfl, rfl⟩ := Prod.mk.inj (Option.some.inj hnext)
      exact ⟨_, _, rfl, blind, same _, hquiet _, .inr ⟨write _, h⟩⟩
  | written h blind quiet =>
    cases quiet with
    | done => cases hnext
    | call same kept hquiet =>
      obtain ⟨rfl, rfl⟩ := Prod.mk.inj (Option.some.inj hnext)
      exact ⟨_, _, rfl, blind, same _, hquiet _, .inl ⟨kept _, h⟩⟩

/-- How a thread that does not hold the lock ends. -/
theorem finish_of_fate (hblind : ∀ i, guarded i = false → c.Writes (value i) (answer i) (code i))
    (hfate : Fate c R code guarded answer outcomes i (m.phase i))
    (hstep : threadStep code guarded m (.finish i) = some t) :
    t = m.set i (.ended (.ok (answer i))) ∧ (i, .ok (answer i)) ∈ outcomes := by
  obtain ⟨p, x, hphase, hx, rfl⟩ := finish_cases hstep
  rw [hphase] at hfate
  cases hfate with
  | begun h blind =>
    have hwrites := hblind i blind
    generalize code i = program at hwrites hx
    cases hwrites with
    | call same write hquiet => cases hx
  | written h blind quiet =>
    cases quiet with
    | call same kept hquiet => cases hx
    | done =>
      obtain rfl := Option.some.inj hx
      rw [blind]
      exact ⟨rfl, h⟩

/-- The threads after one of them has moved. -/
theorem fates_set {phase : ThreadPhase σ ε α} {I : ι → Prop}
    (hself : I i → Fate c R code guarded answer outcomes i phase)
    (hother : ∀ j ≠ i, I j → Fate c R code guarded answer outcomes j (m.phase j)) :
    ∀ j, I j → Fate c R code guarded answer outcomes j ((m.set i phase).phase j) := by
  intro j hj
  by_cases hne : j = i
  · subst hne
    rw [Threads.set_phase_self]
    exact hself hj
  · rw [m.set_phase_of_ne phase hne]
    exact hother j hne hj

/-! ### While the lock is free -/

section Free

variable {order : List ι}

theorem Free.start (hfree : Free c R code guarded answer P s m order)
    (hguarded : ∀ i, guarded i = true → c.Agree R (code i) (code i)) (hP : CellFree c guarded P)
    (hfound : P i m.shared) (hstep : threadStep code guarded m (.start i) = some t) :
    Serialised c R code guarded answer value P s t := by
  obtain ⟨hphase, ⟨hi, hholder, rfl⟩ | ⟨hi, rfl⟩⟩ := start_cases hstep
  · right
    have hnew : i ∉ order := by
      have hfate := hfree.fate i
      rw [hphase] at hfate
      cases hfate with
      | waiting h => rwa [serial_keys] at h
    refine ⟨i, order, [], [], code i, id, ?_⟩
    refine ⟨?_, rfl, hi, fun j hj => absurd hj List.not_mem_nil, Threads.set_phase_self _ _ _, ?_,
      .inl ⟨rfl, rfl⟩, hfree.cell, ?_, ?_⟩
    · rw [List.append_nil]
      exact nodup_concat hfree.nodup hnew
    · intro u hu
      exact ⟨code i, u, rfl, hguarded i hi, hfree.same.trans hu, rfl⟩
    · exact (serialAlong_append _ _ _).2 ⟨hfree.along, hP.same hfree.same hfound, trivial⟩
    · rw [List.append_nil]
      intro j hj
      rw [show (serial code order s).1 ++ answers answer [] = (serial code order s).1 from
        List.append_nil _]
      exact fates_set (I := fun j => j ≠ i) (fun h => absurd rfl h) (fun j _ _ => hfree.fate j) j hj
  · left
    refine ⟨order, hfree.nodup, hfree.holder, hfree.same, hfree.cell, hfree.along, fun j => ?_⟩
    refine fates_set (I := fun _ => True) (fun _ => ?_) (fun j _ _ => hfree.fate j) j trivial
    have hfate := hfree.fate i
    rw [hphase] at hfate
    cases hfate with
    | waiting h => exact .begun h hi

theorem Free.call (hfree : Free c R code guarded answer P s m order)
    (hblind : ∀ i, guarded i = false → c.Writes (value i) (answer i) (code i))
    (hP : CellFree c guarded P) (hstep : threadStep code guarded m (.call i) = some t) :
    Serialised c R code guarded answer value P s t := by
  obtain ⟨p, w, rfl, hi, hsame, hquiet, ⟨hcell, hmem⟩ | ⟨hcell, hnew⟩⟩ :=
    call_of_fate hblind (hfree.fate i) hstep
  · refine .inl ⟨order, hfree.nodup, hfree.holder, hsame.symm.trans hfree.same,
      hcell.trans hfree.cell, hfree.along, fun j => ?_⟩
    exact fates_set (I := fun _ => True) (fun _ => .written hmem hi hquiet)
      (fun j _ _ => hfree.fate j) j trivial
  · -- the write comes at the end of the order
    obtain ⟨hresult, hrest, hlast⟩ := (hblind i hi).run (serial code order s).2
    have hserial : serial code (order ++ [i]) s =
        ((serial code order s).1 ++ [(i, .ok (answer i))], ((code i).run (serial code order s).2).2) := by
      rw [serial_append, serial_cons, hresult]
      rfl
    rw [serial_keys] at hnew
    refine .inl ⟨order ++ [i], nodup_concat hfree.nodup hnew, hfree.holder, ?_, ?_, ?_,
      fun j => ?_⟩
    · rw [hserial]
      exact (hsame.symm.trans hfree.same).trans hrest
    · rw [hserial]
      exact hcell.trans hlast.symm
    · exact (serialAlong_append _ _ _).2 ⟨hfree.along, hP.blind hi _, trivial⟩
    · rw [hserial]
      refine fates_set (I := fun _ => True) (fun _ => ?_) (fun j hj _ => (hfree.fate j).concat hj) j
        trivial
      exact .written (List.mem_append_right _ List.mem_cons_self) hi hquiet

theorem Free.finish (hfree : Free c R code guarded answer P s m order) (hR : ∀ a, R a a)
    (hblind : ∀ i, guarded i = false → c.Writes (value i) (answer i) (code i))
    (hstep : threadStep code guarded m (.finish i) = some t) :
    Serialised c R code guarded answer value P s t := by
  obtain ⟨rfl, hmem⟩ := finish_of_fate hblind (hfree.fate i) hstep
  refine .inl ⟨order, hfree.nodup, hfree.holder, hfree.same, hfree.cell, hfree.along,
    fun j => ?_⟩
  exact fates_set (I := fun _ => True) (fun _ => .ended hmem (.ok (hR _)))
    (fun j _ _ => hfree.fate j) j trivial

end Free

/-! ### While a thread holds the lock -/

section Held

variable {h : ι} {before pre post : List ι} {p : Program σ ε α} {q : V → V}

theorem Held.start (hheld : Held c R code guarded answer value P s m h before pre post p q)
    (hstep : threadStep code guarded m (.start i) = some t) :
    Serialised c R code guarded answer value P s t := by
  obtain ⟨hphase, ⟨-, hholder, -⟩ | ⟨hi, rfl⟩⟩ := start_cases hstep
  · rw [hheld.holder] at hholder
    cases hholder
  · have hne : h ≠ i := by
      rintro rfl
      rw [hheld.phase] at hphase
      cases hphase
    refine .inr ⟨h, before, pre, post, p, q, hheld.nodup, hheld.holder, hheld.locking, hheld.blind,
      (m.set_phase_of_ne _ hne).trans hheld.phase, hheld.tracks, hheld.own, hheld.cell, hheld.along,
      ?_⟩
    refine fates_set (fun hih => ?_) fun j _ => hheld.fate j
    have hfate := hheld.fate i hih
    rw [hphase] at hfate
    cases hfate with
    | waiting h => exact .begun h hi

/-- The holder's call: if it writes the cell, the blind writes so far come before it. -/
theorem Held.callSelf (hheld : Held c R code guarded answer value P s m h before pre post p q)
    (hstep : threadStep code guarded m (.call h) = some t) :
    Serialised c R code guarded answer value P s t := by
  obtain ⟨p', p'', w, hphase, hnext, rfl⟩ := call_cases hstep
  obtain rfl : p = p' := ThreadPhase.running.inj (hheld.phase.symm.trans hphase)
  obtain ⟨f, k, hf, rfl⟩ : ∃ f k, c.Neat f ∧ p = .call f k := by
    obtain ⟨q', w', -, hagree, -, -⟩ := hheld.tracks _ (c.refl _)
    cases hagree with
    | done h => cases hnext
    | fail e => cases hnext
    | call hf h => exact ⟨_, _, hf, rfl⟩
  obtain ⟨rfl, rfl⟩ := Prod.mk.inj (Option.some.inj hnext)
  have htracks : ∀ q' : V → V, (∀ v w', c.cell w' = q v → c.cell (f w') = q' v) →
      Tracks c R code h (k m.shared) (f m.shared) (serial code before s).2 q' := by
    intro q' hq u hu
    obtain ⟨p', w', hrun, hagree, hsame, hcell⟩ := hheld.tracks u hu
    cases hagree with
    | call _ hnext =>
      exact ⟨_, f w', hrun, hnext _ _ hsame, hf.same _ _ hsame, hq _ w' hcell⟩
  have hfates : ∀ l : List ι, l = pre ++ post → ∀ j ≠ h, Fate c R code guarded answer
      ((serial code before s).1 ++ answers answer l) j
      ((m.set h (.running (k m.shared))).phase j) := by
    rintro l rfl
    exact fates_set (fun hne => absurd rfl hne) fun j _ hj => hheld.fate j hj
  rcases hf.cell with hkeeps | ⟨v, hwrites⟩
  · refine .inr ⟨h, before, pre, post, k m.shared, q, hheld.nodup, hheld.holder, hheld.locking,
      hheld.blind, Threads.set_phase_self _ _ _, htracks q fun v w' hw' => (hkeeps w').trans hw',
      hheld.own, (hkeeps _).trans hheld.cell, hheld.along, hfates (pre ++ post) rfl⟩
  · have hperm : (before ++ (pre ++ post) ++ [h]).Perm (before ++ pre ++ h :: post) := by
      rw [← List.append_assoc, List.append_assoc (before ++ pre)]
      exact List.Perm.append_left _ (List.perm_append_singleton h post)
    refine .inr ⟨h, before, pre ++ post, [], k m.shared, fun _ => v, hperm.nodup_iff.2 hheld.nodup,
      hheld.holder, hheld.locking, ?_, Threads.set_phase_self _ _ _,
      htracks _ fun _ w' _ => hwrites w', .inr ⟨v, rfl⟩, hwrites _, hheld.along, ?_⟩
    · rw [List.append_nil]
      exact hheld.blind
    · exact hfates (pre ++ post ++ []) (List.append_nil _)

theorem Held.callOther (hheld : Held c R code guarded answer value P s m h before pre post p q)
    (hblind : ∀ i, guarded i = false → c.Writes (value i) (answer i) (code i)) (hne : i ≠ h)
    (hstep : threadStep code guarded m (.call i) = some t) :
    Serialised c R code guarded answer value P s t := by
  obtain ⟨p', w, rfl, hi, hsame, hquiet, hcases⟩ := call_of_fate hblind (hheld.fate i hne) hstep
  have htracks : Tracks c R code h p w (serial code before s).2 q := by
    intro u hu
    obtain ⟨p', w', hrun, hagree, hsame', hcell⟩ := hheld.tracks u hu
    exact ⟨p', w', hrun, hagree, hsame.symm.trans hsame', hcell⟩
  have hphase : (m.set i (.running p')).phase h = .running p :=
    (m.set_phase_of_ne _ (Ne.symm hne)).trans hheld.phase
  rcases hcases with ⟨hcell, hmem⟩ | ⟨hcell, hnew⟩
  · refine .inr ⟨h, before, pre, post, p, q, hheld.nodup, hheld.holder, hheld.locking, hheld.blind,
      hphase, htracks, hheld.own, hcell.trans hheld.cell, hheld.along, ?_⟩
    exact fates_set (fun _ => .written hmem hi hquiet) fun j _ => hheld.fate j
  · -- the write comes after the holder, unless that writes the cell later
    rw [keys_held, List.mem_append, List.mem_append, not_or, not_or] at hnew
    have hfresh : i ∉ before ++ pre ++ h :: post := by
      rw [List.mem_append, List.mem_append, List.mem_cons, not_or, not_or, not_or]
      exact ⟨⟨hnew.1, hnew.2.1⟩, hne, hnew.2.2⟩
    refine .inr ⟨h, before, pre, post ++ [i], p, q, ?_, hheld.holder, hheld.locking, ?_, hphase,
      htracks, hheld.own, ?_, hheld.along, ?_⟩
    · rw [← List.cons_append, ← List.append_assoc]
      exact nodup_concat hheld.nodup hfresh
    · intro j hj
      rw [← List.append_assoc] at hj
      rcases List.mem_append.1 hj with hj | hj
      · exact hheld.blind j hj
      · rw [List.mem_singleton.1 hj]
        exact hi
    · rw [lastWritten_concat]
      exact hcell
    · rw [← List.append_assoc, answers_concat, ← List.append_assoc]
      refine fates_set (fun _ => ?_) fun j hj hjh => (hheld.fate j hjh).concat hj
      exact .written (List.mem_append_right _ List.mem_cons_self) hi hquiet

theorem Held.finishOther (hheld : Held c R code guarded answer value P s m h before pre post p q)
    (hR : ∀ a, R a a)
    (hblind : ∀ i, guarded i = false → c.Writes (value i) (answer i) (code i)) (hne : i ≠ h)
    (hstep : threadStep code guarded m (.finish i) = some t) :
    Serialised c R code guarded answer value P s t := by
  obtain ⟨rfl, hmem⟩ := finish_of_fate hblind (hheld.fate i hne) hstep
  refine .inr ⟨h, before, pre, post, p, q, hheld.nodup, hheld.holder, hheld.locking, hheld.blind,
    (m.set_phase_of_ne _ (Ne.symm hne)).trans hheld.phase, hheld.tracks, hheld.own, hheld.cell,
    hheld.along, ?_⟩
  exact fates_set (fun _ => .ended hmem (.ok (hR _))) fun j _ => hheld.fate j

/-- The holder ends: it takes its place between the two groups of blind writes. -/
theorem Held.finishSelf (hheld : Held c R code guarded answer value P s m h before pre post p q)
    (hblind : ∀ i, guarded i = false → c.Writes (value i) (answer i) (code i))
    (hP : CellFree c guarded P) (hstep : threadStep code guarded m (.finish h) = some t) :
    Serialised c R code guarded answer value P s t := by
  obtain ⟨p', x, hphase, hx, rfl⟩ := finish_cases hstep
  obtain rfl : p = p' := ThreadPhase.running.inj (hheld.phase.symm.trans hphase)
  obtain ⟨hpreResults, hpreSame, hpreCell⟩ := serial_blind
    (fun i hi => hblind i (hheld.blind i (List.mem_append_left _ hi))) (serial code before s).2
  obtain ⟨p', w', hrun, hagree, hsame, hcell⟩ := hheld.tracks _ hpreSame
  obtain ⟨y, hy, hrelated⟩ := hagree.outcome hx
  rw [Program.run_of_outcome hy] at hrun
  obtain ⟨hpostResults, hpostSame, hpostCell⟩ := serial_blind
    (fun i hi => hblind i (hheld.blind i (List.mem_append_right _ hi))) w'
  have hserial : serial code (before ++ pre ++ h :: post) s =
      ((serial code before s).1 ++ answers answer pre ++ (h, y) :: answers answer post,
        (serial code post w').2) := by
    rw [serial_append, serial_append, serial_cons, hpreResults, hrun, hpostResults]
  refine .inl ⟨before ++ pre ++ h :: post, hheld.nodup, if_pos hheld.locking, ?_, ?_, ?_,
    fun j => ?_⟩
  · rw [hserial]
    exact hsame.trans hpostSame
  · rw [hserial]
    refine hheld.cell.trans (Eq.trans ?_ hpostCell.symm)
    rw [hcell]
    rcases hheld.own with ⟨rfl, rfl⟩ | ⟨v, rfl⟩
    · rfl
    · rfl
  · obtain ⟨hbefore, hfound, -⟩ := (serialAlong_append _ _ _).1 hheld.along
    have hanywhere : ∀ i ∈ pre ++ post, ∀ u, P i u := fun i hi => hP.blind (hheld.blind i hi)
    refine (serialAlong_append _ _ _).2 ⟨(serialAlong_append _ _ _).2 ⟨hbefore, ?_⟩, ?_, ?_⟩
    · exact serialAlong_of_forall (fun i hi => hanywhere i (List.mem_append_left _ hi)) _
    · rw [serial_append]
      exact hP.same hpreSame hfound
    · exact serialAlong_of_forall (fun i hi => hanywhere i (List.mem_append_right _ hi)) _
  · rw [hserial]
    refine fates_set (I := fun _ => True) (fun _ => ?_) (fun j hj _ => ?_) j trivial
    · exact .ended (List.mem_append_right _ List.mem_cons_self) hrelated
    · refine (hheld.fate j hj).congr (fun y' hy' => ?_) fun hkey => ?_
      · unfold answers at hy' ⊢
        rw [List.map_append, ← List.append_assoc] at hy'
        rcases List.mem_append.1 hy' with hy' | hy'
        · exact List.mem_append_left _ hy'
        · exact List.mem_append_right _ (List.mem_cons_of_mem _ hy')
      · rw [keys_held]
        rw [List.map_append, keys_held, List.map_cons, List.mem_append, List.mem_cons] at hkey
        rw [← List.append_assoc, List.mem_append]
        refine hkey.imp_right fun hkey => ?_
        obtain ⟨⟨k, y'⟩, hmem, rfl⟩ := List.mem_map.1 (hkey.resolve_left hj)
        exact mem_answers post hmem

end Held

/-- **Every step keeps the interleaving serialised.** -/
theorem serialised_step (hguarded : ∀ i, guarded i = true → c.Agree R (code i) (code i))
    (hblind : ∀ i, guarded i = false → c.Writes (value i) (answer i) (code i))
    (hR : ∀ a, R a a) (hP : CellFree c guarded P) {a : ThreadAction ι}
    (hm : Serialised c R code guarded answer value P s m) (hfound : StartsIn P m a)
    (hstep : threadStep code guarded m a = some t) :
    Serialised c R code guarded answer value P s t := by
  rcases hm with ⟨order, hfree⟩ | ⟨h, before, pre, post, p, q, hheld⟩
  · cases a with
    | start i => exact hfree.start hguarded hP hfound hstep
    | call i => exact hfree.call hblind hP hstep
    | finish i => exact hfree.finish hR hblind hstep
  · cases a with
    | start i => exact hheld.start hstep
    | call i =>
      by_cases hi : i = h
      · subst hi
        exact hheld.callSelf hstep
      · exact hheld.callOther hblind hi hstep
    | finish i =>
      by_cases hi : i = h
      · subst hi
        exact hheld.finishSelf hblind hP hstep
      · exact hheld.finishOther hR hblind hi hstep

/-- **Every interleaving has the result of a serial order**, once all threads have ended. -/
theorem serialisable (hguarded : ∀ i, guarded i = true → c.Agree R (code i) (code i))
    (hblind : ∀ i, guarded i = false → c.Writes (value i) (answer i) (code i))
    (hR : ∀ a, R a a) (hP : CellFree c guarded P) {l : List (ThreadAction ι)}
    (hfound : Along (threadStep code guarded) (StartsIn P) (.init ι s) l)
    (hrun : run (threadStep code guarded) (.init ι s) l = some m)
    (hended : ∀ i, ∃ x, m.phase i = .ended x) :
    ∃ order, order.Nodup ∧ (∀ i, i ∈ order) ∧ c.Same m.shared (serial code order s).2 ∧
      c.cell m.shared = c.cell (serial code order s).2 ∧ SerialAlong code P order s ∧
      ∀ i x, m.phase i = .ended x → ∃ y, (i, y) ∈ (serial code order s).1 ∧
        Cell.Outcomes R x y := by
  have hinit : Serialised c R code guarded answer value P s (.init ι s) :=
    .inl ⟨[], List.nodup_nil, rfl, c.refl s, rfl, trivial, fun i => .waiting List.not_mem_nil⟩
  have hend : Serialised c R code guarded answer value P s m :=
    run_invariant (fun _ _ _ hm ha hstep => serialised_step hguarded hblind hR hP hm ha hstep) hinit
      hfound hrun
  rcases hend with ⟨order, hfree⟩ | ⟨h, before, pre, post, p, q, hheld⟩
  · have hfate : ∀ i x, m.phase i = .ended x → ∃ y, (i, y) ∈ (serial code order s).1 ∧
        Cell.Outcomes R x y := by
      intro i x hx
      have hi := hfree.fate i
      rw [hx] at hi
      cases hi with
      | ended hmem hrelated => exact ⟨_, hmem, hrelated⟩
    refine ⟨order, hfree.nodup, fun i => ?_, hfree.same, hfree.cell, hfree.along, hfate⟩
    obtain ⟨x, hx⟩ := hended i
    obtain ⟨y, hmem, -⟩ := hfate i x hx
    have hkeys : (serial code order s).1.map Prod.fst = order := serial_keys order s
    exact hkeys ▸ List.mem_map_of_mem hmem
  · obtain ⟨x, hx⟩ := hended h
    rw [hheld.phase] at hx
    cases hx

end Steps

end RunnerSwarm
