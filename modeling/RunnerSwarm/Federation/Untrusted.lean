import RunnerSwarm.Federation.FreeSlots
import RunnerSwarm.Scaler.HotHost

/-!
# What peers can do to a host

A peer may answer anything. `splitRaising`, `queueInputRaising` and `refreshRaising` are the code
with its failures: the keys that a dict may not have, the `max` of nothing, the division, the
exceptions of a fetch and of the validation. `Federation.after` is a host after any sequence of
refreshes.

* `splitRaising_ok`: the split raises on no slots whose cores a float can hold;
* `refreshRaising_ok`: no answer of a peer gets out of `refresh`;
* `freshPeers_without`: a peer that has given no good snapshot for long might as well not be
  configured;
* `peers_cannot_break` is all of it.
-/

namespace RunnerSwarm

/-! ### The split and its failures -/

/-- What the split may raise. -/
inductive SplitError
  | keyError (name : String)
  | emptyMax
  | zeroDivision
  | overflow
  deriving DecidableEq

/-- `shares[name]`. -/
def lookupShare (shares : Table String ℤ) (name : String) : Except SplitError ℤ :=
  match shares.get name with
  | some share => .ok share
  | none => .error (.keyError name)

/-- `a / b` for ints. -/
def trueDivision (ρ : Rounding) (a b : ℤ) : Except SplitError ℚ :=
  if b = 0 then .error .zeroDivision
  else if floatOverflow ≤ |(a : ℚ) / b| then .error .overflow
  else .ok (ρ.round (a / b))

/-- The key of `max`. -/
def slotKeyRaising (ρ : Rounding) (shares : Table String ℤ) (s : Slot) : Except SplitError ℚ := do
  let share ← lookupShare shares s.name
  trueDivision ρ (s.freeCores + 1) (share + 1)

/-- One step of `max`, which keeps the first of equals. -/
def maxStep (ρ : Rounding) (shares : Table String ℤ) (best : Option (Slot × ℚ)) (s : Slot) :
    Except SplitError (Option (Slot × ℚ)) := do
  let key ← slotKeyRaising ρ shares s
  match best with
  | none => return some (s, key)
  | some (b, bestKey) => return some (if bestKey < key then (s, key) else (b, bestKey))

/-- `max(open_slots, key=…)`. -/
def maxSlot (ρ : Rounding) (shares : Table String ℤ) (openSlots : List Slot) :
    Except SplitError Slot := do
  match ← openSlots.foldlM (maxStep ρ shares) none with
  | none => throw .emptyMax
  | some best => return best.1

/-- `[s for s in open_slots if shares[s.name] < s.capacity]`. -/
def stillOpen (shares : Table String ℤ) : List Slot → Except SplitError (List Slot)
  | [] => .ok []
  | s :: rest => do
      let share ← lookupShare shares s.name
      let rest ← stillOpen shares rest
      return if share < s.capacity then s :: rest else rest

/-- The loop of `split`. -/
def splitLoopRaising (ρ : Rounding) : (fuel : ℕ) → List Slot → Table String ℤ →
    Except SplitError (Table String ℤ)
  | 0, _, shares => .ok shares
  | fuel + 1, openSlots, shares => do
      let openSlots ← stillOpen shares openSlots
      if openSlots = [] then return shares
      let best ← maxSlot ρ shares openSlots
      let share ← lookupShare shares best.name
      splitLoopRaising ρ fuel openSlots (shares.put best.name (share + 1))

/-- `{slot.name: 0 for slot in slots}`. -/
def noShares (slots : List Slot) : Table String ℤ :=
  slots.foldl (fun shares s => shares.put s.name 0) Table.empty

/-- `split`. -/
def splitRaising (ρ : Rounding) (queued : ℕ) (slots : List Slot) :
    Except SplitError (Table String ℤ) :=
  splitLoopRaising ρ queued (sortSlots slots) (noShares slots)

/-! ### The split does not raise -/

/-- The dict has the shares of the slots, and nothing else. -/
def Holds (slots : List Slot) (t : Table String ℤ) (shares : String → ℕ) : Prop :=
  ∀ name, t.get name = if name ∈ slots.map (·.name) then some (shares name : ℤ) else none

/-- The key of a slot is a float, whatever its share. -/
def Slot.Divides (s : Slot) : Prop := |(s.freeCores : ℚ)| + 1 < floatOverflow

section NoRaise

variable {ρ : Rounding} {slots openSlots : List Slot} {t : Table String ℤ} {shares : String → ℕ}

theorem Holds.lookup (h : Holds slots t shares) {s : Slot} (hs : s ∈ slots) :
    lookupShare t s.name = .ok (shares s.name : ℤ) := by
  unfold lookupShare
  rw [h, if_pos (List.mem_map_of_mem hs)]

theorem Holds.put (h : Holds slots t shares) {s : Slot} (hs : s ∈ slots) :
    Holds slots (t.put s.name (shares s.name + 1 : ℤ))
      (Function.update shares s.name (shares s.name + 1)) := by
  intro name
  rw [Table.get_put]
  by_cases hname : name = s.name
  · subst hname
    rw [if_pos rfl, if_pos (List.mem_map_of_mem hs), Function.update_self]
    rfl
  · rw [if_neg hname, h, Function.update_of_ne hname]

theorem holds_noShares (slots : List Slot) : Holds slots (noShares slots) fun _ => 0 := by
  have hfold : ∀ (l : List Slot) (t : Table String ℤ) (name : String),
      (l.foldl (fun shares s => shares.put s.name 0) t).get name =
        if name ∈ l.map (·.name) then some 0 else t.get name := by
    intro l
    induction l with
    | nil => exact fun t name => rfl
    | cons s l ih =>
      intro t name
      rw [List.foldl_cons, ih, Table.get_put, List.map_cons]
      by_cases hname : name = s.name
      · rw [if_pos hname, if_pos (List.mem_cons.2 (.inl hname)), ite_self]
      · rw [if_neg hname]
        simp only [List.mem_cons, hname, false_or]
  intro name
  unfold noShares
  rw [hfold, Table.get_empty]
  rfl

theorem trueDivision_slot {s : Slot} (hs : s.Divides) (share : ℕ) :
    trueDivision ρ (s.freeCores + 1) (share + 1) =
      .ok (ρ.round ((s.freeCores + 1 : ℤ) / (share + 1 : ℕ))) := by
  have hpos : (1 : ℚ) ≤ ((share + 1 : ℤ) : ℚ) := by
    exact_mod_cast Nat.le_add_left 1 share
  have hquotient : |((s.freeCores + 1 : ℤ) : ℚ) / ((share + 1 : ℤ) : ℚ)| < floatOverflow := by
    rw [abs_div, abs_of_pos (lt_of_lt_of_le one_pos hpos)]
    refine lt_of_le_of_lt (div_le_self (abs_nonneg _) hpos) ?_
    push_cast
    exact lt_of_le_of_lt (abs_add_le _ _) (by rw [abs_one]; exact hs)
  unfold trueDivision
  rw [if_neg (by omega), if_neg (not_le.2 hquotient)]
  push_cast
  rfl

theorem slotKeyRaising_ok (h : Holds slots t shares) {s : Slot} (hs : s ∈ slots)
    (hcores : s.Divides) : slotKeyRaising ρ t s = .ok (slotKey ρ shares s) := by
  unfold slotKeyRaising
  rw [h.lookup hs]
  exact trueDivision_slot hcores _

theorem stillOpen_ok (h : Holds slots t shares) (hopen : openSlots ⊆ slots) :
    stillOpen t openSlots = .ok (openSlots.filter fun s => shares s.name < s.capacity) := by
  induction openSlots with
  | nil => rfl
  | cons s rest ih =>
    unfold stillOpen
    rw [h.lookup (hopen List.mem_cons_self),
      ih (List.Subset.trans (List.subset_cons_self _ _) hopen)]
    show Except.ok (if (shares s.name : ℤ) < s.capacity then s :: _ else _) = _
    rw [List.filter_cons]
    simp only [decide_eq_true_eq, Nat.cast_lt]

/-- `max` finds the slot that `argmax` does. -/
theorem foldlM_maxStep (h : Holds slots t shares) (hopen : openSlots ⊆ slots)
    (hcores : ∀ s ∈ slots, s.Divides) (best : Option Slot) :
    openSlots.foldlM (maxStep ρ t) (best.map fun s => (s, slotKey ρ shares s)) =
      .ok ((openSlots.foldl (List.argAux fun b c => slotKey ρ shares c < slotKey ρ shares b)
        best).map fun s => (s, slotKey ρ shares s)) := by
  induction openSlots generalizing best with
  | nil => rfl
  | cons s rest ih =>
    have hs := hopen List.mem_cons_self
    have hstep : maxStep ρ t (best.map fun s => (s, slotKey ρ shares s)) s =
        .ok ((List.argAux (fun b c => slotKey ρ shares c < slotKey ρ shares b) best s).map
          fun s => (s, slotKey ρ shares s)) := by
      unfold maxStep
      rw [slotKeyRaising_ok h hs (hcores s hs)]
      cases best with
      | none => rfl
      | some b =>
        show Except.ok (some (if slotKey ρ shares b < slotKey ρ shares s then _ else _)) =
          Except.ok (Option.map _ (if slotKey ρ shares b < slotKey ρ shares s then some s else some b))
        split_ifs <;> rfl
    rw [List.foldlM_cons, hstep]
    exact ih (List.Subset.trans (List.subset_cons_self _ _) hopen) _

theorem maxSlot_ok (h : Holds slots t shares) (hopen : openSlots ⊆ slots)
    (hcores : ∀ s ∈ slots, s.Divides) {best : Slot}
    (hbest : openSlots.argmax (slotKey ρ shares) = some best) :
    maxSlot ρ t openSlots = .ok best := by
  have hfold := @foldlM_maxStep ρ _ _ _ _ h hopen hcores none
  have hargmax : openSlots.foldl
      (List.argAux fun b c => slotKey ρ shares c < slotKey ρ shares b) none = some best := hbest
  rw [hargmax] at hfold
  unfold maxSlot
  rw [show (none : Option (Slot × ℚ)) =
    (none : Option Slot).map fun s => (s, slotKey ρ shares s) from rfl, hfold]
  rfl

theorem splitLoopRaising_ok (h : Holds slots t shares) (hopen : openSlots ⊆ slots)
    (hcores : ∀ s ∈ slots, s.Divides) (fuel : ℕ) :
    ∃ t', splitLoopRaising ρ fuel openSlots t = .ok t' ∧
      Holds slots t' (splitLoop ρ fuel openSlots shares) := by
  induction fuel generalizing openSlots t shares with
  | zero => exact ⟨t, rfl, h⟩
  | succ fuel ih =>
    have hfilter : (openSlots.filter fun s => shares s.name < s.capacity) ⊆ slots :=
      List.Subset.trans (List.filter_subset_self _) hopen
    unfold splitLoopRaising splitLoop
    dsimp only
    rw [stillOpen_ok h hopen]
    cases hmax : (openSlots.filter fun s => shares s.name < s.capacity).argmax
        (slotKey ρ shares) with
    | none =>
      refine ⟨t, ?_, h⟩
      rw [List.argmax_eq_none.1 hmax]
      rfl
    | some best =>
      have hbest := hfilter (List.argmax_mem hmax)
      obtain ⟨t', ht', hholds⟩ := ih (h.put hbest) hfilter
      refine ⟨t', ?_, hholds⟩
      have hne : (openSlots.filter fun s => shares s.name < s.capacity) ≠ [] :=
        List.ne_nil_of_mem (List.argmax_mem hmax)
      show (if (openSlots.filter fun s => shares s.name < s.capacity) = [] then _ else _) = _
      rw [if_neg hne, maxSlot_ok h hfilter hcores hmax]
      show (lookupShare t best.name >>= _) = _
      rw [h.lookup hbest]
      exact ht'

/-- **The split does not raise**, and its dict holds the shares. -/
theorem splitRaising_ok (hcores : ∀ s ∈ slots, s.Divides) (queued : ℕ) :
    ∃ t, splitRaising ρ queued slots = .ok t ∧ Holds slots t (split ρ queued slots) :=
  splitLoopRaising_ok (holds_noShares slots) (List.perm_insertionSort _ _).subset hcores queued

/-- The sum of the values of the dict. -/
theorem Holds.sum (h : Holds slots t shares) :
    (t.rows.map Prod.snd).sum = ((∑ name ∈ (t.rows.map Prod.fst).toFinset, shares name : ℕ) : ℤ) := by
  have hrow : ∀ row ∈ t.rows, row.2 = ((shares row.1 : ℕ) : ℤ) := by
    rintro ⟨name, v⟩ hrow
    have hget := Table.get_eq_some_iff.2 hrow
    rw [h] at hget
    split_ifs at hget
    exact (Option.some.inj hget).symm
  rw [List.map_congr_left hrow, List.sum_toFinset _ t.keyed, List.map_map]
  push_cast
  rw [List.map_map]
  rfl

end NoRaise

/-! ### A history of refreshes -/

/-- One `refresh`: what the daemon measures, what the peers answer, and the clock after each. -/
structure Refresh where
  daemon : Daemon
  fetched : String → Except PyError Json
  clock : String → ℚ

/-- The body of the loop of `refresh`: whatever the fetch or the validation raises is caught. -/
def fetchPeerRaising (fetched : String → Except PyError Json) (clock : String → ℚ)
    (f : Federation) (peer : String) : Except PyError Federation :=
  let attempt : Except PyError Snapshot := do
    let data ← fetched peer
    (validateSnapshot data).mapError fun _ => .valueError
  match attempt with
  | .error _ => return { f with peers := f.peers.upsert peer {} id }
  | .ok snapshot => return { f with peers := f.peers.put peer ⟨some snapshot, clock peer⟩ }

namespace Federation

/-- `refresh`. -/
def refreshRaising (f : Federation) (own : Snapshot) (fetched : String → Except PyError Json)
    (clock : String → ℚ) : Except PyError Federation :=
  f.config.peers.foldlM (fetchPeerRaising fetched clock) { f with own := some own }

/-- `queue_input`, for the ages of a scan. -/
def queueInputRaising (f : Federation) (ρ : Rounding) (pool : String) (ages : List PyFloat)
    (now : ℚ) : Except SplitError (ℤ × Table String ℤ) := do
  let shares ← splitRaising ρ ages.length (f.slots pool now)
  let rescue := ages.countP fun age => (PyFloat.finite f.config.rescueAfterSeconds).le age
  let mine := (shares.get ((f.own.map (·.instanceName)).getD "")).getD 0
  return (if f.isHot then 0 else max mine rescue, shares)

/-- A host after its refreshes. -/
def after (ρ : Rounding) (config : FederationConfig) (history : List Refresh) : Federation :=
  history.foldl (fun f r => f.refresh (r.daemon.snapshot ρ) r.fetched r.clock) { config := config }

/-- The same, as the program. -/
def afterRaising (ρ : Rounding) (config : FederationConfig) (history : List Refresh) :
    Except PyError Federation :=
  history.foldlM (fun f r => f.refreshRaising (r.daemon.snapshot ρ) r.fetched r.clock)
    { config := config }

end Federation

/-- What a peer's answer is worth. -/
def Refresh.accepted (r : Refresh) (peer : String) : Option Snapshot :=
  match r.fetched peer with
  | .error _ => none
  | .ok data => (validateSnapshot data).toOption

/-- When a snapshot of a peer was accepted. -/
def acceptedAt (history : List Refresh) (peer : String) : List ℚ :=
  (history.filter fun r => (r.accepted peer).isSome).map fun r => r.clock peer

/-! ### No answer gets out of `refresh` -/

section History

variable {ρ : Rounding} {config : FederationConfig} {fetched : String → Except PyError Json}
  {clock : String → ℚ} {peer : String} {f g : Federation}

theorem fetchPeerRaising_ok (f : Federation) (peer : String) :
    fetchPeerRaising fetched clock f peer = .ok (Federation.fetchPeer fetched clock f peer) := by
  unfold fetchPeerRaising Federation.fetchPeer
  cases fetched peer with
  | error _ => rfl
  | ok data =>
    cases hvalid : validateSnapshot data with
    | error _ =>
      simp only [bind, Except.bind, hvalid, Except.mapError]
      rfl
    | ok _ =>
      simp only [bind, Except.bind, hvalid, Except.mapError]
      rfl

theorem foldlM_ok {α β ε : Type} {step : β → α → β} {stepM : β → α → Except ε β}
    (h : ∀ b a, stepM b a = .ok (step b a)) (l : List α) (b : β) :
    l.foldlM stepM b = .ok (l.foldl step b) := by
  induction l generalizing b with
  | nil => rfl
  | cons a l ih =>
    rw [List.foldlM_cons, h]
    exact ih _

theorem refreshRaising_ok (f : Federation) (own : Snapshot) :
    f.refreshRaising own fetched clock = .ok (f.refresh own fetched clock) :=
  foldlM_ok fetchPeerRaising_ok _ _

theorem afterRaising_ok (ρ : Rounding) (config : FederationConfig) (history : List Refresh) :
    Federation.afterRaising ρ config history = .ok (Federation.after ρ config history) := by
  have hstep : ∀ (f : Federation) (r : Refresh),
      f.refreshRaising (r.daemon.snapshot ρ) r.fetched r.clock =
        .ok (f.refresh (r.daemon.snapshot ρ) r.fetched r.clock) := fun f r =>
    refreshRaising_ok f _
  exact foldlM_ok hstep history _

/-- What a refresh keeps, its loop over the peers keeps. -/
theorem refresh_induction {P : Federation → Prop} {own : Snapshot}
    (hown : P { f with own := some own })
    (hpeer : ∀ g peer, P g → P (Federation.fetchPeer fetched clock g peer)) :
    P (f.refresh own fetched clock) := by
  have hloop : ∀ (peers : List String) (g : Federation), P g →
      P (peers.foldl (Federation.fetchPeer fetched clock) g) := by
    intro peers
    induction peers with
    | nil => exact fun g hg => hg
    | cons peer peers ih => exact fun g hg => ih _ (hpeer g peer hg)
  exact hloop _ _ hown

/-! ### The peers that stay silent -/

/-- The configuration without a peer. -/
def FederationConfig.without (config : FederationConfig) (peer : String) : FederationConfig :=
  { config with peers := config.peers.filter fun name => name ≠ peer }

/-- `g` is `f` without a peer whose last good snapshot, if any, came at one of the `times`. -/
structure Without (peer : String) (times : List ℚ) (f g : Federation) : Prop where
  config : g.config = f.config.without peer
  own : g.own = f.own
  peers : g.peers = f.peers.without peer
  view : ∀ v, f.peers.get peer = some v → v.snapshot = none ∨ v.okAt ∈ times

/-- The peer itself is fetched by `f` only. -/
theorem Without.fetch_self {times : List ℚ} (h : Without peer times f g)
    (htime : ∀ data, fetched peer = .ok data → (validateSnapshot data).toOption.isSome →
      clock peer ∈ times) :
    Without peer times (Federation.fetchPeer fetched clock f peer) g := by
  have hupsert : ∀ (new : PeerView) (change : PeerView → PeerView),
      (∀ v, (v = new ∨ ∃ w, f.peers.get peer = some w ∧ v = change w) →
        v.snapshot = none ∨ v.okAt ∈ times) →
      Without peer times { f with peers := f.peers.upsert peer new change } g := by
    intro new change hview
    refine ⟨h.config, h.own, ?_, fun v hv => hview v ?_⟩
    · rw [h.peers]
      exact (Table.without_upsert_self _ _ _ _).symm
    · rw [Table.get_upsert, if_pos rfl] at hv
      cases hget : f.peers.get peer with
      | none =>
        rw [hget] at hv
        exact .inl (Option.some.inj hv).symm
      | some w =>
        rw [hget] at hv
        exact .inr ⟨w, rfl, (Option.some.inj hv).symm⟩
  have hfailed : Without peer times { f with peers := f.peers.upsert peer {} id } g := by
    refine hupsert {} id fun v hv => ?_
    rcases hv with rfl | ⟨w, hw, hv⟩
    · exact .inl rfl
    · obtain rfl : v = w := hv
      exact h.view v hw
  unfold Federation.fetchPeer
  cases hfetch : fetched peer with
  | error _ => exact hfailed
  | ok data =>
    dsimp only
    cases hvalid : validateSnapshot data with
    | error _ => exact hfailed
    | ok snapshot =>
      have hnow : clock peer ∈ times := htime data hfetch (by rw [hvalid]; rfl)
      refine hupsert ⟨some snapshot, clock peer⟩ (fun _ => ⟨some snapshot, clock peer⟩)
        fun v hv => ?_
      rcases hv with rfl | ⟨_, -, rfl⟩
      · exact .inr hnow
      · exact .inr hnow

/-- Any other peer is fetched by both. -/
theorem Without.fetch_other {times : List ℚ} (h : Without peer times f g) {other : String}
    (hne : other ≠ peer) :
    Without peer times (Federation.fetchPeer fetched clock f other)
      (Federation.fetchPeer fetched clock g other) := by
  have hupsert : ∀ (new : PeerView) (change : PeerView → PeerView),
      Without peer times { f with peers := f.peers.upsert other new change }
        { g with peers := g.peers.upsert other new change } := by
    intro new change
    refine ⟨h.config, h.own, ?_, fun v hv => h.view v ?_⟩
    · show g.peers.upsert other new change = _
      rw [h.peers]
      exact (Table.without_upsert_of_ne hne _ _ _).symm
    · rw [Table.get_upsert, if_neg (Ne.symm hne)] at hv
      exact hv
  unfold Federation.fetchPeer
  cases fetched other with
  | error _ => exact hupsert _ _
  | ok data =>
    dsimp only
    cases validateSnapshot data with
    | error _ => exact hupsert _ _
    | ok snapshot => exact hupsert _ _

theorem Without.refresh {times : List ℚ} (h : Without peer times f g) (own : Snapshot)
    (htime : ∀ data, fetched peer = .ok data → (validateSnapshot data).toOption.isSome →
      clock peer ∈ times) :
    Without peer times (f.refresh own fetched clock) (g.refresh own fetched clock) := by
  have hloop : ∀ (peers : List String) (f g : Federation), Without peer times f g →
      Without peer times (peers.foldl (Federation.fetchPeer fetched clock) f)
        ((peers.filter fun name => name ≠ peer).foldl (Federation.fetchPeer fetched clock) g) := by
    intro peers
    induction peers with
    | nil => exact fun f g h => h
    | cons other peers ih =>
      intro f g h
      rw [List.foldl_cons, List.filter_cons]
      by_cases hother : other = peer
      · subst hother
        rw [if_neg (by simp)]
        exact ih _ _ (h.fetch_self htime)
      · rw [if_pos (decide_eq_true hother), List.foldl_cons]
        exact ih _ _ (h.fetch_other hother)
  have hpeers : g.config.peers = f.config.peers.filter fun name => name ≠ peer := by
    rw [h.config]
    rfl
  unfold Federation.refresh
  rw [hpeers]
  exact hloop f.config.peers _ _ ⟨h.config, rfl, h.peers, h.view⟩

/-- **A run with a peer and the run without it.** -/
theorem after_without (ρ : Rounding) (config : FederationConfig) (peer : String)
    (history : List Refresh) :
    Without peer (acceptedAt history peer) (Federation.after ρ config history)
      (Federation.after ρ (config.without peer) history) := by
  have hloop : ∀ (rest : List Refresh) (f g : Federation), rest ⊆ history →
      Without peer (acceptedAt history peer) f g →
      Without peer (acceptedAt history peer)
        (rest.foldl (fun f r => f.refresh (r.daemon.snapshot ρ) r.fetched r.clock) f)
        (rest.foldl (fun f r => f.refresh (r.daemon.snapshot ρ) r.fetched r.clock) g) := by
    intro rest
    induction rest with
    | nil => exact fun f g _ h => h
    | cons r rest ih =>
      intro f g hsub h
      refine ih _ _ (fun _ hr => hsub (List.mem_cons_of_mem _ hr)) (h.refresh _ ?_)
      intro data hfetch hvalid
      refine List.mem_map.2 ⟨r, List.mem_filter.2 ⟨hsub List.mem_cons_self, ?_⟩, rfl⟩
      unfold Refresh.accepted
      rw [hfetch]
      exact hvalid
  exact hloop history _ _ (List.Subset.refl _) ⟨rfl, rfl, rfl, fun _ hv => by cases hv⟩

theorem after_config (ρ : Rounding) (config : FederationConfig) (history : List Refresh) :
    (Federation.after ρ config history).config = config := by
  have hloop : ∀ (rest : List Refresh) (f : Federation), f.config = config →
      (rest.foldl (fun f r => f.refresh (r.daemon.snapshot ρ) r.fetched r.clock) f).config =
        config := by
    intro rest
    induction rest with
    | nil => exact fun f h => h
    | cons r rest ih =>
      intro f h
      refine ih _ (refresh_induction (P := fun g => g.config = config) h fun g peer hg => ?_)
      rw [fetchPeer_config, hg]
  exact hloop history _ rfl

theorem filterMap_filter_of_none {α β : Type} {φ : α → Option β} {p : α → Bool} {l : List α}
    (h : ∀ a ∈ l, p a = false → φ a = none) : (l.filter p).filterMap φ = l.filterMap φ := by
  rw [List.filterMap_filter]
  refine List.filterMap_congr fun a ha => ?_
  cases hp : p a with
  | true => rfl
  | false =>
    rw [h a ha hp]
    rfl

/-- A peer that is no longer fresh is no peer. -/
theorem Without.freshPeers {times : List ℚ} (h : Without peer times f g) {now : ℚ}
    (hstale : ∀ t ∈ times, f.config.staleAfterSeconds < now - t) :
    g.freshPeers now = f.freshPeers now := by
  unfold Federation.freshPeers
  rw [h.peers, Table.rows_without, h.own, h.config]
  refine filterMap_filter_of_none fun row hrow hpeer => ?_
  have hname : row.1 = peer := by simpa using hpeer
  have hget : f.peers.get peer = some row.2 := Table.get_eq_some_iff.2 (hname ▸ hrow)
  cases hsnapshot : row.2.snapshot with
  | none => rfl
  | some s =>
    dsimp only
    rcases h.view row.2 hget with hnone | htime
    · rw [hsnapshot] at hnone
      cases hnone
    · have hold := hstale _ htime
      exact if_neg fun hfresh => absurd hfresh.1 (not_le.2 hold)

end History

/-! ### The cores of a snapshot -/

/-- The largest finite float. -/
def maxFloat : ℚ := 2 ^ 1024 - 2 ^ 971

/-- The free cores are within the range of a float. -/
def Snapshot.FloatCores (s : Snapshot) : Prop := |(s.host.freeCores : ℚ)| ≤ maxFloat

theorem maxFloat_lt : maxFloat + 1 < floatOverflow := by
  have hpow : (1 : ℚ) < 2 ^ 970 := one_lt_pow₀ (by norm_num) (by omega)
  have hdouble : (2 : ℚ) ^ 971 = 2 * 2 ^ 970 := by rw [← pow_succ']
  unfold maxFloat floatOverflow
  rw [hdouble]
  generalize (2 : ℚ) ^ 970 = x at hpow
  generalize (2 : ℚ) ^ 1024 = y
  linarith

theorem maxCores_le : (maxCores : ℚ) ≤ maxFloat := by
  have hpow : (2 : ℚ) ^ 11 ≤ 2 ^ 971 := pow_le_pow_right₀ (by norm_num) (by omega)
  have hdouble : (2 : ℚ) ^ 971 * 2 ≤ 2 ^ 1024 := by
    rw [← pow_succ]
    exact pow_le_pow_right₀ (by norm_num) (by omega)
  have hcores : (maxCores : ℚ) ≤ 2 ^ 11 := by
    unfold maxCores
    norm_num
  unfold maxFloat
  generalize (2 : ℚ) ^ 971 = x at hpow hdouble
  generalize (2 : ℚ) ^ 1024 = y at hdouble
  linarith

theorem number_ok {value : Option Json} {low high q : ℚ} {what : String}
    (h : number value low high what = .ok q) : low ≤ q ∧ q ≤ high := by
  have hrange : ∀ x : ℚ, inRange x low high what = .ok q → low ≤ q ∧ q ≤ high := by
    intro x hx
    unfold inRange at hx
    split at hx
    · rename_i hbounds
      cases hx
      exact hbounds
    · cases hx
  unfold number at h
  split at h
  · split at h
    · exact hrange _ h
    · cases h
  · exact hrange _ h
  · cases h
  · cases h

theorem truncate_bounds {q : ℚ} {n : ℤ} (h : 0 ≤ q ∧ q ≤ n) : 0 ≤ truncate q ∧ truncate q ≤ n := by
  unfold truncate
  rw [if_pos h.1]
  exact ⟨Int.floor_nonneg.2 h.1, Int.cast_le.1 ((Int.floor_le q).trans h.2)⟩

theorem validateHost_freeCores {items : List (String × Json)} {host : HostState}
    (h : validateHost items = .ok host) : 0 ≤ host.freeCores ∧ host.freeCores ≤ maxCores := by
  unfold validateHost at h
  obtain ⟨_, -, h⟩ := bind_eq_ok h
  obtain ⟨_, -, h⟩ := bind_eq_ok h
  obtain ⟨_, -, h⟩ := bind_eq_ok h
  obtain ⟨_, -, h⟩ := bind_eq_ok h
  obtain ⟨_, -, h⟩ := bind_eq_ok h
  obtain ⟨_, -, h⟩ := bind_eq_ok h
  obtain ⟨freeCores, hfree, h⟩ := bind_eq_ok h
  cases h
  exact truncate_bounds (number_ok hfree)

/-- What a peer claims is within the range that the validation allows. -/
theorem validateSnapshot_floatCores {data : Json} {s : Snapshot}
    (h : validateSnapshot data = .ok s) : s.FloatCores := by
  have hparts : ∀ items host pools name, validateParts items host pools name = .ok s →
      0 ≤ s.host.freeCores ∧ s.host.freeCores ≤ maxCores := by
    intro items host pools name hparts
    unfold validateParts at hparts
    obtain ⟨_, -, hparts⟩ := bind_eq_ok hparts
    obtain ⟨_, -, hparts⟩ := bind_eq_ok hparts
    obtain ⟨_, hhost, hparts⟩ := bind_eq_ok hparts
    obtain ⟨_, -, hparts⟩ := bind_eq_ok hparts
    cases hparts
    exact validateHost_freeCores hhost
  have hbounds : 0 ≤ s.host.freeCores ∧ s.host.freeCores ≤ maxCores := by
    unfold validateSnapshot at h
    split at h
    · split at h
      · split at h
        · split at h
          · split at h
            · cases h
            · exact hparts _ _ _ _ h
          · cases h
        · cases h
      · cases h
    · cases h
  unfold Snapshot.FloatCores
  rw [abs_of_nonneg (by exact_mod_cast hbounds.1)]
  exact le_trans (by exact_mod_cast hbounds.2) maxCores_le

/-- All snapshots that a host holds are within the range of a float. -/
structure Federation.FloatCores (f : Federation) : Prop where
  own : ∀ s, f.own = some s → s.FloatCores
  peers : ∀ name view s, f.peers.get name = some view → view.snapshot = some s → s.FloatCores

/-- The own snapshot could be built: `free_cores` is the floor of a float, and `math.floor` raises
on an infinite one. -/
def Refresh.Built (ρ : Rounding) (r : Refresh) : Prop := (r.daemon.snapshot ρ).FloatCores

section Untrusted

variable {ρ : Rounding} {config : FederationConfig} {f : Federation} {history : List Refresh}

theorem Federation.FloatCores.fetchPeer {fetched : String → Except PyError Json}
    {clock : String → ℚ} (h : f.FloatCores) (peer : String) :
    (Federation.fetchPeer fetched clock f peer).FloatCores := by
  have hupsert : ∀ (new : PeerView) (change : PeerView → PeerView),
      (∀ s, new.snapshot = some s → s.FloatCores) →
      (∀ v s, (change v).snapshot = some s → v.snapshot = some s ∨ s.FloatCores) →
      Federation.FloatCores { f with peers := f.peers.upsert peer new change } := by
    intro new change hnew hchange
    refine ⟨h.own, fun name view s hview hs => ?_⟩
    rw [Table.get_upsert] at hview
    split_ifs at hview with hname
    · cases hget : f.peers.get peer with
      | none =>
        rw [hget] at hview
        obtain rfl : new = view := Option.some.inj hview
        exact hnew s hs
      | some v =>
        rw [hget] at hview
        obtain rfl : change v = view := Option.some.inj hview
        rcases hchange v s hs with hkept | hcores
        · exact h.peers peer v s hget hkept
        · exact hcores
    · exact h.peers name view s hview hs
  have hfailed : Federation.FloatCores { f with peers := f.peers.upsert peer {} id } :=
    hupsert {} id (fun _ hs => (Option.not_mem_none _ hs).elim) fun _ _ hs => .inl hs
  unfold Federation.fetchPeer
  split
  · exact hfailed
  · split
    · exact hfailed
    · rename_i data _ snapshot hvalid
      have hcores : ∀ s, some snapshot = some s → s.FloatCores := fun s hs =>
        Option.some.inj hs ▸ validateSnapshot_floatCores hvalid
      exact hupsert _ _ hcores fun _ s hs => .inr (hcores s hs)

theorem after_floatCores (hbuilt : ∀ r ∈ history, r.Built ρ) :
    (Federation.after ρ config history).FloatCores := by
  have hloop : ∀ (rest : List Refresh) (f : Federation), rest ⊆ history → f.FloatCores →
      (rest.foldl (fun f r => f.refresh (r.daemon.snapshot ρ) r.fetched r.clock) f).FloatCores := by
    intro rest
    induction rest with
    | nil => exact fun f _ h => h
    | cons r rest ih =>
      intro f hsub h
      refine ih _ (fun _ hr => hsub (List.mem_cons_of_mem _ hr)) ?_
      refine refresh_induction ⟨fun s hs => ?_, h.peers⟩ fun g peer hg => hg.fetchPeer peer
      rw [← Option.some.inj hs]
      exact hbuilt r (hsub List.mem_cons_self)
  exact hloop history _ (List.Subset.refl _)
    ⟨fun _ hs => (Option.not_mem_none _ hs).elim,
      fun _ _ _ hview => (Option.not_mem_none _ hview).elim⟩

theorem slotFor_freeCores {s : Snapshot} {pool : String} {maxTempC : PyFloat} {slot : Slot}
    (h : slotFor s pool maxTempC = some slot) : slot.freeCores = s.host.freeCores := by
  unfold slotFor at h
  split at h
  · cases h
  · cases h
    rfl

theorem Federation.FloatCores.slots (h : f.FloatCores) (pool : String) (now : ℚ) :
    ∀ slot ∈ f.slots pool now, slot.Divides := by
  intro slot hslot
  obtain ⟨s, hs, hslotFor⟩ := List.mem_filterMap.1 hslot
  have hcores : s.FloatCores := by
    rcases List.mem_append.1 hs with hown | hpeer
    · exact h.own s (Option.mem_toList.1 hown)
    · obtain ⟨⟨name, view⟩, hview, hfresh⟩ := List.mem_filterMap.1 hpeer
      have hget := Table.get_eq_some_iff.2 hview
      dsimp only at hfresh
      split at hfresh
      · cases hfresh
      · rename_i t hsnapshot
        split at hfresh
        · cases hfresh
          exact h.peers name view s hget hsnapshot
        · cases hfresh
  unfold Slot.Divides
  rw [slotFor_freeCores hslotFor]
  exact lt_of_le_of_lt (add_le_add_left hcores 1) maxFloat_lt

/-- `queue_input` does not raise, and its shares are the split. -/
theorem queueInputRaising_ok (h : f.FloatCores) (pool : String) (ages : List PyFloat) (now : ℚ) :
    ∃ shares, f.queueInputRaising ρ pool ages now =
        .ok ((f.queueShare ρ pool ages now : ℤ), shares) ∧
      Holds (f.slots pool now) shares (split ρ ages.length (f.slots pool now)) := by
  obtain ⟨shares, hsplit, hholds⟩ := @splitRaising_ok ρ _ (h.slots pool now) ages.length
  refine ⟨shares, ?_, hholds⟩
  have hmine : (shares.get ((f.own.map (·.instanceName)).getD "")).getD 0 =
      (split ρ ages.length (f.slots pool now) ((f.own.map (·.instanceName)).getD "") : ℤ) := by
    rw [hholds]
    split_ifs with hname
    · rfl
    · rw [split_other (fun slot hslot hslotName => hname (List.mem_map.2 ⟨slot, hslot, hslotName⟩))]
      rfl
  unfold Federation.queueInputRaising Federation.queueShare
  rw [hsplit]
  show Except.ok (_, shares) = _
  rw [hmine]
  split_ifs <;> push_cast <;> rfl

end Untrusted

/-- **Peers cannot break a host.** Whatever they answer, `refresh` and `queue_input` do not raise,
the shares are a split of the queue that gives this host no more than its own slot has room for, and
a peer without a recent good snapshot makes no difference. -/
theorem peers_cannot_break (ρ : Rounding) (config : FederationConfig) (history : List Refresh)
    (hbuilt : ∀ r ∈ history, r.Built ρ) (pool : String) (ages : List PyFloat) (now : ℚ) :
    ∃ f, Federation.afterRaising ρ config history = .ok f ∧
      (∃ shares, f.queueInputRaising ρ pool ages now =
          .ok ((f.queueShare ρ pool ages now : ℤ), shares) ∧
        (∀ row ∈ shares.rows, 0 ≤ row.2) ∧
        (shares.rows.map Prod.snd).sum ≤ ages.length ∧
        ∀ own, f.own = some own →
          (shares.get own.instanceName).getD 0 ≤ ownCapacity f pool) ∧
      ∀ peer, (∀ t ∈ acceptedAt history peer, config.staleAfterSeconds < now - t) →
        ∃ g, Federation.afterRaising ρ (config.without peer) history = .ok g ∧
          g.covers pool now = f.covers pool now ∧
          g.queueInputRaising ρ pool ages now = f.queueInputRaising ρ pool ages now := by
  refine ⟨_, afterRaising_ok ρ config history, ?_, fun peer hstale => ?_⟩
  · have hfloat : (Federation.after ρ config history).FloatCores := after_floatCores hbuilt
    obtain ⟨shares, hqueue, hholds⟩ := @queueInputRaising_ok ρ _ hfloat pool ages now
    refine ⟨shares, hqueue, fun row hrow => ?_, ?_, fun own hown => ?_⟩
    · have hget := Table.get_eq_some_iff.2 hrow
      rw [hholds] at hget
      split_ifs at hget
      rw [← Option.some.inj hget]
      exact Int.natCast_nonneg _
    · rw [hholds.sum]
      exact_mod_cast split_sum_le _ _
    · rw [hholds]
      split_ifs
      · exact Int.ofNat_le.2 (share_le hown _)
      · exact Int.natCast_nonneg _
  · have hwithout := after_without ρ config peer history
    have hconfig : (Federation.after ρ config history).config = config :=
      after_config ρ config history
    have hfresh := @Without.freshPeers peer _ _ _ hwithout now (by
      rw [hconfig]
      exact hstale)
    refine ⟨_, afterRaising_ok ρ _ history, ?_, ?_⟩
    · unfold Federation.covers
      rw [hfresh, hwithout.own, hwithout.config]
      rfl
    · unfold Federation.queueInputRaising Federation.slots Federation.isHot
      rw [hfresh, hwithout.own, hwithout.config]
      rfl

/-- The host `a` with two peers: one claims to be `a` itself, the other answers nonsense. -/
def claimedName : List Refresh :=
  [{ daemon := hostWith "a" 3
     fetched := fun peer =>
      if peer = "b" then fetchSnapshot ((hostWith "a" 9).snapshot .exact).jsonify
      else .ok (.list [.float .nan])
     clock := fun _ => 1 }]

theorem hostWith_floatCores (instanceName : String) (n : ℤ) :
    ((hostWith instanceName n).snapshot .exact).FloatCores := by
  have hbounds : 0 ≤ (hostWith instanceName n).metrics.freeCores .exact ∧
      (hostWith instanceName n).metrics.freeCores .exact ≤ (hostWith instanceName n).metrics.cores :=
    freeCores_bounds ⟨by show (0 : ℤ) ≤ 8; decide, by show (8 : ℤ) ≤ 1024; decide⟩
      (by show (0 : ℤ) ≤ 8; decide) (by show (0 : ℚ) ≤ 2; norm_num)
  have hcores : (hostWith instanceName n).metrics.cores ≤ maxCores := by
    show (8 : ℤ) ≤ 1024
    decide
  show |(((hostWith instanceName n).metrics.freeCores .exact : ℤ) : ℚ)| ≤ maxFloat
  rw [abs_of_nonneg (by exact_mod_cast hbounds.1)]
  exact le_trans (by exact_mod_cast hbounds.2.trans hcores) maxCores_le

theorem peers_cannot_break_claimed :
    ∃ f, Federation.afterRaising .exact { peers := ["b", "c"] } claimedName = .ok f ∧
      (∃ shares, f.queueInputRaising .exact "ci" [.finite 5, .posInf] 2 =
          .ok ((f.queueShare .exact "ci" [.finite 5, .posInf] 2 : ℤ), shares) ∧
        (∀ row ∈ shares.rows, 0 ≤ row.2) ∧ (shares.rows.map Prod.snd).sum ≤ 2 ∧
        ∀ own, f.own = some own →
          (shares.get own.instanceName).getD 0 ≤ ownCapacity f "ci") ∧
      ∃ g, Federation.afterRaising .exact
          (FederationConfig.without { peers := ["b", "c"] } "c") claimedName = .ok g ∧
        g.covers "ci" 2 = f.covers "ci" 2 ∧
        g.queueInputRaising .exact "ci" [.finite 5, .posInf] 2 =
          f.queueInputRaising .exact "ci" [.finite 5, .posInf] 2 := by
  have hbuilt : ∀ r ∈ claimedName, r.Built .exact := fun r hr => by
    rw [List.mem_singleton.1 hr]
    exact hostWith_floatCores "a" 3
  obtain ⟨f, hf, hshares, hstale⟩ := peers_cannot_break .exact { peers := ["b", "c"] } claimedName
    hbuilt "ci" [.finite 5, .posInf] 2
  refine ⟨f, hf, hshares, hstale "c" fun t ht => ?_⟩
  have hnone : acceptedAt claimedName "c" = [] := rfl
  rw [hnone] at ht
  exact (List.not_mem_nil ht).elim

end RunnerSwarm
