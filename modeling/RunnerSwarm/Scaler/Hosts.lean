import RunnerSwarm.Config.Identity
import RunnerSwarm.Docker.Client
import RunnerSwarm.Federation.Validation
import RunnerSwarm.Lib.Text

/-!
# Two hosts that serve the same pools

The `instance` setting goes into the names of a host's runners, so that neither of two hosts counts
or deregisters the other's runners as its own. It is a field that only `config.yml` sets: every
pool that comes from there carries it, overridden or derived for a repository as well, but a pool
that was created through the API is built without it.

* `instance_cases` says which pools of a host carry its setting;
* `hostsApart_iff`: the names of two hosts are apart exactly when, of any two of their pools, both
  carry a setting or neither of the texts `[instance-]name-` begins the other;
* `not_hostsApart`: two hosts on which a pool of one name was created.
-/

namespace RunnerSwarm

/-- An orchestrator that has started with an `instance` setting. Its pools of `config.yml` carry
the setting and have passed `validate_pools`. -/
structure Orchestrator where
  «instance» : String
  resolver : ConfigResolver
  database : Option Database
  carried : ∀ p ∈ resolver.basePools, p.instance = «instance»
  valid : validationErrors resolver.basePools = .ok []
  named : «instance» ≠ ""

namespace Orchestrator

def resolve (o : Orchestrator) : Except PyError EffectiveConfig :=
  match o.database with
  | none => .ok o.resolver.resolveWithoutStore
  | some db => o.resolver.resolve db

/-- A pool of the effective configuration, or one that `_tick_personal` derives from it. -/
def Serves (o : Orchestrator) (p : PoolConfig) : Prop :=
  ∃ e, o.resolve = .ok e ∧
    (p ∈ e.pools ∨ ∃ q ∈ e.pools, q.isPersonalLevel ∧ ∃ repo, p = q.forRepository repo)

end Orchestrator

/-- No name that `p` gives a runner begins like those of `q`. -/
def NamesApart (p q : PoolConfig) : Prop :=
  ∀ name, p.Spawns name → startsWith name (q.containerPrefix ++ "-") = false

/-- **The names of two hosts are apart.** -/
def HostsApart (o o' : Orchestrator) : Prop :=
  ∀ p q, o.Serves p → o'.Serves q → NamesApart p q ∧ NamesApart q p

/-! ### Names -/

namespace PoolConfig

/-- What follows `gh-runner-` in the names of a pool, up to the last dash. -/
def stem (p : PoolConfig) : List Char :=
  (if p.instance ≠ "" then p.instance.toList ++ ['-'] else []) ++ p.safeName.toList ++ ['-']

theorem containerPrefix_toList (p : PoolConfig) :
    p.containerPrefix.toList ++ ['-'] = "gh-runner-".toList ++ p.stem := by
  unfold containerPrefix stem
  split_ifs
  · simp only [String.toList_append, List.append_assoc]
    rfl
  · simp only [String.toList_append, List.append_assoc, List.nil_append]

/-- Eight digits. -/
def sampleUid : List Char := List.replicate 8 '0'

/-- A pool can give a name with these digits. -/
theorem spawns_sampleUid (p : PoolConfig) :
    p.Spawns (String.ofList (p.containerPrefix.toList ++ '-' :: sampleUid)) := by
  refine ⟨sampleUid, rfl, fun c hc => ?_, String.toList_ofList⟩
  rw [List.eq_of_mem_replicate hc]
  rfl

/-- A name of `p` begins like those of `q` when the stem of `q` begins that of `p`. -/
theorem startsWith_iff {p q : PoolConfig} {name : String} (h : p.Spawns name) :
    startsWith name (q.containerPrefix ++ "-") = true ↔ q.stem <+: p.stem := by
  obtain ⟨uid, -, hhex, hname⟩ := h
  have hq : (q.containerPrefix ++ "-").toList = q.containerPrefix.toList ++ ['-'] :=
    String.toList_append
  unfold startsWith
  rw [List.isPrefixOf_iff_prefix, hname, hq, prefix_sep_iff (dash_not_hex hhex),
    containerPrefix_toList, containerPrefix_toList, List.prefix_append_right_inj]

end PoolConfig

theorem namesApart_iff {p q : PoolConfig} : NamesApart p q ↔ ¬ q.stem <+: p.stem := by
  constructor
  · intro h hstem
    have hname := h _ p.spawns_sampleUid
    rw [(PoolConfig.startsWith_iff p.spawns_sampleUid).2 hstem] at hname
    cases hname
  · intro h name hname
    exact Bool.eq_false_iff.2 fun hstart => h ((PoolConfig.startsWith_iff hname).1 hstart)

/-- Two pools that carry different settings have names apart. -/
theorem stem_of_instances {p q : PoolConfig} (hp : isLowerAlnum p.instance = true)
    (hq : isLowerAlnum q.instance = true) (hne : p.instance ≠ q.instance) :
    ¬ q.stem <+: p.stem := by
  rintro ⟨rest, hrest⟩
  have hdash : ∀ s : String, isLowerAlnum s = true → s ≠ "" ∧ '-' ∉ s.toList := by
    intro s hs
    unfold isLowerAlnum at hs
    rw [Bool.and_eq_true, List.all_eq_true, decide_eq_true_eq] at hs
    exact ⟨hs.1, fun hmem => absurd (hs.2 '-' hmem) (by decide)⟩
  obtain ⟨hpne, hpdash⟩ := hdash _ hp
  obtain ⟨hqne, hqdash⟩ := hdash _ hq
  unfold PoolConfig.stem at hrest
  rw [if_pos hpne, if_pos hqne] at hrest
  simp only [List.append_assoc, List.singleton_append] at hrest
  exact hne (String.toList_inj.1 (sep_inj hqdash hpdash hrest).1).symm

/-! ### The pools of a host -/

namespace Orchestrator

variable {o o' : Orchestrator} {p q : PoolConfig}

/-- The pools of the effective configuration carry the host's setting, or were created through the
API and carry none. -/
theorem instance_of_mem {e : EffectiveConfig} (h : o.resolve = .ok e) (hp : p ∈ e.pools) :
    (p.instance = o.instance ∧ isLowerAlnum p.instance = true) ∨ p.instance = "" := by
  have hbase : ∀ b ∈ o.resolver.basePools, b.instance = o.instance ∧
      isLowerAlnum b.instance = true := by
    intro b hb
    have hb' := o.carried b hb
    rcases poolErrors_nil_instance (validationErrors_nil o.valid b hb) with hempty | hvalid
    · exact absurd (hb'.symm.trans hempty) o.named
    · exact ⟨hb', hvalid⟩
  unfold resolve at h
  cases hdb : o.database with
  | none =>
    rw [hdb] at h
    obtain rfl := Except.ok.inj h
    exact Or.inl (hbase p hp)
  | some db =>
    rw [hdb] at h
    rcases resolve_origin h hp with ⟨b, hb, hsame⟩ | hcreated
    · -- a pool of `config.yml`, whose overrides are other fields
      rw [hsame.instance]
      exact Or.inl (hbase b hb)
    · -- a created pool starts from the defaults
      exact Or.inr hcreated.instance

/-- **Which pools carry the setting.** -/
theorem instance_cases (h : o.Serves p) :
    (p.instance = o.instance ∧ isLowerAlnum p.instance = true) ∨ p.instance = "" := by
  obtain ⟨e, he, hp | ⟨q, hq, -, repo, rfl⟩⟩ := h
  · exact instance_of_mem he hp
  · -- a derived pool is a copy with another name
    have hbase := instance_of_mem he hq
    exact hbase

/-- **When the names of two hosts are apart.** -/
theorem hostsApart_iff (o o' : Orchestrator) (hne : o.instance ≠ o'.instance) :
    HostsApart o o' ↔ ∀ p q, o.Serves p → o'.Serves q →
      (p.instance ≠ "" ∧ q.instance ≠ "") ∨ (¬ p.stem <+: q.stem ∧ ¬ q.stem <+: p.stem) := by
  constructor
  · intro h p q hp hq
    obtain ⟨hpq, hqp⟩ := h p q hp hq
    exact Or.inr ⟨namesApart_iff.1 hqp, namesApart_iff.1 hpq⟩
  · intro h p q hp hq
    rcases h p q hp hq with ⟨hpne, hqne⟩ | ⟨hpq, hqp⟩
    · -- neither setting contains a dash, so the longer stem differs before its first one ends
      obtain ⟨hpo, hpvalid⟩ := (instance_cases hp).resolve_right hpne
      obtain ⟨hqo, hqvalid⟩ := (instance_cases hq).resolve_right hqne
      have hdiffer : p.instance ≠ q.instance := by rwa [hpo, hqo]
      exact ⟨namesApart_iff.2 (stem_of_instances hpvalid hqvalid hdiffer),
        namesApart_iff.2 (stem_of_instances hqvalid hpvalid hdiffer.symm)⟩
    · exact ⟨namesApart_iff.2 hqp, namesApart_iff.2 hpq⟩

end Orchestrator

/-! ### A pool that is created on both hosts -/

/-- The pool of `config.yml` on a host. -/
def mainPool (setting : String) : PoolConfig :=
  { name := "main", pat := "token", owner := "acme", «instance» := setting }

/-- A host with that pool. -/
def sampleHost (setting : String) (database : Option Database) (hne : setting ≠ "")
    (hvalid : validationErrors [mainPool setting] = .ok []) : Orchestrator where
  «instance» := setting
  resolver := ⟨[mainPool setting], 0, 0, fun _ => .ok "token"⟩
  database := database
  carried := fun p hp => by rw [List.mem_singleton.1 hp]; rfl
  valid := hvalid
  named := hne

theorem mainPool_valid : validationErrors [mainPool "pve1"] = .ok [] ∧
    validationErrors [mainPool "pve3"] = .ok [] := by decide +kernel

/-- The database after a pool `ci` was created through the API. -/
def ciDatabase : Database where
  poolOverrides := Table.empty.put "ci" ⟨.value (.dict [("owner", .str "acme")]), "ui", false⟩
  globalOverrides := Table.empty
  poolState := Table.empty
  protectedContainers := []

/-- The created pool, without a setting. -/
def ciPool : PoolConfig := { name := "ci", pat := "token", owner := "acme" }

/-- Both pools are in the effective configuration, whatever the host's setting is. -/
theorem resolve_ciDatabase (setting : String) (hne : setting ≠ "")
    (hvalid : validationErrors [mainPool setting] = .ok []) :
    (sampleHost setting (some ciDatabase) hne hvalid).resolve =
      .ok ⟨[mainPool setting, ciPool], 0, 0, false, Table.empty, []⟩ := rfl

theorem serves_ciPool {setting : String} (hne : setting ≠ "")
    (hvalid : validationErrors [mainPool setting] = .ok []) :
    (sampleHost setting (some ciDatabase) hne hvalid).Serves ciPool :=
  ⟨_, resolve_ciDatabase setting hne hvalid, Or.inl (by simp)⟩

/-- **Both hosts give the same names to the runners of the created pool.** -/
theorem not_hostsApart :
    ¬ ∀ o o' : Orchestrator, o.instance ≠ o'.instance → HostsApart o o' := by
  intro h
  have hapart := h (sampleHost "pve1" (some ciDatabase) (by decide) mainPool_valid.1)
    (sampleHost "pve3" (some ciDatabase) (by decide) mainPool_valid.2)
    (by decide : ("pve1" : String) ≠ "pve3")
  have hsame := (hapart ciPool ciPool (serves_ciPool _ _) (serves_ciPool _ _)).1
  exact namesApart_iff.1 hsame List.prefix_rfl

/-- Two hosts without created pools. -/
theorem hostsApart_iff_main : HostsApart
    (sampleHost "pve1" none (by decide) mainPool_valid.1)
    (sampleHost "pve3" none (by decide) mainPool_valid.2) := by
  have hcarried : ∀ setting hne hvalid p,
      (sampleHost setting none hne hvalid).Serves p → p.instance ≠ "" := by
    rintro setting hne hvalid p ⟨e, he, hp⟩
    obtain rfl := Except.ok.inj he
    rcases hp with hp | ⟨q, hq, -, repo, rfl⟩
    · rw [List.mem_singleton.1 hp]
      exact hne
    · rw [List.mem_singleton.1 hq]
      exact hne
  exact (Orchestrator.hostsApart_iff _ _ (by decide : ("pve1" : String) ≠ "pve3")).2
    fun p q hp hq => Or.inl ⟨hcarried _ _ _ p hp, hcarried _ _ _ q hq⟩

end RunnerSwarm
