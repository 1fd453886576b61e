import RunnerSwarm.Config.Fallbacks

/-!
# What an override cannot change

A row is laid over a pool of `config.yml` by its tunable fields only. The fields that say which pool
it is, where its runners register and with which secret keep the values of `config.yml`, whatever
the row holds.

* `SameIdentity`: two pools agree in those fields;
* `resolve_keepsIdentity`: every effective configuration keeps them, pool by pool;
* `resolve_origin`: the pools it adds have the defaults there.
-/

namespace RunnerSwarm

/-- The fields that only `config.yml` sets. -/
structure SameIdentity (base p : PoolConfig) : Prop extends SameFixed base p where
  repo : p.repo = base.repo
  scope : p.scope = base.scope

/-- A created pool has the defaults in the fields that a definition cannot hold. -/
structure CreatedIdentity (p : PoolConfig) : Prop where
  «instance» : p.instance = ""
  provider : p.provider = "github"
  baseUrl : p.baseUrl = ""

/-- The pools of `config.yml`, but for the disabled ones, with other tunable fields, and pools of
other names. -/
def KeepsIdentity (bases pools : List PoolConfig) : Prop :=
  ∃ kept overlaid created, kept.Sublist bases ∧ List.Forall₂ SameIdentity kept overlaid ∧
    pools = overlaid ++ created ∧ ∀ p ∈ created, p.name ∉ bases.map (·.name)

theorem SameIdentity.refl (p : PoolConfig) : SameIdentity p p :=
  ⟨⟨rfl, rfl, rfl, rfl, rfl, rfl, rfl⟩, rfl, rfl⟩

/-- A tunable field is neither the repository nor the scope. -/
theorem repo_scope_set {field : String × FieldValue} (h : field.1 ∈ tunableFields)
    (p : PoolConfig) : (p.set field).repo = p.repo ∧ (p.set field).scope = p.scope := by
  have hrepo : "repo" ∉ tunableFields := by decide
  have hscope : "scope" ∉ tunableFields := by decide
  unfold PoolConfig.set
  split
  · exact absurd h hrepo
  · exact absurd h hscope
  all_goals exact ⟨rfl, rfl⟩

theorem sameIdentity_foldl {fields : List (String × FieldValue)}
    (h : ∀ field ∈ fields, field.1 ∈ tunableFields) (p : PoolConfig) :
    SameIdentity p (fields.foldl PoolConfig.set p) := by
  induction fields generalizing p with
  | nil => exact .refl p
  | cons field fields ih =>
    obtain ⟨hrepo, hscope⟩ := repo_scope_set (h field (.head fields)) p
    have hrest := ih (fun f hf => h f (.tail field hf)) (p.set field)
    exact ⟨sameFixed_foldl (field :: fields) p, hrest.repo.trans hrepo, hrest.scope.trans hscope⟩

theorem applyOverride_identity {base pool : PoolConfig} {data : Json}
    (h : applyOverride base data = .ok pool) : SameIdentity base pool := by
  cases data with
  | dict kvs =>
    obtain ⟨fields, -, h⟩ := bind_eq_ok h
    obtain rfl := Except.ok.inj h
    exact sameIdentity_foldl (fun f hf => of_decide_eq_true (List.mem_filter.1 hf).2) base
  | _ => cases h

/-- One pool of `config.yml`: it is kept with its identity, or disabled. -/
theorem resolveOne_identity {base : PoolConfig} {entry : Option OverrideEntry}
    {own : List PoolConfig} (h : resolveOne base entry = .ok own) :
    own = [] ∨ ∃ pool, own = [pool] ∧ SameIdentity base pool := by
  cases entry with
  | none =>
    obtain rfl := Except.ok.inj h
    exact .inr ⟨base, rfl, .refl base⟩
  | some entry =>
    unfold resolveOne at h
    dsimp only at h
    split_ifs at h
    · exact .inl (Except.ok.inj h).symm
    · obtain ⟨pool, hpool⟩ := map_ok_iff.1 ⟨own, h⟩
      rw [hpool] at h
      obtain rfl := Except.ok.inj h
      exact .inr ⟨pool, rfl, applyOverride_identity hpool⟩

theorem resolveBase_identity {bases ps : List PoolConfig} {os left : List (String × OverrideEntry)}
    (h : resolveBase bases os = .ok (ps, left)) :
    ∃ kept, kept.Sublist bases ∧ List.Forall₂ SameIdentity kept ps := by
  induction bases generalizing os ps with
  | nil =>
    cases h
    exact ⟨[], .slnil, .nil⟩
  | cons base rest ih =>
    obtain ⟨own, hown, h⟩ := bind_eq_ok h
    obtain ⟨⟨pools, left'⟩, hrest, h⟩ := bind_eq_ok h
    cases h
    obtain ⟨kept, hsub, hkept⟩ := ih hrest
    rcases resolveOne_identity hown with rfl | ⟨pool, rfl, hpool⟩
    · exact ⟨kept, hsub.cons base, hkept⟩
    · exact ⟨base :: kept, hsub.cons_cons base, .cons hpool hkept⟩

section Resolve

variable {r : ConfigResolver} {db : Database} {e : EffectiveConfig}

/-- A created pool has a name of its own. -/
theorem resolveCreated_identity {pools created : List PoolConfig}
    {os left : List (String × OverrideEntry)} {environ : String → Except PyError String}
    {bases : List PoolConfig} (hbase : resolveBase bases os = .ok (pools, left))
    (hcreated : resolveCreated environ left = .ok created) :
    ∀ p ∈ created, p.name ∉ bases.map (·.name) ∧ CreatedIdentity p := by
  intro p hp
  obtain ⟨entry, hmem, hentry⟩ := resolveCreated_entry hcreated hp
  rw [resolveBase_left hbase] at hmem
  refine ⟨of_decide_eq_true (List.mem_filter.1 hmem).2, ?_⟩
  unfold resolveEntry at hentry
  split_ifs at hentry
  · cases hentry
  · obtain ⟨pat, owner, fields, -, hbuilt⟩ := buildUiPool_foldl hentry
    have hfixed := sameFixed_foldl fields { name := p.name, pat := pat, owner := owner }
    rw [hbuilt]
    exact ⟨hfixed.instance, hfixed.provider, hfixed.baseUrl⟩

/-- **No row changes the identity** of a pool of `config.yml`. -/
theorem resolve_keepsIdentity (h : r.resolve db = .ok e) : KeepsIdentity r.basePools e.pools := by
  obtain ⟨pools, left, created, -, hbase, hcreated, hpools, -⟩ := resolve_inv h
  obtain ⟨kept, hsub, hkept⟩ := resolveBase_identity hbase
  exact ⟨kept, pools, created, hsub, hkept, hpools,
    fun p hp => (resolveCreated_identity hbase hcreated p hp).1⟩

/-- **Where the pools come from**: from `config.yml`, or they were created. -/
theorem resolve_origin (h : r.resolve db = .ok e) {p : PoolConfig} (hp : p ∈ e.pools) :
    (∃ base ∈ r.basePools, SameIdentity base p) ∨ CreatedIdentity p := by
  obtain ⟨pools, left, created, -, hbase, hcreated, hpools, -⟩ := resolve_inv h
  rw [hpools] at hp
  rcases List.mem_append.1 hp with hp | hp
  · obtain ⟨kept, hsub, hkept⟩ := resolveBase_identity hbase
    obtain ⟨base, hmem, hsame⟩ := exists_mem_of_forall₂ hkept hp
    exact .inl ⟨base, hsub.subset hmem, hsame⟩
  · exact .inr (resolveCreated_identity hbase hcreated p hp).2

end Resolve

end RunnerSwarm
