import DiamondBot.Token.ModuleManager
import DiamondBot.Library.OrderedIndex

/-!
# The registered modules and the list of their names

Two collections are kept in step: the stored modules and the list of their
keys. The first part shows that the list is an ordered index of the map in
every run. The second part compares the key of a module with the name inside
its record, which an update may change.
-/

set_option autoImplicit false

namespace DiamondBot.ModuleManager
open NearRuntime Library Library.OrderedIndex

/-- What an accepted call does to the modules and their keys. -/
inductive Effect (m : ModuleManager) : Op → ModuleManager → Prop
  | added (newModule : Module) (fresh : newModule.name ∉ m.modules) :
      Effect m (.addModule newModule) { m with
        moduleKeys := m.moduleKeys++[newModule.name]
        modules := m.modules.insert newModule.name newModule }
  | updated (name : String) (updatedModule : Module) (stored : name ∈ m.modules) :
      Effect m (.updateModule name updatedModule)
        { m with modules := m.modules.insert name updatedModule }
  | statusSet (name : String) (status : ModuleStatus) (time : ℕ) (stored : Module)
      (found : m.modules.lookup name = some stored) :
      Effect m (.updateModuleStatus name status) { m with
        modules := m.modules.insert name { stored with
          status
          lastUpdated := time } }
  | removed (name : String) :
      Effect m (.removeModule name) { m with
        modules := m.modules.erase name
        moduleKeys := m.moduleKeys.filter fun key => key ≠ name }
  | kept (op : Op) (m' : ModuleManager) (modules : m'.modules = m.modules)
      (keys : m'.moduleKeys = m.moduleKeys)
      (notAdded : ∀ x, op = .addModule x → x.name ∈ m.modules)
      (notUpdated : ∀ name x, op = .updateModule name x → name ∉ m.modules) :
      Effect m op m'

theorem addModule_ok {m : ModuleManager} {env : Env} {x : Module} {r : ModuleManager × Bool}
    (h : m.addModule env x = .ok r) :
    x.name ∈ m.modules ∧ r = (m,false) ∨ x.name ∉ m.modules ∧ r = ({ m with
      moduleKeys := m.moduleKeys++[x.name]
      modules := m.modules.insert x.name x },true) := by
  obtain ⟨_,_,h⟩ := Checked.bind_ok.mp h
  split at h
  · cases h
    exact Or.inl ⟨AList.lookup_isSome.mp ‹_›,rfl⟩
  · cases h
    exact Or.inr ⟨fun hmem => absurd (AList.lookup_isSome.mpr hmem) ‹_›,rfl⟩

theorem isNone_lookup {m : ModuleManager} {name : String} :
    (m.modules.lookup name).isNone ↔ name ∉ m.modules := by
  rw [Option.isNone_iff_eq_none,AList.lookup_eq_none]

theorem updateModule_ok {m : ModuleManager} {env : Env} {name : String} {x : Module}
    {r : ModuleManager × Bool} (h : m.updateModule env name x = .ok r) :
    name ∉ m.modules ∧ r = (m,false) ∨
      name ∈ m.modules ∧ r = ({ m with modules := m.modules.insert name x },true) := by
  obtain ⟨_,_,h⟩ := Checked.bind_ok.mp h
  split at h
  · cases h
    exact Or.inl ⟨isNone_lookup.mp ‹_›,rfl⟩
  · cases h
    exact Or.inr ⟨not_not.mp fun hmem => absurd (isNone_lookup.mpr hmem) ‹_›,rfl⟩

theorem updateModuleStatus_effect {m : ModuleManager} {env : Env} {name : String}
    {status : ModuleStatus} {r : ModuleManager × Bool}
    (h : m.updateModuleStatus env name status = .ok r) :
    Effect m (.updateModuleStatus name status) r.1 := by
  obtain ⟨_,_,h⟩ := Checked.bind_ok.mp h
  cases hlookup : m.modules.lookup name with
  | some stored =>
    rw [hlookup] at h
    cases h
    exact .statusSet _ _ _ _ hlookup
  | none =>
    rw [hlookup] at h
    cases h
    exact .kept _ _ rfl rfl (by simp) (by simp)

theorem removeModule_effect {m : ModuleManager} {env : Env} {name : String}
    {r : ModuleManager × Bool} (h : m.removeModule env name = .ok r) :
    Effect m (.removeModule name) r.1 := by
  obtain ⟨_,_,h⟩ := Checked.bind_ok.mp h
  split at h
  · cases h
    exact .kept _ _ rfl rfl (by simp) (by simp)
  · cases h
    exact .removed _

theorem revokeCaller_modules {m : ModuleManager} {env : Env} {contractId : AccountId}
    {permissions : Option (List String)} {r : ModuleManager × Bool}
    (h : m.revokeCaller env contractId permissions = .ok r) :
    r.1.modules = m.modules ∧ r.1.moduleKeys = m.moduleKeys := by
  obtain ⟨_,_,h⟩ := Checked.bind_ok.mp h
  split at h
  · split at h
    · cases h
      exact ⟨rfl,rfl⟩
    · cases h
      exact ⟨rfl,rfl⟩
  · cases h
    exact ⟨rfl,rfl⟩

theorem addAdmin_modules {m : ModuleManager} {env : Env} {adminId : AccountId}
    {r : ModuleManager × Bool} (h : m.addAdmin env adminId = .ok r) :
    r.1.modules = m.modules ∧ r.1.moduleKeys = m.moduleKeys := by
  obtain ⟨_,_,h⟩ := Checked.bind_ok.mp h
  split at h
  · cases h
    exact ⟨rfl,rfl⟩
  · cases h
    exact ⟨rfl,rfl⟩

theorem step_effect {m m' : ModuleManager} {c : Call} (h : step m c = .ok m') :
    Effect m c.op m' := by
  obtain ⟨env,op⟩ := c
  cases op with
  | addModule x =>
    obtain ⟨r,hr,rfl⟩ := Checked.map_ok.mp h
    rcases addModule_ok hr with ⟨hmem,rfl⟩ | ⟨hfresh,rfl⟩
    · exact .kept _ _ rfl rfl (by rintro y ⟨⟩; exact hmem) (by simp)
    · exact .added _ hfresh
  | updateModule name x =>
    obtain ⟨r,hr,rfl⟩ := Checked.map_ok.mp h
    rcases updateModule_ok hr with ⟨hmem,rfl⟩ | ⟨hmem,rfl⟩
    · exact .kept _ _ rfl rfl (by simp) (by rintro n y ⟨⟩; exact hmem)
    · exact .updated _ _ hmem
  | updateModuleStatus name status =>
    obtain ⟨r,hr,rfl⟩ := Checked.map_ok.mp h
    exact updateModuleStatus_effect hr
  | removeModule name =>
    obtain ⟨r,hr,rfl⟩ := Checked.map_ok.mp h
    exact removeModule_effect hr
  | authorizeCaller contractId permissions =>
    obtain ⟨r,hr,rfl⟩ := Checked.map_ok.mp h
    obtain ⟨_,_,hr⟩ := Checked.bind_ok.mp hr
    cases hr
    exact .kept _ _ rfl rfl (by simp) (by simp)
  | revokeCaller contractId permissions =>
    obtain ⟨r,hr,rfl⟩ := Checked.map_ok.mp h
    obtain ⟨hmodules,hkeys⟩ := revokeCaller_modules hr
    exact .kept _ _ hmodules hkeys (by simp) (by simp)
  | addAdmin adminId =>
    obtain ⟨r,hr,rfl⟩ := Checked.map_ok.mp h
    obtain ⟨hmodules,hkeys⟩ := addAdmin_modules hr
    exact .kept _ _ hmodules hkeys (by simp) (by simp)
  | removeAdmin adminId =>
    obtain ⟨r,hr,rfl⟩ := Checked.map_ok.mp h
    obtain ⟨_,_,hr⟩ := Checked.bind_ok.mp hr
    obtain ⟨_,_,hr⟩ := Checked.bind_ok.mp hr
    cases hr
    exact .kept _ _ rfl rfl (by simp) (by simp)
  | transferOwnership newOwnerId =>
    obtain ⟨_,_,h⟩ := Checked.bind_ok.mp h
    cases h
    exact .kept _ _ rfl rfl (by simp) (by simp)

/-! ## The list indexes the map -/

def insertedBy (m : ModuleManager) (c : Call) : List String :=
  match c.op with
  | .addModule x =>
    match m.addModule c.env x with
    | .ok (_,true) => [x.name]
    | _ => []
  | _ => []

def insertions : ModuleManager → List Call → List String
  | _, [] => []
  | m, c::calls => m.insertedBy c++insertions (m.next c) calls

theorem addModule_indexes {log : List String} {m : ModuleManager} {env : Env} {x : Module}
    (h : Indexes log m.moduleKeys m.modules) :
    Indexes (log++m.insertedBy ⟨env,.addModule x⟩) (m.next ⟨env,.addModule x⟩).moduleKeys
      (m.next ⟨env,.addModule x⟩).modules := by
  cases hr : m.addModule env x with
  | error e =>
    have hnext : m.next ⟨env,.addModule x⟩ = m := by
      apply AtomicRun.settle_error
      simp only [step,hr]
      rfl
    simpa only [hnext,insertedBy,hr,List.append_nil] using h
  | ok r =>
    have hnext : m.next ⟨env,.addModule x⟩ = r.1 := by
      apply AtomicRun.settle_ok
      simp only [step,hr]
      rfl
    rcases addModule_ok hr with ⟨_,rfl⟩ | ⟨hfresh,rfl⟩
    · simpa only [hnext,insertedBy,hr,List.append_nil] using h
    · simpa only [hnext,insertedBy,hr] using indexes_push h hfresh x

theorem effect_indexes {log : List String} {m m' : ModuleManager} {op : Op}
    (h : Indexes log m.moduleKeys m.modules) (he : Effect m op m')
    (hop : ∀ x, op ≠ .addModule x) : Indexes log m'.moduleKeys m'.modules := by
  cases he with
  | added x _ => exact absurd rfl (hop x)
  | updated name x stored => exact indexes_overwrite h stored x
  | statusSet name status time stored found =>
    exact indexes_overwrite h (AList.lookup_isSome.mp (Option.isSome_of_eq_some found)) _
  | removed name => exact indexes_erase h name
  | kept op m' modules keys _ _ => rwa [modules,keys]

theorem insertedBy_other {m : ModuleManager} {c : Call} (hop : ∀ x, c.op ≠ .addModule x) :
    m.insertedBy c = [] := by
  unfold insertedBy
  split
  · rename_i x hx
    exact absurd hx (hop x)
  · rfl

theorem next_indexes {log : List String} {m : ModuleManager} (c : Call)
    (h : Indexes log m.moduleKeys m.modules) :
    Indexes (log++m.insertedBy c) (m.next c).moduleKeys (m.next c).modules := by
  by_cases hadd : ∃ x, c.op = .addModule x
  · obtain ⟨x,hx⟩ := hadd
    obtain ⟨env,op⟩ := c
    cases hx
    exact addModule_indexes h
  · have hop : ∀ x, c.op ≠ .addModule x := fun x hx => hadd ⟨x,hx⟩
    rw [insertedBy_other hop,List.append_nil]
    exact AtomicRun.settle_preserves (Q := fun m : ModuleManager =>
      Indexes log m.moduleKeys m.modules) h fun _ hs => effect_indexes h (step_effect hs) hop

theorem run_indexes {log : List String} {m : ModuleManager} (calls : List Call)
    (h : Indexes log m.moduleKeys m.modules) :
    Indexes (log++m.insertions calls) (AtomicRun.run next calls m).moduleKeys
      (AtomicRun.run next calls m).modules := by
  induction calls generalizing log m with
  | nil => simpa only [insertions,List.append_nil,AtomicRun.run] using h
  | cons c calls ih =>
    rw [insertions,← List.append_assoc]
    exact ih (next_indexes c h)

theorem listModules_eq {m : ModuleManager} (keep : Module → Bool) {keys : List String}
    (h : ∀ key ∈ keys, key ∈ m.modules) : m.listModules keep keys =
      .ok ((keys.filterMap fun key => m.modules.lookup key).filter keep) := by
  induction keys with
  | nil => rfl
  | cons key keys ih =>
    obtain ⟨stored,hstored⟩ := Option.isSome_iff_exists.mp
      (AList.lookup_isSome.mpr (h key List.mem_cons_self))
    have hrest := ih fun k hk => h k (List.mem_cons_of_mem key hk)
    simp only [listModules,hstored,hrest,Checked.expect,bind,Except.bind,pure,Except.pure,
      List.filterMap_cons,List.filter_cons]

def storedModules (m : ModuleManager) : List Module := m.modules.entries.map fun e => e.2

theorem listModules_perm {log : List String} {m : ModuleManager}
    (h : Indexes log m.moduleKeys m.modules) (keep : Module → Bool) :
    ∃ l, m.listModules keep m.moduleKeys = .ok l ∧ l.Perm (m.storedModules.filter keep) :=
  ⟨_,listModules_eq keep fun key => (indexes_mem h key).mp,(listing_perm h).filter keep⟩

/-- In every run the list holds the stored names once, in order of their last
insertion, and both listings return every module they are about once. -/
theorem module_index (ownerId : AccountId) (initAdmins : Option (List AccountId))
    (calls : List Call) :
    (AtomicRun.run next calls (new ownerId initAdmins)).moduleKeys.Nodup ∧
    (∀ name, name ∈ (AtomicRun.run next calls (new ownerId initAdmins)).moduleKeys ↔
      name ∈ (AtomicRun.run next calls (new ownerId initAdmins)).modules) ∧
    (AtomicRun.run next calls (new ownerId initAdmins)).moduleKeys =
      inOrder ((new ownerId initAdmins).insertions calls)
        (AtomicRun.run next calls (new ownerId initAdmins)).modules ∧
    (∃ l, (AtomicRun.run next calls (new ownerId initAdmins)).getAllModules = .ok l ∧
      l.Perm (AtomicRun.run next calls (new ownerId initAdmins)).storedModules) ∧
    ∃ l, (AtomicRun.run next calls (new ownerId initAdmins)).getActiveModules = .ok l ∧
      l.Perm ((AtomicRun.run next calls (new ownerId initAdmins)).storedModules.filter
        fun stored => stored.status = .active) := by
  have hnew : Indexes [] (new ownerId initAdmins).moduleKeys (new ownerId initAdmins).modules :=
    indexes_empty
  have h := run_indexes calls hnew
  rw [List.nil_append] at h
  refine ⟨indexes_nodup h,indexes_mem h,h.ordered,?_,listModules_perm h _⟩
  obtain ⟨l,hl,hperm⟩ := listModules_perm h fun _ => true
  rw [List.filter_true] at hperm
  exact ⟨l,hl,hperm⟩

/-! ## The key of a module and the name in its record -/

/-- Every listed module is stored under the name it carries, no two carry the
same, and a call by the name of an active module reaches its contract. -/
def NamesAuthoritative (m : ModuleManager) : Prop :=
  ∃ all active, m.getAllModules = .ok all ∧ m.getActiveModules = .ok active ∧
    (∀ x ∈ all, m.modules.lookup x.name = some x) ∧ (all.map Module.name).Nodup ∧
    ∀ x ∈ active, ∀ (env : Env) (functionName args : String) (deposit gas : ℕ),
      m.isAdmin env.predecessorAccountId →
      ∃ call, m.callModuleFunction env x.name functionName args deposit gas = .ok call ∧
        call.contractId = x.contractId

/-- An accepted update stores a record that carries the name it is stored under. -/
def KeepsName (m : ModuleManager) (c : Call) : Prop :=
  match c.op with
  | .updateModule name x => (∃ m', m.updateModule c.env name x = .ok (m',true)) → x.name = name
  | _ => True

def Named (m : ModuleManager) : Prop :=
  ∀ name x, m.modules.lookup name = some x → x.name = name

theorem mem_storedModules {m : ModuleManager} {x : Module} :
    x ∈ m.storedModules ↔ ∃ name, m.modules.lookup name = some x := by
  unfold storedModules
  rw [List.mem_map]
  constructor
  · rintro ⟨e,he,rfl⟩
    exact ⟨e.1,AList.mem_lookup_iff.mpr he⟩
  · rintro ⟨name,hname⟩
    exact ⟨⟨name,x⟩,AList.mem_lookup_iff.mp hname,rfl⟩

theorem named_of_nodup {m : ModuleManager} (hnames : (m.storedModules.map Module.name).Nodup)
    (hstored : ∀ x ∈ m.storedModules, m.modules.lookup x.name = some x) : m.Named := by
  intro name x hx
  have hself := hstored x (mem_storedModules.mpr ⟨name,hx⟩)
  unfold storedModules at hnames
  rw [List.map_map] at hnames
  have hentry := List.inj_on_of_nodup_map hnames (AList.mem_lookup_iff.mp hself)
    (AList.mem_lookup_iff.mp hx) rfl
  exact congrArg Sigma.fst hentry

theorem names_nodup {m : ModuleManager} (h : m.Named) :
    (m.storedModules.map Module.name).Nodup := by
  have hkeys : m.storedModules.map Module.name = m.modules.keys := by
    unfold storedModules
    rw [List.map_map]
    apply List.map_congr_left
    intro e he
    exact h e.1 e.2 (AList.mem_lookup_iff.mpr he)
  rw [hkeys]
  exact m.modules.keys_nodup

theorem callModuleFunction_active {m : ModuleManager} {env : Env} {name : String} {x : Module}
    (functionName args : String) (deposit gas : ℕ) (hcaller : m.isAdmin env.predecessorAccountId)
    (hx : m.modules.lookup name = some x) (hactive : x.status = .active) :
    m.callModuleFunction env name functionName args deposit gas =
      .ok ⟨x.contractId,functionName,args.toUTF8,deposit,gas⟩ := by
  simp only [callModuleFunction,assertAdmin,hcaller,hx,hactive,Checked.require,Checked.expect,
    if_true,bind,Except.bind,pure,Except.pure]

/-- Behind the listings stands one condition on the map alone. -/
theorem authoritative_iff {log : List String} {m : ModuleManager}
    (h : Indexes log m.moduleKeys m.modules) : m.NamesAuthoritative ↔ m.Named := by
  obtain ⟨all,hall,hperm⟩ := listModules_perm h fun _ => true
  rw [List.filter_true] at hperm
  obtain ⟨active,hactive,hperm'⟩ := listModules_perm h fun stored => stored.status = .active
  constructor
  · rintro ⟨l,_,hl,_,hstored,hnames,_⟩
    cases hall.symm.trans hl
    apply named_of_nodup ((hperm.map Module.name).nodup_iff.mp hnames)
    exact fun x hx => hstored x (hperm.mem_iff.mpr hx)
  · intro hnamed
    have hself : ∀ x ∈ m.storedModules, m.modules.lookup x.name = some x := by
      intro x hx
      obtain ⟨name,hname⟩ := mem_storedModules.mp hx
      rw [hnamed name x hname]
      exact hname
    refine ⟨all,active,hall,hactive,fun x hx => hself x (hperm.mem_iff.mp hx),
      (hperm.map Module.name).nodup_iff.mpr (names_nodup hnamed),?_⟩
    intro x hx env functionName args deposit gas hcaller
    obtain ⟨hmem,hstatus⟩ := List.mem_filter.mp (hperm'.mem_iff.mp hx)
    exact ⟨_,callModuleFunction_active functionName args deposit gas hcaller (hself x hmem)
      (of_decide_eq_true hstatus),rfl⟩

theorem named_insert_iff {m m' : ModuleManager} {name : String} {x : Module} (h : m.Named)
    (hm' : m'.modules = m.modules.insert name x) : m'.Named ↔ x.name = name := by
  unfold Named
  rw [hm']
  constructor
  · intro hall
    exact hall name x (AList.lookup_insert _)
  · intro hname k y hy
    by_cases hk : k = name
    · subst hk
      rw [AList.lookup_insert] at hy
      cases hy
      exact hname
    · rw [AList.lookup_insert_ne hk] at hy
      exact h k y hy

theorem effect_named_iff {m m' : ModuleManager} {env : Env} {op : Op} (h : m.Named)
    (hstep : step m ⟨env,op⟩ = .ok m') (he : Effect m op m') :
    m'.Named ↔ m.KeepsName ⟨env,op⟩ := by
  cases he with
  | added x fresh => exact iff_of_true ((named_insert_iff h rfl).mpr rfl) trivial
  | updated name x stored =>
    rw [named_insert_iff h rfl]
    obtain ⟨r,hr,_⟩ := Checked.map_ok.mp hstep
    rcases updateModule_ok hr with ⟨hmem,_⟩ | ⟨_,rfl⟩
    · exact absurd stored hmem
    · exact ⟨fun hname _ => hname,fun hkeeps => hkeeps ⟨_,hr⟩⟩
  | statusSet name status time stored found =>
    apply iff_of_true _ trivial
    rw [named_insert_iff h rfl]
    exact h name stored found
  | removed name =>
    refine iff_of_true (fun k y hy => ?_) trivial
    by_cases hk : k = name
    · subst hk
      rw [AList.lookup_erase] at hy
      cases hy
    · rw [AList.lookup_erase_ne hk] at hy
      exact h k y hy
  | kept op m' modules _ _ notUpdated =>
    apply iff_of_true
    · unfold Named
      rw [modules]
      exact h
    · unfold KeepsName
      split
      · rename_i name x hop
        rintro ⟨m'',hm''⟩
        rcases updateModule_ok hm'' with ⟨_,hfalse⟩ | ⟨hmem,_⟩
        · cases hfalse
        · exact absurd hmem (notUpdated name x hop)
      · trivial

theorem next_named_iff {m : ModuleManager} (c : Call) (h : m.Named) :
    (m.next c).Named ↔ m.KeepsName c := by
  cases hstep : step m c with
  | ok m' =>
    rw [next,AtomicRun.settle_ok hstep]
    exact effect_named_iff h hstep (step_effect hstep)
  | error e =>
    rw [next,AtomicRun.settle_error hstep]
    refine iff_of_true h ?_
    unfold KeepsName
    split
    · rename_i name x hop
      rintro ⟨m',hm'⟩
      simp only [step,hop,hm'] at hstep
      cases hstep
    · trivial

/-- In a whole run the names stay authoritative exactly when every accepted
update stores a record that carries the name it is stored under. -/
theorem names_authoritative_iff (ownerId : AccountId) (initAdmins : Option (List AccountId))
    (calls : List Call) :
    AtomicRun.Throughout next NamesAuthoritative calls (new ownerId initAdmins) ↔
      AtomicRun.Along next KeepsName calls (new ownerId initAdmins) := by
  have hnew : Indexes [] (new ownerId initAdmins).moduleKeys (new ownerId initAdmins).modules :=
    indexes_empty
  apply AtomicRun.throughout_iff_along
    (J := fun m : ModuleManager => ∃ log, Indexes log m.moduleKeys m.modules)
  · rintro m c ⟨log,h⟩
    exact ⟨_,next_indexes c h⟩
  · rintro m c ⟨log,h⟩ hnames
    rw [authoritative_iff (next_indexes c h)]
    exact next_named_iff c ((authoritative_iff h).mp hnames)
  · exact ⟨[],hnew⟩
  · rw [authoritative_iff hnew]
    rintro name x ⟨⟩

def farmingModule (name : String) : Module where
  name
  contractId := "farm.near"
  version := "1.0.0"
  status := .active
  addedTimestamp := 0
  lastUpdated := 0
  metadata := "\x7b\x7d"

def renamedModule : List Call := [
  ⟨firstBlock "owner.near" "diamond.near",.addModule (farmingModule "farming")⟩,
  ⟨firstBlock "owner.near" "diamond.near",.updateModule "farming" (farmingModule "mining")⟩]

/-- The listing shows a module that a call by its name does not find. -/
theorem renamed_module_unreachable :
    (AtomicRun.run next renamedModule (new "owner.near" none)).getActiveModules =
      .ok [farmingModule "mining"] ∧
    (AtomicRun.run next renamedModule (new "owner.near" none)).modules.lookup "mining" = none ∧
    ¬AtomicRun.Throughout next NamesAuthoritative renamedModule (new "owner.near" none) := by
  refine ⟨rfl,by decide,fun h => ?_⟩
  obtain ⟨all,_,hall,_,hstored,_⟩ := AtomicRun.throughout_last h
  cases hall
  have hmining := hstored (farmingModule "mining") List.mem_cons_self
  revert hmining
  decide

end DiamondBot.ModuleManager
