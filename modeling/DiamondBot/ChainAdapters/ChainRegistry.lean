import DiamondBot.Library.AtomicRun
import DiamondBot.Library.Checked
import Mathlib.Data.List.AList

/-!
# The chain registry

For every chain the registry keeps an adapter, what is known about it, and the
configuration of the chain. A check of the connection asks the adapter for the
block number and notes how that went. The adapter made from a configuration is a
placeholder that cannot answer.
-/

set_option autoImplicit false

namespace DiamondBot.ChainAdapters
open Library AtomicRun

inductive AdapterStatus
  | active
  | degraded
  | inactive
  deriving DecidableEq

structure ChainAdapterInfo where
  chainId : UInt64
  name : String
  adapterType : String
  status : AdapterStatus
  uptime : UInt64
  successfulRequests : UInt64
  failedRequests : UInt64
  availableEndpoints : ℕ
  activeRequests : ℕ
  averageResponseTime : Float

/-- The fields of a configuration that no function here reads are in `rest`. -/
structure ChainConfig (Rest : Type) where
  chainId : UInt64
  name : String
  rest : Rest

inductive ChainAdapter (Rest : Type)
  | placeholder (chainId : UInt64) (name : String) (config : ChainConfig Rest)
  | other (type : String)

namespace ChainAdapter

variable {Rest : Type}

def getType : ChainAdapter Rest → String
  | .placeholder _ _ _ => "Placeholder"
  | .other type => type

/-- `answer` is what the chain says, which the placeholder never asks. -/
def getBlockNumber (answer : Except String UInt64) : ChainAdapter Rest → Except String UInt64
  | .placeholder _ _ _ => .error "Method not implemented"
  | .other _ => answer

end ChainAdapter

structure ChainRegistry (Rest : Type) where
  adapters : AList fun _ : UInt64 => ChainAdapter Rest
  adapterInfo : AList fun _ : UInt64 => ChainAdapterInfo
  chainConfigs : AList fun _ : UInt64 => ChainConfig Rest

namespace ChainRegistry

variable {Rest : Type}

def new : ChainRegistry Rest := ⟨∅,∅,∅⟩

def chainName (reg : ChainRegistry Rest) (chainId : UInt64) : String :=
  ((reg.chainConfigs.lookup chainId).map (·.name)).getD ("Chain-"++toString chainId.toNat)

def registerAdapter (reg : ChainRegistry Rest) (chainId : UInt64) (adapter : ChainAdapter Rest) :
    Except String (ChainRegistry Rest) :=
  if (reg.adapters.lookup chainId).isSome then
    .error ("Adapter for chain ID "++toString chainId.toNat++" already registered")
  else
    let info : ChainAdapterInfo :=
      { chainId
        name := reg.chainName chainId
        adapterType := adapter.getType
        status := .active
        uptime := 0
        successfulRequests := 0
        failedRequests := 0
        availableEndpoints := 0
        activeRequests := 0
        averageResponseTime := 0.0 }
    .ok { reg with
      adapters := reg.adapters.insert chainId adapter
      adapterInfo := reg.adapterInfo.insert chainId info }

def modifyInfo (reg : ChainRegistry Rest) (chainId : UInt64)
    (f : ChainAdapterInfo → ChainAdapterInfo) : ChainRegistry Rest :=
  match reg.adapterInfo.lookup chainId with
  | some info => { reg with adapterInfo := reg.adapterInfo.insert chainId (f info) }
  | none => reg

def addChainConfig (reg : ChainRegistry Rest) (config : ChainConfig Rest) : ChainRegistry Rest :=
  let reg := reg.modifyInfo config.chainId fun info => { info with name := config.name }
  { reg with chainConfigs := reg.chainConfigs.insert config.chainId config }

def getAdapter (reg : ChainRegistry Rest) (chainId : UInt64) : Except String (ChainAdapter Rest) :=
  Checked.expect (reg.adapters.lookup chainId)
    ("No adapter registered for chain ID "++toString chainId.toNat)

def getChainConfig (reg : ChainRegistry Rest) (chainId : UInt64) :
    Except String (ChainConfig Rest) :=
  Checked.expect (reg.chainConfigs.lookup chainId)
    ("No configuration found for chain ID "++toString chainId.toNat)

def getAdapterInfo (reg : ChainRegistry Rest) (chainId : UInt64) :
    Except String ChainAdapterInfo :=
  Checked.expect (reg.adapterInfo.lookup chainId)
    ("No adapter info found for chain ID "++toString chainId.toNat)

def updateAdapterInfo (reg : ChainRegistry Rest) (chainId : UInt64) (info : ChainAdapterInfo) :
    Except String (ChainRegistry Rest) :=
  if (reg.adapterInfo.lookup chainId).isSome then
    .ok { reg with adapterInfo := reg.adapterInfo.insert chainId info }
  else .error ("No adapter info found for chain ID "++toString chainId.toNat)

def getSupportedChains (reg : ChainRegistry Rest) : List UInt64 := reg.adapters.keys

def unregisterAdapter (reg : ChainRegistry Rest) (chainId : UInt64) :
    Except String (ChainRegistry Rest) :=
  if (reg.adapters.lookup chainId).isSome then
    .ok { reg with
      adapters := reg.adapters.erase chainId
      adapterInfo := reg.adapterInfo.erase chainId }
  else .error ("No adapter registered for chain ID "++toString chainId.toNat)

def noteSuccess (info : ChainAdapterInfo) : ChainAdapterInfo :=
  { info with
    status := .active
    successfulRequests := info.successfulRequests+1 }

def noteFailure (info : ChainAdapterInfo) : ChainAdapterInfo :=
  { info with
    status := .degraded
    failedRequests := info.failedRequests+1 }

def checkAdapterConnection (reg : ChainRegistry Rest) (chainId : UInt64)
    (answer : Except String UInt64) : Except String Unit × ChainRegistry Rest :=
  match reg.getAdapter chainId with
  | .error e => (.error e,reg)
  | .ok adapter =>
    match adapter.getBlockNumber answer with
    | .ok _ => (.ok (),reg.modifyInfo chainId noteSuccess)
    | .error e => (.error ("Connection check failed: "++e),reg.modifyInfo chainId noteFailure)

/-- `pool` tells whether the connection pool of the chain could be made. -/
def initAdapterFromConfig (reg : ChainRegistry Rest) (chainId : UInt64) (pool : Except String Unit) :
    Except String (ChainRegistry Rest) := do
  let config ← reg.getChainConfig chainId
  pool
  reg.registerAdapter chainId (.placeholder chainId config.name config)

inductive Action (Rest : Type)
  | registerAdapter (chainId : UInt64) (adapter : ChainAdapter Rest)
  | addChainConfig (config : ChainConfig Rest)
  | updateAdapterInfo (chainId : UInt64) (info : ChainAdapterInfo)
  | unregisterAdapter (chainId : UInt64)
  | checkAdapterConnection (chainId : UInt64) (answer : Except String UInt64)
  | initAdapterFromConfig (chainId : UInt64) (pool : Except String Unit)

def step (reg : ChainRegistry Rest) : Action Rest → Except String (ChainRegistry Rest)
  | .registerAdapter chainId adapter => reg.registerAdapter chainId adapter
  | .addChainConfig config => .ok (reg.addChainConfig config)
  | .updateAdapterInfo chainId info => reg.updateAdapterInfo chainId info
  | .unregisterAdapter chainId => reg.unregisterAdapter chainId
  | .checkAdapterConnection chainId answer => .ok (reg.checkAdapterConnection chainId answer).2
  | .initAdapterFromConfig chainId pool => reg.initAdapterFromConfig chainId pool

def next : ChainRegistry Rest → Action Rest → ChainRegistry Rest := settle step

/-- What is known about the adapter of a chain is replaced from outside. -/
def Action.Replaces (chainId : UInt64) : Action Rest → Prop
  | .updateAdapterInfo id _ => id = chainId
  | .unregisterAdapter id => id = chainId
  | _ => False

def checks (chainId : UInt64) (adapter : ChainAdapter Rest) : List (Action Rest) → List Bool
  | [] => []
  | .checkAdapterConnection id answer::actions =>
    if id = chainId then (adapter.getBlockNumber answer).isOk::checks chainId adapter actions
    else checks chainId adapter actions
  | _::actions => checks chainId adapter actions

def lastName (chainId : UInt64) (name : String) : List (Action Rest) → String
  | [] => name
  | .addChainConfig config::actions =>
    lastName chainId (if config.chainId = chainId then config.name else name) actions
  | _::actions => lastName chainId name actions

def lastStatus (status : AdapterStatus) (passed : List Bool) : AdapterStatus :=
  match passed.getLast? with
  | some true => .active
  | some false => .degraded
  | none => status

/-- What the registry tells about a chain whose adapter was registered under a
name, after a run since then. -/
structure Tells (chainId : UInt64) (adapter : ChainAdapter Rest) (name : String)
    (actions : List (Action Rest)) (reg : ChainRegistry Rest) (info : ChainAdapterInfo) : Prop where
  registered : reg.getAdapter chainId = .ok adapter
  known : reg.getAdapterInfo chainId = .ok info
  type : info.adapterType = adapter.getType
  name : info.name = lastName chainId name actions
  status : info.status = lastStatus .active (checks chainId adapter actions)
  successes : info.successfulRequests.toNat = (checks chainId adapter actions).count true%2^64
  failures : info.failedRequests.toNat = (checks chainId adapter actions).count false%2^64

/-! ## One chain -/

variable {reg reg' : ChainRegistry Rest} {chainId id : UInt64} {adapter : ChainAdapter Rest}
  {info : ChainAdapterInfo}

def noted (chainId : UInt64) (adapter : ChainAdapter Rest) (info : ChainAdapterInfo) :
    Action Rest → ChainAdapterInfo
  | .addChainConfig config =>
    if config.chainId = chainId then { info with name := config.name } else info
  | .checkAdapterConnection id answer =>
    if id = chainId then
      if (adapter.getBlockNumber answer).isOk then noteSuccess info else noteFailure info
    else info
  | _ => info

structure Known (chainId : UInt64) (adapter : ChainAdapter Rest) (reg : ChainRegistry Rest)
    (info : ChainAdapterInfo) : Prop where
  adapter : reg.adapters.lookup chainId = some adapter
  info : reg.adapterInfo.lookup chainId = some info

theorem modifyInfo_known (f : ChainAdapterInfo → ChainAdapterInfo)
    (h : Known chainId adapter reg info) :
    Known chainId adapter (reg.modifyInfo chainId f) (f info) := by
  unfold modifyInfo
  rw [h.info]
  exact ⟨h.adapter,AList.lookup_insert _⟩

theorem modifyInfo_other (f : ChainAdapterInfo → ChainAdapterInfo) (hid : id ≠ chainId)
    (h : Known chainId adapter reg info) :
    Known chainId adapter (reg.modifyInfo id f) info := by
  unfold modifyInfo
  cases reg.adapterInfo.lookup id with
  | none => exact h
  | some other => exact ⟨h.adapter,by rw [AList.lookup_insert_ne (Ne.symm hid),h.info]⟩

theorem registerAdapter_known {new : ChainAdapter Rest} (h : Known chainId adapter reg info)
    (hreg : reg.registerAdapter id new = .ok reg') : Known chainId adapter reg' info := by
  unfold registerAdapter at hreg
  split at hreg
  · cases hreg
  · next hfree =>
    cases hreg
    have hid : chainId ≠ id := by
      rintro rfl
      simp [h.adapter] at hfree
    exact ⟨by rw [AList.lookup_insert_ne hid,h.adapter],by rw [AList.lookup_insert_ne hid,h.info]⟩

theorem check_known (answer : Except String UInt64) (h : Known chainId adapter reg info) :
    Known chainId adapter (reg.checkAdapterConnection id answer).2
      (noted chainId adapter info (.checkAdapterConnection id answer)) := by
  unfold checkAdapterConnection
  by_cases hid : id = chainId
  · subst hid
    simp only [noted,getAdapter,h.adapter,Checked.expect,if_true]
    cases adapter.getBlockNumber answer with
    | ok number => exact modifyInfo_known noteSuccess h
    | error e => exact modifyInfo_known noteFailure h
  · simp only [noted,hid,if_false]
    cases reg.getAdapter id with
    | error e => exact h
    | ok other =>
      simp only
      cases other.getBlockNumber answer with
      | ok number => exact modifyInfo_other noteSuccess hid h
      | error e => exact modifyInfo_other noteFailure hid h

theorem addChainConfig_known (config : ChainConfig Rest) (h : Known chainId adapter reg info) :
    Known chainId adapter (reg.addChainConfig config)
      (noted chainId adapter info (.addChainConfig config)) := by
  have named {r : ChainRegistry Rest} {i : ChainAdapterInfo} (hr : Known chainId adapter r i) :
      Known chainId adapter
        { r with chainConfigs := r.chainConfigs.insert config.chainId config } i :=
    ⟨hr.adapter,hr.info⟩
  by_cases hid : config.chainId = chainId
  · subst hid
    simp only [noted,if_true]
    exact named (modifyInfo_known (fun info => { info with name := config.name }) h)
  · simp only [noted,hid,if_false]
    exact named (modifyInfo_other (fun info => { info with name := config.name }) hid h)

theorem next_known {a : Action Rest} (h : Known chainId adapter reg info)
    (hkept : ¬a.Replaces chainId) :
    Known chainId adapter (reg.next a) (noted chainId adapter info a) := by
  cases a with
  | registerAdapter id new =>
    exact settle_preserves (Q := fun r => Known chainId adapter r info) h fun _ hreg =>
      registerAdapter_known h hreg
  | addChainConfig config => exact addChainConfig_known config h
  | updateAdapterInfo id new =>
    refine settle_preserves (Q := fun r => Known chainId adapter r info) h fun _ hstep => ?_
    change reg.updateAdapterInfo id new = _ at hstep
    unfold updateAdapterInfo at hstep
    split at hstep <;> cases hstep
    exact ⟨h.adapter,by rw [AList.lookup_insert_ne (Ne.symm hkept),h.info]⟩
  | unregisterAdapter id =>
    refine settle_preserves (Q := fun r => Known chainId adapter r info) h fun _ hstep => ?_
    change reg.unregisterAdapter id = _ at hstep
    unfold unregisterAdapter at hstep
    split at hstep <;> cases hstep
    exact ⟨by rw [AList.lookup_erase_ne (Ne.symm hkept),h.adapter],
      by rw [AList.lookup_erase_ne (Ne.symm hkept),h.info]⟩
  | checkAdapterConnection id answer => exact check_known answer h
  | initAdapterFromConfig id pool =>
    refine settle_preserves (Q := fun r => Known chainId adapter r info) h fun _ hstep => ?_
    obtain ⟨config,_,hstep⟩ := Checked.bind_ok.mp hstep
    obtain ⟨_,_,hstep⟩ := Checked.bind_ok.mp hstep
    exact registerAdapter_known h hstep

/-! ## Runs -/

theorem run_known {actions : List (Action Rest)} (h : Known chainId adapter reg info)
    (hkept : ∀ a ∈ actions, ¬a.Replaces chainId) : Known chainId adapter (run next actions reg)
      (run (noted chainId adapter) actions info) := by
  induction actions generalizing reg info with
  | nil => exact h
  | cons a actions ih =>
    exact ih (next_known h (hkept a List.mem_cons_self))
      fun b hb => hkept b (List.mem_cons_of_mem _ hb)

def Paired (reg : ChainRegistry Rest) : Prop :=
  ∀ chainId, chainId ∈ reg.adapters ↔ chainId ∈ reg.adapterInfo

theorem mem_insert_known {m : AList fun _ : UInt64 => ChainAdapterInfo}
    (hid : (m.lookup id).isSome = true) (info : ChainAdapterInfo) :
    chainId ∈ m.insert id info ↔ chainId ∈ m := by
  rw [AList.mem_insert]
  constructor
  · rintro (rfl | hmem)
    · exact AList.lookup_isSome.mp hid
    · exact hmem
  · exact Or.inr

theorem modifyInfo_mem (f : ChainAdapterInfo → ChainAdapterInfo) :
    chainId ∈ (reg.modifyInfo id f).adapterInfo ↔ chainId ∈ reg.adapterInfo := by
  unfold modifyInfo
  cases hinfo : reg.adapterInfo.lookup id with
  | none => exact Iff.rfl
  | some info => exact mem_insert_known (by rw [hinfo]; rfl) (f info)

theorem modifyInfo_adapters (f : ChainAdapterInfo → ChainAdapterInfo) :
    (reg.modifyInfo id f).adapters = reg.adapters := by
  unfold modifyInfo
  cases reg.adapterInfo.lookup id <;> rfl

theorem paired_modified (f : ChainAdapterInfo → ChainAdapterInfo) (h : reg.Paired) :
    (reg.modifyInfo id f).Paired := by
  intro chainId
  rw [modifyInfo_adapters,modifyInfo_mem]
  exact h chainId

theorem paired_registered (h : reg.Paired) (hreg : reg.registerAdapter id adapter = .ok reg') :
    reg'.Paired := by
  unfold registerAdapter at hreg
  split at hreg <;> cases hreg
  intro chainId
  simp only [AList.mem_insert,h chainId]

theorem next_paired (a : Action Rest) (h : reg.Paired) : (reg.next a).Paired := by
  refine settle_preserves h fun reg' hstep => ?_
  cases a with
  | registerAdapter id new => exact paired_registered h hstep
  | addChainConfig config =>
    cases hstep
    exact fun chainId => paired_modified _ h chainId
  | updateAdapterInfo id info =>
    change reg.updateAdapterInfo id info = _ at hstep
    unfold updateAdapterInfo at hstep
    split at hstep
    · next hknown =>
      cases hstep
      exact fun chainId => (h chainId).trans (mem_insert_known hknown info).symm
    · cases hstep
  | unregisterAdapter id =>
    change reg.unregisterAdapter id = _ at hstep
    unfold unregisterAdapter at hstep
    split at hstep <;> cases hstep
    intro chainId
    simp only [AList.mem_erase,h chainId]
  | checkAdapterConnection id answer =>
    cases hstep
    unfold checkAdapterConnection
    cases reg.getAdapter id with
    | error e => exact h
    | ok adapter =>
      simp only
      cases adapter.getBlockNumber answer with
      | ok number => exact paired_modified noteSuccess h
      | error e => exact paired_modified noteFailure h
  | initAdapterFromConfig id pool =>
    obtain ⟨config,_,hstep⟩ := Checked.bind_ok.mp hstep
    obtain ⟨_,_,hstep⟩ := Checked.bind_ok.mp hstep
    exact paired_registered h hstep

theorem supported_iff_known (actions : List (Action Rest)) (chainId : UInt64) :
    chainId ∈ (run next actions (new : ChainRegistry Rest)).getSupportedChains ↔
      ∃ info, (run next actions (new : ChainRegistry Rest)).getAdapterInfo chainId = .ok info := by
  have hpaired : (run next actions (new : ChainRegistry Rest)).Paired :=
    run_invariant (fun _ a h => next_paired a h) (fun _ => Iff.rfl) actions
  rw [getSupportedChains,← AList.mem_keys,hpaired chainId,← AList.lookup_isSome,
    Option.isSome_iff_exists]
  simp only [getAdapterInfo,Checked.expect_ok]

theorem lastStatus_cons (status : AdapterStatus) (b : Bool) (passed : List Bool) :
    lastStatus status (b::passed) = lastStatus (if b then .active else .degraded) passed := by
  unfold lastStatus
  rw [List.getLast?_cons]
  cases passed.getLast? with
  | none => cases b <;> rfl
  | some c => cases c <;> rfl

theorem toNat_next (n : UInt64) (k : ℕ) : ((n+1).toNat+k)%2^64 = (n.toNat+(k+1))%2^64 := by
  rw [UInt64.toNat_add,UInt64.toNat_one,Nat.mod_add_mod,Nat.add_assoc,Nat.add_comm 1 k]

/-- A record tells the name last given, how the last check went and how many
checks went either way. -/
theorem run_noted (chainId : UInt64) (adapter : ChainAdapter Rest) (actions : List (Action Rest))
    (info : ChainAdapterInfo) :
    (run (noted chainId adapter) actions info).adapterType = info.adapterType ∧
    (run (noted chainId adapter) actions info).name = lastName chainId info.name actions ∧
    (run (noted chainId adapter) actions info).status =
      lastStatus info.status (checks chainId adapter actions) ∧
    (run (noted chainId adapter) actions info).successfulRequests.toNat =
      (info.successfulRequests.toNat+(checks chainId adapter actions).count true)%2^64 ∧
    (run (noted chainId adapter) actions info).failedRequests.toNat =
      (info.failedRequests.toNat+(checks chainId adapter actions).count false)%2^64 := by
  induction actions generalizing info with
  | nil =>
    refine ⟨rfl,rfl,rfl,?_,?_⟩
    · exact (Nat.mod_eq_of_lt (UInt64.toNat_lt _)).symm
    · exact (Nat.mod_eq_of_lt (UInt64.toNat_lt _)).symm
  | cons a actions ih =>
    have hih := ih (noted chainId adapter info a)
    cases a with
    | addChainConfig config =>
      simp only [run,lastName,checks]
      by_cases hid : config.chainId = chainId
      · simpa [noted,hid] using hih
      · simpa [noted,hid] using hih
    | checkAdapterConnection id answer =>
      simp only [run,lastName,checks]
      by_cases hid : id = chainId
      · cases hpassed : (adapter.getBlockNumber answer).isOk with
        | true =>
          simp only [noted,hid,hpassed,if_true] at hih ⊢
          rw [lastStatus_cons,List.count_cons_self,List.count_cons_of_ne (by decide),← toNat_next]
          exact hih
        | false =>
          simp only [noted,hid,hpassed,if_true] at hih ⊢
          rw [lastStatus_cons,List.count_cons_self,List.count_cons_of_ne (by decide),← toNat_next]
          exact hih
      · simpa [noted,hid] using hih
    | registerAdapter id new => exact hih
    | updateAdapterInfo id new => exact hih
    | unregisterAdapter id => exact hih
    | initAdapterFromConfig id pool => exact hih

theorem registered_known (hreg : reg.registerAdapter chainId adapter = .ok reg') :
    ∃ info, Known chainId adapter reg' info ∧ info.adapterType = adapter.getType ∧
      info.name = reg.chainName chainId ∧ info.status = .active ∧
      info.successfulRequests = 0 ∧ info.failedRequests = 0 := by
  unfold registerAdapter at hreg
  split at hreg
  · cases hreg
  · cases hreg
    exact ⟨_,⟨AList.lookup_insert _,AList.lookup_insert _⟩,rfl,rfl,rfl,rfl,rfl⟩

/-- From its registration on, and until somebody replaces what is known about it,
the registry keeps the adapter of a chain and tells its name from the last
configuration of the chain, its status from the last check of its connection, and
from all of these how many it passed and failed. The other chains do not matter. -/
theorem info_tells_checks {reg reg' : ChainRegistry Rest} {chainId : UInt64}
    {adapter : ChainAdapter Rest} (hreg : reg.registerAdapter chainId adapter = .ok reg')
    {actions : List (Action Rest)} (hkept : ∀ a ∈ actions, ¬a.Replaces chainId) :
    ∃ info, Tells chainId adapter (reg.chainName chainId) actions (run next actions reg') info := by
  obtain ⟨info,hknown,htype,hname,hstatus,hsuccess,hfailed⟩ := registered_known hreg
  have hrun := run_known hknown hkept
  obtain ⟨htype',hname',hstatus',hsuccess',hfailed'⟩ := run_noted chainId adapter actions info
  rw [hname] at hname'
  rw [hstatus] at hstatus'
  rw [hsuccess,UInt64.toNat_zero,Nat.zero_add] at hsuccess'
  rw [hfailed,UInt64.toNat_zero,Nat.zero_add] at hfailed'
  exact ⟨_,Checked.expect_ok.mpr hrun.adapter,Checked.expect_ok.mpr hrun.info,htype'.trans htype,
    hname',hstatus',hsuccess',hfailed'⟩

theorem checks_mem {answer : Except String UInt64} {actions : List (Action Rest)}
    (h : .checkAdapterConnection chainId answer ∈ actions) : checks chainId adapter actions ≠ [] := by
  induction actions with
  | nil => cases h
  | cons a actions ih =>
    rcases List.mem_cons.mp h with rfl | hrest
    · simp [checks]
    · cases a with
      | checkAdapterConnection id answer' =>
        rw [checks]
        split
        · simp
        · exact ih hrest
      | _ => exact ih hrest

theorem checks_placeholder (chainId : UInt64) (name : String) (config : ChainConfig Rest)
    (actions : List (Action Rest)) : ∀ passed ∈
      checks chainId (.placeholder chainId name config) actions, passed = false := by
  induction actions with
  | nil => simp [checks]
  | cons a actions ih =>
    cases a with
    | checkAdapterConnection id answer =>
      rw [checks]
      split
      · simpa [ChainAdapter.getBlockNumber,Except.isOk,Except.toBool] using ih
      · exact ih
    | _ => exact ih

/-- An adapter that is made from a configuration passes no check, whatever the
chain answers: until it is replaced, every check fails, no success is ever
counted, and after the first one it counts as degraded. -/
theorem configured_never_connects {reg reg' : ChainRegistry Rest} {chainId : UInt64}
    {pool : Except String Unit} (hinit : reg.initAdapterFromConfig chainId pool = .ok reg')
    {actions : List (Action Rest)} (hkept : ∀ a ∈ actions, ¬a.Replaces chainId) :
    (∀ answer, ((run next actions reg').checkAdapterConnection chainId answer).1 =
      .error "Connection check failed: Method not implemented") ∧
    ∃ info, (run next actions reg').getAdapterInfo chainId = .ok info ∧
      info.successfulRequests = 0 ∧
      (∀ answer, .checkAdapterConnection chainId answer ∈ actions → info.status = .degraded) := by
  obtain ⟨config,_,hinit⟩ := Checked.bind_ok.mp hinit
  obtain ⟨_,_,hinit⟩ := Checked.bind_ok.mp hinit
  obtain ⟨info,hknown,_,_,hstatus,hsuccess,_⟩ := registered_known hinit
  have hrun := run_known hknown hkept
  obtain ⟨_,_,hstatus',hsuccess',_⟩ := run_noted chainId
    (.placeholder chainId config.name config) actions info
  have hfailed := checks_placeholder chainId config.name config actions
  refine ⟨fun answer => ?_,_,Checked.expect_ok.mpr hrun.info,?_,fun answer hmem => ?_⟩
  · unfold checkAdapterConnection
    simp only [getAdapter,hrun.adapter,Checked.expect,ChainAdapter.getBlockNumber]
    rfl
  · have hnone : (checks chainId (.placeholder chainId config.name config) actions).count true = 0 :=
      List.count_eq_zero.mpr fun hmem => by simpa using hfailed true hmem
    rw [hsuccess,hnone] at hsuccess'
    exact UInt64.toNat_inj.mp hsuccess'
  · rw [hstatus']
    have hchecked : checks chainId (.placeholder chainId config.name config) actions ≠ [] :=
      checks_mem hmem
    rw [lastStatus,List.getLast?_eq_some_getLast hchecked,hfailed _ (List.getLast_mem hchecked)]

/-- Two checks around a renaming, the first of them failed. -/
theorem info_tells_checks_twice : ∃ info, Tells 1 (.other "evm") "Chain-1"
    [.checkAdapterConnection 1 (.error "timeout"),.addChainConfig ⟨1,"Ethereum",()⟩,
      .checkAdapterConnection 1 (.ok 17)]
    (run next [.checkAdapterConnection 1 (.error "timeout"),.addChainConfig ⟨1,"Ethereum",()⟩,
      .checkAdapterConnection 1 (.ok 17)]
      (next (new : ChainRegistry Unit) (.registerAdapter 1 (.other "evm")))) info :=
  @info_tells_checks Unit new _ 1 (.other "evm") rfl _ (by simp [Action.Replaces])

theorem configured_never_connects_once :
    ((run next [.addChainConfig ⟨1,"Ethereum",()⟩,.initAdapterFromConfig 1 (.ok ()),
      .checkAdapterConnection 1 (.ok 17)] (new : ChainRegistry Unit)).checkAdapterConnection 1
        (.ok 18)).1 = .error "Connection check failed: Method not implemented" :=
  (@configured_never_connects Unit (next new (.addChainConfig ⟨1,"Ethereum",()⟩)) _ 1 (.ok ())
    rfl [.checkAdapterConnection 1 (.ok 17)] (by simp [Action.Replaces])).1 (.ok 18)

end ChainRegistry

end DiamondBot.ChainAdapters
