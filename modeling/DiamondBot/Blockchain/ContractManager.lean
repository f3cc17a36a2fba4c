import DiamondBot.Library.AtomicRun
import Mathlib.Logic.Function.Basic

/-!
# Contracts by address and interface

One task asks a manager for contracts. Both caches stand behind a lock for
readers and one writer, and a task that asks for writing while it reads itself
waits for ever. The guard that looks an interface up is held until the interface
was found or parsed, and parsing stores the interface in the same cache.
-/

set_option autoImplicit false

namespace DiamondBot.Blockchain

open Library

structure RwLock (α : Type) where
  value : α
  readers : ℕ

namespace RwLock

variable {α : Type}

def read (l : RwLock α) : RwLock α := { l with readers := l.readers+1 }

def release (l : RwLock α) : RwLock α := { l with readers := l.readers-1 }

/-- `none` when the task waits for its own read guards. -/
def write (l : RwLock α) (f : α → α) : Option (RwLock α) :=
  if l.readers = 0 then some { l with value := f l.value } else none

theorem release_read (l : RwLock α) : l.read.release = l := rfl

theorem write_read (l : RwLock α) (f : α → α) : l.read.write f = none :=
  if_neg (Nat.succ_ne_zero _)

end RwLock

structure CacheEntry (α : Type) where
  value : α
  expiresAt : ℕ

namespace CacheEntry

variable {α : Type}

def new (now : ℕ) (value : α) (ttlSeconds : ℕ) : CacheEntry α := ⟨value,now+ttlSeconds⟩

def isExpired (e : CacheEntry α) (now : ℕ) : Bool := now > e.expiresAt

def live (now : ℕ) : Option (CacheEntry α) → Option α
  | some entry => if !entry.isExpired now then some entry.value else none
  | none => none

end CacheEntry

structure Contract (Address Abi : Type) where
  address : Address
  abi : Abi
deriving DecidableEq

structure ContractManager (Address Abi : Type) where
  contractCache : RwLock (Address → Option (CacheEntry (Contract Address Abi)))
  abiCache : RwLock (String → Option (CacheEntry Abi))

structure ClockReads where
  contractLookup : ℕ
  abiLookup : ℕ
  abiInsert : ℕ
  contractInsert : ℕ
deriving DecidableEq

namespace ContractManager

variable {Address Abi : Type} [DecidableEq Address] (parse : String → Except String Abi)

def new : ContractManager Address Abi := ⟨⟨fun _ => none,0⟩,⟨fun _ => none,0⟩⟩

/-- `none` when the call never ends. -/
def parseAndCacheAbi (m : ContractManager Address Abi) (now : ℕ) (abiKey abiJson : String) :
    Option (Except String Abi × ContractManager Address Abi) :=
  match parse abiJson with
  | .error e => some (.error ("ABI error: "++e),m)
  | .ok abi =>
    match m.abiCache.write fun cache =>
        Function.update cache abiKey (some (CacheEntry.new now abi 86400)) with
    | none => none
    | some abiCache => some (.ok abi,{ m with abiCache := abiCache })

def findAbi (m : ContractManager Address Abi) (reads : ClockReads) (abiKey abiJson : String) :
    Option (Except String Abi × ContractManager Address Abi) :=
  let guarded := { m with abiCache := m.abiCache.read }
  let found : Option (Except String Abi × ContractManager Address Abi) :=
    match CacheEntry.live reads.abiLookup (guarded.abiCache.value abiKey) with
    | some abi => some (.ok abi,guarded)
    | none => guarded.parseAndCacheAbi parse reads.abiInsert abiKey abiJson
  match found with
  | none => none
  | some (abi,m) => some (abi,{ m with abiCache := m.abiCache.release })

def getContractWithAbi (m : ContractManager Address Abi) (reads : ClockReads)
    (address : Address) (abiKey abiJson : String) :
    Option (Except String (Contract Address Abi) × ContractManager Address Abi) :=
  match CacheEntry.live reads.contractLookup (m.contractCache.value address) with
  | some contract => some (.ok contract,m)
  | none =>
    match m.findAbi parse reads abiKey abiJson with
    | none => none
    | some (.error e,m) => some (.error e,m)
    | some (.ok abi,m) =>
      let contract := ⟨address,abi⟩
      match m.contractCache.write fun cache =>
          Function.update cache address
            (some (CacheEntry.new reads.contractInsert contract 3600)) with
      | none => none
      | some contractCache => some (.ok contract,{ m with contractCache := contractCache })

/-! ## Looking an interface up -/

section Lookup

omit [DecidableEq Address]

variable {parse} {m : ContractManager Address Abi} {reads : ClockReads} {abiKey abiJson : String}

theorem findAbi_waits {abi : Abi}
    (hunknown : CacheEntry.live reads.abiLookup (m.abiCache.value abiKey) = none)
    (hparse : parse abiJson = .ok abi) : m.findAbi parse reads abiKey abiJson = none := by
  have hguarded : CacheEntry.live reads.abiLookup (m.abiCache.read.value abiKey) = none := hunknown
  simp only [findAbi,hguarded,parseAndCacheAbi,hparse,RwLock.write_read]

theorem findAbi_error {e : String}
    (hunknown : CacheEntry.live reads.abiLookup (m.abiCache.value abiKey) = none)
    (hparse : parse abiJson = .error e) :
    m.findAbi parse reads abiKey abiJson = some (.error ("ABI error: "++e),m) := by
  have hguarded : CacheEntry.live reads.abiLookup (m.abiCache.read.value abiKey) = none := hunknown
  simp only [findAbi,hguarded,parseAndCacheAbi,hparse,RwLock.release_read]

end Lookup

end ContractManager

/-- A call, with what it reads from the clock. -/
structure ContractCall (Address : Type) where
  address : Address
  abiKey : String
  abiJson : String
  reads : ClockReads
deriving DecidableEq

/-- A task: the manager, or `none` once a call waits for ever, and what the calls that
ended returned. -/
structure ContractTask (Address Abi : Type) where
  manager : Option (ContractManager Address Abi)
  returned : List (ContractCall Address × Except String (Contract Address Abi))

namespace ContractTask

variable {Address Abi : Type} [DecidableEq Address] (parse : String → Except String Abi)

def start : ContractTask Address Abi := ⟨some ContractManager.new,[]⟩

def next (s : ContractTask Address Abi) (c : ContractCall Address) : ContractTask Address Abi :=
  match s.manager with
  | none => s
  | some m =>
    match m.getContractWithAbi parse c.reads c.address c.abiKey c.abiJson with
    | none => { s with manager := none }
    | some (result,m) => ⟨some m,s.returned++[(c,result)]⟩

/-- Every call has ended, and each contract returned has the address of its call and the
interface that the call describes. -/
def Serves (s : ContractTask Address Abi) : Prop :=
  s.manager.isSome = true ∧ ∀ c contract, (c,.ok contract) ∈ s.returned →
    contract.address = c.address ∧ parse c.abiJson = .ok contract.abi

def Unfilled (s : ContractTask Address Abi) : Prop :=
  ∀ m, s.manager = some m → m = ContractManager.new

variable {parse}

theorem getContractWithAbi_new (c : ContractCall Address) :
    (ContractManager.new.getContractWithAbi parse c.reads c.address c.abiKey c.abiJson =
        (match parse c.abiJson with
        | .ok _ => none
        | .error e => some (.error ("ABI error: "++e),ContractManager.new))) := by
  have hmiss : CacheEntry.live c.reads.contractLookup
      ((ContractManager.new : ContractManager Address Abi).contractCache.value c.address) = none :=
    rfl
  have hunknown : CacheEntry.live c.reads.abiLookup
      ((ContractManager.new : ContractManager Address Abi).abiCache.value c.abiKey) = none := rfl
  cases hparse : parse c.abiJson with
  | error e =>
    have hfind := ContractManager.findAbi_error hunknown hparse
    simp only [ContractManager.getContractWithAbi,hmiss,hfind]
  | ok abi =>
    have hfind := ContractManager.findAbi_waits hunknown hparse
    simp only [ContractManager.getContractWithAbi,hmiss,hfind]

theorem next_unfilled (s : ContractTask Address Abi) (c : ContractCall Address)
    (h : s.Unfilled) : (s.next parse c).Unfilled := by
  unfold next
  cases hmanager : s.manager with
  | none =>
    intro m hm
    exact absurd (hmanager.symm.trans hm) (Option.some_ne_none m).symm
  | some m =>
    have hnew := h m hmanager
    subst hnew
    simp only [getContractWithAbi_new]
    intro m hm
    cases hparse : parse c.abiJson with
    | ok abi => simp [hparse] at hm
    | error e =>
      simp only [hparse] at hm
      exact (Option.some_inj.mp hm).symm

/-- The call serves if and only if its interface does not parse. -/
theorem next_serves_iff {s : ContractTask Address Abi} (h : s.Unfilled)
    (hserves : s.Serves parse) (c : ContractCall Address) :
    (s.next parse c).Serves parse ↔ ∃ e, parse c.abiJson = .error e := by
  obtain ⟨m,hm⟩ := Option.isSome_iff_exists.mp hserves.1
  have hnew := h m hm
  subst hnew
  unfold next
  rw [hm]
  simp only [getContractWithAbi_new]
  cases parse c.abiJson with
  | ok abi =>
    apply iff_of_false
    · intro hnext
      simp [Serves] at hnext
    · simp
  | error e =>
    refine iff_of_true ⟨rfl,?_⟩ ⟨e,rfl⟩
    intro c' contract hmem
    rcases List.mem_append.mp hmem with hold | hlast
    · exact hserves.2 c' contract hold
    · simp at hlast

/-- Every call of a task ends and returns the contract that it describes if and only if
no call of the task describes an interface. -/
theorem serves_throughout_iff (parse : String → Except String Abi)
    (calls : List (ContractCall Address)) :
    AtomicRun.Throughout (next parse) (Serves parse) calls start ↔
      ∀ c ∈ calls, ∃ e, parse c.abiJson = .error e := by
  rw [AtomicRun.throughout_iff_along (J := Unfilled)
    (fun s c h => next_unfilled s c h) (fun s c h hserves => next_serves_iff h hserves c)
    _ _,AtomicRun.along_const]
  · intro m hm
    exact (Option.some_inj.mp hm).symm
  · exact ⟨rfl,fun _ _ hmem => absurd hmem List.not_mem_nil⟩

/-- The first call for a contract with an interface never ends. -/
theorem first_call_waits :
    let parse : String → Except String (List String) := fun json =>
      if json = "[\"name\"]" then .ok ["name"] else .error "EOF while parsing a value"
    let s := AtomicRun.run (next parse) [⟨7,"erc20","[\"name\"]",⟨0,0,0,0⟩⟩] (start : ContractTask ℕ _)
    s.manager.isNone = true ∧ s.returned = [] := by
  decide

end ContractTask

end DiamondBot.Blockchain
