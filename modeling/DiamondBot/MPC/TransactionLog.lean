import DiamondBot.MPC.SigningQuorum
import DiamondBot.Library.GrowingLog

/-!
# The transaction log over whole runs

The log is never rewritten: stripped of signatures and completion marks it is
the list of accepted creations, in order. An entry changes by taking the
signature of an authorised account while it is open, and not at all once it
is completed. The list of pending and the list of completed transactions
therefore share the log out between them.
-/

set_option autoImplicit false

namespace DiamondBot.MPCController
open NearRuntime Library

def asCreated (tx : MPCTransaction) : MPCTransaction :=
  { tx with
    signatures := []
    completed := false }

def TxExtends (tx tx' : MPCTransaction) : Prop :=
  asCreated tx' = asCreated tx ∧ tx.signatures <+: tx'.signatures ∧
    (tx.completed = true → tx' = tx)

def Op.creates (env : Env) : Op → List MPCTransaction
  | .createTransaction txId fromChain toChain sender receiver amount memo =>
    [MPCTransaction.create env txId fromChain toChain sender receiver amount memo]
  | _ => []

def creationAt (s : MPCController) (c : Call) : List MPCTransaction :=
  match step s c with
  | .ok _ => c.op.creates c.env
  | .error _ => []

def creations : List Call → MPCController → List MPCTransaction
  | [], _ => []
  | c::calls, s => creationAt s c++creations calls (next s c)

def SignedAlong (calls : List Call) (s : MPCController) (txId : String)
    (p : AccountId × List UInt8) : Prop :=
  ∃ before c after tx, calls = before++c::after ∧
    c.op = .signTransaction txId p.2 ∧ c.env.predecessorAccountId = p.1 ∧
    p.1 ∈ (AtomicRun.run next before s).authorizedSigners ∧
    (AtomicRun.run next before s).openTransaction txId = some tx ∧ p.1 ∉ tx.signers

def Attributed (s : MPCController) (calls : List Call) (t : MPCController) : Prop :=
  ∀ tx ∈ t.pendingTransactions, ∀ p ∈ tx.signatures, SignedAlong calls s tx.txId p

theorem sign_asCreated (tx : MPCTransaction) (signerId : AccountId) (signature : List UInt8)
    (threshold : UInt8) : asCreated (tx.sign signerId signature threshold) = asCreated tx := by
  simp only [MPCTransaction.sign]
  split <;> rfl

theorem txExtends_refl (tx : MPCTransaction) : TxExtends tx tx :=
  ⟨rfl,List.prefix_refl _,fun _ => rfl⟩

theorem txExtends_trans (tx tx' tx'' : MPCTransaction) (h : TxExtends tx tx')
    (h' : TxExtends tx' tx'') : TxExtends tx tx'' := by
  refine ⟨h'.1.trans h.1,h.2.1.trans h'.2.1,?_⟩
  intro hdone
  have he := h.2.2 hdone
  rw [h'.2.2 (he ▸ hdone),he]

theorem sign_txExtends {tx : MPCTransaction} (hopen : tx.completed = false)
    (signerId : AccountId) (signature : List UInt8) (threshold : UInt8) :
    TxExtends tx (tx.sign signerId signature threshold) := by
  refine ⟨sign_asCreated _ _ _ _,?_,?_⟩
  · rw [MPCTransaction.sign_signatures]
    exact List.prefix_append _ _
  · intro hdone
    rw [hopen] at hdone
    cases hdone

theorem effect_asCreated {s s' : MPCController} {env : Env} {op : Op}
    (h : Effect s env op s') : s'.pendingTransactions.map asCreated =
      s.pendingTransactions.map asCreated++op.creates env := by
  cases h with
  | create => rw [List.map_append]; rfl
  | sign txId signature i tx authorized found position unsigned =>
    simp only [Op.creates,List.append_nil]
    exact GrowingLog.map_set asCreated position (sign_asCreated _ _ _ _)
  | addChain | addKnownChain | updateChain | updateUnknownChain | signNothing | addSigner
  | addKnownSigner | removeSigner | setThreshold | transferOwnership =>
    exact (List.append_nil _).symm

theorem next_asCreated (s : MPCController) (c : Call) :
    (next s c).pendingTransactions.map asCreated =
      s.pendingTransactions.map asCreated++creationAt s c := by
  rw [creationAt]
  cases h : step s c with
  | ok s' =>
    rw [next,AtomicRun.settle_ok h]
    exact effect_asCreated (step_effect h)
  | error e =>
    rw [next,AtomicRun.settle_error h]
    exact (List.append_nil _).symm

theorem run_asCreated (calls : List Call) (s : MPCController) :
    (AtomicRun.run next calls s).pendingTransactions.map asCreated =
      s.pendingTransactions.map asCreated++creations calls s := by
  induction calls generalizing s with
  | nil => exact (List.append_nil _).symm
  | cons c calls ih =>
    rw [AtomicRun.run,ih,next_asCreated,creations,List.append_assoc]

def TxIdsDistinct (s : MPCController) : Prop :=
  (s.pendingTransactions.map MPCTransaction.txId).Nodup

theorem effect_txIdsDistinct {s s' : MPCController} {env : Env} {op : Op}
    (hs : TxIdsDistinct s) (h : Effect s env op s') : TxIdsDistinct s' := by
  cases h with
  | create txId fromChain toChain sender receiver amount memo fresh =>
    rw [TxIdsDistinct,List.map_append]
    apply List.Nodup.append hs (List.nodup_singleton _)
    simpa [MPCTransaction.create] using fresh
  | sign txId signature i tx authorized found position unsigned =>
    have hmap := GrowingLog.map_set MPCTransaction.txId position
      (MPCTransaction.sign_txId tx env.predecessorAccountId signature s.threshold)
    rw [TxIdsDistinct,hmap]
    exact hs
  | addChain | addKnownChain | updateChain | updateUnknownChain | signNothing | addSigner
  | addKnownSigner | removeSigner | setThreshold | transferOwnership => exact hs

theorem effect_extends {s s' : MPCController} {env : Env} {op : Op} (h : Effect s env op s') :
    GrowingLog.Extends TxExtends s.pendingTransactions s'.pendingTransactions := by
  cases h with
  | create => exact GrowingLog.extends_append txExtends_refl _ _
  | sign txId signature i tx authorized found position unsigned =>
    exact GrowingLog.extends_set txExtends_refl position
      (sign_txExtends (open_txId found).2 _ _ _)
  | addChain | addKnownChain | updateChain | updateUnknownChain | signNothing | addSigner
  | addKnownSigner | removeSigner | setThreshold | transferOwnership =>
    exact GrowingLog.extends_refl txExtends_refl _

theorem run_extends (calls : List Call) (s : MPCController) :
    GrowingLog.Extends TxExtends s.pendingTransactions
      (AtomicRun.run next calls s).pendingTransactions := by
  apply AtomicRun.run_history (J := fun _ => True)
    (r := fun s s' : MPCController =>
      GrowingLog.Extends TxExtends s.pendingTransactions s'.pendingTransactions)
  · exact fun s => GrowingLog.extends_refl txExtends_refl _
  · exact fun s t u => GrowingLog.extends_trans txExtends_trans
  · exact fun _ _ _ => trivial
  · intro s c _
    exact AtomicRun.settle_preserves (Q := fun t : MPCController =>
      GrowingLog.Extends TxExtends s.pendingTransactions t.pendingTransactions)
      (GrowingLog.extends_refl txExtends_refl _) fun _ h => effect_extends (step_effect h)
  · trivial

theorem signedAlong_append {calls : List Call} {s : MPCController} {txId : String}
    {p : AccountId × List UInt8} (c : Call) (h : SignedAlong calls s txId p) :
    SignedAlong (calls++[c]) s txId p := by
  obtain ⟨before,d,after,tx,rfl,h⟩ := h
  exact ⟨before,d,after++[c],tx,by simp,h⟩

theorem effect_attributed {s t t' : MPCController} {calls : List Call} {env : Env} {op : Op}
    (ht : t = AtomicRun.run next calls s) (ih : Attributed s calls t)
    (h : Effect t env op t') : Attributed s (calls++[⟨env,op⟩]) t' := by
  have hold : Attributed s (calls++[⟨env,op⟩]) t :=
    fun tx htx p hp => signedAlong_append _ (ih tx htx p hp)
  cases h with
  | create =>
    intro tx htx p hp
    rcases List.mem_append.mp htx with htx | htx
    · exact hold tx htx p hp
    · rw [List.mem_singleton.mp htx] at hp
      simp [MPCTransaction.create] at hp
  | sign txId signature i tx authorized found position unsigned =>
    intro tx' htx' p hp
    rcases List.mem_or_eq_of_mem_set htx' with htx' | rfl
    · exact hold tx' htx' p hp
    · rw [MPCTransaction.sign_txId,(open_txId found).1]
      rw [MPCTransaction.sign_signatures] at hp
      rcases List.mem_append.mp hp with hp | hp
      · have hsigned := hold tx (List.mem_of_getElem? position) p hp
        rwa [(open_txId found).1] at hsigned
      · rw [List.mem_singleton.mp hp]
        subst ht
        exact ⟨calls,⟨env,.signTransaction txId signature⟩,[],tx,rfl,rfl,rfl,
          authorized,found,unsigned⟩
  | addChain | addKnownChain | updateChain | updateUnknownChain | signNothing | addSigner
  | addKnownSigner | removeSigner | setThreshold | transferOwnership => exact hold

theorem run_attributed {s : MPCController} (hs : s.pendingTransactions = [])
    (calls : List Call) : Attributed s calls (AtomicRun.run next calls s) := by
  apply AtomicRun.run_trace (I := Attributed s)
  · simp [Attributed,hs]
  · intro calls c ih
    apply AtomicRun.settle_preserves (Q := Attributed s (calls++[c]))
    · exact fun tx htx p hp => signedAlong_append c (ih tx htx p hp)
    · exact fun _ h => effect_attributed rfl ih (step_effect h)

theorem pending_completed_perm (s : MPCController) {limit : UInt32}
    (h : s.pendingTransactions.length ≤ limit.toNat) :
    (s.getPendingTransactions++s.getCompletedTransactions limit).Perm
      s.pendingTransactions := by
  have hlen := List.length_filter_le (fun tx => tx.completed) s.pendingTransactions
  have hall : s.getCompletedTransactions limit =
      (s.pendingTransactions.filter fun tx => tx.completed).reverse := by
    apply List.take_of_length_le
    rw [List.length_reverse]
    omega
  calc
    s.getPendingTransactions++s.getCompletedTransactions limit
    _ = s.getPendingTransactions++
        (s.pendingTransactions.filter fun tx => tx.completed).reverse := by rw [hall]
    List.Perm _ ((s.pendingTransactions.filter fun tx => tx.completed)++
        s.getPendingTransactions) :=
      ((List.reverse_perm _).append_left _).trans List.perm_append_comm
    List.Perm _ s.pendingTransactions := List.filter_append_perm _ _

/-- All that the log owes its users after a run from a deployed controller. -/
structure LogIntact (s : MPCController) (calls : List Call) : Prop where
  created : (AtomicRun.run next calls s).pendingTransactions.map asCreated =
    creations calls s
  txIds : TxIdsDistinct (AtomicRun.run next calls s)
  signers : SignersDistinct (AtomicRun.run next calls s)
  signed : Attributed s calls (AtomicRun.run next calls s)
  grows : ∀ later, GrowingLog.Extends TxExtends
    (AtomicRun.run next calls s).pendingTransactions
    (AtomicRun.run next later (AtomicRun.run next calls s)).pendingTransactions
  shared : ∀ limit : UInt32,
    (AtomicRun.run next calls s).pendingTransactions.length ≤ limit.toNat →
    ((AtomicRun.run next calls s).getPendingTransactions++
      (AtomicRun.run next calls s).getCompletedTransactions limit).Perm
        (AtomicRun.run next calls s).pendingTransactions

theorem log_intact {authorizedSigners : List AccountId} {threshold : UInt8}
    {ownerId : AccountId} {s : MPCController}
    (hnew : new authorizedSigners threshold ownerId = .ok s) (calls : List Call) :
    LogIntact s calls := by
  have hempty : s.pendingTransactions = [] := by rw [(new_ok hnew).2]
  constructor
  · rw [run_asCreated,hempty]
    rfl
  · apply AtomicRun.run_invariant (I := TxIdsDistinct)
    · exact fun s c h => AtomicRun.settle_preserves h
        fun _ hs => effect_txIdsDistinct h (step_effect hs)
    · simp [TxIdsDistinct,hempty]
  · exact AtomicRun.run_invariant next_signersDistinct (new_signersDistinct hnew) calls
  · exact run_attributed hempty calls
  · exact fun later => run_extends later _
  · exact fun limit h => pending_completed_perm _ h

theorem log_intact_signed :
    ∃ s : MPCController, new ["a.near","b.near"] 2 "owner.near" = .ok s ∧
      LogIntact s (openTransfer++[
        callBy "a.near" (.signTransaction "tx" [1]),
        callBy "b.near" (.signTransaction "tx" [2])]) :=
  ⟨_,rfl,@log_intact ["a.near","b.near"] 2 "owner.near" _ rfl _⟩

end DiamondBot.MPCController
