import DiamondBot.ChainAdapters.SendRetry
import DiamondBot.ChainAdapters.NonceUniqueness

/-!
# Nonces given away and lost

The counter is advanced before the send can fail. A rejected send leaves its
nonce behind the counter, and only a count read from the chain, by a reset or
by a refresh, brings the counter back. In between every accepted transaction
waits for the nonce that was lost.
-/

set_option autoImplicit false

namespace DiamondBot.SendRetry
open Library NonceManager

/-- The calls of one wallet with the nonces accepted so far, the count of the
chain at the start, and whether a nonce that no accepted transaction carries
was given away since the counter was last read from the chain. -/
structure Ledger where
  sender : Sender
  first : ℕ
  accepted : List ℕ
  lost : Bool

namespace Ledger

def start (cacheSeconds : ℕ) (mined : Address → ℕ) (now : ℕ) (wallet : Option Address)
    (defaultGasPrice : ℕ) (request : Request) : Ledger where
  sender := {
    nonces := System.start cacheSeconds mined now
    wallet, defaultGasPrice, request
    retry := Retry.start none 0
    phase := .idle
    broadcast := [] }
  first := mined (wallet.getD 0)
  accepted := []
  lost := false

def carried (l : Ledger) (n : ℕ) : Bool := n < l.first || n ∈ l.accepted

def acceptedNext (l : Ledger) (a : Action) : List ℕ :=
  match a,l.sender.phase with
  | .send none,.sending tx => l.accepted++tx.nonce.toList
  | _,_ => l.accepted

def lostNext (l : Ledger) (a : Action) : Bool :=
  match a,l.sender.phase with
  | .send (some _),.sending tx => l.lost || !tx.nonce.all l.carried
  | .nonce none,.asking =>
    l.lost && (l.sender.nonces.manager.cached l.sender.nonces.now l.sender.walletAddress).isSome
  | .reset none,.resetting _ => false
  | _,_ => l.lost

def next (l : Ledger) (a : Action) : Ledger where
  sender := l.sender.next a
  first := l.first
  accepted := l.acceptedNext a
  lost := l.lostNext a

def Filled (l : Ledger) (n : ℕ) : Prop := ∀ m < n, l.carried m = true

/-- No accepted transaction waits for a nonce that no accepted one carries. -/
def NoGap (l : Ledger) : Prop := ∀ n ∈ l.accepted, l.Filled n

/-- The node mines accepted transactions only, in the order of their nonces,
and a receipt that names a nonce names that of its transaction. No other task
uses the manager. -/
def Faithful (l : Ledger) : Action → Prop
  | .receipt (.ok (some receipt)) => ∀ tx n, l.sender.phase = .waiting tx →
      receipt.transactionNonce = some n → tx.nonce = some n
  | .other (.mine address) => address = l.sender.walletAddress →
      l.sender.nonces.mined address ∈ l.accepted
  | .other (.wait _) => True
  | .other .cleanupCache => True
  | .other _ => False
  | _ => True

/-- No transaction is accepted while a nonce is lost. -/
def Unbroken (l : Ledger) : Action → Prop
  | .send none => ∀ tx, l.sender.phase = .sending tx → l.lost = false
  | _ => True

/-! ## The counter and the accepted nonces -/

/-- The flag tells whether every nonce below is carried. -/
def Tells (l : Ledger) (n : ℕ) : Prop := l.lost = false ↔ l.Filled n

def Counter (l : Ledger) (v : ℕ) : Prop :=
  l.sender.nonces.manager.nonces.lookup l.sender.walletAddress = some v

def Stage (l : Ledger) : Phase → Prop
  | .sending tx => ∃ n, tx.nonce = some n ∧ l.Tells n ∧ ∀ v, l.Counter v → v = n+1
  | .waiting tx => ∃ n, tx.nonce = some n ∧ l.Tells (n+1) ∧ ∀ v, l.Counter v → v = n+1
  | .updating _ newNonce => l.Tells newNonce ∧ ∀ v, l.Counter v → v = newNonce
  | _ => ∀ v, l.Counter v → l.Tells v

structure Booked (l : Ledger) : Prop where
  mined : l.Filled (l.sender.nonces.mined l.sender.walletAddress)
  stage : l.Stage l.sender.phase

theorem carried_more {l : Ledger} (l' : Ledger) {n : ℕ} (hfirst : l'.first = l.first)
    (haccepted : l'.accepted = l.accepted++[n]) (m : ℕ) :
    l'.carried m = true ↔ l.carried m = true ∨ m = n := by
  simp only [carried,hfirst,haccepted,Bool.or_eq_true,decide_eq_true_eq,List.mem_append,
    List.mem_singleton,or_assoc]

theorem acceptedNext_sent {l : Ledger} {tx : TypedTransaction} {n : ℕ}
    (hphase : l.sender.phase = .sending tx) (hn : tx.nonce = some n) :
    l.acceptedNext (.send none) = l.accepted++[n] := by
  simp only [acceptedNext,hphase,hn,Option.toList_some]

theorem acceptedNext_other {l : Ledger} {a : Action}
    (h : ∀ tx, a = .send none → l.sender.phase ≠ .sending tx) : l.acceptedNext a = l.accepted := by
  unfold acceptedNext
  split
  · rename_i tx hphase
    exact absurd hphase (h tx rfl)
  · rfl

theorem filled_succ {l : Ledger} {n : ℕ} : l.Filled (n+1) ↔ l.Filled n ∧ l.carried n = true := by
  constructor
  · intro h
    exact ⟨fun m hm => h m (by omega),h n (by omega)⟩
  · rintro ⟨h,hn⟩ m hm
    rcases Nat.lt_succ_iff_lt_or_eq.mp hm with hm | rfl
    · exact h m hm
    · exact hn

theorem stage_tells {l : Ledger} {phase : Phase} (h : l.Stage phase)
    (hphase : ∀ tx, phase ≠ .sending tx) : ∀ v, l.Counter v → l.Tells v := by
  intro v hv
  cases phase with
  | sending tx => exact absurd rfl (hphase tx)
  | waiting tx =>
    obtain ⟨n,_,htells,hcounter⟩ := h
    rw [hcounter v hv]
    exact htells
  | updating receipt newNonce =>
    rw [h.2 v hv]
    exact h.1
  | _ => exact h v hv

theorem stage_resting {l : Ledger} {phase : Phase} (hphase : Sender.Resting phase)
    (h : ∀ v, l.Counter v → l.Tells v) : l.Stage phase := by
  cases phase with
  | sleeping wake => exact h
  | returned outcome => exact h
  | _ => exact absurd hphase id

theorem stage_dropped {l l' : Ledger} {phase : Phase} (hfirst : l'.first = l.first)
    (haccepted : l'.accepted = l.accepted) (hlost : l'.lost = l.lost)
    (hcounter : ∀ v, l'.Counter v → l.Counter v) (h : l.Stage phase) : l'.Stage phase := by
  have htells : ∀ v, l'.Tells v ↔ l.Tells v := by
    intro v
    simp only [Tells,Filled,carried,hfirst,haccepted,hlost]
  cases phase with
  | sending tx =>
    obtain ⟨n,hn,ht,hc⟩ := h
    exact ⟨n,hn,(htells n).mpr ht,fun v hv => hc v (hcounter v hv)⟩
  | waiting tx =>
    obtain ⟨n,hn,ht,hc⟩ := h
    exact ⟨n,hn,(htells (n+1)).mpr ht,fun v hv => hc v (hcounter v hv)⟩
  | updating receipt newNonce =>
    exact ⟨(htells newNonce).mpr h.1,fun v hv => h.2 v (hcounter v hv)⟩
  | _ => exact fun v hv => (htells v).mpr (h v (hcounter v hv))

/-! ## One step -/

theorem next_nonceTaken {l : Ledger} {failure : Option String} {n : ℕ} {tx : TypedTransaction}
    {nonces : NonceManager.System} (h : l.Booked) (hphase : l.sender.phase = .asking)
    (hasked : l.sender.nonces.Asked l.sender.walletAddress failure (.ok n) nonces)
    (hn : tx.nonce = some n) :
    Booked ⟨{ l.sender with nonces, phase := .sending tx },l.first,l.accepted,
      l.lostNext (.nonce failure)⟩ := by
  have hstage := h.stage
  rw [hphase] at hstage
  have hnext := System.asked_next hasked
  cases hasked with
  | fromCache _ hcached _ =>
    have hlost : l.lostNext (.nonce failure) = l.lost := by
      cases failure with
      | none => simp only [lostNext,hphase,hcached,Option.isSome_some,Bool.and_true]
      | some err => rfl
    rw [hlost]
    refine ⟨h.mined,n,hn,hstage n (cached_some hcached),fun v hv => ?_⟩
    exact Option.some.inj (hv.symm.trans hnext)
  | fromChain habsent hanswered _ =>
    subst hanswered
    have hlost : l.lostNext (.nonce none) = false := by
      simp only [lostNext,hphase,habsent,Option.isSome_none,Bool.and_false]
    rw [hlost]
    refine ⟨h.mined,_,hn,iff_of_true rfl h.mined,fun v hv => ?_⟩
    exact Option.some.inj (hv.symm.trans hnext)

theorem next_nonceFailed {l : Ledger} {failure : Option String} {e : Fault} {retry : Retry}
    {phase : Phase} {nonces : NonceManager.System} (h : l.Booked)
    (hphase : l.sender.phase = .asking)
    (hasked : l.sender.nonces.Asked l.sender.walletAddress failure (.error e) nonces)
    (hresting : Sender.Resting phase) :
    Booked ⟨{ l.sender with nonces, retry, phase },l.first,l.accepted,
      l.lostNext (.nonce failure)⟩ := by
  have hstage := h.stage
  rw [hphase] at hstage
  cases hasked with
  | cacheFull n hcached _ =>
    have hlost : l.lostNext (.nonce failure) = l.lost := by
      cases failure with
      | none => simp only [lostNext,hphase,hcached,Option.isSome_some,Bool.and_true]
      | some err => rfl
    rw [hlost]
    exact ⟨h.mined,stage_resting hresting hstage⟩
  | chainFull habsent hanswered _ =>
    subst hanswered
    have hlost : l.lostNext (.nonce none) = false := by
      simp only [lostNext,hphase,habsent,Option.isSome_none,Bool.and_false]
    rw [hlost]
    refine ⟨h.mined,stage_resting hresting fun v hv => ?_⟩
    have hmined := (AList.lookup_insert l.sender.nonces.manager.nonces).symm.trans hv
    cases hmined
    exact iff_of_true rfl h.mined
  | chainFailed err _ hfailed =>
    subst hfailed
    exact ⟨h.mined,stage_resting hresting hstage⟩

/-- An accepted transaction carries its nonce from now on. -/
theorem next_accepted {l : Ledger} {tx : TypedTransaction} (h : l.Booked)
    (hphase : l.sender.phase = .sending tx) :
    Booked ⟨{ l.sender with broadcast := l.sender.broadcast++[tx], phase := .waiting tx },l.first,
      l.acceptedNext (.send none),l.lost⟩ := by
  have hstage := h.stage
  rw [hphase] at hstage
  obtain ⟨n,hn,htells,hcounter⟩ := hstage
  have hcarried := carried_more (l := l) ⟨{ l.sender with
    broadcast := l.sender.broadcast++[tx], phase := .waiting tx },l.first,
    l.acceptedNext (.send none),l.lost⟩ rfl (acceptedNext_sent hphase hn)
  refine ⟨fun m hm => (hcarried m).mpr (Or.inl (h.mined m hm)),n,hn,?_,hcounter⟩
  unfold Tells at htells ⊢
  rw [htells,filled_succ]
  constructor
  · intro hfilled
    exact ⟨fun m hm => (hcarried m).mpr (Or.inl (hfilled m hm)),(hcarried n).mpr (Or.inr rfl)⟩
  · rintro ⟨hfilled,_⟩ m hm
    rcases (hcarried m).mp (hfilled m hm) with hc | hmn
    · exact hc
    · omega

theorem next_rejected {l : Ledger} {tx : TypedTransaction} {errorStr : String} {retry : Retry}
    {phase : Phase} (h : l.Booked) (hphase : l.sender.phase = .sending tx)
    (hnext : (∀ v, l.Counter v → Tells ⟨{ l.sender with retry, phase },l.first,l.accepted,
      l.lostNext (.send (some errorStr))⟩ v) → Stage ⟨{ l.sender with retry, phase },l.first,
      l.accepted,l.lostNext (.send (some errorStr))⟩ phase) :
    Booked ⟨{ l.sender with retry, phase },l.first,l.accepted,
      l.lostNext (.send (some errorStr))⟩ := by
  have hstage := h.stage
  rw [hphase] at hstage
  obtain ⟨n,hn,htells,hcounter⟩ := hstage
  refine ⟨h.mined,hnext fun v hv => ?_⟩
  rw [hcounter v hv]
  unfold Tells at htells ⊢
  rw [filled_succ]
  simp only [lostNext,hphase,hn,Option.all_some,Bool.or_eq_false_iff,Bool.not_eq_false']
  exact and_congr_left' htells

theorem next_reset {l : Ledger} {errorStr : String} {failure : Option String} {retry : Retry}
    {phase : Phase} (h : l.Booked) (hphase : l.sender.phase = .resetting errorStr)
    (hresting : Sender.Resting phase) :
    Booked ⟨{ l.sender with
      nonces := (l.sender.nonces.resetNonce l.sender.walletAddress failure).2
      retry
      phase },l.first,l.accepted,l.lostNext (.reset failure)⟩ := by
  have hstage := h.stage
  rw [hphase] at hstage
  cases failure with
  | some err => exact ⟨h.mined,stage_resting hresting hstage⟩
  | none =>
    have hlost : l.lostNext (.reset none) = false := by
      simp only [lostNext,hphase]
    rw [hlost]
    refine ⟨h.mined,stage_resting hresting fun v hv => ?_⟩
    have hmined := (AList.lookup_insert l.sender.nonces.manager.nonces).symm.trans hv
    cases hmined
    exact iff_of_true rfl h.mined

/-- The update finds the counter where the attempt has left it. -/
theorem next_updated {l : Ledger} {receipt : Receipt} {newNonce : ℕ} (h : l.Booked)
    (hphase : l.sender.phase = .updating receipt newNonce) :
    Booked ⟨{ l.sender with
      nonces := l.sender.nonces.updateNonce l.sender.walletAddress newNonce
      phase := .returned (.confirmed receipt) },l.first,l.accepted,l.lost⟩ := by
  have hstage := h.stage
  rw [hphase] at hstage
  obtain ⟨htells,hcounter⟩ := hstage
  refine ⟨h.mined,fun v hv => ?_⟩
  have hv' : v = newNonce := by
    unfold Counter at hv hcounter
    cases hlookup : l.sender.nonces.manager.nonces.lookup l.sender.walletAddress with
    | none =>
      simp only [System.updateNonce,updateNonce,hlookup,store_nonces] at hv
      exact Option.some.inj (hv.symm.trans (AList.lookup_insert _))
    | some v' =>
      cases hcounter v' hlookup
      simp only [System.updateNonce,updateNonce,hlookup,store_nonces,max_self] at hv
      exact Option.some.inj (hv.symm.trans (AList.lookup_insert _))
  rw [hv']
  exact htells

theorem next_other {l : Ledger} {b : NonceManager.Action} (h : l.Booked)
    (hb : l.Faithful (.other b)) :
    Booked ⟨{ l.sender with nonces := l.sender.nonces.next b },l.first,l.accepted,l.lost⟩ := by
  cases b with
  | mine address =>
    refine ⟨?_,stage_dropped rfl rfl rfl (fun _ hv => hv) h.stage⟩
    change l.Filled (Function.update l.sender.nonces.mined address
      (l.sender.nonces.mined address+1) l.sender.walletAddress)
    by_cases haddress : address = l.sender.walletAddress
    · have hcarried : l.carried (l.sender.nonces.mined l.sender.walletAddress) = true := by
        rw [← haddress]
        simp only [carried,hb haddress,decide_true,Bool.or_true]
      rw [haddress,Function.update_self,filled_succ]
      exact ⟨h.mined,hcarried⟩
    · rw [Function.update_of_ne (Ne.symm haddress)]
      exact h.mined
  | wait duration => exact ⟨h.mined,stage_dropped rfl rfl rfl (fun _ hv => hv) h.stage⟩
  | cleanupCache =>
    refine ⟨h.mined,stage_dropped (l := l) rfl rfl rfl (fun v hv => ?_) h.stage⟩
    have hlookup := cleanupCache_nonces l.sender.nonces.manager l.sender.nonces.now
      l.sender.walletAddress
    have hv' := hlookup.symm.trans hv
    split at hv'
    · cases hv'
    · exact hv'
  | _ => exact absurd hb id

theorem lostNext_ignored {l : Ledger} {a : Action}
    (unasked : ∀ tx rejection, a = .send rejection → l.sender.phase ≠ .sending tx)
    (quiet : l.sender.nonceAction a = none) : l.lostNext a = l.lost := by
  unfold lostNext
  split
  · rename_i errorStr tx hphase
    exact absurd hphase (unasked tx (some errorStr) rfl)
  · rename_i hphase
    simp only [Sender.nonceAction,hphase] at quiet
    cases quiet
  · rename_i errorStr hphase
    simp only [Sender.nonceAction,hphase] at quiet
    cases quiet
  · rfl

theorem next_booked (l : Ledger) (a : Action) (h : l.Booked) (ha : l.Faithful a) :
    (l.next a).Booked := by
  have hmoves := l.sender.next_moves a
  unfold next
  generalize l.sender.next a = s' at hmoves
  have hstage := h.stage
  cases hmoves with
  | began request retry phase free opened =>
    refine ⟨h.mined,?_⟩
    rcases opened with rfl | hresting
    · exact stage_tells hstage free
    · exact stage_resting hresting (stage_tells hstage free)
  | nonceTaken failure n nonces tx asking answer carries =>
    exact next_nonceTaken h asking answer carries
  | nonceFailed failure e nonces retry phase asking answer resting =>
    exact next_nonceFailed h asking answer resting
  | accepted tx sending => exact next_accepted h sending
  | rejected tx errorStr sending resets => exact next_rejected h sending id
  | dropped tx errorStr retry phase sending keeps resting =>
    exact next_rejected h sending fun htells => stage_resting resting htells
  | reset errorStr failure retry phase resetting resting => exact next_reset h resetting resting
  | finished tx answer retry phase waiting resting =>
    rw [waiting] at hstage
    have htells := stage_tells hstage fun _ htx => (nomatch htx)
    exact ⟨h.mined,stage_resting resting htells⟩
  | received tx receipt n waiting carries =>
    rw [waiting] at hstage
    obtain ⟨n',hn',htells,hcounter⟩ := hstage
    cases hn'.symm.trans (ha tx n waiting carries)
    exact ⟨h.mined,htells,hcounter⟩
  | updated receipt newNonce updating => exact next_updated h updating
  | woken wake sleeping =>
    rw [sleeping] at hstage
    exact ⟨h.mined,hstage⟩
  | other b => exact next_other h ha
  | ignored a unasked quiet =>
    rw [acceptedNext_other fun tx ha => unasked tx none ha,lostNext_ignored unasked quiet]
    exact h

theorem next_noGap_iff {l : Ledger} {a : Action} (h : l.Booked) (hgap : l.NoGap) :
    (l.next a).NoGap ↔ l.Unbroken a := by
  by_cases haccepts : ∃ tx, a = .send none ∧ l.sender.phase = .sending tx
  · obtain ⟨tx,rfl,hphase⟩ := haccepts
    have hstage := h.stage
    rw [hphase] at hstage
    obtain ⟨n,hn,htells,_⟩ := hstage
    have haccepted : (l.next (.send none)).accepted = l.accepted++[n] :=
      acceptedNext_sent hphase hn
    have hcarried := carried_more (l := l) (l.next (.send none)) rfl haccepted
    constructor
    · intro hnext _ _
      apply htells.mpr
      intro m hm
      have hmem : n ∈ (l.next (.send none)).accepted := by
        rw [haccepted]
        exact List.mem_append_right _ List.mem_cons_self
      rcases (hcarried m).mp (hnext n hmem m hm) with hc | hmn
      · exact hc
      · omega
    · intro hunbroken k hk m hm
      rw [haccepted] at hk
      apply (hcarried m).mpr
      rcases List.mem_append.mp hk with hk | hk
      · exact Or.inl (hgap k hk m hm)
      · cases List.mem_singleton.mp hk
        exact Or.inl (htells.mp (hunbroken tx hphase) m hm)
  · have hother : ∀ tx, a = .send none → l.sender.phase ≠ .sending tx :=
      fun tx ha hphase => haccepts ⟨tx,ha,hphase⟩
    have haccepted := acceptedNext_other hother
    apply iff_of_true
    · intro n hn m hm
      have hn' : n ∈ l.accepted := haccepted ▸ hn
      have hcarried := hgap n hn' m hm
      unfold carried at hcarried ⊢
      rw [show (l.next a).accepted = l.accepted from haccepted]
      exact hcarried
    · unfold Unbroken
      split
      · exact fun tx hphase => absurd hphase (hother tx rfl)
      · trivial

/-! ## All runs -/

/-- In every run of calls of one wallet against a faithful node, no accepted
transaction waits for a lost nonce exactly when none is accepted while a nonce
given away since the counter was last read is carried by no accepted one. -/
theorem no_gap_iff {cacheSeconds : ℕ} {mined : Address → ℕ} {now : ℕ} {wallet : Option Address}
    {defaultGasPrice : ℕ} {request : Request} {actions : List Action}
    (h : AtomicRun.Along next Faithful actions
      (start cacheSeconds mined now wallet defaultGasPrice request)) :
    AtomicRun.Throughout next NoGap actions
        (start cacheSeconds mined now wallet defaultGasPrice request) ↔
      AtomicRun.Along next Unbroken actions
        (start cacheSeconds mined now wallet defaultGasPrice request) := by
  apply AtomicRun.throughout_iff_along_of (fun l a hb _ ha => next_booked l a hb ha)
    (fun l a hb hgap _ => next_noGap_iff hb hgap) _ _ h
  · refine ⟨fun m hm => ?_,?_⟩
    · exact Bool.or_eq_true_iff.mpr (Or.inl (decide_eq_true hm))
    · rintro v ⟨⟩
  · rintro n ⟨⟩

def unusedWallet : Ledger :=
  start 60 (fun _ => 0) 0 (some System.wallet) 1 transferRequest

def confirmedThenSent : List Action := [
  .call transferRequest,.nonce none,.send none,.other (.mine System.wallet),
  .receipt (.ok (some ⟨some 0⟩)),.update,.call transferRequest,.nonce none,.send none]

theorem no_gap_iff_confirmed :
    (AtomicRun.run next confirmedThenSent unusedWallet).accepted = [0,1] ∧
      AtomicRun.Throughout next NoGap confirmedThenSent unusedWallet := by
  have hfaithful : AtomicRun.Along next Faithful confirmedThenSent unusedWallet := by
    refine ⟨trivial,trivial,trivial,fun _ => by decide,?_,trivial,trivial,trivial,trivial,trivial⟩
    intro tx n hphase hn
    cases hn
    cases hphase
    rfl
  refine ⟨by decide,(no_gap_iff hfaithful).mpr ?_⟩
  exact ⟨trivial,trivial,fun _ _ => by decide,trivial,trivial,trivial,trivial,trivial,
    fun _ _ => by decide,trivial⟩

def rejectedThenSent : List Action := [
  .call transferRequest,.nonce none,.send (some "insufficient funds for gas * price + value"),
  .call transferRequest,.nonce none,.send none]

/-- The accepted transaction waits for the nonce of the rejected one. -/
theorem rejected_nonce_lost :
    AtomicRun.Along next Faithful rejectedThenSent unusedWallet ∧
      (AtomicRun.run next rejectedThenSent unusedWallet).accepted = [1] ∧
      ¬AtomicRun.Throughout next NoGap rejectedThenSent unusedWallet := by
  have haccepted : (AtomicRun.run next rejectedThenSent unusedWallet).accepted = [1] := by
    decide
  refine ⟨⟨trivial,trivial,trivial,trivial,trivial,trivial,trivial⟩,haccepted,fun h => ?_⟩
  have hgap := AtomicRun.throughout_last h 1 (by rw [haccepted]; exact List.mem_cons_self) 0
    (by decide)
  revert hgap
  decide

end Ledger

end DiamondBot.SendRetry
