import DiamondBot.ChainAdapters.WalletIntegration
import DiamondBot.Library.AtomicRun
import Mathlib.Data.List.Nodup

/-!
# Concurrent sends of one wallet

A send takes the transaction count for its nonce and hands its transaction over
later. Two sends that read the same count hand over the same nonce, and the
count moves only when a transaction of the wallet is mined. So the nonces
differ exactly when something is mined between the two reads.
-/

set_option autoImplicit false

namespace DiamondBot.WalletSend
open Library

/-! ## Calls, answers and mined transactions -/

/-- The wallet and chain of all the calls; its address as a text is read back. -/
structure Wallet where
  integration : WalletIntegration
  manager : TransactionManager
  chainId : ℕ
  address : Address
  text : String
  reads : manager.parseAddress text = .ok address

structure Task where
  program : Program
  readAt : Option ℕ

/-- The calls made, the count at the start, the times at which a transaction
of the wallet was mined, and the transactions handed over, each with the time
its nonce was read. -/
structure World where
  wallet : Wallet
  first : ℕ
  minedAt : List ℕ
  clock : ℕ
  tasks : List Task
  handed : List (TransactionRequest × ℕ)

inductive Action
  | walletSend (toAddress : Option Address) (value : ℕ) (data : Option (List (BitVec 8)))
      (gasPrice gasLimit : Option ℕ)
  | managerSend (recipient : String) (value : Option ℕ) (data : Option (List (BitVec 8)))
      (gasLimit gasPrice : Option ℕ)
  | answer (i : ℕ) (reply : (r : Request) → r.Answer)
  | mine

def sending : Program → Option TransactionRequest
  | .ask (.sendRawTransaction tx) _ => some tx
  | .ask (.sendTransaction tx) _ => some tx
  | _ => none

namespace World

def start (wallet : Wallet) (first : ℕ) : World where
  wallet
  first
  minedAt := []
  clock := 0
  tasks := []
  handed := []

def countAt (w : World) (time : ℕ) : ℕ := w.first+w.minedAt.countP fun p => p < time

def resumed (w : World) (t : Task) (reply : (r : Request) → r.Answer) : Task :=
  match t.program with
  | .done _ => t
  | .ask (.getTransactionCount address) resume =>
    match reply (.getTransactionCount address) with
    | .error e => { t with program := resume (.error e) }
    | .ok n =>
      if address = w.wallet.address then
        ⟨resume (.ok (w.first+w.minedAt.length)),some w.clock⟩
      else { t with program := resume (.ok n) }
  | .ask request resume => { t with program := resume (reply request) }

def answer (w : World) (i : ℕ) (reply : (r : Request) → r.Answer) : World :=
  match w.tasks[i]? with
  | none => w
  | some t => { w with
      tasks := w.tasks.set i (w.resumed t reply)
      handed := w.handed++(sending t.program).toList.map fun tx => (tx,t.readAt.getD 0) }

def act (w : World) : Action → World
  | .walletSend toAddress value data gasPrice gasLimit => { w with
      tasks := w.tasks++[⟨w.wallet.integration.sendTransaction w.wallet.address w.wallet.chainId
        toAddress value data gasPrice gasLimit,none⟩] }
  | .managerSend recipient value data gasLimit gasPrice => { w with
      tasks := w.tasks++[⟨w.wallet.manager.sendTransaction w.wallet.chainId w.wallet.text
        recipient value data gasLimit gasPrice none,none⟩] }
  | .answer i reply => w.answer i reply
  | .mine => { w with minedAt := w.minedAt++[w.clock] }

def next (w : World) (a : Action) : World :=
  { w.act a with clock := w.clock+1 }

/-- No two transactions handed over carry the same nonce. -/
def NoCollision (w : World) : Prop := (w.handed.map fun h => h.1.nonce).Nodup

def MinedBetween (w : World) (r r' : ℕ) : Prop :=
  ∃ p ∈ w.minedAt, r ≤ p ∧ p < r' ∨ r' ≤ p ∧ p < r

/-- A call hands its transaction over only if something was mined between its
read of the count and that of every transaction handed over before. -/
def Separated (w : World) : Action → Prop
  | .answer i _ => ∀ t, w.tasks[i]? = some t → (sending t.program).isSome →
      ∀ h ∈ w.handed, w.MinedBetween h.2 (t.readAt.getD 0)
  | _ => True

end World

/-! ## What the programs do with the count -/

def Follows (address : Address) : Option ℕ → Program → Prop
  | _,.done _ => True
  | read,.ask .getGasPrice resume => ∀ a, Follows address read (resume a)
  | read,.ask (.estimateGas _) resume => ∀ a, Follows address read (resume a)
  | read,.ask (.signTransaction _) resume => ∀ a, Follows address read (resume a)
  | none,.ask (.getTransactionCount d) resume => d = address ∧
      (∀ n, Follows address (some n) (resume (.ok n))) ∧
      ∀ e, Follows address none (resume (.error e))
  | some n,.ask (.sendRawTransaction tx) resume => tx.nonce = some n ∧
      ∀ a, ∃ outcome, resume a = .done outcome
  | some n,.ask (.sendTransaction tx) resume => tx.nonce = some n ∧
      ∀ a, ∃ outcome, resume a = .done outcome
  | _,_ => False

theorem orFail_follows {address : Address} {read : Option ℕ} {resume : ℕ → Program}
    (h : ∀ n, Follows address read (resume n)) (a : Except ChainError ℕ) :
    Follows address read (orFail resume a) := by
  cases a with
  | ok n => exact h n
  | error e => trivial

theorem gasPriceOr_follows {address : Address} {read : Option ℕ} {resume : ℕ → Program}
    (gasPrice : Option ℕ) (h : ∀ n, Follows address read (resume n)) :
    Follows address read (gasPriceOr gasPrice resume) := by
  cases gasPrice with
  | some gp => exact h gp
  | none => exact orFail_follows h

theorem count_follows {address : Address} {resume : ℕ → Program}
    (h : ∀ n, Follows address (some n) (resume n)) :
    Follows address none (.ask (.getTransactionCount address) (orFail resume)) :=
  ⟨rfl,h,fun _ => trivial⟩

theorem adjustedGas_follows {address : Address} {read : Option ℕ} {resume : ℕ → Program}
    (w : WalletIntegration) (h : ∀ n, Follows address read (resume n))
    (a : Except ChainError ℕ) : Follows address read (w.adjustedGas resume a) := by
  unfold WalletIntegration.adjustedGas
  split
  · split
    · split <;> trivial
    · exact h _
  · exact h _

theorem gasLimitOr_follows {address : Address} {read : Option ℕ} {resume : ℕ → Program}
    (w : WalletIntegration) (walletAddress : Address) (toAddress : Option Address) (value : ℕ)
    (data : Option (List (BitVec 8))) (gasLimit : Option ℕ)
    (h : ∀ n, Follows address read (resume n)) :
    Follows address read (w.gasLimitOr walletAddress toAddress value data gasLimit resume) := by
  unfold WalletIntegration.gasLimitOr
  split
  · exact h _
  · split
    · trivial
    · exact adjustedGas_follows w h

theorem walletSend_follows (w : WalletIntegration) (address : Address) (chainId : ℕ)
    (toAddress : Option Address) (value : ℕ) (data : Option (List (BitVec 8)))
    (gasPrice gasLimit : Option ℕ) : Follows address none
      (w.sendTransaction address chainId toAddress value data gasPrice gasLimit) := by
  unfold WalletIntegration.sendTransaction
  split
  · trivial
  split
  · trivial
  apply gasPriceOr_follows
  intro actualGasPrice
  apply gasLimitOr_follows
  intro actualGasLimit
  apply count_follows
  rintro nonce (e | signature)
  · trivial
  · refine ⟨rfl,?_⟩
    rintro (e | txHash)
    · exact ⟨_,rfl⟩
    · exact ⟨_,rfl⟩

theorem managerSend_follows {m : TransactionManager} {walletAddress : String} {address : Address}
    (hreads : m.parseAddress walletAddress = .ok address) (chainId : ℕ) (recipient : String)
    (value : Option ℕ) (data : Option (List (BitVec 8))) (gasLimit gasPrice : Option ℕ) :
    Follows address none
      (m.sendTransaction chainId walletAddress recipient value data gasLimit gasPrice none) := by
  unfold TransactionManager.sendTransaction
  split
  · trivial
  split
  · trivial
  · trivial
  · trivial
  unfold TransactionManager.nonceOr
  rw [hreads]
  apply count_follows
  intro nonce
  apply gasPriceOr_follows
  intro gasPrice
  have hsend : ∀ (gas : ℕ) (tx : TransactionRequest), tx.nonce = some nonce →
      Follows address (some nonce)
        (.ask (.sendTransaction { tx with gas := some gas })
          (orFail fun txHash => .done (.sent txHash))) := by
    intro gas tx htx
    refine ⟨htx,?_⟩
    rintro (e | txHash)
    · exact ⟨_,rfl⟩
    · exact ⟨_,rfl⟩
  unfold TransactionManager.gasLimitOr
  cases gasLimit with
  | some gl => exact hsend gl _ rfl
  | none => exact orFail_follows fun gl => hsend gl _ rfl

/-- After the transaction has been handed over nothing is left to do. -/
theorem sent_follows {address : Address} {read : Option ℕ} {request : Request}
    {resume : request.Answer → Program} {tx : TransactionRequest}
    (h : Follows address read (.ask request resume)) (hp : sending (.ask request resume) = some tx)
    (a : request.Answer) : Follows address read (resume a) := by
  cases request with
  | sendRawTransaction tx' =>
    cases read with
    | none => exact absurd h id
    | some n =>
      obtain ⟨outcome,hdone⟩ := h.2 a
      rw [hdone]
      trivial
  | sendTransaction tx' =>
    cases read with
    | none => exact absurd h id
    | some n =>
      obtain ⟨outcome,hdone⟩ := h.2 a
      rw [hdone]
      trivial
  | _ => cases hp

/-- What a transaction handed over carries is the count read before. -/
theorem sending_nonce {address : Address} {read : Option ℕ} {p : Program} {tx : TransactionRequest}
    (h : Follows address read p) (hp : sending p = some tx) : ∃ n, read = some n ∧
      tx.nonce = some n := by
  cases p with
  | done outcome => cases hp
  | ask request resume =>
    cases request with
    | sendRawTransaction tx' =>
      cases hp
      cases read with
      | none => exact absurd h id
      | some n => exact ⟨n,rfl,h.1⟩
    | sendTransaction tx' =>
      cases hp
      cases read with
      | none => exact absurd h id
      | some n => exact ⟨n,rfl,h.1⟩
    | _ => cases hp

/-! ## One step -/

namespace World

theorem countP_split (l : List ℕ) {r r' : ℕ} (h : r ≤ r') :
    (l.countP fun p => p < r') = (l.countP fun p => p < r)+l.countP fun p => r ≤ p ∧ p < r' := by
  induction l with
  | nil => rfl
  | cons p l ih =>
    simp only [List.countP_cons,ih,decide_eq_true_eq]
    split <;> split <;> split <;> omega

theorem countAt_ne_of_le {w : World} {r r' : ℕ} (h : r ≤ r') :
    w.countAt r ≠ w.countAt r' ↔ ∃ p ∈ w.minedAt, r ≤ p ∧ p < r' := by
  have hsplit := countP_split w.minedAt h
  have hpos : 0 < (w.minedAt.countP fun p => r ≤ p ∧ p < r') ↔
      ∃ p ∈ w.minedAt, r ≤ p ∧ p < r' := by
    rw [List.countP_pos_iff]
    simp only [decide_eq_true_eq]
  unfold countAt
  rw [← hpos,hsplit]
  omega

theorem countAt_ne_iff {w : World} {r r' : ℕ} :
    w.countAt r ≠ w.countAt r' ↔ w.MinedBetween r r' := by
  unfold MinedBetween
  rcases Nat.le_total r r' with h | h
  · rw [countAt_ne_of_le h]
    constructor
    · rintro ⟨p,hp,hr⟩
      exact ⟨p,hp,Or.inl hr⟩
    · rintro ⟨p,hp,hr | hr⟩
      · exact ⟨p,hp,hr⟩
      · omega
  · rw [ne_comm,countAt_ne_of_le h]
    constructor
    · rintro ⟨p,hp,hr⟩
      exact ⟨p,hp,Or.inr hr⟩
    · rintro ⟨p,hp,hr | hr⟩
      · omega
      · exact ⟨p,hp,hr⟩

/-- The call follows the count it has read. -/
structure Sound (w : World) (t : Task) : Prop where
  past : ∀ r, t.readAt = some r → r ≤ w.clock
  follows : Follows w.wallet.address (t.readAt.map w.countAt) t.program

structure Follow (w : World) : Prop where
  mined : ∀ p ∈ w.minedAt, p < w.clock
  tasks : ∀ t ∈ w.tasks, w.Sound t
  handed : ∀ h ∈ w.handed, h.2 ≤ w.clock ∧ h.1.nonce = some (w.countAt h.2)

theorem countAt_clock {w : World} (h : ∀ p ∈ w.minedAt, p < w.clock) :
    w.countAt w.clock = w.first+w.minedAt.length := by
  unfold countAt
  rw [List.countP_eq_length.mpr fun p hp => decide_eq_true (h p hp)]

theorem resumed_sound {w : World} {t : Task} (reply : (r : Request) → r.Answer) (h : w.Follow)
    (ht : w.Sound t) : w.Sound (w.resumed t reply) := by
  have hfollows := ht.follows
  unfold resumed
  split
  · exact ht
  · rename_i address resume hprogram
    rw [hprogram] at hfollows
    cases hread : t.readAt with
    | some r =>
      rw [hread] at hfollows
      exact absurd hfollows id
    | none =>
      rw [hread] at hfollows
      obtain ⟨rfl,hok,herror⟩ := hfollows
      split
      · exact ⟨fun _ hr => (nomatch hr),herror _⟩
      · rw [if_pos rfl]
        refine ⟨fun r hr => Option.some.inj hr ▸ le_rfl,?_⟩
        change Follows _ (some (w.countAt w.clock)) _
        rw [countAt_clock h.mined]
        exact hok _
  · rename_i request resume hother hprogram
    refine ⟨ht.past,?_⟩
    rw [hprogram] at hfollows
    cases request with
    | getTransactionCount address => exact (hother address resume rfl HEq.rfl).elim
    | sendRawTransaction tx => exact sent_follows hfollows rfl _
    | sendTransaction tx => exact sent_follows hfollows rfl _
    | _ =>
      change Follows _ (t.readAt.map w.countAt) _
      generalize t.readAt.map w.countAt = read at hfollows ⊢
      cases read <;> exact hfollows _

theorem follow_unmined {w w' : World} (hwallet : w'.wallet = w.wallet) (hfirst : w'.first = w.first)
    (hmined : w'.minedAt = w.minedAt) (hclock : w'.clock = w.clock+1) (h : w.Follow)
    (htasks : ∀ t ∈ w'.tasks, w.Sound t)
    (hhanded : ∀ x ∈ w'.handed, x.2 ≤ w.clock ∧ x.1.nonce = some (w.countAt x.2)) : w'.Follow := by
  have hcount : w'.countAt = w.countAt := by
    funext r
    simp only [countAt,hfirst,hmined]
  refine ⟨fun p hp => ?_,fun t ht => ⟨fun r hr => ?_,?_⟩,fun x hx => ?_⟩
  · rw [hmined] at hp
    have := h.mined p hp
    omega
  · have := (htasks t ht).past r hr
    omega
  · rw [hwallet,hcount]
    exact (htasks t ht).follows
  · obtain ⟨hpast,hnonce⟩ := hhanded x hx
    rw [hcount]
    exact ⟨by omega,hnonce⟩

theorem called_follow {w w' : World} {program : Program} (h : w.Follow)
    (hw' : w' = { w with tasks := w.tasks++[⟨program,none⟩], clock := w.clock+1 })
    (hprogram : Follows w.wallet.address none program) : w'.Follow := by
  subst hw'
  refine follow_unmined (w := w) rfl rfl rfl rfl h (fun t ht => ?_) h.handed
  rcases List.mem_append.mp ht with ht | ht
  · exact h.tasks t ht
  · rw [List.mem_singleton.mp ht]
    exact ⟨fun _ hr => (nomatch hr),hprogram⟩

theorem mine_follow {w : World} (h : w.Follow) : (w.next .mine).Follow := by
  have hcount : ∀ r ≤ w.clock, (w.next .mine).countAt r = w.countAt r := by
    intro r hr
    have hnew : ¬w.clock < r := by omega
    simp only [countAt,next,act,List.countP_append,List.countP_singleton,decide_eq_true_eq,
      if_neg hnew,Nat.add_zero]
  refine ⟨fun p hp => ?_,fun t ht => ⟨fun r hr => ?_,?_⟩,fun x hx => ?_⟩
  · rcases List.mem_append.mp hp with hp | hp
    · exact Nat.lt_succ_of_lt (h.mined p hp)
    · rw [List.mem_singleton.mp hp]
      exact Nat.lt_succ_self w.clock
  · exact Nat.le_succ_of_le ((h.tasks t ht).past r hr)
  · have hread : t.readAt.map (w.next .mine).countAt = t.readAt.map w.countAt :=
      Option.map_congr fun r hr => hcount r ((h.tasks t ht).past r hr)
    rw [hread]
    exact (h.tasks t ht).follows
  · obtain ⟨hpast,hnonce⟩ := h.handed x hx
    rw [hcount _ hpast]
    exact ⟨Nat.le_succ_of_le hpast,hnonce⟩

theorem answer_none {w : World} {i : ℕ} {reply : (r : Request) → r.Answer}
    (h : w.tasks[i]? = none) :
    w.next (.answer i reply) = { w with clock := w.clock+1 } := by
  simp only [next,act,answer,h]

theorem answer_some {w : World} {i : ℕ} {reply : (r : Request) → r.Answer} {t : Task}
    (h : w.tasks[i]? = some t) : w.next (.answer i reply) = { w with
      tasks := w.tasks.set i (w.resumed t reply)
      handed := w.handed++(sending t.program).toList.map fun tx => (tx,t.readAt.getD 0)
      clock := w.clock+1 } := by
  simp only [next,act,answer,h]

theorem answer_follow {w : World} (i : ℕ) (reply : (r : Request) → r.Answer) (h : w.Follow) :
    (w.next (.answer i reply)).Follow := by
  cases ht : w.tasks[i]? with
  | none =>
    rw [answer_none ht]
    exact follow_unmined (w := w) rfl rfl rfl rfl h h.tasks h.handed
  | some t =>
    have hsound := h.tasks t (List.mem_of_getElem? ht)
    rw [answer_some ht]
    refine follow_unmined (w := w) rfl rfl rfl rfl h (fun t' ht' => ?_) fun x hx => ?_
    · rcases List.mem_or_eq_of_mem_set ht' with hmem | rfl
      · exact h.tasks t' hmem
      · exact resumed_sound reply h hsound
    · rcases List.mem_append.mp hx with hx | hx
      · exact h.handed x hx
      · obtain ⟨tx,htx,rfl⟩ := List.mem_map.mp hx
        obtain ⟨n,hread,hnonce⟩ := sending_nonce hsound.follows (Option.mem_toList.mp htx)
        obtain ⟨r,hr,rfl⟩ := Option.map_eq_some_iff.mp hread
        rw [hr]
        exact ⟨hsound.past r hr,hnonce⟩

theorem next_follow (w : World) (a : Action) (h : w.Follow) : (w.next a).Follow := by
  cases a with
  | walletSend toAddress value data gasPrice gasLimit =>
    exact called_follow h rfl (walletSend_follows _ _ _ _ _ _ _ _)
  | managerSend recipient value data gasLimit gasPrice =>
    exact called_follow h rfl (managerSend_follows w.wallet.reads _ _ _ _ _ _)
  | answer i reply => exact answer_follow i reply h
  | mine => exact mine_follow h

theorem handed_nodup_iff {w : World} {tx : TransactionRequest} {r : ℕ} (h : w.Follow)
    (hw : w.NoCollision) (hnonce : tx.nonce = some (w.countAt r)) :
    ((w.handed++[(tx,r)]).map fun x => x.1.nonce).Nodup ↔
      ∀ x ∈ w.handed, w.MinedBetween x.2 r := by
  rw [List.map_append,List.map_singleton,← List.concat_eq_append,List.nodup_concat]
  constructor
  · rintro ⟨hfresh,_⟩ x hx
    apply countAt_ne_iff.mp
    intro hcount
    apply hfresh
    rw [hnonce,← hcount,← (h.handed x hx).2]
    exact List.mem_map.mpr ⟨x,hx,rfl⟩
  · intro hmined
    refine ⟨fun hmem => ?_,hw⟩
    obtain ⟨x,hx,hsame⟩ := List.mem_map.mp hmem
    apply countAt_ne_iff.mpr (hmined x hx)
    exact Option.some.inj ((h.handed x hx).2.symm.trans (hsame.trans hnonce))

theorem next_noCollision_iff {w : World} {a : Action} (h : w.Follow) (hw : w.NoCollision) :
    (w.next a).NoCollision ↔ w.Separated a := by
  cases a with
  | answer i reply =>
    cases ht : w.tasks[i]? with
    | none =>
      rw [answer_none ht]
      exact iff_of_true hw fun t ht' => nomatch ht.symm.trans ht'
    | some t =>
      have hsound := h.tasks t (List.mem_of_getElem? ht)
      rw [answer_some ht]
      unfold NoCollision Separated
      cases hsending : sending t.program with
      | none =>
        rw [Option.toList_none,List.map_nil,List.append_nil]
        refine iff_of_true hw fun t' ht' hsome => ?_
        cases ht.symm.trans ht'
        rw [hsending] at hsome
        cases hsome
      | some tx =>
        obtain ⟨n,hread,hnonce⟩ := sending_nonce hsound.follows hsending
        obtain ⟨r,hr,rfl⟩ := Option.map_eq_some_iff.mp hread
        rw [Option.toList_some,List.map_singleton,hr]
        refine (handed_nodup_iff h hw hnonce).trans ?_
        constructor
        · intro hmined t' ht' _
          cases ht.symm.trans ht'
          rw [hr]
          exact hmined
        · intro hseparated
          have hmined := hseparated t ht (by rw [hsending]; rfl)
          rwa [hr] at hmined
  | _ => exact iff_of_true hw trivial

/-! ## All runs -/

/-- In every interleaving of the calls with each other and with mining, no two
transactions handed over collide exactly when between the reads of any two
calls that hand one over a transaction of the wallet is mined. -/
theorem no_collision_iff (wallet : Wallet) (first : ℕ) (actions : List Action) :
    AtomicRun.Throughout next NoCollision actions (start wallet first) ↔
      AtomicRun.Along next Separated actions (start wallet first) := by
  apply AtomicRun.throughout_iff_along next_follow (fun w a => next_noCollision_iff)
  · exact ⟨fun _ hp => (nomatch hp),fun _ ht => (nomatch ht),fun _ hx => (nomatch hx)⟩
  · exact List.nodup_nil

def oneWallet : Wallet where
  integration := ⟨[1],[0xA11CE],21000,fun _ => none⟩
  manager := ⟨[1],fun _ => .ok (),fun text => if text = "0xA11CE" then .ok 0xA11CE else .ok 0xB0B⟩
  chainId := 1
  address := 0xA11CE
  text := "0xA11CE"
  reads := rfl

def granted : (r : Request) → r.Answer
  | .getGasPrice => .ok 1000000000
  | .estimateGas _ => .ok 21000
  | .getTransactionCount _ => .ok 0
  | .signTransaction _ => .ok 0
  | .sendRawTransaction _ => .ok 0
  | .sendTransaction _ => .ok 0

def bothReadFirst : List Action := [
  .walletSend (some 0xB0B) 1 none (some 1000000000) (some 21000),
  .managerSend "0xB0B" (some 1) none (some 21000) (some 1000000000),
  .answer 0 granted,.answer 1 granted,.answer 0 granted,.answer 0 granted,.answer 1 granted]

theorem both_nonces_collide :
    ((AtomicRun.run next bothReadFirst (start oneWallet 7)).handed.map fun x => x.1.nonce) =
        [some 7,some 7] ∧
      ¬AtomicRun.Throughout next NoCollision bothReadFirst (start oneWallet 7) := by
  have hnonces : ((AtomicRun.run next bothReadFirst (start oneWallet 7)).handed.map
      fun x => x.1.nonce) = [some 7,some 7] := by decide
  refine ⟨hnonces,fun h => ?_⟩
  have hnodup := AtomicRun.throughout_last h
  unfold NoCollision at hnodup
  rw [hnonces] at hnodup
  revert hnodup
  decide

end World

end DiamondBot.WalletSend
