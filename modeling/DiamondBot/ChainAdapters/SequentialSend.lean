import Mathlib.Data.List.Infix
import Mathlib.Tactic.ByContra

/-!
# Transactions sent one after the other

Each transaction is sent when the wait for the one before it is over. What the
chain does with a transaction is an input.
-/

set_option autoImplicit false

namespace DiamondBot.SequentialSend

structure LocalWallet where
  address : ℕ
  chainId : UInt64

structure Receipt where
  status : Option ℕ

/-- A transaction, with the answer to its sending by a client and the end of the wait. -/
structure Sending (Tx Hash : Type) where
  tx : Tx
  sendTransaction : LocalWallet → Except String Hash
  pendingTransaction : Hash → Except String (Option Receipt)

structure Adapter where
  wallet : Option LocalWallet
  chainId : UInt64

variable {Tx Hash : Type}

def sendAll (client : LocalWallet) :
    List (Sending Tx Hash) → Except String Unit×List (Sending Tx Hash)
  | [] => (.ok (),[])
  | s::rest =>
    match s.sendTransaction client with
    | .error e => (.error e,[s])
    | .ok txHash =>
      match s.pendingTransaction txHash with
      | .error e => (.error e,[s])
      | .ok (some r) =>
        if r.status = some 1 then ((sendAll client rest).1,s::(sendAll client rest).2)
        else (.error "Giao dịch trong chuỗi thất bại",[s])
      -- no receipt: there is a warning, and the next transaction is sent
      | .ok none => ((sendAll client rest).1,s::(sendAll client rest).2)

namespace Adapter

def getWalletWithChainId (a : Adapter) : Except String LocalWallet :=
  match a.wallet with
  | some wallet => .ok { wallet with chainId := a.chainId }
  | none => .error "Không có ví để thực hiện giao dịch"

def getClient (a : Adapter) : Except String LocalWallet := a.getWalletWithChainId

def sendTransactionsSequentially (a : Adapter) (txs : List (Sending Tx Hash)) :
    Except String Unit×List (Sending Tx Hash) :=
  match a.getClient with
  | .error e => (.error e,[])
  | .ok client => sendAll client txs

end Adapter

/-! ## What the callers rely on -/

/-- The transaction has been mined with status one. -/
def Confirmed (client : LocalWallet) (s : Sending Tx Hash) : Prop :=
  ∃ txHash r, s.sendTransaction client = .ok txHash ∧
    s.pendingTransaction txHash = .ok (some r) ∧ r.status = some 1

/-- The transaction was sent, and no receipt came. -/
def Missing (client : LocalWallet) (s : Sending Tx Hash) : Prop :=
  ∃ txHash, s.sendTransaction client = .ok txHash ∧ s.pendingTransaction txHash = .ok none

/-- Without a wallet nothing happens to a transaction. -/
def Adapter.Holds (a : Adapter) (p : LocalWallet → Sending Tx Hash → Prop)
    (s : Sending Tx Hash) : Prop := ∃ client, a.getClient = .ok client ∧ p client s

structure StopsAtFirst (confirmed : Sending Tx Hash → Prop) (txs : List (Sending Tx Hash))
    (result : Except String Unit) (sent : List (Sending Tx Hash)) : Prop where
  order : sent <+: txs
  earlier : ∀ s ∈ sent.dropLast, confirmed s
  returns : result = .ok () ↔ ∀ s ∈ txs, confirmed s

/-- The first transaction that is not confirmed is not one without a receipt. -/
def NoneMissing (confirmed missing : Sending Tx Hash → Prop) (txs : List (Sending Tx Hash)) :
    Prop :=
  ∀ before s after, txs = before++s::after → missing s → ∃ b ∈ before, ¬confirmed b

/-! ## The loop -/

variable {client : LocalWallet} {s : Sending Tx Hash} {rest : List (Sending Tx Hash)}

theorem missing_not_confirmed (h : Missing client s) : ¬Confirmed client s := by
  rintro ⟨txHash',r,hsent',hreceipt,_⟩
  obtain ⟨txHash,hsent,hnone⟩ := h
  cases hsent.symm.trans hsent'
  cases hnone.symm.trans hreceipt

theorem sendAll_goes_on (h : Confirmed client s ∨ Missing client s) :
    sendAll client (s::rest) = ((sendAll client rest).1,s::(sendAll client rest).2) := by
  rcases h with ⟨txHash,r,hsent,hreceipt,hstatus⟩ | ⟨txHash,hsent,hnone⟩
  · simp only [sendAll,hsent,hreceipt,hstatus,if_true]
  · simp only [sendAll,hsent,hnone]

theorem sendAll_stops (h : ¬Confirmed client s) (h' : ¬Missing client s)
    (rest : List (Sending Tx Hash)) : ∃ e, sendAll client (s::rest) = (.error e,[s]) := by
  rw [sendAll]
  cases hsent : s.sendTransaction client with
  | error e => exact ⟨e,rfl⟩
  | ok txHash =>
    dsimp only
    cases hreceipt : s.pendingTransaction txHash with
    | error e => exact ⟨e,rfl⟩
    | ok receipt =>
      cases receipt with
      | none => exact absurd ⟨txHash,hsent,hreceipt⟩ h'
      | some r => exact ⟨_,if_neg fun hstatus => h ⟨txHash,r,hsent,hreceipt,hstatus⟩⟩

theorem sendAll_sent (client : LocalWallet) (s : Sending Tx Hash) (rest : List (Sending Tx Hash)) :
    ∃ sent, (sendAll client (s::rest)).2 = s::sent := by
  by_cases hgoes : Confirmed client s ∨ Missing client s
  · rw [sendAll_goes_on hgoes]
    exact ⟨_,rfl⟩
  · rw [not_or] at hgoes
    obtain ⟨e,hstops⟩ := sendAll_stops hgoes.1 hgoes.2 rest
    rw [hstops]
    exact ⟨[],rfl⟩

theorem stopsAtFirst_cons {confirmed : Sending Tx Hash → Prop} (h : confirmed s)
    (result : Except String Unit) (sent : List (Sending Tx Hash)) :
    StopsAtFirst confirmed (s::rest) result (s::sent) ↔
      StopsAtFirst confirmed rest result sent := by
  have hearlier : (∀ x ∈ (s::sent).dropLast, confirmed x) ↔ ∀ x ∈ sent.dropLast, confirmed x := by
    cases sent with
    | nil => rfl
    | cons x sent => rw [List.dropLast_cons_cons,List.forall_mem_cons,and_iff_right h]
  have hreturns : (∀ x ∈ s::rest, confirmed x) ↔ ∀ x ∈ rest, confirmed x := by
    rw [List.forall_mem_cons,and_iff_right h]
  have horder : s::sent <+: s::rest ↔ sent <+: rest := by
    rw [List.cons_prefix_cons,and_iff_right rfl]
  constructor
  · intro hstops
    exact ⟨horder.mp hstops.order,hearlier.mp hstops.earlier,hstops.returns.trans hreturns⟩
  · intro hstops
    exact ⟨horder.mpr hstops.order,hearlier.mpr hstops.earlier,hstops.returns.trans hreturns.symm⟩

theorem noneMissing_cons {confirmed missing : Sending Tx Hash → Prop} (h : confirmed s)
    (h' : ¬missing s) :
    NoneMissing confirmed missing (s::rest) ↔ NoneMissing confirmed missing rest := by
  constructor
  · intro hall before x after heq hmissing
    rcases hall (s::before) x after (by rw [heq]; rfl) hmissing with ⟨b,hb,hnot⟩
    rcases List.mem_cons.mp hb with rfl | hb
    · exact absurd h hnot
    · exact ⟨b,hb,hnot⟩
  · intro hall before x after heq hmissing
    cases before with
    | nil =>
      cases heq
      exact absurd hmissing h'
    | cons b before =>
      cases heq
      rcases hall before x after rfl hmissing with ⟨b,hb,hnot⟩
      exact ⟨b,List.mem_cons_of_mem _ hb,hnot⟩

theorem missing_not_stopsAtFirst (h : Missing client s) (rest : List (Sending Tx Hash)) :
    ¬StopsAtFirst (Confirmed client) (s::rest) (sendAll client (s::rest)).1
      (sendAll client (s::rest)).2 := by
  have hnot := missing_not_confirmed h
  rw [sendAll_goes_on (Or.inr h)]
  intro hstops
  cases rest with
  | nil => exact hnot (hstops.returns.mp rfl s List.mem_cons_self)
  | cons x rest =>
    obtain ⟨sent,hsent⟩ := sendAll_sent client x rest
    rw [hsent] at hstops
    exact hnot (hstops.earlier s List.mem_cons_self)

theorem sendAll_iff (client : LocalWallet) (txs : List (Sending Tx Hash)) :
    StopsAtFirst (Confirmed client) txs (sendAll client txs).1 (sendAll client txs).2 ↔
      NoneMissing (Confirmed client) (Missing client) txs := by
  induction txs with
  | nil =>
    apply iff_of_true
    · exact ⟨List.prefix_rfl,fun _ hs => absurd hs List.not_mem_nil,
        fun _ _ hs => absurd hs List.not_mem_nil,fun _ => rfl⟩
    · intro before s after heq
      cases before <;> cases heq
  | cons s rest ih =>
    by_cases hconfirmed : Confirmed client s
    · have hpresent : ¬Missing client s := fun h => missing_not_confirmed h hconfirmed
      rw [sendAll_goes_on (Or.inl hconfirmed),stopsAtFirst_cons hconfirmed,ih,
        noneMissing_cons hconfirmed hpresent]
    · by_cases hmissing : Missing client s
      · apply iff_of_false (missing_not_stopsAtFirst hmissing rest)
        intro hall
        rcases hall [] s rest rfl hmissing with ⟨b,hb,_⟩
        cases hb
      · obtain ⟨e,hstops⟩ := sendAll_stops hconfirmed hmissing rest
        rw [hstops]
        apply iff_of_true
        · refine ⟨⟨rest,rfl⟩,fun _ hs => absurd hs List.not_mem_nil,?_⟩
          apply iff_of_false (by rintro ⟨⟩)
          intro hall
          exact hconfirmed (hall s List.mem_cons_self)
        · intro before x after heq hx
          cases before with
          | nil =>
            cases heq
            exact absurd hx hmissing
          | cons b before =>
            cases heq
            exact ⟨s,List.mem_cons_self,hconfirmed⟩

theorem holds_of_client {a : Adapter} (h : a.getClient = .ok client)
    (p : LocalWallet → Sending Tx Hash → Prop) : a.Holds p = p client := by
  funext s
  apply propext
  constructor
  · rintro ⟨client',hclient,hp⟩
    cases h.symm.trans hclient
    exact hp
  · exact fun hp => ⟨client,h,hp⟩

theorem getClient_none {a : Adapter} (h : a.wallet = none) :
    a.getClient = .error "Không có ví để thực hiện giao dịch" := by
  rw [Adapter.getClient,Adapter.getWalletWithChainId,h]

theorem getClient_some {a : Adapter} {wallet : LocalWallet} (h : a.wallet = some wallet) :
    a.getClient = .ok { wallet with chainId := a.chainId } := by
  rw [Adapter.getClient,Adapter.getWalletWithChainId,h]

theorem not_holds {a : Adapter} (h : a.wallet = none) (p : LocalWallet → Sending Tx Hash → Prop)
    (s : Sending Tx Hash) : ¬a.Holds p s := by
  rintro ⟨client,hclient,_⟩
  cases (getClient_none h).symm.trans hclient

/-- The sending stops where it should just if the first transaction that is not confirmed has
a receipt or an error. -/
theorem sendTransactionsSequentially_iff (a : Adapter) (txs : List (Sending Tx Hash)) :
    StopsAtFirst (a.Holds Confirmed) txs (a.sendTransactionsSequentially txs).1
        (a.sendTransactionsSequentially txs).2 ↔
      (a.wallet ≠ none ∨ txs ≠ []) ∧ NoneMissing (a.Holds Confirmed) (a.Holds Missing) txs := by
  cases hwallet : a.wallet with
  | some wallet =>
    have hclient := getClient_some hwallet
    rw [Adapter.sendTransactionsSequentially,hclient,holds_of_client hclient,
      holds_of_client hclient]
    dsimp only
    rw [sendAll_iff,and_iff_right (Or.inl (Option.some_ne_none wallet))]
  | none =>
    have hmissing : NoneMissing (a.Holds Confirmed) (a.Holds Missing) txs :=
      fun _ s _ _ h => absurd h (not_holds hwallet Missing s)
    rw [Adapter.sendTransactionsSequentially,getClient_none hwallet,and_iff_left hmissing,
      or_iff_right (not_not.mpr rfl)]
    dsimp only
    cases txs with
    | nil =>
      apply iff_of_false
      · intro h
        cases h.returns.mpr fun _ hs => absurd hs List.not_mem_nil
      · exact not_not.mpr rfl
    | cons s rest =>
      apply iff_of_true
      · refine ⟨List.nil_prefix,fun _ hs => absurd hs List.not_mem_nil,?_⟩
        apply iff_of_false (by rintro ⟨⟩)
        intro hall
        exact not_holds hwallet Confirmed s (hall s List.mem_cons_self)
      · exact List.cons_ne_nil s rest

/-- There is no receipt for the first transaction, and the second is sent all the same. -/
theorem sendTransactionsSequentially_counterexample :
    let approve : Sending String ℕ := ⟨"approve",fun _ => .ok 1,fun _ => .ok none⟩
    let swap : Sending String ℕ := ⟨"swap",fun _ => .ok 2,fun _ => .ok (some ⟨some 1⟩)⟩
    let a : Adapter := ⟨some ⟨7,0⟩,1⟩
    ¬StopsAtFirst (a.Holds Confirmed) [approve,swap]
      (a.sendTransactionsSequentially [approve,swap]).1
      (a.sendTransactionsSequentially [approve,swap]).2 := by
  intro approve swap a h
  rcases h.earlier approve List.mem_cons_self with ⟨client,_,hconfirmed⟩
  exact missing_not_confirmed ⟨1,rfl,rfl⟩ hconfirmed

end DiamondBot.SequentialSend
