import DiamondBot.ChainAdapters.TokenWatch

/-!
# Which transactions are a token's

The mempool loop and the polling loop look for the text of the token's address in the text of
a transaction's input. The text they look for is the abbreviated one that addresses are shown
with.
-/

set_option autoImplicit false

namespace DiamondBot
open Library AtomicRun

def addressBytes (a : Address) : List (BitVec 8) :=
  (List.range 20).map fun i => a.extractLsb' (8*(19-i)) 8

def displayAddress (a : Address) : String :=
  "0x"++hexEncode ((addressBytes a).take 2)++"…"++hexEncode ((addressBytes a).drop 18)

def searchText (tokenAddr : Address) : String :=
  String.ofList (((displayAddress tokenAddr).toList.drop 2).map Char.toLower)

namespace TokenWatch

def ofAddresses (routerAddr tokenAddr : Address) : TokenWatch :=
  ⟨routerAddr,tokenAddr,searchText tokenAddr⟩

variable (w : TokenWatch) (chain : ℕ → List Transaction)

/-! ## The mempool loop -/

def pendingTransaction (reported : List Transaction)
    (answer : Except String (Option Transaction)) : List Transaction :=
  match answer with
  | .ok (some tx) =>
    if tx.toAddress = some w.routerAddr then
      match tx.input with
      | some input =>
        if SendRetry.contains (hexEncode input) w.tokenText then reported++[tx] else reported
      | none => reported
    else if tx.toAddress = some w.tokenAddr then reported++[tx]
    else reported
  | .ok none => reported
  | .error _ => reported

def watchTokenTransactions (answers : List (Except String (Option Transaction))) :
    List Transaction := answers.foldl w.pendingTransaction []

def received (answers : List (Except String (Option Transaction))) : List Transaction :=
  answers.filterMap fun answer =>
    match answer with
    | .ok tx => tx
    | .error _ => none

/-! ## The polling loop -/

def watchWithPolling (polls : List Poll) : List Transaction :=
  (run (w.next chain) polls start).reported

def visited (s : Watched) (poll : Poll) : List Transaction :=
  match poll.height with
  | none => []
  | some currentBlock =>
    (List.range' (s.lastBlock+1) (currentBlock-s.lastBlock)).flatMap fun blockNum =>
      if poll.fetch blockNum = .fetched then chain blockNum else []

def visitedAll : List Poll → Watched → List Transaction
  | [],_ => []
  | poll::polls,s => visited chain s poll++visitedAll polls (w.next chain s poll)

/-! ## What is to be reported -/

def InInput (tx : Transaction) : Prop :=
  ∃ input, tx.input = some input ∧ addressBytes w.tokenAddr <:+: input

def Relevant (tx : Transaction) : Prop :=
  tx.toAddress = some w.tokenAddr ∨ tx.toAddress = some w.routerAddr ∧ w.InInput tx

instance (tx : Transaction) : Decidable (w.InInput tx) :=
  match h : tx.input with
  | none => isFalse (by rintro ⟨input,hinput,_⟩; cases h.symm.trans hinput)
  | some input =>
    decidable_of_iff (addressBytes w.tokenAddr <:+: input)
      ⟨fun hin => ⟨input,h,hin⟩,fun ⟨_,hinput,hin⟩ => by cases h.symm.trans hinput; exact hin⟩

instance (tx : Transaction) : Decidable (w.Relevant tx) :=
  inferInstanceAs (Decidable (_ ∨ _ ∧ w.InInput tx))

structure ReportsRelevant (answers : List (Except String (Option Transaction)))
    (polls : List Poll) : Prop where
  mempool : w.watchTokenTransactions answers = (received answers).filter w.Relevant
  polling : w.watchWithPolling chain polls = (w.visitedAll chain polls start).filter w.Relevant
  same : (received answers).Perm (w.visitedAll chain polls start) →
    (w.watchTokenTransactions answers).Perm (w.watchWithPolling chain polls)

/-! ## The text of an input -/

theorem contains_lacking {text pattern : String} {c : Char} (hpattern : c ∈ pattern.toList)
    (htext : c ∉ text.toList) : SendRetry.contains text pattern = false := by
  rw [SendRetry.contains,decide_eq_false_iff_not]
  exact fun hin => htext (hin.subset hpattern)

theorem ellipsis_not_mem_hexEncode (input : List (BitVec 8)) : '…' ∉ (hexEncode input).toList := by
  have hdigit : ∀ n < 16, '…' ≠ Json.hexDigit n := by decide
  rw [hexEncode,String.toList_ofList,List.mem_flatMap]
  rintro ⟨b,_,hc⟩
  rcases List.mem_cons.mp hc with hhigh | hlow
  · exact hdigit _ (by omega) hhigh
  · exact hdigit _ (Nat.mod_lt _ (by decide)) (List.mem_singleton.mp hlow)

theorem ellipsis_mem_searchText (tokenAddr : Address) : '…' ∈ (searchText tokenAddr).toList := by
  rw [searchText,String.toList_ofList]
  have hlower : '…' = Char.toLower '…' := by decide
  rw [hlower]
  apply List.mem_map_of_mem
  have hsplit : (displayAddress tokenAddr).toList.drop 2 =
      (hexEncode ((addressBytes tokenAddr).take 2)).toList++
        '…'::(hexEncode ((addressBytes tokenAddr).drop 18)).toList := by
    simp [displayAddress]
  rw [hsplit]
  exact List.mem_append_right _ List.mem_cons_self

variable {w chain}

theorem passes_iff (routerAddr tokenAddr : Address) (tx : Transaction) :
    (ofAddresses routerAddr tokenAddr).passes tx = true ↔
      tx.toAddress ≠ some routerAddr ∧ tx.toAddress = some tokenAddr := by
  by_cases hrouter : tx.toAddress = some (ofAddresses routerAddr tokenAddr).routerAddr
  · rw [passes,if_pos hrouter]
    apply iff_of_false
    · cases hinput : tx.input with
      | none => exact Bool.false_ne_true
      | some input =>
        have hlacking := contains_lacking (ellipsis_mem_searchText tokenAddr)
          (ellipsis_not_mem_hexEncode input)
        exact ne_true_of_eq_false hlacking
    · exact fun h => h.1 hrouter
  · rw [passes,if_neg hrouter,decide_eq_true_iff]
    exact (and_iff_right hrouter).symm

/-- Only the transactions to the router are judged wrongly. -/
theorem filter_passes_iff {routerAddr tokenAddr : Address} (h : routerAddr ≠ tokenAddr)
    (txs : List Transaction) :
    txs.filter (ofAddresses routerAddr tokenAddr).passes =
        txs.filter (ofAddresses routerAddr tokenAddr).Relevant ↔
      ∀ tx ∈ txs, ¬(tx.toAddress = some routerAddr ∧
        (ofAddresses routerAddr tokenAddr).InInput tx) := by
  constructor
  · intro heq tx htx hmissed
    have hrelevant : tx ∈ txs.filter (ofAddresses routerAddr tokenAddr).Relevant :=
      List.mem_filter.mpr ⟨htx,decide_eq_true (Or.inr hmissed)⟩
    rw [← heq,List.mem_filter,passes_iff] at hrelevant
    exact hrelevant.2.1 hmissed.1
  · intro hnone
    apply List.filter_congr
    intro tx htx
    rw [Bool.eq_iff_iff,passes_iff,decide_eq_true_iff]
    constructor
    · exact fun hpasses => Or.inl hpasses.2
    · rintro (htoken | hrouter)
      · refine ⟨fun hrouter => h ?_,htoken⟩
        exact Option.some.inj (hrouter.symm.trans htoken)
      · exact absurd hrouter (hnone tx htx)

/-! ## The two loops -/

theorem pendingTransaction_eq (reported : List Transaction) (tx : Transaction) :
    w.pendingTransaction reported (.ok (some tx)) = w.callback reported tx := by
  rw [pendingTransaction,callback,passes]
  by_cases hrouter : tx.toAddress = some w.routerAddr
  · rw [if_pos hrouter,if_pos hrouter]
    cases tx.input with
    | none => rfl
    | some input => rfl
  · rw [if_neg hrouter,if_neg hrouter]
    simp only [decide_eq_true_eq]

theorem watchTokenTransactions_eq (answers : List (Except String (Option Transaction))) :
    w.watchTokenTransactions answers = (received answers).filter w.passes := by
  have hloop : ∀ reported, answers.foldl w.pendingTransaction reported =
      (received answers).foldl w.callback reported := by
    induction answers with
    | nil => exact fun _ => rfl
    | cons answer answers ih =>
      intro reported
      rw [List.foldl_cons,ih]
      rcases answer with e | _ | tx
      · rfl
      · rfl
      · rw [pendingTransaction_eq]
        rfl
  rw [watchTokenTransactions,hloop,foldl_callback,List.nil_append]

theorem next_reported (s : Watched) (poll : Poll) :
    (w.next chain s poll).reported = s.reported++(visited chain s poll).filter w.passes := by
  rw [next,visited]
  cases poll.height with
  | none => exact (List.append_nil _).symm
  | some currentBlock =>
    dsimp only
    by_cases hgrown : currentBlock > s.lastBlock
    · rw [if_pos hgrown]
      dsimp only
      rw [foldl_visitBlock,List.filter_flatMap]
      congr 2
      funext blockNum
      rw [delivered,due]
      by_cases hfetched : poll.fetch blockNum = .fetched
      · rw [if_pos hfetched,if_pos hfetched]
      · rw [if_neg hfetched,if_neg hfetched]
        rfl
    · rw [if_neg hgrown,Nat.sub_eq_zero_of_le (Nat.not_lt.mp hgrown)]
      exact (List.append_nil _).symm

theorem watchWithPolling_eq (polls : List Poll) :
    w.watchWithPolling chain polls = (w.visitedAll chain polls start).filter w.passes := by
  have hloop : ∀ s : Watched, (run (w.next chain) polls s).reported =
      s.reported++(w.visitedAll chain polls s).filter w.passes := by
    induction polls with
    | nil => exact fun s => (List.append_nil _).symm
    | cons poll polls ih =>
      intro s
      rw [run,ih,next_reported,visitedAll,List.filter_append,List.append_assoc]
  exact hloop start

/-- The loops report the same of the same transactions, and what they should just if no
transaction to the router names the token. -/
theorem reportsRelevant_iff {routerAddr tokenAddr : Address} (h : routerAddr ≠ tokenAddr)
    (chain : ℕ → List Transaction) (answers : List (Except String (Option Transaction)))
    (polls : List Poll) :
    (ofAddresses routerAddr tokenAddr).ReportsRelevant chain answers polls ↔
      ∀ tx ∈ received answers++(ofAddresses routerAddr tokenAddr).visitedAll chain polls start,
        ¬(tx.toAddress = some routerAddr ∧ (ofAddresses routerAddr tokenAddr).InInput tx) := by
  rw [List.forall_mem_append,← filter_passes_iff h,← filter_passes_iff h,
    ← watchTokenTransactions_eq,← watchWithPolling_eq]
  constructor
  · exact fun hreports => ⟨hreports.mempool,hreports.polling⟩
  · rintro ⟨hmempool,hpolling⟩
    refine ⟨hmempool,hpolling,fun hsame => ?_⟩
    rw [watchTokenTransactions_eq,watchWithPolling_eq]
    exact hsame.filter _

/-- A transfer to the token is reported by both loops. -/
theorem reportsRelevant_iff_transfer :
    (7 : Address) ≠ 8 ∧
      ((ofAddresses 7 8).ReportsRelevant (fun _ => []) [.ok (some ⟨5,some 8,none⟩)] [] ↔
        ∀ tx ∈ received [.ok (some ⟨5,some 8,none⟩)]++[],
          ¬(tx.toAddress = some 7 ∧ (ofAddresses 7 8).InInput tx)) :=
  ⟨by decide,reportsRelevant_iff (by decide) (fun _ => []) _ []⟩

/-- A call of the router with the token's address as its only argument. -/
theorem reportsRelevant_counterexample :
    let w := ofAddresses 7 8
    let tx : Transaction := ⟨5,some 7,some (List.replicate 12 0++addressBytes 8)⟩
    w.Relevant tx ∧ w.watchTokenTransactions [.ok (some tx)] = [] ∧
      ¬w.ReportsRelevant (fun _ => []) [.ok (some tx)] [] := by
  intro w tx
  have hrelevant : w.Relevant tx :=
    Or.inr ⟨rfl,_,rfl,List.replicate 12 0,[],List.append_nil _⟩
  have hreported : w.watchTokenTransactions [.ok (some tx)] = [] := by
    rw [watchTokenTransactions_eq,List.filter_eq_nil_iff]
    intro tx' htx'
    rw [List.mem_singleton.mp htx',passes_iff]
    exact fun h => h.1 rfl
  refine ⟨hrelevant,hreported,fun h => ?_⟩
  have hmem : tx ∈ (received [.ok (some tx)]).filter w.Relevant :=
    List.mem_filter.mpr ⟨List.mem_singleton.mpr rfl,decide_eq_true hrelevant⟩
  rw [← h.mempool,hreported] at hmem
  cases hmem

end TokenWatch

end DiamondBot
