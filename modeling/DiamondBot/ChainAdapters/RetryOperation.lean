import DiamondBot.ChainAdapters.SendRetry
import Mathlib.Logic.Function.Iterate

/-!
# Retrying an operation of the chain

The loop calls an operation with the gas price of the moment, reads the kind of
an error off its text, and gives up or calls again after a wait. The operation
is any function of the gas price and of a world that it may change, so that
successive calls may have any outcomes. The calls are recorded as they are made.
-/

set_option autoImplicit false

namespace DiamondBot.RetryOperation
open SendRetry

variable {σ α : Type}

structure OperationError where
  operationName : String
  error : BlockchainError
  deriving DecidableEq

/-- One call of the operation and what it returned. -/
structure Call (α : Type) where
  gasPrice : Option ℕ
  outcome : Except String α

/-- The loop with its variables, the calls made and the waits in milliseconds. -/
structure Loop (σ α : Type) where
  world : σ
  retry : Retry
  calls : List (Call α)
  waits : List ℕ

def Loop.answered (s : Loop σ α) (outcome : Except String α) (world : σ) : Loop σ α :=
  { s with
    world
    calls := s.calls++[⟨s.retry.currentGasPrice,outcome⟩] }

theorem afterError_ok {r r' : Retry} {text : String} {waitTime : ℕ}
    (h : r.afterError text = .ok (r',waitTime)) :
    r.retries+1 < r.maxRetries ∧ isRetryable (.ofText text) = true ∧
      r' = ⟨r.currentGasPrice.map (adjustGasForRetry (.ofText text)),r.retries+1,r.maxRetries⟩ ∧
      waitTime ≤ 30000 := by
  unfold Retry.afterError at h
  simp only at h
  split at h
  · cases h
  · rename_i hgo
    cases h
    simp only [not_or,not_le,Bool.not_eq_false] at hgo
    exact ⟨hgo.1,hgo.2,rfl,min_le_right _ _⟩

theorem afterError_error {r : Retry} {text : String} {e : BlockchainError}
    (h : r.afterError text = .error e) :
    e = .ofText text ∧ (r.maxRetries ≤ r.retries+1 ∨ isRetryable (.ofText text) = false) := by
  unfold Retry.afterError at h
  simp only at h
  split at h
  · rename_i hstop
    cases h
    exact ⟨rfl,hstop⟩
  · cases h

def loop (operationName : String) (f : Option ℕ → σ → Except String α × σ) (s : Loop σ α) :
    Except OperationError α × Loop σ α :=
  match f s.retry.currentGasPrice s.world with
  | (.ok result,world) => (.ok result,s.answered (.ok result) world)
  | (.error text,world) =>
    match _h : s.retry.afterError text with
    | .error blockchainError =>
      (.error ⟨operationName,blockchainError⟩,s.answered (.error text) world)
    | .ok (retry,waitTime) =>
      loop operationName f { s.answered (.error text) world with
        retry
        waits := s.waits++[waitTime] }
termination_by s.retry.maxRetries-s.retry.retries
decreasing_by
  obtain ⟨hlt,_,rfl,_⟩ := afterError_ok ‹_›
  simp only
  omega

def retryBlockchainOperation (operationName : String)
    (f : Option ℕ → σ → Except String α × σ) (initialGasPrice : Option ℕ) (maxRetries : ℕ)
    (world : σ) : Except OperationError α × Loop σ α :=
  loop operationName f ⟨world,Retry.start initialGasPrice maxRetries,[],[]⟩

/-! ## What a run of the loop does -/

def isLowGas : BlockchainError → Bool
  | .lowGas _ => true
  | _ => false

def lowGas : Except String α → Bool
  | .ok _ => false
  | .error text => isLowGas (.ofText text)

def raised (gasPrice : ℕ) : ℕ := gasPrice*12/10

def priceAfter (initialGasPrice : Option ℕ) (calls : List (Call α)) : Option ℕ :=
  initialGasPrice.map (raised^[calls.countP fun c => lowGas c.outcome])

def Retried (c : Call α) : Prop :=
  ∃ text, c.outcome = .error text ∧ isRetryable (.ofText text) = true

def Answers (f : Option ℕ → σ → Except String α × σ) : σ → List (Call α) → σ → Prop
  | world, [], world' => world = world'
  | world, c::cs, world' =>
    (f c.gasPrice world).1 = c.outcome ∧ Answers f (f c.gasPrice world).2 cs world'

def Priced (initialGasPrice : Option ℕ) (calls : List (Call α)) : Prop :=
  ∀ before c after, calls = before++c::after → c.gasPrice = priceAfter initialGasPrice before

theorem answers_append (f : Option ℕ → σ → Except String α × σ) (calls rest : List (Call α))
    (world world' : σ) : Answers f world (calls++rest) world' ↔
      ∃ between, Answers f world calls between ∧ Answers f between rest world' := by
  induction calls generalizing world with
  | nil => simp [Answers]
  | cons c cs ih => simp only [List.cons_append,Answers,ih,and_assoc,exists_and_left]

theorem priced_nil (initialGasPrice : Option ℕ) : Priced (α := α) initialGasPrice [] := by
  intro before c after h
  simp at h

theorem priced_append {initialGasPrice : Option ℕ} {calls : List (Call α)} {c : Call α}
    (h : Priced initialGasPrice calls) (hc : c.gasPrice = priceAfter initialGasPrice calls) :
    Priced initialGasPrice (calls++[c]) := by
  intro before d after hsplit
  rcases List.eq_nil_or_concat after with hnil | ⟨rest,last,hlast⟩
  · subst hnil
    obtain ⟨rfl,hd⟩ := List.append_inj' hsplit rfl
    cases hd
    exact hc
  · subst hlast
    have hsplit' : calls++[c] = (before++d::rest)++[last] := by simpa using hsplit
    exact h before d rest (List.append_inj_left' hsplit' rfl)

theorem priceAfter_append (initialGasPrice : Option ℕ) (calls : List (Call α)) (c : Call α) :
    priceAfter initialGasPrice (calls++[c]) =
      (priceAfter initialGasPrice calls).map fun g => if lowGas c.outcome then raised g else g := by
  unfold priceAfter
  rw [List.countP_append,List.countP_singleton,Option.map_map]
  split
  · rw [Function.iterate_succ']
  · rfl

theorem adjust_eq (e : BlockchainError) (g : ℕ) :
    adjustGasForRetry e g = if isLowGas e then raised g else g := by
  cases e with
  | lowGas text =>
    simp only [adjustGasForRetry,isLowGas,raised,if_true]
    omega
  | _ => rfl

theorem raised_ge (g : ℕ) : g ≤ raised g := by
  unfold raised
  omega

theorem iterate_raised_mono (g : ℕ) {m n : ℕ} (h : m ≤ n) : raised^[m] g ≤ raised^[n] g := by
  induction h with
  | refl => exact le_rfl
  | step _ ih =>
    rw [Function.iterate_succ_apply']
    exact ih.trans (raised_ge _)

theorem priceAfter_mono {initialGasPrice : Option ℕ} {before after : List (Call α)} {g g' : ℕ}
    (h : priceAfter initialGasPrice before = some g)
    (h' : priceAfter initialGasPrice (before++after) = some g') : g ≤ g' := by
  obtain ⟨start,rfl,rfl⟩ := Option.map_eq_some_iff.mp h
  obtain ⟨_,hstart,rfl⟩ := Option.map_eq_some_iff.mp h'
  cases hstart
  apply iterate_raised_mono
  rw [List.countP_append]
  exact Nat.le_add_right _ _

/-- Prices that follow the errors never fall. -/
theorem priced_sorted {initialGasPrice : Option ℕ} (calls : List (Call α))
    (h : Priced initialGasPrice calls) :
    (calls.filterMap Call.gasPrice).Pairwise (· ≤ ·) := by
  induction calls using List.reverseRecOn with
  | nil => exact List.Pairwise.nil
  | append_singleton calls c ih =>
    have hfront : Priced initialGasPrice calls := by
      intro before d after hsplit
      exact h before d (after++[c]) (by simp [hsplit])
    rw [List.filterMap_append,List.pairwise_append]
    refine ⟨ih hfront,by cases hc : c.gasPrice <;> simp [hc],?_⟩
    intro g hg g' hg'
    obtain ⟨d,hd,hdg⟩ := List.mem_filterMap.mp hg
    obtain ⟨c',hc',hcg⟩ := List.mem_filterMap.mp hg'
    cases List.mem_singleton.mp hc'
    obtain ⟨before,after,rfl⟩ := List.append_of_mem hd
    rw [hfront before d after rfl] at hdg
    rw [h (before++d::after) c [] rfl] at hcg
    exact priceAfter_mono hdg hcg

/-- The loop between two calls, `M` calls being allowed. -/
structure Going (f : Option ℕ → σ → Except String α × σ) (initialGasPrice : Option ℕ) (M : ℕ)
    (world : σ) (s : Loop σ α) : Prop where
  limit : s.retry.maxRetries = M
  counted : s.retry.retries = s.calls.length
  room : s.calls.length < M
  retried : ∀ c ∈ s.calls, Retried c
  priced : Priced initialGasPrice s.calls
  price : s.retry.currentGasPrice = priceAfter initialGasPrice s.calls
  answers : Answers f world s.calls s.world

/-- What the loop has done when it returns: it made at most `M` calls, retried
after all but the last, and returns what the last one says. -/
structure Returned (operationName : String) (f : Option ℕ → σ → Except String α × σ)
    (initialGasPrice : Option ℕ) (M : ℕ) (world : σ) (result : Except OperationError α)
    (s : Loop σ α) : Prop where
  count : s.calls.length ≤ M
  ended : ∃ earlier last, s.calls = earlier++[last] ∧ (∀ c ∈ earlier, Retried c) ∧
    (∀ a, last.outcome = .ok a → result = .ok a) ∧
    ∀ text, last.outcome = .error text → result = .error ⟨operationName,.ofText text⟩ ∧
      (s.calls.length = M ∨ isRetryable (.ofText text) = false)
  priced : Priced initialGasPrice s.calls
  sorted : (s.calls.filterMap Call.gasPrice).Pairwise (· ≤ ·)
  answers : Answers f world s.calls s.world

theorem going_answered {f : Option ℕ → σ → Except String α × σ} {initialGasPrice : Option ℕ}
    {M : ℕ} {world : σ} {s : Loop σ α} (h : Going f initialGasPrice M world s)
    {outcome : Except String α} {world' : σ}
    (hcall : f s.retry.currentGasPrice s.world = (outcome,world')) :
    (s.answered outcome world').calls.length = s.calls.length+1 ∧
      Priced initialGasPrice (s.answered outcome world').calls ∧
      Answers f world (s.answered outcome world').calls world' := by
  refine ⟨List.length_append,priced_append h.priced h.price,?_⟩
  apply (answers_append _ _ _ _ _).mpr
  exact ⟨s.world,h.answers,by rw [hcall],by simp only [hcall,Answers]⟩

theorem returned_answered {operationName : String} {f : Option ℕ → σ → Except String α × σ}
    {initialGasPrice : Option ℕ} {M : ℕ} {world : σ} {s : Loop σ α}
    (h : Going f initialGasPrice M world s) {outcome : Except String α} {world' : σ}
    (hcall : f s.retry.currentGasPrice s.world = (outcome,world'))
    {result : Except OperationError α} (hok : ∀ a, outcome = .ok a → result = .ok a)
    (herror : ∀ text, outcome = .error text → result = .error ⟨operationName,.ofText text⟩ ∧
      (M ≤ s.calls.length+1 ∨ isRetryable (.ofText text) = false)) :
    Returned operationName f initialGasPrice M world result (s.answered outcome world') := by
  obtain ⟨hlength,hpriced,hanswers⟩ := going_answered h hcall
  have hroom := h.room
  refine ⟨by omega,⟨s.calls,_,rfl,h.retried,hok,?_⟩,hpriced,priced_sorted _ hpriced,hanswers⟩
  intro text htext
  obtain ⟨hresult,hstop⟩ := herror text htext
  exact ⟨hresult,hstop.imp_left fun hle => by omega⟩

theorem loop_returned (operationName : String) (f : Option ℕ → σ → Except String α × σ)
    (initialGasPrice : Option ℕ) (M : ℕ) (world : σ) (s : Loop σ α)
    (h : Going f initialGasPrice M world s) :
    Returned operationName f initialGasPrice M world (loop operationName f s).1
      (loop operationName f s).2 := by
  fun_induction loop operationName f s with
  | case1 s result world' hcall =>
    exact returned_answered h hcall (fun a ha => by cases ha; rfl) (fun text htext => by cases htext)
  | case2 s text world' hcall e hafter =>
    obtain ⟨rfl,hstop⟩ := afterError_error hafter
    rw [h.limit,h.counted] at hstop
    exact returned_answered h hcall (fun a ha => by cases ha)
      (fun text' htext => by cases htext; exact ⟨rfl,hstop⟩)
  | case3 s text world' hcall retry waitTime hafter ih =>
    obtain ⟨hlt,hretry,rfl,_⟩ := afterError_ok hafter
    obtain ⟨hlength,hpriced,hanswers⟩ := going_answered h hcall
    apply ih
    constructor
    · exact h.limit
    · exact (congrArg (·+1) h.counted).trans hlength.symm
    · have hlimit := h.limit
      have hcounted := h.counted
      change (s.answered (.error text) world').calls.length < M
      omega
    · intro c hc
      rcases List.mem_append.mp hc with hc | hc
      · exact h.retried c hc
      · cases List.mem_singleton.mp hc
        exact ⟨text,rfl,hretry⟩
    · exact hpriced
    · change s.retry.currentGasPrice.map _ = priceAfter initialGasPrice (s.calls++[_])
      rw [priceAfter_append,h.price]
      exact congrArg (fun raise => Option.map raise _) (funext fun g => adjust_eq _ g)
    · exact hanswers

theorem loop_waits (operationName : String) (f : Option ℕ → σ → Except String α × σ)
    (s : Loop σ α) (h : ∀ w ∈ s.waits, w ≤ 30000) :
    ∀ w ∈ (loop operationName f s).2.waits, w ≤ 30000 := by
  fun_induction loop operationName f s with
  | case1 => exact h
  | case2 => exact h
  | case3 s text world' hcall retry waitTime hafter ih =>
    apply ih
    intro w hw
    rcases List.mem_append.mp hw with hw | hw
    · exact h w hw
    · cases List.mem_singleton.mp hw
      exact (afterError_ok hafter).2.2.2

/-- Whatever the calls return, the operation is called at most the allowed
number of times and the loop ends with the first success, the first error that
is not retried or the last error. Each call gets the initial price raised once
for each low gas error in front of it, so the prices never fall. -/
theorem retryBlockchainOperation_returned (operationName : String)
    (f : Option ℕ → σ → Except String α × σ) (initialGasPrice : Option ℕ) (maxRetries : ℕ)
    (world : σ) :
    Returned operationName f initialGasPrice (if maxRetries = 0 then 3 else maxRetries) world
      (retryBlockchainOperation operationName f initialGasPrice maxRetries world).1
      (retryBlockchainOperation operationName f initialGasPrice maxRetries world).2 := by
  apply loop_returned
  constructor
  · rfl
  · rfl
  · change 0 < _
    split <;> omega
  · intro c hc
    cases hc
  · exact priced_nil _
  · change initialGasPrice = initialGasPrice.map _
    simp
  · rfl

end DiamondBot.RetryOperation
