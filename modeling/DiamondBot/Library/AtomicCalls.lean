import Mathlib.Data.List.Basic
import Mathlib.Logic.Function.Iterate

/-!
# Calls made of atomic commands

A call sends commands to a server, one after the other, and reads the clock
between them. A command is answered in one step, or fails, or waits for its
answer; the call says what it does with either. A pool is the state of the
server with every call made of it so far, each at the command it has come to.
-/

set_option autoImplicit false

namespace Library

structure Interface where
  Command : Type
  Reply : Command → Type
  Clock : Type

variable {I : Interface} {A B S Q : Type}

inductive Call (I : Interface) (A : Type)
  | done (result : Except String A)
  | clock (next : I.Clock → Call I A)
  | command (c : I.Command) (next : Except String (I.Reply c) → Call I A)

namespace Call

def bind : Call I A → (A → Call I B) → Call I B
  | .done (.ok a),f => f a
  | .done (.error e),_ => .done (.error e)
  | .clock next,f => .clock fun now => (next now).bind f
  | .command c next,f => .command c fun reply => (next reply).bind f

instance : Monad (Call I) where
  pure a := .done (.ok a)
  bind := Call.bind

def send (c : I.Command) : Call I (I.Reply c) := .command c .done

def now : Call I I.Clock := .clock fun now => .done (.ok now)

def raise (e : String) : Call I A := .done (.error e)

theorem bind_assoc {C : Type} (call : Call I A) (f : A → Call I B) (g : B → Call I C) :
    (call >>= f) >>= g = call >>= fun a => f a >>= g := by
  change (call.bind f).bind g = call.bind fun a => (f a).bind g
  induction call with
  | done result =>
    cases result with
    | ok a => rfl
    | error e => rfl
  | clock next ih => exact congrArg Call.clock (funext ih)
  | command c next ih => exact congrArg (Call.command c) (funext ih)

theorem bind_pure (call : Call I A) : (call >>= fun a => .done (.ok a)) = call := by
  change (call.bind fun a => .done (.ok a)) = call
  induction call with
  | done result => cases result <;> rfl
  | clock next ih => exact congrArg Call.clock (funext ih)
  | command c next ih => exact congrArg (Call.command c) (funext ih)

@[simp] theorem pure_eq (a : A) : (pure a : Call I A) = .done (.ok a) := rfl

@[simp] theorem ok_bind (a : A) (f : A → Call I B) : (Call.done (.ok a) >>= f) = f a := rfl

@[simp] theorem error_bind (e : String) (f : A → Call I B) :
    (Call.done (.error e) >>= f) = .done (.error e) := rfl

@[simp] theorem clock_bind (next : I.Clock → Call I A) (f : A → Call I B) :
    (Call.clock next >>= f) = .clock fun now => next now >>= f := rfl

@[simp] theorem command_bind (c : I.Command) (next : Except String (I.Reply c) → Call I A)
    (f : A → Call I B) : (Call.command c next >>= f) = .command c fun reply => next reply >>= f :=
  rfl

def settle (now : I.Clock) : Call I A → Call I A
  | .done result => .done result
  | .clock next => (next now).settle now
  | .command c next => .command c next

/-! ## What a call does -/

/-- The call sends only allowed commands and returns only what it may, as long
as the replies are as promised. -/
def Obeys (allowed : I.Command → Prop) (promised : (c : I.Command) → I.Reply c → Prop)
    (returns : A → Prop) : Call I A → Prop
  | .done (.ok a) => returns a
  | .done (.error _) => True
  | .clock next => ∀ now, (next now).Obeys allowed promised returns
  | .command c next => allowed c ∧ (∀ e, (next (.error e)).Obeys allowed promised returns) ∧
      ∀ reply, promised c reply → (next (.ok reply)).Obeys allowed promised returns

section Obeys

variable {allowed : I.Command → Prop} {promised : (c : I.Command) → I.Reply c → Prop}

theorem obeys_bind {returns : A → Prop} {returns' : B → Prop} {call : Call I A}
    {f : A → Call I B} (hcall : call.Obeys allowed promised returns)
    (hf : ∀ a, returns a → (f a).Obeys allowed promised returns') :
    (call >>= f).Obeys allowed promised returns' := by
  change (call.bind f).Obeys allowed promised returns'
  induction call with
  | done result =>
    cases result with
    | ok a => exact hf a hcall
    | error e => exact trivial
  | clock next ih => exact fun now => ih now (hcall now)
  | command c next ih =>
    exact ⟨hcall.1,fun e => ih _ (hcall.2.1 e),fun reply hreply => ih _ (hcall.2.2 reply hreply)⟩

theorem obeys_bind_iff {returns : B → Prop} {call : Call I A} {f : A → Call I B} :
    (call >>= f).Obeys allowed promised returns ↔
      call.Obeys allowed promised fun a => (f a).Obeys allowed promised returns := by
  change (call.bind f).Obeys allowed promised returns ↔ _
  induction call with
  | done result => cases result <;> rfl
  | clock next ih => exact forall_congr' ih
  | command c next ih =>
    exact and_congr_right fun _ => and_congr (forall_congr' fun e => ih _)
      (forall_congr' fun reply => imp_congr_right fun _ => ih _)

theorem obeys_send {c : I.Command} (h : allowed c) :
    (send c).Obeys allowed promised (promised c) :=
  ⟨h,fun _ => trivial,fun _ hreply => hreply⟩

theorem obeys_now {returns : A → Prop} {f : I.Clock → Call I A}
    (h : ∀ now, (f now).Obeys allowed promised returns) :
    (Call.now >>= f).Obeys allowed promised returns := h

theorem obeys_mono {allowed' : I.Command → Prop} {promised' : (c : I.Command) → I.Reply c → Prop}
    {returns returns' : A → Prop} {call : Call I A}
    (hcall : call.Obeys allowed promised returns) (hallowed : ∀ c, allowed c → allowed' c)
    (hpromised : ∀ c reply, promised' c reply → promised c reply)
    (hreturns : ∀ a, returns a → returns' a) : call.Obeys allowed' promised' returns' := by
  induction call with
  | done result =>
    cases result with
    | ok a => exact hreturns a hcall
    | error e => exact trivial
  | clock next ih => exact fun now => ih now (hcall now)
  | command c next ih =>
    exact ⟨hallowed c hcall.1,fun e => ih _ (hcall.2.1 e),
      fun reply hreply => ih _ (hcall.2.2 reply (hpromised c reply hreply))⟩

theorem obeys_settle {returns : A → Prop} {call : Call I A} (now : I.Clock)
    (hcall : call.Obeys allowed promised returns) :
    (call.settle now).Obeys allowed promised returns := by
  induction call with
  | done result => exact hcall
  | clock next ih => exact ih now (hcall now)
  | command c next ih => exact hcall

end Obeys

/-- The call ends with a value that is as stated, when all its commands are answered as
promised. -/
def Completes (promised : (c : I.Command) → I.Reply c → Prop) (returns : A → Prop) :
    Call I A → Prop
  | .done (.ok a) => returns a
  | .done (.error _) => False
  | .clock next => ∀ now, (next now).Completes promised returns
  | .command c next => ∀ reply, promised c reply → (next (.ok reply)).Completes promised returns

section Completes

variable {promised : (c : I.Command) → I.Reply c → Prop}

theorem completes_bind_iff {returns : B → Prop} {call : Call I A} {f : A → Call I B} :
    (call >>= f).Completes promised returns ↔
      call.Completes promised fun a => (f a).Completes promised returns := by
  change (call.bind f).Completes promised returns ↔ _
  induction call with
  | done result => cases result <;> rfl
  | clock next ih => exact forall_congr' ih
  | command c next ih => exact forall_congr' fun reply => imp_congr_right fun _ => ih _

end Completes

def Sends (allowed : I.Command → Prop) (call : Call I A) : Prop :=
  call.Obeys allowed (fun _ _ => True) fun _ => True

section Sends

variable {allowed : I.Command → Prop}

theorem sends_done (result : Except String A) : (Call.done result : Call I A).Sends allowed := by
  cases result with
  | ok a => exact trivial
  | error e => exact trivial

theorem sends_send {c : I.Command} (h : allowed c) : (send c).Sends allowed :=
  ⟨h,fun _ => trivial,fun _ _ => trivial⟩

theorem sends_now {f : I.Clock → Call I A} (h : ∀ now, (f now).Sends allowed) :
    (Call.now >>= f).Sends allowed := h

theorem sends_bind {call : Call I A} {f : A → Call I B} (hcall : call.Sends allowed)
    (hf : ∀ a, (f a).Sends allowed) : (call >>= f).Sends allowed :=
  obeys_bind hcall fun a _ => hf a

theorem sends_mono {allowed' : I.Command → Prop} {call : Call I A} (hcall : call.Sends allowed)
    (h : ∀ c, allowed c → allowed' c) : call.Sends allowed' :=
  obeys_mono hcall h (fun _ _ => id) fun _ => id

end Sends

def SucceedsBy (last : I.Command → Prop) : Call I A → Prop
  | .done (.ok _) => False
  | .done (.error _) => True
  | .clock next => ∀ now, (next now).SucceedsBy last
  | .command c next => (∀ e, (next (.error e)).SucceedsBy last) ∧
      ∀ reply, (next (.ok reply)).SucceedsBy last ∨ last c ∧ ∃ result, next (.ok reply) = .done result

section SucceedsBy

variable {last : I.Command → Prop}

theorem succeedsBy_send {c : I.Command} (h : last c) : (send c).SucceedsBy last :=
  ⟨fun _ => trivial,fun _ => Or.inr ⟨h,_,rfl⟩⟩

theorem succeedsBy_bind {call : Call I A} {f : A → Call I B} (h : ∀ a, (f a).SucceedsBy last) :
    (call >>= f).SucceedsBy last := by
  change (call.bind f).SucceedsBy last
  induction call with
  | done result =>
    cases result with
    | ok a => exact h a
    | error e => exact trivial
  | clock next ih => exact ih
  | command c next ih => exact ⟨fun e => ih _,fun reply => Or.inl (ih _)⟩

theorem succeedsBy_return {call : Call I A} (h : call.SucceedsBy last) (f : A → B) :
    (call >>= fun a => .done (.ok (f a))).SucceedsBy last := by
  change (call.bind fun a => .done (.ok (f a))).SucceedsBy last
  induction call with
  | done result =>
    cases result with
    | ok a => exact h.elim
    | error e => exact trivial
  | clock next ih => exact fun now => ih now (h now)
  | command c next ih =>
    constructor
    · exact fun e => ih _ (h.1 e)
    · intro reply
      rcases h.2 reply with hlater | ⟨hlast,result,hresult⟩
      · exact Or.inl (ih _ hlater)
      · dsimp only
        rw [hresult]
        cases result with
        | ok a => exact Or.inr ⟨hlast,_,rfl⟩
        | error e => exact Or.inl trivial

theorem succeedsBy_settle {call : Call I A} (now : I.Clock) (h : call.SucceedsBy last) :
    (call.settle now).SucceedsBy last := by
  induction call with
  | done result => exact h
  | clock next ih => exact ih now (h now)
  | command c next ih => exact h

theorem succeedsBy_next {c : I.Command} {next : Except String (I.Reply c) → Call I A}
    (h : (Call.command c next).SucceedsBy last) (reply : Except String (I.Reply c))
    (now : I.Clock) : ((next reply).settle now).SucceedsBy last ∨
      last c ∧ (∃ answer, reply = .ok answer) ∧ ∃ result, (next reply).settle now = .done result := by
  cases reply with
  | error e => exact Or.inl (succeedsBy_settle now (h.1 e))
  | ok answer =>
    rcases h.2 answer with hlater | ⟨hlast,result,hresult⟩
    · exact Or.inl (succeedsBy_settle now hlater)
    · refine Or.inr ⟨hlast,⟨answer,rfl⟩,result,?_⟩
      rw [hresult]
      rfl

end SucceedsBy

end Call

/-! ## Servers and pools -/

structure Server (I : Interface) (S : Type) where
  clock : S → I.Clock
  answer : ℕ → (c : I.Command) → S → Option (I.Reply c × S)

namespace Server

variable (server : Server I S)

/-- A command was answered, or failed and changed nothing. -/
inductive Replies (n : ℕ) (c : I.Command) (state : S) : Except String (I.Reply c) → S → Prop
  | answered {reply : I.Reply c} {state' : S} (h : server.answer n c state = some (reply,state')) :
      Replies n c state (.ok reply) state'
  | failed (e : String) : Replies n c state (.error e) state

def alone (n : ℕ) : Call I A → S → Option (Except String A × S)
  | .done result,state => some (result,state)
  | .clock next,state => alone n (next (server.clock state)) state
  | .command c next,state =>
    match server.answer n c state with
    | some (reply,state') => alone n (next (.ok reply)) state'
    | none => none

def amid (n : ℕ) : Call I A → List (S → S) → S → Option (Except String A × S)
  | .done result,_,state => some (result,state)
  | .clock next,others,state => amid n (next (server.clock state)) others state
  | .command c next,others,state =>
    match server.answer n c (others.headD id state) with
    | some (reply,state') => amid n (next (.ok reply)) others.tail state'
    | none => none

variable {server}

theorem amid_settle (n : ℕ) (call : Call I A) (others : List (S → S)) (state : S) :
    server.amid n (call.settle (server.clock state)) others state =
      server.amid n call others state := by
  induction call with
  | done result => rfl
  | clock next ih => exact ih _
  | command c next ih => rfl

theorem alone_bind (n : ℕ) (call : Call I A) (f : A → Call I B) (state : S) :
    server.alone n (call >>= f) state =
      match server.alone n call state with
      | some (.ok a,state') => server.alone n (f a) state'
      | some (.error e,state') => some (.error e,state')
      | none => none := by
  change server.alone n (call.bind f) state = _
  induction call generalizing state with
  | done result =>
    cases result with
    | ok a => rfl
    | error e => rfl
  | clock next ih => exact ih _ state
  | command c next ih =>
    simp only [Call.bind,alone]
    split
    · exact ih _ _
    · rfl

theorem alone_send (n : ℕ) (c : I.Command) (state : S) :
    server.alone n (Call.send c) state =
      (server.answer n c state).map fun answer => (.ok answer.1,answer.2) := by
  simp only [Call.send,alone]
  split
  · rename_i hanswer
    rw [hanswer]
    rfl
  · rename_i hanswer
    rw [hanswer]
    rfl

theorem alone_send_bind {n : ℕ} {c : I.Command} {reply : I.Reply c} {state state' : S}
    (h : server.answer n c state = some (reply,state')) (f : I.Reply c → Call I B) :
    server.alone n (Call.send c >>= f) state = server.alone n (f reply) state' := by
  rw [alone_bind,alone_send,h]
  rfl

end Server

structure Pool (I : Interface) (S Q A : Type) where
  state : S
  calls : List (Q × Call I A)

namespace Pool

variable (server : Server I S)

def start (s : Pool I S Q A) (q : Q) (call : Call I A) : Pool I S Q A :=
  { s with calls := s.calls++[(q,call.settle (server.clock s.state))] }

def proceed (s : Pool I S Q A) (n : ℕ) (failure : Option String) : Pool I S Q A :=
  match s.calls[n]? with
  | some (q,.command c next) =>
    match failure with
    | some e =>
      { s with calls := s.calls.set n (q,(next (.error e)).settle (server.clock s.state)) }
    | none =>
      match server.answer n c s.state with
      | some (reply,state) =>
        ⟨state,s.calls.set n (q,(next (.ok reply)).settle (server.clock state))⟩
      | none => s
  | _ => s

/-- What a step of a call can do: the call has ended or waits, or its command was
replied to. -/
theorem proceed_cases (s : Pool I S Q A) (n : ℕ) (failure : Option String) :
    (s.proceed server n failure = s ∧ ∀ q c next, s.calls[n]? = some (q,.command c next) →
        failure = none ∧ server.answer n c s.state = none) ∨
      ∃ q c next reply state, s.calls[n]? = some (q,.command c next) ∧
        server.Replies n c s.state reply state ∧ (failure = none ↔ ∃ r, reply = .ok r) ∧
        s.proceed server n failure =
          ⟨state,s.calls.set n (q,(next reply).settle (server.clock state))⟩ := by
  unfold proceed
  split
  · rename_i q c next hcall
    cases failure with
    | some e =>
      exact Or.inr ⟨q,c,next,.error e,s.state,hcall,.failed e,by simp,rfl⟩
    | none =>
      dsimp only
      split
      · rename_i reply state hanswer
        exact Or.inr ⟨q,c,next,.ok reply,state,hcall,.answered hanswer,by simp,rfl⟩
      · rename_i hwaits
        refine Or.inl ⟨rfl,fun q' c' next' hcall' => ?_⟩
        rw [hcall] at hcall'
        cases hcall'
        exact ⟨rfl,hwaits⟩
  · rename_i hended
    exact Or.inl ⟨rfl,fun q c next hcall => absurd hcall (hended q c next)⟩

variable {server}

theorem iterate_waits {s : Pool I S Q A} {n : ℕ} {q : Q} {c : I.Command}
    {next : Except String (I.Reply c) → Call I A} (hcall : s.calls[n]? = some (q,.command c next))
    (hwaits : server.answer n c s.state = none) (k : ℕ) :
    (fun s : Pool I S Q A => s.proceed server n none)^[k] s = s := by
  apply Function.iterate_fixed
  simp only [proceed,hcall,hwaits]

theorem proceed_last {state state' : S} {calls : List (Q × Call I A)} {q : Q} {c : I.Command}
    {next : Except String (I.Reply c) → Call I A} {reply : I.Reply c}
    (hanswer : server.answer calls.length c state = some (reply,state')) :
    (⟨state,calls++[(q,.command c next)]⟩ : Pool I S Q A).proceed server calls.length none =
      ⟨state',calls++[(q,(next (.ok reply)).settle (server.clock state'))]⟩ := by
  unfold proceed
  dsimp only
  rw [List.getElem?_append_right (Nat.le_refl _),Nat.sub_self]
  dsimp only [List.getElem?_cons_zero]
  rw [hanswer]
  dsimp only
  rw [List.set_append_right _ _ (Nat.le_refl _),Nat.sub_self,List.set_cons_zero]

theorem proceed_callers (s : Pool I S Q A) (n : ℕ) (failure : Option String) :
    (s.proceed server n failure).calls.map Prod.fst = s.calls.map Prod.fst := by
  rcases proceed_cases server s n failure with
    ⟨hsame,_⟩ | ⟨q,c,next,reply,state,hcall,_,_,hnext⟩
  · rw [hsame]
  · obtain ⟨hn,hget⟩ := List.getElem?_eq_some_iff.mp hcall
    have hlen : n < (s.calls.map Prod.fst).length := by rwa [List.length_map]
    have hq : (s.calls.map Prod.fst)[n] = q := by rw [List.getElem_map,hget]
    rw [hnext,List.map_set]
    dsimp only
    rw [← hq,List.set_getElem_self]

/-! ## Stages of calls -/

def Each (stage : Q → Call I A → Prop) (s : Pool I S Q A) : Prop :=
  ∀ q call, (q,call) ∈ s.calls → stage q call

section Each

variable {stage : Q → Call I A → Prop} {s : Pool I S Q A}

theorem start_each (h : s.Each stage) {q : Q} {call : Call I A}
    (hcall : stage q (call.settle (server.clock s.state))) : (s.start server q call).Each stage := by
  intro q' call' hmem
  rcases List.mem_append.mp hmem with hold | hnew
  · exact h q' call' hold
  · cases List.mem_singleton.mp hnew
    exact hcall

theorem proceed_each (h : s.Each stage) (n : ℕ) (failure : Option String)
    (hnext : ∀ q c next reply state, stage q (.command c next) →
      server.Replies n c s.state reply state → stage q ((next reply).settle (server.clock state))) :
    (s.proceed server n failure).Each stage := by
  rcases proceed_cases server s n failure with
    ⟨hsame,_⟩ | ⟨q,c,next,reply,state,hcall,hreply,_,hproceed⟩
  · rwa [hsame]
  · rw [hproceed]
    intro q' call' hmem
    rcases List.mem_or_eq_of_mem_set hmem with hold | hnew
    · exact h q' call' hold
    · cases hnew
      exact hnext q c next reply state (h q _ (List.mem_of_getElem? hcall)) hreply

end Each

/-! ## Invariants of the server -/

/-- Calls that obey keep an invariant of the server, if its answers do and are
as promised as long as it holds. -/
structure Kept (allowed : Q → I.Command → Prop) (promised : (c : I.Command) → I.Reply c → Prop)
    (returns : Q → A → Prop) (inv : S → Prop) (s : Pool I S Q A) : Prop where
  state : inv s.state
  calls : ∀ q call, (q,call) ∈ s.calls → call.Obeys (allowed q) promised (returns q)

section Kept

variable {allowed : Q → I.Command → Prop} {promised : (c : I.Command) → I.Reply c → Prop}
  {returns : Q → A → Prop} {inv : S → Prop} {s : Pool I S Q A}

theorem start_kept (h : s.Kept allowed promised returns inv) {q : Q} {call : Call I A}
    (hcall : call.Obeys (allowed q) promised (returns q)) :
    (s.start server q call).Kept allowed promised returns inv := by
  refine ⟨h.state,fun q' call' hmem => ?_⟩
  rcases List.mem_append.mp hmem with hold | hnew
  · exact h.calls q' call' hold
  · cases List.mem_singleton.mp hnew
    exact Call.obeys_settle _ hcall

theorem proceed_kept (h : s.Kept allowed promised returns inv)
    (hserver : ∀ q n c state reply state', inv state → allowed q c →
      server.answer n c state = some (reply,state') → inv state' ∧ promised c reply)
    (n : ℕ) (failure : Option String) :
    (s.proceed server n failure).Kept allowed promised returns inv := by
  rcases proceed_cases server s n failure with
    ⟨hsame,_⟩ | ⟨q,c,next,reply,state,hcall,hreply,_,hnext⟩
  · rwa [hsame]
  · have hobeys := h.calls q _ (List.mem_of_getElem? hcall)
    have hdone : inv state ∧ (next reply).Obeys (allowed q) promised (returns q) := by
      cases hreply with
      | answered hanswer =>
        obtain ⟨hinv,hpromised⟩ := hserver q n c s.state _ state h.state hobeys.1 hanswer
        exact ⟨hinv,hobeys.2.2 _ hpromised⟩
      | failed e => exact ⟨h.state,hobeys.2.1 e⟩
    rw [hnext]
    refine ⟨hdone.1,fun q' call' hmem => ?_⟩
    rcases List.mem_or_eq_of_mem_set hmem with hold | hnew
    · exact h.calls q' call' hold
    · cases hnew
      exact Call.obeys_settle _ hdone.2

end Kept

end Pool

end Library
