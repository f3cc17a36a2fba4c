import DiamondBot.Library.AtomicCalls

/-!
# Connecting over QUIC

The count of attempts and the connection are each behind a lock that its own
holder cannot take again. A call that asks for a held lock waits. What the
endpoint gives at each attempt is part of the state.
-/

set_option autoImplicit false

namespace DiamondBot.Quic
open Library

def maxReconnectAttempts : ℕ := 5

def reconnectDelay : ℕ := 5

/-- An attempt may be refused before anything is sent, which is an error of its own. -/
inductive Outcome (Connection : Type)
  | refused (e : String)
  | failed (e : String)
  | connected (conn : Connection)

inductive Command (Address Connection : Type)
  | lockAttempts
  | setAttempts (attempts : ℕ)
  | unlockAttempts
  | lockConnection
  | setConnection (conn : Connection)
  | unlockConnection
  | connect (serverAddr : Address) (serverName : String)
  | sleep (seconds : ℕ)
  | spawnHeartbeat

variable {Address Connection : Type}

abbrev Command.Reply : Command Address Connection → Type
  | .lockAttempts => ℕ
  | .connect _ _ => Outcome Connection
  | _ => Unit

abbrev interface (Address Connection : Type) : Interface where
  Command := Command Address Connection
  Reply := Command.Reply
  Clock := Unit

/-- The client, with the attempts its endpoint has made. -/
structure QuicClient (Connection : Type) where
  endpoint : ℕ → Outcome Connection
  made : ℕ
  attemptsHolder : Option ℕ
  reconnectAttempts : ℕ
  connectionHolder : Option ℕ
  connection : Option Connection
  heartbeats : ℕ

def answer (n : ℕ) : (c : Command Address Connection) → QuicClient Connection →
    Option (c.Reply×QuicClient Connection)
  | .lockAttempts,s =>
    match s.attemptsHolder with
    | none => some (s.reconnectAttempts,{ s with attemptsHolder := some n })
    | some _ => none
  | .setAttempts attempts,s => some ((),{ s with reconnectAttempts := attempts })
  | .unlockAttempts,s => some ((),{ s with attemptsHolder := none })
  | .lockConnection,s =>
    match s.connectionHolder with
    | none => some ((),{ s with connectionHolder := some n })
    | some _ => none
  | .setConnection conn,s => some ((),{ s with connection := some conn })
  | .unlockConnection,s => some ((),{ s with connectionHolder := none })
  | .connect _ _,s => some (s.endpoint s.made,{ s with made := s.made+1 })
  | .sleep _,s => some ((),s)
  | .spawnHeartbeat,s => some ((),{ s with heartbeats := s.heartbeats+1 })

def server : Server (interface Address Connection) (QuicClient Connection) where
  clock _ := ()
  answer := answer

abbrev Task (Address Connection A : Type) := Call (interface Address Connection) A

def send (c : Command Address Connection) : Task Address Connection c.Reply :=
  Call.send (I := interface Address Connection) c

def tryLoop (serverAddr : Address) (reconnectAttempts : ℕ) :
    Task Address Connection (Except String Unit) :=
  if reconnectAttempts < maxReconnectAttempts then
    send (.connect serverAddr "localhost") >>= fun outcome : Outcome Connection =>
      match outcome with
      | .refused e => .done (.ok (.error e))
      | .connected conn => do
        send .lockConnection
        send (.setConnection conn)
        send (.setAttempts 0)
        send .unlockConnection
        .done (.ok (.ok ()))
      | .failed e => do
        send (.setAttempts (reconnectAttempts+1))
        if reconnectAttempts+1 < maxReconnectAttempts then
          send (.sleep (reconnectDelay*(reconnectAttempts+1)))
          tryLoop serverAddr (reconnectAttempts+1)
        else .done (.ok (.error e))
  else .done (.ok (.ok ()))
termination_by maxReconnectAttempts-reconnectAttempts

def tryConnect (serverAddr : Address) : Task Address Connection (Except String Unit) := do
  let reconnectAttempts : ℕ ← send .lockAttempts
  let result ← tryLoop serverAddr reconnectAttempts
  send .unlockAttempts
  .done (.ok result)

def connect (serverAddr : Address) : Task Address Connection Unit := do
  let _ : ℕ ← send .lockAttempts
  send (.setAttempts 0)
  let result ← tryConnect serverAddr
  match result with
  | .ok () => do
    send .spawnHeartbeat
    send .unlockAttempts
  | .error e => do
    send .unlockAttempts
    Call.raise e

/-! ## A call by itself -/

/-- A call that ends keeps to the number of attempts, is `Ok` with a connection that is
stored, and otherwise gives the error of the last attempt and stores none. -/
structure ConnectsRight (s : QuicClient Connection) (result : Except String Unit)
    (s' : QuicClient Connection) : Prop where
  attempts : s'.made ≤ s.made+maxReconnectAttempts
  ok_iff : result = .ok () ↔
    ∃ k conn, s.made ≤ k ∧ k < s'.made ∧ s.endpoint k = .connected conn
  stored : ∀ k conn, s.made ≤ k → k < s'.made → s.endpoint k = .connected conn →
    s'.connection = some conn ∧ s'.reconnectAttempts = 0
  error : ∀ e, result = .error e → s'.connection = none ∧ s.made < s'.made ∧
    (s.endpoint (s'.made-1) = .refused e ∨ s.endpoint (s'.made-1) = .failed e)

abbrev Calls (Address Connection : Type) :=
  Pool (interface Address Connection) (QuicClient Connection) Unit Unit

def after (s : QuicClient Connection) (serverAddr : Address) (k : ℕ) : Calls Address Connection :=
  (fun p => p.proceed server 0 none)^[k]
    ((⟨s,[]⟩ : Calls Address Connection).start server () (connect serverAddr))

def Connects (s : QuicClient Connection) (serverAddr : Address) : Prop :=
  ∃ k result, (after s serverAddr k).calls = [((),.done result)] ∧
    ConnectsRight s result (after s serverAddr k).state

def WaitsForAttempts (p : Calls Address Connection) : Prop :=
  (∃ next, p.calls = [((),.command .lockAttempts next)]) ∧ p.state.attemptsHolder ≠ none

theorem iterate_of_waits {p : Calls Address Connection} (h : WaitsForAttempts p) (k : ℕ) :
    (fun p : Calls Address Connection => p.proceed server 0 none)^[k] p = p := by
  obtain ⟨⟨next,hcalls⟩,hheld⟩ := h
  have hcall : p.calls[0]? = some ((),.command .lockAttempts next) := by
    rw [hcalls]
    rfl
  obtain ⟨holder,hholder⟩ := Option.ne_none_iff_exists'.mp hheld
  apply Pool.iterate_waits hcall
  simp only [server,answer,hholder]

def Unfinished (p : Calls Address Connection) : Prop := ∃ c next, p.calls = [((),.command c next)]

theorem unfinished_of_waits {p : Calls Address Connection} (h : WaitsForAttempts p) :
    Unfinished p :=
  let ⟨⟨next,hcalls⟩,_⟩ := h
  ⟨.lockAttempts,next,hcalls⟩

theorem waits_after_two (s : QuicClient Connection) (serverAddr : Address)
    (hfree : s.attemptsHolder = none) : WaitsForAttempts (after s serverAddr 2) := by
  obtain ⟨endpoint,made,holder,attempts,connectionHolder,connection,heartbeats⟩ := s
  cases hfree
  refine ⟨⟨_,rfl⟩,?_⟩
  rintro ⟨⟩

theorem after_unfinished (s : QuicClient Connection) (serverAddr : Address) (k : ℕ) :
    Unfinished (after s serverAddr k) := by
  by_cases hfree : s.attemptsHolder = none
  · match k with
    | 0 => exact ⟨_,_,rfl⟩
    | 1 =>
      obtain ⟨endpoint,made,holder,attempts,connectionHolder,connection,heartbeats⟩ := s
      cases hfree
      exact ⟨_,_,rfl⟩
    | k+2 =>
      have hwaits := waits_after_two s serverAddr hfree
      rw [after,Function.iterate_add_apply]
      change Unfinished (_^[k] (after s serverAddr 2))
      rw [iterate_of_waits hwaits]
      exact unfinished_of_waits hwaits
  · have hwaits : WaitsForAttempts (after s serverAddr 0) := ⟨⟨_,rfl⟩,hfree⟩
    have hstays := iterate_of_waits hwaits k
    change after s serverAddr k = _ at hstays
    rw [hstays]
    exact unfinished_of_waits hwaits

theorem after_ne_done (s : QuicClient Connection) (serverAddr : Address) (k : ℕ)
    (result : Except String Unit) : (after s serverAddr k).calls ≠ [((),.done result)] := by
  intro hdone
  obtain ⟨c,next,hcalls⟩ := after_unfinished s serverAddr k
  cases hcalls.symm.trans hdone

/-- No call of `connect` ends, whatever the endpoint gives. -/
theorem connect_never_ends (s : QuicClient Connection) (serverAddr : Address) :
    ¬Connects s serverAddr := by
  rintro ⟨k,result,hdone,_⟩
  exact after_ne_done s serverAddr k result hdone

/-- A new client whose first attempt would succeed. -/
theorem connect_never_ends_counterexample :
    ¬Connects (⟨fun _ => .connected 7,0,none,0,none,none,0⟩ : QuicClient ℕ) "127.0.0.1:4433" := by
  rintro ⟨k,result,hdone,_⟩
  exact after_ne_done _ _ k result hdone

/-! ## The attempts by themselves -/

theorem alone_send {A : Type} {n : ℕ} {c : Command Address Connection} {reply : c.Reply}
    {s s' : QuicClient Connection} (h : answer n c s = some (reply,s'))
    (f : c.Reply → Task Address Connection A) :
    server.alone n (send c >>= f) s = server.alone n (f reply) s' := by
  have hanswer : server.answer n c s = some (reply,s') := h
  exact Server.alone_send_bind hanswer f

structure Tried (s : QuicClient Connection) (attempts : ℕ) (result : Except String Unit)
    (s' : QuicClient Connection) : Prop where
  made_lt : s.made < s'.made
  made_le : s'.made+attempts ≤ s.made+maxReconnectAttempts
  failed : ∀ k, s.made ≤ k → k+1 < s'.made → ∃ e, s.endpoint k = .failed e
  last : match s.endpoint (s'.made-1) with
    | .connected conn =>
      result = .ok () ∧ s'.connection = some conn ∧ s'.reconnectAttempts = 0
    | .refused e => result = .error e ∧ s'.connection = s.connection
    | .failed e => result = .error e ∧ s'.connection = s.connection ∧
      s'.made+attempts = s.made+maxReconnectAttempts

theorem tried_again {s s' : QuicClient Connection} {attempts : ℕ} {result : Except String Unit}
    {e : String} (hfails : s.endpoint s.made = .failed e)
    (h : Tried { s with made := s.made+1, reconnectAttempts := attempts+1 } (attempts+1) result s') :
    Tried s attempts result s' := by
  obtain ⟨hlt,hle,hfailed,hlast⟩ := h
  dsimp only at hlt hle hfailed hlast
  refine ⟨by omega,by omega,fun k hk hlater => ?_,?_⟩
  · rcases Nat.eq_or_lt_of_le hk with rfl | hk
    · exact ⟨e,hfails⟩
    · exact hfailed k hk hlater
  · cases hend : s.endpoint (s'.made-1) with
    | refused e => rwa [hend] at hlast
    | connected conn => rwa [hend] at hlast
    | failed e =>
      rw [hend] at hlast
      exact ⟨hlast.1,hlast.2.1,by omega⟩

theorem tried_one {attempts : ℕ} (hmore : attempts < maxReconnectAttempts)
    (s : QuicClient Connection) :
    s.made+1+attempts ≤ s.made+maxReconnectAttempts ∧
      ∀ k, s.made ≤ k → k+1 < s.made+1 → ∃ e, s.endpoint k = .failed e :=
  ⟨by omega,fun k hk hlt => absurd hlt (by omega)⟩

theorem tryLoop_tries (n : ℕ) (serverAddr : Address) {attempts : ℕ}
    (hmore : attempts < maxReconnectAttempts) (s : QuicClient Connection)
    (hfree : s.connectionHolder = none) :
    ∃ result s', server.alone n (tryLoop serverAddr attempts) s = some (.ok result,s') ∧
      Tried s attempts result s' := by
  have hconnect : answer n (.connect serverAddr "localhost") s =
      some (s.endpoint s.made,{ s with made := s.made+1 }) := rfl
  obtain ⟨hmade,hfirst⟩ := tried_one hmore s
  rw [tryLoop,if_pos hmore,alone_send hconnect]
  cases houtcome : s.endpoint s.made with
  | refused e =>
    refine ⟨_,_,rfl,Nat.lt_succ_self _,hmade,hfirst,?_⟩
    dsimp only
    rw [Nat.add_sub_cancel,houtcome]
    exact ⟨rfl,rfl⟩
  | connected conn =>
    have hlock : answer n (.lockConnection : Command Address Connection)
        { s with made := s.made+1 } =
          some ((),{ s with made := s.made+1, connectionHolder := some n }) := by
      simp only [answer,hfree]
    dsimp only
    rw [alone_send hlock,alone_send rfl,alone_send rfl,alone_send rfl]
    refine ⟨_,_,rfl,Nat.lt_succ_self _,hmade,hfirst,?_⟩
    dsimp only
    rw [Nat.add_sub_cancel,houtcome]
    exact ⟨rfl,rfl,rfl⟩
  | failed e =>
    dsimp only
    rw [alone_send rfl]
    by_cases hlast : attempts+1 < maxReconnectAttempts
    · rw [if_pos hlast,alone_send rfl]
      obtain ⟨result,s',halone,htried⟩ := tryLoop_tries n serverAddr hlast
        { s with made := s.made+1, reconnectAttempts := attempts+1 } hfree
      exact ⟨result,s',halone,tried_again houtcome htried⟩
    · rw [if_neg hlast]
      refine ⟨_,_,rfl,Nat.lt_succ_self _,hmade,hfirst,?_⟩
      dsimp only
      rw [Nat.add_sub_cancel,houtcome]
      exact ⟨rfl,rfl,by omega⟩
termination_by maxReconnectAttempts-attempts

namespace Tried

variable {s s' : QuicClient Connection} {attempts : ℕ} {result : Except String Unit}

theorem connected_last (h : Tried s attempts result s') {k : ℕ} {conn : Connection}
    (hk : s.made ≤ k) (hk' : k < s'.made) (hconn : s.endpoint k = .connected conn) :
    k = s'.made-1 := by
  by_contra hne
  obtain ⟨e,he⟩ := h.failed k hk (by omega)
  cases he.symm.trans hconn

theorem right_of_error {e : String} (h : Tried s 0 (.error e) s')
    (hend : s.endpoint (s'.made-1) = .refused e ∨ s.endpoint (s'.made-1) = .failed e)
    (hnone : s'.connection = none) : ConnectsRight s (.error e) s' := by
  have hnever : ∀ k conn, s.made ≤ k → k < s'.made → s.endpoint k ≠ .connected conn := by
    intro k conn hk hk' hconn
    rw [h.connected_last hk hk' hconn] at hconn
    rcases hend with hend | hend
    · cases hend.symm.trans hconn
    · cases hend.symm.trans hconn
  refine ⟨h.made_le,iff_of_false (by rintro ⟨⟩) ?_,?_,?_⟩
  · rintro ⟨k,conn,hk,hk',hconn⟩
    exact hnever k conn hk hk' hconn
  · exact fun k conn hk hk' hconn => absurd hconn (hnever k conn hk hk')
  · rintro _ ⟨⟩
    exact ⟨hnone,h.made_lt,hend⟩

theorem right_of_connected {conn : Connection} (h : Tried s 0 (.ok ()) s')
    (hend : s.endpoint (s'.made-1) = .connected conn)
    (hstored : s'.connection = some conn ∧ s'.reconnectAttempts = 0) :
    ConnectsRight s (.ok ()) s' := by
  have hlast : s.made ≤ s'.made-1 ∧ s'.made-1 < s'.made := by
    have hlt := h.made_lt
    omega
  refine ⟨h.made_le,iff_of_true rfl ⟨_,conn,hlast.1,hlast.2,hend⟩,?_,by rintro e ⟨⟩⟩
  intro k conn' hk hk' hconn
  rw [h.connected_last hk hk' hconn,hend] at hconn
  cases hconn
  exact hstored

theorem right (h : Tried s 0 result s') (hnone : s.connection = none) :
    ConnectsRight s result s' := by
  have hlast := h.last
  cases hend : s.endpoint (s'.made-1) with
  | connected conn =>
    rw [hend] at hlast
    obtain ⟨rfl,hstored⟩ := hlast
    exact h.right_of_connected hend hstored
  | refused e =>
    rw [hend] at hlast
    obtain ⟨rfl,hsame⟩ := hlast
    exact h.right_of_error (Or.inl hend) (hsame.trans hnone)
  | failed e =>
    rw [hend] at hlast
    obtain ⟨rfl,hsame,_⟩ := hlast
    exact h.right_of_error (Or.inr hend) (hsame.trans hnone)

end Tried

theorem tryConnect_connects (n : ℕ) (serverAddr : Address) (s : QuicClient Connection)
    (hattempts : s.attemptsHolder = none) (hzero : s.reconnectAttempts = 0)
    (hfree : s.connectionHolder = none) (hnone : s.connection = none) :
    ∃ result s', server.alone n (tryConnect serverAddr) s = some (.ok result,s') ∧
      ConnectsRight s result s' := by
  have hlock : answer n (.lockAttempts : Command Address Connection) s =
      some (0,{ s with attemptsHolder := some n }) := by
    simp only [answer,hattempts,hzero]
  have hmore : 0 < maxReconnectAttempts := by decide
  obtain ⟨result,s',halone,htried⟩ := tryLoop_tries n serverAddr hmore
    { s with attemptsHolder := some n } hfree
  refine ⟨result,{ s' with attemptsHolder := none },?_,?_⟩
  · rw [tryConnect,alone_send hlock,Server.alone_bind,halone]
    exact alone_send rfl _
  · obtain ⟨hattempts,hok,hstored,herror⟩ := htried.right hnone
    exact ⟨hattempts,hok,hstored,herror⟩

end DiamondBot.Quic
