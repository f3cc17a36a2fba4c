import DiamondBot.Library.AtomicRun
import DiamondBot.Network.CallStages
import DiamondBot.Network.MessageCommands
import DiamondBot.Network.MessageText

/-!
# Where a message is

The id of a message that was sent is in its queue, in the processing set, or
held by a receive or a reject that has taken it out of one and has yet to put
it into the other. A call that ends while it holds an id drops it.
-/

set_option autoImplicit false

namespace DiamondBot.Network
open Library ByteCache

variable {T : Type} (q : RedisMessageQueue T)

def Request.sent : Request T → Option (String × String)
  | .send _ id queue _ _ => some (queue,id)
  | .sendWithCorrelation _ id queue _ _ _ => some (queue,id)
  | _ => none

def releasedBy : Request T × Call interface (Response T) → Option (String × String)
  | (.acknowledge message,.command (.zrem _ _) _) =>
    some (message.metadata.queue,message.metadata.id)
  | (.reject message requeue,.command (.zrem _ _) _) =>
    if requeue = true ∧ message.metadata.retryCount < 5 then none
    else some (message.metadata.queue,message.metadata.id)
  | _ => none

def released (s : Clients T) : Action T → Option (String × String)
  | .command n none => s.calls[n]?.bind releasedBy
  | _ => none

/-- The id is on its way from one set of the queue to the other. -/
def Holds (queue id : String) : Request T × Call interface (Response T) → Prop
  | (.receive queue' _,.command (.get key) _) => queue' = queue ∧ key = messageKey id
  | (.receive _ _,.command (.zadd key _ member) _) => key = processingKey queue ∧ member = id
  | (.reject _ _,.command (.zadd key _ member) _) => key = queueKey queue ∧ member = id
  | _ => False

def Stored (r : Redis) (queue id : String) : Prop :=
  id ∈ r.sets (queueKey queue) ∨ id ∈ r.sets (processingKey queue)

structure Custody (T : Type) where
  clients : Clients T
  released : List (String × String)

namespace Custody

def start (clock : Clock) : Custody T := ⟨Clients.start clock,[]⟩

def next (d : Custody T) (a : Action T) : Custody T where
  clients := d.clients.next q a
  released := d.released++(Network.released d.clients a).toList

structure Due (d : Custody T) (queue id : String) : Prop where
  sent : ∃ request result, (request,.done (.ok result)) ∈ d.clients.calls ∧
    request.sent = some (queue,id)
  unexpired : d.clients.state.expired (messageKey id) = false
  unreleased : (queue,id) ∉ d.released

def Idle (s : Clients T) : Prop :=
  ∀ request call, (request,call) ∈ s.calls →
    (∃ queue timeoutSecs, request = .receive queue timeoutSecs) ∨
      (∃ message requeue, request = .reject message requeue) → ∃ result, call = .done result

/-- When none is in progress, the messages are in the sets. -/
def Kept (d : Custody T) : Prop :=
  Idle d.clients → ∀ queue id, Due d queue id → Stored d.clients.state queue id

def SafeWithout (n : ℕ) (s : Clients T) (queue id : String) : Prop :=
  Stored s.state queue id ∨ ∃ k ≠ n, ∃ c, s.calls[k]? = some c ∧ Holds queue id c

def Drops (r : Redis) (failure : Option String) (queue id : String)
    (c : Request T × Call interface (Response T)) : Prop :=
  Holds queue id c ∧ (failure ≠ none ∨ (∃ key rest, c.2 = .command (.get key) rest) ∧
    ¬∃ data message, r.read (messageKey id) = some data ∧ Legible q data r.clock message)

/-- What a call drops is not due, or is in a set or held by another call. -/
def NoneDropped (d : Custody T) : Action T → Prop
  | .command n failure => ∀ c, d.clients.calls[n]? = some c → ∀ queue id,
    Drops q d.clients.state failure queue id c → Due d queue id → SafeWithout n d.clients queue id
  | _ => True

def Enqueues (queue id : String) (c : interface.Command) : Prop :=
  ∃ score, c = Command.zadd (queueKey queue) score id

def Stage : Request T → Call interface (Response T) → Prop
  | .receive queue timeoutSecs,call => ReceiveStage q (fun _ _ => True) queue timeoutSecs call
  | .reject message requeue,call => RejectStage q message requeue call
  | request,call => ∀ queue id, request.sent = some (queue,id) →
    call.SucceedsBy (Enqueues queue id) ∨ ∃ result, call = .done result

/-- What every run keeps. -/
structure Sound (d : Custody T) : Prop where
  commands : d.clients.Kept (Request.Sends q) (fun _ _ => True) (fun _ _ => True) fun _ => True
  drawn : (d.clients.calls.map Prod.fst).Pairwise fun request request' =>
    List.Disjoint request.draws request'.draws
  stages : d.clients.Each (Stage q)

def Safe (s : Clients T) (queue id : String) : Prop :=
  Stored s.state queue id ∨ ∃ c ∈ s.calls, Holds queue id c

def Secure (d : Custody T) : Prop := ∀ queue id, Due d queue id → Safe d.clients queue id

variable {q}

/-! ## The calls of a run -/

theorem succeedsBy_call {request : Request T} {queue id : String}
    (h : request.sent = some (queue,id)) : (request.call q).SucceedsBy (Enqueues queue id) := by
  have hsend (nodeId : String) (payload : T) (priority : MessagePriority)
      (correlationId : Option String) : ({ q with nodeId }.sendWith id queue payload priority
        correlationId).SucceedsBy (Enqueues queue id) := by
    intro now
    apply Call.succeedsBy_return
    unfold RedisMessageQueue.store
    dsimp only
    cases q.json.toText _ with
    | error e => exact trivial
    | ok text =>
      apply Call.succeedsBy_bind
      intro _ now
      exact Call.succeedsBy_send ⟨_,rfl⟩
  cases request with
  | send nodeId id queue payload priority =>
    cases h
    exact Call.succeedsBy_return (hsend nodeId payload priority none) _
  | sendWithCorrelation nodeId id queue payload correlationId priority =>
    cases h
    exact Call.succeedsBy_return (hsend nodeId payload priority (some correlationId)) _
  | _ => cases h

theorem stage_call (request : Request T) (now : Clock) :
    Stage q request ((request.call q).settle now) := by
  cases request with
  | receive queue timeoutSecs => exact .popping
  | reject message requeue => exact .taking
  | _ => exact fun queue id hsent => Or.inl (Call.succeedsBy_settle now (succeedsBy_call hsent))

theorem stage_next {request : Request T} {n : ℕ} {c : interface.Command}
    {rest : Except String (interface.Reply c) → Call interface (Response T)} {r r' : Redis}
    {reply : Except String (interface.Reply c)} (h : Stage q request (.command c rest))
    (hreply : Redis.server.Replies n c r reply r') :
    Stage q request ((rest reply).settle r'.clock) := by
  cases request with
  | receive queue timeoutSecs =>
    exact (receiveStage_next h hreply fun _ _ _ _ _ => trivial).1
  | reject message requeue => exact rejectStage_next h hreply
  | _ =>
    intro queue id hsent
    rcases h queue id hsent with hlater | ⟨_,⟨⟩⟩
    rcases Call.succeedsBy_next hlater reply r'.clock with hlater' | ⟨_,_,hdone⟩
    · exact Or.inl hlater'
    · exact Or.inr hdone

theorem stage_send {request : Request T} {queue id : String}
    (hsent : request.sent = some (queue,id)) {c : interface.Command}
    {rest : Except String (interface.Reply c) → Call interface (Response T)}
    (h : Stage q request (.command c rest)) :
    (Call.command c rest).SucceedsBy (Enqueues queue id) := by
  cases request with
  | receive queue timeoutSecs => cases hsent
  | reject message requeue => cases hsent
  | _ =>
    rcases h queue id hsent with hlater | ⟨_,⟨⟩⟩
    exact hlater

theorem mem_draws_of_sent {request : Request T} {queue id : String}
    (hsent : request.sent = some (queue,id)) : id ∈ request.draws := by
  cases request with
  | send nodeId id queue payload priority =>
    cases hsent
    exact List.mem_singleton.mpr rfl
  | sendWithCorrelation nodeId id queue payload correlationId priority =>
    cases hsent
    exact List.mem_singleton.mpr rfl
  | _ => cases hsent

theorem start_sound (clock : Clock) : (start clock : Custody T).Sound q where
  commands := ⟨trivial,by rintro _ _ ⟨⟩⟩
  drawn := List.Pairwise.nil
  stages := by rintro _ _ ⟨⟩

theorem next_drawn {s : Clients T} (h : (s.calls.map Prod.fst).Pairwise fun request request' =>
    List.Disjoint request.draws request'.draws) (a : Action T) :
    ((s.next q a).calls.map Prod.fst).Pairwise fun request request' =>
      List.Disjoint request.draws request'.draws := by
  cases a with
  | request request =>
    unfold Clients.next
    dsimp only
    split
    · rename_i hfresh
      show ((s.calls++[_]).map Prod.fst).Pairwise _
      rw [List.map_append,List.pairwise_append]
      refine ⟨h,List.pairwise_singleton _ _,?_⟩
      intro old hold new hnew
      obtain ⟨c,hc,rfl⟩ := List.mem_map.mp hold
      cases List.mem_singleton.mp hnew
      exact fun id hid hid' => hfresh c hc id hid' hid
    · exact h
  | command n failure =>
    unfold Clients.next
    dsimp only
    rwa [Pool.proceed_callers]
  | wait duration utc => exact h

theorem next_sound {d : Custody T} (h : d.Sound q) (a : Action T) : (d.next q a).Sound q where
  commands := Clients.next_kept h.commands sends_call (fun _ _ _ _ _ _ _ _ _ => ⟨trivial,trivial⟩)
    (fun _ _ _ _ => trivial) a
  drawn := next_drawn h.drawn a
  stages := Clients.next_each h.stages (fun request => stage_call request _)
    (fun _ _ _ _ _ _ hstage hreply => stage_next hstage hreply) a

theorem not_drawn {d : Custody T} (h : d.Sound q) {n : ℕ} {request request' : Request T}
    {c : interface.Command} {rest : Except String (interface.Reply c) → Call interface (Response T)}
    {result : Except String (Response T)} (hat : d.clients.calls[n]? = some (request,.command c rest))
    (hdone : (request',.done result) ∈ d.clients.calls) {id : String} (hid : id ∈ request'.draws) :
    id ∉ request.draws := by
  intro hid'
  obtain ⟨k,hk⟩ := List.mem_iff_getElem?.mp hdone
  obtain ⟨hn,hn'⟩ := List.getElem?_eq_some_iff.mp hat
  obtain ⟨hk,hk'⟩ := List.getElem?_eq_some_iff.mp hk
  have hpairs := List.pairwise_map.mp h.drawn
  rw [List.pairwise_iff_getElem] at hpairs
  rcases Nat.lt_trichotomy n k with hlt | heq | hlt
  · have hdisjoint := hpairs n k hn hk hlt
    rw [hn',hk'] at hdisjoint
    exact hdisjoint hid' hid
  · subst heq
    rw [hn'] at hk'
    cases hk'
  · have hdisjoint := hpairs k n hk hn hlt
    rw [hn',hk'] at hdisjoint
    exact hdisjoint hid hid'

/-! ## One command -/

theorem expired_answer {request : Request T} {n : ℕ} {c : interface.Command} {r r' : Redis}
    {reply : interface.Reply c} {id : String} (hsends : request.Sends q c)
    (hdraws : id ∉ request.draws) (hanswer : Redis.server.answer n c r = some (reply,r')) :
    r'.expired (messageKey id) = r.expired (messageKey id) := by
  have hkey {key : String} (h : ∃ id' ∈ request.draws, key = messageKey id') :
      messageKey id ≠ key := by
    obtain ⟨id',hid',rfl⟩ := h
    intro heq
    rw [messageKey_injective heq] at hdraws
    exact hdraws hid'
  cases Redis.answered_of hanswer with
  | set key data =>
    obtain ⟨id',hid',hset,_⟩ := sends_set hsends
    unfold Redis.expired
    dsimp only
    rw [Function.update_of_ne (hkey ⟨id',hid',hset⟩)]
  | expire key seconds =>
    unfold Redis.expired
    dsimp only
    rw [Function.update_of_ne (hkey (sends_expire hsends))]
  | _ => rfl

section Command

variable {d : Custody T} {n : ℕ} {failure : Option String} {request : Request T}
  {c : interface.Command} {rest : Except String (interface.Reply c) → Call interface (Response T)}
  {reply : Except String (interface.Reply c)} {r' : Redis}

theorem due_before (h : d.Sound q) (hat : d.clients.calls[n]? = some (request,.command c rest))
    (hreply : Redis.server.Replies n c d.clients.state reply r')
    (hnext : d.clients.next q (.command n failure) =
      ⟨r',d.clients.calls.set n (request,(rest reply).settle r'.clock)⟩)
    {queue id : String} (hdue : Due (d.next q (.command n failure)) queue id) :
    Due d queue id ∨ id ∈ r'.sets (queueKey queue) := by
  obtain ⟨⟨request',result,hmem,hsent⟩,hlive,hkept⟩ := hdue
  have hkept' : (queue,id) ∉ d.released := fun hold => hkept (List.mem_append_left _ hold)
  change (request',_) ∈ (d.clients.next q (.command n failure)).calls at hmem
  change (d.clients.next q (.command n failure)).state.expired (messageKey id) = false at hlive
  rw [hnext] at hmem hlive
  have hcommand := List.mem_of_getElem? hat
  rcases List.mem_or_eq_of_mem_set hmem with hold | hnew
  · refine Or.inl ⟨⟨request',result,hold,hsent⟩,?_,hkept'⟩
    cases hreply with
    | failed e => exact hlive
    | answered hanswer =>
      rw [← expired_answer (h.commands.calls _ _ hcommand).1
        (not_drawn h hat hold (mem_draws_of_sent hsent)) hanswer]
      exact hlive
  · right
    obtain ⟨rfl,hresult⟩ := Prod.mk.inj hnew
    have hsend := stage_send hsent (h.stages _ _ hcommand)
    rcases Call.succeedsBy_next hsend reply r'.clock with hlater | ⟨⟨score,rfl⟩,⟨answer,rfl⟩,_⟩
    · rw [← hresult] at hlater
      exact hlater.elim
    · cases hreply with
      | answered hanswer =>
        cases Redis.answered_of hanswer
        exact Redis.mem_added.mpr (Or.inl ⟨rfl,rfl⟩)

theorem stored_removed {r : Redis} {key member queue id : String} (h : Stored r queue id)
    (hqueue : queueKey queue = key → id ≠ member)
    (hprocessing : processingKey queue = key → id ≠ member) :
    Stored (r.removed key member) queue id := by
  rcases h with hin | hin
  · exact Or.inl (Redis.mem_removed.mpr ⟨fun heq => hqueue heq.1 heq.2,hin⟩)
  · exact Or.inr (Redis.mem_removed.mpr ⟨fun heq => hprocessing heq.1 heq.2,hin⟩)

/-- What leaves a set was released, or is held by the call that took it out. -/
theorem stored_answer (h : d.Sound q) (hat : d.clients.calls[n]? = some (request,.command c rest))
    {answer : interface.Reply c}
    (hanswer : Redis.server.answer n c d.clients.state = some (answer,r')) {queue id : String}
    (hstored : Stored d.clients.state queue id) :
    Stored r' queue id ∨ Holds queue id (request,(rest (.ok answer)).settle r'.clock) ∨
      releasedBy (request,.command c rest) = some (queue,id) := by
  have hmem := List.mem_of_getElem? hat
  have hsends := (h.commands.calls _ _ hmem).1
  have hstage := h.stages _ _ hmem
  cases Redis.answered_of hanswer with
  | zadd key score member =>
    rcases hstored with hin | hin
    · exact Or.inl (Or.inl (Redis.mem_added.mpr (Or.inr hin)))
    · exact Or.inl (Or.inr (Redis.mem_added.mpr (Or.inr hin)))
  | zrem key member =>
    obtain ⟨message,hrequest,rfl,rfl⟩ := sends_zrem hsends
    by_cases hsame : message.metadata.queue = queue ∧ message.metadata.id = id
    · obtain ⟨rfl,rfl⟩ := hsame
      rcases hrequest with rfl | ⟨requeue,rfl⟩
      · exact Or.inr (Or.inr rfl)
      · rw [rejectStage_zrem hstage]
        by_cases hretry : requeue = true ∧ message.metadata.retryCount < 5
        · rw [if_pos hretry]
          exact Or.inr (Or.inl ⟨rfl,rfl⟩)
        · exact Or.inr (Or.inr (if_neg hretry))
    · refine Or.inl (stored_removed hstored ?_ ?_)
      · exact fun heq => absurd heq (queueKey_ne_processingKey _ _)
      · exact fun heq hid => hsame ⟨(processingKey_injective heq).symm,hid.symm⟩
  | popped key timeout member score =>
    obtain ⟨queue',rfl,rfl⟩ := sends_pop hsends
    by_cases hsame : queue' = queue ∧ member = id
    · obtain ⟨rfl,rfl⟩ := hsame
      rw [receiveStage_pop hstage]
      obtain ⟨rest',hget,_⟩ := fetching_command (q := q) queue' member
      rw [hget]
      exact Or.inr (Or.inl ⟨rfl,rfl⟩)
    · refine Or.inl (stored_removed hstored ?_ ?_)
      · exact fun heq hid => hsame ⟨(queueKey_injective heq).symm,hid.symm⟩
      · exact fun heq => absurd heq.symm (queueKey_ne_processingKey _ _)
  | _ => exact Or.inl hstored

/-- A call that holds an id and does not drop it holds it on, or has put it into
a set. -/
theorem held_answer (h : d.Sound q) (hat : d.clients.calls[n]? = some (request,.command c rest))
    {answer : interface.Reply c}
    (hanswer : Redis.server.answer n c d.clients.state = some (answer,r')) {queue id : String}
    (hholds : Holds queue id (request,.command c rest))
    (hdrops : ¬Drops q d.clients.state none queue id (request,.command c rest)) :
    Stored r' queue id ∨ Holds queue id (request,(rest (.ok answer)).settle r'.clock) := by
  have hstage := h.stages _ _ (List.mem_of_getElem? hat)
  cases request with
  | receive queue' timeoutSecs =>
    cases c with
    | get key =>
      obtain ⟨rfl,rfl⟩ := hholds
      have hread : ∃ data message, d.clients.state.read (messageKey id) = some data ∧
          Legible q data d.clients.state.clock message := by
        by_contra hnone
        exact hdrops ⟨⟨rfl,rfl⟩,Or.inr ⟨⟨_,_,rfl⟩,hnone⟩⟩
      obtain ⟨data,message,hdata,hlegible⟩ := hread
      cases hanswer
      rw [hdata,receiveStage_get hstage hlegible]
      exact Or.inr ⟨rfl,rfl⟩
    | zadd key score member =>
      obtain ⟨rfl,rfl⟩ := hholds
      cases hanswer
      exact Or.inl (Or.inr (Redis.mem_added.mpr (Or.inl ⟨rfl,rfl⟩)))
    | _ => exact hholds.elim
  | reject message requeue =>
    cases c with
    | zadd key score member =>
      obtain ⟨rfl,rfl⟩ := hholds
      cases hanswer
      exact Or.inl (Or.inl (Redis.mem_added.mpr (Or.inl ⟨rfl,rfl⟩)))
    | _ => exact hholds.elim
  | _ => exact hholds.elim

theorem safe_without (h : d.Sound q) (hat : d.clients.calls[n]? = some (request,.command c rest))
    (hreply : Redis.server.Replies n c d.clients.state reply r')
    (hok : failure = none ↔ ∃ answer, reply = .ok answer)
    (hnext : d.clients.next q (.command n failure) =
      ⟨r',d.clients.calls.set n (request,(rest reply).settle r'.clock)⟩)
    {queue id : String} (hsafe : SafeWithout n d.clients queue id)
    (hunreleased : (queue,id) ∉ (d.next q (.command n failure)).released) :
    Safe (d.clients.next q (.command n failure)) queue id := by
  rw [hnext]
  have hlen : n < d.clients.calls.length := (List.getElem?_eq_some_iff.mp hat).1
  rcases hsafe with hstored | ⟨k,hk,c',hc',hholds⟩
  · cases hreply with
    | failed e => exact Or.inl hstored
    | answered hanswer =>
      rcases stored_answer h hat hanswer hstored with hin | hheld | hreleased
      · exact Or.inl hin
      · exact Or.inr ⟨_,List.mem_set hlen _,hheld⟩
      · rw [hok.mpr ⟨_,rfl⟩] at hunreleased
        apply absurd _ hunreleased
        apply List.mem_append_right
        show (queue,id) ∈ (d.clients.calls[n]?.bind releasedBy).toList
        rw [hat,Option.bind_some,hreleased]
        exact List.mem_singleton.mpr rfl
  · refine Or.inr ⟨c',List.mem_of_getElem? (i := k) ?_,hholds⟩
    rw [List.getElem?_set_ne (Ne.symm hk)]
    exact hc'

theorem safe_before (hat : d.clients.calls[n]? = some (request,.command c rest))
    (hnone : NoneDropped q d (.command n failure)) {queue id : String} (hdue : Due d queue id)
    (hsafe : Safe d.clients queue id) : SafeWithout n d.clients queue id ∨
      Holds queue id (request,.command c rest) ∧
        ¬Drops q d.clients.state failure queue id (request,.command c rest) := by
  rcases hsafe with hstored | ⟨c',hmem,hholds⟩
  · exact Or.inl (Or.inl hstored)
  · obtain ⟨k,hk⟩ := List.mem_iff_getElem?.mp hmem
    by_cases hkn : k = n
    · rw [hkn,hat] at hk
      cases hk
      by_cases hdrops : Drops q d.clients.state failure queue id (request,.command c rest)
      · exact Or.inl (hnone _ hat queue id hdrops hdue)
      · exact Or.inr ⟨hholds,hdrops⟩
    · exact Or.inl (Or.inr ⟨k,hkn,c',hk,hholds⟩)

end Command

/-- A command keeps every message safe, if it drops none. -/
theorem command_secure {d : Custody T} (h : d.Sound q) (hsecure : Secure d) {n : ℕ}
    {failure : Option String} (hnone : NoneDropped q d (.command n failure)) :
    Secure (d.next q (.command n failure)) := by
  intro queue id hdue
  rcases Pool.proceed_cases Redis.server d.clients n failure with
    ⟨hsame,_⟩ | ⟨request,c,rest,reply,r',hat,hreply,hok,hnext⟩
  · have hclients : (d.next q (.command n failure)).clients = d.clients := hsame
    obtain ⟨hsent,hlive,hkept⟩ := hdue
    rw [hclients] at hsent hlive ⊢
    exact hsecure queue id ⟨hsent,hlive,fun hold => hkept (List.mem_append_left _ hold)⟩
  · change d.clients.next q (.command n failure) = _ at hnext
    rcases due_before h hat hreply hnext hdue with hbefore | hin
    · rcases safe_before hat hnone hbefore (hsecure queue id hbefore) with
        hsafe | ⟨hholds,hdrops⟩
      · exact safe_without h hat hreply hok hnext hsafe hdue.unreleased
      · have hfailure : failure = none := by
          by_contra hfailed
          exact hdrops ⟨hholds,Or.inl hfailed⟩
        obtain ⟨answer,rfl⟩ := hok.mp hfailure
        rw [hfailure] at hdrops
        cases hreply with
        | answered hanswer =>
          show Safe (d.clients.next q (.command n failure)) queue id
          rw [hnext]
          rcases held_answer h hat hanswer hholds hdrops with hstored | hheld
          · exact Or.inl hstored
          · exact Or.inr ⟨_,List.mem_set (List.getElem?_eq_some_iff.mp hat).1 _,hheld⟩
    · show Safe (d.clients.next q (.command n failure)) queue id
      rw [hnext]
      exact Or.inl (Or.inl hin)

/-! ## All runs -/

theorem request_secure {d : Custody T} (hsecure : Secure d) (request : Request T) :
    Secure (d.next q (.request request)) := by
  intro queue id ⟨⟨request',result,hmem,hsent⟩,hlive,hkept⟩
  have hkept' : (queue,id) ∉ d.released := fun hold => hkept (List.mem_append_left _ hold)
  unfold next Clients.next at hmem hlive ⊢
  dsimp only at hmem hlive ⊢
  by_cases hfresh : Clients.Fresh d.clients request
  · rw [if_pos hfresh] at hmem hlive ⊢
    rcases List.mem_append.mp hmem with hold | hnew
    · rcases hsecure queue id ⟨⟨request',result,hold,hsent⟩,hlive,hkept'⟩ with
        hstored | ⟨c,hc,hholds⟩
      · exact Or.inl hstored
      · exact Or.inr ⟨c,List.mem_append_left _ hc,hholds⟩
    · obtain ⟨rfl,hresult⟩ := Prod.mk.inj (List.mem_singleton.mp hnew)
      have hsend := Call.succeedsBy_settle (Redis.server.clock d.clients.state)
        (succeedsBy_call (q := q) hsent)
      rw [← hresult] at hsend
      exact hsend.elim
  · rw [if_neg hfresh] at hmem hlive ⊢
    exact hsecure queue id ⟨⟨request',result,hmem,hsent⟩,hlive,hkept'⟩

theorem expired_wait {r : Redis} {key : String} {duration utc : ℕ}
    (h : (r.wait duration utc).expired key = false) : r.expired key = false := by
  have hdeadlines : (r.wait duration utc).deadlines = r.deadlines := rfl
  have hinstant : (r.wait duration utc).clock.instant = r.clock.instant+duration := rfl
  unfold Redis.expired at h ⊢
  rw [hdeadlines,hinstant] at h
  cases hdeadline : r.deadlines key with
  | none => rfl
  | some deadline =>
    rw [hdeadline] at h
    have hlater := of_decide_eq_false h
    apply decide_eq_false
    omega

theorem next_secure {d : Custody T} (h : d.Sound q) (hsecure : Secure d) (a : Action T)
    (hnone : NoneDropped q d a) : Secure (d.next q a) := by
  cases a with
  | request request => exact request_secure hsecure request
  | command n failure => exact command_secure h hsecure hnone
  | wait duration utc =>
    intro queue id hdue
    apply hsecure queue id
    exact ⟨hdue.sent,expired_wait hdue.unexpired,
      fun hold => hdue.unreleased (List.mem_append_left _ hold)⟩

theorem kept_of_secure {d : Custody T} (h : Secure d) : Kept d := by
  intro hidle queue id hdue
  rcases h queue id hdue with hstored | ⟨⟨request,call⟩,hmem,hholds⟩
  · exact hstored
  · exfalso
    cases request with
    | receive queue' timeoutSecs =>
      obtain ⟨result,rfl⟩ := hidle _ _ hmem (Or.inl ⟨_,_,rfl⟩)
      exact hholds
    | reject message requeue =>
      obtain ⟨result,rfl⟩ := hidle _ _ hmem (Or.inr ⟨_,_,rfl⟩)
      exact hholds
    | _ => exact hholds

/-- In every run in which no call drops a message that is due, the messages are
in the sets whenever no receive and no reject is in progress. -/
theorem kept_throughout (q : RedisMessageQueue T) (clock : Clock) (actions : List (Action T))
    (h : AtomicRun.Along (next q) (NoneDropped q) actions (start clock)) :
    AtomicRun.Throughout (next q) Kept actions (start clock) := by
  have hrun : AtomicRun.Throughout (next q) (fun d => d.Sound q ∧ Secure d) actions
      (start clock) := by
    apply AtomicRun.throughout_of_along _ _ h
    · rintro d a ⟨hsound,hsecure⟩ hnone
      exact ⟨next_sound hsound a,next_secure hsound hsecure a hnone⟩
    · refine ⟨start_sound clock,?_⟩
      rintro queue id ⟨⟨_,_,⟨⟩,_⟩,_,_⟩
  exact AtomicRun.throughout_mono (fun d hd => kept_of_secure hd.2) hrun

/-! ## A receive of a message -/

theorem noneDropped_of {d : Custody T} {n : ℕ} {failure : Option String}
    {c : Request T × Call interface (Response T)} (hat : d.clients.calls[n]? = some c)
    (h : ∀ queue id, ¬Drops q d.clients.state failure queue id c) :
    NoneDropped q d (.command n failure) := by
  intro c' hat' queue id hdrops
  rw [hat] at hat'
  cases hat'
  exact absurd hdrops (h queue id)

theorem along_of_sender {request : Request T} (hsender : ∀ queue id call,
    ¬Holds queue id (request,call)) {n : ℕ} (k : ℕ) {d : Custody T}
    (hcaller : (d.clients.calls.map Prod.fst)[n]? = some request) :
    AtomicRun.Along (next q) (NoneDropped q) (List.replicate k (.command n none)) d := by
  induction k generalizing d with
  | zero => trivial
  | succ k ih =>
    constructor
    · intro c hat queue id hdrops
      rw [List.getElem?_map,hat] at hcaller
      obtain ⟨request',call⟩ := c
      cases hcaller
      exact absurd hdrops.1 (hsender queue id call)
    · apply ih
      show ((d.clients.proceed Redis.server n none).calls.map Prod.fst)[n]? = some request
      rwa [Pool.proceed_callers]

def jobPopped : List (Action Unit) :=
  (.request jobRequest::List.replicate 3 (.command 0 none))++
    [.request (.receive "jobs" 5),.command 1 none]

theorem job_popped : ∃ data r, Bincode.string.encode (unitText jobMessage) = .ok data ∧
    AtomicRun.Along (next jobQueue) (NoneDropped jobQueue) jobPopped (start ⟨0,0⟩) ∧
    AtomicRun.run (next jobQueue) jobPopped (start ⟨0,0⟩) =
      ⟨⟨r,[(jobRequest,.done (.ok (.id "a"))),
        (.receive "jobs" 5,fetching jobQueue "jobs" "a")]⟩,[]⟩ ∧
    r.clock = ⟨0,0⟩ ∧ r.read (messageKey "a") = some data ∧ ¬Stored r "jobs" "a" := by
  obtain ⟨data,hdata,hcall⟩ := job_call
  have hstart : (start ⟨0,0⟩).next jobQueue (.request jobRequest) =
      ⟨⟨Redis.empty ⟨0,0⟩,[(jobRequest,
        storing jobMessage data 3600 100 fun _ => .done (.ok (.id "a")))]⟩,[]⟩ :=
    congrArg (fun call => (⟨⟨Redis.empty ⟨0,0⟩,[(_,call)]⟩,[]⟩ : Custody Unit)) hcall
  obtain ⟨r,hsent,hclock,hread,hsets⟩ : ∃ r : Redis, AtomicRun.run (next jobQueue)
      (.request jobRequest::List.replicate 3 (.command 0 none)) (start ⟨0,0⟩) =
      ⟨⟨r,[(jobRequest,.done (.ok (.id "a")))]⟩,[]⟩ ∧
      r.clock = ⟨0,0⟩ ∧ r.read (messageKey "a") = some data ∧
      ∀ key id, id ∈ r.sets key ↔ key = queueKey "jobs" ∧ id = "a" := by
    rw [AtomicRun.run,hstart]
    refine ⟨_,rfl,rfl,rfl,fun key id => Redis.mem_added.trans (or_iff_left ?_)⟩
    exact AList.notMem_empty id
  refine ⟨data,r.removed (queueKey "jobs") "a",hdata,?_,?_,hclock,hread,?_⟩
  · apply AtomicRun.along_append
    · refine ⟨trivial,?_⟩
      rw [hstart]
      exact along_of_sender (fun _ _ _ => id) 3 rfl
    · rw [hsent]
      exact ⟨trivial,noneDropped_of rfl fun _ _ h => h.1,trivial⟩
  · obtain ⟨⟨id,score⟩,htop⟩ := SortedSet.greatest_isSome ((hsets _ "a").mpr ⟨rfl,rfl⟩)
    rw [((hsets _ id).mp (SortedSet.greatest_mem htop)).2] at htop
    rw [jobPopped,AtomicRun.run_append,hsent]
    exact congrArg (fun s => (⟨s,[]⟩ : Custody Unit))
      (next_popping [(jobRequest,.done (.ok (.id "a")))] htop 5 r.clock)
  · rintro (hin | hin)
    · exact (Redis.mem_removed.mp hin).1 ⟨rfl,rfl⟩
    · have hkey := ((hsets _ _).mp (Redis.mem_removed.mp hin).2).1
      exact absurd hkey.symm (queueKey_ne_processingKey _ _)

theorem popped_message_kept : AtomicRun.Throughout (next jobQueue) Kept
    (jobPopped++[.command 1 none,.command 1 none]) (start ⟨0,0⟩) := by
  obtain ⟨data,r,hdata,hnone,hpopped,hclock,hread,_⟩ := job_popped
  have hlegible : Legible jobQueue data r.clock jobMessage := by
    rw [hclock]
    exact job_legible hdata
  have hfetched : next jobQueue ⟨⟨r,[(jobRequest,.done (.ok (.id "a"))),
        (.receive "jobs" 5,fetching jobQueue "jobs" "a")]⟩,[]⟩ (.command 1 none) =
      ⟨⟨r,[(jobRequest,.done (.ok (.id "a"))),(.receive "jobs" 5,
        handing "jobs" "a" (r.clock.utc+300) jobMessage.retried)]⟩,[]⟩ :=
    congrArg (fun s => (⟨s,[]⟩ : Custody Unit))
      (next_fetching [(jobRequest,.done (.ok (.id "a")))] hread hlegible)
  apply kept_throughout
  apply AtomicRun.along_append hnone
  rw [hpopped]
  refine ⟨noneDropped_of rfl ?_,?_⟩
  · rintro queue id ⟨⟨_,hkey⟩,hfailed | ⟨_,hillegible⟩⟩
    · exact hfailed rfl
    · rw [← messageKey_injective hkey] at hillegible
      exact hillegible ⟨data,jobMessage,hread,hlegible⟩
  · rw [hfetched]
    refine ⟨noneDropped_of rfl ?_,trivial⟩
    rintro queue id ⟨_,hfailed | ⟨⟨_,_,⟨⟩⟩,_⟩⟩
    exact hfailed rfl

/-- A receive whose second command fails has popped the message. -/
theorem popped_message_lost : ¬AtomicRun.Throughout (next jobQueue) Kept
    (jobPopped++[.command 1 (some "connection reset")]) (start ⟨0,0⟩) := by
  obtain ⟨data,r,_,_,hpopped,_,hread,hlost⟩ := job_popped
  intro h
  have hlast := AtomicRun.throughout_last h
  have hfailed : AtomicRun.run (next jobQueue) (jobPopped++[.command 1 (some "connection reset")])
      (start ⟨0,0⟩) = ⟨⟨r,[(jobRequest,.done (.ok (.id "a"))),
        (.receive "jobs" 5,.done (.error "connection reset"))]⟩,[]⟩ := by
    rw [AtomicRun.run_append,hpopped]
    rfl
  rw [hfailed] at hlast
  apply hlost
  apply hlast
  · intro request call hmem _
    simp only [List.mem_cons,List.not_mem_nil,or_false,Prod.mk.injEq] at hmem
    rcases hmem with ⟨_,rfl⟩ | ⟨_,rfl⟩
    · exact ⟨_,rfl⟩
    · exact ⟨_,rfl⟩
  · exact ⟨⟨jobRequest,.id "a",List.mem_cons_self,rfl⟩,Redis.not_expired_of_read hread,
      List.not_mem_nil⟩

end Custody

end DiamondBot.Network
