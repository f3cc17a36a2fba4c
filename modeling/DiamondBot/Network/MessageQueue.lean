import DiamondBot.Library.Json
import DiamondBot.Network.RedisCache

/-!
# The Redis message queue

A message is stored under a key of its own, and its id is put into the sorted
set of its queue. A receive pops the id with the greatest score, reads the
message, and puts the id into the processing set, from which an acknowledge or
a reject removes it. A caller that waits for a reply subscribes to the channel
of its correlation id, on which an acknowledge publishes the message.
-/

set_option autoImplicit false

namespace DiamondBot.Network
open Library ByteCache

/-! ## Messages -/

inductive MessagePriority
  | low
  | normal
  | high
  | critical
  deriving DecidableEq, Repr

structure MessageMetadata where
  id : String
  queue : String
  publisher : String
  timestamp : UInt64
  retryCount : UInt32
  priority : MessagePriority
  correlationId : Option String
  replyTo : Option String
  expiration : Option UInt64
  deriving DecidableEq, Repr

structure Message (T : Type) where
  metadata : MessageMetadata
  payload : T
  deriving DecidableEq, Repr

/-- The JSON of messages. A message is not read from the text of a string. -/
structure MessageJson (T : Type) extends Json (Message T) where
  notString : ∀ s m, fromText (String.ofList (Json.quote s)) ≠ .ok m

namespace MessagePriority

def rank : MessagePriority → ℕ
  | .low => 0
  | .normal => 1
  | .high => 2
  | .critical => 3

def score : MessagePriority → ℤ
  | .low => 0
  | .normal => 100
  | .high => 200
  | .critical => 300

end MessagePriority

def Message.retried {T : Type} (m : Message T) : Message T :=
  { m with metadata := { m.metadata with retryCount := m.metadata.retryCount+1 } }

/-! ## Publishing -/

namespace RedisPubSubService

def publish {V : Type} (json : Json V) (channel : String) (message : V) : Call interface Unit :=
  match json.toText message with
  | .error e => .raise e
  | .ok serialized => Redis.publish channel serialized

end RedisPubSubService

/-! ## The queue -/

structure RedisMessageQueue (T : Type) where
  redis : RedisCacheService
  json : MessageJson T
  nodeId : String

def queueKey (queue : String) : String := "queue:"++queue

def processingKey (queue : String) : String := "processing:"++queue

def messageKey (messageId : String) : String := "message:"++messageId

def replyKey (correlationId : String) : String := "reply:"++correlationId

theorem append_right_injective {a b b' : String} (h : a++b = a++b') : b = b' := by
  have hlist := congrArg String.toList h
  rw [String.toList_append,String.toList_append,List.append_cancel_left_eq] at hlist
  exact String.toList_inj.mp hlist

theorem messageKey_injective {id id' : String} (h : messageKey id = messageKey id') : id = id' :=
  append_right_injective h

theorem queueKey_injective {queue queue' : String} (h : queueKey queue = queueKey queue') :
    queue = queue' := append_right_injective h

theorem processingKey_injective {queue queue' : String}
    (h : processingKey queue = processingKey queue') : queue = queue' := append_right_injective h

theorem queueKey_ne_processingKey (queue queue' : String) :
    queueKey queue ≠ processingKey queue' := by
  intro h
  have hhead := congrArg (fun key : String => key.toList.head?) h
  have hqueue : "queue:".toList = 'q'::"ueue:".toList := by decide
  have hprocessing : "processing:".toList = 'p'::"rocessing:".toList := by decide
  simp only [queueKey,processingKey,String.toList_append,hqueue,hprocessing,List.cons_append,
    List.head?_cons,Option.some_inj] at hhead
  exact absurd hhead (by decide)

namespace RedisMessageQueue

variable {T : Type} (q : RedisMessageQueue T)

def createMetadata (id : String) (now : Clock) (queue : String) (priority : MessagePriority)
    (correlationId replyTo : Option String) (expiration : Option UInt64) : MessageMetadata where
  id
  queue
  publisher := q.nodeId
  timestamp := UInt64.ofNat now.utc
  retryCount := 0
  priority
  correlationId
  replyTo
  expiration

def store (message : Message T) (ttl : ℕ) (base : ℤ) : Call interface Unit := do
  match q.json.toText message with
  | .error e => .raise e
  | .ok messageData =>
    q.redis.set Bincode.string (messageKey message.metadata.id) messageData (some ttl)
    let now ← Call.now
    Redis.zadd (queueKey message.metadata.queue) (base+(now.utc/1000 : ℕ)) message.metadata.id

def sendWith (id queue : String) (payload : T) (priority : MessagePriority)
    (correlationId : Option String) : Call interface String := do
  let now ← Call.now
  let metadata := q.createMetadata id now queue priority correlationId none none
  q.store ⟨metadata,payload⟩ 3600 priority.score
  return id

def send (id queue : String) (payload : T) (priority : MessagePriority) : Call interface String :=
  q.sendWith id queue payload priority none

def sendWithCorrelation (id queue : String) (payload : T) (correlationId : String)
    (priority : MessagePriority) : Call interface String :=
  q.sendWith id queue payload priority (some correlationId)

def readable (payload : String) : Bool :=
  !payload.isEmpty &&
    match q.json.fromText payload with
    | .ok _ => true
    | .error _ => false

def sendAndReceive (correlationId id queue : String) (payload : T) (timeoutSecs : UInt64) :
    Call interface (Option (Message T)) := do
  let now ← Call.now
  let metadata := q.createMetadata id now queue .high (some correlationId)
    (some ("reply:"++q.nodeId)) (some (UInt64.ofNat now.utc+timeoutSecs))
  q.store ⟨metadata,payload⟩ timeoutSecs.toNat 250
  Redis.subscribe (replyKey correlationId)
  let now ← Call.now
  match ← Redis.message q.readable (now.instant+10^9*timeoutSecs.toNat) with
  | none => return none
  | some payload =>
    match q.json.fromText payload with
    | .ok message => return some message
    | .error _ => return none

def deliver (queue messageId : String) : Call interface (Option (Message T)) := do
  match ← q.redis.get Bincode.string (messageKey messageId) with
  | none => return none
  | some messageData =>
    match q.json.fromText messageData with
    | .error e => .raise e
    | .ok message =>
      let now ← Call.now
      Redis.zadd (processingKey queue) (now.utc+300 : ℕ) messageId
      return some message.retried

def receive (queue : String) (timeoutSecs : ℕ) : Call interface (Option (Message T)) := do
  match ← Redis.bzpopmax (queueKey queue) timeoutSecs with
  | none => return none
  | some (_,messageId,_) => q.deliver queue messageId

def acknowledge (message : Message T) : Call interface Unit := do
  Redis.zrem (processingKey message.metadata.queue) message.metadata.id
  let _ ← RedisCacheService.delete (messageKey message.metadata.id)
  match message.metadata.replyTo,message.metadata.correlationId with
  | some _,some correlationId =>
    match q.json.toText message with
    | .error e => .raise e
    | .ok messageData => RedisPubSubService.publish Json.string (replyKey correlationId) messageData
  | _,_ => return ()

def reject (message : Message T) (requeue : Bool) : Call interface Unit := do
  Redis.zrem (processingKey message.metadata.queue) message.metadata.id
  if requeue then
    if message.metadata.retryCount < 5 then
      let priorityScore := message.metadata.priority.score-message.metadata.retryCount.toNat*10
      let now ← Call.now
      Redis.zadd (queueKey message.metadata.queue) (priorityScore+(now.utc/1000 : ℕ))
        message.metadata.id

end RedisMessageQueue

/-! ## Clients -/

inductive Request (T : Type)
  | send (nodeId id queue : String) (payload : T) (priority : MessagePriority)
  | sendWithCorrelation (nodeId id queue : String) (payload : T) (correlationId : String)
      (priority : MessagePriority)
  | sendAndReceive (nodeId correlationId id queue : String) (payload : T) (timeoutSecs : UInt64)
  | receive (queue : String) (timeoutSecs : ℕ)
  | acknowledge (message : Message T)
  | reject (message : Message T) (requeue : Bool)

inductive Response (T : Type)
  | id (id : String)
  | message (message : Option (Message T))
  | done

namespace Request

variable {T : Type}

def draws : Request T → List String
  | .send _ id _ _ _ => [id]
  | .sendWithCorrelation _ id _ _ _ _ => [id]
  | .sendAndReceive _ correlationId id _ _ _ => [correlationId,id]
  | _ => []

def call (q : RedisMessageQueue T) : Request T → Call interface (Response T)
  | .send nodeId id queue payload priority => do
    return .id (← { q with nodeId }.send id queue payload priority)
  | .sendWithCorrelation nodeId id queue payload correlationId priority => do
    return .id (← { q with nodeId }.sendWithCorrelation id queue payload correlationId priority)
  | .sendAndReceive nodeId correlationId id queue payload timeoutSecs => do
    return .message
      (← { q with nodeId }.sendAndReceive correlationId id queue payload timeoutSecs)
  | .receive queue timeoutSecs => do return .message (← q.receive queue timeoutSecs)
  | .acknowledge message => do
    q.acknowledge message
    return .done
  | .reject message requeue => do
    RedisMessageQueue.reject message requeue
    return .done

end Request

inductive Action (T : Type)
  | request (request : Request T)
  | command (n : ℕ) (failure : Option String)
  | wait (duration utc : ℕ)

abbrev Clients (T : Type) := Pool interface Redis (Request T) (Response T)

namespace Clients

variable {T : Type} (q : RedisMessageQueue T)

def start (clock : Clock) : Clients T := ⟨Redis.empty clock,[]⟩

/-- No request drew these identifiers before. -/
def Fresh (s : Clients T) (request : Request T) : Prop :=
  ∀ c ∈ s.calls, ∀ id ∈ request.draws, id ∉ c.1.draws

instance (s : Clients T) (request : Request T) : Decidable (Fresh s request) :=
  inferInstanceAs (Decidable (∀ c ∈ s.calls, ∀ id ∈ request.draws, id ∉ c.1.draws))

def next (s : Clients T) : Action T → Clients T
  | .request request =>
    if Fresh s request then Pool.start Redis.server s request (request.call q) else s
  | .command n failure => s.proceed Redis.server n failure
  | .wait duration utc => { s with state := s.state.wait duration utc }

variable {q}

theorem next_request {s : Clients T} {request : Request T} (hdraws : request.draws = []) :
    s.next q (.request request) =
      ⟨s.state,s.calls++[(request,(request.call q).settle s.state.clock)]⟩ := by
  have hfresh : Fresh s request := by
    intro _ _ id hid
    rw [hdraws] at hid
    cases hid
  exact if_pos hfresh

theorem next_last {r r' : Redis} {calls : List (Request T × Call interface (Response T))}
    {request : Request T} {c : interface.Command}
    {rest : Except String (interface.Reply c) → Call interface (Response T)}
    {reply : interface.Reply c} {call : Call interface (Response T)}
    (hanswer : Redis.server.answer calls.length c r = some (reply,r'))
    (hcall : (rest (.ok reply)).settle r'.clock = call) :
    next q ⟨r,calls++[(request,.command c rest)]⟩ (.command calls.length none) =
      ⟨r',calls++[(request,call)]⟩ := by
  rw [← hcall]
  exact Pool.proceed_last hanswer

theorem next_callers (s : Clients T) (a : Action T) :
    s.calls.map Prod.fst <+: (s.next q a).calls.map Prod.fst := by
  cases a with
  | request request =>
    unfold next
    dsimp only
    split
    · unfold Pool.start
      dsimp only
      rw [List.map_append]
      exact List.prefix_append _ _
    · exact List.prefix_rfl
  | command n failure =>
    exact ⟨[],(List.append_nil _).trans (Pool.proceed_callers s n failure).symm⟩
  | wait duration utc => exact List.prefix_rfl

/-- A stage that every request begins at, and no command leaves. -/
theorem next_each {stage : Request T → Call interface (Response T) → Prop} {s : Clients T}
    (h : s.Each stage)
    (hstart : ∀ request : Request T, stage request ((request.call q).settle s.state.clock))
    (hnext : ∀ request n (c : interface.Command) rest reply r', stage request (.command c rest) →
      Redis.server.Replies n c s.state reply r' → stage request ((rest reply).settle r'.clock))
    (a : Action T) : (s.next q a).Each stage := by
  cases a with
  | request request =>
    unfold next
    dsimp only
    split
    · exact Pool.start_each h (hstart request)
    · exact h
  | command n failure =>
    exact Pool.proceed_each h n failure fun request c rest reply r' =>
      hnext request n c rest reply r'
  | wait duration utc => exact h

end Clients

end DiamondBot.Network
