import DiamondBot.Network.MessageQueue

/-!
# The commands of the message queue

What a call can do to the server is told by the commands it sends: a send
stores a message of its own, only an acknowledge or a reject removes an id from
a processing set, and only a receive pops one.
-/

set_option autoImplicit false

namespace DiamondBot.Network
open Library ByteCache

variable {T : Type} (q : RedisMessageQueue T)

def Undelivered (id : String) (data : List UInt8) : Prop :=
  ∃ message text, message.metadata.id = id ∧ message.metadata.retryCount = 0 ∧
    q.json.toText message = .ok text ∧ Bincode.string.encode text = .ok data

def Stores (id queue : String) : Command → Prop
  | .set key data => key = messageKey id ∧ Undelivered q id data
  | .expire key _ => key = messageKey id
  | .zadd key _ member => key = queueKey queue ∧ member = id
  | _ => False

namespace Request

def Sends : Request T → Command → Prop
  | .send _ id queue _ _,c => Stores q id queue c
  | .sendWithCorrelation _ id queue _ _ _,c => Stores q id queue c
  | .sendAndReceive _ correlationId id queue _ _,c =>
    Stores q id queue c ∨ c = .subscribe (replyKey correlationId) ∨
      ∃ deadline, c = .message q.readable deadline
  | .receive queue timeoutSecs,c =>
    c = .bzpopmax (queueKey queue) timeoutSecs ∨
      ∃ id, c = .get (messageKey id) ∨ c = .del (messageKey id) ∨
        ∃ score, c = .zadd (processingKey queue) score id
  | .acknowledge message,c =>
    c = .zrem (processingKey message.metadata.queue) message.metadata.id ∨
      c = .del (messageKey message.metadata.id) ∨
      ∃ channel text, c = .publish channel (String.ofList (Json.quote text))
  | .reject message requeue,c =>
    c = .zrem (processingKey message.metadata.queue) message.metadata.id ∨
      requeue = true ∧ message.metadata.retryCount < 5 ∧
        ∃ score, c = .zadd (queueKey message.metadata.queue) score message.metadata.id

end Request

variable {q}

theorem sends_store (message : Message T) (hnew : message.metadata.retryCount = 0) (ttl : ℕ)
    (base : ℤ) : (q.store message ttl base).Sends
      (Stores q message.metadata.id message.metadata.queue) := by
  unfold RedisMessageQueue.store
  cases htext : q.json.toText message with
  | error e => exact Call.sends_done _
  | ok text =>
    refine Call.sends_bind ?_ fun _ => ?_
    · exact RedisCache.sends_storeInCache _
        (fun data hdata => ⟨rfl,message,text,rfl,hnew,htext,hdata⟩) fun _ => rfl
    · exact Call.sends_now fun now => Call.sends_send ⟨rfl,rfl⟩

theorem sends_sendWith (nodeId id queue : String) (payload : T) (priority : MessagePriority)
    (correlationId : Option String) :
    ({ q with nodeId }.sendWith id queue payload priority correlationId).Sends
      (Stores q id queue) := by
  refine Call.sends_now fun now => Call.sends_bind ?_ fun _ => Call.sends_done _
  exact sends_store (q := { q with nodeId }) ⟨{ q with nodeId }.createMetadata id now queue priority
    correlationId none none,payload⟩ rfl _ _

theorem sends_deliver (queue id : String) : (q.deliver queue id).Sends fun c : Command =>
    c = .get (messageKey id) ∨ c = .del (messageKey id) ∨
      ∃ score, c = .zadd (processingKey queue) score id := by
  unfold RedisMessageQueue.deliver
  refine Call.sends_bind ?_ fun text => ?_
  · exact RedisCache.sends_getFromCache _ (Or.inl rfl) (Or.inr (Or.inl rfl))
  · cases text with
    | none => exact Call.sends_done _
    | some messageData =>
      dsimp only
      cases q.json.fromText messageData with
      | error e => exact Call.sends_done _
      | ok message =>
        refine Call.sends_now fun now => ?_
        exact Call.sends_bind (Call.sends_send (Or.inr (Or.inr ⟨_,rfl⟩))) fun _ =>
          Call.sends_done _

theorem sends_sendAndReceive (nodeId correlationId id queue : String) (payload : T)
    (timeoutSecs : UInt64) :
    ((Request.sendAndReceive nodeId correlationId id queue payload timeoutSecs).call q).Sends
      ((Request.sendAndReceive nodeId correlationId id queue payload timeoutSecs).Sends q) := by
  refine Call.sends_bind ?_ fun _ => Call.sends_done _
  refine Call.sends_now fun now => ?_
  refine Call.sends_bind ?_ fun _ => ?_
  · exact Call.sends_mono (sends_store _ rfl _ _) fun _ => Or.inl
  · refine Call.sends_bind (Call.sends_send (Or.inr (Or.inl rfl))) fun _ => ?_
    refine Call.sends_now fun now => ?_
    refine Call.sends_bind (Call.sends_send (Or.inr (Or.inr ⟨_,rfl⟩))) fun payload => ?_
    cases payload with
    | none => exact Call.sends_done _
    | some payload =>
      dsimp only
      split
      · exact Call.sends_done _
      · exact Call.sends_done _

theorem sends_receive (queue : String) (timeoutSecs : ℕ) :
    ((Request.receive queue timeoutSecs : Request T).call q).Sends
      ((Request.receive queue timeoutSecs : Request T).Sends q) := by
  refine Call.sends_bind ?_ fun _ => Call.sends_done _
  refine Call.sends_bind (Call.sends_send (Or.inl rfl)) fun popped => ?_
  match popped with
  | none => exact Call.sends_done _
  | some (_,id,_) => exact Call.sends_mono (sends_deliver queue id) fun c hc => Or.inr ⟨id,hc⟩

theorem sends_acknowledge (message : Message T) :
    ((Request.acknowledge message).call q).Sends ((Request.acknowledge message).Sends q) := by
  refine Call.sends_bind ?_ fun _ => Call.sends_done _
  refine Call.sends_bind (Call.sends_send (Or.inl rfl)) fun _ => ?_
  refine Call.sends_bind ?_ fun _ => ?_
  · exact Call.sends_bind (Call.sends_send (Or.inr (Or.inl rfl))) fun _ => Call.sends_done _
  · split
    · split
      · exact Call.sends_done _
      · exact Call.sends_send (Or.inr (Or.inr ⟨_,_,rfl⟩))
    · exact Call.sends_done _

theorem sends_reject (message : Message T) (requeue : Bool) :
    ((Request.reject message requeue).call q).Sends
      ((Request.reject message requeue).Sends q) := by
  refine Call.sends_bind ?_ fun _ => Call.sends_done _
  refine Call.sends_bind (Call.sends_send (Or.inl rfl)) fun _ => ?_
  split
  · rename_i hrequeue
    split
    · rename_i hretry
      refine Call.sends_now fun now => ?_
      exact Call.sends_send (Or.inr ⟨hrequeue,hretry,_,rfl⟩)
    · exact Call.sends_done _
  · exact Call.sends_done _

theorem sends_call (request : Request T) : (request.call q).Sends (request.Sends q) := by
  cases request with
  | send nodeId id queue payload priority =>
    exact Call.sends_bind (sends_sendWith nodeId id queue payload priority none) fun _ =>
      Call.sends_done _
  | sendWithCorrelation nodeId id queue payload correlationId priority =>
    exact Call.sends_bind (sends_sendWith nodeId id queue payload priority (some correlationId))
      fun _ => Call.sends_done _
  | sendAndReceive nodeId correlationId id queue payload timeoutSecs =>
    exact sends_sendAndReceive nodeId correlationId id queue payload timeoutSecs
  | receive queue timeoutSecs => exact sends_receive queue timeoutSecs
  | acknowledge message => exact sends_acknowledge message
  | reject message requeue => exact sends_reject message requeue

/-- Every request is answered by the commands of its call alone. -/
theorem Clients.next_kept {promised : (c : interface.Command) → interface.Reply c → Prop}
    {returns : Request T → Response T → Prop} {inv : Redis → Prop} {s : Clients T}
    (h : s.Kept (Request.Sends q) promised returns inv)
    (hcall : ∀ request : Request T, (request.call q).Obeys (request.Sends q) promised
      (returns request))
    (hserver : ∀ (request : Request T) n (c : interface.Command) r reply r', inv r →
      request.Sends q c → Redis.server.answer n c r = some (reply,r') → inv r' ∧ promised c reply)
    (hwait : ∀ r duration utc, inv r → inv (r.wait duration utc)) (a : Action T) :
    (s.next q a).Kept (Request.Sends q) promised returns inv := by
  cases a with
  | request request =>
    unfold Clients.next
    dsimp only
    split
    · exact Pool.start_kept h (hcall request)
    · exact h
  | command n failure => exact Pool.proceed_kept h hserver n failure
  | wait duration utc => exact ⟨hwait _ _ _ h.state,h.calls⟩

/-! ## Who sends what -/

theorem sends_stored {request : Request T} {c : Command} (h : request.Sends q c)
    (hset : (∃ key data, c = .set key data) ∨ ∃ key seconds, c = .expire key seconds) :
    ∃ id ∈ request.draws, ∃ queue, Stores q id queue c := by
  cases request with
  | send nodeId id queue payload priority => exact ⟨id,by simp [Request.draws],queue,h⟩
  | sendWithCorrelation nodeId id queue payload correlationId priority =>
    exact ⟨id,by simp [Request.draws],queue,h⟩
  | sendAndReceive nodeId correlationId id queue payload timeoutSecs =>
    rcases h with h | h | ⟨_,h⟩
    · exact ⟨id,by simp [Request.draws],queue,h⟩
    · rcases hset with ⟨_,_,rfl⟩ | ⟨_,_,rfl⟩ <;> cases h
    · rcases hset with ⟨_,_,rfl⟩ | ⟨_,_,rfl⟩ <;> cases h
  | receive queue timeoutSecs =>
    rcases hset with ⟨_,_,rfl⟩ | ⟨_,_,rfl⟩ <;> simp [Request.Sends] at h
  | acknowledge message =>
    rcases hset with ⟨_,_,rfl⟩ | ⟨_,_,rfl⟩ <;> simp [Request.Sends] at h
  | reject message requeue =>
    rcases hset with ⟨_,_,rfl⟩ | ⟨_,_,rfl⟩ <;> simp [Request.Sends] at h

theorem sends_set {request : Request T} {key : String} {data : List UInt8}
    (h : request.Sends q (.set key data)) :
    ∃ id ∈ request.draws, key = messageKey id ∧ Undelivered q id data := by
  obtain ⟨id,hid,_,hkey,hdata⟩ := sends_stored h (Or.inl ⟨key,data,rfl⟩)
  exact ⟨id,hid,hkey,hdata⟩

theorem sends_expire {request : Request T} {key : String} {seconds : ℕ}
    (h : request.Sends q (.expire key seconds)) : ∃ id ∈ request.draws, key = messageKey id := by
  obtain ⟨id,hid,_,hkey⟩ := sends_stored h (Or.inr ⟨key,seconds,rfl⟩)
  exact ⟨id,hid,hkey⟩

theorem sends_pop {request : Request T} {key : String} {timeout : ℕ}
    (h : request.Sends q (.bzpopmax key timeout)) :
    ∃ queue, request = .receive queue timeout ∧ key = queueKey queue := by
  cases request with
  | send nodeId id queue payload priority => cases h
  | sendWithCorrelation nodeId id queue payload correlationId priority => cases h
  | sendAndReceive nodeId correlationId id queue payload timeoutSecs =>
    simp [Request.Sends,Stores] at h
  | receive queue timeoutSecs =>
    simp [Request.Sends] at h
    exact ⟨queue,by rw [h.2],h.1⟩
  | acknowledge message => simp [Request.Sends] at h
  | reject message requeue => simp [Request.Sends] at h

theorem sends_zrem {request : Request T} {key member : String}
    (h : request.Sends q (.zrem key member)) :
    ∃ message, (request = .acknowledge message ∨ ∃ requeue, request = .reject message requeue) ∧
      key = processingKey message.metadata.queue ∧ member = message.metadata.id := by
  cases request with
  | send nodeId id queue payload priority => cases h
  | sendWithCorrelation nodeId id queue payload correlationId priority => cases h
  | sendAndReceive nodeId correlationId id queue payload timeoutSecs =>
    simp [Request.Sends,Stores] at h
  | receive queue timeoutSecs => simp [Request.Sends] at h
  | acknowledge message =>
    simp [Request.Sends] at h
    exact ⟨message,Or.inl rfl,h⟩
  | reject message requeue =>
    simp [Request.Sends] at h
    exact ⟨message,Or.inr ⟨requeue,rfl⟩,h⟩

end DiamondBot.Network
