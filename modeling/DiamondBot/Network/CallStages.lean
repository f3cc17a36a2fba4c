import DiamondBot.Network.MessageQueue

/-!
# Calls in progress

A receive pops an id, fetches the message of the id, and hands it out with the
command that puts the id into the processing set. Between the first command
and the last the id is in neither set. A reject takes an id out of the
processing set before it puts it back into the queue.
-/

set_option autoImplicit false

namespace DiamondBot.Network
open Library ByteCache

variable {T : Type} (q : RedisMessageQueue T)

def storing {A : Type} (message : Message T) (data : List UInt8) (ttl : ℕ) (base : ℤ)
    (rest : Unit → Call interface A) : Call interface A := do
  Redis.set (messageKey message.metadata.id) data
  Redis.expire (messageKey message.metadata.id) ttl
  let now ← Call.now
  Redis.zadd (queueKey message.metadata.queue) (base+(now.utc/1000 : ℕ)) message.metadata.id
  rest ()

def fetching (queue id : String) : Call interface (Response T) := do
  return .message (← q.deliver queue id)

def handing (queue id : String) (score : ℕ) (message : Message T) :
    Call interface (Response T) := do
  Redis.zadd (processingKey queue) score id
  return .message (some message)

def removing (key : String) : Call interface (Response T) := do
  Redis.del key
  return .message none

/-- Where a receive can be; the messages it hands out are as stated. -/
inductive ReceiveStage (P : String → Message T → Prop) (queue : String) (timeoutSecs : ℕ) :
    Call interface (Response T) → Prop
  | popping : ReceiveStage P queue timeoutSecs ((Request.receive queue timeoutSecs).call q)
  | fetching (id : String) : ReceiveStage P queue timeoutSecs (fetching q queue id)
  | handing (id : String) (score : ℕ) (message : Message T) (h : P id message) :
      ReceiveStage P queue timeoutSecs (handing queue id score message)
  | removing (key : String) : ReceiveStage P queue timeoutSecs (removing key)
  | none : ReceiveStage P queue timeoutSecs (.done (.ok (.message none)))
  | message (message : Message T) :
      ReceiveStage P queue timeoutSecs (.done (.ok (.message (some message))))
  | failed (e : String) : ReceiveStage P queue timeoutSecs (.done (.error e))

def Legible (data : List UInt8) (now : Clock) (message : Message T) : Prop :=
  ∃ entry, CacheEntry.deserialize q.redis.redisCache.platform Bincode.string data = .ok entry ∧
    now.instant < q.redis.redisCache.platform.restored ∧ q.json.fromText entry.value = .ok message

def requeueing (message : Message T) (now : Clock) : Call interface (Response T) := do
  Redis.zadd (queueKey message.metadata.queue)
    (message.metadata.priority.score-message.metadata.retryCount.toNat*10+(now.utc/1000 : ℕ))
    message.metadata.id
  return .done

/-- Where a reject can be. -/
inductive RejectStage (message : Message T) (requeue : Bool) : Call interface (Response T) → Prop
  | taking : RejectStage message requeue ((Request.reject message requeue).call q)
  | requeueing (now : Clock) : RejectStage message requeue (requeueing message now)
  | done : RejectStage message requeue (.done (.ok .done))
  | failed (e : String) : RejectStage message requeue (.done (.error e))

variable {q}

theorem store_settle {A : Type} {message : Message T} {text : String} {data : List UInt8}
    (htext : q.json.toText message = .ok text) (hdata : Bincode.string.encode text = .ok data)
    {ttl : ℕ} (httl : 0 < ttl) (base : ℤ) (rest : Unit → Call interface A) {now : Clock}
    (hlimit : now.instant+10^9*ttl < q.redis.redisCache.platform.limit) :
    (q.store message ttl base >>= rest).settle now = storing message data ttl base rest := by
  unfold RedisMessageQueue.store RedisCacheService.set
  rw [htext]
  dsimp only [Option.getD_some]
  rw [Call.bind_assoc,q.redis.redisCache.storeInCache_settle hdata,if_pos hlimit,if_pos httl]
  simp only [Call.bind_assoc]
  rfl

theorem send_settle (nodeId id queue : String) (payload : T) (priority : MessagePriority)
    {now : Clock} {text : String} {data : List UInt8}
    (htext : q.json.toText ⟨{ q with nodeId }.createMetadata id now queue priority none none none,
      payload⟩ = .ok text) (hdata : Bincode.string.encode text = .ok data)
    (hlimit : now.instant+10^9*3600 < q.redis.redisCache.platform.limit) :
    ((Request.send nodeId id queue payload priority).call q).settle now =
      storing ⟨{ q with nodeId }.createMetadata id now queue priority none none none,payload⟩ data
        3600 priority.score fun _ => .done (.ok (.id id)) := by
  change ((({ q with nodeId }.store
    ⟨{ q with nodeId }.createMetadata id now queue priority none none none,payload⟩ 3600
    priority.score >>= fun _ => Call.done (.ok id)) >>= fun id =>
    Call.done (.ok (Response.id id))).settle now) = _
  rw [Call.bind_assoc]
  exact store_settle (q := { q with nodeId }) htext hdata (by decide) _ _ hlimit

theorem popping_command (queue : String) (timeoutSecs : ℕ) :
    ∃ rest, (Request.receive queue timeoutSecs).call q =
        .command (.bzpopmax (queueKey queue) timeoutSecs) rest ∧
      (∀ e, rest (.error e) = .done (.error e)) ∧
      rest (.ok none) = .done (.ok (.message none)) ∧
      ∀ key id score, rest (.ok (some (key,id,score))) = fetching q queue id := by
  refine ⟨_,rfl,fun _ => rfl,rfl,fun _ _ _ => rfl⟩

variable (q) in
def fetched (queue id : String) : Option String → Call interface (Response T)
  | none => .done (.ok (.message none))
  | some messageData =>
    match q.json.fromText messageData with
    | .error e => .done (.error e)
    | .ok message => .clock fun now => handing queue id (now.utc+300) message.retried

theorem fetching_eq (queue id : String) : fetching q queue id =
    q.redis.redisCache.getFromCache Bincode.string (messageKey id) >>= fetched q queue id := by
  rw [fetching,RedisMessageQueue.deliver,Call.bind_assoc]
  congr 1
  funext text
  cases text with
  | none => rfl
  | some messageData =>
    unfold fetched
    dsimp only
    cases q.json.fromText messageData with
    | error e => rfl
    | ok message =>
      refine congrArg Call.clock (funext fun now => ?_)
      exact Call.bind_assoc (Redis.zadd (processingKey queue) (now.utc+300 : ℕ) id) _ _

/-- A message that can be read is handed out next; otherwise none or an error
is returned, at once or when the entry has been deleted. -/
theorem fetching_command (queue id : String) :
    ∃ rest, fetching q queue id = .command (.get (messageKey id)) rest ∧
      (∀ e, rest (.error e) = .done (.error e)) ∧
      ∀ reply (now : Clock),
        (∃ data message, reply = some data ∧ Legible q data now message ∧
          (rest (.ok reply)).settle now = handing queue id (now.utc+300) message.retried) ∨
        ((∀ data message, reply = some data → ¬Legible q data now message) ∧
          ((rest (.ok reply)).settle now = .done (.ok (.message none)) ∨
            (rest (.ok reply)).settle now = removing (messageKey id) ∨
            ∃ e, (rest (.ok reply)).settle now = .done (.error e))) := by
  rw [fetching_eq]
  refine ⟨_,q.redis.redisCache.getFromCache_bind _,fun _ => rfl,fun reply now => ?_⟩
  cases reply with
  | none =>
    right
    exact ⟨by rintro _ _ ⟨⟩,Or.inl rfl⟩
  | some data =>
    rw [Call.ok_bind,RedisCache.readEntry_settle]
    cases hentry : CacheEntry.deserialize q.redis.redisCache.platform Bincode.string data with
    | error e =>
      right
      refine ⟨?_,Or.inr (Or.inr ⟨_,rfl⟩)⟩
      rintro _ message ⟨⟩ ⟨entry,hentry',_⟩
      rw [hentry] at hentry'
      cases hentry'
    | ok entry =>
      dsimp only
      by_cases hlive : now.instant < q.redis.redisCache.platform.restored
      · rw [if_pos hlive]
        unfold fetched
        dsimp only
        cases htext : q.json.fromText entry.value with
        | error e =>
          right
          refine ⟨?_,Or.inr (Or.inr ⟨e,rfl⟩)⟩
          rintro _ message ⟨⟩ ⟨entry',hentry',_,htext'⟩
          rw [hentry] at hentry'
          cases hentry'
          rw [htext] at htext'
          cases htext'
        | ok message => exact Or.inl ⟨data,message,rfl,⟨entry,hentry,hlive,htext⟩,rfl⟩
      · rw [if_neg hlive]
        right
        refine ⟨?_,Or.inr (Or.inl rfl)⟩
        rintro _ message ⟨⟩ ⟨_,_,hlive',_⟩
        exact hlive hlive'

theorem legible_unique {data : List UInt8} {now : Clock} {message message' : Message T}
    (h : Legible q data now message) (h' : Legible q data now message') : message = message' := by
  obtain ⟨entry,hentry,_,htext⟩ := h
  obtain ⟨entry',hentry',_,htext'⟩ := h'
  rw [hentry] at hentry'
  cases hentry'
  rw [htext] at htext'
  cases htext'
  rfl

theorem fetching_legible (queue id : String) {data : List UInt8} {now : Clock}
    {message : Message T} (h : Legible q data now message) :
    ∃ rest, fetching q queue id = .command (.get (messageKey id)) rest ∧
      (rest (.ok (some data))).settle now = handing queue id (now.utc+300) message.retried := by
  obtain ⟨rest,hget,_,hnext⟩ := fetching_command (q := q) queue id
  refine ⟨rest,hget,?_⟩
  rcases hnext (some data) now with ⟨data',message',hdata,hlegible,hhanding⟩ | ⟨hillegible,_⟩
  · cases hdata
    rw [legible_unique h hlegible]
    exact hhanding
  · exact absurd h (hillegible data message rfl)

theorem next_popping {r : Redis} (calls : List (Request T × Call interface (Response T)))
    {request : Request T} {queue id : String} {score : ℤ}
    (htop : (r.sets (queueKey queue)).greatest = some ⟨id,score⟩) (timeoutSecs : ℕ) (now : Clock) :
    Clients.next q ⟨r,calls++[(request,((Request.receive queue timeoutSecs).call q).settle now)]⟩
        (.command calls.length none) =
      ⟨r.removed (queueKey queue) id,calls++[(request,fetching q queue id)]⟩ := by
  obtain ⟨rest,hpop,_,_,hfetch⟩ := popping_command (q := q) queue timeoutSecs
  obtain ⟨rest',hget,_⟩ := fetching_command (q := q) queue id
  rw [hpop,hget]
  apply Clients.next_last (Redis.answer_pop htop _ _)
  rw [hfetch,hget]
  rfl

theorem next_fetching {r : Redis} (calls : List (Request T × Call interface (Response T)))
    {request : Request T} {queue id : String} {data : List UInt8} {message : Message T}
    (hread : r.read (messageKey id) = some data) (hlegible : Legible q data r.clock message) :
    Clients.next q ⟨r,calls++[(request,fetching q queue id)]⟩ (.command calls.length none) =
      ⟨r,calls++[(request,handing queue id (r.clock.utc+300) message.retried)]⟩ := by
  obtain ⟨rest,hget,hhanding⟩ := fetching_legible queue id hlegible
  have hanswer : Redis.server.answer calls.length (.get (messageKey id)) r = some (some data,r) := by
    rw [← hread]
    rfl
  rw [hget]
  exact Clients.next_last hanswer hhanding

section
variable {P : String → Message T → Prop} {queue : String} {timeoutSecs n : ℕ}
  {c : interface.Command} {rest : Except String (interface.Reply c) → Call interface (Response T)}
  {r r' : Redis} {reply : Except String (interface.Reply c)}

variable (q P queue timeoutSecs c) in
def Awaits (next : Call interface (Response T)) : Prop :=
  ReceiveStage q P queue timeoutSecs next ∧ (∀ key score id, c ≠ .zadd key score id) ∧
    ∀ message, next ≠ .done (.ok (.message (some message)))

theorem popping_awaits
    (hform : Call.command c rest = (Request.receive queue timeoutSecs).call q)
    (hreply : Redis.server.Replies n c r reply r') :
    Awaits q P queue timeoutSecs c ((rest reply).settle r'.clock) := by
  obtain ⟨rest',hpop,herror,hnone,hsome⟩ := popping_command (q := q) queue timeoutSecs
  rw [hpop] at hform
  cases hform
  cases hreply with
  | failed e =>
    rw [herror]
    exact ⟨.failed e,by simp,by rintro _ ⟨⟩⟩
  | answered hanswer =>
    cases Redis.answered_of hanswer with
    | popped _ _ id score =>
      rw [hsome]
      exact ⟨.fetching id,by simp,by rintro _ ⟨⟩⟩
    | nonePopped =>
      rw [hnone]
      exact ⟨.none,by simp,by rintro _ ⟨⟩⟩

theorem fetching_awaits {id : String} (hform : Call.command c rest = fetching q queue id)
    (hreply : Redis.server.Replies n c r reply r')
    (hP : ∀ id data message, r.read (messageKey id) = some data →
      Legible q data r.clock message → P id message.retried) :
    Awaits q P queue timeoutSecs c ((rest reply).settle r'.clock) := by
  obtain ⟨rest',hget,herror,hread⟩ := fetching_command (q := q) queue id
  rw [hget] at hform
  cases hform
  cases hreply with
  | failed e =>
    rw [herror]
    exact ⟨.failed e,by simp,by rintro _ ⟨⟩⟩
  | answered hanswer =>
    cases Redis.answered_of hanswer
    rcases hread (r.read (messageKey id)) r.clock with
      ⟨data,message,hdata,hlegible,hnext⟩ | ⟨_,hnext | hnext | ⟨e,hnext⟩⟩
    · rw [hnext]
      exact ⟨.handing _ _ _ (hP id data message hdata hlegible),by simp,by rintro _ ⟨⟩⟩
    · rw [hnext]
      exact ⟨.none,by simp,by rintro _ ⟨⟩⟩
    · rw [hnext]
      exact ⟨.removing _,by simp,by rintro _ ⟨⟩⟩
    · rw [hnext]
      exact ⟨.failed e,by simp,by rintro _ ⟨⟩⟩

/-- One command takes a receive from stage to stage. A message is returned by
the command that puts its id into the processing set, and by no other. -/
theorem receiveStage_next (h : ReceiveStage q P queue timeoutSecs (.command c rest))
    (hreply : Redis.server.Replies n c r reply r')
    (hP : ∀ id data message, r.read (messageKey id) = some data →
      Legible q data r.clock message → P id message.retried) :
    ReceiveStage q P queue timeoutSecs ((rest reply).settle r'.clock) ∧
      ((∃ score id message, P id message ∧ c = .zadd (processingKey queue) score id ∧
          (∀ answer, rest (.ok answer) = .done (.ok (.message (some message)))) ∧
          ∀ e, rest (.error e) = .done (.error e)) ∨
        (∀ key score id, c ≠ .zadd key score id) ∧
          ∀ message, (rest reply).settle r'.clock ≠ .done (.ok (.message (some message)))) := by
  generalize hform : Call.command c rest = call at h
  cases h with
  | popping =>
    obtain ⟨hstage,hother⟩ := popping_awaits hform hreply
    exact ⟨hstage,Or.inr hother⟩
  | fetching id =>
    obtain ⟨hstage,hother⟩ := fetching_awaits hform hreply hP
    exact ⟨hstage,Or.inr hother⟩
  | handing id score message hmessage =>
    cases hform
    refine ⟨?_,Or.inl ⟨score,id,message,hmessage,rfl,fun _ => rfl,fun _ => rfl⟩⟩
    cases hreply with
    | failed e => exact .failed e
    | answered hanswer => exact .message message
  | removing key =>
    cases hform
    cases hreply with
    | failed e => exact ⟨.failed e,Or.inr ⟨by simp,by rintro _ ⟨⟩⟩⟩
    | answered hanswer => exact ⟨.none,Or.inr ⟨by simp,by rintro _ ⟨⟩⟩⟩
  | none => cases hform
  | message message => cases hform
  | failed e => cases hform

end

theorem taking_command (message : Message T) (requeue : Bool) :
    ∃ rest, (Request.reject message requeue).call q =
        .command (.zrem (processingKey message.metadata.queue) message.metadata.id) rest ∧
      (∀ e, rest (.error e) = .done (.error e)) ∧
      ∀ now, (rest (.ok ())).settle now =
        if requeue = true ∧ message.metadata.retryCount < 5 then requeueing message now
        else .done (.ok .done) := by
  refine ⟨_,rfl,fun _ => rfl,fun now => ?_⟩
  cases requeue with
  | false =>
    rw [if_neg (by rintro ⟨⟨⟩,_⟩)]
    rfl
  | true =>
    simp only [if_true,true_and]
    by_cases hretry : message.metadata.retryCount < 5
    · rw [if_pos hretry,if_pos hretry]
      rfl
    · rw [if_neg hretry,if_neg hretry]
      rfl

/-- One command takes a reject from stage to stage. -/
theorem rejectStage_next {message : Message T} {requeue : Bool} {n : ℕ} {c : interface.Command}
    {rest : Except String (interface.Reply c) → Call interface (Response T)}
    (h : RejectStage q message requeue (.command c rest)) {r r' : Redis}
    {reply : Except String (interface.Reply c)} (hreply : Redis.server.Replies n c r reply r') :
    RejectStage q message requeue ((rest reply).settle r'.clock) := by
  generalize hform : Call.command c rest = call at h
  cases h with
  | taking =>
    obtain ⟨rest',hzrem,herror,hnext⟩ := taking_command (q := q) message requeue
    rw [hzrem] at hform
    cases hform
    cases hreply with
    | failed e =>
      rw [herror]
      exact .failed e
    | answered hanswer =>
      rw [hnext]
      split
      · exact .requeueing _
      · exact .done
  | requeueing now =>
    cases hform
    cases hreply with
    | failed e => exact .failed e
    | answered hanswer => exact .done
  | done => cases hform
  | failed e => cases hform

/-! ## The stage told by the command -/

section Command

variable {P : String → Message T → Prop} {queue : String} {timeoutSecs : ℕ}

theorem receiveStage_pop {key : String} {timeout : ℕ}
    {rest : Except String (interface.Reply (.bzpopmax key timeout)) → Call interface (Response T)}
    (h : ReceiveStage q P queue timeoutSecs (.command (.bzpopmax key timeout) rest))
    (key' id : String) (score : ℤ) : rest (.ok (some (key',id,score))) = fetching q queue id := by
  generalize hform : Call.command (I := interface) (.bzpopmax key timeout) rest = call at h
  cases h with
  | popping =>
    obtain ⟨rest',hpop,_,_,hsome⟩ := popping_command (q := q) queue timeoutSecs
    rw [hpop] at hform
    cases hform
    exact hsome key' id score
  | fetching id' =>
    obtain ⟨rest',hget,_⟩ := fetching_command (q := q) queue id'
    rw [hget] at hform
    cases hform
  | _ => cases hform

theorem receiveStage_get {id : String}
    {rest : Except String (interface.Reply (.get (messageKey id))) → Call interface (Response T)}
    (h : ReceiveStage q P queue timeoutSecs (.command (.get (messageKey id)) rest))
    {data : List UInt8} {now : Clock} {message : Message T} (hlegible : Legible q data now message) :
    (rest (.ok (some data))).settle now = handing queue id (now.utc+300) message.retried := by
  generalize hform : Call.command (I := interface) (.get (messageKey id)) rest = call at h
  cases h with
  | popping =>
    obtain ⟨rest',hpop,_⟩ := popping_command (q := q) queue timeoutSecs
    rw [hpop] at hform
    cases hform
  | fetching id' =>
    obtain ⟨rest',hget,hnext⟩ := fetching_legible queue id' hlegible
    rw [hget] at hform
    have hid : id = id' := messageKey_injective (Command.get.inj (Call.command.inj hform).1)
    subst hid
    cases hform
    exact hnext
  | _ => cases hform

theorem rejectStage_zrem {message : Message T} {requeue : Bool} {key member : String}
    {rest : Except String (interface.Reply (.zrem key member)) → Call interface (Response T)}
    (h : RejectStage q message requeue (.command (.zrem key member) rest)) (now : Clock) :
    (rest (.ok ())).settle now =
      if requeue = true ∧ message.metadata.retryCount < 5 then requeueing message now
      else .done (.ok .done) := by
  generalize hform : Call.command (I := interface) (.zrem key member) rest = call at h
  cases h with
  | taking =>
    obtain ⟨rest',hzrem,_,hnext⟩ := taking_command (q := q) message requeue
    rw [hzrem] at hform
    cases hform
    exact hnext now
  | _ => cases hform

end Command

end DiamondBot.Network
