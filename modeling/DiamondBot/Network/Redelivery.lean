import DiamondBot.Library.AtomicRun
import DiamondBot.Network.MessageCommands
import DiamondBot.Network.MessageText
import DiamondBot.Network.CallStages

/-!
# Redelivery

A receive counts a delivery on the copy it returns and not on the message it
leaves in the store. A message that comes back to its queue is read again from
the store, so every delivery carries the same count, and no count stops it.
-/

set_option autoImplicit false

namespace DiamondBot.Network
open Library ByteCache

variable {T : Type} (q : RedisMessageQueue T)

structure Deliveries (T : Type) where
  clients : Clients T
  received : List (Message T)

def messageOfCall : Call interface (Response T) → Option (Message T)
  | .done (.ok (.message message)) => message
  | _ => none

def returnedBy : Request T × Call interface (Response T) → Request T × Call interface (Response T) →
    Option (Message T)
  | (.receive _ _,.command _ _),c => messageOfCall c.2
  | _,_ => none

def returned (before after : Clients T) : Action T → Option (Message T)
  | .command n _ => before.calls[n]?.bind fun c => after.calls[n]?.bind (returnedBy c)
  | _ => none

def handedId : Request T × Call interface (Response T) → Option String
  | (.receive _ _,.command (.zadd _ _ id) _) => some id
  | _ => none

namespace Deliveries

def start (clock : Clock) : Deliveries T := ⟨Clients.start clock,[]⟩

def next (d : Deliveries T) (a : Action T) : Deliveries T where
  clients := d.clients.next q a
  received := d.received++(returned d.clients (d.clients.next q a) a).toList

def of (d : Deliveries T) (id : String) : List (Message T) :=
  d.received.filter fun m => m.metadata.id = id

/-- At most five deliveries, each counted. -/
def Bounded (id : String) (d : Deliveries T) : Prop :=
  (d.of id).length ≤ 5 ∧
    (d.of id).map (·.metadata.retryCount.toNat) = List.range' 1 (d.of id).length

def handsOver (s : Clients T) : Action T → Option String
  | .command n none => s.calls[n]?.bind handedId
  | _ => none

/-- The message is not handed out again. -/
def FirstDelivery (id : String) (d : Deliveries T) (a : Action T) : Prop :=
  handsOver d.clients a = some id → d.of id = []

def Once (id : String) (message : Message T) : Prop :=
  message.metadata.id = id ∧ message.metadata.retryCount = 1

/-- The messages in the store were never delivered. -/
structure Sound (d : Deliveries T) : Prop where
  clients : d.clients.Kept (Request.Sends q) (fun _ _ => True) (fun _ _ => True)
    fun r => ∀ id data, r.values (messageKey id) = some data → Undelivered q id data
  receives : ∀ queue timeoutSecs call, (Request.receive queue timeoutSecs,call) ∈ d.clients.calls →
    ReceiveStage q Once queue timeoutSecs call
  received : ∀ m ∈ d.received, m.metadata.retryCount = 1

variable {q}

/-- Only a send sets a message key. -/
theorem answer_undelivered {request : Request T} {n : ℕ} {c : interface.Command} {r r' : Redis}
    {reply : interface.Reply c}
    (h : ∀ id data, r.values (messageKey id) = some data → Undelivered q id data)
    (hsends : request.Sends q c) (hanswer : Redis.server.answer n c r = some (reply,r')) :
    ∀ id data, r'.values (messageKey id) = some data → Undelivered q id data := by
  intro id data hvalue
  cases Redis.answered_of hanswer with
  | set key data' =>
    obtain ⟨id',_,rfl,hdata⟩ := sends_set hsends
    by_cases hid : messageKey id = messageKey id'
    · rw [messageKey_injective hid]
      dsimp only at hvalue
      rw [hid,Function.update_self] at hvalue
      cases hvalue
      exact hdata
    · dsimp only at hvalue
      rw [Function.update_of_ne hid] at hvalue
      exact h id data hvalue
  | del key =>
    by_cases hid : messageKey id = key
    · dsimp only at hvalue
      rw [hid,Function.update_self] at hvalue
      cases hvalue
    · dsimp only at hvalue
      rw [Function.update_of_ne hid] at hvalue
      exact h id data hvalue
  | _ => exact h id data hvalue

theorem once_of_legible {id : String} {data : List UInt8} {now : Clock} {message : Message T}
    (h : Undelivered q id data) (hlegible : Legible q data now message) :
    Once id message.retried := by
  obtain ⟨stored,text,hid,hcount,htext,hdata⟩ := h
  obtain ⟨entry,hentry,_,hmessage⟩ := hlegible
  rw [CacheEntry.deserialize_serialize (e := ⟨text,0⟩) hdata] at hentry
  cases hentry
  rw [q.json.roundTrip stored text htext] at hmessage
  cases hmessage
  refine ⟨hid,?_⟩
  change message.metadata.retryCount+1 = 1
  rw [hcount]
  rfl

/-! ## One step -/

theorem Sound.stored_once {d : Deliveries T} (h : d.Sound q) (id : String) (data : List UInt8)
    (message : Message T) (hread : d.clients.state.read (messageKey id) = some data)
    (hlegible : Legible q data d.clients.state.clock message) : Once id message.retried :=
  once_of_legible (h.clients.state id data (Redis.values_of_read hread)) hlegible

theorem start_sound (clock : Clock) : (start clock : Deliveries T).Sound q where
  clients := ⟨by rintro _ _ ⟨⟩,by rintro _ _ ⟨⟩⟩
  receives := by rintro _ _ _ ⟨⟩
  received := by rintro _ ⟨⟩

theorem messageOfCall_none {call : Call interface (Response T)}
    (h : ∀ message, call ≠ .done (.ok (.message (some message)))) : messageOfCall call = none := by
  unfold messageOfCall
  split
  · rename_i message
    cases message with
    | none => rfl
    | some message => exact absurd rfl (h message)
  · rfl

theorem returnedBy_self (c : Request T × Call interface (Response T)) : returnedBy c c = none := by
  obtain ⟨request,call⟩ := c
  cases request with
  | receive queue timeoutSecs =>
    cases call with
    | done outcome => rfl
    | clock rest => rfl
    | command c rest => rfl
  | _ => rfl

/-- A call that waits hands nothing out. -/
theorem waiting_hands {s : Clients T} {n : ℕ} {failure : Option String}
    (hwaits : ∀ request c rest, s.calls[n]? = some (request,.command c rest) →
      failure = none ∧ Redis.server.answer n c s.state = none) :
    handsOver s (.command n failure) = none ∧ returned s s (.command n failure) = none := by
  constructor
  · cases failure with
    | some e => rfl
    | none =>
      cases hat : s.calls[n]? with
      | none => simp only [handsOver,hat,Option.bind_none]
      | some c =>
        simp only [handsOver,hat,Option.bind_some]
        unfold handedId
        split
        · cases (hwaits _ _ _ hat).2
        · rfl
  · cases hat : s.calls[n]? with
    | none => simp only [returned,hat,Option.bind_none]
    | some c => simp only [returned,hat,Option.bind_some,returnedBy_self]

theorem handedId_none {request : Request T} {c : interface.Command}
    {rest : Except String (interface.Reply c) → Call interface (Response T)}
    (h : ∀ key score id, c ≠ .zadd key score id) : handedId (request,.command c rest) = none := by
  unfold handedId
  split
  · rename_i key score id rest' heq
    cases heq
    exact absurd rfl (h key score id)
  · rfl

/-- The command of a receive that is answered puts the id of the message it
returns into the processing set, and any other neither hands out nor returns one. -/
theorem receive_hands {queue : String} {timeoutSecs n : ℕ} {c : interface.Command}
    {rest : Except String (interface.Reply c) → Call interface (Response T)} {r r' : Redis}
    {reply : Except String (interface.Reply c)} {failure : Option String}
    (h : ReceiveStage q Once queue timeoutSecs (.command c rest))
    (hreply : Redis.server.Replies n c r reply r')
    (hok : failure = none ↔ ∃ answer, reply = .ok answer)
    (hstored : ∀ id data message, r.read (messageKey id) = some data →
      Legible q data r.clock message → Once id message.retried) :
    ((if failure = none then handedId (Request.receive queue timeoutSecs,.command c rest)
        else none) = none ∧
      messageOfCall ((rest reply).settle r'.clock) = none) ∨
      ∃ id message, Once id message ∧
        (if failure = none then handedId (Request.receive queue timeoutSecs,.command c rest)
          else none) = some id ∧
        messageOfCall ((rest reply).settle r'.clock) = some message := by
  obtain ⟨_,⟨score,id,message,honce,rfl,hrest,herror⟩ | ⟨hzadd,hnone⟩⟩ :=
    receiveStage_next h hreply hstored
  · cases hreply with
    | answered hanswer =>
      refine Or.inr ⟨id,message,honce,?_,?_⟩
      · rw [if_pos (hok.mpr ⟨_,rfl⟩)]
        rfl
      · rw [hrest]
        rfl
    | failed e =>
      refine Or.inl ⟨?_,?_⟩
      · rw [if_neg (fun hnone => by simpa using hok.mp hnone)]
      · rw [herror]
        rfl
  · rw [handedId_none hzadd,ite_self]
    exact Or.inl ⟨rfl,messageOfCall_none hnone⟩

/-- A receive returns a message exactly when it puts the id into the processing
set, and the message is the one of the id, delivered once. -/
theorem command_hands {d : Deliveries T} (h : d.Sound q) (n : ℕ) (failure : Option String) :
    (handsOver d.clients (.command n failure) = none ∧
        returned d.clients (d.clients.next q (.command n failure)) (.command n failure) = none) ∨
      ∃ id message, Once id message ∧ handsOver d.clients (.command n failure) = some id ∧
        returned d.clients (d.clients.next q (.command n failure)) (.command n failure) =
          some message := by
  rcases Pool.proceed_cases Redis.server d.clients n failure with
    ⟨hsame,hwaits⟩ | ⟨request,c,rest,reply,state,hat,hreply,hok,hnext⟩
  · rw [Clients.next,hsame]
    exact Or.inl (waiting_hands hwaits)
  · have hlen : n < d.clients.calls.length := (List.getElem?_eq_some_iff.mp hat).1
    have hafter : (d.clients.next q (.command n failure)).calls[n]? =
        some (request,(rest reply).settle state.clock) := by
      rw [Clients.next,hnext]
      exact List.getElem?_set_self hlen
    have hreturned : returned d.clients (d.clients.next q (.command n failure))
        (.command n failure) =
        returnedBy (request,.command c rest) (request,(rest reply).settle state.clock) := by
      simp only [returned,hat,hafter,Option.bind_some]
    have hhands : handsOver d.clients (.command n failure) =
        if failure = none then handedId (request,.command c rest) else none := by
      cases failure with
      | none => simp only [handsOver,hat,Option.bind_some,if_true]
      | some e => rfl
    rw [hreturned,hhands]
    cases request with
    | receive queue timeoutSecs =>
      exact receive_hands (h.receives queue timeoutSecs _ (List.mem_of_getElem? hat)) hreply hok
        h.stored_once
    | _ => exact Or.inl ⟨ite_self _,rfl⟩

theorem next_kept {d : Deliveries T} (h : d.Sound q) (a : Action T) :
    (d.clients.next q a).Kept (Request.Sends q) (fun _ _ => True) (fun _ _ => True)
      fun r => ∀ id data, r.values (messageKey id) = some data → Undelivered q id data := by
  apply Clients.next_kept h.clients sends_call
  · intro request n c r reply r' hr hsends hanswer
    exact ⟨answer_undelivered hr hsends hanswer,trivial⟩
  · exact fun r duration utc hr => hr

theorem next_receives {d : Deliveries T} (h : d.Sound q) (a : Action T) (queue : String)
    (timeoutSecs : ℕ) (call : Call interface (Response T))
    (hcall : (Request.receive queue timeoutSecs,call) ∈ (d.clients.next q a).calls) :
    ReceiveStage q Once queue timeoutSecs call := by
  have heach : (d.clients.next q a).Each fun request call => ∀ queue timeoutSecs,
      request = .receive queue timeoutSecs → ReceiveStage q Once queue timeoutSecs call := by
    apply Clients.next_each
    · intro request call hmem queue timeoutSecs hrequest
      exact h.receives queue timeoutSecs call (hrequest ▸ hmem)
    · intro request queue timeoutSecs hrequest
      subst hrequest
      exact .popping
    · intro request n c rest reply r' hstage hreply queue timeoutSecs hrequest
      exact (receiveStage_next (hstage queue timeoutSecs hrequest) hreply h.stored_once).1
  exact heach _ _ hcall queue timeoutSecs rfl

theorem next_hands {d : Deliveries T} (h : d.Sound q) (a : Action T) :
    (handsOver d.clients a = none ∧ (d.next q a).received = d.received) ∨
      ∃ id message, Once id message ∧ handsOver d.clients a = some id ∧
        (d.next q a).received = d.received++[message] := by
  cases a with
  | request request => exact Or.inl ⟨rfl,List.append_nil _⟩
  | command n failure =>
    rcases command_hands h n failure with ⟨hhands,hnone⟩ | ⟨id,message,honce,hhands,hmessage⟩
    · refine Or.inl ⟨hhands,?_⟩
      rw [next,hnone]
      exact List.append_nil _
    · refine Or.inr ⟨id,message,honce,hhands,?_⟩
      rw [next,hmessage]
      rfl
  | wait duration utc => exact Or.inl ⟨rfl,List.append_nil _⟩

theorem next_sound {d : Deliveries T} (h : d.Sound q) (a : Action T) : (d.next q a).Sound q := by
  refine ⟨next_kept h a,next_receives h a,?_⟩
  rcases next_hands h a with ⟨_,hsame⟩ | ⟨id,message,honce,_,hnew⟩
  · rw [hsame]
    exact h.received
  · rw [hnew]
    intro m hm
    rcases List.mem_append.mp hm with hold | hm
    · exact h.received m hold
    · rw [List.mem_singleton.mp hm]
      exact honce.2

/-! ## All runs -/

theorem bounded_iff {d : Deliveries T} (h : ∀ m ∈ d.received, m.metadata.retryCount = 1)
    (id : String) : Bounded id d ↔ (d.of id).length ≤ 1 := by
  have hcounts : (d.of id).map (·.metadata.retryCount.toNat) = List.replicate (d.of id).length 1 := by
    rw [List.map_eq_replicate_iff]
    intro m hm
    rw [h m (List.mem_filter.mp hm).1]
    rfl
  unfold Bounded
  rw [hcounts]
  constructor
  · rintro ⟨_,hrange⟩
    by_contra hlong
    have hsecond := congrArg (fun l : List ℕ => l[1]?) hrange
    rw [List.getElem?_replicate_of_lt (by omega),List.getElem?_range' (by omega)] at hsecond
    cases hsecond
  · intro hshort
    refine ⟨by omega,?_⟩
    rcases Nat.le_one_iff_eq_zero_or_eq_one.mp hshort with hlen | hlen
    · rw [hlen]
      rfl
    · rw [hlen]
      rfl

/-- One step keeps the deliveries bounded exactly when it is no second one. -/
theorem next_bounded_iff {d : Deliveries T} (h : d.Sound q) {id : String}
    (hbounded : Bounded id d) (a : Action T) :
    Bounded id (d.next q a) ↔ FirstDelivery id d a := by
  rw [bounded_iff h.received] at hbounded
  rw [bounded_iff (next_sound h a).received]
  unfold FirstDelivery of
  rcases next_hands h a with ⟨hhands,hsame⟩ | ⟨id',message,honce,hhands,hnew⟩
  · rw [hsame,hhands]
    exact iff_of_true hbounded (by rintro ⟨⟩)
  · rw [hnew,hhands,List.filter_append,List.length_append]
    by_cases hid : id' = id
    · have hmessage : message.metadata.id = id := honce.1.trans hid
      rw [List.filter_cons_of_pos (by simpa using hmessage),hid]
      change _+1 ≤ 1 ↔ _
      constructor
      · exact fun hlen _ => List.length_eq_zero_iff.mp (by omega)
      · intro hfirst
        rw [hfirst rfl]
        exact Nat.le_refl _
    · have hmessage : message.metadata.id ≠ id := fun heq => hid (honce.1.symm.trans heq)
      rw [List.filter_cons_of_neg (by simpa using hmessage)]
      refine iff_of_true hbounded fun heq => ?_
      rw [Option.some_inj] at heq
      exact absurd heq hid

/-- In every run, whatever the calls, the deliveries of a message are bounded
and counted exactly when there is no second one. -/
theorem bounded_throughout_iff (q : RedisMessageQueue T) (clock : Clock) (id : String)
    (actions : List (Action T)) :
    AtomicRun.Throughout (next q) (Bounded id) actions (start clock) ↔
      AtomicRun.Along (next q) (FirstDelivery id) actions (start clock) := by
  have hsound := start_sound (q := q) clock
  apply AtomicRun.throughout_iff_along (J := fun d => d.Sound q)
  · exact fun d a hd => next_sound hd a
  · exact fun d a hd hbounded => next_bounded_iff hd hbounded a
  · exact hsound
  · rw [bounded_iff hsound.received]
    exact Nat.zero_le _

/-! ## Delivered without end -/

def delivery (queue : String) (n : ℕ) : List (Action T) :=
  [.request (.receive queue 5),.command n none,.command n none,.command n none]

def rejection (message : Message T) (n : ℕ) : List (Action T) :=
  [.request (.reject message true),.command n none,.command n none]

def cycles (message : Message T) : ℕ → ℕ → List (Action T)
  | _,0 => []
  | n,k+1 => delivery message.metadata.queue n++(rejection message (n+1)++cycles message (n+2) k)

structure Waits (q : RedisMessageQueue T) (message : Message T) (r : Redis) : Prop where
  member : message.metadata.id ∈ r.sets (queueKey message.metadata.queue)
  only : ∀ id ∈ r.sets (queueKey message.metadata.queue), id = message.metadata.id
  legible : ∃ data, r.read (messageKey message.metadata.id) = some data ∧
    Legible q data r.clock message

section Last

variable {r r' : Redis} {calls : List (Request T × Call interface (Response T))}
  {request : Request T} {received : List (Message T)}

theorem next_last {before after : Call interface (Response T)}
    (hclients : Clients.next q ⟨r,calls++[(request,before)]⟩ (.command calls.length none) =
      ⟨r',calls++[(request,after)]⟩) :
    next q ⟨⟨r,calls++[(request,before)]⟩,received⟩ (.command calls.length none) =
      ⟨⟨r',calls++[(request,after)]⟩,
        received++(returnedBy (request,before) (request,after)).toList⟩ := by
  unfold next
  dsimp only
  rw [hclients]
  simp only [returned,List.getElem?_append_right (Nat.le_refl _),Nat.sub_self,
    List.getElem?_cons_zero,Option.bind_some]

theorem next_request (hdraws : request.draws = []) :
    next q ⟨⟨r,calls⟩,received⟩ (.request request) =
      ⟨⟨r,calls++[(request,(request.call q).settle r.clock)]⟩,received⟩ := by
  unfold next
  rw [Clients.next_request hdraws]
  exact congrArg _ (List.append_nil _)

theorem next_pop {queue id : String} {score : ℤ}
    (htop : (r.sets (queueKey queue)).greatest = some ⟨id,score⟩) (timeoutSecs : ℕ) :
    next q ⟨⟨r,calls++[(.receive queue timeoutSecs,
        ((Request.receive queue timeoutSecs).call q).settle r.clock)]⟩,received⟩
        (.command calls.length none) =
      ⟨⟨r.removed (queueKey queue) id,
        calls++[(.receive queue timeoutSecs,fetching q queue id)]⟩,received⟩ := by
  obtain ⟨rest,hpop,_⟩ := popping_command (q := q) queue timeoutSecs
  obtain ⟨rest',hget,_⟩ := fetching_command (q := q) queue id
  refine (next_last (next_popping calls htop timeoutSecs r.clock)).trans ?_
  rw [hpop,hget]
  exact congrArg _ (List.append_nil _)

theorem next_fetch {queue id : String} {data : List UInt8} {message : Message T}
    (hread : r.read (messageKey id) = some data) (hlegible : Legible q data r.clock message)
    (timeoutSecs : ℕ) :
    next q ⟨⟨r,calls++[(.receive queue timeoutSecs,fetching q queue id)]⟩,received⟩
        (.command calls.length none) =
      ⟨⟨r,calls++[(.receive queue timeoutSecs,
        handing queue id (r.clock.utc+300) message.retried)]⟩,received⟩ :=
  (next_last (next_fetching calls hread hlegible)).trans (congrArg _ (List.append_nil _))

theorem next_hand {queue id : String} {score : ℕ} {message : Message T} (timeoutSecs : ℕ) :
    next q ⟨⟨r,calls++[(.receive queue timeoutSecs,handing queue id score message)]⟩,received⟩
        (.command calls.length none) =
      ⟨⟨r.added (processingKey queue) score id,calls++[(.receive queue timeoutSecs,
        .done (.ok (.message (some message))))]⟩,received++[message]⟩ :=
  next_last (Clients.next_last rfl rfl)

theorem next_remove {message : Message T} (hretry : message.metadata.retryCount < 5) :
    next q ⟨⟨r,calls++[(.reject message true,
        ((Request.reject message true).call q).settle r.clock)]⟩,received⟩
        (.command calls.length none) =
      ⟨⟨r.removed (processingKey message.metadata.queue) message.metadata.id,
        calls++[(.reject message true,requeueing message r.clock)]⟩,received⟩ := by
  obtain ⟨rest,hzrem,_,hnext⟩ := taking_command (q := q) message true
  have hrequeue := hnext r.clock
  rw [if_pos ⟨rfl,hretry⟩] at hrequeue
  rw [hzrem]
  exact (next_last (Clients.next_last rfl hrequeue)).trans (congrArg _ (List.append_nil _))

theorem next_requeue {message : Message T} {now : Clock} :
    ∃ score, next q ⟨⟨r,calls++[(.reject message true,requeueing message now)]⟩,received⟩
        (.command calls.length none) =
      ⟨⟨r.added (queueKey message.metadata.queue) score message.metadata.id,
        calls++[(.reject message true,.done (.ok .done))]⟩,received⟩ :=
  ⟨_,(next_last (Clients.next_last rfl rfl)).trans (congrArg _ (List.append_nil _))⟩

end Last

section Waits

variable {r : Redis} {calls : List (Request T × Call interface (Response T))}
  {message : Message T} {received : List (Message T)}

variable (calls received) in
theorem run_delivery (h : Waits q message r) :
    ∃ score, AtomicRun.run (next q) (delivery message.metadata.queue calls.length)
        ⟨⟨r,calls⟩,received⟩ =
      ⟨⟨(r.removed (queueKey message.metadata.queue) message.metadata.id).added
          (processingKey message.metadata.queue) score message.metadata.id,
        calls++[(.receive message.metadata.queue 5,.done (.ok (.message (some message.retried))))]⟩,
        received++[message.retried]⟩ := by
  obtain ⟨⟨id,score⟩,htop⟩ := SortedSet.greatest_isSome h.member
  have hid : id = message.metadata.id := h.only id (SortedSet.greatest_mem htop)
  rw [hid] at htop
  obtain ⟨data,hread,hlegible⟩ := h.legible
  have hpopped : (r.removed (queueKey message.metadata.queue) message.metadata.id).read
      (messageKey message.metadata.id) = some data := hread
  simp only [delivery,AtomicRun.run]
  rw [next_request rfl,next_pop htop,next_fetch hpopped hlegible,next_hand]
  exact ⟨_,rfl⟩

variable (r received) in
theorem run_rejection {n : ℕ} (hn : n = calls.length) (hretry : message.metadata.retryCount < 5) :
    ∃ score, AtomicRun.run (next q) (rejection message n) ⟨⟨r,calls⟩,received⟩ =
      ⟨⟨(r.removed (processingKey message.metadata.queue) message.metadata.id).added
          (queueKey message.metadata.queue) score message.metadata.id,
        calls++[(.reject message true,.done (.ok .done))]⟩,received⟩ := by
  subst hn
  simp only [rejection,AtomicRun.run]
  rw [next_request rfl,next_remove hretry]
  exact next_requeue

theorem waits_again (h : Waits q message r) (score score' : ℤ) :
    Waits q message ((((r.removed (queueKey message.metadata.queue) message.metadata.id).added
      (processingKey message.metadata.queue) score message.metadata.id).removed
      (processingKey message.metadata.queue) message.metadata.id).added
      (queueKey message.metadata.queue) score' message.metadata.id) where
  member := Redis.mem_added.mpr (Or.inl ⟨rfl,rfl⟩)
  only := by
    intro id hid
    rcases Redis.mem_added.mp hid with ⟨_,hid⟩ | hid
    · exact hid
    · rcases Redis.mem_added.mp (Redis.mem_removed.mp hid).2 with ⟨_,hid⟩ | hid
      · exact hid
      · exact h.only id (Redis.mem_removed.mp hid).2
  legible := h.legible

/-- However often a message has been received and rejected, it is received
again, and always with the same count. -/
theorem run_cycles (hretry : message.retried.metadata.retryCount < 5) (k : ℕ) {n : ℕ}
    (hn : n = calls.length) (h : Waits q message r) :
    (AtomicRun.run (next q) (cycles message.retried n k) ⟨⟨r,calls⟩,received⟩).received =
      received++List.replicate k message.retried := by
  induction k generalizing r calls received n with
  | zero => exact (List.append_nil _).symm
  | succ k ih =>
    obtain ⟨score,hdelivery⟩ := run_delivery calls received h
    rw [← hn] at hdelivery
    have hlength : n+1 = (calls++[((.receive message.metadata.queue 5 : Request T),
        (.done (.ok (.message (some message.retried))) : Call interface (Response T)))]).length := by
      rw [hn,List.length_append]
      rfl
    obtain ⟨score',hrejection⟩ := run_rejection (q := q)
      ((r.removed (queueKey message.metadata.queue) message.metadata.id).added
        (processingKey message.metadata.queue) score message.metadata.id)
      (received++[message.retried]) hlength hretry
    have hcycle : AtomicRun.run (next q) (cycles message.retried n (k+1)) ⟨⟨r,calls⟩,received⟩ =
        AtomicRun.run (next q) (cycles message.retried (n+2) k)
          (AtomicRun.run (next q) (rejection message.retried (n+1))
            (AtomicRun.run (next q) (delivery message.metadata.queue n) ⟨⟨r,calls⟩,received⟩)) := by
      rw [cycles,AtomicRun.run_append,AtomicRun.run_append]
      rfl
    rw [hcycle,hdelivery,hrejection]
    apply (ih _ (waits_again h score score')).trans
    · exact (List.append_cons ..).symm
    · rw [hn,List.length_append,List.length_append]
      rfl

end Waits

/-! ## Six deliveries of one message -/

def jobSending : List (Action Unit) :=
  [.request jobRequest,.command 0 none,.command 0 none,.command 0 none]

theorem job_waits : ∃ r, AtomicRun.run (next jobQueue) jobSending (start ⟨0,0⟩) =
    ⟨⟨r,[(jobRequest,.done (.ok (.id "a")))]⟩,[]⟩ ∧ Waits jobQueue jobMessage r := by
  obtain ⟨data,hdata,hcall⟩ := job_call
  have hstart : (start ⟨0,0⟩).next jobQueue (.request jobRequest) =
      ⟨⟨Redis.empty ⟨0,0⟩,[(jobRequest,
        storing jobMessage data 3600 100 fun _ => .done (.ok (.id "a")))]⟩,[]⟩ :=
    congrArg (fun call => (⟨⟨Redis.empty ⟨0,0⟩,[(_,call)]⟩,[]⟩ : Deliveries Unit)) hcall
  rw [jobSending,AtomicRun.run,hstart]
  refine ⟨_,rfl,?_,?_,data,rfl,job_legible hdata⟩
  · exact Redis.mem_added.mpr (Or.inl ⟨rfl,rfl⟩)
  · intro id hid
    rcases Redis.mem_added.mp hid with ⟨_,hid⟩ | hid
    · exact hid
    · exact absurd hid (AList.notMem_empty id)

/-- The message is received six times, and every time for the first time. -/
theorem job_delivered_without_end : ¬AtomicRun.Throughout (next jobQueue) (Bounded "a")
    (jobSending++cycles jobMessage.retried 1 6) (start ⟨0,0⟩) := by
  obtain ⟨r,hsent,hwaits⟩ := job_waits
  intro h
  have hlast := AtomicRun.throughout_last h
  rw [AtomicRun.run_append,hsent] at hlast
  have hreceived : (AtomicRun.run (next jobQueue) (cycles jobMessage.retried 1 6)
      ⟨⟨r,[(jobRequest,.done (.ok (.id "a")))]⟩,[]⟩).received =
      List.replicate 6 jobMessage.retried := run_cycles (by decide) 6 rfl hwaits
  unfold Bounded of at hlast
  rw [hreceived] at hlast
  exact absurd hlast.1 (by decide)

end Deliveries

end DiamondBot.Network
