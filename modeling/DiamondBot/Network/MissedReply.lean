import DiamondBot.Library.AtomicRun
import DiamondBot.Network.CallStages
import DiamondBot.Network.MessageCommands
import DiamondBot.Network.MessageText

/-!
# The reply to a request

An acknowledge publishes the text of the text of a message. The caller that
waits for the message reads messages only, so it takes no such payload for its
reply. It also subscribes after its message has entered the queue.
-/

set_option autoImplicit false

namespace DiamondBot.Network
open Library ByteCache

variable {T : Type} (q : RedisMessageQueue T)

def Awaiting (r : Redis) : Call interface (Response T) → Prop
  | .command (.subscribe _) _ => True
  | .command (.message _ deadline) _ => r.clock.instant < deadline
  | _ => False

def Acknowledges (n : ℕ) (s : Clients T) : Action T → Prop
  | .command k none => ∃ nodeId correlationId id queue payload timeoutSecs call message c rest,
    s.calls[n]? = some (.sendAndReceive nodeId correlationId id queue payload timeoutSecs,call) ∧
    Awaiting s.state call ∧ message.metadata.id = id ∧
    s.calls[k]? = some (.acknowledge message,.command c rest) ∧
    (s.next q (.command k none)).calls[k]? = some (.acknowledge message,.done (.ok .done))
  | _ => False

/-- Some acknowledge of the message of a call completes in time. -/
def AcknowledgedInTime (n : ℕ) (actions : List (Action T)) (s : Clients T) : Prop :=
  ∃ before a after, actions = before++a::after ∧
    Acknowledges q n (AtomicRun.run (Clients.next q) before s) a

def Ended (s : Clients T) (n : ℕ) : Prop :=
  ∃ request result, s.calls[n]? = some (request,.done result)

/-- A call whose message is acknowledged in time returns a message when it ends. -/
def RepliesReach (n : ℕ) (actions : List (Action T)) (s : Clients T) : Prop :=
  AcknowledgedInTime q n actions s → Ended (AtomicRun.run (Clients.next q) actions s) n →
    ∃ request message, (AtomicRun.run (Clients.next q) actions s).calls[n]? =
      some (request,.done (.ok (.message (some message))))

def IsText (payload : String) : Prop := ∃ text, payload = String.ofList (Json.quote text)

/-- What is published is the text of a string. -/
def Promised : (c : interface.Command) → interface.Reply c → Prop
  | .message _ _,some payload => IsText payload
  | _,_ => True

def ReturnsNone : Request T → Response T → Prop
  | .sendAndReceive _ _ _ _ _ _,response => ∀ message, response ≠ .message (some message)
  | _,_ => True

variable {q}

theorem obeys_of_sends {request : Request T} {A : Type} {call : Call interface A}
    (h : call.Sends (request.Sends q)) : call.Obeys (request.Sends q) Promised fun _ => True :=
  Call.obeys_mono h (fun _ => id) (fun _ _ _ => trivial) fun _ => id

/-- What the listener is sent is no message. -/
theorem obeys_call (request : Request T) :
    (request.call q).Obeys (request.Sends q) Promised (ReturnsNone request) := by
  cases request with
  | sendAndReceive nodeId correlationId id queue payload timeoutSecs =>
    have hlistens (deadline : ℕ) : (Redis.message q.readable deadline).Obeys
        ((Request.sendAndReceive nodeId correlationId id queue payload timeoutSecs).Sends q) Promised
        (Promised (.message q.readable deadline)) :=
      Call.obeys_send (Or.inr (Or.inr ⟨_,rfl⟩))
    have hnone : ({ q with nodeId }.sendAndReceive correlationId id queue payload
        timeoutSecs).Obeys ((Request.sendAndReceive nodeId correlationId id queue payload
          timeoutSecs).Sends q) Promised fun message => message = none := by
      apply Call.obeys_now
      intro now
      apply Call.obeys_bind
      · exact obeys_of_sends (Call.sends_mono (sends_store _ rfl _ _) fun _ => Or.inl)
      intro _ _
      apply Call.obeys_bind
      · exact obeys_of_sends (Call.sends_send (Or.inr (Or.inl rfl)))
      intro _ _
      apply Call.obeys_now
      intro now
      apply Call.obeys_bind (hlistens _)
      intro reply hreply
      cases reply with
      | none => exact rfl
      | some payload =>
        obtain ⟨text,rfl⟩ := hreply
        dsimp only
        split
        · rename_i message hread
          exact absurd hread (q.json.notString text message)
        · exact rfl
    apply Call.obeys_bind hnone
    rintro _ rfl message ⟨⟩
  | _ => exact Call.obeys_mono (sends_call _) (fun _ => id) (fun _ _ _ => trivial) fun _ _ => trivial

def TextInboxes (r : Redis) : Prop :=
  ∀ n channel payloads, r.inboxes n = some (channel,payloads) → ∀ payload ∈ payloads, IsText payload

/-- Only an acknowledge publishes. -/
theorem sends_publish {request : Request T} {channel payload : String}
    (h : request.Sends q (.publish channel payload)) : IsText payload := by
  cases request with
  | acknowledge message =>
    rcases h with h | h | ⟨_,text,h⟩
    · cases h
    · cases h
    · cases h
      exact ⟨text,rfl⟩
  | sendAndReceive nodeId correlationId id queue payload timeoutSecs =>
    rcases h with h | h | ⟨_,h⟩
    · exact h.elim
    · cases h
    · cases h
  | receive queue timeoutSecs =>
    rcases h with h | ⟨_,h | h | ⟨_,h⟩⟩
    · cases h
    · cases h
    · cases h
    · cases h
  | reject message requeue =>
    rcases h with h | ⟨_,_,_,h⟩
    · cases h
    · cases h
  | _ => exact h.elim

theorem answer_textInboxes {request : Request T} {n : ℕ} {c : interface.Command} {r r' : Redis}
    {reply : interface.Reply c} (h : TextInboxes r) (hsends : request.Sends q c)
    (hanswer : Redis.server.answer n c r = some (reply,r')) :
    TextInboxes r' ∧ Promised c reply := by
  cases Redis.answered_of hanswer with
  | publish channel payload =>
    refine ⟨?_,trivial⟩
    intro k channel' payloads hinbox payload' hmem
    obtain ⟨⟨channel₀,payloads₀⟩,hold,hdelivered⟩ := Option.map_eq_some_iff.mp hinbox
    unfold Redis.deliver at hdelivered
    dsimp only at hdelivered
    by_cases hchannel : channel₀ = channel
    · rw [if_pos hchannel] at hdelivered
      cases hdelivered
      rcases List.mem_append.mp hmem with hmem | hmem
      · exact h k _ _ hold payload' hmem
      · rw [List.mem_singleton.mp hmem]
        exact sends_publish hsends
    · rw [if_neg hchannel] at hdelivered
      cases hdelivered
      exact h k _ _ hold payload' hmem
  | subscribe channel =>
    refine ⟨?_,trivial⟩
    intro k channel' payloads hinbox payload' hmem
    dsimp only at hinbox
    by_cases hk : k = n
    · rw [hk,Function.update_self] at hinbox
      cases hinbox
      cases hmem
    · rw [Function.update_of_ne hk] at hinbox
      exact h k _ _ hinbox payload' hmem
  | message readable deadline channel payload payloads hinbox hmem =>
    exact ⟨h,h n channel payloads hinbox payload hmem⟩
  | _ => exact ⟨h,trivial⟩

/-! ## All runs -/

theorem run_textInboxes (q : RedisMessageQueue T) (clock : Clock) (actions : List (Action T)) :
    (AtomicRun.run (Clients.next q) actions (Clients.start clock)).Kept (Request.Sends q) Promised
      ReturnsNone TextInboxes := by
  apply AtomicRun.run_invariant (I := fun s : Clients T =>
    s.Kept (Request.Sends q) Promised ReturnsNone TextInboxes)
  · intro s a h
    exact Clients.next_kept h obeys_call
      (fun request n c r reply r' => answer_textInboxes) (fun r duration utc hr => hr) a
  · exact ⟨by rintro _ _ _ ⟨⟩,by rintro _ _ ⟨⟩⟩

/-- Every position keeps its request. -/
theorem run_request (q : RedisMessageQueue T) (actions : List (Action T)) {s : Clients T} {n : ℕ}
    {request request' : Request T} {call call' : Call interface (Response T)}
    (h : s.calls[n]? = some (request,call))
    (h' : (AtomicRun.run (Clients.next q) actions s).calls[n]? = some (request',call')) :
    request' = request := by
  have hcallers : s.calls.map Prod.fst <+:
      (AtomicRun.run (Clients.next q) actions s).calls.map Prod.fst := by
    apply AtomicRun.run_history (J := fun _ => True)
      (r := fun s t : Clients T => s.calls.map Prod.fst <+: t.calls.map Prod.fst)
    · exact fun s => List.prefix_rfl
    · exact fun s t u => List.IsPrefix.trans
    · exact fun _ _ _ => trivial
    · exact fun s a _ => Clients.next_callers s a
    · trivial
  have hbefore : (s.calls.map Prod.fst)[n]? = some request := by rw [List.getElem?_map,h]; rfl
  have hafter : ((AtomicRun.run (Clients.next q) actions s).calls.map Prod.fst)[n]? =
      some request' := by rw [List.getElem?_map,h']; rfl
  have hlen : n < (s.calls.map Prod.fst).length := (List.getElem?_eq_some_iff.mp hbefore).1
  obtain ⟨new,hnew⟩ := hcallers
  rw [← hnew,List.getElem?_append_left hlen,hbefore] at hafter
  exact (Option.some.inj hafter).symm

/-- A call whose message is acknowledged in time never returns a message, in
any run: the property holds where it says nothing. -/
theorem replies_reach_iff (q : RedisMessageQueue T) (clock : Clock) (n : ℕ)
    (actions : List (Action T)) : RepliesReach q n actions (Clients.start clock) ↔
      ¬(AcknowledgedInTime q n actions (Clients.start clock) ∧
        Ended (AtomicRun.run (Clients.next q) actions (Clients.start clock)) n) := by
  constructor
  · rintro h ⟨hacknowledged,hended⟩
    obtain ⟨request,message,hreturned⟩ := h hacknowledged hended
    obtain ⟨before,a,after,rfl,hstep⟩ := hacknowledged
    obtain ⟨nodeId,correlationId,id,queue,payload,timeoutSecs,call,hcall⟩ :
        ∃ nodeId correlationId id queue payload timeoutSecs call,
          (AtomicRun.run (Clients.next q) before (Clients.start clock)).calls[n]? =
            some (.sendAndReceive nodeId correlationId id queue payload timeoutSecs,call) := by
      cases a with
      | command k failure =>
        cases failure with
        | none =>
          obtain ⟨nodeId,correlationId,id,queue,payload,timeoutSecs,call,_,_,_,hcall,_⟩ := hstep
          exact ⟨nodeId,correlationId,id,queue,payload,timeoutSecs,call,hcall⟩
        | some e => exact hstep.elim
      | _ => exact hstep.elim
    rw [AtomicRun.run_append] at hreturned
    have hsame := run_request q (a::after) hcall hreturned
    subst hsame
    rw [← AtomicRun.run_append] at hreturned
    have hnone := (run_textInboxes q clock (before++a::after)).calls _ _
      (List.mem_of_getElem? hreturned)
    exact hnone message rfl
  · exact fun h hacknowledged hended => absurd ⟨hacknowledged,hended⟩ h

/-! ## A reply before the subscription -/

def listening (q : RedisMessageQueue T) (correlationId : String) (timeoutSecs : UInt64) :
    Call interface (Response T) := do
  Redis.subscribe (replyKey correlationId)
  let now ← Call.now
  match ← Redis.message q.readable (now.instant+10^9*timeoutSecs.toNat) with
  | none => return .message none
  | some payload =>
    match q.json.fromText payload with
    | .ok message => return .message (some message)
    | .error _ => return .message none

theorem sendAndReceive_settle (nodeId correlationId id queue : String) (payload : T)
    {timeoutSecs : UInt64} (htimeout : 0 < timeoutSecs.toNat) {now : Clock} {text : String}
    {data : List UInt8} {message : Message T}
    (hmessage : message = ⟨{ q with nodeId }.createMetadata id now queue .high (some correlationId)
      (some ("reply:"++nodeId)) (some (UInt64.ofNat now.utc+timeoutSecs)),payload⟩)
    (htext : q.json.toText message = .ok text) (hdata : Bincode.string.encode text = .ok data)
    (hlimit : now.instant+10^9*timeoutSecs.toNat < q.redis.redisCache.platform.limit) :
    ((Request.sendAndReceive nodeId correlationId id queue payload timeoutSecs).call q).settle now =
      storing message data timeoutSecs.toNat 250 fun _ => listening q correlationId timeoutSecs := by
  subst hmessage
  change (({ q with nodeId }.store _ timeoutSecs.toNat 250 >>= _) >>= _ : Call interface _).settle
    now = _
  rw [Call.bind_assoc,store_settle (q := { q with nodeId }) htext hdata htimeout 250 _ hlimit]
  congr 1
  funext _
  unfold listening
  rw [Call.bind_assoc]
  congr 1
  funext _
  rw [Call.bind_assoc]
  congr 1
  funext now'
  rw [Call.bind_assoc]
  congr 1
  funext reply
  cases reply with
  | none => rfl
  | some payload =>
    dsimp only
    cases q.json.fromText payload with
    | ok message => rfl
    | error e => rfl

def replyMessage : Message Unit :=
  ⟨⟨"a","jobs","node",0,0,.high,some "c",some "reply:node",some 5⟩,()⟩

def replyQueue : RedisMessageQueue Unit :=
  unitQueue [replyMessage,replyMessage.retried] (by decide +kernel)

def replyRequest : Request Unit := .sendAndReceive "node" "c" "a" "jobs" () 5

def replyBefore : List (Action Unit) :=
  [.request replyRequest,.command 0 none,.command 0 none,.command 0 none,
    .request (.receive "jobs" 5),.command 1 none,.command 1 none,.command 1 none,
    .request (.acknowledge replyMessage.retried),.command 2 none,.command 2 none]

def replyAfter : List (Action Unit) := [.command 0 none,.wait (10^9*5) 0,.command 0 none]

theorem reply_enqueued : ∃ data r, Bincode.string.encode (unitText replyMessage) = .ok data ∧
    AtomicRun.run (Clients.next replyQueue)
      [.request replyRequest,.command 0 none,.command 0 none,.command 0 none]
      (Clients.start ⟨0,0⟩) = ⟨r,[(replyRequest,listening replyQueue "c" 5)]⟩ ∧
    r.clock = ⟨0,0⟩ ∧ r.read (messageKey "a") = some data ∧
    ∀ id, id ∈ r.sets (queueKey "jobs") ↔ id = "a" := by
  obtain ⟨data,hdata⟩ : ∃ data, Bincode.string.encode (unitText replyMessage) = .ok data :=
    ⟨_,Bincode.string_encode (by decide +kernel)⟩
  have hcall : (replyRequest.call replyQueue).settle (⟨0,0⟩ : Clock) =
      storing replyMessage data 5 250 fun _ => listening replyQueue "c" 5 :=
    sendAndReceive_settle "node" "c" "a" "jobs" () (by decide) rfl rfl hdata (by decide)
  have hstart : (Clients.start ⟨0,0⟩).next replyQueue (.request replyRequest) =
      ⟨Redis.empty ⟨0,0⟩,[(replyRequest,
        storing replyMessage data 5 250 fun _ => listening replyQueue "c" 5)]⟩ :=
    congrArg (fun call => (⟨Redis.empty ⟨0,0⟩,[(_,call)]⟩ : Clients Unit)) hcall
  rw [AtomicRun.run,hstart]
  refine ⟨data,_,hdata,rfl,rfl,rfl,fun id => Redis.mem_added.trans ?_⟩
  exact (or_iff_left (AList.notMem_empty id)).trans (and_iff_right rfl)

theorem reply_legible {data : List UInt8}
    (hdata : Bincode.string.encode (unitText replyMessage) = .ok data) :
    Legible replyQueue data ⟨0,0⟩ replyMessage := by
  have hentry := CacheEntry.deserialize_serialize
    (p := replyQueue.redis.redisCache.platform) (e := ⟨unitText replyMessage,0⟩) hdata
  refine ⟨_,hentry,?_,replyQueue.json.roundTrip replyMessage _ rfl⟩
  show 0 < 10^18
  omega

/-- The caller is about to subscribe, and the acknowledge about to publish. -/
theorem reply_before : ∃ r : Redis, ∃ text, AtomicRun.run (Clients.next replyQueue) replyBefore
    (Clients.start ⟨0,0⟩) =
      ⟨r,[(replyRequest,listening replyQueue "c" 5),
        (.receive "jobs" 5,.done (.ok (.message (some replyMessage.retried)))),
        (.acknowledge replyMessage.retried,do
          Redis.publish (replyKey "c") text
          return .done)]⟩ := by
  obtain ⟨data,r,hdata,hrun,hclock,hread,hsets⟩ := reply_enqueued
  obtain ⟨⟨id,score⟩,htop⟩ := SortedSet.greatest_isSome ((hsets "a").mpr rfl)
  rw [(hsets id).mp (SortedSet.greatest_mem htop)] at htop
  have hlegible : Legible replyQueue data r.clock replyMessage := by
    rw [hclock]
    exact reply_legible hdata
  have hsplit : replyBefore = [.request replyRequest,.command 0 none,.command 0 none,
    .command 0 none]++[.request (.receive "jobs" 5),.command 1 none,.command 1 none,.command 1 none,
      .request (.acknowledge replyMessage.retried),.command 2 none,.command 2 none] := rfl
  have hreceive : Clients.next replyQueue ⟨r,[(replyRequest,listening replyQueue "c" 5)]⟩
      (.request (.receive "jobs" 5)) = _ := Clients.next_request rfl
  have hpop : Clients.next replyQueue ⟨r,[(replyRequest,listening replyQueue "c" 5)]++
      [(.receive "jobs" 5,((Request.receive "jobs" 5).call replyQueue).settle r.clock)]⟩
      (.command 1 none) = _ := next_popping _ htop 5 r.clock
  have hfetch : Clients.next replyQueue ⟨r.removed (queueKey "jobs") "a",
      [(replyRequest,listening replyQueue "c" 5)]++
        [(.receive "jobs" 5,fetching replyQueue "jobs" "a")]⟩ (.command 1 none) = _ :=
    next_fetching _ hread hlegible
  rw [hsplit,AtomicRun.run_append,hrun]
  simp only [AtomicRun.run]
  rw [hreceive,hpop,hfetch]
  exact ⟨_,_,rfl⟩

theorem next_unanswered {r : Redis} {calls : List (Request T × Call interface (Response T))}
    {request : Request T} {readable : String → Bool} {deadline : ℕ}
    {rest : Except String (interface.Reply (.message readable deadline)) →
      Call interface (Response T)} {channel : String} (hinbox : r.inboxes 0 = some (channel,[]))
    (hdeadline : deadline ≤ r.clock.instant) :
    Clients.next q ⟨r,(request,.command (.message readable deadline) rest)::calls⟩
        (.command 0 none) = ⟨r,(request,(rest (.ok none)).settle r.clock)::calls⟩ := by
  have hanswer : Redis.server.answer 0 (.message readable deadline) r = some (none,r) := by
    simp only [Redis.server,Redis.answer,hinbox,Option.map_some,Option.getD_some,List.find?_nil]
    exact if_pos hdeadline
  unfold Clients.next Pool.proceed
  dsimp only [List.getElem?_cons_zero]
  rw [hanswer]
  rfl

/-- The acknowledge publishes before the caller has subscribed. -/
theorem reply_missed : ¬RepliesReach replyQueue 0 (replyBefore++.command 2 none::replyAfter)
    (Clients.start ⟨0,0⟩) := by
  obtain ⟨r,text,hbefore⟩ := reply_before
  have hafter : ∃ r', AtomicRun.run (Clients.next replyQueue)
      (replyBefore++.command 2 none::replyAfter) (Clients.start ⟨0,0⟩) =
      ⟨r',[(replyRequest,.done (.ok (.message none))),
        (.receive "jobs" 5,.done (.ok (.message (some replyMessage.retried)))),
        (.acknowledge replyMessage.retried,.done (.ok .done))]⟩ := by
    rw [AtomicRun.run_append,hbefore]
    obtain ⟨r₁,rest,hsubscribed,hinbox,hrest⟩ : ∃ (r₁ : Redis) (rest : Except String
        (interface.Reply (.message replyQueue.readable
          (r₁.clock.instant+10^9*(5 : UInt64).toNat))) → Call interface (Response Unit)),
        AtomicRun.run (Clients.next replyQueue) [.command 2 none,.command 0 none]
          ⟨r,[(replyRequest,listening replyQueue "c" 5),
            (.receive "jobs" 5,.done (.ok (.message (some replyMessage.retried)))),
            (.acknowledge replyMessage.retried,do
              Redis.publish (replyKey "c") text
              return .done)]⟩ =
          ⟨r₁,[(replyRequest,.command _ rest),
            (.receive "jobs" 5,.done (.ok (.message (some replyMessage.retried)))),
            (.acknowledge replyMessage.retried,.done (.ok .done))]⟩ ∧
        r₁.inboxes 0 = some (replyKey "c",[]) ∧ rest (.ok none) = .done (.ok (.message none)) :=
      ⟨_,_,rfl,rfl,rfl⟩
    have hdeadline : r₁.clock.instant+10^9*(5 : UInt64).toNat ≤
        (r₁.wait (10^9*5) 0).clock.instant := Nat.add_le_add_left (by decide) _
    have hwaited : (r₁.wait (10^9*5) 0).inboxes 0 = some (replyKey "c",[]) := hinbox
    have hended (calls : List (Request Unit × Call interface (Response Unit))) :
        Clients.next replyQueue
          ⟨r₁.wait (10^9*5) 0,(replyRequest,.command (I := interface) _ rest)::calls⟩
          (.command 0 none) =
        ⟨r₁.wait (10^9*5) 0,(replyRequest,.done (.ok (.message none)))::calls⟩ := by
      rw [next_unanswered hwaited hdeadline,hrest]
      rfl
    have hsplit : (.command 2 none::replyAfter : List (Action Unit)) =
        [.command 2 none,.command 0 none]++[.wait (10^9*5) 0,.command 0 none] := rfl
    rw [hsplit,AtomicRun.run_append,hsubscribed]
    exact ⟨_,hended _⟩
  obtain ⟨r',hrun⟩ := hafter
  intro h
  have hreturned := h ⟨replyBefore,.command 2 none,replyAfter,rfl,?_⟩ ?_
  · rw [hrun] at hreturned
    obtain ⟨_,_,⟨⟩⟩ := hreturned
  · rw [hbefore]
    exact ⟨"node","c","a","jobs",(),5,_,replyMessage.retried,_,_,rfl,trivial,rfl,rfl,rfl⟩
  · rw [hrun]
    exact ⟨_,_,rfl⟩

end DiamondBot.Network
