import DiamondBot.Network.MessageText

/-!
# The most urgent message

The order of a queue is that of its scores, while the messages expire under
keys of their own. A receive pops one id: what it returns depends on the
message of that id alone, whatever else is in the queue.
-/

set_option autoImplicit false

namespace DiamondBot.Network
open Library ByteCache

variable {T : Type} (q : RedisMessageQueue T) (r : Redis) (queue : String)

def messageOf (id : String) : Option (Message T) :=
  match r.read (messageKey id) with
  | none => none
  | some data =>
    match CacheEntry.deserialize q.redis.redisCache.platform Bincode.string data with
    | .error _ => none
    | .ok entry =>
      match q.json.fromText entry.value with
      | .error _ => none
      | .ok message => some message

def Live (id : String) (message : Message T) : Prop :=
  id ∈ r.sets (queueKey queue) ∧ messageOf q r id = some message

def Urgent (message : Message T) : Prop :=
  ∀ id' message', Live q r queue id' message' →
    message'.metadata.priority.rank ≤ message.metadata.priority.rank

def outcome (n timeoutSecs : ℕ) : Option (Except String (Option (Message T))) :=
  (Redis.server.alone n (q.receive queue timeoutSecs) r).map (·.1)

/-- A receive returns a most urgent live message; it returns none only when no
message is alive. -/
def ServesUrgent (n timeoutSecs : ℕ) : Prop :=
  match outcome q r queue n timeoutSecs with
  | some (.ok (some message)) =>
    ∃ id message₀, Live q r queue id message₀ ∧ message = message₀.retried ∧
      Urgent q r queue message₀
  | _ => ¬∃ id message, Live q r queue id message

/-- The id with the greatest score has a most urgent live message, and its
entry is taken for live. -/
def TopUrgent : Prop :=
  ∃ id score message, (r.sets (queueKey queue)).greatest = some ⟨id,score⟩ ∧
    messageOf q r id = some message ∧ r.clock.instant < q.redis.redisCache.platform.restored ∧
    Urgent q r queue message

variable {q r queue}

theorem outcome_pop {id : String} {score : ℤ}
    (htop : (r.sets (queueKey queue)).greatest = some ⟨id,score⟩) (n timeoutSecs : ℕ) :
    outcome q r queue n timeoutSecs =
      (Redis.server.alone n (q.deliver queue id) (r.removed (queueKey queue) id)).map (·.1) := by
  rw [outcome,RedisMessageQueue.receive,Server.alone_bind,Redis.bzpopmax,Redis.send,
    Server.alone_send,Redis.answer_pop htop]
  rfl

theorem outcome_empty (hempty : (r.sets (queueKey queue)).greatest = none) (n timeoutSecs : ℕ)
    (message : Message T) : outcome q r queue n timeoutSecs ≠ some (.ok (some message)) := by
  rw [outcome,RedisMessageQueue.receive,Server.alone_bind,Redis.bzpopmax,Redis.send,
    Server.alone_send,Redis.answer_pop_empty hempty]
  by_cases htimeout : timeoutSecs = 0
  · rw [if_pos htimeout]
    rintro ⟨⟩
  · rw [if_neg htimeout]
    rintro ⟨⟩

/-- A delivery by itself returns the message of the id, if its entry is taken
for live, and otherwise none or an error. -/
theorem deliver_alone (r : Redis) (queue id : String) (n : ℕ) :
    (∃ message, messageOf q r id = some message ∧
      r.clock.instant < q.redis.redisCache.platform.restored ∧
      (Redis.server.alone n (q.deliver queue id) r).map (·.1) =
        some (.ok (some message.retried))) ∨
    ((∀ message, messageOf q r id = some message →
        ¬r.clock.instant < q.redis.redisCache.platform.restored) ∧
      ∀ message, (Redis.server.alone n (q.deliver queue id) r).map (·.1) ≠
        some (.ok (some message))) := by
  unfold RedisMessageQueue.deliver RedisCacheService.get messageOf
  rw [Server.alone_bind,RedisCache.alone_getFromCache]
  cases r.read (messageKey id) with
  | none =>
    right
    refine ⟨?_,?_⟩
    · rintro _ ⟨⟩
    · rintro _ ⟨⟩
  | some data =>
    dsimp only
    cases hentry : CacheEntry.deserialize q.redis.redisCache.platform Bincode.string data with
    | error e =>
      right
      refine ⟨?_,?_⟩
      · rintro _ ⟨⟩
      · rintro _ ⟨⟩
    | ok entry =>
      dsimp only
      by_cases hlive : r.clock.instant < q.redis.redisCache.platform.restored
      · have hexpired : entry.isExpired r.clock.instant = false := by
          rw [CacheEntry.isExpired,CacheEntry.expiresAt_restored hentry]
          exact decide_eq_false (not_le.mpr hlive)
        rw [hexpired]
        simp only [Bool.false_eq_true,if_false]
        cases q.json.fromText entry.value with
        | error e =>
          right
          refine ⟨?_,?_⟩
          · rintro _ ⟨⟩
          · rintro _ ⟨⟩
        | ok message => exact Or.inl ⟨message,rfl,hlive,rfl⟩
      · have hexpired : entry.isExpired r.clock.instant = true := by
          rw [CacheEntry.isExpired,CacheEntry.expiresAt_restored hentry]
          exact decide_eq_true (not_lt.mp hlive)
        rw [hexpired]
        right
        refine ⟨fun _ _ => hlive,?_⟩
        rintro _ ⟨⟩

theorem serves_of_message {n timeoutSecs : ℕ} {message : Message T}
    (h : outcome q r queue n timeoutSecs = some (.ok (some message))) :
    ServesUrgent q r queue n timeoutSecs ↔
      ∃ id message₀, Live q r queue id message₀ ∧ message = message₀.retried ∧
        Urgent q r queue message₀ := by
  rw [ServesUrgent,h]

theorem serves_of_no_message {n timeoutSecs : ℕ}
    (h : ∀ message, outcome q r queue n timeoutSecs ≠ some (.ok (some message))) :
    ServesUrgent q r queue n timeoutSecs ↔ ¬∃ id message, Live q r queue id message := by
  unfold ServesUrgent
  split
  · rename_i message hmessage
    exact absurd hmessage (h message)
  · rfl

/-- A receive serves a most urgent live message exactly when there is none or
the id with the greatest score has one. -/
theorem serves_urgent_iff (q : RedisMessageQueue T) (r : Redis) (queue : String)
    (n timeoutSecs : ℕ) : ServesUrgent q r queue n timeoutSecs ↔
      (¬∃ id message, Live q r queue id message) ∨ TopUrgent q r queue := by
  cases htop : (r.sets (queueKey queue)).greatest with
  | none =>
    have hnone : ¬∃ id message, Live q r queue id message := by
      rintro ⟨id,message,hmem,_⟩
      obtain ⟨e,he⟩ := SortedSet.greatest_isSome hmem
      rw [htop] at he
      cases he
    rw [serves_of_no_message (outcome_empty htop n timeoutSecs)]
    exact iff_of_true hnone (Or.inl hnone)
  | some e =>
    obtain ⟨id,score⟩ := e
    have hmem := SortedSet.greatest_mem htop
    rcases deliver_alone (q := q) (r.removed (queueKey queue) id) queue id n with
      ⟨message,hmessage,hlive,hout⟩ | ⟨hdead,hout⟩
    · rw [← outcome_pop htop n timeoutSecs] at hout
      rw [serves_of_message hout]
      constructor
      · rintro ⟨id₀,message₀,hlive₀,hretried,hurgent⟩
        have hpriority : message.retried.metadata.priority = message₀.retried.metadata.priority :=
          congrArg (·.metadata.priority) hretried
        change message.metadata.priority = message₀.metadata.priority at hpriority
        refine Or.inr ⟨id,score,message,htop,hmessage,hlive,fun id' message' h' => ?_⟩
        rw [hpriority]
        exact hurgent id' message' h'
      · rintro (hnone | ⟨id',score',message',htop',hmessage',_,hurgent⟩)
        · exact absurd ⟨id,message,hmem,hmessage⟩ hnone
        · rw [htop] at htop'
          cases htop'
          have hsame : messageOf q r id = some message := hmessage
          rw [hmessage'] at hsame
          cases hsame
          exact ⟨id,message,⟨hmem,hmessage'⟩,rfl,hurgent⟩
    · rw [← outcome_pop htop n timeoutSecs] at hout
      rw [serves_of_no_message hout]
      refine (or_iff_left ?_).symm
      rintro ⟨id',score',message',htop',hmessage',hlive',_⟩
      rw [htop] at htop'
      cases htop'
      exact hdead message' hmessage' hlive'

/-! ## A dead id above a live one -/

theorem messageOf_stored {id text : String} {message : Message T}
    (hread : r.read (messageKey id) = some (Bincode.stringBytes text))
    (hsize : text.toByteArray.size < 2^64) (htext : q.json.toText message = .ok text) :
    messageOf q r id = some message := by
  have hentry : CacheEntry.deserialize q.redis.redisCache.platform Bincode.string
      (Bincode.stringBytes text) = .ok ⟨text,q.redis.redisCache.platform.restored⟩ :=
    CacheEntry.deserialize_serialize (e := ⟨text,0⟩) (Bincode.string_encode hsize)
  rw [messageOf,hread]
  dsimp only
  rw [hentry]
  dsimp only
  rw [q.json.roundTrip message text htext]

def liveMessage : Message Unit := ⟨⟨"live","jobs","node",0,0,.normal,none,none,none⟩,()⟩

def liveQueue : RedisMessageQueue Unit := unitQueue [liveMessage] (by simp)

def mixedRedis : Redis :=
  { Redis.empty ⟨0,0⟩ with
    values := fun key =>
      if key = messageKey "live" then some (Bincode.stringBytes (unitText liveMessage)) else none
    sets := fun key =>
      if key = queueKey "jobs" then ((∅ : SortedSet).insert "live" 100).insert "dead" 300 else ∅ }

theorem live_message_not_served : ¬ServesUrgent liveQueue mixedRedis "jobs" 0 5 := by
  have hout : outcome liveQueue mixedRedis "jobs" 0 5 = some (.ok none) := rfl
  rw [serves_of_no_message (by rw [hout]; rintro _ ⟨⟩)]
  intro hnone
  refine hnone ⟨"live",liveMessage,?_,?_⟩
  · decide
  · exact messageOf_stored rfl (by decide +kernel) rfl

end DiamondBot.Network
