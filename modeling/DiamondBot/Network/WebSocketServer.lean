import DiamondBot.Library.AtomicRun
import Mathlib.Data.Finset.Basic
import Mathlib.Data.Finset.Card

/-!
# The clients of the WebSocket server

A connection is registered by its handler, which starts a task that sends and a
task that receives and returns when either has ended, aborting the other. The
receiving task alone takes the connection out of the three maps, after its
loop, and waits for a lock before each of them. An aborted task goes on until
the runtime drops it.
-/

set_option autoImplicit false

namespace DiamondBot.WebSocket
open Library

abbrev ClientId := String

def rateLimitWindow : ℕ := 60
def maxMessagesPerWindow : ℕ := 100
def maxMessageSize : ℕ := 1024*1024
def channelSize : ℕ := 100

inductive Task
  | send
  | receive
  deriving DecidableEq

/-- Where `handle_socket` is. It returns on a refused token, or when a task has ended. -/
inductive Handler
  | authenticating
  | admitting
  | registering
  | selecting
  | returned (task : Option Task)
  deriving DecidableEq

inductive SendTask
  | absent
  | receiving
  | sending
  | closing
  | ended
  deriving DecidableEq

/-- The receiving task: its loop, the locks it waits for after it, and its end. -/
inductive ReceiveTask
  | absent
  | reading
  | limiting (text : String)
  | replying
  | sendingPong
  | removingClient
  | removingAuthenticated
  | removingRateLimit
  | ended
  | dropped
  deriving DecidableEq

inductive Incoming
  | text (text : String)
  | close
  | other
  | error
  | none

/-- A connection, with the messages in its channel. -/
structure Connection where
  handler : Handler
  sendTask : SendTask
  receiveTask : ReceiveTask
  channel : List String

/-- The lock of the clients is held by a receiving task, or by a caller that has a message
for some clients yet. -/
inductive LockHolder
  | connection (id : ClientId)
  | caller (remaining : List ClientId) (message : String)
  deriving DecidableEq

structure WebSocketServer where
  clients : Finset ClientId
  rateLimits : ClientId → Option (ℕ × ℕ)
  authenticatedClients : Finset ClientId
  connections : ClientId → Option Connection
  clientsLock : Option LockHolder
  authenticatedLock : Option ClientId

inductive Action
  | connect (id : ClientId) (hasToken : Bool)
  | handlerStep (id : ClientId) (valid : Bool)
  | sendStep (id : ClientId) (ok : Bool)
  | receiveStep (id : ClientId) (incoming : Incoming) (now : ℕ)
  | selected (id : ClientId) (task : Task)
  | dropped (id : ClientId) (task : Task)
  | broadcast (order : List ClientId) (message : String)
  | sendToClient (id : ClientId) (message : String)
  | callerStep

namespace WebSocketServer

variable (validJson : String → Bool)

def new : WebSocketServer where
  clients := ∅
  rateLimits := fun _ => none
  authenticatedClients := ∅
  connections := fun _ => none
  clientsLock := none
  authenticatedLock := none

def setConnection (s : WebSocketServer) (id : ClientId) (c : Connection) : WebSocketServer :=
  { s with connections := Function.update s.connections id (some c) }

def connect (s : WebSocketServer) (id : ClientId) (hasToken : Bool) : WebSocketServer :=
  match s.connections id with
  | some _ => s
  | none => s.setConnection id {
      handler := if hasToken then .authenticating else .registering
      sendTask := .absent
      receiveTask := .absent
      channel := [] }

def handlerStep (s : WebSocketServer) (id : ClientId) (valid : Bool) : WebSocketServer :=
  match s.connections id with
  | none => s
  | some c =>
    match c.handler with
    | .authenticating =>
      s.setConnection id { c with handler := if valid then .admitting else .returned none }
    | .admitting =>
      if s.authenticatedLock = none then
        { s with authenticatedClients := insert id s.authenticatedClients }.setConnection id
          { c with handler := .registering }
      else s
    | .registering =>
      if s.clientsLock = none then
        { s with clients := insert id s.clients }.setConnection id
          { c with handler := .selecting, sendTask := .receiving, receiveTask := .reading }
      else s
    | _ => s

def sendStep (s : WebSocketServer) (id : ClientId) (ok : Bool) : WebSocketServer :=
  match s.connections id with
  | none => s
  | some c =>
    match c.sendTask,c.channel with
    | .receiving,_::rest => s.setConnection id { c with sendTask := .sending, channel := rest }
    | .receiving,[] =>
      if id ∈ s.clients then s else s.setConnection id { c with sendTask := .closing }
    | .sending,_ =>
      s.setConnection id { c with sendTask := if ok then .receiving else .closing }
    | .closing,_ => s.setConnection id { c with sendTask := .ended }
    | _,_ => s

def checkRateLimit (s : WebSocketServer) (id : ClientId) (now : ℕ) : Bool × (ℕ × ℕ) :=
  match s.rateLimits id with
  | some (windowStart,count) =>
    if now-windowStart > rateLimitWindow then (true,(now,1))
    else if count ≥ maxMessagesPerWindow then (false,(windowStart,count))
    else (true,(windowStart,count+1))
  | none => (true,(now,1))

def validateMessage (message : String) : Bool :=
  message.utf8ByteSize ≤ maxMessageSize && validJson message

def processText (allowed : Bool) (text : String) : ReceiveTask :=
  if allowed && validateMessage validJson text && text == "ping" then .replying else .reading

def limitMessage (s : WebSocketServer) (id : ClientId) (c : Connection) (text : String)
    (now : ℕ) : WebSocketServer :=
  { s with rateLimits := Function.update s.rateLimits id (some (s.checkRateLimit id now).2) }
    |>.setConnection id
      { c with receiveTask := processText validJson (s.checkRateLimit id now).1 text }

def sendPong (s : WebSocketServer) (id : ClientId) (c : Connection) : WebSocketServer :=
  if c.sendTask = .ended then
    { s with clients := s.clients.erase id, clientsLock := none }.setConnection id
      { c with receiveTask := .reading }
  else if c.channel.length < channelSize then
    { s with clientsLock := none }.setConnection id
      { c with receiveTask := .reading, channel := c.channel++["pong"] }
  else s

def receiveNext (s : WebSocketServer) (id : ClientId) (c : Connection) (incoming : Incoming)
    (now : ℕ) : WebSocketServer :=
  match c.receiveTask with
  | .reading =>
    match incoming with
    | .text text => s.setConnection id { c with receiveTask := .limiting text }
    | .other => s
    | .close | .error | .none => s.setConnection id { c with receiveTask := .removingClient }
  | .limiting text => s.limitMessage validJson id c text now
  | .replying =>
    if s.clientsLock = none then
      if id ∈ s.clients then
        { s with clientsLock := some (.connection id) }.setConnection id
          { c with receiveTask := .sendingPong }
      else s.setConnection id { c with receiveTask := .reading }
    else s
  | .sendingPong => s.sendPong id c
  -- the locks taken here are kept to the end of the task
  | .removingClient =>
    if s.clientsLock = none then
      { s with clients := s.clients.erase id, clientsLock := some (.connection id) }.setConnection
        id { c with receiveTask := .removingAuthenticated }
    else s
  | .removingAuthenticated =>
    if s.authenticatedLock = none then
      { s with
        authenticatedClients := s.authenticatedClients.erase id
        authenticatedLock := some id }.setConnection
        id { c with receiveTask := .removingRateLimit }
    else s
  | .removingRateLimit =>
    { s with
      rateLimits := Function.update s.rateLimits id none
      clientsLock := none
      authenticatedLock := none }.setConnection id { c with receiveTask := .ended }
  | .absent | .ended | .dropped => s

def receiveStep (s : WebSocketServer) (id : ClientId) (incoming : Incoming) (now : ℕ) :
    WebSocketServer :=
  match s.connections id with
  | none => s
  | some c => s.receiveNext validJson id c incoming now

def hasEnded (c : Connection) : Task → Bool
  | .send => c.sendTask = .ended
  | .receive => c.receiveTask = .ended

def selected (s : WebSocketServer) (id : ClientId) (task : Task) : WebSocketServer :=
  match s.connections id with
  | none => s
  | some c =>
    if c.handler = .selecting ∧ hasEnded c task then
      s.setConnection id { c with handler := .returned (some task) }
    else s

def releaseLocks (s : WebSocketServer) (id : ClientId) : WebSocketServer :=
  { s with
    clientsLock := if s.clientsLock = some (.connection id) then none else s.clientsLock
    authenticatedLock := if s.authenticatedLock = some id then none else s.authenticatedLock }

def dropTask (s : WebSocketServer) (id : ClientId) (task : Task) : WebSocketServer :=
  match s.connections id with
  | none => s
  | some c =>
    match c.handler,task with
    | .returned (some .receive),.send => s.setConnection id { c with sendTask := .ended }
    | .returned (some .send),.receive =>
      if c.receiveTask = .ended then s
      else (s.releaseLocks id).setConnection id { c with receiveTask := .dropped }
    | _,_ => s

def broadcast (s : WebSocketServer) (order : List ClientId) (message : String) :
    WebSocketServer :=
  if s.clientsLock = none ∧ order.Nodup ∧ order.toFinset = s.clients then
    { s with clientsLock := some (.caller order message) }
  else s

def sendToClient (s : WebSocketServer) (id : ClientId) (message : String) : WebSocketServer :=
  if s.clientsLock = none ∧ id ∈ s.clients then
    { s with clientsLock := some (.caller [id] message) }
  else s

def callerStep (s : WebSocketServer) : WebSocketServer :=
  match s.clientsLock with
  | some (.caller [] _) => { s with clientsLock := none }
  | some (.caller (id::rest) message) =>
    match s.connections id with
    | none => { s with clientsLock := some (.caller rest message) }
    | some c =>
      if c.sendTask = .ended then { s with clientsLock := some (.caller rest message) }
      else if c.channel.length < channelSize then
        { s with clientsLock := some (.caller rest message) }.setConnection id
          { c with channel := c.channel++[message] }
      else s
  | _ => s

def next (s : WebSocketServer) : Action → WebSocketServer
  | .connect id hasToken => s.connect id hasToken
  | .handlerStep id valid => s.handlerStep id valid
  | .sendStep id ok => s.sendStep id ok
  | .receiveStep id incoming now => s.receiveStep validJson id incoming now
  | .selected id task => s.selected id task
  | .dropped id task => s.dropTask id task
  | .broadcast order message => s.broadcast order message
  | .sendToClient id message => s.sendToClient id message
  | .callerStep => s.callerStep

def getConnectedCount (s : WebSocketServer) : ℕ := s.clients.card

def getAuthenticatedCount (s : WebSocketServer) : ℕ := s.authenticatedClients.card

/-! ## Where a client stands -/

structure Standing where
  tasks : Option (Handler × ReceiveTask)
  client : Prop
  authenticated : Prop
  limited : Prop

def standing (s : WebSocketServer) (id : ClientId) : Standing where
  tasks := (s.connections id).map fun c => (c.handler,c.receiveTask)
  client := id ∈ s.clients
  authenticated := id ∈ s.authenticatedClients
  limited := s.rateLimits id ≠ none

namespace Standing

def Unlisted (t : Standing) : Prop := ¬t.client ∧ ¬t.authenticated ∧ ¬t.limited

def Gone (t : Standing) : Prop := ∃ task receiveTask, t.tasks = some (.returned task,receiveTask)

def Deregistered (t : Standing) : Prop := t.Gone → t.Unlisted

def Started (handler : Handler) : Prop := handler = .selecting ∨ ∃ task, handler = .returned task

/-- What the maps can hold of a client at each point of its receiving task. A client not in
the map of clients was removed for a failed pong, after the limit was checked. -/
def Sound (t : Standing) : Prop :=
  match t.tasks with
  | none => t.Unlisted
  | some (handler,receiveTask) =>
    match receiveTask with
    | .absent => ¬t.client ∧ ¬t.limited ∧ handler ≠ .selecting ∧
        (t.authenticated → handler = .registering) ∧ handler ≠ .returned (some .send)
    | .reading | .limiting _ | .removingClient => Started handler ∧ (t.client ∨ t.limited)
    | .replying | .sendingPong => Started handler ∧ t.limited
    | .removingAuthenticated => Started handler ∧ ¬t.client
    | .removingRateLimit => Started handler ∧ ¬t.client ∧ ¬t.authenticated
    | .ended => Started handler ∧ t.Unlisted
    | .dropped => handler = .returned (some .send)

/-- The receiving task has ended, or what it has yet to remove is not there. -/
def CleanedUp (t : Standing) : Prop :=
  match t.tasks with
  | some (_,.ended) => True
  | some (_,.removingAuthenticated) => ¬t.authenticated ∧ ¬t.limited
  | some (_,.removingRateLimit) => ¬t.limited
  | _ => False

/-- All a step can do to a client, but for a handler that returns with the sending task. -/
inductive Change (t : Standing) : Standing → Prop
  | same : Change t t
  | opened {handler : Handler} (h : t.tasks = none)
      (hnew : handler = .authenticating ∨ handler = .registering) :
      Change t { t with tasks := some (handler,.absent) }
  | validated {receiveTask : ReceiveTask} (h : t.tasks = some (.authenticating,receiveTask))
      (valid : Bool) : Change t
        { t with tasks := some (if valid then .admitting else .returned none,receiveTask) }
  | admitted {receiveTask : ReceiveTask} (h : t.tasks = some (.admitting,receiveTask)) :
      Change t { t with tasks := some (.registering,receiveTask), authenticated := True }
  | registered {receiveTask : ReceiveTask} (h : t.tasks = some (.registering,receiveTask)) :
      Change t { t with tasks := some (.selecting,.reading), client := True }
  | received {handler : Handler} (h : t.tasks = some (handler,.reading)) (text : String) :
      Change t { t with tasks := some (handler,.limiting text) }
  | finished {handler : Handler} (h : t.tasks = some (handler,.reading)) :
      Change t { t with tasks := some (handler,.removingClient) }
  | checked {handler : Handler} {text : String} (h : t.tasks = some (handler,.limiting text))
      (ping : Bool) : Change t
        { t with tasks := some (handler,if ping then .replying else .reading), limited := True }
  | replied {handler : Handler} (h : t.tasks = some (handler,.replying)) (present : Bool) :
      Change t { t with tasks := some (handler,if present then .sendingPong else .reading) }
  | ponged {handler : Handler} (h : t.tasks = some (handler,.sendingPong)) :
      Change t { t with tasks := some (handler,.reading) }
  | pongFailed {handler : Handler} (h : t.tasks = some (handler,.sendingPong)) :
      Change t { t with tasks := some (handler,.reading), client := False }
  | removedClient {handler : Handler} (h : t.tasks = some (handler,.removingClient)) :
      Change t { t with tasks := some (handler,.removingAuthenticated), client := False }
  | removedAuthenticated {handler : Handler}
      (h : t.tasks = some (handler,.removingAuthenticated)) :
      Change t { t with tasks := some (handler,.removingRateLimit), authenticated := False }
  | removedRateLimit {handler : Handler} (h : t.tasks = some (handler,.removingRateLimit)) :
      Change t { t with tasks := some (handler,.ended), limited := False }
  | returned (h : t.tasks = some (.selecting,.ended)) :
      Change t { t with tasks := some (.returned (some .receive),.ended) }
  | dropped {receiveTask : ReceiveTask}
      (h : t.tasks = some (.returned (some .send),receiveTask)) :
      Change t { t with tasks := some (.returned (some .send),.dropped) }

theorem sound_some {t : Standing} {handler : Handler} {receiveTask : ReceiveTask} (h : t.Sound)
    (htasks : t.tasks = some (handler,receiveTask)) :
    { t with tasks := some (handler,receiveTask) : Standing }.Sound := by
  rwa [← htasks]

theorem sound_absent {t : Standing} {handler : Handler} {receiveTask : ReceiveTask}
    (h : t.Sound) (htasks : t.tasks = some (handler,receiveTask))
    (hhandler : handler ≠ .selecting) (hreturned : ∀ task, handler ≠ .returned task) :
    receiveTask = .absent := by
  have hnot : ¬Started handler := by
    rintro (hselecting | ⟨task,hreturn⟩)
    · exact hhandler hselecting
    · exact hreturned task hreturn
  have hsound := sound_some h htasks
  cases receiveTask with
  | absent => rfl
  | dropped => exact absurd hsound (hreturned _)
  | _ => exact absurd hsound.1 hnot

theorem change_sound {t t' : Standing} (h : t.Sound) (hchange : t.Change t') : t'.Sound := by
  cases hchange with
  | same => exact h
  | opened htasks hnew =>
    have hunlisted : t.Unlisted := by
      unfold Sound at h
      rwa [htasks] at h
    refine ⟨hunlisted.1,hunlisted.2.2,?_,fun hauth => absurd hauth hunlisted.2.1,?_⟩
    · rcases hnew with rfl | rfl <;> simp
    · rcases hnew with rfl | rfl <;> simp
  | validated htasks valid =>
    obtain rfl := sound_absent h htasks (by simp) (by simp)
    obtain ⟨hclient,hlimited,_,hauth,_⟩ := sound_some h htasks
    refine ⟨hclient,hlimited,?_,fun hin => absurd (hauth hin) (by simp),?_⟩
    · cases valid <;> simp
    · cases valid <;> simp
  | admitted htasks =>
    obtain rfl := sound_absent h htasks (by simp) (by simp)
    obtain ⟨hclient,hlimited,_⟩ := sound_some h htasks
    exact ⟨hclient,hlimited,by simp,fun _ => rfl,by simp⟩
  | registered htasks => exact ⟨.inl rfl,.inl trivial⟩
  | received htasks | finished htasks =>
    have hreading : Started _ ∧ (t.client ∨ t.limited) := sound_some h htasks
    exact hreading
  | checked htasks ping =>
    obtain ⟨hstarted,_⟩ := sound_some h htasks
    cases ping with
    | true => exact ⟨hstarted,trivial⟩
    | false => exact ⟨hstarted,.inr trivial⟩
  | replied htasks present =>
    obtain ⟨hstarted,hlimited⟩ := sound_some h htasks
    cases present with
    | true => exact ⟨hstarted,hlimited⟩
    | false => exact ⟨hstarted,.inr hlimited⟩
  | ponged htasks | pongFailed htasks =>
    obtain ⟨hstarted,hlimited⟩ := sound_some h htasks
    exact ⟨hstarted,.inr hlimited⟩
  | removedClient htasks => exact ⟨(sound_some h htasks).1,not_false⟩
  | removedAuthenticated htasks =>
    obtain ⟨hstarted,hclient⟩ := sound_some h htasks
    exact ⟨hstarted,hclient,not_false⟩
  | removedRateLimit htasks =>
    obtain ⟨hstarted,hclient,hauth⟩ := sound_some h htasks
    exact ⟨hstarted,hclient,hauth,not_false⟩
  | returned htasks => exact ⟨.inr ⟨_,rfl⟩,(sound_some h htasks).2⟩
  | dropped htasks => rfl

theorem gone_iff {t : Standing} {handler : Handler} {receiveTask : ReceiveTask}
    (htasks : t.tasks = some (handler,receiveTask)) :
    t.Gone ↔ ∃ task, handler = .returned task := by
  unfold Gone
  simp [htasks]

theorem sound_listed {t : Standing} {handler : Handler} {receiveTask : ReceiveTask}
    (h : t.Sound) (htasks : t.tasks = some (handler,receiveTask))
    (hloop : receiveTask = .reading ∨ (∃ text, receiveTask = .limiting text) ∨
      receiveTask = .replying ∨ receiveTask = .sendingPong ∨ receiveTask = .removingClient) :
    ¬t.Unlisted := by
  rintro ⟨hclient,_,hlimited⟩
  have hsound := sound_some h htasks
  rcases hloop with rfl | ⟨text,rfl⟩ | rfl | rfl | rfl
  · exact hsound.2.elim hclient hlimited
  · exact hsound.2.elim hclient hlimited
  · exact hlimited hsound.2
  · exact hlimited hsound.2
  · exact hsound.2.elim hclient hlimited

theorem change_deregistered {t t' : Standing} (hsound : t.Sound) (h : t.Deregistered)
    (hchange : t.Change t') : t'.Deregistered := by
  cases hchange with
  | same => exact h
  | opened htasks hnew =>
    intro hgone
    obtain ⟨task,hreturned⟩ := (gone_iff rfl).mp hgone
    rcases hnew with rfl | rfl <;> simp at hreturned
  | validated htasks valid =>
    intro _
    obtain rfl := sound_absent hsound htasks (by simp) (by simp)
    obtain ⟨hclient,hlimited,_,hauth,_⟩ := sound_some hsound htasks
    exact ⟨hclient,fun hin => absurd (hauth hin) (by simp),hlimited⟩
  | admitted htasks | registered htasks =>
    intro hgone
    obtain ⟨task,hreturned⟩ := (gone_iff rfl).mp hgone
    simp at hreturned
  | received htasks | finished htasks | checked htasks | replied htasks | ponged htasks
  | pongFailed htasks =>
    -- a task in its loop has the client listed, so the handler has not returned
    intro hgone
    have hbefore := h ((gone_iff htasks).mpr ((gone_iff rfl).mp hgone))
    exact absurd hbefore (sound_listed hsound htasks (by simp))
  | removedClient htasks =>
    intro hgone
    obtain ⟨_,hauth,hlimited⟩ := h ((gone_iff htasks).mpr ((gone_iff rfl).mp hgone))
    exact ⟨not_false,hauth,hlimited⟩
  | removedAuthenticated htasks =>
    intro hgone
    obtain ⟨hclient,_,hlimited⟩ := h ((gone_iff htasks).mpr ((gone_iff rfl).mp hgone))
    exact ⟨hclient,not_false,hlimited⟩
  | removedRateLimit htasks =>
    intro hgone
    obtain ⟨hclient,hauth,_⟩ := h ((gone_iff htasks).mpr ((gone_iff rfl).mp hgone))
    exact ⟨hclient,hauth,not_false⟩
  | returned htasks =>
    obtain ⟨_,hunlisted⟩ := sound_some hsound htasks
    exact fun _ => hunlisted
  | dropped htasks =>
    intro hgone
    obtain ⟨hclient,hauth,hlimited⟩ := h ((gone_iff htasks).mpr ((gone_iff rfl).mp hgone))
    exact ⟨hclient,hauth,hlimited⟩

theorem cleanedUp_iff {t : Standing} {receiveTask : ReceiveTask} (h : t.Sound)
    (htasks : t.tasks = some (.selecting,receiveTask)) : t.CleanedUp ↔ t.Unlisted := by
  have hsound := sound_some h htasks
  have hlisted := sound_listed h htasks
  unfold CleanedUp
  rw [htasks]
  cases receiveTask with
  | absent => exact absurd rfl hsound.2.2.1
  | reading | limiting text | replying | sendingPong | removingClient =>
    exact iff_of_false not_false (hlisted (by simp))
  | removingAuthenticated =>
    exact ⟨fun hleft => ⟨hsound.2,hleft⟩,fun hunlisted => hunlisted.2⟩
  | removingRateLimit =>
    exact ⟨fun hleft => ⟨hsound.2.1,hsound.2.2,hleft⟩,fun hunlisted => hunlisted.2.2⟩
  | ended => exact iff_of_true trivial hsound.2
  | dropped => simp [Sound] at hsound

end Standing

theorem standing_self (s : WebSocketServer) (id : ClientId) (c : Connection) :
    (s.setConnection id c).standing id =
      { s.standing id with tasks := some (c.handler,c.receiveTask) } := by
  simp [standing,setConnection]

theorem standing_ne {id other : ClientId} (h : other ≠ id) (s : WebSocketServer)
    (c : Connection) : (s.setConnection id c).standing other = s.standing other := by
  simp [standing,setConnection,h]

theorem standing_tasks {s : WebSocketServer} {id : ClientId} {c : Connection}
    (h : s.connections id = some c) : (s.standing id).tasks = some (c.handler,c.receiveTask) := by
  simp [standing,h]

theorem standing_kept {s : WebSocketServer} {id : ClientId} {c c' : Connection}
    (h : s.connections id = some c)
    (hkept : (c'.handler,c'.receiveTask) = (c.handler,c.receiveTask)) (other : ClientId) :
    (s.setConnection id c').standing other = s.standing other := by
  by_cases hother : other = id
  · subst hother
    rw [standing_self,hkept,← standing_tasks h]
  · exact standing_ne hother s c'

/-! ## What the steps change -/

theorem change_at {s s' : WebSocketServer} {id : ClientId} {c : Connection} {t : Standing}
    (hother : ∀ other, other ≠ id → s'.standing other = s.standing other)
    (hid : { s'.standing id with tasks := some (c.handler,c.receiveTask) } = t)
    (hchange : (s.standing id).Change t) (other : ClientId) :
    (s.standing other).Change ((s'.setConnection id c).standing other) := by
  by_cases hsame : other = id
  · subst hsame
    rwa [standing_self,hid]
  · rw [standing_ne hsame,hother other hsame]
    exact .same

theorem connect_change (s : WebSocketServer) (id : ClientId) (hasToken : Bool)
    (other : ClientId) : (s.standing other).Change ((s.connect id hasToken).standing other) := by
  unfold connect
  cases hc : s.connections id with
  | some c => exact .same
  | none =>
    refine change_at (fun _ _ => rfl) rfl (.opened ?_ ?_) other
    · simp [standing,hc]
    · cases hasToken <;> simp

theorem handlerStep_change (s : WebSocketServer) (id : ClientId) (valid : Bool)
    (other : ClientId) : (s.standing other).Change ((s.handlerStep id valid).standing other) := by
  unfold handlerStep
  cases hc : s.connections id with
  | none => exact .same
  | some c =>
    have htasks := standing_tasks hc
    dsimp only
    split
    next hhandler =>
      rw [hhandler] at htasks
      exact change_at (fun _ _ => rfl) rfl (.validated htasks valid) other
    next hhandler =>
      rw [hhandler] at htasks
      split
      · refine change_at (fun other hother => ?_) ?_ (.admitted htasks) other
        · simp [standing,hother]
        · simp [standing]
      · exact .same
    next hhandler =>
      rw [hhandler] at htasks
      split
      · refine change_at (fun other hother => ?_) ?_ (.registered htasks) other
        · simp [standing,hother]
        · simp [standing]
      · exact .same
    · exact .same

theorem sendStep_standing (s : WebSocketServer) (id : ClientId) (ok : Bool) (other : ClientId) :
    (s.sendStep id ok).standing other = s.standing other := by
  unfold sendStep
  cases hc : s.connections id with
  | none => rfl
  | some c =>
    dsimp only
    split
    · exact standing_kept hc (by rfl) other
    · split
      · rfl
      · exact standing_kept hc (by rfl) other
    · exact standing_kept hc (by rfl) other
    · exact standing_kept hc (by rfl) other
    · rfl

theorem limitMessage_change {s : WebSocketServer} {id : ClientId} {c : Connection}
    (hc : s.connections id = some c) {text : String} (hlimiting : c.receiveTask = .limiting text)
    (now : ℕ) (other : ClientId) :
    (s.standing other).Change ((s.limitMessage validJson id c text now).standing other) := by
  have htasks := standing_tasks hc
  rw [hlimiting] at htasks
  refine change_at (fun other hother => ?_) ?_ (.checked htasks
    ((s.checkRateLimit id now).1 && validateMessage validJson text && text == "ping")) other
  · simp [standing,hother]
  · simp [standing,processText]

theorem sendPong_change {s : WebSocketServer} {id : ClientId} {c : Connection}
    (hc : s.connections id = some c) (hsending : c.receiveTask = .sendingPong)
    (other : ClientId) : (s.standing other).Change ((s.sendPong id c).standing other) := by
  have htasks := standing_tasks hc
  rw [hsending] at htasks
  unfold sendPong
  split
  · refine change_at (fun other hother => ?_) ?_ (.pongFailed htasks) other
    · simp [standing,hother]
    · simp [standing]
  · split
    · exact change_at (fun _ _ => rfl) rfl (.ponged htasks) other
    · exact .same

theorem receiveNext_change {s : WebSocketServer} {id : ClientId} {c : Connection}
    (hc : s.connections id = some c) (incoming : Incoming) (now : ℕ) (other : ClientId) :
    (s.standing other).Change ((s.receiveNext validJson id c incoming now).standing other) := by
  have htasks := standing_tasks hc
  unfold receiveNext
  split
  next hreceive =>
    rw [hreceive] at htasks
    cases incoming with
    | text text => exact change_at (fun _ _ => rfl) rfl (.received htasks text) other
    | other => exact .same
    | close | error | none => exact change_at (fun _ _ => rfl) rfl (.finished htasks) other
  next hreceive => exact limitMessage_change validJson hc hreceive now other
  next hreceive =>
    rw [hreceive] at htasks
    split
    · split
      · exact change_at (fun _ _ => rfl) rfl (.replied htasks true) other
      · exact change_at (fun _ _ => rfl) rfl (.replied htasks false) other
    · exact .same
  next hreceive => exact sendPong_change hc hreceive other
  next hreceive =>
    rw [hreceive] at htasks
    split
    · refine change_at (fun other hother => ?_) ?_ (.removedClient htasks) other
      · simp [standing,hother]
      · simp [standing]
    · exact .same
  next hreceive =>
    rw [hreceive] at htasks
    split
    · refine change_at (fun other hother => ?_) ?_ (.removedAuthenticated htasks) other
      · simp [standing,hother]
      · simp [standing]
    · exact .same
  next hreceive =>
    rw [hreceive] at htasks
    refine change_at (fun other hother => ?_) ?_ (.removedRateLimit htasks) other
    · simp [standing,hother]
    · simp [standing]
  · exact .same
  · exact .same
  · exact .same

theorem receiveStep_change (s : WebSocketServer) (id : ClientId) (incoming : Incoming) (now : ℕ)
    (other : ClientId) :
    (s.standing other).Change ((s.receiveStep validJson id incoming now).standing other) := by
  unfold receiveStep
  cases hc : s.connections id with
  | none => exact .same
  | some c => exact receiveNext_change validJson hc incoming now other

theorem dropTask_change (s : WebSocketServer) (id : ClientId) (task : Task) (other : ClientId) :
    (s.standing other).Change ((s.dropTask id task).standing other) := by
  unfold dropTask
  cases hc : s.connections id with
  | none => exact .same
  | some c =>
    have htasks := standing_tasks hc
    dsimp only
    split
    · rw [standing_kept hc (by rfl)]
      exact .same
    next hhandler =>
      rw [hhandler] at htasks
      split
      · exact .same
      · exact change_at (fun _ _ => rfl) (by rw [hhandler]) (.dropped htasks) other
    · exact .same

theorem broadcast_standing (s : WebSocketServer) (order : List ClientId) (message : String)
    (other : ClientId) : (s.broadcast order message).standing other = s.standing other := by
  unfold broadcast
  split <;> rfl

theorem sendToClient_standing (s : WebSocketServer) (id : ClientId) (message : String)
    (other : ClientId) : (s.sendToClient id message).standing other = s.standing other := by
  unfold sendToClient
  split <;> rfl

theorem callerStep_standing (s : WebSocketServer) (other : ClientId) :
    s.callerStep.standing other = s.standing other := by
  unfold callerStep
  split
  · rfl
  next id rest message hlock =>
    cases hc : s.connections id with
    | none => rfl
    | some c =>
      dsimp only
      split
      · rfl
      · split
        · exact standing_kept (s:={ s with clientsLock := _ }) hc (by rfl) other
        · rfl
  · rfl

def ReturnsWithSend (s : WebSocketServer) (id : ClientId) : Prop :=
  ∃ c, s.connections id = some c ∧ c.handler = .selecting ∧ c.sendTask = .ended

theorem selected_receive_change (s : WebSocketServer) (id other : ClientId) :
    (s.standing other).Change ((s.selected id .receive).standing other) := by
  unfold selected
  cases hc : s.connections id with
  | none => exact .same
  | some c =>
    have htasks := standing_tasks hc
    dsimp only
    split
    next hended =>
      have hreceive : c.receiveTask = .ended := of_decide_eq_true hended.2
      rw [hended.1,hreceive] at htasks
      exact change_at (fun _ _ => rfl) (by rw [hreceive]) (.returned htasks) other
    · exact .same

theorem selected_send {s : WebSocketServer} {id : ClientId} (h : s.ReturnsWithSend id) :
    (∃ receiveTask, (s.standing id).tasks = some (.selecting,receiveTask) ∧
      (s.selected id .send).standing id =
        { s.standing id with tasks := some (.returned (some .send),receiveTask) }) ∧
    ∀ other, other ≠ id → (s.selected id .send).standing other = s.standing other := by
  obtain ⟨c,hc,hselecting,hended⟩ := h
  have hselected : s.selected id .send =
      s.setConnection id { c with handler := .returned (some .send) } := by
    simp [selected,hc,hselecting,hasEnded,hended]
  have htasks := standing_tasks hc
  rw [hselecting] at htasks
  rw [hselected]
  exact ⟨⟨c.receiveTask,htasks,standing_self s id _⟩,fun other hother => standing_ne hother s _⟩

theorem selected_send_change {s : WebSocketServer} {id : ClientId} (h : ¬s.ReturnsWithSend id)
    (other : ClientId) : (s.standing other).Change ((s.selected id .send).standing other) := by
  have hsame : s.selected id .send = s := by
    unfold selected
    cases hc : s.connections id with
    | none => rfl
    | some c =>
      refine if_neg fun hended => h ⟨c,hc,hended.1,?_⟩
      exact of_decide_eq_true hended.2
  rw [hsame]
  exact .same

/-- A handler returns with the sending task only when the receiving task has cleaned up. -/
def ReturnsCleanedUp (s : WebSocketServer) : Action → Prop
  | .selected id .send => s.ReturnsWithSend id → (s.standing id).CleanedUp
  | _ => True

theorem next_change (s : WebSocketServer) (a : Action) :
    (∃ id, a = .selected id .send ∧ s.ReturnsWithSend id) ∨
      s.ReturnsCleanedUp a ∧
        ∀ other, (s.standing other).Change ((s.next validJson a).standing other) := by
  have hsame : ∀ {s' : WebSocketServer}, (∀ other, s'.standing other = s.standing other) →
      ∀ other, (s.standing other).Change (s'.standing other) := by
    intro s' hstanding other
    rw [hstanding other]
    exact .same
  cases a with
  | connect id hasToken => exact .inr ⟨trivial,connect_change s id hasToken⟩
  | handlerStep id valid => exact .inr ⟨trivial,handlerStep_change s id valid⟩
  | sendStep id ok => exact .inr ⟨trivial,hsame (sendStep_standing s id ok)⟩
  | receiveStep id incoming now =>
    exact .inr ⟨trivial,receiveStep_change validJson s id incoming now⟩
  | selected id task =>
    cases task with
    | receive => exact .inr ⟨trivial,selected_receive_change s id⟩
    | send =>
      by_cases hreturns : s.ReturnsWithSend id
      · exact .inl ⟨id,rfl,hreturns⟩
      · exact .inr ⟨fun h => absurd h hreturns,selected_send_change hreturns⟩
  | dropped id task => exact .inr ⟨trivial,dropTask_change s id task⟩
  | broadcast order message => exact .inr ⟨trivial,hsame (broadcast_standing s order message)⟩
  | sendToClient id message => exact .inr ⟨trivial,hsame (sendToClient_standing s id message)⟩
  | callerStep => exact .inr ⟨trivial,hsame (callerStep_standing s)⟩

/-! ## Runs -/

/-- No client that is gone is in a map. -/
def AllDeregistered (s : WebSocketServer) : Prop := ∀ id, (s.standing id).Deregistered

def AllSound (s : WebSocketServer) : Prop := ∀ id, (s.standing id).Sound

theorem returned_sound {t : Standing} {receiveTask : ReceiveTask} (h : t.Sound)
    (htasks : t.tasks = some (.selecting,receiveTask)) :
    { t with tasks := some (.returned (some .send),receiveTask) : Standing }.Sound := by
  have hsound := Standing.sound_some h htasks
  have hstarted : Standing.Started (.returned (some .send)) := .inr ⟨_,rfl⟩
  cases receiveTask with
  | absent => exact absurd rfl hsound.2.2.1
  | reading | limiting text | removingClient =>
    have hlisted : _ ∧ (t.client ∨ t.limited) := hsound
    exact ⟨hstarted,hlisted.2⟩
  | replying | sendingPong =>
    have hlimited : _ ∧ t.limited := hsound
    exact ⟨hstarted,hlimited.2⟩
  | removingAuthenticated => exact ⟨hstarted,hsound.2⟩
  | removingRateLimit => exact ⟨hstarted,hsound.2⟩
  | ended => exact ⟨hstarted,hsound.2⟩
  | dropped => rfl

theorem next_sound (s : WebSocketServer) (a : Action) (h : s.AllSound) :
    (s.next validJson a).AllSound := by
  rcases next_change validJson s a with ⟨id,rfl,hreturns⟩ | ⟨_,hchange⟩
  · obtain ⟨⟨receiveTask,htasks,hid⟩,hother⟩ := selected_send hreturns
    intro other
    show ((s.selected id .send).standing other).Sound
    by_cases hsame : other = id
    · rw [hsame,hid]
      exact returned_sound (h id) htasks
    · rw [hother other hsame]
      exact h other
  · exact fun other => Standing.change_sound (h other) (hchange other)

theorem next_deregistered_iff {s : WebSocketServer} (a : Action) (hsound : s.AllSound)
    (h : s.AllDeregistered) :
    (s.next validJson a).AllDeregistered ↔ s.ReturnsCleanedUp a := by
  rcases next_change validJson s a with ⟨id,rfl,hreturns⟩ | ⟨hclean,hchange⟩
  · obtain ⟨⟨receiveTask,htasks,hid⟩,hother⟩ := selected_send hreturns
    have hiff := Standing.cleanedUp_iff (hsound id) htasks
    constructor
    · intro hall _
      have hdereg := hall id
      rw [next,hid] at hdereg
      exact hiff.mpr (hdereg ⟨_,_,rfl⟩)
    · intro hclean other
      show ((s.selected id .send).standing other).Deregistered
      by_cases hsame : other = id
      · rw [hsame,hid]
        exact fun _ => hiff.mp (hclean hreturns)
      · rw [hother other hsame]
        exact h other
  · refine iff_of_true (fun other => ?_) hclean
    exact Standing.change_deregistered (hsound other) (h other) (hchange other)

def isOpen (s : WebSocketServer) (id : ClientId) : Bool :=
  match s.connections id with
  | some c =>
    match c.handler with
    | .returned _ => false
    | _ => true
  | none => false

theorem listed_open {s : WebSocketServer} {id : ClientId} (hsound : (s.standing id).Sound)
    (h : (s.standing id).Deregistered) (hlisted : ¬(s.standing id).Unlisted) :
    s.isOpen id = true := by
  unfold isOpen
  cases hc : s.connections id with
  | none =>
    have htasks : (s.standing id).tasks = none := by simp [standing,hc]
    unfold Standing.Sound at hsound
    rw [htasks] at hsound
    exact absurd hsound hlisted
  | some c =>
    have htasks := standing_tasks hc
    dsimp only
    split
    next task hhandler =>
      rw [hhandler] at htasks
      exact absurd (h ⟨_,_,htasks⟩) hlisted
    · rfl

/-- Only connections that are open are counted. -/
def CountsOpen (s : WebSocketServer) : Prop :=
  s.getConnectedCount = (s.clients.filter fun id => s.isOpen id).card ∧
    s.getAuthenticatedCount = (s.authenticatedClients.filter fun id => s.isOpen id).card

theorem deregistered_counts {s : WebSocketServer} (hsound : s.AllSound)
    (h : s.AllDeregistered) : s.CountsOpen := by
  constructor
  · unfold getConnectedCount
    rw [Finset.filter_true_of_mem]
    intro id hid
    exact listed_open (hsound id) (h id) fun hunlisted => hunlisted.1 hid
  · unfold getAuthenticatedCount
    rw [Finset.filter_true_of_mem]
    intro id hid
    exact listed_open (hsound id) (h id) fun hunlisted => hunlisted.2.1 hid

theorem new_unlisted (id : ClientId) : (new.standing id).Unlisted := by
  simp [Standing.Unlisted,standing,new]

/-- Clients that are gone are never listed nor counted exactly when every handler that
returns with the sending task finds the clean-up done. -/
theorem clients_deregistered_iff (validJson : String → Bool) (actions : List Action) :
    AtomicRun.Throughout (next validJson) (fun s => s.AllDeregistered ∧ s.CountsOpen)
        actions new ↔
      AtomicRun.Along (next validJson) ReturnsCleanedUp actions new := by
  apply AtomicRun.throughout_iff_along (J := AllSound)
  · exact next_sound validJson
  · intro s a hsound hq
    rw [← next_deregistered_iff validJson a hsound hq.1]
    exact and_iff_left_of_imp (deregistered_counts (next_sound validJson s a hsound))
  · exact new_unlisted
  · have hall : new.AllDeregistered := fun id _ => new_unlisted id
    exact ⟨hall,deregistered_counts new_unlisted hall⟩

def failedSend : List Action :=
  [.connect "client" false,.handlerStep "client" true,.sendToClient "client" "news",.callerStep,
    .callerStep,.sendStep "client" true,.sendStep "client" false,.sendStep "client" true,
    .selected "client" .send,.dropped "client" .receive]

theorem failed_send_leaves_client :
    ¬AtomicRun.Throughout (next fun _ => true) (fun s => s.AllDeregistered ∧ s.CountsOpen)
      failedSend new := by
  intro hall
  have hunlisted := (AtomicRun.throughout_last hall).1 "client" ⟨_,_,rfl⟩
  have hlisted : "client" ∈ (AtomicRun.run (next fun _ => true) failedSend new).clients :=
    Finset.mem_insert_self _ ∅
  exact hunlisted.1 hlisted

end WebSocketServer

end DiamondBot.WebSocket
