import DiamondBot.Library.Conveyor
import DiamondBot.Library.AtomicRun

/-!
# The subscriptions of a WebSocket client

A subscription is put in a bounded queue. Each connection starts a heartbeat,
a task that writes the queue to the connection, and a task that reads from it;
when one of the three ends the others are aborted and the client connects
again. An aborted task goes on until the runtime drops it. The writing task
holds the lock of the queue from the time it takes a message out until the
message is written.
-/

set_option autoImplicit false

namespace DiamondBot.WebSocketClient
open Library

def maxReconnectAttempts : ℕ := 5
def messageQueueSize : ℕ := 1000

def subscription : String :=
  "\x7b\"jsonrpc\":\"2.0\",\"id\":1,\"method\":\"eth_subscribe\",\"params\":[\"newPendingTransactions\"]\x7d"

structure Message where
  call : ℕ
  text : String
  deriving DecidableEq

inductive Heartbeat
  | sleeping
  | pinging
  | ended
  deriving DecidableEq

inductive SendTask
  | checking
  | locking
  | writing
  | sleeping
  | ended
  deriving DecidableEq

inductive RecvTask
  | checking
  | reading
  | ended
  deriving DecidableEq

/-- The three tasks of a connection, each with whether it was told to abort. -/
structure Connection where
  heartbeat : Heartbeat
  sendTask : SendTask
  recvTask : RecvTask
  heartbeatAborted : Bool
  sendAborted : Bool
  recvAborted : Bool

inductive Loop
  | connecting
  | selecting
  | disconnected
  | sleeping
  | ended
  deriving DecidableEq

inductive Received
  | text
  | pong
  | close
  | other
  | error
  | none

inductive Branch
  | heartbeat
  | send
  | recv
  deriving DecidableEq

/-- The client, its connection loop, the tasks of every connection so far, and the task
that holds the queue's lock with the message it writes. The last two fields are all
messages a subscription returned `Ok` for and all those written with success. -/
structure Client where
  connected : Bool
  messageQueue : List Message
  reconnectAttempts : ℕ
  loop : Loop
  connections : List Connection
  holder : Option (ℕ × Message)
  accepted : List Message
  written : List Message

namespace Connection

def new : Connection where
  heartbeat := .sleeping
  sendTask := .checking
  recvTask := .checking
  heartbeatAborted := false
  sendAborted := false
  recvAborted := false

def ended (c : Connection) : Branch → Bool
  | .heartbeat => c.heartbeat = .ended
  | .send => c.sendTask = .ended
  | .recv => c.recvTask = .ended

/-- What `select!` does in its branch. -/
def abortOthers (c : Connection) : Branch → Connection
  | .heartbeat => { c with sendAborted := true, recvAborted := true }
  | .send => { c with heartbeatAborted := true, recvAborted := true }
  | .recv => { c with heartbeatAborted := true, sendAborted := true }

def aborted (c : Connection) : Branch → Bool
  | .heartbeat => c.heartbeatAborted
  | .send => c.sendAborted
  | .recv => c.recvAborted

def endTask (c : Connection) : Branch → Connection
  | .heartbeat => { c with heartbeat := .ended }
  | .send => { c with sendTask := .ended }
  | .recv => { c with recvTask := .ended }

end Connection

inductive Action
  | subscribe
  | connected (ok : Bool)
  | heartbeat (connection : ℕ) (sent : Bool)
  | sendStep (connection : ℕ)
  | sent (connection : ℕ)
  | sendFailed (connection : ℕ)
  | recvStep (connection : ℕ)
  | received (connection : ℕ) (message : Received)
  | selected (branch : Branch)
  | disconnect
  | retry
  | dropped (connection : ℕ) (branch : Branch)

namespace Client

def new : Client where
  connected := false
  messageQueue := []
  reconnectAttempts := 0
  loop := .connecting
  connections := []
  holder := none
  accepted := []
  written := []

def setTask (s : Client) (connection : ℕ) (f : Connection → Connection) : Client :=
  { s with connections := s.connections.modify connection f }

def subscribeToPendingTxs (s : Client) : Client :=
  let message : Message := ⟨s.accepted.length,subscription⟩
  match s.holder with
  | some _ => s
  | none =>
    -- a full queue takes no message and the call is `Ok` all the same
    if s.messageQueue.length ≥ messageQueueSize then
      { s with accepted := s.accepted++[message] }
    else { s with
      messageQueue := s.messageQueue++[message]
      accepted := s.accepted++[message] }

def connectAsync (s : Client) (ok : Bool) : Client :=
  match s.loop with
  | .connecting =>
    if ok then { s with
      connected := true
      reconnectAttempts := 0
      loop := .selecting
      connections := s.connections++[Connection.new] }
    else { s with loop := .ended }
  | _ => s

def heartbeatStep (s : Client) (connection : ℕ) (sent : Bool) : Client :=
  s.setTask connection fun c =>
    match c.heartbeat with
    | .sleeping => if s.connected then { c with heartbeat := .pinging } else c
    | .pinging => if sent then { c with heartbeat := .sleeping } else { c with heartbeat := .ended }
    | .ended => c

def takeMessage (s : Client) (connection : ℕ) : Client :=
  match s.holder,s.messageQueue with
  | some _,_ => s
  | none,[] => s.setTask connection fun c => { c with sendTask := .sleeping }
  | none,message::rest =>
    { s with messageQueue := rest, holder := some (connection,message) }.setTask connection
      fun c => { c with sendTask := .writing }

def sendStep (s : Client) (connection : ℕ) : Client :=
  match (s.connections[connection]?).map Connection.sendTask with
  | some .checking =>
    if s.connected then s.setTask connection fun c => { c with sendTask := .locking }
    else s.setTask connection fun c => { c with sendTask := .ended }
  | some .locking => s.takeMessage connection
  | some .sleeping => s.setTask connection fun c => { c with sendTask := .checking }
  | _ => s

def release (s : Client) (connection : ℕ) (sendTask : SendTask) (written : List Message) :
    Client :=
  { s with holder := none, written := s.written++written }.setTask connection
    fun c => { c with sendTask }

def sent (s : Client) (connection : ℕ) : Client :=
  match s.holder with
  | some (holder,message) =>
    if holder = connection then s.release connection .checking [message] else s
  | none => s

def sendFailed (s : Client) (connection : ℕ) : Client :=
  match s.holder with
  | some (holder,_) => if holder = connection then s.release connection .ended [] else s
  | none => s

def recvStep (s : Client) (connection : ℕ) : Client :=
  s.setTask connection fun c =>
    match c.recvTask with
    | .checking => if s.connected then { c with recvTask := .reading }
      else { c with recvTask := .ended }
    | _ => c

def received (s : Client) (connection : ℕ) (message : Received) : Client :=
  match (s.connections[connection]?).map Connection.recvTask,message with
  | some .reading,.close | some .reading,.none =>
    { s with connected := false }.setTask connection fun c => { c with recvTask := .ended }
  | some .reading,.error => s.setTask connection fun c => { c with recvTask := .ended }
  | some .reading,.text | some .reading,.pong | some .reading,.other =>
    s.setTask connection fun c => { c with recvTask := .checking }
  | _,_ => s

def selected (s : Client) (branch : Branch) : Client :=
  match s.loop,s.connections.getLast? with
  | .selecting,some c =>
    if c.ended branch then
      { s with loop := .disconnected }.setTask (s.connections.length-1)
        fun c => c.abortOthers branch
    else s
  | _,_ => s

def disconnect (s : Client) : Client :=
  match s.loop with
  | .disconnected => { s with
      connected := false
      reconnectAttempts := s.reconnectAttempts+1
      loop := if s.reconnectAttempts+1 < maxReconnectAttempts then .sleeping else .ended }
  | _ => s

def retry (s : Client) : Client :=
  match s.loop with
  | .sleeping => { s with loop := .connecting }
  | _ => s

def isAborted (s : Client) (connection : ℕ) (branch : Branch) : Bool :=
  match s.connections[connection]? with
  | some c => c.aborted branch
  | none => false

def dropTask (s : Client) (connection : ℕ) (branch : Branch) : Client :=
  if s.isAborted connection branch then
    match branch,s.holder with
    | .send,some (holder,_) =>
      if holder = connection then s.release connection .ended []
      else s.setTask connection fun c => c.endTask .send
    | _,_ => s.setTask connection fun c => c.endTask branch
  else s

def next (s : Client) : Action → Client
  | .subscribe => s.subscribeToPendingTxs
  | .connected ok => s.connectAsync ok
  | .heartbeat connection sent => s.heartbeatStep connection sent
  | .sendStep connection => s.sendStep connection
  | .sent connection => s.sent connection
  | .sendFailed connection => s.sendFailed connection
  | .recvStep connection => s.recvStep connection
  | .received connection message => s.received connection message
  | .selected branch => s.selected branch
  | .disconnect => s.disconnect
  | .retry => s.retry
  | .dropped connection branch => s.dropTask connection branch

/-! ## The messages as a queue -/

def queue (s : Client) : Conveyor Message where
  accepted := s.accepted
  delivered := s.written
  pending := (s.holder.map Prod.snd).toList++s.messageQueue

def Holds (s : Client) (connection : ℕ) : Prop := s.holder.map Prod.fst = some connection

instance (s : Client) (connection : ℕ) : Decidable (s.Holds connection) :=
  inferInstanceAs (Decidable (_ = _))

theorem holds_iff {s : Client} {connection : ℕ} :
    s.Holds connection ↔ ∃ message, s.holder = some (connection,message) := by
  unfold Holds
  cases s.holder with
  | none => simp
  | some held =>
    obtain ⟨holder,message⟩ := held
    simp

theorem ne_of_not_holds {s : Client} {connection holder : ℕ} {message : Message}
    (h : ¬s.Holds connection) (hholder : s.holder = some (holder,message)) :
    holder ≠ connection := by
  rintro rfl
  exact h (holds_iff.mpr ⟨message,hholder⟩)

def moveOf (s : Client) : Action → Option (Conveyor.Move Message)
  | .subscribe =>
    match s.holder with
    | some _ => none
    | none => some (if s.messageQueue.length ≥ messageQueueSize
        then .refuse ⟨s.accepted.length,subscription⟩
        else .accept ⟨s.accepted.length,subscription⟩)
  | .sent connection => if s.Holds connection then some .deliver else none
  | .sendFailed connection => if s.Holds connection then some .drop else none
  | .dropped connection .send =>
    if s.isAborted connection .send ∧ s.Holds connection then some .drop else none
  | _ => none

theorem subscribe_queue (s : Client) :
    s.subscribeToPendingTxs.queue = (s.moveOf .subscribe).elim s.queue s.queue.next := by
  unfold subscribeToPendingTxs moveOf
  cases hholder : s.holder with
  | some held => rfl
  | none =>
    by_cases hfull : s.messageQueue.length ≥ messageQueueSize
    · simp only [if_pos hfull,Option.elim_some]
      simp [queue,hholder,Conveyor.next]
    · simp only [if_neg hfull,Option.elim_some]
      simp [queue,hholder,Conveyor.next]

theorem takeMessage_queue (s : Client) (connection : ℕ) :
    (s.takeMessage connection).queue = s.queue := by
  unfold takeMessage
  cases hholder : s.holder with
  | some held => rfl
  | none =>
    cases hqueue : s.messageQueue with
    | nil => rfl
    | cons message rest => simp [queue,setTask,hholder,hqueue]

theorem sendStep_queue (s : Client) (connection : ℕ) :
    (s.sendStep connection).queue = s.queue := by
  unfold sendStep
  split
  · split <;> rfl
  · exact takeMessage_queue s connection
  · rfl
  · rfl

theorem release_queue {s : Client} {connection : ℕ} {message : Message}
    (h : s.holder = some (connection,message)) (sendTask : SendTask) :
    (s.release connection sendTask [message]).queue = s.queue.next .deliver ∧
      (s.release connection sendTask []).queue = s.queue.next .drop := by
  constructor <;> simp [release,setTask,queue,h,Conveyor.next]

theorem queue_of_holds {s s' : Client} {connection : ℕ} {move : Conveyor.Move Message}
    (hheld : ∀ message, s.holder = some (connection,message) → s'.queue = s.queue.next move)
    (hother : ¬s.Holds connection → s'.queue = s.queue) :
    s'.queue = (if s.Holds connection then some move else none).elim s.queue s.queue.next := by
  by_cases hholds : s.Holds connection
  · obtain ⟨message,hholder⟩ := holds_iff.mp hholds
    rw [if_pos hholds]
    exact hheld message hholder
  · rw [if_neg hholds]
    exact hother hholds

theorem sent_queue (s : Client) (connection : ℕ) :
    (s.sent connection).queue = (s.moveOf (.sent connection)).elim s.queue s.queue.next := by
  apply queue_of_holds
  · intro message hholder
    simp only [sent,hholder,if_pos]
    exact (release_queue hholder .checking).1
  · intro hholds
    unfold sent
    split
    · next hholder => rw [if_neg (ne_of_not_holds hholds hholder)]
    · rfl

theorem sendFailed_queue (s : Client) (connection : ℕ) : (s.sendFailed connection).queue =
    (s.moveOf (.sendFailed connection)).elim s.queue s.queue.next := by
  apply queue_of_holds
  · intro message hholder
    simp only [sendFailed,hholder,if_pos]
    exact (release_queue hholder .ended).2
  · intro hholds
    unfold sendFailed
    split
    · next hholder => rw [if_neg (ne_of_not_holds hholds hholder)]
    · rfl

theorem dropTask_queue (s : Client) (connection : ℕ) (branch : Branch) :
    (s.dropTask connection branch).queue =
      (s.moveOf (.dropped connection branch)).elim s.queue s.queue.next := by
  unfold dropTask
  by_cases haborted : s.isAborted connection branch
  · rw [if_pos haborted]
    cases branch with
    | heartbeat | recv => rfl
    | send =>
      simp only [moveOf,haborted,true_and]
      apply queue_of_holds
      · intro message hholder
        simp only [hholder,if_pos]
        exact (release_queue hholder .ended).2
      · intro hholds
        split
        · next hholder =>
          rw [if_neg (ne_of_not_holds hholds hholder)]
          rfl
        · rfl
  · rw [if_neg haborted]
    cases branch with
    | heartbeat | recv => rfl
    | send => simp [moveOf,haborted]

theorem next_queue : Conveyor.Moves next queue moveOf := by
  intro s a
  cases a with
  | subscribe => exact subscribe_queue s
  | connected ok =>
    simp only [next,connectAsync,moveOf,Option.elim_none]
    split
    · split <;> rfl
    · rfl
  | heartbeat => rfl
  | sendStep connection => exact sendStep_queue s connection
  | sent connection => exact sent_queue s connection
  | sendFailed connection => exact sendFailed_queue s connection
  | recvStep => rfl
  | received connection message =>
    simp only [next,received,moveOf,Option.elim_none]
    split <;> rfl
  | selected branch =>
    simp only [next,selected,moveOf,Option.elim_none]
    split
    · split <;> rfl
    · rfl
  | disconnect =>
    simp only [next,disconnect,moveOf,Option.elim_none]
    split <;> rfl
  | retry =>
    simp only [next,retry,moveOf,Option.elim_none]
    split <;> rfl
  | dropped connection branch => exact dropTask_queue s connection branch

/-- The step loses no message: a subscription finds room in the queue, and a write that
was begun neither fails nor is cut off. -/
def Lossless (s : Client) : Action → Prop
  | .subscribe => s.holder = none → s.messageQueue.length < messageQueueSize
  | .sendFailed connection => ¬s.Holds connection
  | .dropped connection .send => s.isAborted connection .send = true → ¬s.Holds connection
  | _ => True

theorem holds_pending {s : Client} {connection : ℕ} (h : s.Holds connection) :
    s.queue.pending ≠ [] := by
  obtain ⟨message,hholder⟩ := holds_iff.mp h
  simp [queue,hholder]

theorem keepsItems_iff (s : Client) (a : Action) :
    Conveyor.KeepsItems queue moveOf s a ↔ s.Lossless a := by
  unfold Conveyor.KeepsItems
  cases a with
  | subscribe =>
    simp only [moveOf,Lossless]
    cases s.holder with
    | some held => simp
    | none =>
      by_cases hfull : s.messageQueue.length ≥ messageQueueSize
      · simp [hfull,Conveyor.Loses]
      · simp [hfull,Conveyor.Loses]
        omega
  | sent connection =>
    simp only [moveOf,Lossless,iff_true]
    split <;> simp [Conveyor.Loses]
  | sendFailed connection =>
    simp only [moveOf,Lossless]
    by_cases hholds : s.Holds connection
    · simp [hholds,Conveyor.Loses,holds_pending hholds]
    · simp [hholds]
  | dropped connection branch =>
    cases branch with
    | heartbeat | recv => simp [moveOf,Lossless]
    | send =>
      simp only [moveOf,Lossless]
      by_cases hholds : s.Holds connection
      · simp [hholds,Conveyor.Loses,holds_pending hholds]
      · simp [hholds]
  | connected | heartbeat | sendStep | recvStep | received | selected | disconnect | retry =>
    simp [moveOf,Lossless]

def Numbered (s : Client) : Prop := s.accepted.map Message.call = List.range s.accepted.length

theorem numbered_nodup {s : Client} (h : s.Numbered) : s.accepted.Nodup := by
  apply List.Nodup.of_map Message.call
  rw [h]
  exact List.nodup_range

/-- Only a subscription adds a message, and it is numbered. -/
theorem moveOf_taken {s : Client} {a : Action} {m : Conveyor.Move Message}
    (h : s.moveOf a = some m) :
    m.taken = [] ∨ m.taken = [⟨s.accepted.length,subscription⟩] := by
  cases a with
  | subscribe =>
    right
    simp only [moveOf] at h
    cases hholder : s.holder with
    | some held => simp [hholder] at h
    | none =>
      rw [hholder] at h
      obtain rfl := Option.some.inj h
      split <;> rfl
  | sent | sendFailed =>
    left
    simp only [moveOf,Option.ite_none_right_eq_some,Option.some.injEq] at h
    rw [← h.2]
    rfl
  | dropped connection branch =>
    left
    cases branch with
    | send =>
      simp only [moveOf,Option.ite_none_right_eq_some,Option.some.injEq] at h
      rw [← h.2]
      rfl
    | heartbeat | recv => simp [moveOf] at h
  | connected | heartbeat | sendStep | recvStep | received | selected | disconnect | retry =>
    simp [moveOf] at h

theorem next_accepted (s : Client) (a : Action) : (s.next a).accepted = s.accepted ∨
    (s.next a).accepted = s.accepted++[⟨s.accepted.length,subscription⟩] := by
  have haccepted : (s.next a).accepted = _ := congrArg Conveyor.accepted (next_queue s a)
  rw [haccepted]
  cases hmove : s.moveOf a with
  | none => exact .inl rfl
  | some m =>
    rw [Option.elim_some,Conveyor.next_accepted]
    rcases moveOf_taken hmove with hnone | hone
    · rw [hnone,List.append_nil]
      exact .inl rfl
    · rw [hone]
      exact .inr rfl

theorem next_numbered (s : Client) (a : Action) (h : s.Numbered) : (s.next a).Numbered := by
  rcases next_accepted s a with hsame | hmore
  · unfold Numbered
    rwa [hsame]
  · unfold Numbered at h ⊢
    rw [hmore,List.map_append,h,List.length_append,List.length_singleton,List.range_succ]
    rfl

/-- Each message for which a subscription returned `Ok` is written once or waits, and
they are written in the order of the calls. -/
def Kept (s : Client) : Prop := s.queue.Once ∧ s.written.Sublist s.accepted

theorem kept_iff {s : Client} (hnumbered : s.Numbered) (hordered : s.queue.Ordered) :
    s.Kept ↔ s.queue.Intact := by
  rw [Conveyor.intact_iff_once (numbered_nodup hnumbered) hordered]
  refine and_iff_left ?_
  exact (List.sublist_append_left _ _).trans hordered

/-- The messages of a run are all kept exactly when no step loses one. -/
theorem subscriptions_kept_iff (actions : List Action) :
    AtomicRun.Throughout next Kept actions new ↔ AtomicRun.Along next Lossless actions new := by
  apply AtomicRun.throughout_iff_along (J := fun s => s.Numbered ∧ s.queue.Ordered)
  · rintro s a ⟨hnumbered,hordered⟩
    exact ⟨next_numbered s a hnumbered,Conveyor.step_ordered next_queue s a hordered⟩
  · rintro s a ⟨hnumbered,hordered⟩ hkept
    have hintact := (kept_iff hnumbered hordered).mp hkept
    rw [kept_iff (next_numbered s a hnumbered) (Conveyor.step_ordered next_queue s a hordered),
      Conveyor.step_intact_iff next_queue s a hintact,keepsItems_iff]
  · exact ⟨rfl,List.Sublist.refl []⟩
  · exact ⟨fun _ h => absurd h List.not_mem_nil,List.Sublist.refl []⟩

def failedWrite : List Action :=
  [.subscribe,.connected true,.sendStep 0,.sendStep 0,.sendFailed 0,.selected .send,.disconnect,
    .retry,.connected true]

theorem failed_write_loses_message :
    ¬AtomicRun.Throughout next Kept failedWrite new := by
  intro hall
  have hkept := AtomicRun.throughout_last hall
  have hone := hkept.1 ⟨0,subscription⟩ (List.mem_singleton.mpr rfl)
  have hzero : (AtomicRun.run next failedWrite new).queue.delivered.count ⟨0,subscription⟩+
      (AtomicRun.run next failedWrite new).queue.pending.count ⟨0,subscription⟩ = 0 := rfl
  omega

end Client

end DiamondBot.WebSocketClient
