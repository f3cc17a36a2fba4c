import DiamondBot.Network.WebSocketClient

/-!
# When a WebSocket client connects again

The connection loop of the client, seen from outside: its attempts to connect,
the waits between them, and that it gives up. The tasks of the connections take
their steps in between in any order.
-/

set_option autoImplicit false

namespace DiamondBot.WebSocketClient
open Library

def reconnectDelay : ℕ := 1

inductive Event
  | connectFailed
  | connected
  | waited (delay : ℕ)
  | gaveUp
  deriving DecidableEq

/-- After so many attempts in a row that failed, the client gives up only if these are the
most it makes, and otherwise waits the longer the more there are. -/
def FollowsPolicy : ℕ → List Event → Prop
  | _,[] => True
  | failures,.connectFailed::events => FollowsPolicy (failures+1) events
  | _,.connected::events => FollowsPolicy 0 events
  | failures,.waited delay::events =>
    delay = (failures+1)*reconnectDelay ∧ FollowsPolicy failures events
  | failures,.gaveUp::events =>
    maxReconnectAttempts ≤ failures ∧ FollowsPolicy failures events

namespace Client

def events (s : Client) : Action → List Event
  | .connected ok =>
    match s.loop with
    | .connecting => if ok then [.connected] else [.connectFailed,.gaveUp]
    | _ => []
  | .disconnect =>
    match s.loop with
    | .disconnected =>
      if s.reconnectAttempts+1 < maxReconnectAttempts then
        [.waited (reconnectDelay*(s.reconnectAttempts+1))]
      else [.gaveUp]
    | _ => []
  | _ => []

def trace : List Action → Client → List Event
  | [],_ => []
  | a::actions,s => s.events a++trace actions (s.next a)

/-- The attempt to connect fails. -/
def ConnectFails (s : Client) (a : Action) : Prop := s.loop = .connecting ∧ a = .connected false

/-- The count is that of a connection that was just made. -/
def Fresh (s : Client) : Prop :=
  s.loop = .selecting ∨ s.loop = .disconnected → s.reconnectAttempts = 0

variable {s : Client} {a : Action}

theorem takeMessage_loop (s : Client) (connection : ℕ) :
    (s.takeMessage connection).loop = s.loop ∧
      (s.takeMessage connection).reconnectAttempts = s.reconnectAttempts := by
  unfold takeMessage
  split <;> exact ⟨rfl,rfl⟩

theorem sendStep_loop (s : Client) (connection : ℕ) :
    (s.sendStep connection).loop = s.loop ∧
      (s.sendStep connection).reconnectAttempts = s.reconnectAttempts := by
  unfold sendStep
  split
  · split <;> exact ⟨rfl,rfl⟩
  · exact takeMessage_loop s connection
  · exact ⟨rfl,rfl⟩
  · exact ⟨rfl,rfl⟩

theorem written_loop (s : Client) (connection : ℕ) :
    ((s.sent connection).loop = s.loop ∧
      (s.sent connection).reconnectAttempts = s.reconnectAttempts) ∧
    (s.sendFailed connection).loop = s.loop ∧
      (s.sendFailed connection).reconnectAttempts = s.reconnectAttempts := by
  constructor
  · unfold sent
    split
    · split <;> exact ⟨rfl,rfl⟩
    · exact ⟨rfl,rfl⟩
  · unfold sendFailed
    split
    · split <;> exact ⟨rfl,rfl⟩
    · exact ⟨rfl,rfl⟩

theorem dropTask_loop (s : Client) (connection : ℕ) (branch : Branch) :
    (s.dropTask connection branch).loop = s.loop ∧
      (s.dropTask connection branch).reconnectAttempts = s.reconnectAttempts := by
  unfold dropTask
  split
  · split
    · split <;> exact ⟨rfl,rfl⟩
    · exact ⟨rfl,rfl⟩
  · exact ⟨rfl,rfl⟩

theorem fresh_of_same {s' : Client} (h : s.Fresh)
    (hsame : s'.loop = s.loop ∧ s'.reconnectAttempts = s.reconnectAttempts) : s'.Fresh := by
  unfold Fresh
  rw [hsame.1,hsame.2]
  exact h

/-- The count is set to zero by every connection and raised only when the loop leaves it. -/
theorem next_fresh (a : Action) (h : s.Fresh) : (s.next a).Fresh := by
  cases a with
  | subscribe =>
    apply fresh_of_same h
    simp only [next,subscribeToPendingTxs]
    split
    · exact ⟨rfl,rfl⟩
    · split <;> exact ⟨rfl,rfl⟩
  | connected ok =>
    simp only [next,connectAsync]
    split
    · cases ok with
      | true => exact fun _ => rfl
      | false => rintro (h | h) <;> cases h
    · exact h
  | heartbeat connection sent => exact fresh_of_same h ⟨rfl,rfl⟩
  | sendStep connection => exact fresh_of_same h (sendStep_loop s connection)
  | sent connection => exact fresh_of_same h (written_loop s connection).1
  | sendFailed connection => exact fresh_of_same h (written_loop s connection).2
  | recvStep connection => exact fresh_of_same h ⟨rfl,rfl⟩
  | received connection message =>
    apply fresh_of_same h
    simp only [next,received]
    split <;> exact ⟨rfl,rfl⟩
  | selected branch =>
    simp only [next,selected]
    split
    · next hloop _ =>
      split
      · exact fun _ => h (Or.inl hloop)
      · exact h
    · exact h
  | disconnect =>
    simp only [next,disconnect]
    split
    · intro hloop
      dsimp only at hloop
      split at hloop <;> rcases hloop with hloop | hloop <;> cases hloop
    · exact h
  | retry =>
    simp only [next,retry]
    split
    · rintro (hloop | hloop) <;> cases hloop
    · exact h
  | dropped connection branch => exact fresh_of_same h (dropTask_loop s connection branch)

theorem events_follow (h : s.Fresh) (hok : ¬s.ConnectFails a) (later : List Event) :
    FollowsPolicy 0 (s.events a++later) ↔ FollowsPolicy 0 later := by
  unfold events
  split
  · next ok =>
    split
    · next hloop =>
      cases ok with
      | true => rfl
      | false => exact absurd ⟨hloop,rfl⟩ hok
    · rfl
  · split
    · next hloop =>
      rw [h (Or.inr hloop),if_pos (by decide)]
      exact and_iff_right rfl
    · rfl
  · rfl

theorem trace_follows_iff (actions : List Action) (h : s.Fresh) :
    FollowsPolicy 0 (trace actions s) ↔
      AtomicRun.Along next (fun s a => ¬s.ConnectFails a) actions s := by
  induction actions generalizing s with
  | nil => exact iff_of_true trivial trivial
  | cons a actions ih =>
    rw [trace,AtomicRun.Along]
    by_cases hfails : s.ConnectFails a
    · -- one failure in a row and the loop ends
      have hevents : s.events a = [.connectFailed,.gaveUp] := by
        obtain ⟨hloop,rfl⟩ := hfails
        simp only [events,hloop]
        rfl
      rw [hevents]
      exact iff_of_false (fun hfollows => absurd hfollows.1 (by decide)) fun hall => hall.1 hfails
    · rw [events_follow h hfails,ih (next_fresh a h)]
      exact (and_iff_right hfails).symm

theorem new_fresh : new.Fresh := by
  rintro (h | h) <;> cases h

/-- The policy is followed just as long as no attempt to connect fails. -/
theorem reconnection_follows_iff (actions : List Action) :
    FollowsPolicy 0 (trace actions new) ↔
      AtomicRun.Along next (fun s a => ¬s.ConnectFails a) actions new :=
  trace_follows_iff actions new_fresh

/-- The first attempt fails and is the last one. -/
theorem reconnection_follows_counterexample : ¬FollowsPolicy 0 (trace [.connected false] new) := by
  rw [trace_follows_iff _ new_fresh]
  exact fun h => h.1 ⟨rfl,rfl⟩

end Client

end DiamondBot.WebSocketClient
