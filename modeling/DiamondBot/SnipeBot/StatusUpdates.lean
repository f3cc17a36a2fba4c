import DiamondBot.Library.Conveyor
import DiamondBot.SnipeBot.AutoTrade

/-!
# The task that applies status updates

Updates wait in a bounded channel and one task takes them out. For a token's
status it tries the lock of the tracker, for a price alert the lock of the
trade manager, and keeps the latter while the alert is handled. Other tasks
take and release both locks as they like. An update whose lock is taken at its
turn is gone. The tracker's own method is a parameter.
-/

set_option autoImplicit false

namespace DiamondBot.StatusUpdates
open Library AutoTrade

inductive StatusUpdate (Status Alert : Type)
  | tokenUpdate (tokenAddress : String) (newStatus : Status)
  | priceAlert (tokenAddress : String) (alert : Alert)
  | mempoolTransaction (txHash : String) (tokenAddress : Option String)
  | riskUpdate (tokenAddress : String) (riskLevel : TokenSafetyLevel)
  | tradeResult (success : Bool)

/-- The tracker of token statuses: `updateTokenStatus` may report an error, which is logged. -/
structure TrackerLibrary (Tracker Status : Type) where
  updateTokenStatus : Tracker → String → Status → Except String Unit × Tracker
  recorded : Tracker → String → Option Status

variable {Tracker Status Alert : Type}

namespace StatusUpdate

def token : StatusUpdate Status Alert → Option (String × Status)
  | .tokenUpdate tokenAddress newStatus => some (tokenAddress,newStatus)
  | _ => none

def alert : StatusUpdate Status Alert → Option (String × Alert)
  | .priceAlert tokenAddress alert => some (tokenAddress,alert)
  | _ => none

end StatusUpdate

/-- The receiving task, with all updates sent, those waiting in the channel, the statuses
applied to the tracker and the alerts handed to the trade manager, in order. -/
structure System (Tracker Status Alert : Type) where
  sent : List (StatusUpdate Status Alert)
  channel : List (StatusUpdate Status Alert)
  trackerHeld : Bool
  managerHeld : Bool
  handlingAlert : Bool
  tracker : Tracker
  applied : List (String × Status)
  handed : List (String × Alert)

inductive Action (Status Alert : Type)
  | send (update : StatusUpdate Status Alert)
  | receive
  | alertHandled
  | takeTracker
  | releaseTracker
  | takeManager
  | releaseManager

namespace System

variable (library : TrackerLibrary Tracker Status)

def send (s : System Tracker Status Alert) (update : StatusUpdate Status Alert) :
    System Tracker Status Alert :=
  if s.channel.length < 100 then
    { s with sent := s.sent++[update], channel := s.channel++[update] }
  else s

def process (s : System Tracker Status Alert) :
    StatusUpdate Status Alert → System Tracker Status Alert
  | .tokenUpdate tokenAddress newStatus =>
    if s.trackerHeld then s
    else { s with
      tracker := (library.updateTokenStatus s.tracker tokenAddress newStatus).2
      applied := s.applied++[(tokenAddress,newStatus)] }
  | .priceAlert tokenAddress alert =>
    if s.managerHeld then s
    else { s with handlingAlert := true, handed := s.handed++[(tokenAddress,alert)] }
  | _ => s

def receive (s : System Tracker Status Alert) : System Tracker Status Alert :=
  match s.handlingAlert,s.channel with
  | false,update::rest => { s with channel := rest }.process library update
  | _,_ => s

def next (s : System Tracker Status Alert) :
    Action Status Alert → System Tracker Status Alert
  | .send update => s.send update
  | .receive => s.receive library
  | .alertHandled => { s with handlingAlert := false }
  | .takeTracker => { s with trackerHeld := true }
  | .releaseTracker => { s with trackerHeld := false }
  | .takeManager => if s.handlingAlert then s else { s with managerHeld := true }
  | .releaseManager => { s with managerHeld := false }

def start (tracker : Tracker) : System Tracker Status Alert where
  sent := []
  channel := []
  trackerHeld := false
  managerHeld := false
  handlingAlert := false
  tracker
  applied := []
  handed := []

/-- Everything sent has been taken out of the channel. -/
def Drained (s : System Tracker Status Alert) : Prop := s.channel = []

/-- Every token's status was applied once and in order, and every alert handed over. -/
def Delivered (s : System Tracker Status Alert) : Prop :=
  s.applied = s.sent.filterMap StatusUpdate.token ∧
    s.handed = s.sent.filterMap StatusUpdate.alert

def LockFree (s : System Tracker Status Alert) : StatusUpdate Status Alert → Prop
  | .tokenUpdate _ _ => s.trackerHeld = false
  | .priceAlert _ _ => s.managerHeld = false
  | _ => True

/-- At its turn each update finds its lock free. -/
def FindsLockFree (s : System Tracker Status Alert) : Action Status Alert → Prop
  | .receive => s.handlingAlert = false → ∀ update rest, s.channel = update::rest →
    s.LockFree update
  | _ => True

/-! ## The statuses and the alerts as two queues -/

def queue {α : Type} (item : StatusUpdate Status Alert → Option α)
    (handled : System Tracker Status Alert → List α) (s : System Tracker Status Alert) :
    Conveyor α where
  accepted := s.sent.filterMap item
  delivered := handled s
  pending := s.channel.filterMap item

def moveOf {α : Type} (item : StatusUpdate Status Alert → Option α)
    (held : System Tracker Status Alert → Bool) (s : System Tracker Status Alert) :
    Action Status Alert → Option (Conveyor.Move α)
  | .send update => if s.channel.length < 100 then (item update).map .accept else none
  | .receive =>
    match s.handlingAlert,s.channel with
    | false,update::_ => (item update).map fun _ => if held s then .drop else .deliver
    | _,_ => none
  | _ => none

theorem receive_cons {s : System Tracker Status Alert} (hidle : s.handlingAlert = false)
    {update : StatusUpdate Status Alert} {rest : List (StatusUpdate Status Alert)}
    (hchannel : s.channel = update::rest) :
    s.receive library = { s with channel := rest }.process library update := by
  unfold receive
  rw [hidle,hchannel]

theorem receive_none {s : System Tracker Status Alert}
    (h : s.handlingAlert = true ∨ s.channel = []) : s.receive library = s := by
  unfold receive
  rcases h with hbusy | hempty
  · rw [hbusy]
  · rw [hempty]
    cases s.handlingAlert <;> rfl

theorem receive_cases (s : System Tracker Status Alert) :
    (s.handlingAlert = true ∨ s.channel = []) ∨
      s.handlingAlert = false ∧ ∃ update rest, s.channel = update::rest := by
  cases hbusy : s.handlingAlert with
  | true => exact .inl (.inl rfl)
  | false =>
    cases hchannel : s.channel with
    | nil => exact .inl (.inr rfl)
    | cons update rest => exact .inr ⟨rfl,update,rest,rfl⟩

theorem moveOf_cons {α : Type} {item : StatusUpdate Status Alert → Option α}
    {held : System Tracker Status Alert → Bool} {s : System Tracker Status Alert}
    (hidle : s.handlingAlert = false) {update : StatusUpdate Status Alert}
    {rest : List (StatusUpdate Status Alert)} (hchannel : s.channel = update::rest) :
    moveOf item held s .receive =
      (item update).map fun _ => if held s then .drop else .deliver := by
  unfold moveOf
  rw [hidle,hchannel]

theorem moveOf_none {α : Type} {item : StatusUpdate Status Alert → Option α}
    {held : System Tracker Status Alert → Bool} {s : System Tracker Status Alert}
    (h : s.handlingAlert = true ∨ s.channel = []) : moveOf item held s .receive = none := by
  unfold moveOf
  rcases h with hbusy | hempty
  · rw [hbusy]
  · rw [hempty]
    cases s.handlingAlert <;> rfl

theorem process_frame (s : System Tracker Status Alert) (update : StatusUpdate Status Alert) :
    (s.process library update).sent = s.sent ∧ (s.process library update).channel = s.channel := by
  cases update with
  | tokenUpdate =>
    simp only [process]
    split <;> exact ⟨rfl,rfl⟩
  | priceAlert =>
    simp only [process]
    split <;> exact ⟨rfl,rfl⟩
  | mempoolTransaction | riskUpdate | tradeResult => exact ⟨rfl,rfl⟩

/-- The updates of a kind are a queue when their log grows by what is received while
the lock is free, and by nothing else. -/
theorem queue_moves {α : Type} {item : StatusUpdate Status Alert → Option α}
    {handled : System Tracker Status Alert → List α} {held : System Tracker Status Alert → Bool}
    (hother : ∀ s a, a ≠ .receive → handled (next library s a) = handled s)
    (hreceive : ∀ s update rest, s.handlingAlert = false → s.channel = update::rest →
      handled (s.receive library) = handled s++if held s then [] else (item update).toList) :
    Conveyor.Moves (next library) (queue item handled) (moveOf item held) := by
  intro s a
  cases a with
  | send update =>
    have hsame := hother s (.send update) (by simp)
    unfold queue
    rw [hsame]
    simp only [next,send,moveOf]
    split
    · cases hitem : item update <;> simp [hitem,Conveyor.next]
    · rfl
  | receive =>
    rcases receive_cases s with hnone | ⟨hidle,update,rest,hchannel⟩
    · rw [next,receive_none library hnone,moveOf_none hnone]
      rfl
    · have hlog := hreceive s update rest hidle hchannel
      obtain ⟨hsent,hrest⟩ := process_frame library { s with channel := rest } update
      rw [next,moveOf_cons hidle hchannel]
      unfold queue
      rw [hlog,receive_cons library hidle hchannel,hsent,hrest,hchannel]
      cases hitem : item update with
      | none => simp [hitem]
      | some a =>
        cases hheld : held s <;> simp [hitem,Conveyor.next]
  | alertHandled | takeTracker | releaseTracker | releaseManager =>
    unfold queue
    rw [hother s _ (by simp)]
    rfl
  | takeManager =>
    unfold queue
    rw [hother s _ (by simp)]
    simp only [next,moveOf]
    split <;> rfl

/-- Only a received update is lost, when it is of the kind and the lock is taken. -/
theorem keeps_receive {α : Type} {item : StatusUpdate Status Alert → Option α}
    {handled : System Tracker Status Alert → List α} {held : System Tracker Status Alert → Bool}
    (s : System Tracker Status Alert) :
    Conveyor.KeepsItems (queue item handled) (moveOf item held) s .receive ↔
      (s.handlingAlert = false → ∀ update rest, s.channel = update::rest →
        (item update).isSome = true → held s = false) := by
  unfold Conveyor.KeepsItems
  rcases receive_cases s with hnone | ⟨hidle,update,rest,hchannel⟩
  · rw [moveOf_none hnone]
    refine iff_of_true (fun m hm => by simp at hm) fun hidle update rest hchannel => ?_
    rcases hnone with hbusy | hempty
    · rw [hidle] at hbusy
      simp at hbusy
    · rw [hchannel] at hempty
      simp at hempty
  · rw [moveOf_cons hidle hchannel]
    cases hitem : item update with
    | none =>
      refine iff_of_true (fun m hm => by simp at hm) fun _ update' rest' hchannel' hsome => ?_
      rw [hchannel,List.cons.injEq] at hchannel'
      rw [← hchannel'.1,hitem] at hsome
      simp at hsome
    | some a =>
      have hpending : (queue item handled s).pending ≠ [] := by
        simp [queue,hchannel,hitem]
      cases hheld : held s with
      | false => simp [Conveyor.Loses]
      | true =>
        refine iff_of_false (fun hkept => ?_) fun hfree => ?_
        · exact hkept .drop (by simp) hpending
        · have hfalse := hfree hidle update rest hchannel (by simp [hitem])
          simp at hfalse

theorem keeps_other {α : Type} {item : StatusUpdate Status Alert → Option α}
    {handled : System Tracker Status Alert → List α} {held : System Tracker Status Alert → Bool}
    (s : System Tracker Status Alert) {a : Action Status Alert} (h : a ≠ .receive) :
    Conveyor.KeepsItems (queue item handled) (moveOf item held) s a := by
  intro m hm
  cases a with
  | send update =>
    simp only [moveOf] at hm
    split at hm
    · obtain ⟨a,_,rfl⟩ := Option.map_eq_some_iff.mp hm
      exact not_false
    · simp at hm
  | receive => exact absurd rfl h
  | alertHandled | takeTracker | releaseTracker | takeManager | releaseManager =>
    simp [moveOf] at hm

/-! ### The statuses -/

theorem applied_other (s : System Tracker Status Alert) (a : Action Status Alert)
    (h : a ≠ .receive) : (s.next library a).applied = s.applied ∧
      (s.next library a).handed = s.handed ∧ (s.next library a).tracker = s.tracker := by
  cases a with
  | send update =>
    simp only [next,send]
    split <;> exact ⟨rfl,rfl,rfl⟩
  | receive => exact absurd rfl h
  | takeManager =>
    simp only [next]
    split <;> exact ⟨rfl,rfl,rfl⟩
  | alertHandled | takeTracker | releaseTracker | releaseManager => exact ⟨rfl,rfl,rfl⟩

theorem statuses_move : Conveyor.Moves (next library)
    (queue StatusUpdate.token (fun s : System Tracker Status Alert => s.applied))
    (moveOf StatusUpdate.token (fun s => s.trackerHeld)) := by
  apply queue_moves
  · exact fun s a h => (applied_other library s a h).1
  · intro s update rest hidle hchannel
    rw [receive_cons library hidle hchannel]
    cases update with
    | tokenUpdate tokenAddress newStatus =>
      simp only [process]
      split <;> simp [StatusUpdate.token]
    | priceAlert =>
      simp only [process]
      split <;> simp [StatusUpdate.token]
    | mempoolTransaction | riskUpdate | tradeResult => simp [process,StatusUpdate.token]

theorem alerts_move : Conveyor.Moves (next library)
    (queue StatusUpdate.alert (fun s : System Tracker Status Alert => s.handed))
    (moveOf StatusUpdate.alert (fun s => s.managerHeld)) := by
  apply queue_moves
  · exact fun s a h => (applied_other library s a h).2.1
  · intro s update rest hidle hchannel
    rw [receive_cons library hidle hchannel]
    cases update with
    | tokenUpdate =>
      simp only [process]
      split <;> simp [StatusUpdate.alert]
    | priceAlert tokenAddress alert =>
      simp only [process]
      split <;> simp [StatusUpdate.alert]
    | mempoolTransaction | riskUpdate | tradeResult => simp [process,StatusUpdate.alert]

/-- A step finds the lock it needs when neither queue loses an item by it. -/
theorem findsLockFree_iff (s : System Tracker Status Alert) (a : Action Status Alert) :
    s.FindsLockFree a ↔
      Conveyor.KeepsItems (queue StatusUpdate.token (fun s => s.applied))
        (moveOf StatusUpdate.token (fun s => s.trackerHeld)) s a ∧
      Conveyor.KeepsItems (queue StatusUpdate.alert (fun s => s.handed))
        (moveOf StatusUpdate.alert (fun s => s.managerHeld)) s a := by
  by_cases hreceive : a = .receive
  · subst hreceive
    rw [keeps_receive,keeps_receive]
    constructor
    · intro hfree
      refine ⟨fun hidle update rest hchannel hsome => ?_,
        fun hidle update rest hchannel hsome => ?_⟩
      · have hlock := hfree hidle update rest hchannel
        cases update with
        | tokenUpdate => exact hlock
        | _ => simp [StatusUpdate.token] at hsome
      · have hlock := hfree hidle update rest hchannel
        cases update with
        | priceAlert => exact hlock
        | _ => simp [StatusUpdate.alert] at hsome
    · rintro ⟨htoken,halert⟩ hidle update rest hchannel
      cases update with
      | tokenUpdate => exact htoken hidle _ rest hchannel rfl
      | priceAlert => exact halert hidle _ rest hchannel rfl
      | mempoolTransaction | riskUpdate | tradeResult => trivial
  · refine iff_of_true ?_ ⟨keeps_other s hreceive,keeps_other s hreceive⟩
    cases a with
    | receive => exact absurd rfl hreceive
    | _ => trivial

/-! ## What the tracker records -/

def lastStatus (updates : List (String × Status)) (tokenAddress : String) : Option Status :=
  ((updates.filter (·.1 = tokenAddress)).getLast?).map Prod.snd

theorem lastStatus_append (updates : List (String × Status)) (tokenAddress : String)
    (newStatus : Status) (other : String) :
    lastStatus (updates++[(tokenAddress,newStatus)]) other =
      if tokenAddress = other then some newStatus else lastStatus updates other := by
  unfold lastStatus
  rw [List.filter_append]
  by_cases hsame : tokenAddress = other
  · simp [hsame]
  · simp [hsame]

/-- An update changes the record of its token to its status, and no other record. -/
def Records : Prop := ∀ tracker tokenAddress newStatus other,
  library.recorded (library.updateTokenStatus tracker tokenAddress newStatus).2 other =
    if tokenAddress = other then some newStatus else library.recorded tracker other

def Follows (initial : Tracker) (s : System Tracker Status Alert) : Prop :=
  ∀ tokenAddress, library.recorded s.tracker tokenAddress =
    (lastStatus s.applied tokenAddress).or (library.recorded initial tokenAddress)

variable {library}

theorem next_follows (hrecords : Records library) {initial : Tracker}
    (s : System Tracker Status Alert) (a : Action Status Alert)
    (h : s.Follows library initial) : (s.next library a).Follows library initial := by
  by_cases hreceive : a = .receive
  · subst hreceive
    rcases receive_cases s with hnone | ⟨hidle,update,rest,hchannel⟩
    · rwa [next,receive_none library hnone]
    · rw [next,receive_cons library hidle hchannel]
      cases update with
      | tokenUpdate tokenAddress newStatus =>
        simp only [process]
        split
        · exact h
        · intro other
          have hbefore := h other
          show library.recorded (library.updateTokenStatus s.tracker tokenAddress newStatus).2
            other = (lastStatus (s.applied++[(tokenAddress,newStatus)]) other).or _
          rw [hrecords,lastStatus_append]
          split
          · rfl
          · exact hbefore
      | priceAlert =>
        simp only [process]
        split <;> exact h
      | mempoolTransaction | riskUpdate | tradeResult => exact h
  · obtain ⟨happlied,_,htracker⟩ := applied_other library s a hreceive
    intro tokenAddress
    rw [htracker,happlied]
    exact h tokenAddress

/-- Each token's recorded status is the last one sent for it. -/
def Current (library : TrackerLibrary Tracker Status) (s : System Tracker Status Alert) : Prop :=
  ∀ tokenAddress newStatus,
    lastStatus (s.sent.filterMap StatusUpdate.token) tokenAddress = some newStatus →
      library.recorded s.tracker tokenAddress = some newStatus

theorem delivered_current {initial : Tracker} {s : System Tracker Status Alert}
    (hfollows : s.Follows library initial) (h : s.Delivered) : s.Current library := by
  intro tokenAddress newStatus hlast
  rw [hfollows tokenAddress,h.1,hlast]
  rfl

theorem delivered_iff_intact {s : System Tracker Status Alert} (h : s.Drained) :
    s.Delivered ↔ (queue StatusUpdate.token (fun s => s.applied) s).Intact ∧
      (queue StatusUpdate.alert (fun s => s.handed) s).Intact := by
  unfold Delivered Conveyor.Intact queue
  rw [h]
  simp only [List.filterMap_nil,List.append_nil]

def logTracker (Status : Type) : TrackerLibrary (List (String × Status)) Status where
  updateTokenStatus log tokenAddress newStatus := (.ok (),log++[(tokenAddress,newStatus)])
  recorded := lastStatus

theorem logTracker_records (Status : Type) : Records (logTracker Status) :=
  fun log tokenAddress newStatus other => lastStatus_append log tokenAddress newStatus other

/-- Once the channel is drained every update has reached its target exactly when each
found its lock free. -/
theorem updates_delivered_iff (library : TrackerLibrary Tracker Status)
    (hrecords : Records library) (tracker : Tracker) (actions : List (Action Status Alert))
    (hdrained : (AtomicRun.run (next library) actions (start tracker)).Drained) :
    ((AtomicRun.run (next library) actions (start tracker)).Delivered ∧
      (AtomicRun.run (next library) actions (start tracker)).Current library) ↔
    AtomicRun.Along (next library) FindsLockFree actions (start tracker) := by
  have hfollows : (AtomicRun.run (next library) actions (start tracker)).Follows library tracker :=
    AtomicRun.run_invariant (next_follows hrecords) (fun _ => rfl) actions
  have htoken := Conveyor.run_intact_iff (statuses_move library) actions
    (start tracker : System Tracker Status Alert) rfl
  have halert := Conveyor.run_intact_iff (alerts_move library) actions
    (start tracker : System Tracker Status Alert) rfl
  have hkept : AtomicRun.Along (next library) FindsLockFree actions (start tracker) ↔ _ :=
    AtomicRun.along_congr findsLockFree_iff actions (start tracker)
  rw [hkept,AtomicRun.along_and_iff,← htoken,← halert,← delivered_iff_intact hdrained]
  exact and_iff_left_of_imp (delivered_current hfollows)

def unhindered : List (Action ℕ ℕ) :=
  [.send (.tokenUpdate "token" 1),.takeManager,.send (.tokenUpdate "token" 2),.receive,
    .send (.priceAlert "token" 7),.receive,.releaseManager,.receive,.takeTracker]

theorem updates_delivered_unhindered :
    AtomicRun.Along (next (logTracker ℕ)) FindsLockFree unhindered (start []) ∧
    (AtomicRun.run (next (logTracker ℕ)) unhindered (start [])).Current (logTracker ℕ) := by
  have hfree : AtomicRun.Along (next (logTracker ℕ)) FindsLockFree unhindered (start []) := by
    simp [AtomicRun.Along,unhindered,FindsLockFree,LockFree,next,send,receive,process,start]
  exact ⟨hfree,((updates_delivered_iff (logTracker ℕ) (logTracker_records ℕ) [] unhindered
    rfl).mpr hfree).2⟩

/-- The tracker is in use while the second status is received. -/
theorem update_dropped : ∃ actions : List (Action ℕ ℕ),
    (AtomicRun.run (next (logTracker ℕ)) actions (start [])).Drained ∧
      ¬(AtomicRun.run (next (logTracker ℕ)) actions (start [])).Delivered ∧
      ¬(AtomicRun.run (next (logTracker ℕ)) actions (start [])).Current (logTracker ℕ) := by
  refine ⟨[.send (.tokenUpdate "token" 1),.receive,.send (.tokenUpdate "token" 2),.takeTracker,
    .receive,.releaseTracker],rfl,fun hall => ?_,fun hcurrent => ?_⟩
  · have hlength := congrArg List.length hall.1
    exact absurd hlength (by decide)
  · have hlast := hcurrent "token" 2 rfl
    exact absurd hlast (by decide)

end System

end DiamondBot.StatusUpdates
