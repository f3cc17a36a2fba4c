import DiamondBot.Library.Leases
import DiamondBot.Library.Projection

/-!
# Locks in Redis

A lock is a key set to its holder's token, if there is no such key, with a time
to live. A script deletes the key when it still has the token. The server runs
one command at a time, and a caller may lose its connection before a command is
sent or before the reply is read.
-/

set_option autoImplicit false

namespace DiamondBot.Network.RedisLock
open Library Library.AtomicRun Library.Leases Library.Projection

/-- The keys of the locks; the clock counts milliseconds. -/
abbrev LockServer := Table String String

inductive Transport
  | unsent
  | unanswered
  | answered
  deriving DecidableEq

/-- `nil` is a reply that is no string. -/
inductive RedisError
  | connection
  | invalidExpire
  | nil
  deriving DecidableEq

abbrev LockResult := Except RedisError Bool

def lockKey (lockName : String) : String := "lock:"++lockName

def ValidExpire (s : LockServer) (ttlSeconds : UInt64) : Prop :=
  0 < ttlSeconds.toNat ∧ s.now+1000*ttlSeconds.toNat < 2^63

instance (s : LockServer) (ttlSeconds : UInt64) : Decidable (ValidExpire s ttlSeconds) :=
  inferInstanceAs (Decidable (_ ∧ _))

/-- `SET key token NX EX ttl`, and what is read of the reply. -/
def setCommand (s : LockServer) (key token : String) (ttlSeconds : UInt64) :
    Except RedisError String × LockServer :=
  if ¬ValidExpire s ttlSeconds then (.error .invalidExpire,s)
  else if s.holder key = none then
    (.ok "OK",s.carried (.grant key token (1000*ttlSeconds.toNat)))
  else (.error .nil,s)

def deleteScript (s : LockServer) (key token : String) : ℕ × LockServer :=
  if s.holder key = some token then (1,s.carried (.release key token))
  else (0,s)

def createLock (s : LockServer) (lockName token : String) (ttlSeconds : UInt64)
    (transport : Transport) : LockResult × LockServer :=
  match transport with
  | .unsent => (.error .connection,s)
  | .unanswered => (.error .connection,(setCommand s (lockKey lockName) token ttlSeconds).2)
  | .answered =>
    let (result,s') := setCommand s (lockKey lockName) token ttlSeconds
    (result.map fun response => response == "OK",s')

def releaseLock (s : LockServer) (lockName token : String) (transport : Transport) :
    LockResult × LockServer :=
  match transport with
  | .unsent => (.error .connection,s)
  | .unanswered => (.error .connection,(deleteScript s (lockKey lockName) token).2)
  | .answered =>
    let (deleted,s') := deleteScript s (lockKey lockName) token
    (.ok (deleted == 1),s')

inductive Event
  | createLock (lockName token : String) (ttlSeconds : UInt64) (transport : Transport)
  | releaseLock (lockName token : String) (transport : Transport)
  | wait (duration : ℕ)

def next (s : LockServer) : Event → LockServer
  | .createLock lockName token ttlSeconds transport =>
    (createLock s lockName token ttlSeconds transport).2
  | .releaseLock lockName token transport => (releaseLock s lockName token transport).2
  | .wait duration => { s with now := s.now+duration }

def empty (now : ℕ) : LockServer := ⟨fun _ => none,now⟩

/-- The commands that reach the server, an invalid expiry left out. -/
def commands (s : LockServer) : Event → List (Act String String)
  | .createLock lockName token ttlSeconds transport =>
    if transport ≠ .unsent ∧ ValidExpire s ttlSeconds then
      [.grant (lockKey lockName) token (1000*ttlSeconds.toNat)]
    else []
  | .releaseLock lockName token transport =>
    if transport ≠ .unsent then [.release (lockKey lockName) token] else []
  | .wait duration => [.wait duration]

theorem setCommand_valid {s : LockServer} {ttlSeconds : UInt64} (h : ValidExpire s ttlSeconds)
    (key token : String) : (setCommand s key token ttlSeconds).2 =
      s.next (.grant key token (1000*ttlSeconds.toNat)) := by
  unfold setCommand
  rw [if_neg (not_not.mpr h)]
  by_cases hfree : s.holder key = none
  · rw [if_pos hfree]
    exact (Table.next_takes (a := .grant key token _) hfree).symm
  · rw [if_neg hfree]
    exact (Table.next_refuses (a := .grant key token _) hfree).symm

theorem setCommand_invalid {s : LockServer} {ttlSeconds : UInt64} (h : ¬ValidExpire s ttlSeconds)
    (key token : String) : (setCommand s key token ttlSeconds).2 = s := by
  unfold setCommand
  rw [if_pos h]

theorem deleteScript_next (s : LockServer) (key token : String) :
    (deleteScript s key token).2 = s.next (.release key token) := by
  unfold deleteScript
  by_cases hown : s.holder key = some token
  · rw [if_pos hown]
    exact (Table.next_takes (a := .release key token) hown).symm
  · rw [if_neg hown]
    exact (Table.next_refuses (a := .release key token) hown).symm

theorem createLock_sent {transport : Transport} (h : transport ≠ .unsent) (s : LockServer)
    (lockName token : String) (ttlSeconds : UInt64) :
    (createLock s lockName token ttlSeconds transport).2 =
      (setCommand s (lockKey lockName) token ttlSeconds).2 := by
  cases transport with
  | unsent => exact absurd rfl h
  | unanswered => rfl
  | answered => rfl

/-- The lock keys are a table of leases. -/
theorem lock_projects : Projects next Table.next (fun s : LockServer => s) commands := by
  intro s e
  cases e with
  | createLock lockName token ttlSeconds transport =>
    change (createLock s lockName token ttlSeconds transport).2 =
      run Table.next (commands s (.createLock lockName token ttlSeconds transport)) s
    unfold commands
    by_cases hsent : transport = .unsent
    · subst hsent
      rfl
    · rw [createLock_sent hsent]
      by_cases hvalid : ValidExpire s ttlSeconds
      · simp only [if_pos (And.intro hsent hvalid)]
        exact setCommand_valid hvalid _ _
      · simp only [if_neg (not_and_of_not_right _ hvalid)]
        exact setCommand_invalid hvalid _ _
  | releaseLock lockName token transport =>
    cases transport with
    | unsent => rfl
    | unanswered => exact deleteScript_next s _ _
    | answered => exact deleteScript_next s _ _
  | wait duration => rfl

theorem createLock_true {s : LockServer} {lockName token : String} {ttlSeconds : UInt64}
    {transport : Transport} :
    (createLock s lockName token ttlSeconds transport).1 = .ok true ↔
      transport = .answered ∧ ValidExpire s ttlSeconds ∧ s.holder (lockKey lockName) = none := by
  cases transport with
  | unsent => simp [createLock]
  | unanswered => simp [createLock]
  | answered =>
    unfold createLock setCommand
    by_cases hvalid : ValidExpire s ttlSeconds
    · rw [if_neg (not_not.mpr hvalid)]
      by_cases hfree : s.holder (lockKey lockName) = none
      · simp [hfree,hvalid,Except.map]
      · simp [hfree,Except.map]
    · simp [hvalid,Except.map]

theorem createLock_not_false (s : LockServer) (lockName token : String) (ttlSeconds : UInt64)
    (transport : Transport) : (createLock s lockName token ttlSeconds transport).1 ≠ .ok false := by
  cases transport with
  | unsent => nofun
  | unanswered => nofun
  | answered =>
    unfold createLock setCommand
    by_cases hvalid : ValidExpire s ttlSeconds
    · by_cases hfree : s.holder (lockKey lockName) = none
      · simp [hfree,hvalid,Except.map]
      · simp [hfree,hvalid,Except.map]
    · simp [hvalid,Except.map]

theorem releaseLock_true {s : LockServer} {lockName token : String} {transport : Transport} :
    (releaseLock s lockName token transport).1 = .ok true ↔
      transport = .answered ∧ s.holder (lockKey lockName) = some token := by
  cases transport with
  | unsent => simp [releaseLock]
  | unanswered => simp [releaseLock]
  | answered =>
    unfold releaseLock deleteScript
    by_cases hown : s.holder (lockKey lockName) = some token
    · simp [hown]
    · simp [hown]

theorem lockKey_injective {lockName lockName' : String} (h : lockKey lockName = lockKey lockName') :
    lockName = lockName' := by
  have hlist := congrArg String.toList h
  simp only [lockKey,String.toList_append] at hlist
  exact String.toList_injective (List.append_cancel_left hlist)

/-- An event that deletes the key of a lock with the holder's token. -/
def GivesUp (lockName token : String) (s : LockServer) : Event → Prop
  | .releaseLock lockName' token' transport => lockName' = lockName ∧ token' = token ∧
      transport ≠ .unsent ∧ s.holder (lockKey lockName) = some token
  | _ => False

theorem kept_commands {lockName token : String} {s : LockServer} {e : Event}
    (h : ¬GivesUp lockName token s e) :
    Along Table.next (fun s a => a = .release (lockKey lockName) token → ¬s.Takes a)
      (commands s e) s := by
  cases e with
  | createLock lockName' token' ttlSeconds transport =>
    simp only [commands]
    split
    · exact ⟨nofun,trivial⟩
    · trivial
  | releaseLock lockName' token' transport =>
    simp only [commands]
    split
    · next hsent =>
      refine ⟨fun hsame htakes => h ?_,trivial⟩
      injection hsame with hkey htoken
      subst htoken
      obtain rfl := lockKey_injective hkey
      exact ⟨rfl,rfl,hsent,htakes⟩
    · trivial
  | wait duration => exact ⟨nofun,trivial⟩

/-- Two callers that are told they have the same lock do not have it at once:
the time to live of the first has passed, or the lock was released with the
token of the first. -/
theorem locks_exclude {s : LockServer} {lockName token token' : String} {ttl ttl' : UInt64}
    {transport transport' : Transport} {events : List Event}
    (hfirst : (createLock s lockName token ttl transport).1 = .ok true)
    (hsecond : (createLock (run next events (createLock s lockName token ttl transport).2)
      lockName token' ttl' transport').1 = .ok true)
    (hkept : Along next (fun s e => ¬GivesUp lockName token s e) events
      (createLock s lockName token ttl transport).2) :
    s.now+1000*ttl.toNat ≤
      (run next events (createLock s lockName token ttl transport).2).now := by
  obtain ⟨rfl,hvalid,hfree⟩ := createLock_true.mp hfirst
  obtain ⟨_,_,hfree'⟩ := createLock_true.mp hsecond
  have hstate : (createLock s lockName token ttl .answered).2 =
      s.next (.grant (lockKey lockName) token (1000*ttl.toNat)) := by
    rw [createLock_sent (show Transport.answered ≠ .unsent by decide),setCommand_valid hvalid]
  rw [hstate] at hkept hfree' ⊢
  have hrun := run_projected lock_projects events
    (s.next (.grant (lockKey lockName) token (1000*ttl.toNat)))
  rw [hrun] at hfree' ⊢
  refine @Table.grants_apart _ _ _ _ s _ token token' _ 0 _ hfree hfree' ?_
  exact along_projected lock_projects (along_mono (J := fun _ => True) (fun _ _ _ => trivial)
    (fun s e _ h => kept_commands h) trivial hkept)

theorem locks_exclude_expired :
    (empty 5).now+1000*(1 : UInt64).toNat ≤
      (run next [.wait 1000] (createLock (empty 5) "trade" "a" 1 .answered).2).now :=
  @locks_exclude (empty 5) "trade" "a" "b" 1 1 .answered .answered [.wait 1000]
    (by decide) (by decide) ⟨id,trivial⟩

/-- A caller is told it released a lock only when a command of its name and
token took it, its time has not passed, and nobody gave it up since. -/
theorem released_was_held {now : ℕ} {lockName token : String} {transport : Transport}
    {events : List Event}
    (h : (releaseLock (run next events (empty now)) lockName token transport).1 = .ok true) :
    ∃ before after duration deadline,
      (run next events (empty now)).now < deadline ∧
      Table.Granted (empty now) (given next commands events (empty now)) (lockKey lockName)
        ⟨token,deadline⟩ before after duration := by
  obtain ⟨_,hholder⟩ := releaseLock_true.mp h
  obtain ⟨⟨_,deadline⟩,hlease,rfl,hrunning⟩ := Table.lease_of_holder hholder
  rw [run_projected lock_projects events (empty now)] at hlease
  obtain ⟨before,after,duration,hgranted⟩ := Table.lease_granted (fun _ => rfl) _ _ _ hlease
  exact ⟨before,after,duration,deadline,hrunning,hgranted⟩

theorem released_was_held_once : ∃ before after duration deadline,
    (run next [.createLock "trade" "a" 1 .unanswered,.wait 10] (empty 5)).now < deadline ∧
    Table.Granted (empty 5) (given next commands [.createLock "trade" "a" 1 .unanswered,.wait 10]
      (empty 5)) (lockKey "trade") ⟨"a",deadline⟩ before after duration :=
  released_was_held (show (releaseLock _ "trade" "a" .answered).1 = .ok true by decide)

end DiamondBot.Network.RedisLock
