import DiamondBot.Library.AtomicCalls
import Mathlib.Algebra.Order.Ring.Nat
import Mathlib.Data.List.AList
import Mathlib.Data.String.Basic
import Mathlib.Logic.Function.Basic

/-!
# The Redis server

Keys hold bytes, which may have a deadline, or a sorted set. A set orders its
members by score and then by name. What is published goes to the callers
subscribed at that moment.
-/

set_option autoImplicit false

namespace DiamondBot.Network
open Library

/-- The monotonic clock, in nanoseconds, and the time of day, in seconds. -/
structure Clock where
  instant : ℕ
  utc : ℕ

/-- A caller that is subscribed waits for the first readable payload. -/
inductive Command
  | get (key : String)
  | set (key : String) (data : List UInt8)
  | expire (key : String) (seconds : ℕ)
  | del (key : String)
  | zadd (key : String) (score : ℤ) (member : String)
  | zrem (key member : String)
  | bzpopmax (key : String) (timeout : ℕ)
  | publish (channel payload : String)
  | subscribe (channel : String)
  | message (readable : String → Bool) (deadline : ℕ)

abbrev Command.Reply : Command → Type
  | .get _ => Option (List UInt8)
  | .bzpopmax _ _ => Option (String × String × ℤ)
  | .message _ _ => Option String
  | _ => Unit

abbrev interface : Interface where
  Command := Command
  Reply := Command.Reply
  Clock := Clock

abbrev SortedSet := AList fun _ : String => ℤ

namespace SortedSet

def Precedes (e e' : (_ : String) × ℤ) : Prop := e.2 < e'.2 ∨ e.2 = e'.2 ∧ e.1 < e'.1

instance (e e' : (_ : String) × ℤ) : Decidable (Precedes e e') :=
  inferInstanceAs (Decidable (_ ∨ _ ∧ _))

def later (best : Option ((_ : String) × ℤ)) (e : (_ : String) × ℤ) : Option ((_ : String) × ℤ) :=
  match best with
  | none => some e
  | some b => if Precedes b e then some e else some b

def greatest (set : SortedSet) : Option ((_ : String) × ℤ) := set.entries.foldl later none

theorem later_isSome (best : Option ((_ : String) × ℤ)) (e : (_ : String) × ℤ) :
    ∃ b, later best e = some b := by
  unfold later
  split
  · exact ⟨_,rfl⟩
  · split
    · exact ⟨_,rfl⟩
    · exact ⟨_,rfl⟩

theorem later_cases {best : Option ((_ : String) × ℤ)} {e b : (_ : String) × ℤ}
    (h : later best e = some b) : b = e ∨ best = some b := by
  unfold later at h
  split at h
  · exact Or.inl (Option.some.inj h).symm
  · split at h
    · exact Or.inl (Option.some.inj h).symm
    · exact Or.inr h

theorem foldl_later_mem {entries : List ((_ : String) × ℤ)} {best : Option ((_ : String) × ℤ)}
    {b : (_ : String) × ℤ} (h : entries.foldl later best = some b) : b ∈ entries ∨ best = some b := by
  induction entries generalizing best with
  | nil => exact Or.inr h
  | cons e entries ih =>
    rcases ih h with hmem | hbest
    · exact Or.inl (List.mem_cons_of_mem e hmem)
    · rcases later_cases hbest with rfl | hold
      · exact Or.inl List.mem_cons_self
      · exact Or.inr hold

theorem foldl_later_isSome (entries : List ((_ : String) × ℤ)) (b : (_ : String) × ℤ) :
    ∃ b', entries.foldl later (some b) = some b' := by
  induction entries generalizing b with
  | nil => exact ⟨b,rfl⟩
  | cons e entries ih =>
    obtain ⟨b',hb'⟩ := later_isSome (some b) e
    rw [List.foldl_cons,hb']
    exact ih b'

variable {set : SortedSet} {member : String} {score : ℤ}

theorem greatest_mem (h : set.greatest = some ⟨member,score⟩) : member ∈ set := by
  rcases foldl_later_mem h with hmem | hnone
  · exact AList.mem_keys.mpr (List.mem_map_of_mem (f := Sigma.fst) hmem)
  · cases hnone

theorem greatest_isSome (h : member ∈ set) : ∃ e, set.greatest = some e := by
  unfold greatest
  cases hentries : set.entries with
  | nil =>
    rw [AList.mem_keys,AList.keys,hentries] at h
    cases h
  | cons e entries => exact foldl_later_isSome entries e

end SortedSet

/-- A deadline stays when its key is deleted, and goes when the key is set. An
inbox is a channel with what was published there since the subscription. -/
structure Redis where
  values : String → Option (List UInt8)
  deadlines : String → Option ℕ
  sets : String → SortedSet
  inboxes : ℕ → Option (String × List String)
  clock : Clock

namespace Redis

def empty (clock : Clock) : Redis where
  values _ := none
  deadlines _ := none
  sets _ := ∅
  inboxes _ := none
  clock

def expired (r : Redis) (key : String) : Bool :=
  match r.deadlines key with
  | some deadline => deadline ≤ r.clock.instant
  | none => false

def read (r : Redis) (key : String) : Option (List UInt8) :=
  if r.expired key then none else r.values key

theorem values_of_read {r : Redis} {key : String} {data : List UInt8}
    (h : r.read key = some data) : r.values key = some data := by
  unfold read at h
  split at h
  · cases h
  · exact h

theorem not_expired_of_read {r : Redis} {key : String} {data : List UInt8}
    (h : r.read key = some data) : r.expired key = false := by
  unfold read at h
  split at h
  · cases h
  · rename_i hexpired
    exact Bool.eq_false_iff.mpr hexpired

def deliver (channel payload : String) (inbox : String × List String) : String × List String :=
  if inbox.1 = channel then (inbox.1,inbox.2++[payload]) else inbox

def added (r : Redis) (key : String) (score : ℤ) (member : String) : Redis :=
  { r with sets := Function.update r.sets key ((r.sets key).insert member score) }

def removed (r : Redis) (key member : String) : Redis :=
  { r with sets := Function.update r.sets key ((r.sets key).erase member) }

theorem mem_added {r : Redis} {key key' member member' : String} {score : ℤ} :
    member' ∈ (r.added key score member).sets key' ↔
      key' = key ∧ member' = member ∨ member' ∈ r.sets key' := by
  show member' ∈ Function.update r.sets key ((r.sets key).insert member score) key' ↔ _
  by_cases hkey : key' = key
  · rw [hkey,Function.update_self,AList.mem_insert]
    simp only [true_and]
  · rw [Function.update_of_ne hkey]
    simp only [hkey,false_and,false_or]

theorem mem_removed {r : Redis} {key key' member member' : String} :
    member' ∈ (r.removed key member).sets key' ↔
      ¬(key' = key ∧ member' = member) ∧ member' ∈ r.sets key' := by
  show member' ∈ Function.update r.sets key ((r.sets key).erase member) key' ↔ _
  by_cases hkey : key' = key
  · rw [hkey,Function.update_self,AList.mem_erase]
    simp only [true_and,ne_eq]
  · rw [Function.update_of_ne hkey]
    simp only [hkey,false_and,not_false_eq_true,true_and]

def answer (n : ℕ) : (c : Command) → Redis → Option (c.Reply × Redis)
  | .get key,r => some (r.read key,r)
  | .set key data,r =>
    some ((),{ r with
      values := Function.update r.values key (some data)
      deadlines := Function.update r.deadlines key none })
  | .expire key seconds,r =>
    some ((),
      if (r.read key).isSome then
        { r with
          deadlines := Function.update r.deadlines key (some (r.clock.instant+10^9*seconds)) }
      else r)
  | .del key,r => some ((),{ r with values := Function.update r.values key none })
  | .zadd key score member,r => some ((),r.added key score member)
  | .zrem key member,r => some ((),r.removed key member)
  | .bzpopmax key timeout,r =>
    match (r.sets key).greatest with
    | some ⟨member,score⟩ => some (some (key,member,score),r.removed key member)
    | none => if timeout = 0 then none else some (none,r)
  | .publish channel payload,r =>
    some ((),{ r with inboxes := fun k => (r.inboxes k).map (deliver channel payload) })
  | .subscribe channel,r =>
    some ((),{ r with inboxes := Function.update r.inboxes n (some (channel,[])) })
  | .message readable deadline,r =>
    match ((r.inboxes n).map (·.2)).getD [] |>.find? readable with
    | some payload => some (some payload,r)
    | none => if deadline ≤ r.clock.instant then some (none,r) else none

def server : Server interface Redis where
  clock := Redis.clock
  answer := Redis.answer

section Pop

variable {r : Redis} {key member : String} {score : ℤ}

theorem answer_pop (h : (r.sets key).greatest = some ⟨member,score⟩) (n timeout : ℕ) :
    server.answer n (.bzpopmax key timeout) r =
      some (some (key,member,score),r.removed key member) := by
  simp only [server,answer,h]

theorem answer_pop_empty (h : (r.sets key).greatest = none) (n timeout : ℕ) :
    server.answer n (.bzpopmax key timeout) r =
      if timeout = 0 then none else some (none,r) := by
  simp only [server,answer,h]

end Pop

/-! ## What an answer can do -/

inductive Answered (n : ℕ) (r : Redis) : (c : Command) → c.Reply → Redis → Prop
  | get (key : String) : Answered n r (.get key) (r.read key) r
  | set (key : String) (data : List UInt8) : Answered n r (.set key data) ()
      { r with
        values := Function.update r.values key (some data)
        deadlines := Function.update r.deadlines key none }
  | expire (key : String) (seconds : ℕ) : Answered n r (.expire key seconds) ()
      { r with
        deadlines := Function.update r.deadlines key (some (r.clock.instant+10^9*seconds)) }
  | expireAbsent (key : String) (seconds : ℕ) : Answered n r (.expire key seconds) () r
  | del (key : String) : Answered n r (.del key) ()
      { r with values := Function.update r.values key none }
  | zadd (key : String) (score : ℤ) (member : String) :
      Answered n r (.zadd key score member) () (r.added key score member)
  | zrem (key member : String) : Answered n r (.zrem key member) () (r.removed key member)
  | popped (key : String) (timeout : ℕ) (member : String) (score : ℤ) :
      Answered n r (.bzpopmax key timeout) (some (key,member,score)) (r.removed key member)
  | nonePopped (key : String) (timeout : ℕ) : Answered n r (.bzpopmax key timeout) none r
  | publish (channel payload : String) : Answered n r (.publish channel payload) ()
      { r with inboxes := fun k => (r.inboxes k).map (deliver channel payload) }
  | subscribe (channel : String) : Answered n r (.subscribe channel) ()
      { r with inboxes := Function.update r.inboxes n (some (channel,[])) }
  | message (readable : String → Bool) (deadline : ℕ) (channel payload : String)
      (payloads : List String) (hinbox : r.inboxes n = some (channel,payloads))
      (hmem : payload ∈ payloads) : Answered n r (.message readable deadline) (some payload) r
  | noMessage (readable : String → Bool) (deadline : ℕ) :
      Answered n r (.message readable deadline) none r

theorem answered_of {n : ℕ} {c : Command} {r r' : Redis} {reply : c.Reply}
    (h : server.answer n c r = some (reply,r')) : Answered n r c reply r' := by
  cases c with
  | get key => cases h; exact .get key
  | set key data => cases h; exact .set key data
  | expire key seconds =>
    cases h
    split
    · exact .expire key seconds
    · exact .expireAbsent key seconds
  | del key => cases h; exact .del key
  | zadd key score member => cases h; exact .zadd key score member
  | zrem key member => cases h; exact .zrem key member
  | bzpopmax key timeout =>
    cases htop : (r.sets key).greatest with
    | none =>
      rw [answer_pop_empty htop] at h
      split at h
      · cases h
      · cases h
        exact .nonePopped key timeout
    | some e =>
      rw [answer_pop htop] at h
      cases h
      exact .popped key timeout e.1 e.2
  | publish channel payload => cases h; exact .publish channel payload
  | subscribe channel => cases h; exact .subscribe channel
  | message readable deadline =>
    simp only [server,answer] at h
    split at h
    · rename_i payload hfind
      cases h
      have hmem := List.mem_of_find?_eq_some hfind
      cases hinbox : r.inboxes n with
      | none =>
        rw [hinbox] at hmem
        cases hmem
      | some inbox =>
        rw [hinbox] at hmem
        exact .message readable deadline inbox.1 payload inbox.2 hinbox hmem
    · split at h
      · cases h
        exact .noMessage readable deadline
      · cases h

def send (c : Command) : Call interface c.Reply := Call.send (I := interface) c

def get (key : String) : Call interface (Option (List UInt8)) := send (.get key)

def set (key : String) (data : List UInt8) : Call interface Unit := send (.set key data)

def expire (key : String) (seconds : ℕ) : Call interface Unit := send (.expire key seconds)

def del (key : String) : Call interface Unit := send (.del key)

def zadd (key : String) (score : ℤ) (member : String) : Call interface Unit :=
  send (.zadd key score member)

def zrem (key member : String) : Call interface Unit := send (.zrem key member)

def bzpopmax (key : String) (timeout : ℕ) : Call interface (Option (String × String × ℤ)) :=
  send (.bzpopmax key timeout)

def publish (channel payload : String) : Call interface Unit := send (.publish channel payload)

def subscribe (channel : String) : Call interface Unit := send (.subscribe channel)

def message (readable : String → Bool) (deadline : ℕ) : Call interface (Option String) :=
  send (.message readable deadline)

def wait (r : Redis) (duration utc : ℕ) : Redis :=
  { r with clock := ⟨r.clock.instant+duration,utc⟩ }

end Redis

end DiamondBot.Network
