import DiamondBot.Library.AtomicRun
import DiamondBot.Library.Json
import Mathlib.Data.List.DropRight
import Mathlib.Data.List.Forall2

/-!
# The Redis queue

Items are pushed to a list of Redis as JSON texts and popped at its other end.
The reply to a pop has two texts, the name of the queue and the item; the
client library makes one text of it in a way of its own, and the service takes
that text apart again at its commas, when the item has already left the list.
-/

set_option autoImplicit false

namespace DiamondBot.RedisQueueService
open Library

variable {T : Type}

abbrev Conversion := String → String → Except String String

def joined : Conversion := fun name value => .ok (String.ofList (name.toList++ ','::value.toList))

def refused : Conversion := fun _ _ => .error "Response type not string compatible."

def isWhitespace (c : Char) : Bool :=
  c.toNat ∈ [9,10,11,12,13,32,0x85,0xA0,0x1680,0x2028,0x2029,0x202F,0x205F,0x3000] ||
    (0x2000 ≤ c.toNat && c.toNat ≤ 0x200A)

def trim (text : List Char) : List Char :=
  (text.dropWhile isWhitespace).rdropWhile isWhitespace

def readReply (json : Json T) (data : String) : Except String (Option T) :=
  match data.toList.splitOn ',' with
  | [_,value] =>
    match json.fromText (String.ofList (trim value)) with
    | .ok item => .ok (some item)
    | .error e => .error e
  | _ => .error "Unexpected BLPOP response format"

def enqueue (json : Json T) (items : List String) (item : T) (connection : Except String Unit)
    (command : Except String Unit) : Except String Unit × List String :=
  match connection with
  | .error e => (.error e,items)
  | .ok _ =>
    match json.toText item with
    | .error e => (.error e,items)
    | .ok serialized =>
      match command with
      | .error e => (.error s!"Redis enqueue error: {e}",items)
      | .ok _ => (.ok (),items++[serialized])

def dequeue (json : Json T) (name : String) (items : List String)
    (connection : Except String Unit) (command : Except String Conversion) :
    Except String (Option T) × List String :=
  match connection with
  | .error e => (.error e,items)
  | .ok _ =>
    match command with
    | .error e => (.error s!"Redis dequeue error: {e}",items)
    | .ok conversion =>
      match items with
      | [] => (.ok none,[])
      | value::rest =>
        match conversion name value with
        | .ok data => (readReply json data,rest)
        | .error e => (.error s!"Redis dequeue error: {e}",rest)

/-! ## Clients of one queue -/

structure Queue (T : Type) where
  name : String
  items : List String
  enqueued : List T
  returned : List T
  lost : List String

inductive Action (T : Type)
  | enqueue (item : T) (connection command : Except String Unit)
  | dequeue (connection : Except String Unit) (command : Except String Conversion)

namespace Queue

variable (json : Json T)

def start (name : String) : Queue T where
  name
  items := []
  enqueued := []
  returned := []
  lost := []

def afterEnqueue (q : Queue T) (item : T) (result : Except String Unit × List String) : Queue T :=
  { q with
    items := result.2
    enqueued :=
      match result.1 with
      | .ok _ => q.enqueued++[item]
      | .error _ => q.enqueued }

def afterDequeue (q : Queue T) (result : Except String (Option T) × List String) : Queue T :=
  match result.1 with
  | .ok none => { q with items := result.2 }
  | .ok (some item) => { q with items := result.2, returned := q.returned++[item] }
  | .error _ => { q with
      items := result.2
      lost := q.lost++q.items.take (q.items.length-result.2.length) }

def next (q : Queue T) : Action T → Queue T
  | .enqueue item connection command =>
    q.afterEnqueue item (enqueue json q.items item connection command)
  | .dequeue connection command =>
    q.afterDequeue (dequeue json q.name q.items connection command)

/-- The items come out as they went in, in their order, and none gets lost. -/
def Faithful (q : Queue T) : Prop := q.returned <+: q.enqueued ∧ q.lost = []

/-- The text made of a reply has one comma, and what follows it is, trimmed, a
text of the item. -/
def ReadsBack (name value : String) (conversion : Conversion) : Prop :=
  ∃ data before after, conversion name value = .ok data ∧ data.toList = before++ ','::after ∧
    ',' ∉ before ∧ ',' ∉ after ∧
    json.fromText (String.ofList (trim after)) = json.fromText value

/-- Every item popped can be read back from the reply. -/
def PopsReadable (q : Queue T) : Action T → Prop
  | .dequeue (.ok _) (.ok conversion) =>
    ∀ value rest, q.items = value::rest → ReadsBack json q.name value conversion
  | _ => True

/-! ## Taking a reply apart -/

theorem splitOn_pair {α : Type} [DecidableEq α] {l x y : List α} {a : α} :
    l.splitOn a = [x,y] ↔ l = x++a::y ∧ a ∉ x ∧ a ∉ y := by
  have hsingle : ∀ z : List α, z.splitOn a = [z] → a ∉ z := by
    intro z hz ha
    obtain ⟨before,after,rfl⟩ := List.append_of_mem ha
    rw [List.splitOn_append_cons_self] at hz
    have hlen := congrArg List.length hz
    have hbefore := List.length_pos_iff.mpr (List.splitOn_ne_nil a before)
    have hafter := List.length_pos_iff.mpr (List.splitOn_ne_nil a after)
    rw [List.length_append,List.length_singleton] at hlen
    omega
  constructor
  · intro h
    have hl : l = x++a::y := by
      have hjoin : [a].intercalate (l.splitOn a) = l := List.intercalate_splitOn a
      rw [h] at hjoin
      simpa [List.intercalate] using hjoin.symm
    subst hl
    rw [List.splitOn_append_cons_self] at h
    have hlen := congrArg List.length h
    have hxpos := List.length_pos_iff.mpr (List.splitOn_ne_nil a x)
    have hypos := List.length_pos_iff.mpr (List.splitOn_ne_nil a y)
    simp only [List.length_append,List.length_cons,List.length_nil] at hlen
    obtain ⟨x',hx⟩ := List.length_eq_one_iff.mp (show (x.splitOn a).length = 1 by omega)
    rw [hx] at h
    injection h with hx' hy
    subst hx'
    exact ⟨rfl,hsingle _ hx,hsingle _ hy⟩
  · rintro ⟨rfl,hx,hy⟩
    rw [List.splitOn_append_cons_self,List.splitOn_eq_singleton hx,List.splitOn_eq_singleton hy]
    rfl

variable {json}

theorem readReply_some {data : String} {item : T} : readReply json data = .ok (some item) ↔
    ∃ before after, data.toList = before++ ','::after ∧ ',' ∉ before ∧ ',' ∉ after ∧
      json.fromText (String.ofList (trim after)) = .ok item := by
  unfold readReply
  constructor
  · intro h
    split at h
    · rename_i before after hparts
      obtain ⟨hdata,hbefore,hafter⟩ := splitOn_pair.mp hparts
      refine ⟨before,after,hdata,hbefore,hafter,?_⟩
      split at h
      · rename_i item' hitem
        cases h
        exact hitem
      · cases h
    · cases h
  · rintro ⟨before,after,hdata,hbefore,hafter,hitem⟩
    rw [splitOn_pair.mpr ⟨hdata,hbefore,hafter⟩]
    dsimp only
    rw [hitem]

theorem readReply_ne_none {data : String} : readReply json data ≠ .ok none := by
  unfold readReply
  split
  · split
    · exact fun h => nomatch h
    · exact fun h => nomatch h
  · exact fun h => nomatch h

/-- A pop returns the item exactly when the reply can be read back. -/
theorem dequeue_some_iff (name : String) {value : String} (rest : List String) {item : T}
    (conversion : Conversion) (hitem : json.fromText value = .ok item) :
    (dequeue json name (value::rest) (.ok ()) (.ok conversion)).1 = .ok (some item) ↔
      ReadsBack json name value conversion := by
  unfold dequeue ReadsBack
  dsimp only
  cases hconv : conversion name value with
  | error e =>
    apply iff_of_false
    · exact fun h => nomatch h
    · rintro ⟨_,_,_,⟨⟩,_⟩
  | ok data =>
    dsimp only
    rw [readReply_some,hitem]
    constructor
    · rintro ⟨before,after,h⟩
      exact ⟨data,before,after,rfl,h⟩
    · rintro ⟨_,before,after,⟨⟩,h⟩
      exact ⟨before,after,h⟩

/-! ## What the client library makes of a reply -/

theorem not_readsBack_refused (json : Json T) (name value : String) :
    ¬ReadsBack json name value refused := by
  rintro ⟨_,_,_,⟨⟩,_⟩

theorem trim_quote (s : List Char) : trim (Json.quote s) = Json.quote s := by
  have hfront : (Json.quote s).dropWhile isWhitespace = Json.quote s := rfl
  rw [trim,hfront,Json.quote,← List.cons_append,List.rdropWhile_concat_neg]
  decide

/-- A string comes back when no comma is in it or in the name of the queue. -/
theorem readsBack_joined {name item : String} :
    ReadsBack Json.string name (String.ofList (Json.quote item.toList)) joined ↔
      ',' ∉ name.toList ∧ ',' ∉ item.toList := by
  rw [← Json.comma_mem_quote (s := item.toList)]
  unfold ReadsBack joined
  simp only [Except.ok.injEq,String.toList_ofList]
  constructor
  · rintro ⟨_,before,after,rfl,hdata,hbefore,hafter,_⟩
    have hcount := congrArg (List.count ',') hdata
    rw [String.toList_ofList] at hcount
    simp only [List.count_append,List.count_cons_self,List.count_eq_zero_of_not_mem hbefore,
      List.count_eq_zero_of_not_mem hafter] at hcount
    exact ⟨List.count_eq_zero.mp (by omega),List.count_eq_zero.mp (by omega)⟩
  · rintro ⟨hname,hitem⟩
    refine ⟨_,name.toList,Json.quote item.toList,rfl,String.toList_ofList,hname,hitem,?_⟩
    rw [trim_quote]

/-! ## One call -/

variable (json) in
structure Matched (q : Queue T) (pending : List T) : Prop where
  order : q.enqueued = q.returned++pending
  texts : List.Forall₂ (fun value item => json.toText item = .ok value) q.items pending
  kept : q.lost = []

theorem faithful_of_matched {q : Queue T} {pending : List T} (h : q.Matched json pending) :
    q.Faithful := by
  refine ⟨?_,h.kept⟩
  rw [h.order]
  exact List.prefix_append _ _

variable (json) in
theorem enqueue_cases (items : List String) (item : T) (connection command : Except String Unit) :
    (∃ e, enqueue json items item connection command = (.error e,items)) ∨
      ∃ serialized, json.toText item = .ok serialized ∧
        enqueue json items item connection command = (.ok (),items++[serialized]) := by
  unfold enqueue
  split
  · exact Or.inl ⟨_,rfl⟩
  · split
    · exact Or.inl ⟨_,rfl⟩
    · rename_i serialized htext
      split
      · exact Or.inl ⟨_,rfl⟩
      · exact Or.inr ⟨serialized,htext,rfl⟩

theorem enqueue_matched {q : Queue T} {pending : List T} (h : q.Matched json pending) (item : T)
    (connection command : Except String Unit) :
    ∃ pending', (q.next json (.enqueue item connection command)).Matched json pending' := by
  rcases enqueue_cases json q.items item connection command with
    ⟨e,hfail⟩ | ⟨serialized,htext,hpush⟩
  · refine ⟨pending,?_⟩
    rw [next,hfail]
    exact h
  · refine ⟨pending++[item],?_⟩
    rw [next,hpush]
    refine ⟨?_,?_,h.kept⟩
    · change q.enqueued++[item] = q.returned++(pending++[item])
      rw [h.order,List.append_assoc]
    · exact List.rel_append h.texts (List.Forall₂.cons htext List.Forall₂.nil)

theorem afterDequeue_failed (q : Queue T) (e : String) :
    q.afterDequeue (.error e,q.items) = q := by
  simp [afterDequeue]

theorem afterDequeue_lost {q : Queue T} {value : String} {rest : List String}
    (hitems : q.items = value::rest) (e : String) :
    q.afterDequeue (.error e,rest) = { q with items := rest, lost := q.lost++[value] } := by
  simp [afterDequeue,hitems]

variable (json) in
theorem dequeue_rest (name value : String) (rest : List String) (conversion : Conversion) :
    (dequeue json name (value::rest) (.ok ()) (.ok conversion)).2 = rest := by
  unfold dequeue
  dsimp only
  split <;> rfl

variable (json) in
theorem dequeue_ne_none (name value : String) (rest : List String) (conversion : Conversion) :
    (dequeue json name (value::rest) (.ok ()) (.ok conversion)).1 ≠ .ok none := by
  unfold dequeue
  dsimp only
  split
  · exact readReply_ne_none
  · exact fun h => nomatch h

/-- A pop keeps the queue faithful exactly when its reply can be read back. -/
theorem pop_matched {q : Queue T} {value : String} {rest : List String} {item : T}
    {pending : List T} (hitems : q.items = value::rest) (h : q.Matched json (item::pending))
    (conversion : Conversion) :
    (ReadsBack json q.name value conversion →
      (q.next json (.dequeue (.ok ()) (.ok conversion))).Matched json pending) ∧
    ((q.next json (.dequeue (.ok ()) (.ok conversion))).Faithful →
      ReadsBack json q.name value conversion) := by
  have htexts := h.texts
  rw [hitems,List.forall₂_cons] at htexts
  have hread := dequeue_some_iff q.name rest conversion (json.roundTrip item value htexts.1)
  have hrest := dequeue_rest json q.name value rest conversion
  have hnone := dequeue_ne_none json q.name value rest conversion
  rw [next,hitems]
  rw [← hread]
  generalize dequeue json q.name (value::rest) (.ok ()) (.ok conversion) = result at hrest hnone ⊢
  obtain ⟨result,rest'⟩ := result
  dsimp only at hrest hnone ⊢
  subst hrest
  constructor
  · rintro rfl
    refine ⟨?_,htexts.2,h.kept⟩
    change q.enqueued = q.returned++[item]++pending
    rw [h.order,List.append_assoc,List.singleton_append]
  · intro hfaithful
    match result,hnone,hfaithful with
    | .ok none,hnone,_ => exact absurd rfl hnone
    | .ok (some item'),_,hfaithful =>
      have hhead : q.returned++[item'] <+: q.enqueued := hfaithful.1
      rw [h.order,List.prefix_append_right_inj,List.cons_prefix_cons] at hhead
      rw [hhead.1]
    | .error e,_,hfaithful =>
      rw [afterDequeue_lost hitems] at hfaithful
      exact absurd hfaithful.2 (by simp)

theorem dequeue_matched {q : Queue T} {pending : List T} (h : q.Matched json pending)
    (connection : Except String Unit) (command : Except String Conversion) :
    (q.PopsReadable json (.dequeue connection command) →
      ∃ pending', (q.next json (.dequeue connection command)).Matched json pending') ∧
    ((q.next json (.dequeue connection command)).Faithful →
      q.PopsReadable json (.dequeue connection command)) := by
  cases connection with
  | error e =>
    have hsame : q.next json (.dequeue (.error e) command) = q := afterDequeue_failed q e
    exact ⟨fun _ => ⟨pending,by rw [hsame]; exact h⟩,fun _ => trivial⟩
  | ok u =>
    cases command with
    | error e =>
      have hsame : q.next json (.dequeue (.ok u) (.error e)) = q := afterDequeue_failed q _
      exact ⟨fun _ => ⟨pending,by rw [hsame]; exact h⟩,fun _ => trivial⟩
    | ok conversion =>
      cases hitems : q.items with
      | nil =>
        have hsame : q.next json (.dequeue (.ok u) (.ok conversion)) = { q with items := [] } := by
          rw [next,hitems]
          rfl
        refine ⟨fun _ => ⟨pending,?_⟩,fun _ value rest hq => ?_⟩
        · rw [hsame,← hitems]
          exact h
        · rw [hitems] at hq
          cases hq
      | cons value rest =>
        have htexts := h.texts
        rw [hitems] at htexts
        obtain ⟨item,pending',_,_,rfl⟩ := List.forall₂_cons_left_iff.mp htexts
        obtain ⟨hkeeps,hreads⟩ := pop_matched hitems h conversion
        constructor
        · exact fun hpops => ⟨pending',hkeeps (hpops value rest hitems)⟩
        · intro hfaithful value' rest' hq
          rw [hitems] at hq
          cases hq
          exact hreads hfaithful

theorem next_matched {q : Queue T} {pending : List T} (a : Action T) (h : q.Matched json pending) :
    (q.PopsReadable json a → ∃ pending', (q.next json a).Matched json pending') ∧
      ((q.next json a).Faithful → q.PopsReadable json a) := by
  cases a with
  | enqueue item connection command =>
    exact ⟨fun _ => enqueue_matched h item connection command,fun _ => trivial⟩
  | dequeue connection command => exact dequeue_matched h connection command

/-! ## All runs -/

/-- In every sequence of calls the queue is faithful exactly when every item
popped can be read back from the reply. -/
theorem faithful_iff (json : Json T) (name : String) (actions : List (Action T)) :
    AtomicRun.Throughout (next json) Faithful actions (start name) ↔
      AtomicRun.Along (next json) (PopsReadable json) actions (start name) := by
  have hstart : (start name : Queue T).Matched json [] := ⟨rfl,List.Forall₂.nil,rfl⟩
  apply AtomicRun.throughout_iff_along_of
    (J := fun q => q.Faithful → ∃ pending, q.Matched json pending) (A := fun _ _ => True)
  · intro q a hq hfaithful _ hnext
    obtain ⟨pending,h⟩ := hq hfaithful
    obtain ⟨hkeeps,hreads⟩ := next_matched a h
    exact hkeeps (hreads hnext)
  · intro q a hq hfaithful _
    obtain ⟨pending,h⟩ := hq hfaithful
    obtain ⟨hkeeps,hreads⟩ := next_matched a h
    refine ⟨hreads,fun hpops => ?_⟩
    obtain ⟨pending',h'⟩ := hkeeps hpops
    exact faithful_of_matched h'
  · exact fun _ => ⟨[],hstart⟩
  · exact faithful_of_matched hstart
  · exact AtomicRun.along_trivial actions _

/-- A comma in an item is taken for the one after the name: the item is popped
and not returned. -/
theorem comma_item_lost : ¬AtomicRun.Throughout (next Json.string) Faithful
    [.enqueue "a,b" (.ok ()) (.ok ()),.dequeue (.ok ()) (.ok joined)] (start "jobs") := by
  intro h
  have hlast : (AtomicRun.run (next Json.string)
      [.enqueue "a,b" (.ok ()) (.ok ()),.dequeue (.ok ()) (.ok joined)]
      (start "jobs")).lost = [] := (AtomicRun.throughout_last h).2
  exact absurd hlast (by decide)

end Queue

end DiamondBot.RedisQueueService
