import DiamondBot.Library.AtomicRun
import DiamondBot.Network.RedisCache

/-!
# Counters in Redis

Any number of clients increment one number. Each call reads the number with one
command and writes the sum with a later one, so a call may write over what
another wrote after the first had read.
-/

set_option autoImplicit false

namespace DiamondBot.Network.Counter
open Library ByteCache

/-! ## Running sums -/

def total (deltas : List Int64) : Int64 := deltas.foldr (· + ·) 0

def Serial : Int64 → List (Int64 × Int64) → Int64 → Prop
  | v,[],v' => v' = v
  | v,(delta,w)::rest,v' => w = v+delta ∧ Serial w rest v'

theorem serial_append {v v' : Int64} {order : List (Int64 × Int64)} (h : Serial v order v')
    (delta : Int64) : Serial v (order++[(delta,v'+delta)]) (v'+delta) := by
  induction order generalizing v with
  | nil =>
    cases h
    exact ⟨rfl,rfl⟩
  | cons c rest ih => exact ⟨h.1,ih h.2⟩

theorem serial_total {v v' : Int64} {order : List (Int64 × Int64)} (h : Serial v order v') :
    v' = v+total (order.map (·.1)) := by
  induction order generalizing v with
  | nil =>
    cases h
    exact (Int64.add_zero _).symm
  | cons c rest ih =>
    rw [ih h.2,h.1,Int64.add_assoc]
    rfl

theorem total_perm {l l' : List Int64} (h : l.Perm l') : total l = total l' := by
  induction h with
  | nil => rfl
  | cons a _ ih => exact congrArg (a+·) ih
  | swap a b l =>
    change b+(a+total l) = a+(b+total l)
    rw [← Int64.add_assoc,Int64.add_comm b a,Int64.add_assoc]
  | trans _ _ ih ih' => exact ih.trans ih'

/-! ## Calls in progress -/

variable (service : RedisCacheService) (key : String)

def numberBytes (v : Int64) : List UInt8 := Bincode.littleEndian 8 v.toUInt64.toNat

def expiring (w : Int64) : Call interface Int64 := do
  Redis.expire key service.redisCache.defaultTtl
  return w

def writing (w : Int64) : Call interface Int64 := do
  Redis.set key (numberBytes w)
  expiring service key w

abbrev Calls := Pool interface Redis Int64 Int64

inductive Action
  | incr (delta : Int64)
  | command (n : ℕ)
  | wait (duration utc : ℕ)

def next (s : Calls) : Action → Calls
  | .incr delta => s.start Redis.server delta (service.incr key delta)
  | .command n => s.proceed Redis.server n none
  | .wait duration utc => { s with state := s.state.wait duration utc }

def result : Int64 × Call interface Int64 → Option (Int64 × Int64)
  | (delta,.done (.ok w)) => some (delta,w)
  | _ => none

def Succeeded (s : Calls) : Prop := ∀ c ∈ s.calls, ∃ w, c.2 = .done (.ok w)

/-- Once all calls have succeeded, the number is the sum, and what they returned
are the running sums of the calls in some order. -/
def Consistent (initial : Int64) (s : Calls) : Prop :=
  Succeeded s →
    s.state.values key = some (numberBytes (initial+total (s.calls.map (·.1)))) ∧
      ∃ order v, Serial initial order v ∧ order.Perm (s.calls.filterMap result)

/-- A number that is read is there and taken for live; when a sum is written,
the number is still the one that was read. -/
def Undisturbed (s : Calls) : Action → Prop
  | .command n =>
    match s.calls[n]? with
    | some (_,.command (.get _) _) =>
      (s.state.read key).isSome ∧ s.state.clock.instant < service.redisCache.platform.restored
    | some (delta,.command (.set _ data) _) =>
      ∃ v, s.state.values key = some (numberBytes v) ∧ data = numberBytes (v+delta)
    | _ => True
  | _ => True

/-! ## One command -/

theorem numberBytes_injective : Function.Injective numberBytes := by
  intro v w h
  have hread := Bincode.i64.roundTrip v (numberBytes v) [] rfl
  rw [h,Bincode.i64.roundTrip w (numberBytes w) [] rfl] at hread
  cases hread
  rfl

variable {service key}

variable (service key) in
theorem incr_read (delta : Int64) : ∃ rest, service.incr key delta = .command (.get key) rest ∧
    ∀ v (now : Clock), now.instant < service.redisCache.platform.restored →
      (rest (.ok (some (numberBytes v)))).settle now = writing service key (v+delta) ∨
        ∃ e, (rest (.ok (some (numberBytes v)))).settle now = .done (.error e) := by
  refine ⟨_,service.redisCache.getFromCache_bind _,fun v now hlive => ?_⟩
  rw [Call.ok_bind,service.redisCache.readEntry_live rfl hlive]
  rw [service.redisCache.storeInCache_settle rfl 0]
  split
  · exact Or.inl rfl
  · exact Or.inr ⟨_,rfl⟩

variable (service key) in
/-- Where a call can be. -/
inductive Stage (delta : Int64) : Call interface Int64 → Prop
  | reading : Stage delta (service.incr key delta)
  | writing (w : Int64) : Stage delta (writing service key w)
  | expiring (w : Int64) : Stage delta (expiring service key w)
  | finished (outcome : Except String Int64) : Stage delta (.done outcome)

def stored : Int64 × Call interface Int64 → Option (Int64 × Int64)
  | (delta,.done (.ok w)) => some (delta,w)
  | (delta,.command (.expire _ _) rest) =>
    match rest (.ok ()) with
    | .done (.ok w) => some (delta,w)
    | _ => none
  | _ => none

variable (service key) in
structure Counts (initial : Int64) (s : Calls) (order : List (Int64 × Int64)) (v : Int64) :
    Prop where
  stages : ∀ c ∈ s.calls, Stage service key c.1 c.2
  value : s.state.values key = some (numberBytes v)
  serial : Serial initial order v
  perm : order.Perm (s.calls.filterMap stored)

theorem filterMap_set {α β : Type} {f : α → Option β} {l : List α} {n : ℕ} {x y : α}
    (hx : l[n]? = some x) (h : f y = f x) : (l.set n y).filterMap f = l.filterMap f := by
  induction l generalizing n with
  | nil => rfl
  | cons a l ih =>
    cases n with
    | zero =>
      cases hx
      rw [List.set_cons_zero,List.filterMap_cons,List.filterMap_cons,h]
    | succ n => rw [List.set_cons_succ,List.filterMap_cons,List.filterMap_cons,ih hx]

theorem filterMap_set_perm {α β : Type} {f : α → Option β} {l : List α} {n : ℕ} {x y : α} {b : β}
    (hx : l[n]? = some x) (hnone : f x = none) (h : f y = some b) :
    ((l.set n y).filterMap f).Perm (l.filterMap f++[b]) := by
  induction l generalizing n with
  | nil => cases hx
  | cons a l ih =>
    cases n with
    | zero =>
      cases hx
      rw [List.set_cons_zero,List.filterMap_cons_some h,List.filterMap_cons_none hnone]
      exact List.perm_append_singleton b _ |>.symm
    | succ n =>
      rw [List.set_cons_succ]
      cases ha : f a with
      | none =>
        rw [List.filterMap_cons_none ha,List.filterMap_cons_none ha]
        exact ih hx
      | some c =>
        rw [List.filterMap_cons_some ha,List.filterMap_cons_some ha]
        exact (ih hx).cons c

theorem counts_move {initial v : Int64} {s : Calls} {order : List (Int64 × Int64)}
    (h : Counts service key initial s order v) {n : ℕ} {delta : Int64}
    {call call' : Call interface Int64} (hcall : s.calls[n]? = some (delta,call))
    (hstage : Stage service key delta call') (hstored : stored (delta,call') = stored (delta,call))
    {state : Redis} (hvalue : state.values key = some (numberBytes v)) :
    Counts service key initial ⟨state,s.calls.set n (delta,call')⟩ order v := by
  refine ⟨fun c hc => ?_,hvalue,h.serial,?_⟩
  · rcases List.mem_or_eq_of_mem_set hc with hold | hnew
    · exact h.stages c hold
    · rw [hnew]
      exact hstage
  · rw [filterMap_set hcall hstored]
    exact h.perm

theorem counts_write {initial v : Int64} {s : Calls} {order : List (Int64 × Int64)}
    (h : Counts service key initial s order v) {n : ℕ} {delta : Int64}
    (hcall : s.calls[n]? = some (delta,writing service key (v+delta)))
    {state : Redis} (hvalue : state.values key = some (numberBytes (v+delta))) :
    Counts service key initial ⟨state,s.calls.set n (delta,expiring service key (v+delta))⟩
      (order++[(delta,v+delta)]) (v+delta) := by
  refine ⟨fun c hc => ?_,hvalue,serial_append h.serial delta,?_⟩
  · rcases List.mem_or_eq_of_mem_set hc with hold | hnew
    · exact h.stages c hold
    · rw [hnew]
      exact Stage.expiring _
  · have hset : ((s.calls.set n (delta,expiring service key (v+delta))).filterMap stored).Perm
        (s.calls.filterMap stored++[(delta,v+delta)]) := filterMap_set_perm hcall rfl rfl
    exact (h.perm.append_right _).trans hset.symm

theorem read_eq {r : Redis} {v : Int64} (hvalue : r.values key = some (numberBytes v))
    (hread : (r.read key).isSome) : r.read key = some (numberBytes v) := by
  unfold Redis.read at hread ⊢
  split
  · rename_i hexpired
    rw [if_pos hexpired] at hread
    cases hread
  · exact hvalue

/-- One command of a call. -/
theorem command_counts {initial v : Int64} {s : Calls} {order : List (Int64 × Int64)}
    (h : Counts service key initial s order v) {n : ℕ}
    (hstep : Undisturbed service key s (.command n)) :
    ∃ order' v', Counts service key initial (next service key s (.command n)) order' v' := by
  rcases Pool.proceed_cases Redis.server s n none with
    ⟨hsame,_⟩ | ⟨delta,c,rest,reply,state,hcall,hreply,hok,hnext⟩
  · exact ⟨order,v,by rw [next,hsame]; exact h⟩
  · rw [next,hnext]
    have hstage := h.stages _ (List.mem_of_getElem? hcall)
    simp only [Undisturbed,hcall] at hstep
    cases hreply with
    | failed e => exact absurd (hok.mp rfl) (by simp)
    | answered hanswer =>
      dsimp only at hstage
      generalize hform : Call.command c rest = call at hstage
      cases hstage with
      | reading =>
        obtain ⟨rest',hincr,hread⟩ := incr_read service key delta
        rw [hincr] at hform
        cases hform
        obtain ⟨hthere,hlive⟩ := hstep
        cases hanswer
        rw [read_eq h.value hthere]
        refine ⟨order,v,?_⟩
        rcases hread v (Redis.server.clock s.state) hlive with hwrite | ⟨e,herror⟩
        · rw [hwrite]
          exact counts_move h hcall (.writing _) rfl h.value
        · rw [herror]
          exact counts_move h hcall (.finished _) rfl h.value
      | writing w =>
        cases hform
        obtain ⟨v',hvalue,hdata⟩ := hstep
        have hv : v' = v := by
          rw [h.value,Option.some_inj] at hvalue
          exact (numberBytes_injective hvalue).symm
        have hw : w = v+delta := by rw [← hv]; exact numberBytes_injective hdata
        subst hw
        cases hanswer
        exact ⟨_,_,counts_write h hcall (Function.update_self _ _ _)⟩
      | expiring w =>
        cases hform
        cases hanswer
        refine ⟨order,v,counts_move h hcall (.finished _) rfl ?_⟩
        split
        · exact h.value
        · exact h.value
      | finished outcome => cases hform

theorem next_counts {initial v : Int64} {s : Calls} {order : List (Int64 × Int64)}
    (h : Counts service key initial s order v) {a : Action}
    (hstep : Undisturbed service key s a) :
    ∃ order' v', Counts service key initial (next service key s a) order' v' := by
  cases a with
  | incr delta =>
    refine ⟨order,v,fun c hc => ?_,h.value,h.serial,?_⟩
    · rcases List.mem_append.mp hc with hold | hnew
      · exact h.stages c hold
      · rw [List.mem_singleton.mp hnew]
        exact Stage.reading
    · change order.Perm ((s.calls++[_]).filterMap stored)
      rw [List.filterMap_append]
      exact h.perm.trans (List.Perm.of_eq (List.append_nil _).symm)
  | command n => exact command_counts h hstep
  | wait duration utc => exact ⟨order,v,h.stages,h.value,h.serial,h.perm⟩

theorem results_of_succeeded {calls : List (Int64 × Call interface Int64)}
    (h : ∀ c ∈ calls, ∃ w, c.2 = .done (.ok w)) :
    calls.filterMap result = calls.filterMap stored ∧
      (calls.filterMap result).map (·.1) = calls.map (·.1) := by
  induction calls with
  | nil => exact ⟨rfl,rfl⟩
  | cons c rest ih =>
    obtain ⟨delta,call⟩ := c
    obtain ⟨w,rfl⟩ := h _ List.mem_cons_self
    obtain ⟨hstored,hdeltas⟩ := ih fun c hc => h c (List.mem_cons_of_mem _ hc)
    exact ⟨congrArg ((delta,w)::·) hstored,congrArg (delta::·) hdeltas⟩

theorem consistent_of_counts {initial v : Int64} {s : Calls} {order : List (Int64 × Int64)}
    (h : Counts service key initial s order v) : Consistent key initial s := by
  intro hdone
  obtain ⟨hstored,hdeltas⟩ := results_of_succeeded hdone
  have hperm : order.Perm (s.calls.filterMap result) := by
    rw [hstored]
    exact h.perm
  have hv : v = initial+total (s.calls.map (·.1)) := by
    rw [serial_total h.serial,total_perm (hperm.map _),hdeltas]
  refine ⟨?_,order,v,h.serial,hperm⟩
  rw [← hv]
  exact h.value

/-! ## All runs -/

/-- In every interleaving in which each sum is written while the number is
still the one its call has read, the number counts all calls. -/
theorem counts_throughout (service : RedisCacheService) (key : String) (initial : Int64)
    (r : Redis) (hinitial : r.values key = some (numberBytes initial)) (actions : List Action)
    (hsteps : AtomicRun.Along (next service key) (Undisturbed service key) actions ⟨r,[]⟩) :
    AtomicRun.Throughout (next service key) (Consistent key initial) actions ⟨r,[]⟩ := by
  have hstart : ∃ order v, Counts service key initial ⟨r,[]⟩ order v :=
    ⟨[],initial,by simp,hinitial,rfl,List.Perm.refl _⟩
  have hcounts := AtomicRun.throughout_of_along
    (I := fun s => ∃ order v, Counts service key initial s order v)
    (fun s a h hstep => by
      obtain ⟨order,v,h⟩ := h
      exact next_counts h hstep) hstart hsteps
  exact AtomicRun.throughout_mono (fun s h => by
    obtain ⟨order,v,h⟩ := h
    exact consistent_of_counts h) hcounts

/-! ## Two calls on one number -/

def exampleService : RedisCacheService := ⟨⟨⟨10^18,10^18⟩,3600⟩⟩

def exampleRedis : Redis :=
  { Redis.empty ⟨0,0⟩ with values := fun _ => some (numberBytes 5) }

theorem counts_one_after_the_other :
    AtomicRun.Throughout (next exampleService "hits") (Consistent "hits" 5)
      [.incr 1,.command 0,.command 0,.command 0,.incr 2,.command 1,.command 1,.command 1]
      ⟨exampleRedis,[]⟩ := by
  refine counts_throughout exampleService "hits" 5 exampleRedis rfl _ ?_
  refine ⟨trivial,⟨rfl,by decide⟩,⟨5,rfl,rfl⟩,trivial,trivial,⟨rfl,by decide⟩,⟨6,rfl,rfl⟩,
    trivial,trivial⟩

/-- Both calls read five, and both write six. -/
theorem increment_lost : ¬AtomicRun.Throughout (next exampleService "hits") (Consistent "hits" 5)
    [.incr 1,.incr 1,.command 0,.command 1,.command 0,.command 1,.command 0,.command 1]
    ⟨exampleRedis,[]⟩ := by
  intro h
  have hcalls : (AtomicRun.run (next exampleService "hits")
      [.incr 1,.incr 1,.command 0,.command 1,.command 0,.command 1,.command 0,.command 1]
      ⟨exampleRedis,[]⟩).calls = [(1,.done (.ok 6)),(1,.done (.ok 6))] := rfl
  obtain ⟨hvalue,_⟩ := AtomicRun.throughout_last h (by
    intro c hc
    rw [hcalls,List.mem_cons,List.mem_singleton] at hc
    rcases hc with rfl | rfl
    · exact ⟨6,rfl⟩
    · exact ⟨6,rfl⟩)
  exact absurd hvalue (by decide)

end DiamondBot.Network.Counter
