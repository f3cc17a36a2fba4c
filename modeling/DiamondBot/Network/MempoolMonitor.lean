import DiamondBot.Library.AtomicRun
import Mathlib.Data.List.Nodup
import Mathlib.Data.List.Range

/-!
# Starting and stopping the mempool monitor

A monitoring loop reads the running flag once a round and ends when it finds it
cleared. Control calls come one after the other, each in several steps, and any
loop takes its steps between them. The loops read the flag of the extension.
-/

set_option autoImplicit false

namespace DiamondBot.Network.MempoolMonitor
open Library AtomicRun

structure MempoolMonitorConfig where
  monitorIntervalSec : ℕ
  alertThreshold : ℕ
  chainsToMonitor : List ℕ
  deriving DecidableEq

inductive Stage where
  | checking
  | ticking
  | ended
  deriving DecidableEq

structure MonitorLoop where
  interval : ℕ
  chains : List ℕ
  stage : Stage
  deriving DecidableEq

inductive Call where
  | activate
  | deactivate
  /-- What the given value reads as, if it is a configuration. -/
  | updateConfig (config : Option MempoolMonitorConfig)
  deriving DecidableEq

/-- What the current call does next. -/
inductive Control where
  | idle
  | updating (newConfig : MempoolMonitorConfig) (restartRequired : Bool)
  | asking (restartRequired : Bool)
  | stopping
  | restarting
  | starting (config : MempoolMonitorConfig)
  | spawning (config : MempoolMonitorConfig)
  deriving DecidableEq

structure MempoolMonitorExtension where
  config : MempoolMonitorConfig
  running : Bool
  loops : List MonitorLoop
  control : Control
  calls : List Call
  deriving DecidableEq

inductive Step where
  | control
  /-- The statistics of a round may overflow, which ends the task. -/
  | round (i : ℕ) (overflows : Bool)
  deriving DecidableEq

def MonitorLoop.next (running overflows : Bool) (l : MonitorLoop) : MonitorLoop :=
  match l.stage with
  | .checking => {l with stage := if l.interval ≠ 0 ∧ running then .ticking else .ended}
  | .ticking => {l with stage := if overflows ∧ l.chains ≠ [] then .ended else .checking}
  | .ended => l

def MempoolMonitorExtension.spawn (s : MempoolMonitorExtension) (config : MempoolMonitorConfig) :
    MempoolMonitorExtension :=
  {s with
    loops := s.loops++[⟨config.monitorIntervalSec,config.chainsToMonitor,.checking⟩]
    control := .idle}

def restartRequired (current new : MempoolMonitorConfig) : Bool :=
  current.monitorIntervalSec != new.monitorIntervalSec ||
    current.chainsToMonitor != new.chainsToMonitor

def begin (s : MempoolMonitorExtension) : Call → MempoolMonitorExtension
  | .activate => {s with control := .starting s.config}
  | .deactivate => {s with running := false}
  | .updateConfig none => s
  | .updateConfig (some new) => {s with control := .updating new (restartRequired s.config new)}

def advance (s : MempoolMonitorExtension) : MempoolMonitorExtension :=
  match s.control with
  | .idle =>
    match s.calls with
    | [] => s
    | c::calls => begin {s with calls := calls} c
  | .updating new restart => {s with config := new, control := .asking restart}
  | .asking restart => {s with control := if restart && s.running then .stopping else .idle}
  | .stopping => {s with running := false, control := .restarting}
  | .restarting => {s with control := .starting s.config}
  | .starting config => {s with running := true, control := .spawning config}
  | .spawning config => s.spawn config

def next (s : MempoolMonitorExtension) : Step → MempoolMonitorExtension
  | .control => advance s
  | .round i overflows => {s with loops := s.loops.modify i (·.next s.running overflows)}

def created (config : MempoolMonitorConfig) (script : List Call) : MempoolMonitorExtension :=
  ⟨config,false,[],.idle,script⟩

/-! ## What is asked -/

def Running (s : MempoolMonitorExtension) (i : ℕ) : Prop :=
  ∃ l, s.loops[i]? = some l ∧ l.stage ≠ .ended

def rounds (es : List (ℕ × Bool)) : List Step := es.map fun e => .round e.1 e.2

def MonitorLoop.untilChecked (l : MonitorLoop) : ℕ :=
  match l.stage with
  | .checking => 1
  | .ticking => 2
  | .ended => 0

def Checked (s : MempoolMonitorExtension) (es : List (ℕ × Bool)) : Prop :=
  ∀ i l, s.loops[i]? = some l → l.untilChecked ≤ (es.map Prod.fst).count i

def Stopped (made : List Call) : Prop :=
  ∃ before after, made = before ++ .deactivate::after ∧ .activate ∉ after

/-- Between two calls: once every loop has checked the flag, at most one is left,
and none after a deactivation. -/
def OneMonitor (script : List Call) (s : MempoolMonitorExtension) : Prop :=
  s.control = .idle → ∀ made, script = made++s.calls → ∀ es, Checked s es →
    (∀ i j, Running (run next (rounds es) s) i → Running (run next (rounds es) s) j → i = j) ∧
    (Stopped made → ∀ i, ¬Running (run next (rounds es) s) i)

/-- A loop that goes on for as long as the flag is set. -/
def Live (s : MempoolMonitorExtension) (i : ℕ) : Prop :=
  ∃ l, s.loops[i]? = some l ∧ l.stage ≠ .ended ∧ l.interval ≠ 0

/-- A loop is spawned only when every earlier one has ended. -/
def StartsAlone (s : MempoolMonitorExtension) (e : Step) : Prop :=
  ∀ config, e = .control → s.control = .spawning config → config.monitorIntervalSec ≠ 0 →
    ∀ i, ¬Live s i

/-! ## The steps of a loop -/

namespace MonitorLoop

def after (running : Bool) (l : MonitorLoop) (os : List Bool) : MonitorLoop :=
  os.foldl (fun l o => l.next running o) l

theorem next_interval (running o : Bool) (l : MonitorLoop) :
    (l.next running o).interval = l.interval := by
  unfold next
  split <;> rfl

theorem next_ended {running o : Bool} {l : MonitorLoop} (h : l.stage = .ended) :
    l.next running o = l := by
  simp only [next,h]

theorem untilChecked_pos {l : MonitorLoop} (h : l.stage ≠ .ended) : 0 < l.untilChecked := by
  unfold untilChecked
  split
  · decide
  · decide
  · next hl => exact absurd hl h

theorem after_ended {running : Bool} {l : MonitorLoop} (h : l.stage = .ended) (os : List Bool) :
    l.after running os = l := by
  induction os with
  | nil => rfl
  | cons o os ih =>
    change (l.next running o).after running os = l
    rw [next_ended h,ih]

theorem next_failing {running : Bool} (o : Bool) {l : MonitorLoop}
    (h : ¬(l.interval ≠ 0 ∧ running = true)) :
    (l.next running o).untilChecked ≤ l.untilChecked-1 := by
  unfold next
  split
  · next hl =>
    simp only [untilChecked,hl,if_neg h]
    decide
  · next hl =>
    by_cases ho : o ∧ l.chains ≠ []
    · simp [untilChecked,hl,if_pos ho]
    · simp [untilChecked,hl,if_neg ho]
  · next hl => simp only [untilChecked,hl,Nat.zero_le]

theorem after_failing {running : Bool} {l : MonitorLoop} (h : ¬(l.interval ≠ 0 ∧ running = true))
    {os : List Bool} (hos : l.untilChecked ≤ os.length) : (l.after running os).stage = .ended := by
  induction os generalizing l with
  | nil =>
    by_contra hl
    exact absurd hos (Nat.not_le_of_lt (untilChecked_pos hl))
  | cons o os ih =>
    have hnext := next_failing o h
    apply ih (l := l.next running o)
    · rw [next_interval]
      exact h
    · rw [List.length_cons] at hos
      omega

theorem after_live {l : MonitorLoop} (hstage : l.stage ≠ .ended) (hinterval : l.interval ≠ 0)
    {os : List Bool} (hos : ∀ o ∈ os, o = false) : (l.after true os).stage ≠ .ended := by
  induction os generalizing l with
  | nil => exact hstage
  | cons o os ih =>
    obtain ⟨rfl,hrest⟩ := List.forall_mem_cons.mp hos
    have hinterval' : (l.next true false).interval ≠ 0 := by
      rw [next_interval]
      exact hinterval
    apply ih (l := l.next true false) _ hinterval' hrest
    unfold next
    split
    · simp [hinterval]
    · simp
    · next hl => exact absurd hl hstage

end MonitorLoop

/-! ## The loops between two calls -/

def own (i : ℕ) (es : List (ℕ × Bool)) : List Bool := (es.filter (·.1 = i)).map Prod.snd

theorem own_length (i : ℕ) (es : List (ℕ × Bool)) :
    (own i es).length = (es.map Prod.fst).count i := by
  induction es with
  | nil => rfl
  | cons e es ih =>
    simp only [own,List.length_map] at ih ⊢
    by_cases h : e.1 = i
    · simp [h,ih]
    · simp [h,ih]

theorem rounds_loop (es : List (ℕ × Bool)) (s : MempoolMonitorExtension) (i : ℕ) :
    (run next (rounds es) s).loops[i]? =
      (s.loops[i]?).map fun l => l.after s.running (own i es) := by
  induction es generalizing s with
  | nil => exact Option.map_id'.symm
  | cons e es ih =>
    change (run next (rounds es) (next s (.round e.1 e.2))).loops[i]? = _
    rw [ih]
    change ((s.loops.modify e.1 _)[i]?).map _ = _
    rw [List.getElem?_modify]
    cases hl : s.loops[i]? with
    | none => rfl
    | some l =>
      by_cases h : e.1 = i
      · simp [h,own,MonitorLoop.after,next]
      · simp [h,own,next]

theorem running_rounds {s : MempoolMonitorExtension} {es : List (ℕ × Bool)} (hes : Checked s es)
    {i : ℕ} (h : Running (run next (rounds es) s) i) : s.running = true ∧ Live s i := by
  obtain ⟨l',hl',hstage'⟩ := h
  rw [rounds_loop] at hl'
  obtain ⟨l,hl,rfl⟩ := Option.map_eq_some_iff.mp hl'
  have hos := hes i l hl
  rw [← own_length] at hos
  have hpass : l.interval ≠ 0 ∧ s.running = true := by
    by_contra hfail
    exact hstage' (MonitorLoop.after_failing hfail hos)
  refine ⟨hpass.2,l,hl,?_,hpass.1⟩
  intro hended
  rw [MonitorLoop.after_ended hended] at hstage'
  exact hstage' hended

theorem running_of_live {s : MempoolMonitorExtension} (hrunning : s.running = true) {i : ℕ}
    (h : Live s i) {es : List (ℕ × Bool)} (hes : ∀ e ∈ es, e.2 = false) :
    Running (run next (rounds es) s) i := by
  obtain ⟨l,hl,hstage,hinterval⟩ := h
  refine ⟨l.after s.running (own i es),by rw [rounds_loop,hl]; rfl,?_⟩
  rw [hrunning]
  apply MonitorLoop.after_live hstage hinterval
  intro o ho
  obtain ⟨e,he,rfl⟩ := List.mem_map.mp ho
  exact hes e (List.mem_of_mem_filter he)

def twice (n : ℕ) : List (ℕ × Bool) := (List.range n++List.range n).map fun i => (i,false)

theorem twice_checked (s : MempoolMonitorExtension) : Checked s (twice s.loops.length) := by
  intro i l hl
  have hi : i ∈ List.range s.loops.length :=
    List.mem_range.mpr (List.getElem?_eq_some_iff.mp hl).1
  have hcount : (List.range s.loops.length).count i = 1 :=
    List.count_eq_one_of_mem List.nodup_range hi
  have htwice : (twice s.loops.length).map Prod.fst =
      List.range s.loops.length++List.range s.loops.length := by
    simp [twice,Function.comp_def]
  rw [htwice,List.count_append,hcount]
  unfold MonitorLoop.untilChecked
  split <;> decide

theorem twice_smooth {n : ℕ} : ∀ e ∈ twice n, e.2 = false := by
  intro e he
  obtain ⟨i,_,rfl⟩ := List.mem_map.mp he
  rfl

/-! ## The steps of a call -/

/-- No call is about to set the flag. -/
def Quiet : Control → Prop
  | .idle | .updating _ _ | .asking _ => True
  | .stopping | .restarting | .starting _ | .spawning _ => False

structure Consistent (script : List Call) (s : MempoolMonitorExtension) : Prop where
  split : ∃ made, script = made++s.calls
  stopped : ∀ made, script = made++s.calls → Stopped made → s.running = false ∧ Quiet s.control
  spawning : ∀ config, s.control = .spawning config → s.running = true

theorem stopped_append {made : List Call} {c : Call} (h : Stopped (made++[c])) :
    c = .deactivate ∨ c ≠ .activate ∧ Stopped made := by
  obtain ⟨before,after,heq,hafter⟩ := h
  rcases List.eq_nil_or_concat after with rfl | ⟨after',c',rfl⟩
  · obtain ⟨_,hc⟩ := List.append_inj' heq rfl
    cases hc
    exact Or.inl rfl
  · rw [List.concat_eq_append] at heq hafter
    have heq' : made++[c] = (before ++ .deactivate::after')++[c'] := by rw [heq]; simp
    obtain ⟨hmade,hc⟩ := List.append_inj' heq' rfl
    cases hc
    refine Or.inr ⟨fun h => hafter (by simp [h]),before,after',hmade,fun h => hafter (by simp [h])⟩

/-- What has been called grows by the call that begins. -/
theorem consistent_begin {script : List Call} {s : MempoolMonitorExtension} {c : Call}
    {calls : List Call} (h : Consistent script s) (hcontrol : s.control = .idle)
    (hcalls : s.calls = c::calls) : Consistent script (begin {s with calls := calls} c) := by
  obtain ⟨made,hmade⟩ := h.split
  have hgrown : script = (made++[c])++calls := by rw [hmade,hcalls]; simp
  have hrest : (begin {s with calls := calls} c).calls = calls := by
    unfold begin
    split <;> rfl
  refine ⟨⟨made++[c],by rw [hrest,hgrown]⟩,?_,?_⟩
  · intro made' hmade' hstopped
    rw [hrest,hgrown] at hmade'
    rw [← List.append_cancel_right hmade'] at hstopped
    rcases stopped_append hstopped with rfl | ⟨hc,hstopped⟩
    · exact ⟨rfl,by rw [begin,hcontrol]; trivial⟩
    · obtain ⟨hrunning,hquiet⟩ := h.stopped made hmade hstopped
      unfold begin
      split
      · exact absurd rfl hc
      · exact ⟨rfl,hquiet⟩
      · exact ⟨hrunning,hquiet⟩
      · exact ⟨hrunning,trivial⟩
  · intro config hconfig
    unfold begin at hconfig
    split at hconfig
    · cases hconfig
    · cases hcontrol.symm.trans hconfig
    · cases hcontrol.symm.trans hconfig
    · cases hconfig

theorem consistent_inner {script : List Call} {s s' : MempoolMonitorExtension}
    (h : Consistent script s) (hcalls : s'.calls = s.calls)
    (hstopped : s.running = false → Quiet s.control → s'.running = false ∧ Quiet s'.control)
    (hspawning : ∀ config, s'.control = .spawning config → s'.running = true) :
    Consistent script s' := by
  refine ⟨by rw [hcalls]; exact h.split,?_,hspawning⟩
  intro made hmade hst
  rw [hcalls] at hmade
  obtain ⟨hrunning,hquiet⟩ := h.stopped made hmade hst
  exact hstopped hrunning hquiet

theorem consistent_advance {script : List Call} {s : MempoolMonitorExtension}
    (h : Consistent script s) : Consistent script (advance s) := by
  unfold advance
  split
  · next hcontrol =>
    split
    · exact h
    · next c calls hcalls => exact consistent_begin h hcontrol hcalls
  · exact consistent_inner h rfl (fun hr _ => ⟨hr,trivial⟩) (fun _ hc => by cases hc)
  · next restart _ =>
    refine consistent_inner h rfl ?_ ?_
    · intro hrunning _
      simp only [hrunning,Bool.and_false,Bool.false_eq_true,if_false]
      exact ⟨trivial,trivial⟩
    · intro config hc
      change (if _ then Control.stopping else Control.idle) = _ at hc
      split at hc <;> cases hc
  · next hcontrol =>
    exact consistent_inner h rfl (fun _ hq => absurd hq (by rw [hcontrol]; exact id))
      (fun _ hc => by cases hc)
  · next hcontrol =>
    exact consistent_inner h rfl (fun _ hq => absurd hq (by rw [hcontrol]; exact id))
      (fun _ hc => by cases hc)
  · next hcontrol =>
    exact consistent_inner h rfl (fun _ hq => absurd hq (by rw [hcontrol]; exact id))
      (fun _ _ => rfl)
  · next hcontrol =>
    exact consistent_inner h rfl (fun _ hq => absurd hq (by rw [hcontrol]; exact id))
      (fun _ hc => by cases hc)

theorem consistent_next {script : List Call} (s : MempoolMonitorExtension) (e : Step)
    (h : Consistent script s) : Consistent script (next s e) := by
  cases e with
  | control => exact consistent_advance h
  | round i o => exact ⟨h.split,h.stopped,h.spawning⟩

theorem consistent_created (config : MempoolMonitorConfig) (script : List Call) :
    Consistent script (created config script) := by
  refine ⟨⟨[],rfl⟩,?_,fun _ hc => by cases hc⟩
  intro made hmade hstopped
  obtain ⟨before,after,rfl,_⟩ := hstopped
  have hlen := congrArg List.length hmade
  simp only [created,List.length_append,List.length_cons] at hlen
  omega

/-! ## Live loops -/

theorem advance_loops (s : MempoolMonitorExtension) :
    (advance s).loops = s.loops ∨ ∃ config, s.control = .spawning config ∧
      advance s = s.spawn config := by
  unfold advance
  split
  · split
    · exact Or.inl rfl
    · next c calls _ =>
      cases c with
      | activate => exact Or.inl rfl
      | deactivate => exact Or.inl rfl
      | updateConfig config => cases config <;> exact Or.inl rfl
  · exact Or.inl rfl
  · exact Or.inl rfl
  · exact Or.inl rfl
  · exact Or.inl rfl
  · exact Or.inl rfl
  · next config hcontrol => exact Or.inr ⟨config,hcontrol,rfl⟩

theorem live_round {s : MempoolMonitorExtension} {k : ℕ} {o : Bool} {i : ℕ}
    (h : Live (next s (.round k o)) i) : Live s i := by
  obtain ⟨l',hl',hstage,hinterval⟩ := h
  change (s.loops.modify k _)[i]? = some l' at hl'
  rw [List.getElem?_modify] at hl'
  obtain ⟨l,hl,hnext⟩ := Option.map_eq_some_iff.mp hl'
  refine ⟨l,hl,?_⟩
  split at hnext
  · rw [← hnext,MonitorLoop.next_interval] at hinterval
    refine ⟨?_,hinterval⟩
    intro hended
    rw [← hnext,MonitorLoop.next_ended hended] at hstage
    exact hstage hended
  · rw [← hnext] at hstage hinterval
    exact ⟨hstage,hinterval⟩

theorem live_spawn {s : MempoolMonitorExtension} {config : MempoolMonitorConfig} {i : ℕ} :
    Live (s.spawn config) i ↔
      Live s i ∨ i = s.loops.length ∧ config.monitorIntervalSec ≠ 0 := by
  unfold Live MempoolMonitorExtension.spawn
  rcases Nat.lt_trichotomy i s.loops.length with hi | rfl | hi
  · rw [List.getElem?_append_left hi]
    simp only [hi.ne,false_and,or_false]
  · simp
  · rw [List.getElem?_eq_none (by simp; omega),List.getElem?_eq_none (by omega)]
    simp [hi.ne']

def AtMostOne (s : MempoolMonitorExtension) : Prop := ∀ i j, Live s i → Live s j → i = j

theorem atMostOne_next (s : MempoolMonitorExtension) (e : Step) (h : AtMostOne s)
    (halone : StartsAlone s e) : AtMostOne (next s e) := by
  cases e with
  | round k o => exact fun i j hi hj => h i j (live_round hi) (live_round hj)
  | control =>
    rcases advance_loops s with hloops | ⟨config,hcontrol,hspawn⟩
    · intro i j hi hj
      unfold Live at hi hj
      rw [next,hloops] at hi hj
      exact h i j hi hj
    · intro i j hi hj
      rw [next,hspawn,live_spawn] at hi hj
      rcases hi with hi | ⟨rfl,hi⟩ <;> rcases hj with hj | ⟨rfl,hj⟩
      · exact h i j hi hj
      · exact absurd hi (halone config rfl hcontrol hj i)
      · exact absurd hj (halone config rfl hcontrol hi j)
      · rfl

/-! ## One monitor at a time -/

theorem oneMonitor_of_atMostOne {script : List Call} {s : MempoolMonitorExtension}
    (hs : Consistent script s) (h : AtMostOne s) : OneMonitor script s := by
  intro _ made hmade es hes
  constructor
  · intro i j hi hj
    exact h i j (running_rounds hes hi).2 (running_rounds hes hj).2
  · intro hstopped i hi
    have hset := (running_rounds hes hi).1
    rw [(hs.stopped made hmade hstopped).1] at hset
    cases hset

theorem startsAlone_of_oneMonitor {script : List Call} (s : MempoolMonitorExtension) (e : Step)
    (hs : Consistent script s) (h : OneMonitor script (next s e)) : StartsAlone s e := by
  rintro config rfl hcontrol hinterval i hi
  have hspawn : next s .control = s.spawn config := by simp only [next,advance,hcontrol]
  rw [hspawn] at h
  obtain ⟨made,hmade⟩ := hs.split
  have hset : (s.spawn config).running = true := hs.spawning config hcontrol
  have hone := (h rfl made hmade _ (twice_checked _)).1 i s.loops.length
    (running_of_live hset (live_spawn.mpr (Or.inl hi)) twice_smooth)
    (running_of_live hset (live_spawn.mpr (Or.inr ⟨rfl,hinterval⟩)) twice_smooth)
  obtain ⟨l,hl,_⟩ := hi
  exact absurd hone (List.getElem?_eq_some_iff.mp hl).1.ne

/-- In every run at most one monitor is left between calls if and only if every
loop is spawned when all earlier ones have ended. -/
theorem oneMonitor_iff (config : MempoolMonitorConfig) (script : List Call)
    (schedule : List Step) :
    Throughout next (OneMonitor script) schedule (created config script) ↔
      Along next StartsAlone schedule (created config script) := by
  have hcreated := consistent_created config script
  constructor
  · exact along_of_throughout consistent_next
      (fun s e hs _ h => startsAlone_of_oneMonitor s e hs h) hcreated
  · intro halone
    have hinv := throughout_of_along (I := fun s => Consistent script s ∧ AtMostOne s)
      (fun s e hs hr => ⟨consistent_next s e hs.1,atMostOne_next s e hs.2 hr⟩)
      ⟨hcreated,fun i _ hi => absurd hi (by rintro ⟨l,hl,_⟩; cases hl)⟩ halone
    exact throughout_mono (fun s hs => oneMonitor_of_atMostOne hs.1 hs.2) hinv

/-- A new interval restarts the monitor before the old loop has seen the flag cleared. -/
theorem oneMonitor_counterexample :
    ¬∀ config script schedule, Throughout next (OneMonitor script) schedule
      (created config script) := by
  intro h
  have hlast := throughout_last (h ⟨30,5000,[1,56,137]⟩
    [.activate,.updateConfig (some ⟨60,5000,[1,56,137]⟩)]
    (List.replicate 3 .control++[.round 0 false]++List.replicate 7 .control))
  have hone := (hlast rfl _ (List.append_nil _).symm _ (twice_checked _)).1 0 1
    ⟨_,rfl,by decide⟩ ⟨_,rfl,by decide⟩
  cases hone

end DiamondBot.Network.MempoolMonitor
