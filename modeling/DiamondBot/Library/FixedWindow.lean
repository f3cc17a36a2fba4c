import Mathlib.Data.List.Basic
import Mathlib.Data.Nat.Basic

/-!
# Counters over a fixed window

A request that finds no open window opens one at its own instant, later
requests are counted against the limit, and the first request after the width
has passed opens the next window. The windows start where requests do, so an
interval of one width can meet two of them: it holds less than twice the limit,
and at most twice the limit when it holds both its ends.
-/

set_option autoImplicit false

namespace Library.FixedWindow

structure Window where
  count : ℕ
  start : ℕ
deriving DecidableEq

def answer (limit width now : ℕ) : Option Window → Bool × Option Window
  | none => (true,some ⟨1,now⟩)
  | some w =>
    if width ≤ now-w.start then (true,some ⟨1,now⟩)
    else if w.count < limit then (true,some ⟨w.count+1,w.start⟩)
    else (false,some w)

def Closed (width now : ℕ) : Option Window → Prop
  | none => True
  | some w => width ≤ now-w.start

theorem closed_later {width now later : ℕ} {w : Option Window} (h : Closed width now w)
    (hle : now ≤ later) : Closed width later w := by
  cases w with
  | none => trivial
  | some w =>
    change width ≤ now-w.start at h
    show width ≤ later-w.start
    omega

theorem answer_closed {width now : ℕ} {w : Option Window} (limit : ℕ) (h : Closed width now w) :
    answer limit width now w = (true,some ⟨1,now⟩) := by
  cases w with
  | none => rfl
  | some w => simp only [answer,if_pos (show width ≤ now-w.start from h)]

def expire (width now : ℕ) (w : Option Window) : Option Window :=
  w.filter fun v => now-v.start < width

theorem expire_closed {width now : ℕ} {w : Option Window} (h : Closed width now w) :
    expire width now w = none := by
  cases w with
  | none => rfl
  | some v =>
    change width ≤ now-v.start at h
    simp [expire,h]

theorem expire_open {width now : ℕ} {w : Option Window} (h : ¬ Closed width now w) :
    expire width now w = w := by
  cases w with
  | none => rfl
  | some v =>
    have hyoung : now-v.start < width := Nat.lt_of_not_le h
    simp [expire,hyoung]

section Alike

def Alike (width now : ℕ) (w w' : Option Window) : Prop :=
  w = w' ∨ Closed width now w ∧ Closed width now w'

variable {width now : ℕ} {w w' : Option Window}

theorem alike_later {later : ℕ} (h : Alike width now w w') (hle : now ≤ later) :
    Alike width later w w' := by
  rcases h with heq | ⟨hw,hw'⟩
  · exact Or.inl heq
  · exact Or.inr ⟨closed_later hw hle,closed_later hw' hle⟩

theorem alike_answer (limit : ℕ) (h : Alike width now w w') :
    answer limit width now w = answer limit width now w' := by
  rcases h with heq | ⟨hw,hw'⟩
  · rw [heq]
  · rw [answer_closed limit hw,answer_closed limit hw']

theorem alike_forget (h : Alike width now w w') (hw : Closed width now w) :
    Alike width now none w' := by
  rcases h with heq | ⟨_,hw'⟩
  · rw [← heq]
    exact Or.inr ⟨trivial,hw⟩
  · exact Or.inr ⟨trivial,hw'⟩

theorem alike_expire (h : Alike width now w w') :
    Alike width now (expire width now w) (expire width now w') := by
  rcases h with heq | ⟨hw,hw'⟩
  · exact Or.inl (congrArg _ heq)
  · left
    rw [expire_closed hw,expire_closed hw']

end Alike

section Counting

variable {α : Type*} {p q r : α → Bool} {l : List α}

theorem countP_le_add (h : ∀ a ∈ l, p a = true → q a = true ∨ r a = true) :
    l.countP p ≤ l.countP q+l.countP r := by
  induction l with
  | nil => simp
  | cons a l ih =>
    have hrest := ih fun b hb => h b (List.mem_cons_of_mem _ hb)
    have hhead := h a List.mem_cons_self
    simp only [List.countP_cons]
    by_cases hp : p a = true
    · rw [if_pos hp]
      rcases hhead hp with hq | hr
      · rw [if_pos hq]
        omega
      · rw [if_pos hr]
        omega
    · rw [if_neg hp]
      omega

theorem countP_lt {a : α} (h : ∀ b ∈ l, q b = true → p b = true) (ha : a ∈ l)
    (hp : p a = true) (hq : ¬ q a = true) : l.countP q < l.countP p := by
  induction l with
  | nil => simp at ha
  | cons b l ih =>
    have htail : ∀ c ∈ l, q c = true → p c = true := fun c hc => h c (List.mem_cons_of_mem _ hc)
    have hmono := List.countP_mono_left htail
    simp only [List.countP_cons]
    rcases List.mem_cons.mp ha with heq | hmem
    · rw [← heq,if_pos hp,if_neg hq]
      omega
    · have hrest := ih htail hmem
      by_cases hb : q b = true
      · rw [if_pos hb,if_pos (h b List.mem_cons_self hb)]
        omega
      · rw [if_neg hb]
        omega

end Counting

/-- What the instants of the admitted requests and the window say of each other. The
slack is one for intervals that hold both their ends, and zero for those that do not. -/
def Counted (limit width now : ℕ) (admitted : List ℕ) : Option Window → Prop
  | none =>
    (∀ a ∈ admitted, a < now) ∧
      ∀ slack ≤ 1, admitted.countP (fun a => now < a+width+slack) < limit+slack
  | some w =>
    w.start ∈ admitted ∧ (∀ a ∈ admitted, a ≤ now ∧ a < w.start+width) ∧
      admitted.countP (fun a => w.start ≤ a) = w.count ∧ w.count ≤ limit ∧
      ∀ slack ≤ 1,
        admitted.countP (fun a => a < w.start ∧ w.start < a+width+slack) < limit+slack

/-- No interval of one width holds twice the limit; with both its ends it may hold
just as many. -/
def Spread (slack limit width : ℕ) (admitted : List ℕ) : Prop :=
  ∀ t, admitted.countP (fun a => t ≤ a ∧ a < t+width+slack) ≤ 2*limit-1+slack

variable {limit width now slack : ℕ} {admitted : List ℕ}

theorem counted_nil (hlimit : 1 ≤ limit) (width now : ℕ) : Counted limit width now [] none :=
  ⟨by simp,fun slack _ => by simp; omega⟩

theorem spread_nil (slack limit width : ℕ) : Spread slack limit width [] :=
  fun _ => Nat.zero_le _

theorem counted_later {later : ℕ} {w : Option Window} (h : Counted limit width now admitted w)
    (hle : now ≤ later) : Counted limit width later admitted w := by
  cases w with
  | none =>
    constructor
    · intro a ha
      have hpast := h.1 a ha
      omega
    · intro slack hslack
      apply Nat.lt_of_le_of_lt _ (h.2 slack hslack)
      apply List.countP_mono_left
      intro a _ hrecent
      simp only [decide_eq_true_eq] at hrecent ⊢
      omega
  | some w =>
    obtain ⟨hstart,hall,hcount⟩ := h
    exact ⟨hstart,fun a ha => ⟨Nat.le_trans (hall a ha).1 hle,(hall a ha).2⟩,hcount⟩

/-- A window that has passed leaves less than the limit behind: the request that
opened it is a width ago. -/
theorem counted_forget {w : Option Window} (h : Counted limit width now admitted w)
    (hclosed : Closed width now w) : Counted limit width now admitted none := by
  cases w with
  | none => exact h
  | some w =>
    obtain ⟨hstart,hall,hcount,hlimit,_⟩ := h
    change width ≤ now-w.start at hclosed
    have hopened := (hall _ hstart).1
    constructor
    · intro a ha
      have hlast := (hall a ha).2
      omega
    · intro slack hslack
      rcases Nat.le_one_iff_eq_zero_or_eq_one.mp hslack with rfl | rfl
      · have hless : admitted.countP (fun a => now < a+width+0) <
            admitted.countP (fun a => w.start ≤ a) := by
          apply countP_lt (fun a _ ha => ?_) hstart
          · simp
          · simp only [decide_eq_true_eq]
            omega
          · simp only [decide_eq_true_eq] at ha ⊢
            omega
        omega
      · have hmost : admitted.countP (fun a => now < a+width+1) ≤
            admitted.countP (fun a => w.start ≤ a) := by
          apply List.countP_mono_left
          intro a _ ha
          simp only [decide_eq_true_eq] at ha ⊢
          omega
        omega

theorem expire_counted {w : Option Window} (h : Counted limit width now admitted w) :
    Counted limit width now admitted (expire width now w) := by
  by_cases hclosed : Closed width now w
  · rw [expire_closed hclosed]
    exact counted_forget h hclosed
  · rw [expire_open hclosed]
    exact h

/-- The request that opens a window. -/
theorem counted_open (hlimit : 1 ≤ limit) (hwidth : 1 ≤ width)
    (h : Counted limit width now admitted none) :
    Counted limit width now (admitted++[now]) (some ⟨1,now⟩) := by
  have hnone : admitted.countP (fun a => now ≤ a) = 0 := by
    rw [List.countP_eq_zero]
    intro a ha hle
    have hpast := h.1 a ha
    have hnow := of_decide_eq_true hle
    omega
  refine ⟨by simp,?_,?_,hlimit,?_⟩
  · intro a ha
    rcases List.mem_append.mp ha with hold | hnew
    · have hpast := h.1 a hold
      show a ≤ now ∧ a < now+width
      omega
    · have heq := List.mem_singleton.mp hnew
      show a ≤ now ∧ a < now+width
      omega
  · simp [List.countP_append,hnone]
  · intro slack hslack
    have hprevious : admitted.countP (fun a => a < now ∧ now < a+width+slack) ≤
        admitted.countP (fun a => now < a+width+slack) := by
      apply List.countP_mono_left
      intro a _ ha
      simp only [decide_eq_true_eq] at ha ⊢
      exact ha.2
    rw [List.countP_append,List.countP_singleton,if_neg (by simp)]
    exact Nat.lt_of_le_of_lt hprevious (h.2 slack hslack)

/-- A request counted in the open window. -/
theorem counted_more {w : Window} (h : Counted limit width now admitted (some w))
    (hopen : ¬ width ≤ now-w.start) (hroom : w.count < limit) :
    Counted limit width now (admitted++[now]) (some ⟨w.count+1,w.start⟩) := by
  obtain ⟨hstart,hall,hcount,_,hprevious⟩ := h
  have hopened := (hall _ hstart).1
  refine ⟨List.mem_append_left _ hstart,?_,?_,hroom,?_⟩
  · intro a ha
    rcases List.mem_append.mp ha with hold | hnew
    · exact hall a hold
    · have heq := List.mem_singleton.mp hnew
      show a ≤ now ∧ a < w.start+width
      omega
  · simp [List.countP_append,hcount,hopened]
  · intro slack hslack
    have hnot : ¬ (now < w.start ∧ w.start < now+width+slack) := by omega
    rw [List.countP_append,List.countP_singleton,if_neg (by rwa [decide_eq_true_eq])]
    exact hprevious slack hslack

/-- An interval that holds the instant of an admitted request meets the window
it was counted in and at most the one before. -/
theorem counted_between (hslack : slack ≤ 1) {w : Window}
    (h : Counted limit width now admitted (some w)) {t : ℕ} (hnow : now < t+width+slack) :
    admitted.countP (fun a => t ≤ a ∧ a < t+width+slack) ≤ 2*limit-1+slack := by
  obtain ⟨hstart,hall,hcount,hlimit,hprevious⟩ := h
  have hopened := (hall _ hstart).1
  have hbefore := hprevious slack hslack
  have hsplit : admitted.countP (fun a => t ≤ a ∧ a < t+width+slack) ≤
      admitted.countP (fun a => w.start ≤ a)+
        admitted.countP (fun a => a < w.start ∧ w.start < a+width+slack) := by
    apply countP_le_add
    intro a _ ha
    simp only [decide_eq_true_eq] at ha ⊢
    omega
  omega

theorem spread_snoc (hslack : slack ≤ 1) (h : Spread slack limit width admitted) {w : Window}
    (hw : Counted limit width now (admitted++[now]) (some w)) :
    Spread slack limit width (admitted++[now]) := by
  intro t
  by_cases hnow : t ≤ now ∧ now < t+width+slack
  · exact counted_between hslack hw hnow.2
  · rw [List.countP_append,List.countP_singleton,if_neg (by rwa [decide_eq_true_eq])]
    exact h t

/-- The admitted requests after an answer. -/
def record (admitted : List ℕ) (now : ℕ) (answer : Bool) : List ℕ :=
  if answer then admitted++[now] else admitted

/-- One request keeps the account. -/
theorem answer_counted (hlimit : 1 ≤ limit) (hwidth : 1 ≤ width) {w : Option Window}
    (h : Counted limit width now admitted w) :
    Counted limit width now (record admitted now (answer limit width now w).1)
      (answer limit width now w).2 := by
  by_cases hclosed : Closed width now w
  · rw [answer_closed limit hclosed]
    exact counted_open hlimit hwidth (counted_forget h hclosed)
  · cases w with
    | none => exact absurd trivial hclosed
    | some w =>
      rw [answer,if_neg (show ¬ width ≤ now-w.start from hclosed)]
      by_cases hroom : w.count < limit
      · rw [if_pos hroom]
        exact counted_more h hclosed hroom
      · rw [if_neg hroom]
        exact h

theorem answer_window {w : Option Window} (h : (answer limit width now w).1 = true) :
    ∃ v, (answer limit width now w).2 = some v := by
  cases w with
  | none => exact ⟨_,rfl⟩
  | some v =>
    unfold answer at h ⊢
    by_cases hclosed : width ≤ now-v.start
    · exact ⟨⟨1,now⟩,by simp [hclosed]⟩
    · by_cases hroom : v.count < limit
      · exact ⟨⟨v.count+1,v.start⟩,by simp [hclosed,hroom]⟩
      · simp [hclosed,hroom] at h

/-- A request that keeps the account keeps the bounds. -/
theorem answer_spread (hslack : slack ≤ 1) {w : Option Window}
    (h : Spread slack limit width admitted)
    (hcounted : Counted limit width now (record admitted now (answer limit width now w).1)
      (answer limit width now w).2) :
    Spread slack limit width (record admitted now (answer limit width now w).1) := by
  cases hanswer : (answer limit width now w).1 with
  | false => exact h
  | true =>
    obtain ⟨v,hv⟩ := answer_window hanswer
    rw [hanswer,hv] at hcounted
    exact spread_snoc hslack h hcounted

theorem answer_refused {w : Option Window} (h : (answer limit width now w).1 = false) :
    ∃ v, w = some v ∧ ¬ width ≤ now-v.start ∧ limit ≤ v.count := by
  cases w with
  | none => simp [answer] at h
  | some v =>
    by_cases hclosed : width ≤ now-v.start
    · simp [answer,hclosed] at h
    · by_cases hroom : v.count < limit
      · simp [answer,hclosed,hroom] at h
      · exact ⟨v,rfl,hclosed,Nat.le_of_not_lt hroom⟩

theorem refused_full {w : Option Window} (h : Counted limit width now admitted w)
    (hrefused : (answer limit width now w).1 = false) :
    limit ≤ admitted.countP (fun a => a ≤ now ∧ now < a+width) := by
  obtain ⟨v,hv,hopen,hfull⟩ := answer_refused hrefused
  subst hv
  obtain ⟨hstart,hall,hcount,_,_⟩ := h
  have hopened := (hall _ hstart).1
  calc limit ≤ v.count := hfull
    _ = admitted.countP (fun a => v.start ≤ a) := hcount.symm
    _ ≤ admitted.countP (fun a => a ≤ now ∧ now < a+width) := by
      apply List.countP_mono_left
      intro a hmem ha
      have hpast := (hall a hmem).1
      simp only [decide_eq_true_eq] at ha ⊢
      omega

end Library.FixedWindow
