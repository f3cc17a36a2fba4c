import Mathlib.Algebra.Group.Action.Defs
import Mathlib.Algebra.Order.BigOperators.Group.List
import Mathlib.Algebra.Order.Ring.Nat
import Mathlib.Data.List.MinMax

/-!
# Averages of whole numbers

Averages are rounded down. One lies between the numbers it is made of, whether
it is made at once from their sum or step by step from the average before.
-/

set_option autoImplicit false

namespace Library.Averages

/-- No smaller than the smallest of them and no larger than the largest. -/
def Between {α : Type*} [LE α] (l : List α) (m : α) : Prop :=
  (∃ a ∈ l, a ≤ m) ∧ ∃ b ∈ l, m ≤ b

section Order

variable {α : Type*} [LinearOrder α] {l l' : List α} {a b m x : α}

theorem between_of_mem (h : m ∈ l) : Between l m := ⟨⟨m,h,le_rfl⟩,m,h,le_rfl⟩

theorem between_mono (h : Between l m) (hsub : l ⊆ l') : Between l' m :=
  let ⟨⟨a,ha,hle⟩,b,hb,hge⟩ := h
  ⟨⟨a,hsub ha,hle⟩,b,hsub hb,hge⟩

theorem between_next (h : Between l m) (hx : Between [m,a] x) : Between (l++[a]) x := by
  obtain ⟨⟨lo,hlo,hlom⟩,hi,hhi,hmhi⟩ := h
  obtain ⟨⟨c,hc,hcx⟩,d,hd,hxd⟩ := hx
  have hlast : a ∈ l++[a] := List.mem_append_right l (List.mem_singleton.mpr rfl)
  constructor
  · rcases List.mem_cons.mp hc with rfl | hc
    · exact ⟨lo,List.mem_append_left _ hlo,hlom.trans hcx⟩
    · rw [List.mem_singleton.mp hc] at hcx
      exact ⟨a,hlast,hcx⟩
  · rcases List.mem_cons.mp hd with rfl | hd
    · exact ⟨hi,List.mem_append_left _ hhi,hxd.trans hmhi⟩
    · rw [List.mem_singleton.mp hd] at hxd
      exact ⟨a,hlast,hxd⟩

theorem between_pair (hle : a ≤ m) (hge : m ≤ b) : Between [a,b] m :=
  ⟨⟨a,List.mem_cons_self,hle⟩,b,List.mem_cons_of_mem a List.mem_cons_self,hge⟩

theorem between_lt {c : α} (h : Between [a,b] m) (ha : a < c) (hb : b < c) : m < c := by
  obtain ⟨_,x,hx,hle⟩ := h
  rcases List.mem_cons.mp hx with rfl | hx
  · exact hle.trans_lt ha
  · exact hle.trans_lt (List.mem_singleton.mp hx ▸ hb)

theorem exists_least (h : l ≠ []) : ∃ a ∈ l, ∀ b ∈ l, a ≤ b := by
  obtain ⟨a,ha⟩ := WithTop.ne_top_iff_exists.mp (mt List.minimum_eq_top.mp h)
  exact ⟨a,List.minimum_mem ha.symm,fun b hb => List.minimum_le_of_mem hb ha.symm⟩

theorem exists_greatest (h : l ≠ []) : ∃ b ∈ l, ∀ a ∈ l, a ≤ b := by
  obtain ⟨b,hb⟩ := WithBot.ne_bot_iff_exists.mp (mt List.maximum_eq_bot.mp h)
  exact ⟨b,List.maximum_mem hb.symm,fun a ha => List.le_maximum_of_mem ha hb.symm⟩

end Order

/-! ## Averages made of a sum -/

variable {l : List ℕ}

/-- A sum cut to a cap averages well unless even the smallest number is too large. -/
theorem between_capped_iff (l : List ℕ) (cap : ℕ) :
    Between l (min l.sum cap/l.length) ↔ ∃ a ∈ l, a*l.length ≤ cap := by
  constructor
  · rintro ⟨⟨a,ha,hle⟩,_⟩
    have hpos : 0 < l.length := List.length_pos_of_mem ha
    exact ⟨a,ha,((Nat.le_div_iff_mul_le hpos).mp hle).trans (min_le_right _ _)⟩
  · rintro ⟨a,ha,hcap⟩
    have hpos : 0 < l.length := List.length_pos_of_mem ha
    have hne : l ≠ [] := List.ne_nil_of_mem ha
    constructor
    · obtain ⟨lo,hlo,hleast⟩ := exists_least hne
      refine ⟨lo,hlo,(Nat.le_div_iff_mul_le hpos).mpr (le_min ?_ ?_)⟩
      · have hsum := List.card_nsmul_le_sum l lo hleast
        rwa [smul_eq_mul,Nat.mul_comm] at hsum
      · exact (Nat.mul_le_mul_right _ (hleast a ha)).trans hcap
    · obtain ⟨hi,hhi,hgreatest⟩ := exists_greatest hne
      refine ⟨hi,hhi,Nat.div_le_of_le_mul ((min_le_left _ _).trans ?_)⟩
      have hsum := List.sum_le_card_nsmul l hi hgreatest
      rwa [smul_eq_mul] at hsum

/-! ## Averages made step by step -/

theorem between_raised {m a : ℕ} (h : m ≤ a) (n : ℕ) : Between [m,a] (m+(a-m)/n) := by
  have hdiv : (a-m)/n ≤ a-m := Nat.div_le_self _ _
  apply between_pair
  · exact Nat.le_add_right _ _
  · omega

end Library.Averages
