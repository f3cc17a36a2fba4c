import Mathlib.Algebra.Order.Ring.Nat
import Mathlib.Data.List.Basic
import Mathlib.Data.List.Pairwise

/-!
# The greatest of a list

The elements with the greatest keys, greatest first, and in any order among
equals. The list they are taken from may itself be in another order, in which
an element is in front when few others rank above it.
-/

set_option autoImplicit false

namespace Library.Ranking

variable {α κ : Type*} [LinearOrder κ]

def GreatestFirst (key : α → κ) (l : List α) : Prop := l.Pairwise fun a b => key b ≤ key a

/-- The list is `limit` elements with the greatest keys. -/
def Top (key : α → κ) (l : List α) (limit : ℕ) (top : List α) : Prop :=
  ∃ order, order.Perm l ∧ GreatestFirst key order ∧ top = order.take limit

theorem mergeSort_greatestFirst (key : α → κ) {le : α → α → Bool} {l : List α}
    (h : ∀ a ∈ l, ∀ b ∈ l, le a b = decide (key b ≤ key a)) :
    GreatestFirst key (l.mergeSort le) := by
  have hsame := List.map_mergeSort (f := id) fun a ha b hb => (h a ha b hb).symm
  rw [List.map_id,List.map_id] at hsame
  rw [← hsame]
  have hsorted : (l.mergeSort fun a b => decide (key b ≤ key a)).Pairwise
      fun a b => decide (key b ≤ key a) := by
    apply List.pairwise_mergeSort
    · intro a b c hab hbc
      rw [decide_eq_true_eq] at *
      exact le_trans hbc hab
    · intro a b
      rw [Bool.or_eq_true,decide_eq_true_eq,decide_eq_true_eq]
      exact le_total (key b) (key a)
  exact hsorted.imp of_decide_eq_true

/-- A part of a list is its top when it is as long and no element of it is below one left out. -/
theorem top_append_iff {key : α → κ} {l top rest : List α} (hperm : (top++rest).Perm l)
    (limit : ℕ) :
    Top key l limit top ↔ top.length = min limit l.length ∧ GreatestFirst key top ∧
      ∀ a ∈ top, ∀ b ∈ rest, key b ≤ key a := by
  constructor
  · rintro ⟨order,horder,hsorted,htake⟩
    have hlength := congrArg List.length htake
    rw [List.length_take,horder.length_eq] at hlength
    rw [← List.take_append_drop limit order,← htake] at horder hsorted
    have hrest := (List.perm_append_left_iff top).mp (hperm.trans horder.symm)
    have hparts := List.pairwise_append.mp hsorted
    exact ⟨hlength,hparts.1,fun a ha b hb => hparts.2.2 a ha b (hrest.mem_iff.mp hb)⟩
  · rintro ⟨hlength,hsorted,hleft⟩
    have hrest := List.mergeSort_perm rest fun a b => decide (key b ≤ key a)
    refine ⟨top++rest.mergeSort fun a b => decide (key b ≤ key a),
      (hrest.append_left _).trans hperm,?_,?_⟩
    · refine List.pairwise_append.mpr ⟨hsorted,mergeSort_greatestFirst key fun _ _ _ _ => rfl,?_⟩
      intro a ha b hb
      exact hleft a ha b (hrest.mem_iff.mp hb)
    · rw [← hperm.length_eq,List.length_append] at hlength
      rcases Nat.lt_or_ge top.length limit with hlt | hge
      · have hnil : rest = [] := List.eq_nil_of_length_eq_zero (by omega)
        rw [hnil,List.mergeSort_nil,List.append_nil,List.take_of_length_le hlt.le]
      · exact (List.take_left' (by omega)).symm

theorem top_take_iff {key : α → κ} {l order : List α} (hperm : order.Perm l)
    (hsorted : GreatestFirst key order) (k limit : ℕ) :
    Top key l limit (order.take k) ↔ min k l.length = min limit l.length := by
  have hsplit := List.take_append_drop k order
  have hparts : (order.take k++order.drop k).Perm l := hsplit.symm ▸ hperm
  rw [top_append_iff hparts,List.length_take,hperm.length_eq]
  rw [GreatestFirst,← hsplit,List.pairwise_append] at hsorted
  exact and_iff_left ⟨hsorted.1,hsorted.2.2⟩

/-! ## A front of a list -/

variable {front : α → Bool} {l : List α}

theorem filter_front (h : l.Pairwise fun a b => front b → front a) :
    l = l.filter front++l.filter fun a => !front a := by
  induction l with
  | nil => rfl
  | cons a l ih =>
    obtain ⟨ha,hl⟩ := List.pairwise_cons.mp h
    by_cases hfront : front a
    · rw [List.filter_cons_of_pos hfront,List.filter_cons_of_neg (by simp [hfront]),
        List.cons_append,← ih hl]
    · have hnone : l.filter front = [] :=
        List.filter_eq_nil_iff.mpr fun b hb hfrontb => hfront (ha b hb hfrontb)
      have hrest := ih hl
      rw [hnone,List.nil_append] at hrest
      rw [List.filter_cons_of_neg hfront,hnone,List.filter_cons_of_pos (by simp [hfront]),← hrest]
      rfl

/-- As many elements as asked for are in front, and none of them is below one behind it. -/
theorem top_filter_iff {key : α → κ} {order : List α} (hperm : order.Perm l)
    (h : order.Pairwise fun a b => front b → front a) (limit : ℕ) :
    Top key l limit (order.filter front) ↔ (l.filter front).length = min limit l.length ∧
      order.Pairwise fun a b => front a → key b ≤ key a := by
  have hsplit := filter_front h
  rw [top_append_iff (hsplit ▸ hperm),(hperm.filter front).length_eq]
  refine and_congr_right fun _ => ?_
  conv_rhs => rw [hsplit,List.pairwise_append]
  constructor
  · rintro ⟨hsorted,hleft⟩
    refine ⟨?_,List.pairwise_of_forall_mem_list fun a ha b _ hfront => ?_,
      fun a ha b hb _ => hleft a ha b hb⟩
    · refine hsorted.imp ?_
      intro a b hle _
      exact hle
    · have hbehind := (List.mem_filter.mp ha).2
      rw [hfront] at hbehind
      exact absurd hbehind Bool.false_ne_true
  · rintro ⟨hsorted,_,hleft⟩
    refine ⟨hsorted.imp_of_mem fun ha _ hle => hle (List.mem_filter.mp ha).2,?_⟩
    intro a ha b hb
    exact hleft a ha b hb (List.mem_filter.mp ha).2

theorem filter_take (h : l.Pairwise fun a b => front b → front a) (k : ℕ) :
    (l.take k).filter front = (l.filter front).take k := by
  induction l generalizing k with
  | nil => rw [List.take_nil,List.filter_nil,List.take_nil]
  | cons a l ih =>
    obtain ⟨ha,hl⟩ := List.pairwise_cons.mp h
    cases k with
    | zero => rw [List.take_zero,List.filter_nil,List.take_zero]
    | succ k =>
      rw [List.take_succ_cons]
      by_cases hfront : front a
      · rw [List.filter_cons_of_pos hfront,List.filter_cons_of_pos hfront,ih hl,List.take_succ_cons]
      · have hnone : l.filter front = [] :=
          List.filter_eq_nil_iff.mpr fun b hb hfrontb => hfront (ha b hb hfrontb)
        rw [List.filter_cons_of_neg hfront,List.filter_cons_of_neg hfront,ih hl,hnone,List.take_nil,
          List.take_nil]

/-! ## Places -/

variable {above : α → α → Bool}

def place (above : α → α → Bool) (l : List α) (a : α) : ℕ := (l.filter fun b => above b a).length

theorem pairwise_iff_above {P : α → α → Prop} (hsorted : l.Pairwise fun a b => above a b)
    (hasymm : ∀ a b, above a b → above b a = false) :
    l.Pairwise P ↔ ∀ a ∈ l, ∀ b ∈ l, above a b → P a b := by
  constructor
  · intro h
    apply List.Pairwise.forall_of_forall_of_flip
    · intro a _ ha
      exact absurd ((hasymm a a ha).symm.trans ha) Bool.false_ne_true
    · refine h.imp ?_
      intro a b hab _
      exact hab
    · refine hsorted.imp fun {a b} hab hba => ?_
      exact absurd ((hasymm a b hab).symm.trans hba) Bool.false_ne_true
  · intro h
    exact hsorted.imp_of_mem fun {a b} ha hb hab => h a ha b hb hab

theorem place_mono {a b : α} (htrans : ∀ a b c, above a b → above b c → above a c)
    (h : above a b) : place above l a ≤ place above l b := by
  apply List.Sublist.length_le
  exact List.monotone_filter_right l fun c hc => htrans c a b hc h

/-- In a list from top to bottom an element has as many in front of it as rank above it. -/
theorem take_eq_filter (hsorted : l.Pairwise fun a b => above a b)
    (hasymm : ∀ a b, above a b → above b a = false) (k : ℕ) :
    l.take k = l.filter fun a => place above l a < k := by
  induction l generalizing k with
  | nil => rw [List.take_nil,List.filter_nil]
  | cons a l ih =>
    obtain ⟨ha,hl⟩ := List.pairwise_cons.mp hsorted
    have hirrefl : ¬above a a := fun h => Bool.false_ne_true ((hasymm a a h).symm.trans h)
    have hself : place above (a::l) a = 0 := by
      refine List.length_eq_zero_iff.mpr (List.filter_eq_nil_iff.mpr fun b hb => ?_)
      rcases List.mem_cons.mp hb with rfl | hb
      · exact hirrefl
      · rw [hasymm a b (ha b hb)]
        exact Bool.false_ne_true
    have hrest : ∀ b ∈ l, place above (a::l) b = place above l b+1 := by
      intro b hb
      rw [place,List.filter_cons_of_pos (p := fun c => above c b) (ha b hb)]
      rfl
    cases k with
    | zero =>
      rw [List.take_zero]
      exact (List.filter_eq_nil_iff.mpr fun b _ => by simp).symm
    | succ k =>
      rw [List.take_succ_cons,ih hl,List.filter_cons_of_pos (by simp [hself])]
      congr 1
      refine List.filter_congr fun b hb => ?_
      rw [hrest b hb]
      simp

end Library.Ranking
