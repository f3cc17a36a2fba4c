import DiamondBot.Library.AtomicRun
import Mathlib.Data.List.Sublists

/-!
# A queue that may lose what it accepted

Items are accepted into a queue, or accepted and never queued, and leave it at
the front, delivered or dropped. What was delivered and what is waiting are a
sublist of what was accepted, and all of it exactly when no step lost an item:
a loss is never made good. A system that moves such a queue with each of its
steps inherits this.
-/

set_option autoImplicit false

namespace Library

structure Conveyor (α : Type*) where
  accepted : List α
  delivered : List α
  pending : List α

namespace Conveyor

variable {α : Type*}

inductive Move (α : Type*)
  | accept (a : α)
  | refuse (a : α)
  | deliver
  | drop

def next (s : Conveyor α) : Move α → Conveyor α
  | .accept a => { s with accepted := s.accepted++[a], pending := s.pending++[a] }
  | .refuse a => { s with accepted := s.accepted++[a] }
  | .deliver =>
    match s.pending with
    | [] => s
    | a::rest => { s with delivered := s.delivered++[a], pending := rest }
  | .drop => { s with pending := s.pending.tail }

def Move.taken : Move α → List α
  | .accept a => [a]
  | .refuse a => [a]
  | _ => []

theorem next_accepted (s : Conveyor α) (m : Move α) :
    (s.next m).accepted = s.accepted++m.taken := by
  cases m with
  | deliver =>
    simp only [next,Move.taken,List.append_nil]
    split <;> rfl
  | drop => simp [next,Move.taken]
  | accept | refuse => rfl

def Loses (s : Conveyor α) : Move α → Prop
  | .accept _ => False
  | .refuse _ => True
  | .deliver => False
  | .drop => s.pending ≠ []

def Intact (s : Conveyor α) : Prop := s.delivered++s.pending = s.accepted

def Ordered (s : Conveyor α) : Prop := (s.delivered++s.pending).Sublist s.accepted

theorem intact_ordered {s : Conveyor α} (h : s.Intact) : s.Ordered := by
  unfold Ordered
  rw [h]

theorem next_ordered {s : Conveyor α} (h : s.Ordered) (m : Move α) : (s.next m).Ordered := by
  unfold Ordered at h ⊢
  cases m with
  | accept a =>
    change (s.delivered++(s.pending++[a])).Sublist (s.accepted++[a])
    rw [← List.append_assoc]
    exact h.append (List.Sublist.refl [a])
  | refuse a => exact h.trans (List.sublist_append_left _ _)
  | deliver =>
    unfold next
    cases hpending : s.pending with
    | nil => rwa [hpending] at h ⊢
    | cons a rest =>
      rw [hpending] at h
      simpa using h
  | drop =>
    exact ((List.Sublist.refl _).append (List.tail_sublist _)).trans h

def missing (s : Conveyor α) : ℕ := s.accepted.length-(s.delivered.length+s.pending.length)

theorem ordered_length {s : Conveyor α} (h : s.Ordered) :
    s.delivered.length+s.pending.length ≤ s.accepted.length := by
  rw [← List.length_append]
  exact h.length_le

theorem intact_iff {s : Conveyor α} (h : s.Ordered) : s.Intact ↔ s.missing = 0 := by
  have hlength := ordered_length h
  constructor
  · intro hintact
    have hsame := congrArg List.length hintact
    rw [List.length_append] at hsame
    unfold missing
    omega
  · intro hzero
    unfold missing at hzero
    apply h.eq_of_length
    rw [List.length_append]
    omega

def Once [DecidableEq α] (s : Conveyor α) : Prop :=
  ∀ a ∈ s.accepted, s.delivered.count a+s.pending.count a = 1

theorem intact_once [DecidableEq α] {s : Conveyor α} (hnodup : s.accepted.Nodup)
    (h : s.Intact) : s.Once := by
  intro a ha
  rw [← List.count_append,h]
  exact List.count_eq_one_of_mem hnodup ha

theorem once_intact [DecidableEq α] {s : Conveyor α} (hnodup : s.accepted.Nodup)
    (hordered : s.Ordered) (h : s.Once) : s.Intact := by
  apply hordered.eq_of_length_le
  apply List.Subperm.length_le
  apply List.subperm_of_subset hnodup
  intro a ha
  have hone := h a ha
  rw [← List.count_append] at hone
  exact List.count_pos_iff.mp (by omega)

theorem intact_iff_once [DecidableEq α] {s : Conveyor α} (hnodup : s.accepted.Nodup)
    (hordered : s.Ordered) : s.Intact ↔ s.Once :=
  ⟨intact_once hnodup,once_intact hnodup hordered⟩

/-- A move loses one item or none. -/
theorem next_missing {s : Conveyor α} (h : s.Ordered) (m : Move α) :
    (s.Loses m → (s.next m).missing = s.missing+1) ∧
      (¬s.Loses m → (s.next m).missing = s.missing) := by
  have hlength := ordered_length h
  cases m with
  | accept a =>
    refine ⟨False.elim,fun _ => ?_⟩
    simp only [next,missing,List.length_append,List.length_singleton]
    omega
  | refuse a =>
    refine ⟨fun _ => ?_,fun hlost => absurd trivial hlost⟩
    simp only [next,missing,List.length_append,List.length_singleton]
    omega
  | deliver =>
    refine ⟨False.elim,fun _ => ?_⟩
    unfold next
    cases hpending : s.pending with
    | nil => rfl
    | cons a rest =>
      simp only [missing,hpending,List.length_append,List.length_cons,List.length_nil]
      omega
  | drop =>
    cases hpending : s.pending with
    | nil =>
      refine ⟨fun hlost => absurd hpending hlost,fun _ => ?_⟩
      simp [next,missing,hpending]
    | cons a rest =>
      have hloses : s.Loses .drop := by
        change s.pending ≠ []
        rw [hpending]
        exact List.cons_ne_nil _ _
      refine ⟨fun _ => ?_,fun hkept => absurd hloses hkept⟩
      rw [hpending,List.length_cons] at hlength
      simp only [next,missing,hpending,List.tail_cons,List.length_cons]
      omega

theorem next_intact_iff {s : Conveyor α} (h : s.Intact) (m : Move α) :
    (s.next m).Intact ↔ ¬s.Loses m := by
  have hordered := intact_ordered h
  have hzero := (intact_iff hordered).mp h
  obtain ⟨hlost,hkept⟩ := next_missing hordered m
  rw [intact_iff (next_ordered hordered m)]
  by_cases hloses : s.Loses m
  · rw [hlost hloses]
    exact iff_of_false (by omega) (not_not.mpr hloses)
  · rw [hkept hloses]
    exact iff_of_true hzero hloses

section System

variable {σ τ : Type*} {step : σ → τ → σ} {view : σ → Conveyor α} {move : σ → τ → Option (Move α)}

def KeepsItems (view : σ → Conveyor α) (move : σ → τ → Option (Move α)) (s : σ) (a : τ) : Prop :=
  ∀ m, move s a = some m → ¬(view s).Loses m

def Moves (step : σ → τ → σ) (view : σ → Conveyor α) (move : σ → τ → Option (Move α)) : Prop :=
  ∀ s a, view (step s a) = (move s a).elim (view s) (view s).next

theorem step_ordered (hmoves : Moves step view move) (s : σ) (a : τ) (h : (view s).Ordered) :
    (view (step s a)).Ordered := by
  rw [hmoves s a]
  cases move s a with
  | none => exact h
  | some m => exact next_ordered h m

theorem step_intact_iff (hmoves : Moves step view move) (s : σ) (a : τ) (h : (view s).Intact) :
    (view (step s a)).Intact ↔ KeepsItems view move s a := by
  unfold KeepsItems
  rw [hmoves s a]
  cases move s a with
  | none => simpa using h
  | some m =>
    simp only [Option.elim_some,Option.some.injEq,forall_eq']
    exact next_intact_iff h m

theorem step_missing (hmoves : Moves step view move) (s : σ) (a : τ) (h : (view s).Ordered) :
    (view s).missing ≤ (view (step s a)).missing := by
  rw [hmoves s a]
  cases move s a with
  | none => exact le_rfl
  | some m =>
    obtain ⟨hlost,hkept⟩ := next_missing h m
    by_cases hloses : (view s).Loses m
    · simp only [Option.elim_some,hlost hloses]
      omega
    · simp only [Option.elim_some,hkept hloses]
      exact le_rfl

theorem run_missing (hmoves : Moves step view move) (as : List τ) (s : σ) (h : (view s).Ordered) :
    (view s).missing ≤ (view (AtomicRun.run step as s)).missing := by
  induction as generalizing s with
  | nil => exact le_rfl
  | cons a as ih => exact (step_missing hmoves s a h).trans (ih _ (step_ordered hmoves s a h))

/-- At the end of a run nothing is missing exactly when no step lost an item. -/
theorem run_intact_iff (hmoves : Moves step view move) (as : List τ) (s : σ)
    (h : (view s).Intact) : (view (AtomicRun.run step as s)).Intact ↔
      AtomicRun.Along step (KeepsItems view move) as s := by
  induction as generalizing s with
  | nil => exact iff_of_true h trivial
  | cons a as ih =>
    have hiff := step_intact_iff hmoves s a h
    by_cases hkept : KeepsItems view move s a
    · rw [AtomicRun.run,ih _ (hiff.mpr hkept)]
      exact ⟨fun hrest => ⟨hkept,hrest⟩,fun hall => hall.2⟩
    · apply iff_of_false _ fun hall => hkept hall.1
      have hordered := step_ordered hmoves s a (intact_ordered h)
      have hlost := mt (intact_iff hordered).mpr (mt hiff.mp hkept)
      have hmissing := run_missing hmoves as _ hordered
      have hend : (view (AtomicRun.run step as (step s a))).Ordered :=
        AtomicRun.run_invariant (step_ordered hmoves) hordered as
      intro hintact
      have hzero := (intact_iff hend).mp hintact
      omega

end System

end Conveyor
end Library
