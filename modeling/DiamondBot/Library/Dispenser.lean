import DiamondBot.Library.AtomicRun
import Mathlib.Data.List.Nodup
import Mathlib.Data.List.Range

/-!
# Counters that hand out numbers

A dispenser hands out its counter and advances it. The counter may be loaded
from elsewhere, raised or forgotten. Loads alone decide whether a number is
given twice: a load above everything given keeps the dispenser ahead, and any
other load is repaid by enough further numbers.
-/

set_option autoImplicit false

namespace Library

structure Dispenser where
  next : Option ℕ
  given : List ℕ

namespace Dispenser

inductive Op
  | take
  | load (n : ℕ)
  | raise (n : ℕ)
  | forget

def apply (d : Dispenser) : Op → Dispenser
  | .take =>
    match d.next with
    | some n => ⟨some (n+1),d.given++[n]⟩
    | none => d
  | .load n => { d with next := some n }
  | .raise n => { d with next := d.next.map fun m => max m n }
  | .forget => { d with next := none }

def Beyond (d : Dispenser) (n : ℕ) : Prop := ∀ k ∈ d.given, k < n

def Admits (d : Dispenser) : Op → Prop
  | .load n => d.Beyond n
  | _ => True

def Keeps : Op → Prop
  | .take => True
  | .raise _ => True
  | _ => False

structure Ahead (d : Dispenser) : Prop where
  distinct : d.given.Nodup
  beyond : ∀ n, d.next = some n → d.Beyond n

theorem apply_ahead (d : Dispenser) (op : Op) (h : d.Ahead) (hop : d.Admits op) :
    (d.apply op).Ahead := by
  cases op with
  | take =>
    cases hnext : d.next with
    | none =>
      simp only [apply,hnext]
      exact h
    | some n =>
      have hn := h.beyond n hnext
      simp only [apply,hnext]
      refine ⟨List.nodup_append_comm.mp (List.nodup_cons.mpr ⟨?_,h.distinct⟩),?_⟩
      · exact fun hmem => lt_irrefl n (hn n hmem)
      · rintro _ ⟨⟩ k hk
        rcases List.mem_append.mp hk with hk | hk
        · have := hn k hk
          omega
        · have := List.mem_singleton.mp hk
          omega
  | load n =>
    refine ⟨h.distinct,?_⟩
    rintro _ ⟨⟩
    exact hop
  | raise n =>
    refine ⟨h.distinct,fun m hm k hk => ?_⟩
    obtain ⟨m',hm',rfl⟩ := Option.map_eq_some_iff.mp hm
    exact lt_of_lt_of_le (h.beyond m' hm' k hk) (le_max_left m' n)
  | forget =>
    refine ⟨h.distinct,?_⟩
    rintro _ ⟨⟩

theorem run_ahead {ops : List Op} {d : Dispenser} (h : d.Ahead)
    (hops : AtomicRun.Along apply Admits ops d) : (AtomicRun.run apply ops d).Ahead :=
  AtomicRun.run_invariant_along apply_ahead h hops

theorem run_keeps {ops : List Op} {d : Dispenser} {n : ℕ} (h : d.next = some n)
    (hops : ∀ op ∈ ops, Keeps op) : ∃ n', (AtomicRun.run apply ops d).next = some n' ∧ n ≤ n' := by
  induction ops generalizing d n with
  | nil => exact ⟨n,h,le_rfl⟩
  | cons op ops ih =>
    have hstep : ∃ n', (d.apply op).next = some n' ∧ n ≤ n' := by
      have hop := hops op List.mem_cons_self
      cases op with
      | take => exact ⟨n+1,by simp only [apply,h],by omega⟩
      | raise m => exact ⟨max n m,by simp only [apply,h,Option.map_some],le_max_left n m⟩
      | load m => cases hop
      | forget => cases hop
    obtain ⟨n',hn',hle⟩ := hstep
    obtain ⟨n'',hn'',hle'⟩ := ih hn' fun op hop => hops op (List.mem_cons_of_mem _ hop)
    exact ⟨n'',hn'',hle.trans hle'⟩

theorem run_takes (count : ℕ) {d : Dispenser} {n : ℕ} (h : d.next = some n) :
    AtomicRun.run apply (List.replicate count .take) d =
      ⟨some (n+count),d.given++List.range' n count⟩ := by
  induction count generalizing d n with
  | zero =>
    rw [List.replicate_zero,List.range'_zero,List.append_nil,Nat.add_zero,← h]
    rfl
  | succ count ih =>
    have htake : d.apply .take = ⟨some (n+1),d.given++[n]⟩ := by
      simp only [apply,h]
    rw [List.replicate_succ,AtomicRun.run,htake,ih rfl,List.range'_succ]
    simp only [List.append_assoc,List.singleton_append]
    rw [Nat.add_right_comm,Nat.add_assoc]

theorem takes_repeat {d : Dispenser} {n k : ℕ} (h : d.next = some n) (hk : k ∈ d.given)
    (hle : n ≤ k) : ¬(AtomicRun.run apply (List.replicate (k+1-n) .take) d).given.Nodup := by
  rw [run_takes _ h]
  intro hnodup
  have hagain : k ∈ List.range' n (k+1-n) := List.mem_range'_1.mpr (by omega)
  exact (List.disjoint_of_nodup_append hnodup) hk hagain

end Dispenser

end Library
