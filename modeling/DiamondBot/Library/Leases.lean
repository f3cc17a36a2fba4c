import DiamondBot.Library.AtomicRun
import Mathlib.Algebra.Order.Ring.Nat
import Mathlib.Logic.Function.Basic

/-!
# Leases of names

A name is granted to a token until a deadline, if no other grant of it is still
running, and it can be given up early with the token it was granted to. Nobody
is told of a deadline that passes. A grant therefore stands until its deadline
unless its own token gives it up, whatever else happens, so two grants of one
name never overlap.
-/

set_option autoImplicit false

namespace Library.Leases
open AtomicRun

variable {K V : Type*} [DecidableEq K] [DecidableEq V]

structure Lease (V : Type*) where
  token : V
  deadline : ℕ

structure Table (K V : Type*) where
  lease : K → Option (Lease V)
  now : ℕ

inductive Act (K V : Type*)
  | grant (k : K) (v : V) (duration : ℕ)
  | release (k : K) (v : V)
  | wait (duration : ℕ)

namespace Table

def holder (s : Table K V) (k : K) : Option V :=
  match s.lease k with
  | some l => if s.now < l.deadline then some l.token else none
  | none => none

def Takes (s : Table K V) : Act K V → Prop
  | .grant k _ _ => s.holder k = none
  | .release k v => s.holder k = some v
  | .wait _ => True

instance (s : Table K V) : (a : Act K V) → Decidable (s.Takes a)
  | .grant k _ _ => inferInstanceAs (Decidable (s.holder k = none))
  | .release k v => inferInstanceAs (Decidable (s.holder k = some v))
  | .wait _ => inferInstanceAs (Decidable True)

def carried (s : Table K V) : Act K V → Table K V
  | .grant k v duration =>
    { s with lease := Function.update s.lease k (some ⟨v,s.now+duration⟩) }
  | .release k _ => { s with lease := Function.update s.lease k none }
  | .wait duration => { s with now := s.now+duration }

def next (s : Table K V) (a : Act K V) : Table K V :=
  if s.Takes a then s.carried a else s

theorem next_takes {s : Table K V} {a : Act K V} (h : s.Takes a) : s.next a = s.carried a :=
  if_pos h

theorem next_refuses {s : Table K V} {a : Act K V} (h : ¬s.Takes a) : s.next a = s := if_neg h

omit [DecidableEq K] [DecidableEq V] in
theorem holder_of_lease {s : Table K V} {k : K} {l : Lease V} (h : s.lease k = some l)
    (hrunning : s.now < l.deadline) : s.holder k = some l.token := by
  unfold holder
  rw [h]
  exact if_pos hrunning

omit [DecidableEq K] [DecidableEq V] in
theorem lease_of_holder {s : Table K V} {k : K} {v : V} (h : s.holder k = some v) :
    ∃ l, s.lease k = some l ∧ l.token = v ∧ s.now < l.deadline := by
  unfold holder at h
  split at h
  · next l hl =>
    split at h
    · next hrunning => exact ⟨l,hl,Option.some.inj h,hrunning⟩
    · cases h
  · cases h

theorem next_now (s : Table K V) (a : Act K V) : s.now ≤ (s.next a).now := by
  unfold next
  split
  · cases a with
    | wait duration => exact Nat.le_add_right s.now duration
    | _ => exact le_rfl
  · exact le_rfl

theorem run_now (s : Table K V) (as : List (Act K V)) : s.now ≤ (run next as s).now :=
  run_history (J := fun _ => True) (r := fun s t : Table K V => s.now ≤ t.now)
    (fun _ => le_rfl) (fun _ _ _ => le_trans) (fun _ _ _ => trivial)
    (fun s a _ => next_now s a) trivial as

/-- A running lease stays as it is unless its own token gives it up. -/
theorem next_lease {s : Table K V} {a : Act K V} {k : K} {l : Lease V}
    (h : s.lease k = some l) (hrunning : s.now < l.deadline)
    (hkept : a = .release k l.token → ¬s.Takes a) : (s.next a).lease k = some l := by
  unfold next
  split
  · next htakes =>
    cases a with
    | grant k' v duration =>
      have hne : k ≠ k' := by
        rintro rfl
        have hfree : s.holder k = none := htakes
        rw [holder_of_lease h hrunning] at hfree
        cases hfree
      exact (Function.update_of_ne hne _ _).trans h
    | release k' v =>
      have hne : k ≠ k' := by
        rintro rfl
        have hholds : s.holder k = some v := htakes
        rw [holder_of_lease h hrunning] at hholds
        exact hkept (by rw [Option.some.inj hholds]) htakes
      exact (Function.update_of_ne hne _ _).trans h
    | wait duration => exact h
  · exact h

theorem run_lease {s : Table K V} {k : K} {l : Lease V} (h : s.lease k = some l)
    {as : List (Act K V)} (hrunning : (run next as s).now < l.deadline)
    (hkept : Along next (fun s a => a = .release k l.token → ¬s.Takes a) as s) :
    (run next as s).lease k = some l := by
  induction as generalizing s with
  | nil => exact h
  | cons a as ih =>
    have hbefore : s.now < l.deadline :=
      lt_of_le_of_lt ((next_now s a).trans (run_now _ as)) hrunning
    exact ih (next_lease h hbefore hkept.1) hrunning hkept.2

theorem next_grant {s : Table K V} {k : K} {v : V} {duration : ℕ}
    (h : s.Takes (.grant k v duration)) :
    (s.next (.grant k v duration)).lease k = some ⟨v,s.now+duration⟩ := by
  rw [next_takes h]
  exact Function.update_self ..

theorem grants_apart {s : Table K V} {k : K} {v v' : V} {d d' : ℕ} {as : List (Act K V)}
    (hfirst : s.Takes (.grant k v d))
    (hsecond : (run next as (s.next (.grant k v d))).Takes (.grant k v' d'))
    (hkept : Along next (fun s a => a = .release k v → ¬s.Takes a) as
      (s.next (.grant k v d))) :
    s.now+d ≤ (run next as (s.next (.grant k v d))).now := by
  by_contra hearly
  have hlease := run_lease (next_grant hfirst) (not_le.mp hearly) hkept
  have hholder := holder_of_lease hlease (not_le.mp hearly)
  have hfree : (run next as (s.next (.grant k v d))).holder k = none := hsecond
  rw [hholder] at hfree
  cases hfree

/-- Where a lease comes from: the grant of it, not given up since. -/
structure Granted (s : Table K V) (as : List (Act K V)) (k : K) (l : Lease V)
    (before after : List (Act K V)) (d : ℕ) : Prop where
  split : as = before++.grant k l.token d::after
  takes : (run next before s).Takes (.grant k l.token d)
  deadline : l.deadline = (run next before s).now+d
  kept : Along next (fun s a => a = .release k l.token → ¬s.Takes a) after
    ((run next before s).next (.grant k l.token d))

theorem granted_later {s : Table K V} {as : List (Act K V)} {k : K} {l : Lease V}
    {before after : List (Act K V)} {d : ℕ} (h : Granted s as k l before after d)
    {a : Act K V} (hkept : a = .release k l.token → ¬(run next as s).Takes a) :
    Granted s (as++[a]) k l before (after++[a]) d := by
  refine ⟨?_,h.takes,h.deadline,along_append h.kept ⟨?_,trivial⟩⟩
  · rw [h.split,List.append_assoc]
    rfl
  · have hstate : run next after ((run next before s).next (.grant k l.token d)) =
        run next as s := by
      rw [h.split,run_append]
      rfl
    rw [hstate]
    exact hkept

/-- A lease found after a step was granted by it or was there and not given up. -/
theorem next_lease_cases {s : Table K V} {a : Act K V} {k : K} {l : Lease V}
    (h : (s.next a).lease k = some l) :
    (∃ d, a = .grant k l.token d ∧ s.Takes a ∧ l.deadline = s.now+d) ∨
      s.lease k = some l ∧ (a = .release k l.token → ¬s.Takes a) := by
  unfold next at h
  split at h
  · next htakes =>
    cases a with
    | grant k' v d =>
      change Function.update s.lease k' (some ⟨v,s.now+d⟩) k = some l at h
      by_cases hk : k = k'
      · subst hk
        rw [Function.update_self] at h
        cases h
        exact Or.inl ⟨d,rfl,htakes,rfl⟩
      · rw [Function.update_of_ne hk] at h
        exact Or.inr ⟨h,nofun⟩
    | release k' v =>
      change Function.update s.lease k' none k = some l at h
      by_cases hk : k = k'
      · subst hk
        rw [Function.update_self] at h
        cases h
      · rw [Function.update_of_ne hk] at h
        refine Or.inr ⟨h,fun hsame => ?_⟩
        cases hsame
        exact absurd rfl hk
    | wait duration => exact Or.inr ⟨h,nofun⟩
  · next hrefused => exact Or.inr ⟨h,fun _ => hrefused⟩

theorem lease_granted {s : Table K V} (hs : ∀ k, s.lease k = none) (as : List (Act K V)) :
    ∀ k l, (run next as s).lease k = some l → ∃ before after d,
      Granted s as k l before after d := by
  refine run_trace (I := fun as (t : Table K V) => ∀ k l, t.lease k = some l →
    ∃ before after d, Granted s as k l before after d) ?_ ?_ as
  · intro k l h
    rw [hs k] at h
    cases h
  · intro as a ih k l h
    rcases next_lease_cases h with ⟨d,rfl,htakes,hdeadline⟩ | ⟨hold,hkept⟩
    · exact ⟨as,[],d,rfl,htakes,hdeadline,trivial⟩
    · obtain ⟨before,after,d,hg⟩ := ih k l hold
      exact ⟨before,after++[a],d,granted_later hg hkept⟩

end Table
end Library.Leases
