import Mathlib.Logic.Function.Basic
import Mathlib.Order.Lattice

/-!
# Maps whose entries expire

An entry counts until its last instant has passed. One map represents another
at an instant when both have the same live entries with related values; what
has expired on either side may differ. The relation survives the passing of
time, the same write on both sides, and the loss of expired entries.
-/

set_option autoImplicit false

namespace Library

abbrev ExpiringMap (K V T : Type*) := K → Option (V × T)

namespace ExpiringMap

variable {K V W T : Type*} [DecidableEq K] [LinearOrder T]

def read (m : ExpiringMap K V T) (now : T) (k : K) : Option V :=
  match m k with
  | some (v,last) => if last < now then none else some v
  | none => none

def insert (m : ExpiringMap K V T) (k : K) (v : V) (last : T) : ExpiringMap K V T :=
  Function.update m k (some (v,last))

def erase (m : ExpiringMap K V T) (k : K) : ExpiringMap K V T := Function.update m k none

def empty : ExpiringMap K V T := fun _ => none

structure Represents (r : V → W → Prop) (now : T) (m : ExpiringMap K V T)
    (m' : ExpiringMap K W T) : Prop where
  sound : ∀ k v last, m k = some (v,last) → now ≤ last → ∃ w, m' k = some (w,last) ∧ r v w
  complete : ∀ k w last, m' k = some (w,last) → now ≤ last → ∃ v, m k = some (v,last) ∧ r v w

variable {r : V → W → Prop} {now : T} {m : ExpiringMap K V T} {m' : ExpiringMap K W T}

omit [DecidableEq K] in
theorem represents_empty : Represents r now (empty : ExpiringMap K V T) empty := by
  constructor
  · rintro k v last ⟨⟩
  · rintro k w last ⟨⟩

omit [DecidableEq K] in
theorem represents_later (h : Represents r now m m') {later : T} (hle : now ≤ later) :
    Represents r later m m' :=
  ⟨fun k v last hk hl => h.sound k v last hk (le_trans hle hl),
    fun k w last hk hl => h.complete k w last hk (le_trans hle hl)⟩

theorem represents_insert (h : Represents r now m m') (k : K) {v : V} {w : W} (hr : r v w)
    (last : T) : Represents r now (m.insert k v last) (m'.insert k w last) := by
  constructor
  · intro k' v' last' hk hl
    by_cases he : k' = k
    · subst he
      rw [insert,Function.update_self] at hk ⊢
      cases hk
      exact ⟨w,rfl,hr⟩
    · rw [insert,Function.update_of_ne he] at hk ⊢
      exact h.sound k' v' last' hk hl
  · intro k' w' last' hk hl
    by_cases he : k' = k
    · subst he
      rw [insert,Function.update_self] at hk ⊢
      cases hk
      exact ⟨v,rfl,hr⟩
    · rw [insert,Function.update_of_ne he] at hk ⊢
      exact h.complete k' w' last' hk hl

theorem represents_erase (h : Represents r now m m') (k : K) :
    Represents r now (m.erase k) (m'.erase k) := by
  constructor
  · intro k' v last hk hl
    by_cases he : k' = k
    · subst he
      rw [erase,Function.update_self] at hk
      cases hk
    · rw [erase,Function.update_of_ne he] at hk ⊢
      exact h.sound k' v last hk hl
  · intro k' w last hk hl
    by_cases he : k' = k
    · subst he
      rw [erase,Function.update_self] at hk
      cases hk
    · rw [erase,Function.update_of_ne he] at hk ⊢
      exact h.complete k' w last hk hl

omit [DecidableEq K] in
theorem represents_congr (h : Represents r now m m') {n : ExpiringMap K V T}
    (hn : ∀ k v last, now ≤ last → (n k = some (v,last) ↔ m k = some (v,last))) :
    Represents r now n m' := by
  constructor
  · intro k v last hk hl
    exact h.sound k v last ((hn k v last hl).mp hk) hl
  · intro k w last hk hl
    obtain ⟨v,hv,hr⟩ := h.complete k w last hk hl
    exact ⟨v,(hn k v last hl).mpr hv,hr⟩

omit [DecidableEq K] in
/-- The two maps are read alike. -/
theorem read_represents (h : Represents r now m m') (k : K) :
    (∀ w, m'.read now k = some w → ∃ v, m.read now k = some v ∧ r v w) ∧
      (m'.read now k = none → m.read now k = none) := by
  unfold read
  constructor
  · intro w hw
    split at hw
    · rename_i w' last hk
      split at hw
      · cases hw
      · rename_i hlast
        cases hw
        obtain ⟨v,hv,hr⟩ := h.complete k w last hk (not_lt.mp hlast)
        rw [hv]
        dsimp only
        rw [if_neg hlast]
        exact ⟨v,rfl,hr⟩
    · cases hw
  · intro hnone
    split
    · rename_i v last hk
      rw [ite_eq_left_iff]
      intro hlast
      obtain ⟨w,hw,_⟩ := h.sound k v last hk (not_lt.mp hlast)
      rw [hw] at hnone
      dsimp only at hnone
      rw [if_neg hlast] at hnone
      cases hnone
    · rfl

end ExpiringMap

end Library
