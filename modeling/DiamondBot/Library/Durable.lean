import DiamondBot.Library.AtomicRun

/-!
# A value in memory and its copy on disk

A step may change the value. It then writes the copy, leaves the copy alone or
spoils it. The value is none while nothing runs, the copy is none when it
cannot be read. What is read back is what the value was at some moment, never
a mix of two moments.
-/

set_option autoImplicit false

namespace Library.Durable
open AtomicRun

variable {σ α β : Type*} {next : σ → α → σ} {value copy : σ → Option β}

def Synced (value copy : σ → Option β) (s : σ) : Prop := copy s = value s

def Careful (next : σ → α → σ) (value copy : σ → Option β) (s : σ) (a : α) : Prop :=
  Synced value copy (next s a) ∨ copy (next s a) = copy s

theorem copy_kept_or_past {as : List α} {s : σ} (h : Along next (Careful next value copy) as s) :
    copy (run next as s) = copy s ∨
      ∃ before after, as = before++after ∧ copy (run next as s) = value (run next before s) := by
  induction as generalizing s with
  | nil => exact Or.inl rfl
  | cons a as ih =>
    rcases ih h.2 with hkept | ⟨before,after,hsplit,hpast⟩
    · rcases h.1 with hwrites | hleaves
      · exact Or.inr ⟨[a],as,rfl,hkept.trans hwrites⟩
      · exact Or.inl (hkept.trans hleaves)
    · exact Or.inr ⟨a::before,after,by rw [hsplit,List.cons_append],hpast⟩

theorem copy_past {as : List α} {s : σ} (hs : Synced value copy s)
    (h : Along next (Careful next value copy) as s) :
    ∃ before after, as = before++after ∧ copy (run next as s) = value (run next before s) := by
  rcases copy_kept_or_past h with hkept | hpast
  · exact ⟨[],as,rfl,hkept.trans hs⟩
  · exact hpast

structure Both (value copy : σ → Option β) (Q : β → Prop) (s : σ) : Prop where
  value : ∀ v, value s = some v → Q v
  copy : ∀ v, copy s = some v → Q v

theorem both_step {Q : β → Prop} {s : σ} {a : α} (h : Both value copy Q s)
    (hstep : Careful next value copy s a ∨ copy (next s a) = none)
    (hvalue : ∀ v, value (next s a) = some v → Q v) : Both value copy Q (next s a) := by
  refine ⟨hvalue,fun v hv => ?_⟩
  rcases hstep with (hwrites | hleaves) | hspoils
  · exact hvalue v (hwrites ▸ hv)
  · exact h.copy v (hleaves ▸ hv)
  · rw [hspoils] at hv
    cases hv

end Library.Durable
