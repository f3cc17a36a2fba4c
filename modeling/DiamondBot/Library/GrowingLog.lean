import Mathlib.Data.List.Basic

/-!
# Logs that only grow

One log extends another when every position of the earlier log is still there
and its entry has changed only as an entry may. Appending an entry and
advancing one entry in place extend a log, and extensions compose.
-/

set_option autoImplicit false

namespace Library.GrowingLog

variable {β : Type*}

def Extends (r : β → β → Prop) (l l' : List β) : Prop :=
  ∀ (i : ℕ) (x : β), l[i]? = some x → ∃ x', l'[i]? = some x' ∧ r x x'

theorem extends_refl {r : β → β → Prop} (hr : ∀ x, r x x) (l : List β) : Extends r l l :=
  fun _ x h => ⟨x,h,hr x⟩

theorem extends_trans {r : β → β → Prop} (hr : ∀ x y z, r x y → r y z → r x z)
    {l l' l'' : List β} (h : Extends r l l') (h' : Extends r l' l'') : Extends r l l'' := by
  intro i x hx
  obtain ⟨y,hy,hxy⟩ := h i x hx
  obtain ⟨z,hz,hyz⟩ := h' i y hy
  exact ⟨z,hz,hr x y z hxy hyz⟩

theorem extends_append {r : β → β → Prop} (hr : ∀ x, r x x) (l : List β) (ys : List β) :
    Extends r l (l++ys) := by
  intro i x hx
  refine ⟨x,?_,hr x⟩
  rw [List.getElem?_append_left (List.getElem?_eq_some_iff.mp hx).1]
  exact hx

theorem extends_set {r : β → β → Prop} (hr : ∀ x, r x x) {l : List β} {i : ℕ} {x y : β}
    (hx : l[i]? = some x) (hxy : r x y) : Extends r l (l.set i y) := by
  intro j z hz
  by_cases hj : i = j
  · subst hj
    rw [hx] at hz
    cases hz
    exact ⟨y,by simp [(List.getElem?_eq_some_iff.mp hx).1],hxy⟩
  · exact ⟨z,by rw [List.getElem?_set_ne hj]; exact hz,hr z⟩

theorem map_set {γ : Type*} (f : β → γ) {l : List β} {i : ℕ} {x y : β}
    (hx : l[i]? = some x) (hf : f y = f x) : (l.set i y).map f = l.map f := by
  have hi : (l.map f)[i]? = some (f x) := by simp [hx]
  obtain ⟨hlt,hget⟩ := List.getElem?_eq_some_iff.mp hi
  rw [List.map_set,hf,← hget,List.set_getElem_self]

end Library.GrowingLog
