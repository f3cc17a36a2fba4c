import Mathlib.Data.List.Induction
import Mathlib.Logic.Relation

/-!
# Runs of atomic steps

A step commits a new state or fails; a failed step is rolled back, so a run
over any list of actions is total. Conditions on the steps of a run are read
at the state before each step, and conditions on its states are read at every
state visited. The rules below turn one-step facts into facts about runs.
-/

set_option autoImplicit false

namespace Library.AtomicRun

variable {σ α ε τ : Type*}

def settle (step : σ → α → Except ε σ) (s : σ) (a : α) : σ :=
  match step s a with
  | .ok s' => s'
  | .error _ => s

theorem settle_ok {step : σ → α → Except ε σ} {s s' : σ} {a : α}
    (h : step s a = .ok s') : settle step s a = s' := by
  simp only [settle, h]

theorem settle_error {step : σ → α → Except ε σ} {s : σ} {a : α} {e : ε}
    (h : step s a = .error e) : settle step s a = s := by
  simp only [settle, h]

theorem settle_cases (step : σ → α → Except ε σ) (s : σ) (a : α) :
    step s a = .ok (settle step s a) ∨ settle step s a = s := by
  cases h : step s a with
  | ok s' => exact Or.inl (by rw [settle_ok h])
  | error e => exact Or.inr (settle_error h)

theorem settle_preserves {step : σ → α → Except ε σ} {Q : σ → Prop} {s : σ} {a : α}
    (hQ : Q s) (hstep : ∀ s', step s a = .ok s' → Q s') : Q (settle step s a) := by
  rcases settle_cases step s a with h | h
  · exact hstep _ h
  · rwa [h]

theorem settle_iff {step : σ → α → Except ε σ} {Q : σ → Prop} {R : Prop} {s : σ} {a : α}
    (hQ : Q s) (hstep : ∀ s', step s a = .ok s' → (Q s' ↔ R)) :
    Q (settle step s a) ↔ ((∃ s', step s a = .ok s') → R) := by
  cases h : step s a with
  | ok s' =>
    rw [settle_ok h,hstep s' h]
    exact ⟨fun hR _ => hR,fun hR => hR ⟨s',rfl⟩⟩
  | error e =>
    rw [settle_error h]
    exact iff_of_true hQ (by rintro ⟨_,⟨⟩⟩)

def run (next : σ → α → σ) : List α → σ → σ
  | [], s => s
  | a::as, s => run next as (next s a)

def Along (next : σ → α → σ) (R : σ → α → Prop) : List α → σ → Prop
  | [], _ => True
  | a::as, s => R s a ∧ Along next R as (next s a)

def Throughout (next : σ → α → σ) (Q : σ → Prop) : List α → σ → Prop
  | [], s => Q s
  | a::as, s => Q s ∧ Throughout next Q as (next s a)

instance decidableAlong (next : σ → α → σ) (R : σ → α → Prop) [∀ s a, Decidable (R s a)]
    (as : List α) (s : σ) : Decidable (Along next R as s) :=
  match as with
  | [] => inferInstanceAs (Decidable True)
  | a::as =>
    have := decidableAlong next R as (next s a)
    inferInstanceAs (Decidable (R s a ∧ Along next R as (next s a)))

theorem run_append (next : σ → α → σ) (as bs : List α) (s : σ) :
    run next (as++bs) s = run next bs (run next as s) := by
  induction as generalizing s with
  | nil => rfl
  | cons a as ih => exact ih _

theorem along_append {next : σ → α → σ} {R : σ → α → Prop} {as bs : List α} {s : σ}
    (h : Along next R as s) (h' : Along next R bs (run next as s)) :
    Along next R (as++bs) s := by
  induction as generalizing s with
  | nil => exact h'
  | cons a as ih => exact ⟨h.1,ih h.2 h'⟩

theorem along_append_iff {next : σ → α → σ} {R : σ → α → Prop} {as bs : List α} {s : σ} :
    Along next R (as++bs) s ↔ Along next R as s ∧ Along next R bs (run next as s) := by
  induction as generalizing s with
  | nil => exact (iff_of_eq (true_and _)).symm
  | cons a as ih => exact (and_congr_right fun _ => ih).trans and_assoc.symm

theorem throughout_head {next : σ → α → σ} {Q : σ → Prop} {as : List α} {s : σ}
    (h : Throughout next Q as s) : Q s := by
  cases as with
  | nil => exact h
  | cons a as => exact h.1

theorem throughout_iff (next : σ → α → σ) (Q : σ → Prop) (as : List α) (s : σ) :
    Throughout next Q as s ↔ ∀ before after, as = before++after → Q (run next before s) := by
  constructor
  · intro h before
    induction before generalizing as s with
    | nil => exact fun _ _ => throughout_head h
    | cons a before ih => rintro after rfl; exact ih _ _ h.2 after rfl
  · intro h
    induction as generalizing s with
    | nil => exact h [] [] rfl
    | cons a as ih =>
      refine ⟨h [] (a::as) rfl, ih _ fun before after hb => ?_⟩
      exact h (a::before) after (by rw [hb]; rfl)

theorem throughout_last {next : σ → α → σ} {Q : σ → Prop} {as : List α} {s : σ}
    (h : Throughout next Q as s) : Q (run next as s) :=
  (throughout_iff next Q as s).mp h as [] (by simp)

theorem throughout_mono {next : σ → α → σ} {Q Q' : σ → Prop} (hQ : ∀ s, Q s → Q' s)
    {as : List α} {s : σ} (h : Throughout next Q as s) : Throughout next Q' as s := by
  induction as generalizing s with
  | nil => exact hQ s h
  | cons a as ih => exact ⟨hQ s h.1, ih h.2⟩

theorem throughout_of_along {next : σ → α → σ} {I : σ → Prop} {R : σ → α → Prop}
    (hstep : ∀ s a, I s → R s a → I (next s a)) {as : List α} {s : σ}
    (hI : I s) (hR : Along next R as s) : Throughout next I as s := by
  induction as generalizing s with
  | nil => exact hI
  | cons a as ih => exact ⟨hI, ih (hstep s a hI hR.1) hR.2⟩

theorem run_invariant {next : σ → α → σ} {I : σ → Prop}
    (hstep : ∀ s a, I s → I (next s a)) {s : σ} (hI : I s) (as : List α) :
    I (run next as s) := by
  induction as generalizing s with
  | nil => exact hI
  | cons a as ih => exact ih (hstep s a hI)

theorem run_invariant_along {next : σ → α → σ} {I : σ → Prop} {R : σ → α → Prop}
    (hstep : ∀ s a, I s → R s a → I (next s a)) {as : List α} {s : σ}
    (hI : I s) (hR : Along next R as s) : I (run next as s) :=
  throughout_last (throughout_of_along hstep hI hR)

theorem along_of_throughout {next : σ → α → σ} {J Q : σ → Prop} {R : σ → α → Prop}
    (hJ : ∀ s a, J s → J (next s a))
    (hstep : ∀ s a, J s → Q s → Q (next s a) → R s a) {as : List α} {s : σ}
    (hs : J s) (hQ : Throughout next Q as s) : Along next R as s := by
  induction as generalizing s with
  | nil => trivial
  | cons a as ih =>
    exact ⟨hstep s a hs hQ.1 (throughout_head hQ.2), ih (hJ s a hs) hQ.2⟩

theorem throughout_iff_along_of {next : σ → α → σ} {J Q : σ → Prop} {A R : σ → α → Prop}
    (hJ : ∀ s a, J s → Q s → A s a → J (next s a))
    (hstep : ∀ s a, J s → Q s → A s a → (Q (next s a) ↔ R s a)) {as : List α} {s : σ}
    (hs : J s) (hQ : Q s) (hA : Along next A as s) :
    Throughout next Q as s ↔ Along next R as s := by
  induction as generalizing s with
  | nil => exact iff_of_true hQ trivial
  | cons a as ih =>
    have hj := hJ s a hs hQ hA.1
    have hiff := hstep s a hs hQ hA.1
    constructor
    · rintro ⟨_,hrest⟩
      have hq := throughout_head hrest
      exact ⟨hiff.mp hq,(ih hj hq hA.2).mp hrest⟩
    · rintro ⟨hr,hrest⟩
      have hq := hiff.mpr hr
      exact ⟨hQ,(ih hj hq hA.2).mpr hrest⟩

theorem along_trivial {next : σ → α → σ} (as : List α) (s : σ) :
    Along next (fun _ _ => True) as s := by
  induction as generalizing s with
  | nil => trivial
  | cons a as ih => exact ⟨trivial,ih _⟩

theorem along_const {next : σ → α → σ} {R : α → Prop} (as : List α) (s : σ) :
    Along next (fun _ a => R a) as s ↔ ∀ a ∈ as, R a := by
  induction as generalizing s with
  | nil => simp [Along]
  | cons a as ih => simp [Along,ih]

theorem throughout_iff_along {next : σ → α → σ} {J Q : σ → Prop} {R : σ → α → Prop}
    (hJ : ∀ s a, J s → J (next s a))
    (hstep : ∀ s a, J s → Q s → (Q (next s a) ↔ R s a)) {as : List α} {s : σ}
    (hs : J s) (hQ : Q s) : Throughout next Q as s ↔ Along next R as s :=
  throughout_iff_along_of (fun s a hj _ _ => hJ s a hj) (fun s a hj hq _ => hstep s a hj hq)
    hs hQ (along_trivial as s)

theorem along_mono {next : σ → α → σ} {J : σ → Prop} {R R' : σ → α → Prop}
    (hJ : ∀ s a, J s → J (next s a)) (hR : ∀ s a, J s → R s a → R' s a)
    {as : List α} {s : σ} (hs : J s) (h : Along next R as s) : Along next R' as s := by
  induction as generalizing s with
  | nil => trivial
  | cons a as ih => exact ⟨hR s a hs h.1, ih (hJ s a hs) h.2⟩

theorem along_of_states {next : σ → α → σ} {Q : σ → Prop} {R : σ → α → Prop}
    {as : List α} {s : σ} (hQ : Throughout next Q as s) (hR : ∀ s a, Q s → R s a) :
    Along next R as s := by
  induction as generalizing s with
  | nil => trivial
  | cons a as ih => exact ⟨hR s a hQ.1,ih hQ.2⟩

theorem along_congr {next : σ → α → σ} {R R' : σ → α → Prop} (h : ∀ s a, R s a ↔ R' s a)
    (as : List α) (s : σ) : Along next R as s ↔ Along next R' as s := by
  induction as generalizing s with
  | nil => rfl
  | cons a as ih => exact and_congr (h s a) (ih _)

theorem along_and_iff {next : σ → α → σ} {R R' : σ → α → Prop} (as : List α) (s : σ) :
    Along next (fun s a => R s a ∧ R' s a) as s ↔ Along next R as s ∧ Along next R' as s := by
  induction as generalizing s with
  | nil => simp [Along]
  | cons a as ih =>
    simp only [Along,ih]
    exact and_and_and_comm

theorem along_and {next : σ → α → σ} {R R' : σ → α → Prop} {as : List α} {s : σ}
    (h : Along next R as s) (h' : Along next R' as s) :
    Along next (fun s a => R s a ∧ R' s a) as s :=
  (along_and_iff as s).mpr ⟨h,h'⟩

theorem run_history {next : σ → α → σ} {J : σ → Prop} {r : σ → σ → Prop}
    (hrefl : ∀ s, r s s) (htrans : ∀ s t u, r s t → r t u → r s u)
    (hJ : ∀ s a, J s → J (next s a)) (hstep : ∀ s a, J s → r s (next s a))
    {s : σ} (hs : J s) (as : List α) : r s (run next as s) := by
  induction as generalizing s with
  | nil => exact hrefl s
  | cons a as ih => exact htrans _ _ _ (hstep s a hs) (ih (hJ s a hs))

theorem run_filter {next : σ → α → σ} {keep : α → Bool} {R : σ → α → Prop}
    {I : σ → σ → Prop}
    (hkeep : ∀ s s' a, I s s' → R s a → keep a = true → I (next s a) (next s' a))
    (hdrop : ∀ s s' a, I s s' → R s a → keep a = false → I (next s a) s')
    {as : List α} {s s' : σ} (hI : I s s') (hR : Along next R as s) :
    I (run next as s) (run next (as.filter keep) s') := by
  induction as generalizing s s' with
  | nil => exact hI
  | cons a as ih =>
    cases hkept : keep a with
    | true =>
      rw [List.filter_cons_of_pos hkept]
      exact ih (hkeep s s' a hI hR.1 hkept) hR.2
    | false =>
      rw [List.filter_cons_of_neg (by simp [hkept])]
      exact ih (hdrop s s' a hI hR.1 hkept) hR.2

theorem concat_split {as before after : List α} {a b : α} :
    as++[a] = before++b::after ↔
      (as = before ∧ a = b ∧ after = []) ∨ ∃ rest, as = before++b::rest ∧ after = rest++[a] := by
  rcases List.eq_nil_or_concat after with rfl | ⟨rest,last,rfl⟩
  · simp
  · rw [List.concat_eq_append,← List.cons_append,← List.append_assoc,List.append_singleton_inj]
    constructor
    · rintro ⟨rfl,rfl⟩
      exact Or.inr ⟨rest,rfl,rfl⟩
    · rintro (⟨_,_,h⟩ | ⟨rest',rfl,h⟩)
      · simp at h
      · obtain ⟨rfl,rfl⟩ := List.append_singleton_inj.mp h
        exact ⟨rfl,rfl⟩

theorem run_trace {next : σ → α → σ} {I : List α → σ → Prop} {s : σ} (hs : I [] s)
    (hstep : ∀ as a, I as (run next as s) → I (as++[a]) (next (run next as s) a))
    (as : List α) : I as (run next as s) := by
  induction as using List.reverseRecOn with
  | nil => exact hs
  | append_singleton as a ih =>
    rw [run_append]
    exact hstep as a ih

end Library.AtomicRun
