import DiamondBot.Library.AtomicRun

/-!
# A component of a system runs as it would alone

Each action of a system is some actions of a component, none when the action
is not about it. What the component goes through in a run of the system is
then a run of its own, over the actions it was given, so facts about all runs
of the component hold of the system without being proved again.
-/

set_option autoImplicit false

namespace Library.Projection
open AtomicRun

variable {σ α τ β : Type*}

def given (next : σ → α → σ) (acts : σ → α → List β) : List α → σ → List β
  | [], _ => []
  | a::as, s => acts s a++given next acts as (next s a)

def Projects (next : σ → α → σ) (next' : τ → β → τ) (f : σ → τ)
    (acts : σ → α → List β) : Prop :=
  ∀ s a, f (next s a) = run next' (acts s a) (f s)

variable {next : σ → α → σ} {next' : τ → β → τ} {f : σ → τ} {acts : σ → α → List β}

theorem given_append (next : σ → α → σ) (acts : σ → α → List β) (as bs : List α) (s : σ) :
    given next acts (as++bs) s = given next acts as s++given next acts bs (run next as s) := by
  induction as generalizing s with
  | nil => rfl
  | cons a as ih =>
    change acts s a++given next acts (as++bs) (next s a) = _
    rw [ih,given,run,List.append_assoc]

theorem run_related {r : σ → τ → Prop}
    (h : ∀ s t a, r s t → r (next s a) (run next' (acts s a) t)) (as : List α) {s : σ} {t : τ}
    (hr : r s t) : r (run next as s) (run next' (given next acts as s) t) := by
  induction as generalizing s t with
  | nil => exact hr
  | cons a as ih =>
    rw [run,given,run_append]
    exact ih (h s t a hr)

theorem run_projected (h : Projects next next' f acts) (as : List α) (s : σ) :
    f (run next as s) = run next' (given next acts as s) (f s) := by
  refine run_related (r := fun s t => f s = t) (fun s t a hr => ?_) as rfl
  rw [h s a,hr]

theorem along_projected (h : Projects next next' f acts) {R : τ → β → Prop} {as : List α}
    {s : σ} (hR : Along next (fun s a => Along next' R (acts s a) (f s)) as s) :
    Along next' R (given next acts as s) (f s) := by
  induction as generalizing s with
  | nil => trivial
  | cons a as ih =>
    refine along_append hR.1 ?_
    rw [← h s a]
    exact ih hR.2

end Library.Projection
