import Mathlib.Data.List.Pairwise
import Mathlib.Order.Basic

/-!
# Logs of timed entries

Entries carry the time they were written at. New entries come in at the back,
and old ones leave from the front, one after the other until the first that is
not old. In a log that is in order this takes out all that are old.
-/

set_option autoImplicit false

namespace Library.TimedLog

variable {T α : Type*}

def Ordered (r : T → T → Prop) (log : List (T × α)) : Prop :=
  log.Pairwise fun a b => r a.1 b.1

def expire (old : T → Bool) (log : List (T × α)) : List (T × α) :=
  log.dropWhile fun entry => old entry.1

variable {r : T → T → Prop} {old : T → Bool} {log : List (T × α)}

theorem mem_expire {entry : T × α} (h : entry ∈ expire old log) : entry ∈ log :=
  (List.dropWhile_sublist _).subset h

theorem ordered_expire (h : Ordered r log) : Ordered r (expire old log) :=
  List.Pairwise.sublist (List.dropWhile_sublist _) h

theorem ordered_append {t : T} {v : α} (h : Ordered r log) (hlast : ∀ a ∈ log, r a.1 t) :
    Ordered r (log++[(t,v)]) := by
  refine List.pairwise_append.mpr ⟨h,List.pairwise_singleton _ _,fun a ha b hb => ?_⟩
  rw [List.mem_singleton.mp hb]
  exact hlast a ha

theorem forall_append (P : T → Prop) {t : T} {v : α} (h : ∀ a ∈ log, P a.1) (ht : P t) :
    ∀ a ∈ log++[(t,v)], P a.1 := by
  intro a ha
  rcases List.mem_append.mp ha with ha | ha
  · exact h a ha
  · rw [List.mem_singleton.mp ha]
    exact ht

/-- When an entry is old, so is each before it: then no old entry stays. -/
theorem expire_young (h : Ordered (fun s t => old t = true → old s = true) log) :
    ∀ a ∈ expire old log, old a.1 = false := by
  induction log with
  | nil => exact fun _ ha => nomatch ha
  | cons b rest ih =>
    obtain ⟨hfirst,hrest⟩ := List.pairwise_cons.mp h
    intro a ha
    cases hb : old b.1 with
    | true =>
      rw [expire,List.dropWhile_cons,hb,if_pos rfl] at ha
      exact ih hrest a ha
    | false =>
      rw [expire,List.dropWhile_cons,hb,if_neg Bool.false_ne_true] at ha
      rcases List.mem_cons.mp ha with rfl | ha
      · exact hb
      · cases ha' : old a.1 with
        | true => rw [hfirst a ha ha'] at hb; cases hb
        | false => rfl

end Library.TimedLog
