import Mathlib.Data.Finset.Card
import Mathlib.Data.List.Dedup

/-!
# Quorums over lists of signers

A list of signers backs a threshold among the members when that many distinct
accounts are on both lists. For a list without repetitions this is a count:
the signers who are no longer members are the only ones lost.
-/

set_option autoImplicit false

namespace Library.Quorum

variable {α : Type*} [DecidableEq α]

def distinct (l : List α) : ℕ := l.toFinset.card

def Backed (members signers : List α) (threshold : ℕ) : Prop :=
  ∃ backers : Finset α, threshold ≤ backers.card ∧
    ∀ a ∈ backers, a ∈ members ∧ a ∈ signers

def revoked (members signers : List α) : ℕ :=
  (signers.filter fun a => a ∉ members).length

theorem distinct_of_nodup {l : List α} (h : l.Nodup) : distinct l = l.length :=
  List.toFinset_card_of_nodup h

theorem distinct_le_length (l : List α) : distinct l ≤ l.length :=
  List.toFinset_card_le l

theorem distinct_le_of_subset {l k : List α} (h : ∀ a ∈ l, a ∈ k) :
    distinct l ≤ distinct k := by
  apply Finset.card_le_card
  intro a ha
  exact List.mem_toFinset.mpr (h a (List.mem_toFinset.mp ha))

theorem backed_iff_filter {members signers : List α} {threshold : ℕ} :
    Backed members signers threshold ↔
      threshold ≤ distinct (signers.filter fun a => a ∈ members) := by
  constructor
  · rintro ⟨backers,hcard,hmem⟩
    apply hcard.trans
    apply Finset.card_le_card
    intro a ha
    simpa using And.comm.mp (hmem a ha)
  · intro h
    refine ⟨_,h,?_⟩
    intro a ha
    simpa [and_comm] using ha

theorem backed_iff {members signers : List α} {threshold : ℕ} (h : signers.Nodup) :
    Backed members signers threshold ↔
      threshold+revoked members signers ≤ signers.length := by
  rw [backed_iff_filter,distinct_of_nodup (h.filter _)]
  have hs := List.length_eq_length_filter_add (l := signers) (fun a => decide (a ∈ members))
  have hr : revoked members signers =
      (signers.filter fun a => !decide (a ∈ members)).length := by
    simp [revoked]
  omega

theorem revoked_append_member {members signers : List α} {a : α} (h : a ∈ members) :
    revoked members (signers++[a]) = revoked members signers := by
  simp [revoked,List.filter_append,h]

end Library.Quorum
