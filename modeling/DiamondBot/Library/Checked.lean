import Mathlib.Algebra.BigOperators.Group.List.Basic
import Mathlib.Algebra.Order.Ring.Nat

/-!
# Checked machine arithmetic

Natural numbers stand for unsigned machine integers. An operation that leaves
the type fails with the message of the checked operator, and a failed test
fails with the message it was given. Each operation has one lemma that says
when it succeeds and with what value.
-/

set_option autoImplicit false

namespace Library.Checked

variable {ε : Type*} {α β : Type}

def add (width a b : ℕ) : Except String ℕ :=
  if a+b < 2^width then .ok (a+b) else .error "attempt to add with overflow"

def sub (a b : ℕ) : Except String ℕ :=
  if b ≤ a then .ok (a-b) else .error "attempt to subtract with overflow"

def mul (width a b : ℕ) : Except String ℕ :=
  if a*b < 2^width then .ok (a*b) else .error "attempt to multiply with overflow"

def div (a b : ℕ) : Except String ℕ :=
  if b = 0 then .error "attempt to divide by zero" else .ok (a/b)

def rem (a b : ℕ) : Except String ℕ :=
  if b = 0 then .error "attempt to calculate the remainder with a divisor of zero"
  else .ok (a%b)

def require (p : Prop) [Decidable p] (message : String) : Except String Unit :=
  if p then .ok () else .error message

def expect (x : Option α) (message : String) : Except String α :=
  match x with
  | some a => .ok a
  | none => .error message

def sum (width : ℕ) : List ℕ → ℕ → Except String ℕ
  | [], total => .ok total
  | a::as, total => do sum width as (← add width total a)

theorem bind_ok {x : Except ε α} {f : α → Except ε β} {b : β} :
    x >>= f = .ok b ↔ ∃ a, x = .ok a ∧ f a = .ok b := by
  cases x with
  | ok a => exact ⟨fun h => ⟨a,rfl,h⟩,fun ⟨_,ha,h⟩ => by cases ha; exact h⟩
  | error e => exact ⟨fun h => (nomatch h),fun ⟨_,ha,_⟩ => (nomatch ha)⟩

theorem map_ok {x : Except ε α} {f : α → β} {b : β} :
    x.map f = .ok b ↔ ∃ a, x = .ok a ∧ f a = b := by
  cases x with
  | ok a => exact ⟨fun h => ⟨a,rfl,by cases h; rfl⟩,fun ⟨_,ha,h⟩ => by cases ha; rw [← h]; rfl⟩
  | error e => exact ⟨fun h => (nomatch h),fun ⟨_,ha,_⟩ => (nomatch ha)⟩

theorem mapError_ok {x : Except String α} {f : String → ε} {a : α} :
    x.mapError f = .ok a ↔ x = .ok a := by
  cases x <;> simp [Except.mapError]

theorem add_ok {width a b c : ℕ} : add width a b = .ok c ↔ a+b < 2^width ∧ c = a+b := by
  unfold add
  split
  · simp_all [eq_comm]
  · simp only [reduceCtorEq,false_iff]; omega

theorem sub_ok {a b c : ℕ} : sub a b = .ok c ↔ b ≤ a ∧ c = a-b := by
  unfold sub
  split
  · simp_all [eq_comm]
  · simp only [reduceCtorEq,false_iff]; omega

theorem mul_ok {width a b c : ℕ} : mul width a b = .ok c ↔ a*b < 2^width ∧ c = a*b := by
  unfold mul
  split
  · simp_all [eq_comm]
  · simp only [reduceCtorEq,false_iff]; omega

theorem rem_ok {a b c : ℕ} : rem a b = .ok c ↔ b ≠ 0 ∧ c = a%b := by
  unfold rem
  split <;> simp_all [eq_comm]

theorem require_ok {p : Prop} [Decidable p] {message : String} {u : Unit} :
    require p message = .ok u ↔ p := by
  unfold require
  split <;> simp_all

theorem expect_ok {x : Option α} {message : String} {a : α} :
    expect x message = .ok a ↔ x = some a := by
  cases x <;> simp [expect]

theorem add_error {width a b : ℕ} {e : String} (h : add width a b = .error e) :
    e = "attempt to add with overflow" := by
  unfold add at h
  split at h <;> cases h
  rfl

theorem sub_error {a b : ℕ} {e : String} (h : sub a b = .error e) :
    e = "attempt to subtract with overflow" := by
  unfold sub at h
  split at h <;> cases h
  rfl

theorem require_error {p : Prop} [Decidable p] {message e : String}
    (h : require p message = .error e) : e = message := by
  unfold require at h
  split at h <;> cases h
  rfl

theorem expect_error {x : Option α} {message e : String} (h : expect x message = .error e) :
    e = message := by
  cases x with
  | some a => cases h
  | none => cases h; rfl

theorem sum_error {width : ℕ} {as : List ℕ} {total : ℕ} {e : String}
    (h : sum width as total = .error e) : e = "attempt to add with overflow" := by
  induction as generalizing total with
  | nil => cases h
  | cons a as ih =>
    cases hadd : add width total a with
    | ok b =>
      simp only [sum,hadd,bind,Except.bind] at h
      exact ih h
    | error e' =>
      simp only [sum,hadd,bind,Except.bind] at h
      cases h
      exact add_error hadd

theorem sum_ok {width : ℕ} (as : List ℕ) {total c : ℕ}
    (h : sum width as total = .ok c) : c = total+as.sum := by
  induction as generalizing total with
  | nil => cases h; simp
  | cons a as ih =>
    obtain ⟨b,hb,h⟩ := bind_ok.mp h
    rw [ih h,(add_ok.mp hb).2,List.sum_cons,add_assoc]

theorem sum_eq (width : ℕ) (as : List ℕ) (total : ℕ) : sum width as total =
    if as = [] ∨ total+as.sum < 2^width then .ok (total+as.sum)
    else .error "attempt to add with overflow" := by
  induction as generalizing total with
  | nil => simp [sum]
  | cons a as ih =>
    simp only [sum,add,bind,Except.bind,List.sum_cons,reduceCtorEq,false_or]
    by_cases ha : total+a < 2^width
    · simp only [ha,if_true,ih,Nat.add_assoc]
      by_cases has : as = []
      · simp [has,ha]
      · simp only [has,false_or]
    · have hmore : ¬total+(a+as.sum) < 2^width := by omega
      simp only [ha,hmore,if_false]

theorem sum_zero (width : ℕ) (as : List ℕ) : sum width as 0 =
    if as.sum < 2^width then .ok as.sum else .error "attempt to add with overflow" := by
  rw [sum_eq,Nat.zero_add]
  by_cases has : as = []
  · subst has
    simp
  · simp only [has,false_or]

end Library.Checked
