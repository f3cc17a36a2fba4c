import Mathlib.Algebra.Order.Ring.Nat
import Mathlib.Data.List.Basic

/-!
# A key repeated over a text

Each element of a text is combined with the element of the key at its position,
the key starting over at its end. An iterator that starts over yields just this
stream. Where the key elements can be taken off again, masking twice gives the
text back; where a text element can be, the stream shows itself.
-/

set_option autoImplicit false

namespace Library.KeyStream

variable {α : Type*}

def stream (key : List α) (h : key ≠ []) (i : ℕ) : α :=
  key.get ⟨i%key.length,Nat.mod_lt i (List.length_pos_of_ne_nil h)⟩

def masked (op : α → α → α) (stream : ℕ → α) (data : List α) : List α :=
  data.mapIdx fun i d => op d (stream i)

def cycleFrom (orig : List α) : List α → ℕ → List α
  | _, 0 => []
  | c::rest, n+1 => c::cycleFrom orig rest n
  | [], n+1 => match orig with
    | [] => []
    | c::rest => c::cycleFrom orig rest n

def cycle (orig : List α) (n : ℕ) : List α := cycleFrom orig orig n

theorem cycleFrom_restart {orig rest : List α} {c : α} (h : orig = c::rest) (n : ℕ) :
    cycleFrom orig [] (n+1) = c::cycleFrom orig rest n := by
  subst h
  rfl

theorem cycleFrom_getElem? {orig pre rest : List α} (horig : orig = pre++rest) (h : orig ≠ [])
    {n i : ℕ} (hi : i < n) :
    (cycleFrom orig rest n)[i]? = orig[(pre.length+i)%orig.length]? := by
  induction n generalizing pre rest i with
  | zero => omega
  | succ n ih =>
    have hnext : ∀ (c : α) (pre' rest' : List α), orig = pre'++c::rest' →
        (c::cycleFrom orig rest' n)[i]? = orig[(pre'.length+i)%orig.length]? := by
      intro c pre' rest' hsplit
      cases i with
      | zero =>
        have hlt : pre'.length < orig.length := by
          rw [hsplit,List.length_append,List.length_cons]
          omega
        rw [Nat.add_zero,Nat.mod_eq_of_lt hlt,List.getElem?_cons_zero]
        rw [hsplit,List.getElem?_append_right le_rfl,Nat.sub_self,List.getElem?_cons_zero]
      | succ j =>
        have hrest : orig = (pre'++[c])++rest' := by rw [hsplit,List.append_assoc]; rfl
        rw [List.getElem?_cons_succ,ih hrest (by omega),List.length_append,List.length_singleton,
          Nat.add_assoc,Nat.add_comm 1 j]
    cases rest with
    | cons c rest => exact hnext c pre rest horig
    | nil =>
      obtain ⟨c,rest,hhead⟩ := List.exists_cons_of_ne_nil h
      have hagain := hnext c [] rest hhead
      rw [List.length_nil,Nat.zero_add] at hagain
      rw [List.append_nil] at horig
      rw [cycleFrom_restart hhead,hagain,← horig,Nat.add_mod_left]

theorem cycle_getElem? {key : List α} (h : key ≠ []) {n i : ℕ} (hi : i < n) :
    (cycle key n)[i]? = some (stream key h i) := by
  have hall : key = []++key := rfl
  rw [cycle,cycleFrom_getElem? hall h hi,List.length_nil,Nat.zero_add,stream]
  exact List.getElem?_eq_getElem _

theorem cycle_nil (n : ℕ) : cycle ([] : List α) n = [] := by
  cases n with
  | zero => rfl
  | succ n => rfl

section Masked

variable {op : α → α → α} {key : List α}

theorem masked_getElem? (s : ℕ → α) (data : List α) (i : ℕ) :
    (masked op s data)[i]? = data[i]?.map fun d => op d (s i) :=
  List.getElem?_mapIdx

theorem zipWith_cycle (h : key ≠ []) (data : List α) :
    List.zipWith op data (cycle key data.length) = masked op (stream key h) data := by
  apply List.ext_getElem?
  intro i
  rw [List.getElem?_zipWith,masked_getElem?]
  by_cases hi : i < data.length
  · rw [cycle_getElem? h hi,List.getElem?_eq_getElem hi]
    rfl
  · rw [List.getElem?_eq_none (not_lt.mp hi)]
    rfl

theorem masked_masked (hop : ∀ a k, op (op a k) k = a) (s : ℕ → α) (data : List α) :
    masked op s (masked op s data) = data := by
  apply List.ext_getElem?
  intro i
  rw [masked_getElem?,masked_getElem?,Option.map_map]
  cases data[i]? with
  | none => rfl
  | some d => exact congrArg some (hop d (s i))

theorem key_of_masked (hop : ∀ a k, op a (op a k) = k) (h : key ≠ []) {data : List α}
    (hlong : key.length ≤ data.length) :
    (List.zipWith op data (masked op (stream key h) data)).take key.length = key := by
  apply List.ext_getElem?
  intro i
  by_cases hi : i < key.length
  · have hkey : key[i]? = some (stream key h i) := by
      rw [stream,List.getElem?_eq_getElem hi]
      exact congrArg some (by simp [Nat.mod_eq_of_lt hi])
    rw [List.getElem?_take_of_lt hi,List.getElem?_zipWith,masked_getElem?,
      List.getElem?_eq_getElem (hi.trans_le hlong),hkey]
    exact congrArg some (hop _ _)
  · rw [List.getElem?_eq_none (not_lt.mp hi)]
    exact List.getElem?_eq_none ((List.length_take_le _ _).trans (not_lt.mp hi))

end Masked

end Library.KeyStream
