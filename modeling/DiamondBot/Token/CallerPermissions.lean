import DiamondBot.Token.ModuleManager
import Mathlib.Data.Set.Basic

/-!
# The permissions of calling contracts

What the registry keeps for a contract is a list that is merged, filtered and
deleted. Seen from outside it is a set of pairs of a contract and a permission:
an authorization adds pairs and a revocation removes pairs, and nothing else
touches them. The step lemma says so for one call, the run lemma for all.
-/

set_option autoImplicit false

namespace DiamondBot.ModuleManager
open NearRuntime Library

/-! ## The set model -/

def permit : Op → Set (AccountId × String) → Set (AccountId × String)
  | .authorizeCaller contractId permissions, granted =>
    granted ∪ {x | x.1 = contractId ∧ x.2 ∈ permissions}
  | .revokeCaller contractId (some permissions), granted =>
    granted \ {x | x.1 = contractId ∧ x.2 ∈ permissions}
  | .revokeCaller contractId none, granted => granted \ {x | x.1 = contractId}
  | _, granted => granted

def permissionSet (calls : List Call) : Set (AccountId × String) :=
  AtomicRun.run (fun granted c => permit c.op granted) calls ∅

/-! ## The stored lists -/

def granted (m : ModuleManager) : Set (AccountId × String) :=
  {x | ∃ permissions, m.authorizedCallers.lookup x.1 = some permissions ∧ x.2 ∈ permissions}

def NoRepeats (m : ModuleManager) : Prop :=
  ∀ contractId permissions, m.authorizedCallers.lookup contractId = some permissions →
    permissions.Nodup

def Op.contract : Op → Option AccountId
  | .authorizeCaller contractId _ => some contractId
  | .revokeCaller contractId _ => some contractId
  | _ => none

/-- An authorization or a revocation by an admin. -/
def PermissionByAdmin (m : ModuleManager) (c : Call) : Prop :=
  m.isAdmin c.env.predecessorAccountId ∧ c.op.contract.isSome

theorem mem_addPermissions {current perms : List String} {p : String} :
    p ∈ addPermissions current perms ↔ p ∈ current ∨ p ∈ perms := by
  induction perms generalizing current with
  | nil => simp [addPermissions]
  | cons perm perms ih =>
    rw [addPermissions,ih,List.mem_cons]
    by_cases hperm : perm ∈ current
    · rw [if_pos hperm]
      constructor
      · rintro (h | h)
        · exact Or.inl h
        · exact Or.inr (Or.inr h)
      · rintro (h | rfl | h)
        · exact Or.inl h
        · exact Or.inl hperm
        · exact Or.inr h
    · rw [if_neg hperm,List.mem_append,List.mem_singleton,or_assoc]

theorem addPermissions_nodup {current : List String} (perms : List String)
    (h : current.Nodup) : (addPermissions current perms).Nodup := by
  induction perms generalizing current with
  | nil => exact h
  | cons perm perms ih =>
    apply ih
    by_cases hperm : perm ∈ current
    · rwa [if_pos hperm]
    · rw [if_neg hperm]
      exact List.nodup_append_comm.mp (List.nodup_cons.mpr ⟨hperm,h⟩)

theorem mem_granted {m : ModuleManager} {contractId : AccountId} {p : String} :
    (contractId,p) ∈ m.granted ↔ p ∈ (m.authorizedCallers.lookup contractId).getD [] := by
  unfold granted
  rw [Set.mem_ofPred_eq]
  cases m.authorizedCallers.lookup contractId with
  | some permissions => simp
  | none => simp

theorem hasPermission_iff {m : ModuleManager} {contractId : AccountId} {p : String}
    (h : contractId ∉ m.admins) :
    m.hasPermission contractId p = true ↔ (contractId,p) ∈ m.granted := by
  unfold hasPermission
  rw [if_neg h,mem_granted]
  cases m.authorizedCallers.lookup contractId with
  | some permissions => simp
  | none => simp

/-! ## One call -/

theorem granted_insert {m m' : ModuleManager} {contractId : AccountId} {perms : List String}
    (h : m'.authorizedCallers = m.authorizedCallers.insert contractId perms) (d : AccountId)
    (p : String) : (d,p) ∈ m'.granted ↔ if d = contractId then p ∈ perms else (d,p) ∈ m.granted := by
  rw [mem_granted,h]
  by_cases hd : d = contractId
  · rw [if_pos hd,hd,AList.lookup_insert,Option.getD_some]
  · rw [if_neg hd,AList.lookup_insert_ne hd,mem_granted]

theorem granted_erase {m m' : ModuleManager} {contractId : AccountId}
    (h : m'.authorizedCallers = m.authorizedCallers.erase contractId) (d : AccountId)
    (p : String) : (d,p) ∈ m'.granted ↔ d ≠ contractId ∧ (d,p) ∈ m.granted := by
  rw [mem_granted,h]
  by_cases hd : d = contractId
  · rw [hd,AList.lookup_erase]
    simp
  · rw [AList.lookup_erase_ne hd,mem_granted]
    simp [hd]

theorem assertAdmin_ok {m : ModuleManager} {env : Env}
    (h : m.isAdmin env.predecessorAccountId) : m.assertAdmin env = .ok () :=
  if_pos h

theorem authorizeCaller_granted {m : ModuleManager} {env : Env} (contractId : AccountId)
    (permissions : List String) (h : m.isAdmin env.predecessorAccountId) :
    (m.next ⟨env,.authorizeCaller contractId permissions⟩).granted =
      permit (.authorizeCaller contractId permissions) m.granted := by
  have hnext : m.next ⟨env,.authorizeCaller contractId permissions⟩ =
      { m with authorizedCallers := m.authorizedCallers.insert contractId (addPermissions
        ((m.authorizedCallers.lookup contractId).getD []) permissions) } := by
    apply AtomicRun.settle_ok
    simp only [step,authorizeCaller,assertAdmin_ok h,bind,Except.bind]
    rfl
  ext ⟨d,p⟩
  rw [granted_insert (congrArg authorizedCallers hnext)]
  change _ ↔ (d,p) ∈ m.granted ∨ d = contractId ∧ p ∈ permissions
  by_cases hd : d = contractId
  · subst hd
    rw [if_pos rfl,mem_addPermissions,mem_granted]
    simp
  · simp [hd]

theorem revokeSome_granted {m : ModuleManager} {env : Env} (contractId : AccountId)
    (perms : List String) (h : m.isAdmin env.predecessorAccountId) :
    (m.next ⟨env,.revokeCaller contractId (some perms)⟩).granted =
      permit (.revokeCaller contractId (some perms)) m.granted := by
  ext ⟨d,p⟩
  change _ ↔ (d,p) ∈ m.granted ∧ ¬(d = contractId ∧ p ∈ perms)
  cases hlookup : m.authorizedCallers.lookup contractId with
  | none =>
    have hnext : m.next ⟨env,.revokeCaller contractId (some perms)⟩ = m := by
      apply AtomicRun.settle_ok
      simp only [step,revokeCaller,assertAdmin_ok h,hlookup,bind,Except.bind]
      rfl
    rw [hnext]
    constructor
    · intro hp
      refine ⟨hp,?_⟩
      rintro ⟨rfl,_⟩
      rw [mem_granted,hlookup] at hp
      exact absurd hp List.not_mem_nil
    · exact And.left
  | some current =>
    have hnext : m.next ⟨env,.revokeCaller contractId (some perms)⟩ =
        { m with authorizedCallers :=
          if (current.filter fun q => q ∉ perms).isEmpty then m.authorizedCallers.erase contractId
          else m.authorizedCallers.insert contractId (current.filter fun q => q ∉ perms) } := by
      apply AtomicRun.settle_ok
      simp only [step,revokeCaller,assertAdmin_ok h,hlookup,bind,Except.bind]
      rfl
    by_cases hempty : (current.filter fun q => q ∉ perms).isEmpty
    · rw [if_pos hempty] at hnext
      rw [granted_erase (congrArg authorizedCallers hnext)]
      by_cases hd : d = contractId
      · subst hd
        have hall : ∀ q ∈ current, q ∈ perms := by simpa using hempty
        rw [mem_granted,hlookup]
        constructor
        · rintro ⟨hne,_⟩
          exact absurd rfl hne
        · rintro ⟨hp,hnot⟩
          exact absurd ⟨rfl,hall p hp⟩ hnot
      · simp [hd]
    · rw [if_neg hempty] at hnext
      rw [granted_insert (congrArg authorizedCallers hnext)]
      by_cases hd : d = contractId
      · subst hd
        rw [if_pos rfl,mem_granted,hlookup]
        simp
      · simp [hd]

theorem revokeAll_granted {m : ModuleManager} {env : Env} (contractId : AccountId)
    (h : m.isAdmin env.predecessorAccountId) :
    (m.next ⟨env,.revokeCaller contractId none⟩).granted =
      permit (.revokeCaller contractId none) m.granted := by
  have hnext : m.next ⟨env,.revokeCaller contractId none⟩ =
      { m with authorizedCallers := m.authorizedCallers.erase contractId } := by
    apply AtomicRun.settle_ok
    simp only [step,revokeCaller,assertAdmin_ok h,bind,Except.bind]
    rfl
  ext ⟨d,p⟩
  rw [granted_erase (congrArg authorizedCallers hnext)]
  exact and_comm

theorem next_granted {m : ModuleManager} {c : Call} (h : m.PermissionByAdmin c) :
    (m.next c).granted = permit c.op m.granted := by
  obtain ⟨env,op⟩ := c
  obtain ⟨hadmin,hop⟩ := h
  cases op with
  | authorizeCaller contractId permissions =>
    exact authorizeCaller_granted contractId permissions hadmin
  | revokeCaller contractId permissions =>
    cases permissions with
    | some perms => exact revokeSome_granted contractId perms hadmin
    | none => exact revokeAll_granted contractId hadmin
  | _ => cases hop

/-- What a call about one contract stores, accepted or not: the list of that
contract is replaced or deleted. -/
theorem next_callers {m : ModuleManager} {c : Call} {contractId : AccountId}
    (hop : c.op.contract = some contractId) :
    ∃ callers, m.next c = { m with authorizedCallers := callers } ∧
      (callers = m.authorizedCallers ∨ callers = m.authorizedCallers.erase contractId ∨
        ∃ l, callers = m.authorizedCallers.insert contractId l ∧ (m.NoRepeats → l.Nodup)) := by
  rcases AtomicRun.settle_cases step m c with hstep | hstep
  · change step m c = .ok (m.next c) at hstep
    generalize m.next c = m' at hstep
    obtain ⟨env,op⟩ := c
    cases op with
    | authorizeCaller k permissions =>
      cases hop
      obtain ⟨r,hr,rfl⟩ := Checked.map_ok.mp hstep
      obtain ⟨_,_,hr⟩ := Checked.bind_ok.mp hr
      cases hr
      refine ⟨_,rfl,Or.inr (Or.inr ⟨_,rfl,fun h => addPermissions_nodup permissions ?_⟩)⟩
      cases hlookup : m.authorizedCallers.lookup contractId with
      | none => exact List.nodup_nil
      | some current => exact h contractId current hlookup
    | revokeCaller k permissions =>
      cases hop
      obtain ⟨r,hr,rfl⟩ := Checked.map_ok.mp hstep
      obtain ⟨_,_,hr⟩ := Checked.bind_ok.mp hr
      cases permissions with
      | none =>
        cases hr
        exact ⟨_,rfl,Or.inr (Or.inl rfl)⟩
      | some perms =>
        cases hlookup : m.authorizedCallers.lookup contractId with
        | none =>
          rw [hlookup] at hr
          cases hr
          exact ⟨_,rfl,Or.inl rfl⟩
        | some current =>
          rw [hlookup] at hr
          cases hr
          refine ⟨_,rfl,Or.inr ?_⟩
          split
          · exact Or.inl rfl
          · exact Or.inr ⟨_,rfl,fun h => (h contractId current hlookup).filter _⟩
    | _ => cases hop
  · exact ⟨m.authorizedCallers,hstep,Or.inl rfl⟩

theorem next_noRepeats (m : ModuleManager) (c : Call) (h : m.NoRepeats)
    (hc : m.PermissionByAdmin c) : (m.next c).NoRepeats := by
  obtain ⟨contractId,hop⟩ := Option.isSome_iff_exists.mp hc.2
  obtain ⟨callers,hnext,hcallers⟩ := next_callers (m := m) hop
  rw [hnext]
  rcases hcallers with rfl | rfl | ⟨l,rfl,hl⟩
  · exact h
  · intro d permissions hd
    by_cases hdk : d = contractId
    · rw [hdk] at hd
      exact absurd ((AList.lookup_erase contractId m.authorizedCallers).symm.trans hd) (by simp)
    · exact h d permissions ((AList.lookup_erase_ne hdk).symm.trans hd)
  · intro d permissions hd
    by_cases hdk : d = contractId
    · rw [hdk] at hd
      cases (AList.lookup_insert m.authorizedCallers).symm.trans hd
      exact hl h
    · exact h d permissions ((AList.lookup_insert_ne hdk).symm.trans hd)

theorem next_others {m : ModuleManager} {c : Call} {contractId d : AccountId}
    (hop : c.op.contract = some contractId) (hd : d ≠ contractId) (p : String) :
    (m.next c).hasPermission d p = m.hasPermission d p := by
  obtain ⟨callers,hnext,hcallers⟩ := next_callers (m := m) hop
  have hlookup : callers.lookup d = m.authorizedCallers.lookup d := by
    rcases hcallers with rfl | rfl | ⟨l,rfl,_⟩
    · rfl
    · exact AList.lookup_erase_ne hd
    · exact AList.lookup_insert_ne hd
  rw [hnext]
  simp only [hasPermission,hlookup]

/-! ## All calls -/

theorem run_granted {m : ModuleManager} {calls : List Call}
    (h : AtomicRun.Along next PermissionByAdmin calls m) :
    (AtomicRun.run next calls m).granted =
      AtomicRun.run (fun granted c => permit c.op granted) calls m.granted := by
  induction calls generalizing m with
  | nil => rfl
  | cons c calls ih =>
    rw [AtomicRun.run,AtomicRun.run,ih h.2,next_granted h.1]

/-- After any authorizations and revocations by admins, a contract that is not
an admin holds exactly the permissions of the set model, no list repeats one,
and no call has touched another contract. -/
theorem permissions_refine {ownerId : AccountId} {initAdmins : Option (List AccountId)}
    {calls : List Call} (h : AtomicRun.Along next PermissionByAdmin calls (new ownerId initAdmins)) :
    (∀ contractId p, contractId ∉ (AtomicRun.run next calls (new ownerId initAdmins)).admins →
      ((AtomicRun.run next calls (new ownerId initAdmins)).hasPermission contractId p = true ↔
        (contractId,p) ∈ permissionSet calls)) ∧
    (AtomicRun.run next calls (new ownerId initAdmins)).NoRepeats ∧
    ∀ (m : ModuleManager) (c : Call) (contractId d : AccountId) (p : String),
      c.op.contract = some contractId → d ≠ contractId →
      (m.next c).hasPermission d p = m.hasPermission d p := by
  have hnone : (new ownerId initAdmins).granted = ∅ := by
    ext ⟨d,p⟩
    rw [mem_granted]
    simp [new]
  refine ⟨fun contractId p hc => ?_,?_,fun _ _ _ _ p hop hd => next_others hop hd p⟩
  · rw [hasPermission_iff hc,run_granted h,hnone]
    rfl
  · apply AtomicRun.run_invariant_along next_noRepeats _ h
    rintro d permissions ⟨⟩

def farmAuthorized : List Call := [
  ⟨firstBlock "owner.near" "diamond.near",
    .authorizeCaller "farm.near" ["mint","burn","mint"]⟩,
  ⟨firstBlock "owner.near" "diamond.near",.revokeCaller "farm.near" (some ["burn"])⟩]

theorem permissions_refine_farm :
    ("farm.near","mint") ∈ permissionSet farmAuthorized ∧
      ("farm.near","burn") ∉ permissionSet farmAuthorized := by
  have hcalls : AtomicRun.Along next PermissionByAdmin farmAuthorized (new "owner.near" none) :=
    ⟨⟨by decide,rfl⟩,⟨by decide,rfl⟩,trivial⟩
  have hrefine := (permissions_refine hcalls).1
  constructor
  · exact (hrefine "farm.near" "mint" (by decide)).mp (by decide)
  · intro hburn
    exact absurd ((hrefine "farm.near" "burn" (by decide)).mpr hburn) (by decide)

end DiamondBot.ModuleManager
