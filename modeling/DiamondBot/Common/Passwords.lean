import DiamondBot.Common.UserManager
import DiamondBot.Library.AtomicRun

/-!
# Which password opens an account

A new user's password is hashed with one library and checked with it at login.
A changed or reset password is hashed with another library, whose hashes the
check refuses, so the account it belongs to cannot be opened any more.
-/

set_option autoImplicit false

namespace DiamondBot.Common

open Library

namespace PasswordHash

/-- A library checks exactly the passwords that its own hashes were made from. -/
def Exact (lib : PasswordHash) : Prop :=
  ∀ password salt hash, lib.hash password salt = .ok hash →
    ∀ other, lib.verify other hash = .ok true ↔ other = password

/-- A library accepts no password for the hashes of another. -/
def Refuses (lib other : PasswordHash) : Prop :=
  ∀ password salt hash, other.hash password salt = .ok hash →
    ∀ guess, lib.verify guess hash ≠ .ok true

end PasswordHash

theorem User.verifyPassword_iff {bcrypt : PasswordHash} {u : User} {password : String} :
    u.verifyPassword bcrypt password = true ↔ bcrypt.verify password u.passwordHash = .ok true := by
  unfold verifyPassword
  cases bcrypt.verify password u.passwordHash with
  | error e => simp
  | ok result => simp

def User.signsIn (bcrypt : PasswordHash) (username password : String) (u : User) : Bool :=
  u.username = username && u.verifyPassword bcrypt password && u.active

theorem User.signsIn_iff {bcrypt : PasswordHash} {username password : String} {u : User} :
    u.signsIn bcrypt username password = true ↔
      u.username = username ∧ u.verifyPassword bcrypt password = true ∧ u.active = true := by
  simp [signsIn,and_assoc]

namespace UserManager

variable {json : Json Users}

theorem find_some {s : UserManager} {p : User → Bool} {user : User} (h : s.find p = some user) :
    p user = true ∧ ∃ k, s.users.lookup k = some user := by
  have hmem := List.mem_of_find?_eq_some h
  obtain ⟨⟨k,u⟩,hentry,hu⟩ := List.mem_map.mp hmem
  simp only at hu
  subst hu
  exact ⟨List.find?_some h,k,AList.mem_lookup_iff.mpr hentry⟩

theorem find_none {s : UserManager} {p : User → Bool} (h : s.find p = none) {k : String}
    {user : User} (hk : s.users.lookup k = some user) : p user = false := by
  have hmem : user ∈ s.users.entries.map Sigma.snd :=
    List.mem_map.mpr ⟨⟨k,user⟩,AList.mem_lookup_iff.mp hk,rfl⟩
  have hnot := List.find?_eq_none.mp h user hmem
  exact Bool.not_eq_true _ ▸ hnot

theorem authenticate_none {bcrypt : PasswordHash} {s : UserManager} {fault : Option DiskFault}
    {now : ℕ} {username password : String}
    (h : s.find (User.signsIn bcrypt username password) = none) :
    s.authenticate json bcrypt fault now username password =
      (.error "Invalid username or password",s) := by
  unfold User.signsIn at h
  rw [authenticate,h]

theorem authenticate_some {bcrypt : PasswordHash} {s : UserManager} {fault : Option DiskFault}
    {now : ℕ} {username password : String} {u : User}
    (h : s.find (User.signsIn bcrypt username password) = some u) :
    s.authenticate json bcrypt fault now username password =
      changeUser json s fault u.id fun user => .ok (user.updateLastLogin now) := by
  unfold User.signsIn at h
  rw [authenticate,h]

theorem stored_inserted {m : UserManager} {users : Users} {id k : String} {user u : User}
    (husers : m.users = users.insert id user) (h : m.users.lookup k = some u) :
    k = id ∧ u = user ∨ users.lookup k = some u := by
  rw [husers] at h
  by_cases hk : k = id
  · subst hk
    rw [AList.lookup_insert] at h
    cases h
    exact Or.inl ⟨rfl,rfl⟩
  · rw [AList.lookup_insert_ne hk] at h
    exact Or.inr h

theorem save_read {s : UserManager} (h : (save json s none).1 = .ok ()) :
    load json (save json s none).2 = .ok (save json s none).2 :=
  (save_load h).resolve_right (by simp)

/-- Serialization does not fail. -/
def Serializes (json : Json Users) : Prop := ∀ users, ∃ text, json.toText users = .ok text

theorem save_ok (hjson : Serializes json) (s : UserManager) :
    ∃ file, save json s none = (.ok (),{ s with file := some file }) ∧
      load json { s with file := some file } = .ok { s with file := some file } := by
  obtain ⟨text,htext⟩ := hjson s.users
  have hsaved : save json s none = (.ok (),{ s with file := some text.toByteArray }) := by
    rw [save,htext]
  have hload : load json (save json s none).2 = .ok (save json s none).2 :=
    save_read (by rw [hsaved])
  rw [hsaved] at hload
  exact ⟨_,hsaved,hload⟩

def Saves (json : Json Users) (r : Except String Unit × UserManager) (users : Users) : Prop :=
  r.1 = .ok () ∧ r.2.users = users ∧ load json r.2 = .ok r.2

theorem save_saves (hjson : Serializes json) (s : UserManager) :
    Saves json (save json s none) s.users := by
  obtain ⟨file,hsaved,hload⟩ := save_ok hjson s
  rw [hsaved]
  exact ⟨rfl,rfl,hload⟩

/-- A change in place is refused, or saves the changed user. -/
theorem changeUser_cases (hjson : Serializes json) (s : UserManager) (id : String)
    (change : User → Except String User) :
    ((∃ e, changeUser json s none id change = (.error e,s)) ∧
        ∀ user, s.users.lookup id = some user → ∃ e, change user = .error e) ∨
      ∃ user changed, s.users.lookup id = some user ∧ change user = .ok changed ∧
        Saves json (changeUser json s none id change) (s.users.insert id changed) := by
  unfold changeUser
  cases hlookup : s.users.lookup id with
  | none => exact Or.inl ⟨⟨_,rfl⟩,fun user h => by simp at h⟩
  | some user =>
    cases hchange : change user with
    | error e =>
      left
      refine ⟨⟨e,by simp [hchange]⟩,fun other h => ?_⟩
      cases h
      exact ⟨e,hchange⟩
    | ok changed =>
      right
      refine ⟨user,changed,rfl,hchange,?_⟩
      simp only [hchange]
      exact save_saves hjson { s with users := s.users.insert id changed }

end UserManager

structure PasswordBook where
  manager : UserManager
  passwords : String → Option String

inductive PasswordAction where
  | addUser (fresh : Fresh) (username email password : String)
  | updateUser (now : ℕ) (id : String) (updateFn : User → User)
  | changePassword (now : ℕ) (salt username oldPassword newPassword : String)
  | resetPassword (now : ℕ) (salt id newPassword : String)
  | deleteUser (id : String)
  | authenticate (now : ℕ) (username password : String)
  | restart

namespace PasswordBook

variable (json : Json Users) (bcrypt argon2 : PasswordHash)

def record (s : PasswordBook) (username password : String) :
    Except String Unit × UserManager → PasswordBook
  | (.ok _,m) => ⟨m,Function.update s.passwords username (some password)⟩
  | (.error _,m) => ⟨m,s.passwords⟩

def next (s : PasswordBook) : PasswordAction → PasswordBook
  | .addUser fresh username email password =>
    match User.new bcrypt fresh username email password with
    | .error _ => s
    | .ok user => s.record username password (s.manager.addUser json none user)
  | .updateUser now id updateFn => ⟨(s.manager.updateUser json none now id updateFn).2,s.passwords⟩
  | .changePassword now salt username oldPassword newPassword =>
    s.record username newPassword
      (s.manager.changePassword json bcrypt argon2 none now salt username oldPassword newPassword)
  | .resetPassword now salt id newPassword =>
    match s.manager.users.lookup id with
    | none => s
    | some user => s.record user.username newPassword
        (s.manager.resetPassword json argon2 none now salt id newPassword)
  | .deleteUser id => ⟨(s.manager.deleteUser json none id).2,s.passwords⟩
  | .authenticate now username password =>
    ⟨(s.manager.authenticate json bcrypt none now username password).2,s.passwords⟩
  | .restart =>
    match s.manager.load json with
    | .ok m => ⟨m,s.passwords⟩
    | .error _ => s

/-- `authenticate` succeeds exactly for the password last set for an active user. -/
def Authentic (s : PasswordBook) : Prop := ∀ now username password,
  (s.manager.authenticate json bcrypt none now username password).1 = .ok () ↔
    (∃ id user, s.manager.users.lookup id = some user ∧ user.username = username ∧
      user.active = true) ∧ s.passwords username = some password

/-- What the callers keep to: updates leave the name, the password and the activity of
a user. -/
def Promised (s : PasswordBook) : PasswordAction → Prop
  | .updateUser _ id updateFn => ∀ user, s.manager.users.lookup id = some user →
    (updateFn user).username = user.username ∧
      (updateFn user).passwordHash = user.passwordHash ∧ (updateFn user).active = user.active
  | _ => True

/-- No call changes or resets a password, and every user's id stays the id of a user. -/
def Unchanged (s : PasswordBook) : PasswordAction → Prop
  | .updateUser _ id updateFn => ∀ user, s.manager.users.lookup id = some user →
    ∃ other, s.manager.users.lookup (updateFn user).id = some other
  | .deleteUser id => ∀ k user, s.manager.users.lookup k = some user → k ≠ id → user.id ≠ id
  | .changePassword now salt username oldPassword newPassword =>
    (s.manager.changePassword json bcrypt argon2 none now salt username oldPassword
      newPassword).1 ≠ .ok ()
  | .resetPassword now salt id newPassword =>
    (s.manager.resetPassword json argon2 none now salt id newPassword).1 ≠ .ok ()
  | _ => True

structure Orderly (s : PasswordBook) : Prop where
  distinct : ∀ k k' u u', s.manager.users.lookup k = some u → s.manager.users.lookup k' = some u' →
    u.username = u'.username → k = k'
  active : ∀ k u, s.manager.users.lookup k = some u → u.active = true
  recorded : ∀ k u, s.manager.users.lookup k = some u → ∃ p, s.passwords u.username = some p
  saved : s.manager.load json = .ok s.manager

/-- Every user's hash checks the password on record, and every id is that of a user. -/
structure Sound (s : PasswordBook) : Prop where
  checked : ∀ k u, s.manager.users.lookup k = some u →
    ∀ p, u.verifyPassword bcrypt p = true ↔ s.passwords u.username = some p
  pointed : ∀ k u, s.manager.users.lookup k = some u →
    ∃ v, s.manager.users.lookup u.id = some v

variable {json bcrypt argon2}

variable (bcrypt) in
theorem authenticate_cases (hjson : UserManager.Serializes json) (s : UserManager) (now : ℕ)
    (username password : String) :
    ((∃ e, s.authenticate json bcrypt none now username password = (.error e,s)) ∧
        ∀ u, s.find (User.signsIn bcrypt username password) = some u →
          s.users.lookup u.id = none) ∨
      ∃ u v, s.find (User.signsIn bcrypt username password) = some u ∧
        s.users.lookup u.id = some v ∧
        UserManager.Saves json (s.authenticate json bcrypt none now username password)
          (s.users.insert u.id (v.updateLastLogin now)) := by
  cases hfind : s.find (User.signsIn bcrypt username password) with
  | none =>
    rw [UserManager.authenticate_none hfind]
    exact Or.inl ⟨⟨_,rfl⟩,fun u h => by simp at h⟩
  | some u =>
    rw [UserManager.authenticate_some hfind]
    rcases UserManager.changeUser_cases hjson s u.id fun user => .ok (user.updateLastLogin now) with
      ⟨herror,hnone⟩ | ⟨v,changed,hv,hchange,hsaves⟩
    · left
      refine ⟨herror,fun u' hu' => ?_⟩
      cases hu'
      cases hlookup : s.users.lookup u.id with
      | none => rfl
      | some v =>
        obtain ⟨e,he⟩ := hnone v hlookup
        simp at he
    · right
      cases hchange
      exact ⟨u,v,rfl,hv,hsaves⟩

theorem authenticate_ok_iff (hjson : UserManager.Serializes json) (s : UserManager) (now : ℕ)
    (username password : String) :
    (s.authenticate json bcrypt none now username password).1 = .ok () ↔
      ∃ u v, s.find (User.signsIn bcrypt username password) = some u ∧
        s.users.lookup u.id = some v := by
  rcases authenticate_cases bcrypt hjson s now username password with
    ⟨⟨e,he⟩,hnone⟩ | ⟨u,v,hfind,hv,hsaves⟩
  · rw [he]
    constructor
    · intro h
      simp at h
    · intro ⟨u,v,hfind,hv⟩
      rw [hnone u hfind] at hv
      simp at hv
  · exact iff_of_true hsaves.1 ⟨u,v,hfind,hv⟩

theorem authentic_of_sound (hjson : UserManager.Serializes json) {s : PasswordBook}
    (hsound : Sound bcrypt s) : Authentic json bcrypt s := by
  intro now username password
  rw [authenticate_ok_iff hjson]
  constructor
  · intro ⟨u,v,hfind,_⟩
    obtain ⟨hp,k,hk⟩ := UserManager.find_some hfind
    obtain ⟨hname,hverify,hactive⟩ := User.signsIn_iff.mp hp
    have hpassword := (hsound.checked k u hk password).mp hverify
    rw [hname] at hpassword
    exact ⟨⟨k,u,hk,hname,hactive⟩,hpassword⟩
  · intro ⟨⟨k,u,hk,hname,hactive⟩,hpassword⟩
    cases hfind : s.manager.find (User.signsIn bcrypt username password) with
    | none =>
      have hverify := (hsound.checked k u hk password).mpr (hname ▸ hpassword)
      have hnot := UserManager.find_none hfind hk
      rw [User.signsIn_iff.mpr ⟨hname,hverify,hactive⟩] at hnot
      exact Bool.noConfusion hnot
    | some u' =>
      obtain ⟨_,k',hk'⟩ := UserManager.find_some hfind
      obtain ⟨v,hv⟩ := hsound.pointed k' u' hk'
      exact ⟨u',v,rfl,hv⟩

theorem found_eq {s : PasswordBook} (h : Orderly json s) {k : String} {u u' : User}
    {password : String} (hk : s.manager.users.lookup k = some u)
    (hfind : s.manager.find (User.signsIn bcrypt u.username password) = some u') :
    u' = u ∧ u.verifyPassword bcrypt password = true := by
  obtain ⟨hmatch,k',hk'⟩ := UserManager.find_some hfind
  obtain ⟨hname,hverify,_⟩ := User.signsIn_iff.mp hmatch
  have hkey := h.distinct k' k u' u hk' hk hname
  subst hkey
  rw [hk] at hk'
  cases hk'
  exact ⟨rfl,hverify⟩

theorem sound_of_authentic (hjson : UserManager.Serializes json) {s : PasswordBook}
    (h : Orderly json s) (hauthentic : Authentic json bcrypt s) : Sound bcrypt s := by
  have hopens : ∀ k u p, s.manager.users.lookup k = some u → s.passwords u.username = some p →
      u.verifyPassword bcrypt p = true ∧ ∃ v, s.manager.users.lookup u.id = some v := by
    intro k u p hk hp
    have hok := (hauthentic 0 u.username p).mpr ⟨⟨k,u,hk,rfl,h.active k u hk⟩,hp⟩
    obtain ⟨u',v,hfind,hv⟩ := (authenticate_ok_iff hjson s.manager 0 u.username p).mp hok
    obtain ⟨heq,hverify⟩ := found_eq h hk hfind
    subst heq
    exact ⟨hverify,v,hv⟩
  have hpointed : ∀ k u, s.manager.users.lookup k = some u →
      ∃ v, s.manager.users.lookup u.id = some v := by
    intro k u hk
    obtain ⟨p,hp⟩ := h.recorded k u hk
    exact (hopens k u p hk hp).2
  constructor
  · intro k u hk p
    constructor
    · intro hverify
      have hok : (s.manager.authenticate json bcrypt none 0 u.username p).1 = .ok () := by
        rw [authenticate_ok_iff hjson]
        cases hfind : s.manager.find (User.signsIn bcrypt u.username p) with
        | none =>
          have hnot := UserManager.find_none hfind hk
          rw [User.signsIn_iff.mpr ⟨rfl,hverify,h.active k u hk⟩] at hnot
          exact Bool.noConfusion hnot
        | some u' =>
          obtain ⟨v,hv⟩ := hpointed k u hk
          exact ⟨u',v,rfl,(found_eq h hk hfind).1 ▸ hv⟩
      exact ((hauthentic 0 u.username p).mp hok).2
    · exact fun hp => (hopens k u p hk hp).1
  · exact hpointed

theorem authentic_iff (hjson : UserManager.Serializes json) {s : PasswordBook}
    (h : Orderly json s) : Authentic json bcrypt s ↔ Sound bcrypt s :=
  ⟨sound_of_authentic hjson h,authentic_of_sound hjson⟩

section Changed

variable {s s' : PasswordBook} {id : String} {user changed : User}

theorem changed_lookup (hk : s.manager.users.lookup id = some user)
    (husers : s'.manager.users = s.manager.users.insert id changed)
    (hname : changed.username = user.username) (hactive : changed.active = user.active)
    {k : String} {u : User} (h : s'.manager.users.lookup k = some u) :
    ∃ v, s.manager.users.lookup k = some v ∧ u.username = v.username ∧ u.active = v.active := by
  rcases UserManager.stored_inserted husers h with ⟨hid,heq⟩ | hold
  · subst hid heq
    exact ⟨user,hk,hname,hactive⟩
  · exact ⟨u,hold,rfl,rfl⟩

theorem changed_orderly (h : Orderly json s) (hk : s.manager.users.lookup id = some user)
    (husers : s'.manager.users = s.manager.users.insert id changed)
    (hname : changed.username = user.username) (hactive : changed.active = user.active)
    (hrecorded : ∀ n p, s.passwords n = some p → ∃ q, s'.passwords n = some q)
    (hsaved : s'.manager.load json = .ok s'.manager) : Orderly json s' := by
  constructor
  · intro k k' u u' hu hu' hsame
    obtain ⟨v,hv,hvname,_⟩ := changed_lookup hk husers hname hactive hu
    obtain ⟨v',hv',hvname',_⟩ := changed_lookup hk husers hname hactive hu'
    exact h.distinct k k' v v' hv hv' (hvname ▸ hvname' ▸ hsame)
  · intro k u hu
    obtain ⟨v,hv,_,hvactive⟩ := changed_lookup hk husers hname hactive hu
    rw [hvactive]
    exact h.active k v hv
  · intro k u hu
    obtain ⟨v,hv,hvname,_⟩ := changed_lookup hk husers hname hactive hu
    obtain ⟨p,hp⟩ := h.recorded k v hv
    rw [hvname]
    exact hrecorded v.username p hp
  · exact hsaved

theorem changed_key (hk : s.manager.users.lookup id = some user)
    (husers : s'.manager.users = s.manager.users.insert id changed) (k : String) :
    (∃ u, s'.manager.users.lookup k = some u) ↔ ∃ u, s.manager.users.lookup k = some u := by
  rw [husers]
  by_cases hid : k = id
  · subst hid
    rw [AList.lookup_insert]
    exact iff_of_true ⟨_,rfl⟩ ⟨_,hk⟩
  · rw [AList.lookup_insert_ne hid]

/-- A change that keeps name, hash and record keeps the book sound if and only if the
user's id is still that of a user. -/
theorem changed_sound_iff (hsound : Sound bcrypt s) (hk : s.manager.users.lookup id = some user)
    (husers : s'.manager.users = s.manager.users.insert id changed)
    (hname : changed.username = user.username) (hhash : changed.passwordHash = user.passwordHash)
    (hpasswords : s'.passwords = s.passwords) :
    Sound bcrypt s' ↔ ∃ v, s.manager.users.lookup changed.id = some v := by
  constructor
  · intro h
    rw [← changed_key hk husers]
    apply h.pointed id
    rw [husers,AList.lookup_insert]
  · intro hpointed
    constructor
    · intro k u hu p
      rw [hpasswords]
      rcases UserManager.stored_inserted husers hu with ⟨_,heq⟩ | hold
      · have hchecked := hsound.checked id user hk p
        rw [heq,hname,← hchecked,User.verifyPassword_iff,User.verifyPassword_iff,hhash]
      · exact hsound.checked k u hold p
    · intro k u hu
      rw [changed_key hk husers]
      rcases UserManager.stored_inserted husers hu with ⟨_,heq⟩ | hold
      · rw [heq]
        exact hpointed
      · exact hsound.pointed k u hold

theorem changed_unsound (horderly : Orderly json s')
    (husers : s'.manager.users = s.manager.users.insert id changed)
    (hrefused : ∀ p, changed.verifyPassword bcrypt p = false) : ¬ Sound bcrypt s' := by
  intro hsound
  have hk : s'.manager.users.lookup id = some changed := by
    rw [husers,AList.lookup_insert]
  obtain ⟨p,hp⟩ := horderly.recorded id changed hk
  have hverify := (hsound.checked id changed hk p).mpr hp
  rw [hrefused p] at hverify
  exact absurd hverify (by decide)

end Changed

theorem record_ok (s : PasswordBook) (username password : String)
    {r : Except String Unit × UserManager} (h : r.1 = .ok ()) :
    s.record username password r =
      ⟨r.2,Function.update s.passwords username (some password)⟩ := by
  obtain ⟨result,m⟩ := r
  cases h
  rfl

theorem recorded_update {passwords : String → Option String} {username password n p : String}
    (h : passwords n = some p) :
    ∃ q, Function.update passwords username (some password) n = some q := by
  by_cases hn : n = username
  · subst hn
    exact ⟨password,Function.update_self ..⟩
  · exact ⟨p,by rw [Function.update_of_ne hn,h]⟩

/-- A successful change of a password leaves a hash that the login refuses. -/
theorem setPassword_step {s : PasswordBook} (h : Orderly json s)
    (hrefuses : bcrypt.Refuses argon2) (username : String) {id : String} {user changed : User}
    (hk : s.manager.users.lookup id = some user) {now : ℕ} {salt password : String}
    (hchange : user.setPassword argon2 now salt password = .ok changed)
    {r : Except String Unit × UserManager}
    (hsaves : UserManager.Saves json r (s.manager.users.insert id changed)) :
    Orderly json (s.record username password r) ∧ ¬ Sound bcrypt (s.record username password r) := by
  unfold User.setPassword at hchange
  cases hhash : argon2.hash password salt with
  | error e =>
    rw [hhash] at hchange
    simp at hchange
  | ok hash =>
    rw [hhash] at hchange
    cases hchange
    obtain ⟨hok,husers,hsaved⟩ := hsaves
    rw [record_ok s username password hok]
    have horderly : Orderly json
        ⟨r.2,Function.update s.passwords username (some password)⟩ :=
      changed_orderly h hk husers rfl rfl (fun n p hp => recorded_update hp) hsaved
    refine ⟨horderly,changed_unsound horderly husers fun p => ?_⟩
    apply Bool.eq_false_iff.mpr
    rw [ne_eq,User.verifyPassword_iff]
    exact hrefuses password salt hash hhash p

section Added

variable {s : PasswordBook} {m : UserManager} {id username password : String} {user : User}

theorem added_orderly (h : Orderly json s) (husers : m.users = s.manager.users.insert id user)
    (hname : user.username = username) (hactive : user.active = true)
    (hother : ∀ k u, s.manager.users.lookup k = some u → u.username ≠ username)
    (hsaved : m.load json = .ok m) :
    Orderly json ⟨m,Function.update s.passwords username (some password)⟩ := by
  constructor
  · intro k k' u u' hu hu' hsame
    rcases UserManager.stored_inserted husers hu with ⟨hk,heq⟩ | hold
    · rcases UserManager.stored_inserted husers hu' with ⟨hk',_⟩ | hold'
      · rw [hk,hk']
      · exact absurd (hsame.symm.trans (heq ▸ hname)) (hother k' u' hold')
    · rcases UserManager.stored_inserted husers hu' with ⟨_,heq'⟩ | hold'
      · exact absurd (hsame.trans (heq' ▸ hname)) (hother k u hold)
      · exact h.distinct k k' u u' hold hold' hsame
  · intro k u hu
    rcases UserManager.stored_inserted husers hu with ⟨_,heq⟩ | hold
    · rw [heq,hactive]
    · exact h.active k u hold
  · intro k u hu
    rcases UserManager.stored_inserted husers hu with ⟨_,heq⟩ | hold
    · rw [heq,hname]
      exact ⟨password,Function.update_self ..⟩
    · obtain ⟨p,hp⟩ := h.recorded k u hold
      exact recorded_update hp
  · exact hsaved

theorem added_sound (h : Sound bcrypt s) (husers : m.users = s.manager.users.insert id user)
    (hid : user.id = id) (hname : user.username = username)
    (hother : ∀ k u, s.manager.users.lookup k = some u → u.username ≠ username)
    (hverify : ∀ p, user.verifyPassword bcrypt p = true ↔ p = password) :
    Sound bcrypt ⟨m,Function.update s.passwords username (some password)⟩ := by
  constructor
  · intro k u hu p
    show _ ↔ Function.update s.passwords username (some password) u.username = some p
    rcases UserManager.stored_inserted husers hu with ⟨_,heq⟩ | hold
    · rw [heq,hname,Function.update_self,hverify,Option.some_inj]
      exact eq_comm
    · rw [Function.update_of_ne (hother k u hold)]
      exact h.checked k u hold p
  · intro k u hu
    show ∃ v, m.users.lookup u.id = some v
    rw [husers]
    by_cases hnew : u.id = id
    · exact ⟨user,by rw [hnew,AList.lookup_insert]⟩
    · rw [AList.lookup_insert_ne hnew]
      rcases UserManager.stored_inserted husers hu with ⟨_,heq⟩ | hold
      · exact absurd (heq ▸ hid) hnew
      · exact h.pointed k u hold

end Added

theorem new_fields {fresh : Fresh} {username email password : String} {user : User}
    (h : User.new bcrypt fresh username email password = .ok user) :
    user.id = fresh.id ∧ user.username = username ∧ user.active = true ∧
      bcrypt.hash password fresh.salt = .ok user.passwordHash := by
  unfold User.new at h
  split at h
  · simp at h
  · rename_i hash hhash
    cases h
    exact ⟨rfl,rfl,rfl,hhash⟩

section Steps

variable {s : PasswordBook} (hjson : UserManager.Serializes json) (h : Orderly json s)
  (hsound : Sound bcrypt s)

include hjson h hsound

theorem updateUser_step (now : ℕ) (id : String) (updateFn : User → User)
    (hpromised : s.Promised (.updateUser now id updateFn)) :
    Orderly json (s.next json bcrypt argon2 (.updateUser now id updateFn)) ∧
      (Sound bcrypt (s.next json bcrypt argon2 (.updateUser now id updateFn)) ↔
        s.Unchanged json bcrypt argon2 (.updateUser now id updateFn)) := by
  rcases UserManager.changeUser_cases hjson s.manager id fun user =>
      .ok { updateFn user with updatedAt := now } with
    ⟨⟨e,he⟩,hnone⟩ | ⟨user,changed,hk,hchange,_,husers,hsaved⟩
  · have hsame : s.next json bcrypt argon2 (.updateUser now id updateFn) = s := by
      simp only [next,UserManager.updateUser,he]
    rw [hsame]
    refine ⟨h,iff_of_true hsound ?_⟩
    intro user hk
    obtain ⟨e,he⟩ := hnone user hk
    simp at he
  · cases hchange
    obtain ⟨hname,hhash,hactive⟩ := hpromised user hk
    refine ⟨changed_orderly h hk husers hname hactive (fun n p hp => ⟨p,hp⟩) hsaved,?_⟩
    have hkept : Sound bcrypt (s.next json bcrypt argon2 (.updateUser now id updateFn)) ↔ _ :=
      changed_sound_iff hsound hk husers hname hhash rfl
    rw [hkept]
    constructor
    · intro hpointed other hother
      rw [hk] at hother
      cases hother
      exact hpointed
    · exact fun hall => hall user hk

variable (argon2) in
theorem authenticate_step (now : ℕ) (username password : String) :
    Orderly json (s.next json bcrypt argon2 (.authenticate now username password)) ∧
      Sound bcrypt (s.next json bcrypt argon2 (.authenticate now username password)) := by
  rcases authenticate_cases bcrypt hjson s.manager now username password with
    ⟨⟨e,he⟩,_⟩ | ⟨u,v,_,hv,_,husers,hsaved⟩
  · have hsame : s.next json bcrypt argon2 (.authenticate now username password) = s := by
      simp only [next,he]
    rw [hsame]
    exact ⟨h,hsound⟩
  · constructor
    · exact changed_orderly h hv husers rfl rfl (fun n p hp => ⟨p,hp⟩) hsaved
    · have hkept : Sound bcrypt (s.next json bcrypt argon2 (.authenticate now username password)) ↔
          _ := changed_sound_iff hsound hv husers rfl rfl rfl
      exact hkept.mpr (hsound.pointed u.id v hv)

theorem changePassword_step (hrefuses : bcrypt.Refuses argon2) (now : ℕ)
    (salt username oldPassword newPassword : String) :
    Orderly json (s.next json bcrypt argon2
        (.changePassword now salt username oldPassword newPassword)) ∧
      (Sound bcrypt (s.next json bcrypt argon2
          (.changePassword now salt username oldPassword newPassword)) ↔
        s.Unchanged json bcrypt argon2
          (.changePassword now salt username oldPassword newPassword)) := by
  simp only [next,Unchanged,UserManager.changePassword]
  cases hfind : s.manager.find fun u => u.username = username &&
      u.verifyPassword bcrypt oldPassword with
  | none =>
    refine ⟨h,iff_of_true hsound ?_⟩
    simp
  | some u =>
    rcases UserManager.changeUser_cases hjson s.manager u.id fun user =>
        user.setPassword argon2 now salt newPassword with
      ⟨⟨e,he⟩,_⟩ | ⟨user,changed,hk,hchange,hsaves⟩
    · simp only [he]
      refine ⟨h,iff_of_true hsound ?_⟩
      simp
    · have hstep := setPassword_step h hrefuses username hk hchange hsaves
      exact ⟨hstep.1,iff_of_false hstep.2 fun hnot => hnot hsaves.1⟩

theorem resetPassword_step (hrefuses : bcrypt.Refuses argon2) (now : ℕ)
    (salt id newPassword : String) :
    Orderly json (s.next json bcrypt argon2 (.resetPassword now salt id newPassword)) ∧
      (Sound bcrypt (s.next json bcrypt argon2 (.resetPassword now salt id newPassword)) ↔
        s.Unchanged json bcrypt argon2 (.resetPassword now salt id newPassword)) := by
  simp only [next,Unchanged,UserManager.resetPassword]
  rcases UserManager.changeUser_cases hjson s.manager id fun user =>
      user.setPassword argon2 now salt newPassword with
    ⟨⟨e,he⟩,_⟩ | ⟨user,changed,hk,hchange,hsaves⟩
  · simp only [he]
    cases s.manager.users.lookup id with
    | none => exact ⟨h,iff_of_true hsound (by simp)⟩
    | some user => exact ⟨h,iff_of_true hsound (by simp)⟩
  · simp only [hk]
    have hstep := setPassword_step h hrefuses user.username hk hchange hsaves
    exact ⟨hstep.1,iff_of_false hstep.2 fun hnot => hnot hsaves.1⟩

theorem deleteUser_step (id : String) :
    Orderly json (s.next json bcrypt argon2 (.deleteUser id)) ∧
      (Sound bcrypt (s.next json bcrypt argon2 (.deleteUser id)) ↔
        s.Unchanged json bcrypt argon2 (.deleteUser id)) := by
  simp only [next,UserManager.deleteUser]
  cases hk : s.manager.users.lookup id with
  | none =>
    refine ⟨h,iff_of_true hsound ?_⟩
    intro k u hu _ hid
    obtain ⟨v,hv⟩ := hsound.pointed k u hu
    rw [hid,hk] at hv
    simp at hv
  | some user =>
    obtain ⟨_,husers,hsaved⟩ := UserManager.save_saves hjson
      { s.manager with users := s.manager.users.erase id }
    generalize UserManager.save json { s.manager with users := s.manager.users.erase id } none = r
      at husers hsaved
    have hstored : ∀ k u, r.2.users.lookup k = some u ↔
        k ≠ id ∧ s.manager.users.lookup k = some u := by
      intro k u
      rw [husers]
      by_cases hid : k = id
      · subst hid
        simp [AList.lookup_erase]
      · simp [AList.lookup_erase_ne hid,hid]
    constructor
    · constructor
      · exact fun k k' u u' hu hu' => h.distinct k k' u u' ((hstored k u).mp hu).2
          ((hstored k' u').mp hu').2
      · exact fun k u hu => h.active k u ((hstored k u).mp hu).2
      · exact fun k u hu => h.recorded k u ((hstored k u).mp hu).2
      · exact hsaved
    · constructor
      · intro hnext k u hu hne hid
        obtain ⟨v,hv⟩ := hnext.pointed k u ((hstored k u).mpr ⟨hne,hu⟩)
        exact ((hstored u.id v).mp hv).1 hid
      · intro hothers
        constructor
        · exact fun k u hu => hsound.checked k u ((hstored k u).mp hu).2
        · intro k u hu
          obtain ⟨hne,hold⟩ := (hstored k u).mp hu
          obtain ⟨v,hv⟩ := hsound.pointed k u hold
          exact ⟨v,(hstored u.id v).mpr ⟨hothers k u hold hne,hv⟩⟩

variable (argon2) in
theorem addUser_step (hexact : bcrypt.Exact) (fresh : Fresh)
    (username email password : String) :
    Orderly json (s.next json bcrypt argon2 (.addUser fresh username email password)) ∧
      Sound bcrypt (s.next json bcrypt argon2 (.addUser fresh username email password)) := by
  simp only [next]
  cases hnew : User.new bcrypt fresh username email password with
  | error e => exact ⟨h,hsound⟩
  | ok user =>
    obtain ⟨hid,hname,hactive,hhash⟩ := new_fields hnew
    simp only [UserManager.addUser]
    cases hfind : s.manager.find fun u => u.username = user.username ∨ u.email = user.email with
    | some other => exact ⟨h,hsound⟩
    | none =>
      obtain ⟨hok,husers,hsaved⟩ := UserManager.save_saves hjson
        { s.manager with users := s.manager.users.insert user.id user }
      rw [if_neg (by simp),record_ok s username password hok]
      generalize UserManager.save json
        { s.manager with users := s.manager.users.insert user.id user } none = r at husers hsaved
      have hother : ∀ k u, s.manager.users.lookup k = some u → u.username ≠ username := by
        intro k u hu heq
        have hnot := UserManager.find_none hfind hu
        simp [heq,hname] at hnot
      rw [hid] at husers
      exact ⟨added_orderly h husers hname hactive hother hsaved,
        added_sound hsound husers hid hname hother
          (fun p => User.verifyPassword_iff.trans (hexact _ _ _ hhash p))⟩

/-- One call keeps the book orderly, and sound if and only if it changes no password and
leaves every id that of a user. -/
theorem next_step (hexact : bcrypt.Exact) (hrefuses : bcrypt.Refuses argon2) (a : PasswordAction)
    (hpromised : s.Promised a) : Orderly json (s.next json bcrypt argon2 a) ∧
      (Sound bcrypt (s.next json bcrypt argon2 a) ↔ s.Unchanged json bcrypt argon2 a) := by
  cases a with
  | addUser fresh username email password =>
    have hstep := addUser_step argon2 hjson h hsound hexact fresh username email password
    exact ⟨hstep.1,iff_of_true hstep.2 trivial⟩
  | updateUser now id updateFn => exact updateUser_step hjson h hsound now id updateFn hpromised
  | changePassword now salt username oldPassword newPassword =>
    exact changePassword_step hjson h hsound hrefuses now salt username oldPassword newPassword
  | resetPassword now salt id newPassword =>
    exact resetPassword_step hjson h hsound hrefuses now salt id newPassword
  | deleteUser id => exact deleteUser_step hjson h hsound id
  | authenticate now username password =>
    have hstep := authenticate_step argon2 hjson h hsound now username password
    exact ⟨hstep.1,iff_of_true hstep.2 trivial⟩
  | restart =>
    have hsame : s.next json bcrypt argon2 .restart = s := by
      simp only [next,h.saved]
    rw [hsame]
    exact ⟨h,iff_of_true hsound trivial⟩

end Steps

theorem authentic_throughout_iff (hjson : UserManager.Serializes json) (hexact : bcrypt.Exact)
    (hrefuses : bcrypt.Refuses argon2) {s : PasswordBook} (h : Orderly json s)
    (hauthentic : Authentic json bcrypt s) {actions : List PasswordAction}
    (hpromised : AtomicRun.Along (next json bcrypt argon2) Promised actions s) :
    AtomicRun.Throughout (next json bcrypt argon2) (Authentic json bcrypt) actions s ↔
      AtomicRun.Along (next json bcrypt argon2) (Unchanged json bcrypt argon2) actions s := by
  apply AtomicRun.throughout_iff_along_of (J := Orderly json) (A := Promised) _ _ h hauthentic
    hpromised
  · intro s a horderly hauthentic ha
    have hsound := sound_of_authentic hjson horderly hauthentic
    exact (next_step hjson horderly hsound hexact hrefuses a ha).1
  · intro s a horderly hauthentic ha
    have hsound := sound_of_authentic hjson horderly hauthentic
    have hstep := next_step hjson horderly hsound hexact hrefuses a ha
    rw [authentic_iff hjson hstep.1]
    exact hstep.2

def start (m : UserManager) : PasswordBook :=
  ⟨m,Function.update (fun _ => none) "admin" (some "admin123")⟩

/-- The only user of a new manager. -/
theorem new_admin {fresh : Fresh} {m : UserManager}
    (h : UserManager.new json bcrypt fresh none none = .ok m) :
    ∃ admin : User, m.users = AList.insert admin.id admin ∅ ∧ admin.username = "admin" ∧
      admin.active = true ∧ bcrypt.hash "admin123" fresh.salt = .ok admin.passwordHash ∧
      m.load json = .ok m := by
  unfold UserManager.new at h
  cases hhash : bcrypt.hash "admin123" fresh.salt with
  | error e =>
    rw [hhash] at h
    simp at h
  | ok hash =>
    rw [hhash] at h
    dsimp only at h
    split at h
    · rename_i m' hsave
      cases h
      have hload := UserManager.save_read (congrArg Prod.fst hsave)
      rw [hsave] at hload
      have husers := (congrArg (fun r => r.2.users) hsave).symm.trans (UserManager.save_users _ _)
      exact ⟨UserManager.adminUser fresh hash,husers,rfl,rfl,rfl,hload⟩
    · simp at h

theorem start_orderly (hexact : bcrypt.Exact) {fresh : Fresh} {m : UserManager}
    (h : UserManager.new json bcrypt fresh none none = .ok m) :
    Orderly json (start m) ∧ Sound bcrypt (start m) := by
  obtain ⟨admin,husers,hname,hactive,hhash,hload⟩ := new_admin h
  have hstored : ∀ k u, m.users.lookup k = some u → k = admin.id ∧ u = admin := by
    intro k u hu
    rcases UserManager.stored_inserted husers hu with hadmin | hold
    · exact hadmin
    · exact absurd hold (by simp)
  have hpassword : (start m).passwords "admin" = some "admin123" := by
    simp [start]
  constructor
  · constructor
    · intro k k' u u' hu hu' _
      rw [(hstored k u hu).1,(hstored k' u' hu').1]
    · intro k u hu
      rw [(hstored k u hu).2,hactive]
    · intro k u hu
      rw [(hstored k u hu).2,hname]
      exact ⟨_,hpassword⟩
    · exact hload
  · constructor
    · intro k u hu p
      rw [(hstored k u hu).2,hname,hpassword,User.verifyPassword_iff,hexact _ _ _ hhash p,
        Option.some_inj]
      exact eq_comm
    · intro k u hu
      rw [(hstored k u hu).2]
      exact ⟨admin,by rw [start,husers,AList.lookup_insert]⟩

/-- From a new manager on, each password opens its account throughout a run if and only
if no call of the run changes or resets a password, and every user's id stays the id of
a user. -/
theorem passwords_open_iff (hjson : UserManager.Serializes json) (hexact : bcrypt.Exact)
    (hrefuses : bcrypt.Refuses argon2) {fresh : Fresh} {m : UserManager}
    (hnew : UserManager.new json bcrypt fresh none none = .ok m) {actions : List PasswordAction}
    (hpromised : AtomicRun.Along (next json bcrypt argon2) Promised actions (start m)) :
    AtomicRun.Throughout (next json bcrypt argon2) (Authentic json bcrypt) actions (start m) ↔
      AtomicRun.Along (next json bcrypt argon2) (Unchanged json bcrypt argon2) actions (start m) := by
  obtain ⟨horderly,hsound⟩ := start_orderly hexact hnew
  exact authentic_throughout_iff hjson hexact hrefuses horderly
    (authentic_of_sound hjson hsound) hpromised

def markB : PasswordHash where
  hash password _ := .ok ("$2b$"++password)
  verify password hash := .ok (decide (hash = "$2b$"++password))

def markArgon : PasswordHash where
  hash password _ := .ok ("$argon2id$"++password)
  verify password hash := .ok (decide (hash = "$argon2id$"++password))

theorem markB_exact : markB.Exact := by
  rintro password salt _ ⟨⟩ other
  simp [markB,String.ext_iff,eq_comm]

theorem markB_refuses : markB.Refuses markArgon := by
  rintro password salt _ ⟨⟩ guess
  simp [markB,String.ext_iff]

theorem usersJson_serializes : UserManager.Serializes usersJson := fun _ => ⟨_,rfl⟩

def admin : User := ⟨"1","admin","admin@example.com","$2b$admin123","2024",1000,none,some "key",
  ["admin"],[],none,some .admin,[],true,some (Subscription.new 1000 .vip 365)⟩

def adminOnly : UserManager :=
  ⟨AList.insert "1" admin ∅,
    some (String.ofList (Nat.toDigits 10
      (Encodable.encode (AList.insert "1" admin ∅ : Users)))).toByteArray⟩

theorem new_adminOnly : UserManager.new usersJson markB ⟨1000,"2024","1","key","salt"⟩ none none =
    .ok adminOnly := rfl

def visit : List PasswordAction :=
  [.addUser ⟨1000,"2024","2","key","salt"⟩ "ann" "ann@example.com" "pw",
    .authenticate 1001 "ann" "pw",.restart,.deleteUser "2"]

theorem passwords_open_iff_visit :
    AtomicRun.Throughout (next usersJson markB markArgon) (Authentic usersJson markB) visit
        (start adminOnly) ↔
      AtomicRun.Along (next usersJson markB markArgon) (Unchanged usersJson markB markArgon) visit
        (start adminOnly) :=
  passwords_open_iff usersJson_serializes markB_exact markB_refuses new_adminOnly
    ⟨trivial,trivial,trivial,trivial,trivial⟩

/-- The administrator changes the default password, and neither the new nor the old one
opens the account. -/
theorem changed_password_refused :
    let s := (start adminOnly).next usersJson markB markArgon
      (.changePassword 1001 "salt" "admin" "admin123" "secret")
    s.passwords "admin" = some "secret" ∧
      (s.manager.authenticate usersJson markB none 1002 "admin" "secret").1 =
        .error "Invalid username or password" ∧
      (s.manager.authenticate usersJson markB none 1002 "admin" "admin123").1 =
        .error "Invalid username or password" := by
  decide

end PasswordBook

end DiamondBot.Common
