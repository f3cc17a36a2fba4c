import DiamondBot.Common.User
import DiamondBot.Library.Json
import Mathlib.Data.List.AList

/-!
# The users in memory and their file

Every operation changes the users in memory and then writes all of them to the
file: the file is created anew and its old contents are gone before the first
byte is written. Nothing takes the change back when saving fails. The file is not
flushed: its last bytes are written after saving has answered, and an error is
then seen by nobody. The order in which the users are searched is that of the map here; the map of the source
leaves it open.
-/

set_option autoImplicit false

namespace DiamondBot.Common

open Library

abbrev Users := AList fun _ : String => User

instance : Encodable UserRole :=
  Encodable.ofLeftInverse (fun r => decide (r = .admin)) (fun b => if b then .admin else .user)
    fun r => by cases r <;> rfl

instance : Encodable SubscriptionLevel :=
  Encodable.ofLeftInverse
    (fun | .free => 0 | .basic => 1 | .premium => 2 | .vip => 3)
    (fun | 0 => .free | 1 => .basic | 2 => .premium | _ => .vip)
    fun level => by cases level <;> rfl

instance : Encodable Subscription :=
  Encodable.ofLeftInverse (fun s => (s.level,s.startDate,s.expiryDate,s.active))
    (fun t => ⟨t.1,t.2.1,t.2.2.1,t.2.2.2⟩) fun _ => rfl

instance : Encodable User :=
  Encodable.ofLeftInverse
    (fun u => ((u.id,u.username,u.email,u.passwordHash,u.createdAt,u.updatedAt),
      (u.lastLogin,u.apiKey,u.roles,u.settings,u.subscriptionId),
      (u.role,u.wallets,u.active,u.subscription)))
    (fun t => ⟨t.1.1,t.1.2.1,t.1.2.2.1,t.1.2.2.2.1,t.1.2.2.2.2.1,t.1.2.2.2.2.2,t.2.1.1,t.2.1.2.1,
      t.2.1.2.2.1,t.2.1.2.2.2.1,t.2.1.2.2.2.2,t.2.2.1,t.2.2.2.1,t.2.2.2.2.1,t.2.2.2.2.2⟩)
    fun _ => rfl

instance : Encodable Users :=
  Encodable.ofLeftInjection AList.entries
    (fun entries => if h : entries.keys.Nodup then some ⟨entries,h⟩ else none)
    fun users => dif_pos users.nodupKeys

def usersJson : Json Users := Json.number Users

/-- Where saving fails: when the file is created, while it is written, or in the
write that goes on after the answer. -/
inductive DiskFault where
  | create (error : String)
  | write (written : ℕ) (error : String)
  | late (written : ℕ)
deriving DecidableEq

def DiskFault.cut : DiskFault → Option ℕ
  | .create _ => none
  | .write written _ => some written
  | .late written => some written

structure UserManager where
  users : Users
  file : Option ByteArray

namespace UserManager

variable (json : Json Users) (bcrypt argon2 : PasswordHash)

def load (s : UserManager) : Except String UserManager :=
  match s.file with
  | none => .error "No such file or directory"
  | some bytes =>
    match String.fromUTF8? bytes with
    | none => .error "stream did not contain valid UTF-8"
    | some contents =>
      match json.fromText contents with
      | .ok users => .ok { s with users := users }
      | .error e => .error e

def save (s : UserManager) (fault : Option DiskFault) : Except String Unit × UserManager :=
  match json.toText s.users with
  | .error e => (.error e,s)
  | .ok contents =>
    match fault with
    | some (.create e) => (.error e,s)
    | some (.write written e) =>
      (.error e,{ s with file := some (contents.toByteArray.extract 0 written) })
    | some (.late written) =>
      (.ok (),{ s with file := some (contents.toByteArray.extract 0 written) })
    | none => (.ok (),{ s with file := some contents.toByteArray })

def adminUser (fresh : Fresh) (passwordHash : String) : User where
  id := fresh.id
  username := "admin"
  email := "admin@example.com"
  passwordHash := passwordHash
  createdAt := fresh.nowText
  updatedAt := fresh.now
  lastLogin := none
  apiKey := some fresh.apiKey
  roles := ["admin"]
  settings := []
  subscriptionId := none
  role := some .admin
  wallets := []
  active := true
  subscription := some (Subscription.new fresh.now .vip 365)

/-- `new`: the users of the file, or an administrator when there is none. -/
def new (fresh : Fresh) (file : Option ByteArray) (fault : Option DiskFault) :
    Except String UserManager :=
  match file with
  | some bytes => load json ⟨∅,some bytes⟩
  | none =>
    match bcrypt.hash "admin123" fresh.salt with
    | .error e => .error e
    | .ok passwordHash =>
      match save json ⟨AList.insert fresh.id (adminUser fresh passwordHash) ∅,none⟩ fault with
      | (.ok _,s) => .ok s
      | (.error e,_) => .error e

def find (s : UserManager) (p : User → Bool) : Option User :=
  (s.users.entries.map Sigma.snd).find? p

def addUser (s : UserManager) (fault : Option DiskFault) (user : User) :
    Except String Unit × UserManager :=
  if (s.find fun u => u.username = user.username ∨ u.email = user.email).isSome then
    (.error "Username or email already exists",s)
  else save json { s with users := s.users.insert user.id user } fault

def changeUser (s : UserManager) (fault : Option DiskFault) (id : String)
    (change : User → Except String User) : Except String Unit × UserManager :=
  match s.users.lookup id with
  | none => (.error "User not found",s)
  | some user =>
    match change user with
    | .error e => (.error e,s)
    | .ok changed => save json { s with users := s.users.insert id changed } fault

def authenticate (s : UserManager) (fault : Option DiskFault) (now : ℕ)
    (username password : String) : Except String Unit × UserManager :=
  match s.find fun u => u.username = username && u.verifyPassword bcrypt password && u.active with
  | none => (.error "Invalid username or password",s)
  | some user => changeUser json s fault user.id fun user => .ok (user.updateLastLogin now)

def updateUser (s : UserManager) (fault : Option DiskFault) (now : ℕ) (id : String)
    (updateFn : User → User) : Except String Unit × UserManager :=
  changeUser json s fault id fun user => .ok { updateFn user with updatedAt := now }

def deleteUser (s : UserManager) (fault : Option DiskFault) (id : String) :
    Except String Unit × UserManager :=
  match s.users.lookup id with
  | none => (.error "User not found",s)
  | some _ => save json { s with users := s.users.erase id } fault

def changePassword (s : UserManager) (fault : Option DiskFault) (now : ℕ) (salt : String)
    (username oldPassword newPassword : String) : Except String Unit × UserManager :=
  match s.find fun u => u.username = username && u.verifyPassword bcrypt oldPassword with
  | none => (.error "Invalid username or password",s)
  | some user => changeUser json s fault user.id fun user =>
      user.setPassword argon2 now salt newPassword

def resetPassword (s : UserManager) (fault : Option DiskFault) (now : ℕ) (salt : String)
    (id newPassword : String) : Except String Unit × UserManager :=
  changeUser json s fault id fun user => user.setPassword argon2 now salt newPassword

def assignWallet (s : UserManager) (fault : Option DiskFault) (now : ℕ)
    (id walletAddress : String) : Except String Unit × UserManager :=
  changeUser json s fault id fun user => .ok (user.addWallet now walletAddress)

def unassignWallet (s : UserManager) (fault : Option DiskFault) (now : ℕ)
    (id walletAddress : String) : Except String Unit × UserManager :=
  changeUser json s fault id fun user => .ok (user.removeWallet now walletAddress)

def updateUserSubscription (s : UserManager) (fault : Option DiskFault) (now pause : ℕ)
    (id : String) (level : SubscriptionLevel) (durationDays : ℕ) :
    Except String Unit × UserManager :=
  changeUser json s fault id fun user =>
    .ok (user.updateSubscription now pause level durationDays)

end UserManager

/-- The operations that change users. -/
inductive UserOperation where
  | addUser (user : User)
  | authenticate (username password : String)
  | updateUser (id : String) (updateFn : User → User)
  | deleteUser (id : String)
  | changePassword (salt username oldPassword newPassword : String)
  | resetPassword (salt id newPassword : String)
  | assignWallet (id walletAddress : String)
  | unassignWallet (id walletAddress : String)
  | updateUserSubscription (pause : ℕ) (id : String) (level : SubscriptionLevel)
      (durationDays : ℕ)

namespace UserManager

variable (json : Json Users) (bcrypt argon2 : PasswordHash)

def perform (s : UserManager) (fault : Option DiskFault) (now : ℕ) :
    UserOperation → Except String Unit × UserManager
  | .addUser user => addUser json s fault user
  | .authenticate username password => authenticate json bcrypt s fault now username password
  | .updateUser id updateFn => updateUser json s fault now id updateFn
  | .deleteUser id => deleteUser json s fault id
  | .changePassword salt username oldPassword newPassword =>
    changePassword json bcrypt argon2 s fault now salt username oldPassword newPassword
  | .resetPassword salt id newPassword =>
    resetPassword json argon2 s fault now salt id newPassword
  | .assignWallet id walletAddress => assignWallet json s fault now id walletAddress
  | .unassignWallet id walletAddress => unassignWallet json s fault now id walletAddress
  | .updateUserSubscription pause id level durationDays =>
    updateUserSubscription json s fault now pause id level durationDays

def Decided (s : UserManager) (run : Option DiskFault → Except String Unit × UserManager) : Prop :=
  (∃ e, ∀ fault, run fault = (.error e,s)) ∨
    ∃ users, ∀ fault, run fault = save json { s with users := users } fault

variable {json bcrypt argon2}

theorem changeUser_decided (s : UserManager) (id : String) (change : User → Except String User) :
    Decided json s fun fault => changeUser json s fault id change := by
  unfold changeUser
  cases s.users.lookup id with
  | none => exact Or.inl ⟨_,fun _ => rfl⟩
  | some user =>
    show Decided json s fun fault => match change user with
      | .error e => (.error e,s)
      | .ok changed => save json { s with users := s.users.insert id changed } fault
    cases change user with
    | error e => exact Or.inl ⟨e,fun _ => rfl⟩
    | ok changed => exact Or.inr ⟨_,fun _ => rfl⟩

theorem found_decided (s : UserManager) (p : User → Bool) (e : String)
    (change : User → Except String User) :
    Decided json s fun fault => match s.find p with
      | none => (.error e,s)
      | some user => changeUser json s fault user.id change := by
  cases s.find p with
  | none => exact Or.inl ⟨e,fun _ => rfl⟩
  | some user => exact changeUser_decided s user.id change

theorem perform_decided (s : UserManager) (now : ℕ) (op : UserOperation) :
    Decided json s fun fault => perform json bcrypt argon2 s fault now op := by
  cases op with
  | addUser user =>
    simp only [perform,addUser]
    split
    · exact Or.inl ⟨_,fun _ => rfl⟩
    · exact Or.inr ⟨_,fun _ => rfl⟩
  | authenticate username password => exact found_decided s _ _ _
  | updateUser id updateFn =>
    exact changeUser_decided s id fun user => .ok { updateFn user with updatedAt := now }
  | deleteUser id =>
    simp only [perform,deleteUser]
    cases s.users.lookup id with
    | none => exact Or.inl ⟨_,fun _ => rfl⟩
    | some user => exact Or.inr ⟨_,fun _ => rfl⟩
  | changePassword salt username oldPassword newPassword => exact found_decided s _ _ _
  | resetPassword salt id newPassword => exact changeUser_decided s id _
  | assignWallet id walletAddress =>
    exact changeUser_decided s id fun user => .ok (user.addWallet now walletAddress)
  | unassignWallet id walletAddress =>
    exact changeUser_decided s id fun user => .ok (user.removeWallet now walletAddress)
  | updateUserSubscription pause id level durationDays =>
    exact changeUser_decided s id fun user =>
      .ok (user.updateSubscription now pause level durationDays)

theorem save_users (s : UserManager) (fault : Option DiskFault) :
    (save json s fault).2.users = s.users := by
  unfold save
  cases json.toText s.users with
  | error e => rfl
  | ok contents =>
    cases fault with
    | none => rfl
    | some fault =>
      cases fault with
      | create e => rfl
      | write written e => rfl
      | late written => rfl

/-- A save that fails leaves the file as it was, or the first bytes of the new text. -/
theorem save_failed {s : UserManager} {fault : Option DiskFault} {e : String}
    (h : (save json s fault).1 = .error e) :
    ((∃ e, json.toText s.users = .error e ∨ fault = some (.create e)) ∧
        (save json s fault).2.file = s.file) ∨
      ∃ contents written e, json.toText s.users = .ok contents ∧
        fault = some (.write written e) ∧
        (save json s fault).2.file = some (contents.toByteArray.extract 0 written) := by
  unfold save at h ⊢
  cases htext : json.toText s.users with
  | error e' => exact Or.inl ⟨⟨e',Or.inl rfl⟩,rfl⟩
  | ok contents =>
    rw [htext] at h
    cases fault with
    | none => simp at h
    | some fault =>
      cases fault with
      | create e' => exact Or.inl ⟨⟨e',Or.inr rfl⟩,rfl⟩
      | write written e' => exact Or.inr ⟨contents,written,e',rfl,rfl,rfl⟩
      | late written => simp at h

/-- What a save wrote is read back, unless its last write failed unseen. -/
theorem save_load {s : UserManager} {fault : Option DiskFault}
    (h : (save json s fault).1 = .ok ()) :
    load json (save json s fault).2 = .ok (save json s fault).2 ∨
      ∃ contents written, json.toText s.users = .ok contents ∧ fault = some (.late written) ∧
        (save json s fault).2.file = some (contents.toByteArray.extract 0 written) := by
  unfold save at h ⊢
  cases htext : json.toText s.users with
  | error e =>
    rw [htext] at h
    simp at h
  | ok contents =>
    rw [htext] at h
    cases fault with
    | none =>
      left
      simp only [load,fromUTF8_toByteArray,json.roundTrip _ _ htext]
    | some fault =>
      cases fault with
      | create e => simp at h
      | write written e => simp at h
      | late written => exact Or.inr ⟨contents,written,rfl,rfl,rfl⟩

/-- An operation is refused before it changes anything, or else it leaves its change
in memory; the file then has the change, or is untouched because saving failed
before the file was created anew, or has only what was written before it failed.
An operation that failed to write may have answered that it succeeded. -/
theorem perform_outcome (json : Json Users) (bcrypt argon2 : PasswordHash) (s : UserManager)
    (now : ℕ) (op : UserOperation) :
    (∃ e, ∀ fault, perform json bcrypt argon2 s fault now op = (.error e,s)) ∨
      ∃ users, ∀ fault,
        (perform json bcrypt argon2 s fault now op).2.users = users ∧
        ((perform json bcrypt argon2 s fault now op).1 = .ok () →
          load json (perform json bcrypt argon2 s fault now op).2 =
              .ok (perform json bcrypt argon2 s fault now op).2 ∨
            ∃ contents written, json.toText users = .ok contents ∧
              fault = some (.late written) ∧
              (perform json bcrypt argon2 s fault now op).2.file =
                some (contents.toByteArray.extract 0 written)) ∧
        ∀ e, (perform json bcrypt argon2 s fault now op).1 = .error e →
          ((∃ e, json.toText users = .error e ∨ fault = some (.create e)) ∧
              (perform json bcrypt argon2 s fault now op).2.file = s.file) ∨
            ∃ contents written e, json.toText users = .ok contents ∧
              fault = some (.write written e) ∧
              (perform json bcrypt argon2 s fault now op).2.file =
                some (contents.toByteArray.extract 0 written) := by
  rcases perform_decided s now op with hrefused | ⟨users,husers⟩
  · exact Or.inl hrefused
  · right
    refine ⟨users,fun fault => ?_⟩
    have hrun : perform json bcrypt argon2 s fault now op =
        save json { s with users := users } fault := husers fault
    rw [hrun]
    exact ⟨save_users _ fault,save_load,fun e h => save_failed h⟩

def twoStores (one : Users) : Json Users where
  toText users :=
    if users.entries = [] then .ok "[]"
    else if users.entries = one.entries then .ok "[ann]" else .error "unknown"
  fromText text :=
    if text = "[]" then .ok ∅ else if text = "[ann]" then .ok one else .error "expected value"
  roundTrip := by
    intro users text h
    by_cases hempty : users.entries = []
    · rw [if_pos hempty] at h
      cases h
      exact congrArg Except.ok (AList.ext hempty.symm)
    · rw [if_neg hempty] at h
      by_cases hone : users.entries = one.entries
      · rw [if_pos hone] at h
        cases h
        exact congrArg Except.ok (AList.ext hone.symm)
      · rw [if_neg hone] at h
        simp at h

def ann : User := ⟨"id","ann","ann@example.com","hash","2024",1000,none,some "key",["user"],[],
  none,some .user,[],true,none⟩

def annAlone : UserManager := ⟨AList.insert "id" ann ∅,some "[ann]".toByteArray⟩

/-- The disk is full when a user is deleted: the call fails, the user is gone from
memory, the file is empty, and a restart cannot read it. -/
theorem delete_loses_users :
    let json := twoStores annAlone.users
    let after := perform json ⟨fun _ _ => .error "",fun _ _ => .error ""⟩
      ⟨fun _ _ => .error "",fun _ _ => .error ""⟩ annAlone
      (some (.write 0 "No space left on device")) 1000 (.deleteUser "id")
    load json annAlone = .ok annAlone ∧ after.1 = .error "No space left on device" ∧
      annAlone.users.lookup "id" = some ann ∧ after.2.users.lookup "id" = none ∧
      after.2.file = some ByteArray.empty ∧ load json after.2 = .error "expected value" := by
  refine ⟨?_,by decide,by decide,by decide,by decide,rfl⟩
  simp only [load,annAlone,fromUTF8_toByteArray]
  rfl

end UserManager

end DiamondBot.Common
