import DiamondBot.Common.Passwords
import DiamondBot.Common.UserDurability

/-!
# Names and wallets over the life of the user store

No two stored users share a name or an email, through faults of the disk and
restarts, as long as updates keep both. Which wallets a user may use is decided
by the last assignment or withdrawal, also when that call reported an error.
-/

set_option autoImplicit false

namespace DiamondBot.Common
open Library AtomicRun Durable

namespace User

def hasWalletAccess (u : User) (walletAddress : String) : Bool :=
  u.role = some .admin || u.wallets.contains walletAddress

theorem hasWalletAccess_iff {u : User} {walletAddress : String} :
    u.hasWalletAccess walletAddress = true ↔
      u.role = some .admin ∨ walletAddress ∈ u.wallets := by
  simp [hasWalletAccess]

theorem mem_addWallet {u : User} {now : ℕ} {walletAddress w : String} :
    w ∈ (u.addWallet now walletAddress).wallets ↔ w = walletAddress ∨ w ∈ u.wallets := by
  unfold addWallet
  split
  · next h =>
    constructor
    · exact Or.inr
    · rintro (rfl | hw)
      · exact h
      · exact hw
  · rw [List.mem_append,List.mem_singleton,or_comm]

theorem mem_removeWallet {u : User} {now : ℕ} {walletAddress w : String} :
    w ∈ (u.removeWallet now walletAddress).wallets ↔ w ≠ walletAddress ∧ w ∈ u.wallets := by
  simp [removeWallet,and_comm]

structure Same (u v : User) : Prop where
  username : v.username = u.username
  email : v.email = u.email
  role : v.role = u.role
  wallets : v.wallets = u.wallets

theorem setPassword_same {argon2 : PasswordHash} {u v : User} {now : ℕ} {salt password : String}
    (h : u.setPassword argon2 now salt password = .ok v) : Same u v := by
  unfold setPassword at h
  split at h
  · cases h
    exact ⟨rfl,rfl,rfl,rfl⟩
  · cases h

theorem updateLastLogin_same (u : User) (now : ℕ) : Same u (u.updateLastLogin now) :=
  ⟨rfl,rfl,rfl,rfl⟩

theorem updateSubscription_same (u : User) (now pause : ℕ) (level : SubscriptionLevel)
    (durationDays : ℕ) : Same u (u.updateSubscription now pause level durationDays) :=
  ⟨rfl,rfl,rfl,rfl⟩

theorem addWallet_names (u : User) (now : ℕ) (walletAddress : String) :
    (u.addWallet now walletAddress).username = u.username ∧
      (u.addWallet now walletAddress).email = u.email ∧
      (u.addWallet now walletAddress).role = u.role := by
  unfold addWallet
  split
  · exact ⟨rfl,rfl,rfl⟩
  · exact ⟨rfl,rfl,rfl⟩

end User

namespace UserManager

variable {json : Json Users} {bcrypt argon2 : PasswordHash}

def Edits (now : ℕ) (id : String) (user changed : User) : UserOperation → Prop
  | .updateUser id' updateFn => id' = id ∧ changed = { updateFn user with updatedAt := now }
  | .assignWallet id' walletAddress => id' = id ∧ changed = user.addWallet now walletAddress
  | .unassignWallet id' walletAddress => id' = id ∧ changed = user.removeWallet now walletAddress
  | .addUser _ => False
  | .deleteUser _ => False
  | .authenticate _ _ => user.Same changed
  | .changePassword _ _ _ _ => user.Same changed
  | .resetPassword _ _ _ => user.Same changed
  | .updateUserSubscription _ _ _ _ => user.Same changed

/-- What an operation leaves in memory, whatever the disk does. -/
inductive Effect (now : ℕ) (op : UserOperation) (users : Users) : Users → Prop
  | refused : Effect now op users users
  | added (user : User) (hop : op = .addUser user)
      (hnew : ∀ k u, users.lookup k = some u → u.username ≠ user.username ∧ u.email ≠ user.email) :
      Effect now op users (users.insert user.id user)
  | deleted (id : String) (hop : op = .deleteUser id) : Effect now op users (users.erase id)
  | edited (id : String) (user changed : User) (hstored : users.lookup id = some user)
      (hedits : Edits now id user changed op) : Effect now op users (users.insert id changed)

theorem changeUser_effect {s : UserManager} {fault : Option DiskFault} {id : String}
    {change : User → Except String User} {now : ℕ} {op : UserOperation}
    (hedits : ∀ user changed, change user = .ok changed → Edits now id user changed op) :
    Effect now op s.users (changeUser json s fault id change).2.users := by
  unfold changeUser
  cases hstored : s.users.lookup id with
  | none => exact .refused
  | some user =>
    cases hchange : change user with
    | error e => simpa only [hchange] using Effect.refused
    | ok changed =>
      simp only [hchange,save_users]
      exact .edited id user changed hstored (hedits user changed hchange)

theorem found_effect {s : UserManager} {fault : Option DiskFault} {p : User → Bool} {e : String}
    {change : User → Except String User} {now : ℕ} {op : UserOperation}
    (hedits : ∀ id user changed, change user = .ok changed → Edits now id user changed op) :
    Effect now op s.users (match s.find p with
      | none => ((.error e,s) : Except String Unit × UserManager)
      | some user => changeUser json s fault user.id change).2.users := by
  cases s.find p with
  | none => exact .refused
  | some user => exact changeUser_effect (hedits user.id)

theorem addUser_effect (s : UserManager) (fault : Option DiskFault) (now : ℕ) (user : User) :
    Effect now (.addUser user) s.users (addUser json s fault user).2.users := by
  unfold addUser
  split
  · exact .refused
  · next hfree =>
    rw [save_users]
    refine .added user rfl fun k u hk => ?_
    have hnone := find_none (Option.not_isSome_iff_eq_none.mp hfree) hk
    simpa using hnone

theorem perform_effect (s : UserManager) (fault : Option DiskFault) (now : ℕ)
    (op : UserOperation) :
    Effect now op s.users (perform json bcrypt argon2 s fault now op).2.users := by
  cases op with
  | addUser user => exact addUser_effect s fault now user
  | authenticate username password =>
    exact found_effect fun _ user changed h => by cases h; exact user.updateLastLogin_same now
  | updateUser id updateFn => exact changeUser_effect fun _ _ h => by cases h; exact ⟨rfl,rfl⟩
  | deleteUser id =>
    simp only [perform,deleteUser]
    cases s.users.lookup id with
    | none => exact .refused
    | some user =>
      rw [save_users]
      exact .deleted id rfl
  | changePassword salt username oldPassword newPassword =>
    exact found_effect fun _ _ _ h => User.setPassword_same h
  | resetPassword salt id newPassword =>
    exact changeUser_effect fun _ _ h => User.setPassword_same h
  | assignWallet id walletAddress =>
    exact changeUser_effect fun _ _ h => by cases h; exact ⟨rfl,rfl⟩
  | unassignWallet id walletAddress =>
    exact changeUser_effect fun _ _ h => by cases h; exact ⟨rfl,rfl⟩
  | updateUserSubscription pause id level durationDays =>
    exact changeUser_effect fun user _ h => by
      cases h
      exact user.updateSubscription_same now pause level durationDays

/-! ## Names -/

/-- No two entries have a username or an email in common. -/
def NamesDiffer (users : Users) : Prop := ∀ k k' u u', users.lookup k = some u →
  users.lookup k' = some u' → u.username = u'.username ∨ u.email = u'.email → k = k'

/-- An update leaves the username and the email. -/
def KeepsNames : UserOperation → Prop
  | .updateUser _ updateFn => ∀ u : User, (updateFn u).username = u.username ∧
      (updateFn u).email = u.email
  | _ => True

theorem edits_names {now : ℕ} {id : String} {user changed : User} {op : UserOperation}
    (h : Edits now id user changed op) (hkeeps : KeepsNames op) :
    changed.username = user.username ∧ changed.email = user.email := by
  cases op with
  | updateUser id' updateFn =>
    rw [h.2]
    exact hkeeps user
  | assignWallet id' walletAddress =>
    rw [h.2]
    exact ⟨(user.addWallet_names now walletAddress).1,(user.addWallet_names now walletAddress).2.1⟩
  | unassignWallet id' walletAddress =>
    rw [h.2]
    exact ⟨rfl,rfl⟩
  | addUser u => exact h.elim
  | deleteUser id' => exact h.elim
  | authenticate username password => exact ⟨h.username,h.email⟩
  | changePassword salt username oldPassword newPassword => exact ⟨h.username,h.email⟩
  | resetPassword salt id' newPassword => exact ⟨h.username,h.email⟩
  | updateUserSubscription pause id' level durationDays => exact ⟨h.username,h.email⟩

theorem namesDiffer_insert {users : Users} {id : String} {user : User} (h : NamesDiffer users)
    (hown : ∀ k u, k ≠ id → users.lookup k = some u →
      u.username ≠ user.username ∧ u.email ≠ user.email) : NamesDiffer (users.insert id user) := by
  have hother : ∀ {k u}, k ≠ id → (users.insert id user).lookup k = some u →
      users.lookup k = some u := fun hk hu => by rwa [AList.lookup_insert_ne hk] at hu
  have hsame : ∀ {u}, (users.insert id user).lookup id = some u → u = user := fun hu => by
    rw [AList.lookup_insert] at hu
    exact (Option.some.inj hu).symm
  intro k k' u u' hu hu' hname
  by_cases hk : k = id
  · by_cases hk' : k' = id
    · rw [hk,hk']
    · subst hk
      rw [hsame hu] at hname
      have hdiffer := hown k' u' hk' (hother hk' hu')
      exact absurd hname (not_or.mpr ⟨hdiffer.1.symm,hdiffer.2.symm⟩)
  · by_cases hk' : k' = id
    · subst hk'
      rw [hsame hu'] at hname
      exact absurd hname (not_or.mpr (hown k u hk (hother hk hu)))
    · exact h k k' u u' (hother hk hu) (hother hk' hu') hname

theorem effect_names {now : ℕ} {op : UserOperation} {users users' : Users}
    (he : Effect now op users users') (hkeeps : KeepsNames op) (h : NamesDiffer users) :
    NamesDiffer users' := by
  cases he with
  | refused => exact h
  | added user hop hnew => exact namesDiffer_insert h fun k u _ hk => hnew k u hk
  | deleted id hop =>
    intro k k' u u' hu hu' hname
    have herased : ∀ {k u}, (users.erase id).lookup k = some u → users.lookup k = some u := by
      intro k u hk
      by_cases hid : k = id
      · rw [hid,AList.lookup_erase] at hk
        cases hk
      · rwa [AList.lookup_erase_ne hid] at hk
    exact h k k' u u' (herased hu) (herased hu') hname
  | edited id user changed hstored hedits =>
    obtain ⟨husername,hemail⟩ := edits_names hedits hkeeps
    refine namesDiffer_insert h fun k u hk hu => ?_
    rw [husername,hemail]
    have hdiffer := fun hname => hk (h k id u user hu hstored hname)
    exact not_or.mp hdiffer

theorem changeUser_stored {s : UserManager} {fault : Option DiskFault} {id : String}
    {change : User → Except String User} {user changed : User}
    (hstored : s.users.lookup id = some user) (hchange : change user = .ok changed) :
    (changeUser json s fault id change).2.users = s.users.insert id changed := by
  simp only [changeUser,hstored,hchange,save_users]

def Leaves (id : String) : UserOperation → Prop
  | .addUser user => user.id ≠ id
  | .deleteUser id' => id' ≠ id
  | .updateUser id' updateFn => id' = id → ∀ u : User, (updateFn u).role = u.role ∧
      (updateFn u).wallets = u.wallets
  | .assignWallet id' _ => id' ≠ id
  | .unassignWallet id' _ => id' ≠ id
  | _ => True

theorem edits_left {now : ℕ} {id : String} {user changed : User} {op : UserOperation}
    (h : Edits now id user changed op) (hleaves : Leaves id op) :
    changed.role = user.role ∧ changed.wallets = user.wallets := by
  cases op with
  | updateUser id' updateFn =>
    rw [h.2]
    exact hleaves h.1 user
  | assignWallet id' walletAddress => exact absurd h.1 hleaves
  | unassignWallet id' walletAddress => exact absurd h.1 hleaves
  | addUser u => exact h.elim
  | deleteUser id' => exact h.elim
  | authenticate username password => exact ⟨h.role,h.wallets⟩
  | changePassword salt username oldPassword newPassword => exact ⟨h.role,h.wallets⟩
  | resetPassword salt id' newPassword => exact ⟨h.role,h.wallets⟩
  | updateUserSubscription pause id' level durationDays => exact ⟨h.role,h.wallets⟩

theorem effect_left {now : ℕ} {op : UserOperation} {users users' : Users} {id : String}
    {user : User} (he : Effect now op users users') (hstored : users.lookup id = some user)
    (hleaves : Leaves id op) :
    ∃ user', users'.lookup id = some user' ∧ user'.role = user.role ∧
      user'.wallets = user.wallets := by
  cases he with
  | refused => exact ⟨user,hstored,rfl,rfl⟩
  | added u hop _ =>
    subst hop
    exact ⟨user,by rwa [AList.lookup_insert_ne (Ne.symm hleaves)],rfl,rfl⟩
  | deleted id' hop =>
    subst hop
    exact ⟨user,by rwa [AList.lookup_erase_ne (Ne.symm hleaves)],rfl,rfl⟩
  | edited id' u changed hu hedits =>
    by_cases hid : id = id'
    · subst hid
      rw [hstored] at hu
      cases hu
      exact ⟨changed,AList.lookup_insert _,edits_left hedits hleaves⟩
    · exact ⟨user,by rwa [AList.lookup_insert_ne hid],rfl,rfl⟩

end UserManager

namespace UserService

variable {json : Json Users} {bcrypt argon2 : PasswordHash}

def KeepsNames : ServiceEvent → Prop
  | .call _ _ op => UserManager.KeepsNames op
  | .restart => True

/-- In memory and on disk, no two users share a name. -/
def NamesDiffer (json : Json Users) : UserService → Prop :=
  Both users (onDisk json) UserManager.NamesDiffer

theorem next_names (hjson : RefusesCut json) {s : UserService} (h : NamesDiffer json s)
    {e : ServiceEvent} (hkeeps : KeepsNames e) :
    NamesDiffer json (s.next json bcrypt argon2 e) := by
  refine both_step h ((next_disk s e).imp_right fun hcut => hcut.2 hjson) ?_
  cases e with
  | restart => exact h.copy
  | call now fault op =>
    cases hrun : s.users with
    | none =>
      simp only [next,hrun]
      intro users husers
      cases husers
    | some users =>
      rw [next_running hrun]
      rintro _ ⟨⟩
      exact UserManager.effect_names (UserManager.perform_effect ⟨users,some s.file⟩ fault now op)
        hkeeps (h.value users hrun)

theorem readFile_loaded {m m' : UserManager} {file : ByteArray} (hfile : m.file = some file)
    (h : m.load json = .ok m') : readFile json file = some m'.users := by
  unfold UserManager.load at h
  simp only [hfile] at h
  unfold readFile UserManager.load
  cases htext : String.fromUTF8? file with
  | none => simp [htext] at h
  | some contents =>
    cases hread : json.fromText contents with
    | error e => simp [htext,hread] at h
    | ok users =>
      simp only [htext,hread] at h ⊢
      cases h
      rfl

/-- A store that starts without a file holds the administrator alone. -/
theorem start_names {fresh : Fresh} {m : UserManager} {file : ByteArray}
    (hnew : UserManager.new json bcrypt fresh none none = .ok m) (hfile : m.file = some file) :
    NamesDiffer json ⟨some m.users,file⟩ := by
  obtain ⟨admin,husers,_,_,_,hload⟩ := PasswordBook.new_admin hnew
  have honly : UserManager.NamesDiffer m.users := by
    have hkey : ∀ k u, m.users.lookup k = some u → k = admin.id := by
      intro k u hu
      rcases UserManager.stored_inserted husers hu with hadmin | hold
      · exact hadmin.1
      · exact absurd hold (by simp)
    intro k k' u u' hu hu' _
    rw [hkey k u hu,hkey k' u' hu']
  constructor
  · rintro _ ⟨⟩
    exact honly
  · intro users husers
    change readFile json file = some users at husers
    rw [readFile_loaded hfile hload] at husers
    cases husers
    exact honly

/-- Whatever the disk does and however often the service is restarted, the users in
memory differ in names and emails, as long as updates keep both. -/
theorem names_unique (hjson : RefusesCut json) {fresh : Fresh} {m : UserManager} {file : ByteArray}
    (hnew : UserManager.new json bcrypt fresh none none = .ok m) (hfile : m.file = some file)
    {events : List ServiceEvent} (hkeeps : ∀ e ∈ events, KeepsNames e) {users : Users}
    (husers : (run (next json bcrypt argon2) events ⟨some m.users,file⟩).users = some users) :
    UserManager.NamesDiffer users := by
  have hend : NamesDiffer json (run (next json bcrypt argon2) events ⟨some m.users,file⟩) :=
    run_invariant_along (I := NamesDiffer json) (R := fun _ e => KeepsNames e)
      (fun _ _ h he => next_names hjson h he) (start_names hnew hfile)
      ((along_const events _).mpr hkeeps)
  exact hend.value users husers

def both : Users := PasswordBook.adminOnly.users.insert "id" UserManager.ann

def bothJson : Json Users where
  toText users :=
    if users.entries = PasswordBook.adminOnly.users.entries then .ok "1"
    else if users.entries = both.entries then .ok "2x" else .error "unknown"
  fromText text :=
    if text = "1" then .ok PasswordBook.adminOnly.users
    else if text = "2x" then .ok both else .error "expected value"
  roundTrip := by
    intro users text h
    by_cases hadmin : users.entries = PasswordBook.adminOnly.users.entries
    · rw [if_pos hadmin] at h
      cases h
      exact congrArg Except.ok (AList.ext hadmin.symm)
    · rw [if_neg hadmin] at h
      by_cases hboth : users.entries = both.entries
      · rw [if_pos hboth] at h
        cases h
        exact congrArg Except.ok (AList.ext hboth.symm)
      · rw [if_neg hboth] at h
        cases h

theorem bothJson_unread {text : String} (h : bothJson.fromText text = .error "expected value") :
    readFile bothJson text.toByteArray = none := by
  simp only [readFile,UserManager.load,fromUTF8_toByteArray,h]

theorem bothJson_refusesCut : RefusesCut bothJson := by
  intro users contents written htext hshort
  have hempty := @bothJson_unread "" rfl
  have hfirst := @bothJson_unread "2" rfl
  have htexts : contents = "1" ∨ contents = "2x" := by
    simp only [bothJson] at htext
    split at htext
    · cases htext
      exact Or.inl rfl
    · split at htext
      · cases htext
        exact Or.inr rfl
      · cases htext
  rcases htexts with rfl | rfl
  · have hsize : "1".toByteArray.size = 1 := by decide
    obtain rfl : written = 0 := by omega
    exact hempty
  · have hsize : "2x".toByteArray.size = 2 := by decide
    obtain rfl | rfl : written = 0 ∨ written = 1 := by omega
    · exact hempty
    · exact hfirst

theorem new_bothJson :
    UserManager.new bothJson PasswordBook.markB ⟨1000,"2024","1","key","salt"⟩ none none =
      .ok ⟨PasswordBook.adminOnly.users,some "1".toByteArray⟩ := rfl

/-- A user is added and the write is cut off behind the answer, a later call writes the
file again, and the service is restarted. -/
theorem names_unique_rewritten : UserManager.NamesDiffer both :=
  @names_unique bothJson PasswordBook.markB noHash bothJson_refusesCut _ _ _ new_bothJson rfl
    [.call 1001 (some (.late 1)) (.addUser UserManager.ann),
      .call 1000 none (.updateUser "id" id),.restart]
    (by simp [KeepsNames,UserManager.KeepsNames]) _ rfl

/-! ## Wallets -/

def grant (id walletAddress : String) : ServiceEvent → Option Bool
  | .call _ _ (.assignWallet id' w) => if id' = id ∧ w = walletAddress then some true else none
  | .call _ _ (.unassignWallet id' w) => if id' = id ∧ w = walletAddress then some false else none
  | _ => none

def lastGrant (id walletAddress : String) (events : List ServiceEvent) : Option Bool :=
  (events.filterMap (grant id walletAddress)).getLast?

/-- The user stays stored, and updates leave its role and its wallets. -/
def KeepsRecord (id : String) : ServiceEvent → Prop
  | .restart => False
  | .call _ _ (.assignWallet _ _) => True
  | .call _ _ (.unassignWallet _ _) => True
  | .call _ _ op => UserManager.Leaves id op

theorem lastGrant_append (id walletAddress : String) (events : List ServiceEvent)
    (e : ServiceEvent) : lastGrant id walletAddress (events++[e]) =
      (grant id walletAddress e).or (lastGrant id walletAddress events) := by
  unfold lastGrant
  rw [List.filterMap_append]
  cases hgrant : grant id walletAddress e with
  | none => simp [hgrant]
  | some g => simp [hgrant]

/-- The user is stored with the role, and has the wallet or not. -/
def Holds (id : String) (role : Option UserRole) (walletAddress : String) (has : Bool)
    (users : Users) : Prop :=
  ∃ user, users.lookup id = some user ∧ user.role = role ∧
    (walletAddress ∈ user.wallets ↔ has = true)

variable {id walletAddress : String} {role : Option UserRole} {has : Bool}

theorem respond_left {users : Users} (h : Holds id role walletAddress has users)
    (file : ByteArray) {now : ℕ} {fault : Option DiskFault} {op : UserOperation}
    (hleaves : UserManager.Leaves id op) :
    Holds id role walletAddress has
      (respond json bcrypt argon2 users file now fault op).2.users := by
  obtain ⟨user,hstored,hrole,hhas⟩ := h
  have heffect := @UserManager.perform_effect json bcrypt argon2 ⟨users,some file⟩ fault now op
  obtain ⟨user',hstored',hrole',hwallets⟩ := UserManager.effect_left heffect hstored hleaves
  exact ⟨user',hstored',hrole'.trans hrole,by rwa [hwallets]⟩

theorem respond_assign {users : Users} (h : Holds id role walletAddress has users)
    (file : ByteArray) (now : ℕ) (fault : Option DiskFault) (w : String) :
    Holds id role walletAddress (decide (w = walletAddress) || has)
      (respond json bcrypt argon2 users file now fault (.assignWallet id w)).2.users := by
  obtain ⟨user,hstored,hrole,hhas⟩ := h
  have husers := @UserManager.changeUser_stored json ⟨users,some file⟩ fault id
    (fun user => .ok (user.addWallet now w)) user _ hstored rfl
  refine ⟨user.addWallet now w,?_,(user.addWallet_names now w).2.2.trans hrole,?_⟩
  · rw [respond,UserManager.perform,UserManager.assignWallet,husers,AList.lookup_insert]
  · rw [User.mem_addWallet,hhas,Bool.or_eq_true,decide_eq_true_iff,eq_comm]

theorem respond_unassign {users : Users} (h : Holds id role walletAddress has users)
    (file : ByteArray) (now : ℕ) (fault : Option DiskFault) (w : String) :
    Holds id role walletAddress (!decide (w = walletAddress) && has)
      (respond json bcrypt argon2 users file now fault (.unassignWallet id w)).2.users := by
  obtain ⟨user,hstored,hrole,hhas⟩ := h
  have husers := @UserManager.changeUser_stored json ⟨users,some file⟩ fault id
    (fun user => .ok (user.removeWallet now w)) user _ hstored rfl
  refine ⟨user.removeWallet now w,?_,hrole,?_⟩
  · rw [respond,UserManager.perform,UserManager.unassignWallet,husers,AList.lookup_insert]
  · rw [User.mem_removeWallet,hhas,Bool.and_eq_true,Bool.not_eq_true',decide_eq_false_iff_not,
      ne_comm]

theorem respond_holds {users : Users} (h : Holds id role walletAddress has users)
    (file : ByteArray) {now : ℕ} {fault : Option DiskFault} {op : UserOperation}
    (hkeeps : KeepsRecord id (.call now fault op)) :
    Holds id role walletAddress ((grant id walletAddress (.call now fault op)).getD has)
      (respond json bcrypt argon2 users file now fault op).2.users := by
  cases op with
  | assignWallet id' w =>
    by_cases hid : id' = id
    · subst hid
      have hstep := @respond_assign json bcrypt argon2 _ walletAddress role has users h file now
        fault w
      by_cases hw : w = walletAddress
      · simpa [grant,hw] using hstep
      · simpa [grant,hw] using hstep
    · rw [grant,if_neg fun hsame => hid hsame.1]
      exact respond_left h file hid
  | unassignWallet id' w =>
    by_cases hid : id' = id
    · subst hid
      have hstep := @respond_unassign json bcrypt argon2 _ walletAddress role has users h file now
        fault w
      by_cases hw : w = walletAddress
      · simpa [grant,hw] using hstep
      · simpa [grant,hw] using hstep
    · rw [grant,if_neg fun hsame => hid hsame.1]
      exact respond_left h file hid
  | addUser u => exact respond_left h file hkeeps
  | deleteUser id' => exact respond_left h file hkeeps
  | updateUser id' updateFn => exact respond_left h file hkeeps
  | authenticate username password => exact respond_left h file hkeeps
  | changePassword salt username oldPassword newPassword => exact respond_left h file hkeeps
  | resetPassword salt id' newPassword => exact respond_left h file hkeeps
  | updateUserSubscription pause id' level durationDays => exact respond_left h file hkeeps

theorem run_holds {s : UserService} {users : Users} (hrun : s.users = some users)
    (h : Holds id role walletAddress has users) {events : List ServiceEvent}
    (hkeeps : ∀ e ∈ events, KeepsRecord id e) :
    ∃ users', (run (next json bcrypt argon2) events s).users = some users' ∧
      Holds id role walletAddress ((lastGrant id walletAddress events).getD has) users' := by
  induction events using List.reverseRecOn with
  | nil => exact ⟨users,hrun,h⟩
  | append_singleton events e ih =>
    obtain ⟨users',hrun',hholds⟩ := ih fun e he => hkeeps e (List.mem_append_left _ he)
    have he := hkeeps e (by simp)
    rw [run_append]
    cases e with
    | restart => exact he.elim
    | call now fault op =>
      refine ⟨_,congrArg UserService.users (next_running hrun' now fault op),?_⟩
      rw [lastGrant_append]
      have hstep := @respond_holds json bcrypt argon2 _ _ _ _ _ hholds
        (run (next json bcrypt argon2) events s).file now fault op he
      cases hgrant : grant id walletAddress (.call now fault op) with
      | none => simpa [hgrant] using hstep
      | some g => simpa [hgrant] using hstep

/-- While the service runs, an administrator may use every wallet; another user may use
a wallet exactly when its last assignment or withdrawal was an assignment. It does not
matter whether that call could save and what it answered. -/
theorem access_follows {s : UserService} {users : Users} {user : User}
    (hrun : s.users = some users) (hstored : users.lookup id = some user)
    {events : List ServiceEvent} (hkeeps : ∀ e ∈ events, KeepsRecord id e)
    (walletAddress : String) :
    ∃ users' user', (run (next json bcrypt argon2) events s).users = some users' ∧
      users'.lookup id = some user' ∧ (user'.hasWalletAccess walletAddress = true ↔
        user.role = some .admin ∨ (lastGrant id walletAddress events).getD
          (decide (walletAddress ∈ user.wallets)) = true) := by
  have hstart : Holds id user.role walletAddress (decide (walletAddress ∈ user.wallets)) users :=
    ⟨user,hstored,rfl,by rw [decide_eq_true_iff]⟩
  obtain ⟨users',hrun',user',hstored',hrole,hhas⟩ := run_holds hrun hstart hkeeps
  exact ⟨users',user',hrun',hstored',by rw [User.hasWalletAccess_iff,hrole,hhas]⟩

/-- A wallet is withdrawn while the disk is full. -/
theorem access_follows_withdrawn :
    let json := UserManager.twoStores UserManager.annAlone.users
    let events : List ServiceEvent := [.call 1000 none (.assignWallet "id" "0x1"),
      .call 1001 (some (.create "No space left on device")) (.unassignWallet "id" "0x1")]
    ∃ users' user', (run (next json noHash noHash) events
        ⟨some UserManager.annAlone.users,"[ann]".toByteArray⟩).users = some users' ∧
      users'.lookup "id" = some user' ∧ (user'.hasWalletAccess "0x1" = true ↔
        UserManager.ann.role = some .admin ∨ (lastGrant "id" "0x1" events).getD
          (decide ("0x1" ∈ UserManager.ann.wallets)) = true) :=
  access_follows rfl rfl (by simp [KeepsRecord]) "0x1"

end UserService

end DiamondBot.Common
