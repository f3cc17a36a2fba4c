import DiamondBot.Common.UserManager
import DiamondBot.Library.Durable

/-!
# The users a restart brings back

The service keeps the users in memory and in one file; a call saves after it
changed them, and the disk may fail at any save, also after the call was
answered. The write of a call is over when the next event comes. A restart reads
the file, and a service that cannot read it does not run.
-/

set_option autoImplicit false

namespace DiamondBot.Common
open Library AtomicRun Durable

/-- The service once its file exists; there are no users while it does not run. -/
structure UserService where
  users : Option Users
  file : ByteArray

inductive ServiceEvent where
  | call (now : ℕ) (fault : Option DiskFault) (op : UserOperation)
  | restart

namespace UserService

variable (json : Json Users) (bcrypt argon2 : PasswordHash)

def readFile (file : ByteArray) : Option Users :=
  match UserManager.load json ⟨∅,some file⟩ with
  | .ok m => some m.users
  | .error _ => none

def respond (users : Users) (file : ByteArray) (now : ℕ) (fault : Option DiskFault)
    (op : UserOperation) : Except String Unit × UserManager :=
  UserManager.perform json bcrypt argon2 ⟨users,some file⟩ fault now op

def next (s : UserService) : ServiceEvent → UserService
  | .call now fault op =>
    match s.users with
    | none => s
    | some users =>
      let m := (respond json bcrypt argon2 users s.file now fault op).2
      ⟨some m.users,m.file.getD s.file⟩
  | .restart => ⟨readFile json s.file,s.file⟩

def onDisk (s : UserService) : Option Users := readFile json s.file

/-- No text of users is read when its end is missing. -/
def RefusesCut : Prop := ∀ users contents written, json.toText users = .ok contents →
  written < contents.toByteArray.size →
    readFile json (contents.toByteArray.extract 0 written) = none

/-- The disk does not stop in the middle of a write. -/
def Uncut : ServiceEvent → Prop
  | .call _ fault _ => fault.bind DiskFault.cut = none
  | .restart => True

variable {json bcrypt argon2}

theorem new_existing (fresh : Fresh) (file : ByteArray) (fault : Option DiskFault) :
    (match UserManager.new json bcrypt fresh (some file) fault with
      | .ok m => some m.users
      | .error _ => none) = readFile json file := rfl

theorem next_running {s : UserService} {users : Users} (h : s.users = some users) (now : ℕ)
    (fault : Option DiskFault) (op : UserOperation) :
    s.next json bcrypt argon2 (.call now fault op) =
      ⟨some (respond json bcrypt argon2 users s.file now fault op).2.users,
        (respond json bcrypt argon2 users s.file now fault op).2.file.getD s.file⟩ := by
  simp only [next,h]

theorem readFile_text {users : Users} {contents : String} (h : json.toText users = .ok contents) :
    readFile json contents.toByteArray = some users := by
  simp only [readFile,UserManager.load,fromUTF8_toByteArray,json.roundTrip _ _ h]

theorem extract_whole {bytes : ByteArray} {written : ℕ} (h : bytes.size ≤ written) :
    bytes.extract 0 written = bytes := by
  apply ByteArray.ext
  rw [ByteArray.data_extract,Array.extract_eq_self_of_le h]

theorem save_file (users : Users) (file : ByteArray) (fault : Option DiskFault) :
    (UserManager.save json ⟨users,some file⟩ fault).2.file = some file ∨
      ∃ contents, json.toText users = .ok contents ∧
        ((UserManager.save json ⟨users,some file⟩ fault).2.file = some contents.toByteArray ∨
          ∃ written, fault.bind DiskFault.cut = some written ∧
            (UserManager.save json ⟨users,some file⟩ fault).2.file =
              some (contents.toByteArray.extract 0 written)) := by
  unfold UserManager.save
  cases htext : json.toText users with
  | error e => exact Or.inl rfl
  | ok contents =>
    match fault with
    | none => exact Or.inr ⟨contents,rfl,Or.inl rfl⟩
    | some (.create e) => exact Or.inl rfl
    | some (.write written e) => exact Or.inr ⟨contents,rfl,Or.inr ⟨written,rfl,rfl⟩⟩
    | some (.late written) => exact Or.inr ⟨contents,rfl,Or.inr ⟨written,rfl,rfl⟩⟩

theorem save_ok_file {users : Users} {file : ByteArray} {fault : Option DiskFault}
    (h : (UserManager.save json ⟨users,some file⟩ fault).1 = .ok ())
    (hwhole : fault.bind DiskFault.cut = none) :
    ∃ contents, json.toText users = .ok contents ∧
      (UserManager.save json ⟨users,some file⟩ fault).2.file = some contents.toByteArray := by
  unfold UserManager.save at h ⊢
  cases htext : json.toText users with
  | error e => simp [htext] at h
  | ok contents =>
    match fault with
    | none => exact ⟨contents,rfl,rfl⟩
    | some (.create e) => simp [htext] at h
    | some (.write written e) => simp [htext] at h
    | some (.late written) => simp [DiskFault.cut] at hwhole

theorem respond_cases (users : Users) (file : ByteArray) (now : ℕ) (fault : Option DiskFault)
    (op : UserOperation) :
    (∃ e, respond json bcrypt argon2 users file now fault op = (.error e,⟨users,some file⟩)) ∨
      ∃ users', respond json bcrypt argon2 users file now fault op =
        UserManager.save json ⟨users',some file⟩ fault := by
  have hdecided := @UserManager.perform_decided json bcrypt argon2 ⟨users,some file⟩ now op
  rcases hdecided with ⟨e,hrefused⟩ | ⟨users',hsaves⟩
  · exact Or.inl ⟨e,hrefused fault⟩
  · exact Or.inr ⟨users',hsaves fault⟩

theorem save_disk (users : Users) (file : ByteArray) (fault : Option DiskFault) :
    readFile json ((UserManager.save json ⟨users,some file⟩ fault).2.file.getD file) =
        some users ∨
      (UserManager.save json ⟨users,some file⟩ fault).2.file.getD file = file ∨
      fault.bind DiskFault.cut ≠ none ∧ (RefusesCut json → readFile json
        ((UserManager.save json ⟨users,some file⟩ fault).2.file.getD file) = none) := by
  rcases @save_file json users file fault with hkept | ⟨contents,htext,hwhole | hcut⟩
  · exact Or.inr (Or.inl (by rw [hkept,Option.getD_some]))
  · exact Or.inl (by rw [hwhole,Option.getD_some,readFile_text htext])
  · obtain ⟨written,hfault,hfile⟩ := hcut
    rw [hfile,Option.getD_some]
    by_cases hshort : written < contents.toByteArray.size
    · exact Or.inr (Or.inr ⟨by simp [hfault],fun hjson => hjson _ _ _ htext hshort⟩)
    · -- the error came after the last byte
      left
      rw [extract_whole (Nat.le_of_not_lt hshort),readFile_text htext]

/-- One event: the file has the users in memory, it is as it was, or its write was cut off. -/
theorem next_disk (s : UserService) (e : ServiceEvent) :
    Careful (next json bcrypt argon2) users (onDisk json) s e ∨
      ¬Uncut e ∧ (RefusesCut json → onDisk json (s.next json bcrypt argon2 e) = none) := by
  cases e with
  | restart => exact Or.inl (Or.inl rfl)
  | call now fault op =>
    cases hrun : s.users with
    | none =>
      left
      right
      simp only [next,hrun]
    | some users =>
      unfold Careful Synced onDisk
      rw [next_running hrun]
      rcases @respond_cases json bcrypt argon2 users s.file now fault op with
        ⟨e,hrefused⟩ | ⟨users',hsaves⟩
      · rw [hrefused]
        exact Or.inl (Or.inr rfl)
      · rw [hsaves,UserManager.save_users]
        rcases @save_disk json users' s.file fault with hwritten | hkept | ⟨hfault,hcut⟩
        · exact Or.inl (Or.inl hwritten)
        · exact Or.inl (Or.inr (congrArg (readFile json) hkept))
        · exact Or.inr ⟨hfault,hcut⟩

theorem acknowledged_disk {s : UserService} {users : Users} (hrun : s.users = some users)
    {now : ℕ} {fault : Option DiskFault} {op : UserOperation}
    (h : (respond json bcrypt argon2 users s.file now fault op).1 = .ok ())
    (hwhole : Uncut (.call now fault op)) :
    Synced UserService.users (onDisk json) (s.next json bcrypt argon2 (.call now fault op)) := by
  unfold Synced onDisk
  rw [next_running hrun]
  rcases @respond_cases json bcrypt argon2 users s.file now fault op with
    ⟨e,hrefused⟩ | ⟨users',hsaves⟩
  · rw [hrefused] at h
    cases h
  · rw [hsaves] at h ⊢
    obtain ⟨contents,htext,hfile⟩ := save_ok_file h hwhole
    rw [hfile,UserManager.save_users,Option.getD_some,readFile_text htext]

theorem careful_of_uncut (s : UserService) {e : ServiceEvent} (h : Uncut e) :
    Careful (next json bcrypt argon2) users (onDisk json) s e :=
  (next_disk s e).resolve_right fun hcut => hcut.1 h

structure Up (json : Json Users) (s : UserService) : Prop where
  users : s.users.isSome
  disk : (s.onDisk json).isSome

theorem next_up {s : UserService} (hs : Up json s) {e : ServiceEvent} (h : Uncut e) :
    Up json (s.next json bcrypt argon2 e) := by
  have husers : (s.next json bcrypt argon2 e).users.isSome := by
    cases e with
    | call now fault op =>
      obtain ⟨users,hrun⟩ := Option.isSome_iff_exists.mp hs.users
      rw [next_running hrun]
      rfl
    | restart => exact hs.disk
  refine ⟨husers,?_⟩
  rcases @careful_of_uncut json bcrypt argon2 s e h with hwrites | hleaves
  · exact (congrArg Option.isSome hwrites).trans husers
  · exact (congrArg Option.isSome hleaves).trans hs.disk

theorem along_uncut {events : List ServiceEvent} (h : ∀ e ∈ events, Uncut e) (s : UserService) :
    Along (next json bcrypt argon2) (fun _ e => Uncut e) events s :=
  (along_const events s).mpr h

/-- Unless a write is cut off, that of the call itself included, a restart after an
acknowledged call brings back the users as they were in memory at some moment
since that call. -/
theorem acknowledged_survives {s : UserService} {users : Users} (hrun : s.users = some users)
    {now : ℕ} {fault : Option DiskFault} {op : UserOperation}
    (hack : (respond json bcrypt argon2 users s.file now fault op).1 = .ok ())
    (hwhole : Uncut (.call now fault op)) {events : List ServiceEvent}
    (huncut : ∀ e ∈ events, Uncut e) :
    ∃ before after users', events = before++after ∧
      (run (next json bcrypt argon2) before
        (s.next json bcrypt argon2 (.call now fault op))).users = some users' ∧
      ((run (next json bcrypt argon2) events
        (s.next json bcrypt argon2 (.call now fault op))).next json bcrypt argon2 .restart).users =
          some users' := by
  have hsynced := acknowledged_disk hrun hack hwhole
  have hup : Up json (s.next json bcrypt argon2 (.call now fault op)) := by
    have husers : (s.next json bcrypt argon2 (.call now fault op)).users.isSome := by
      rw [next_running hrun]
      rfl
    exact ⟨husers,(congrArg Option.isSome hsynced).trans husers⟩
  have hend := run_invariant_along (I := Up json) (fun _ _ hs he => next_up hs he) hup
    (@along_uncut json bcrypt argon2 events huncut _)
  have hcareful : Along (next json bcrypt argon2)
      (Careful (next json bcrypt argon2) UserService.users (onDisk json)) events
      (s.next json bcrypt argon2 (.call now fault op)) :=
    along_mono (J := fun _ => True) (fun _ _ _ => trivial)
      (fun s _ _ he => careful_of_uncut s he) trivial (along_uncut huncut _)
  obtain ⟨before,after,hsplit,hpast⟩ := copy_past hsynced hcareful
  obtain ⟨users',husers'⟩ := Option.isSome_iff_exists.mp hend.disk
  exact ⟨before,after,users',hsplit,hpast.symm.trans husers',husers'⟩

def noHash : PasswordHash := ⟨fun _ _ => .error "",fun _ _ => .error ""⟩

/-- The disk is full when a user is added after a user was deleted. -/
theorem acknowledged_survives_full :
    let json := UserManager.twoStores UserManager.annAlone.users
    let deleted := (⟨some UserManager.annAlone.users,"[ann]".toByteArray⟩ : UserService).next json
      noHash noHash (.call 1000 none (.deleteUser "id"))
    let events : List ServiceEvent :=
      [.call 1001 (some (.create "No space left on device")) (.addUser UserManager.ann),.restart]
    ∃ before after users', events = before++after ∧
      (run (next json noHash noHash) before deleted).users = some users' ∧
      ((run (next json noHash noHash) events deleted).next json noHash noHash .restart).users =
        some users' :=
  acknowledged_survives rfl (by decide)
    (show Uncut (.call 1000 none (.deleteUser "id")) from rfl) (by simp [Uncut,DiskFault.cut])

end UserService

end DiamondBot.Common
