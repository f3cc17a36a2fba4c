import DiamondBot.Library.AtomicRun
import DiamondBot.Library.Json
import Mathlib.Logic.Function.Basic

/-!
# Encrypted wallet files

A wallet is written under its address, encrypted with a key made from the
password and the salt of the storage, with the address as authenticated data.
The salt is cut from the configured text, which the default text is too short
for. The cipher, the hash and the file a path names are parameters.
-/

set_option autoImplicit false

namespace DiamondBot.Wallet

open Library

def utf8 (s : String) : List UInt8 := s.toByteArray.data.toList

theorem utf8_toByteArray (s : String) : (utf8 s).toByteArray = s.toByteArray := by
  apply ByteArray.ext
  rw [utf8,List.data_toByteArray,Array.toArray_toList]

theorem utf8_injective : Function.Injective utf8 := by
  intro s t h
  apply String.toByteArray_inj.mp
  rw [← utf8_toByteArray,h,utf8_toByteArray]

theorem fromUTF8_utf8 (s : String) : String.fromUTF8? (utf8 s).toByteArray = some s := by
  rw [utf8_toByteArray,fromUTF8_toByteArray]

abbrev Nonce := { bytes : List UInt8 // bytes.length = 12 }

structure Cipher (K : Type) where
  encrypt : K → List UInt8 → List UInt8 → List UInt8 → Except String (List UInt8)
  decrypt : K → List UInt8 → List UInt8 → List UInt8 → Except String (List UInt8)

namespace Cipher

variable {K : Type}

def Opens (cipher : Cipher K) : Prop := ∀ key nonce aad message sealed,
  cipher.encrypt key nonce aad message = .ok sealed →
    cipher.decrypt key nonce aad sealed = .ok message

/-- What was encrypted is refused under another key or with other data. -/
def Binds (cipher : Cipher K) : Prop := ∀ key nonce aad message sealed,
  cipher.encrypt key nonce aad message = .ok sealed →
    ∀ key' aad', key' ≠ key ∨ aad' ≠ aad → ∃ e, cipher.decrypt key' nonce aad' sealed = .error e

/-- Bytes that no key opens. -/
def Foreign (cipher : Cipher K) (aad bytes : List UInt8) : Prop :=
  ∀ key, ∃ e, cipher.decrypt key (bytes.take 12) aad (bytes.drop 12) = .error e

end Cipher

structure EncryptedData where
  ciphertext : List UInt8
  nonce : List UInt8
  salt : List UInt8
  version : UInt8
deriving DecidableEq

structure WalletInfo where
  address : String
  encryptedPrivateKey : Option EncryptedData
  encryptedMnemonic : Option EncryptedData
  chainId : ℕ
  createdAt : ℕ
  lastUsed : ℕ
  balance : Option String
  name : Option String
  tags : List String
  isHardware : Bool
deriving DecidableEq

structure StorageConfig where
  walletDir : String
  walletFilename : String
  encryptionSalt : String

def StorageConfig.default : StorageConfig := ⟨".wallets","wallets.json","diamond"⟩

inductive StorageError where
  | encryptionError (e : String)
  | decryptionError (e : String)
  | formatError (e : String)
  | failedToRead (path : String)
  | failedToWrite (path : String)
  | json (e : String)
deriving DecidableEq

structure SecureWalletStorage where
  storagePath : String
  salt : List UInt8
deriving DecidableEq

abbrev Disk (F : Type) := F → Option (List UInt8)

namespace SecureWalletStorage

/-- `none` is a panic: the salt is cut from the first sixteen bytes. `setup` is the
outcome of making the directory and the key of the storage itself. -/
def new (storagePath : String) (config : StorageConfig) (setup : Except StorageError Unit) :
    Option (Except StorageError SecureWalletStorage) :=
  if (utf8 config.encryptionSalt).length < 16 then none
  else match setup with
    | .error e => some (.error e)
    | .ok () => some (.ok ⟨storagePath,(utf8 config.encryptionSalt).take 16⟩)

def getFilePath (self : SecureWalletStorage) (identifier : String) : String :=
  if "/".toList.isPrefixOf identifier.toList then identifier++".bin"
  else self.storagePath++"/"++identifier++".bin"

variable {K F : Type} (cipher : Cipher K) (sha256 : List UInt8 → K)
  (json : Json WalletInfo) (file : String → F)

def deriveKey (self : SecureWalletStorage) (password : String) : K :=
  sha256 (utf8 password++self.salt)

def sealWallet (self : SecureWalletStorage) (nonce : Nonce) (walletInfo : WalletInfo)
    (password : String) : Except StorageError (List UInt8) :=
  match json.toText walletInfo with
  | .error e => .error (.json e)
  | .ok data =>
    match cipher.encrypt (self.deriveKey sha256 password) nonce.val (utf8 walletInfo.address)
        (utf8 data) with
    | .error e => .error (.encryptionError e)
    | .ok encryptedData => .ok (nonce.val++encryptedData)

/-- `fault` is what a write that fails leaves in the file. -/
def storeWallet [DecidableEq F] (self : SecureWalletStorage) (disk : Disk F) (nonce : Nonce)
    (fault : Option (Option (List UInt8))) (walletInfo : WalletInfo) (password : String) :
    Except StorageError Unit × Disk F :=
  match self.sealWallet cipher sha256 json nonce walletInfo password with
  | .error e => (.error e,disk)
  | .ok fileContent =>
    let filePath := self.getFilePath walletInfo.address
    match fault with
    | none => (.ok (),Function.update disk (file filePath) (some fileContent))
    | some left => (.error (.failedToWrite filePath),Function.update disk (file filePath) left)

def loadWallet (self : SecureWalletStorage) (disk : Disk F) (address password : String) :
    Except StorageError WalletInfo :=
  let filePath := self.getFilePath address
  match disk (file filePath) with
  | none => .error (.failedToRead filePath)
  | some fileContent =>
    if fileContent.length < 12 then .error (.formatError "Encrypted file is too short")
    else match cipher.decrypt (self.deriveKey sha256 password) (fileContent.take 12)
        (utf8 address) (fileContent.drop 12) with
      | .error e => .error (.decryptionError e)
      | .ok decryptedData =>
        match String.fromUTF8? decryptedData.toByteArray with
        | none => .error (.json "invalid unicode code point")
        | some data =>
          match json.fromText data with
          | .error e => .error (.json e)
          | .ok walletInfo => .ok walletInfo

section Files

variable {cipher sha256 json file}

/-- A password gives its own key. -/
def DistinctKeys (self : SecureWalletStorage) (sha256 : List UInt8 → K) : Prop :=
  ∀ password other, self.deriveKey sha256 password = self.deriveKey sha256 other →
    password = other

theorem sealWallet_ok {self : SecureWalletStorage} {nonce : Nonce} {walletInfo : WalletInfo}
    {password : String} {fileContent : List UInt8}
    (h : self.sealWallet cipher sha256 json nonce walletInfo password = .ok fileContent) :
    ∃ data encryptedData, json.toText walletInfo = .ok data ∧
      cipher.encrypt (self.deriveKey sha256 password) nonce.val (utf8 walletInfo.address)
        (utf8 data) = .ok encryptedData ∧ fileContent = nonce.val++encryptedData := by
  unfold sealWallet at h
  cases htext : json.toText walletInfo with
  | error e =>
    rw [htext] at h
    simp at h
  | ok data =>
    rw [htext] at h
    cases hencrypt : cipher.encrypt (self.deriveKey sha256 password) nonce.val
        (utf8 walletInfo.address) (utf8 data) with
    | error e =>
      simp [hencrypt] at h
    | ok encryptedData =>
      simp only [hencrypt] at h
      cases h
      exact ⟨data,encryptedData,rfl,hencrypt,rfl⟩

theorem sealWallet_error {self : SecureWalletStorage} {nonce : Nonce} {walletInfo : WalletInfo}
    {password : String} {error : StorageError}
    (h : self.sealWallet cipher sha256 json nonce walletInfo password = .error error) :
    ∃ e, error = .json e ∨ error = .encryptionError e := by
  unfold sealWallet at h
  split at h
  · cases h
    exact ⟨_,Or.inl rfl⟩
  · split at h
    · cases h
      exact ⟨_,Or.inr rfl⟩
    · simp at h

theorem take_nonce (nonce : Nonce) (bytes : List UInt8) : (nonce.val++bytes).take 12 = nonce.val := by
  exact List.take_left' nonce.property

theorem drop_nonce (nonce : Nonce) (bytes : List UInt8) : (nonce.val++bytes).drop 12 = bytes := by
  exact List.drop_left' nonce.property

theorem not_short (nonce : Nonce) (bytes : List UInt8) : ¬ (nonce.val++bytes).length < 12 := by
  rw [List.length_append,nonce.property]
  omega

theorem loadWallet_sealed (hopens : cipher.Opens) {self : SecureWalletStorage} {disk : Disk F}
    {nonce : Nonce} {walletInfo : WalletInfo} {password : String} {fileContent : List UInt8}
    (h : self.sealWallet cipher sha256 json nonce walletInfo password = .ok fileContent)
    (hfile : disk (file (self.getFilePath walletInfo.address)) = some fileContent) :
    self.loadWallet cipher sha256 json file disk walletInfo.address password = .ok walletInfo := by
  obtain ⟨data,encryptedData,htext,hencrypt,hcontent⟩ := sealWallet_ok h
  unfold loadWallet
  simp only [hfile,hcontent,if_neg (not_short nonce encryptedData),take_nonce,drop_nonce,
    hopens _ _ _ _ _ hencrypt,fromUTF8_utf8,json.roundTrip _ _ htext]

theorem loadWallet_error {self : SecureWalletStorage} {disk : Disk F} {address password : String}
    (h : ∀ bytes, disk (file (self.getFilePath address)) = some bytes →
      ∃ e, cipher.decrypt (self.deriveKey sha256 password) (bytes.take 12) (utf8 address)
        (bytes.drop 12) = .error e) :
    ∃ e, self.loadWallet cipher sha256 json file disk address password = .error e := by
  unfold loadWallet
  cases hfile : disk (file (self.getFilePath address)) with
  | none => exact ⟨.failedToRead (self.getFilePath address),by simp only [hfile]⟩
  | some fileContent =>
    obtain ⟨e,he⟩ := h fileContent hfile
    by_cases hshort : fileContent.length < 12
    · exact ⟨.formatError "Encrypted file is too short",by simp only [hfile,if_pos hshort]⟩
    · exact ⟨.decryptionError e,by simp only [hfile,if_neg hshort,he]⟩

theorem sealed_refused (hbinds : cipher.Binds) {self : SecureWalletStorage} {nonce : Nonce}
    {walletInfo : WalletInfo} {password : String} {fileContent : List UInt8}
    (h : self.sealWallet cipher sha256 json nonce walletInfo password = .ok fileContent)
    {key : K} {address : String}
    (hother : key ≠ self.deriveKey sha256 password ∨ address ≠ walletInfo.address) :
    ∃ e, cipher.decrypt key (fileContent.take 12) (utf8 address) (fileContent.drop 12) =
      .error e := by
  obtain ⟨data,encryptedData,_,hencrypt,hcontent⟩ := sealWallet_ok h
  rw [hcontent,take_nonce,drop_nonce]
  exact hbinds _ _ _ _ _ hencrypt _ _ (hother.imp_right utf8_injective.ne)

end Files

end SecureWalletStorage

/-- What an address stands for: no wallet was stored under it, a wallet is stored with
a password, or a write to its file failed. -/
inductive Standing where
  | never
  | holds (walletInfo : WalletInfo) (password : String)
  | damaged
deriving DecidableEq

structure WalletFiles (F : Type) where
  disk : Disk F
  standing : String → Standing

structure StoreAction where
  walletInfo : WalletInfo
  password : String
  nonce : Nonce
  fault : Option (Option (List UInt8))

namespace WalletFiles

variable {K F : Type} [DecidableEq F] (self : SecureWalletStorage) (cipher : Cipher K)
  (sha256 : List UInt8 → K) (json : Json WalletInfo) (file : String → F)

def next (s : WalletFiles F) (a : StoreAction) : WalletFiles F :=
  let stored := self.storeWallet cipher sha256 json file s.disk a.nonce a.fault a.walletInfo
    a.password
  match stored.1 with
  | .ok _ => ⟨stored.2,
      Function.update s.standing a.walletInfo.address (.holds a.walletInfo a.password)⟩
  | .error (.failedToWrite _) => ⟨stored.2,fun address =>
      if file (self.getFilePath address) = file (self.getFilePath a.walletInfo.address) then
        .damaged
      else s.standing address⟩
  | .error _ => ⟨stored.2,s.standing⟩

def start (disk : Disk F) : WalletFiles F := ⟨disk,fun _ => .never⟩

/-- Every stored wallet is loaded with its password and no other, and an address no
wallet was stored under gives an error. -/
def Faithful (s : WalletFiles F) : Prop := ∀ address,
  match s.standing address with
  | .never => ∀ password, ∃ e,
      self.loadWallet cipher sha256 json file s.disk address password = .error e
  | .holds walletInfo password => walletInfo.address = address ∧
      self.loadWallet cipher sha256 json file s.disk address password = .ok walletInfo ∧
      ∀ other, other ≠ password → ∃ e,
        self.loadWallet cipher sha256 json file s.disk address other = .error e
  | .damaged => True

/-- The store leaves the files of the other wallets alone. -/
def LeavesOthers (s : WalletFiles F) (a : StoreAction) : Prop := ∀ address,
  address ≠ a.walletInfo.address → s.standing address ≠ .never →
    (s.next self cipher sha256 json file a).disk (file (self.getFilePath address)) =
      s.disk (file (self.getFilePath address))

/-- The file of the wallet is not the file of another wallet. -/
def OwnFile (s : WalletFiles F) (a : StoreAction) : Prop := ∀ address,
  address ≠ a.walletInfo.address → s.standing address ≠ .never →
    file (self.getFilePath address) ≠ file (self.getFilePath a.walletInfo.address)

def Intact (s : WalletFiles F) : Prop := ∀ address,
  match s.standing address with
  | .never => ∀ bytes, s.disk (file (self.getFilePath address)) = some bytes →
      cipher.Foreign (utf8 address) bytes
  | .holds walletInfo password => walletInfo.address = address ∧ ∃ nonce fileContent,
      self.sealWallet cipher sha256 json nonce walletInfo password = .ok fileContent ∧
      s.disk (file (self.getFilePath address)) = some fileContent
  | .damaged => True

variable {self cipher sha256 json file}

omit [DecidableEq F] in
theorem faithful_of_intact (hopens : cipher.Opens) (hbinds : cipher.Binds)
    (hkeys : self.DistinctKeys sha256) {s : WalletFiles F}
    (h : s.Intact self cipher sha256 json file) : s.Faithful self cipher sha256 json file := by
  intro address
  have haddress := h address
  cases hstanding : s.standing address with
  | never =>
    rw [hstanding] at haddress
    intro password
    exact SecureWalletStorage.loadWallet_error fun bytes hbytes => haddress bytes hbytes _
  | holds walletInfo password =>
    rw [hstanding] at haddress
    obtain ⟨hsame,nonce,fileContent,hseal,hfile⟩ := haddress
    subst hsame
    refine ⟨rfl,SecureWalletStorage.loadWallet_sealed hopens hseal hfile,?_⟩
    intro other hother
    apply SecureWalletStorage.loadWallet_error
    intro bytes hbytes
    rw [hfile] at hbytes
    cases hbytes
    exact SecureWalletStorage.sealed_refused hbinds hseal
      (Or.inl fun hkey => hother (hkeys other password hkey))
  | damaged => trivial

/-- What a store does: nothing, or a write to the file of its wallet. -/
theorem next_cases (s : WalletFiles F) (a : StoreAction) :
    s.next self cipher sha256 json file a = s ∨
      (∃ fileContent,
        self.sealWallet cipher sha256 json a.nonce a.walletInfo a.password = .ok fileContent ∧
        s.next self cipher sha256 json file a =
          ⟨Function.update s.disk (file (self.getFilePath a.walletInfo.address)) (some fileContent),
            Function.update s.standing a.walletInfo.address (.holds a.walletInfo a.password)⟩) ∨
      ∃ left, s.next self cipher sha256 json file a =
        ⟨Function.update s.disk (file (self.getFilePath a.walletInfo.address)) left,
          fun address => if file (self.getFilePath address) =
            file (self.getFilePath a.walletInfo.address) then .damaged else s.standing address⟩ := by
  unfold next SecureWalletStorage.storeWallet
  cases hseal : self.sealWallet cipher sha256 json a.nonce a.walletInfo a.password with
  | error error =>
    obtain ⟨e,he⟩ := SecureWalletStorage.sealWallet_error hseal
    rcases he with he | he
    · subst he
      exact Or.inl rfl
    · subst he
      exact Or.inl rfl
  | ok fileContent =>
    cases a.fault with
    | none => exact Or.inr (Or.inl ⟨fileContent,rfl,rfl⟩)
    | some left => exact Or.inr (Or.inr ⟨left,rfl⟩)

theorem next_disk (s : WalletFiles F) (a : StoreAction) {f : F}
    (h : f ≠ file (self.getFilePath a.walletInfo.address)) :
    (s.next self cipher sha256 json file a).disk f = s.disk f := by
  rcases next_cases s a with hsame | ⟨fileContent,_,hnext⟩ | ⟨left,hnext⟩
  · rw [hsame]
  · rw [hnext]
    exact Function.update_of_ne h _ _
  · rw [hnext]
    exact Function.update_of_ne h _ _

theorem next_intact (hbinds : cipher.Binds) {s : WalletFiles F}
    (h : s.Intact self cipher sha256 json file) {a : StoreAction} (hown : s.OwnFile self file a) :
    (s.next self cipher sha256 json file a).Intact self cipher sha256 json file := by
  rcases next_cases s a with hsame | ⟨fileContent,hseal,hnext⟩ | ⟨left,hnext⟩
  · rw [hsame]
    exact h
  · rw [hnext]
    intro address
    by_cases heq : address = a.walletInfo.address
    · subst heq
      simp only [Function.update_self]
      exact ⟨trivial,a.nonce,fileContent,hseal,rfl⟩
    · have haddress := h address
      simp only [Function.update_of_ne heq]
      cases hstanding : s.standing address with
      | never =>
        rw [hstanding] at haddress
        intro bytes hbytes
        by_cases hfile : file (self.getFilePath address) =
            file (self.getFilePath a.walletInfo.address)
        · rw [hfile,Function.update_self] at hbytes
          cases hbytes
          intro key
          exact SecureWalletStorage.sealed_refused hbinds hseal (Or.inr heq)
        · rw [Function.update_of_ne hfile] at hbytes
          exact haddress bytes hbytes
      | holds walletInfo password =>
        rw [hstanding] at haddress
        have hfile := hown address heq (by rw [hstanding]; simp)
        simp only [Function.update_of_ne hfile]
        exact haddress
      | damaged => trivial
  · rw [hnext]
    intro address
    by_cases hfile : file (self.getFilePath address) =
        file (self.getFilePath a.walletInfo.address)
    · simp only [if_pos hfile]
    · simp only [if_neg hfile,Function.update_of_ne hfile]
      exact h address

omit [DecidableEq F] in
theorem start_intact {disk : Disk F} (hforeign : ∀ address bytes,
    disk (file (self.getFilePath address)) = some bytes → cipher.Foreign (utf8 address) bytes) :
    (start disk).Intact self cipher sha256 json file := hforeign

/-- Making a storage panics exactly when the salt has fewer than sixteen bytes. Of a
storage that was made, every wallet is loaded with its password and no other, and an
address no wallet was stored under gives an error, as long as no wallet's file is also
the file of another wallet; then no store touches the file of another wallet. -/
theorem wallets_kept (hopens : cipher.Opens) (hbinds : cipher.Binds) (storagePath : String)
    (config : StorageConfig) (setup : Except StorageError Unit) :
    (SecureWalletStorage.new storagePath config setup ≠ none ↔
        16 ≤ (utf8 config.encryptionSalt).length) ∧
      ∀ self, SecureWalletStorage.new storagePath config setup = some (.ok self) →
        self.DistinctKeys sha256 → ∀ disk : Disk F, (∀ address bytes,
          disk (file (self.getFilePath address)) = some bytes → cipher.Foreign (utf8 address) bytes) →
        ∀ actions, AtomicRun.Along (next self cipher sha256 json file) (OwnFile self file) actions
            (start disk) →
          AtomicRun.Throughout (next self cipher sha256 json file)
              (Faithful self cipher sha256 json file) actions (start disk) ∧
            AtomicRun.Along (next self cipher sha256 json file)
              (LeavesOthers self cipher sha256 json file) actions (start disk) := by
  constructor
  · unfold SecureWalletStorage.new
    by_cases hshort : (utf8 config.encryptionSalt).length < 16
    · rw [if_pos hshort]
      exact iff_of_false (fun h => h rfl) (Nat.not_le_of_lt hshort)
    · rw [if_neg hshort]
      refine iff_of_true ?_ (Nat.le_of_not_lt hshort)
      cases setup with
      | error e => simp
      | ok _ => simp
  · intro self _ hkeys disk hforeign actions hown
    constructor
    · have hintact : AtomicRun.Throughout (next self cipher sha256 json file)
          (Intact self cipher sha256 json file) actions (start disk) :=
        AtomicRun.throughout_of_along (fun _ _ hI hR => next_intact hbinds hI hR)
          (start_intact hforeign) hown
      exact AtomicRun.throughout_mono (fun _ hI => faithful_of_intact hopens hbinds hkeys hI) hintact
    · apply AtomicRun.along_mono (J := fun _ => True) (fun _ _ _ => trivial) _ trivial hown
      intro s a _ hR address hne hstored
      exact next_disk s a (hR address hne hstored)

def oneWallet : WalletInfo := ⟨"0x1",none,none,1,1,1,none,none,[],false⟩

def oneJson : Json WalletInfo := Json.ofList [oneWallet] (fun _ => "w") (by simp)

def longSalt : StorageConfig := ⟨".wallets","wallets.json","0123456789abcdef"⟩

def saltedStorage : SecureWalletStorage := ⟨"dir",utf8 "0123456789abcdef"⟩

def oneCipher : Cipher (List UInt8) where
  encrypt key _ aad message :=
    if key = utf8 "pw"++saltedStorage.salt ∧ aad = utf8 "0x1" ∧ message = utf8 "w" then .ok [7]
    else .error "aead::Error"
  decrypt key _ aad sealed :=
    if key = utf8 "pw"++saltedStorage.salt ∧ aad = utf8 "0x1" ∧ sealed = [7] then .ok (utf8 "w")
    else .error "aead::Error"

theorem oneCipher_opens : oneCipher.Opens := by
  intro key nonce aad message sealed h
  simp only [oneCipher] at h ⊢
  split at h
  · rename_i hwhole
    cases h
    rw [if_pos ⟨hwhole.1,hwhole.2.1,rfl⟩,hwhole.2.2]
  · simp at h

theorem oneCipher_binds : oneCipher.Binds := by
  intro key nonce aad message sealed h key' aad' hother
  simp only [oneCipher] at h ⊢
  split at h
  · rename_i hwhole
    refine ⟨"aead::Error",if_neg ?_⟩
    rintro ⟨hkey,haad,_⟩
    rcases hother with hne | hne
    · exact hne (hkey.trans hwhole.1.symm)
    · exact hne (haad.trans hwhole.2.1.symm)
  · simp at h

theorem wallets_kept_one :
    let store : StoreAction := ⟨oneWallet,"pw",⟨List.replicate 12 0,rfl⟩,none⟩
    AtomicRun.Throughout (next saltedStorage oneCipher id oneJson id)
      (Faithful saltedStorage oneCipher id oneJson id) [store] (start fun _ => none) := by
  intro store
  have hkeys : saltedStorage.DistinctKeys id := fun password other h =>
    utf8_injective (List.append_cancel_right h)
  exact ((wallets_kept oneCipher_opens oneCipher_binds "dir" longSalt (.ok ())).2 saltedStorage
    (by decide) hkeys (fun _ => none) (by simp) [store]
    ⟨fun address _ h => absurd rfl h,trivial⟩).1

/-- The default salt has seven bytes. -/
theorem default_salt_panics :
    SecureWalletStorage.new ".wallets" StorageConfig.default (.ok ()) = none := by
  decide

end WalletFiles

end DiamondBot.Wallet
