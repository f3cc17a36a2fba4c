import Mathlib.Data.List.Basic

/-!
# Users and subscriptions

Times are in seconds and read from the clock at each call; a method that reads
the clock twice takes the seconds between the two as `pause`. The libraries
that hash passwords are parameters.
-/

set_option autoImplicit false

namespace DiamondBot.Common

inductive UserRole where
  | admin
  | user
deriving DecidableEq

inductive SubscriptionLevel where
  | free
  | basic
  | premium
  | vip
deriving DecidableEq

structure Subscription where
  level : SubscriptionLevel
  startDate : ℕ
  expiryDate : ℕ
  active : Bool
deriving DecidableEq

namespace Subscription

def new (now : ℕ) (level : SubscriptionLevel) (durationDays : ℕ) : Subscription :=
  ⟨level,now,now+durationDays*86400,true⟩

def isActive (s : Subscription) (now : ℕ) : Bool := s.active && decide (now < s.expiryDate)

def extend (s : Subscription) (now days : ℕ) : Subscription :=
  if now > s.expiryDate then
    { s with startDate := now, expiryDate := now+days*86400, active := true }
  else { s with expiryDate := s.expiryDate+days*86400, active := true }

def updateLevel (s : Subscription) (level : SubscriptionLevel) : Subscription :=
  { s with level := level }

end Subscription

/-- A library that makes hashes, with a salt, and checks passwords against them. -/
structure PasswordHash where
  hash : String → String → Except String String
  verify : String → String → Except String Bool

/-- `settings` holds the JSON text of each value. -/
structure User where
  id : String
  username : String
  email : String
  passwordHash : String
  createdAt : String
  updatedAt : ℕ
  lastLogin : Option ℕ
  apiKey : Option String
  roles : List String
  settings : List (String × String)
  subscriptionId : Option String
  role : Option UserRole
  wallets : List String
  active : Bool
  subscription : Option Subscription
deriving DecidableEq

/-- What a new user takes from outside: the clock, its text, two fresh ids, a salt. -/
structure Fresh where
  now : ℕ
  nowText : String
  id : String
  apiKey : String
  salt : String
deriving DecidableEq

namespace User

variable (bcrypt argon2 : PasswordHash)

def new (fresh : Fresh) (username email password : String) : Except String User :=
  match bcrypt.hash password fresh.salt with
  | .error e => .error e
  | .ok passwordHash => .ok {
      id := fresh.id
      username := username
      email := email
      passwordHash := passwordHash
      createdAt := fresh.nowText
      updatedAt := fresh.now
      lastLogin := none
      apiKey := some fresh.apiKey
      roles := ["user"]
      settings := []
      subscriptionId := none
      role := some .user
      wallets := []
      active := true
      subscription := some (Subscription.new fresh.now .free 365) }

def verifyPassword (u : User) (password : String) : Bool :=
  match bcrypt.verify password u.passwordHash with
  | .ok result => result
  | .error _ => false

def setPassword (u : User) (now : ℕ) (salt password : String) : Except String User :=
  match argon2.hash password salt with
  | .ok passwordHash => .ok { u with passwordHash := passwordHash, updatedAt := now }
  | .error _ => .error "Failed to hash password"

def updateLastLogin (u : User) (now : ℕ) : User := { u with lastLogin := some now }

def updateSubscription (u : User) (now pause : ℕ) (level : SubscriptionLevel)
    (durationDays : ℕ) : User :=
  { u with
    subscription := some (match u.subscription with
      | some subscription =>
        if subscription.isActive now then
          (subscription.extend (now+pause) durationDays).updateLevel level
        else Subscription.new (now+pause) level durationDays
      | none => Subscription.new (now+pause) level durationDays)
    updatedAt := now+pause }

def addWallet (u : User) (now : ℕ) (walletAddress : String) : User :=
  if walletAddress ∈ u.wallets then u
  else { u with wallets := u.wallets++[walletAddress], updatedAt := now }

def removeWallet (u : User) (now : ℕ) (walletAddress : String) : User :=
  { u with wallets := u.wallets.filter (· ≠ walletAddress), updatedAt := now }

end User

end DiamondBot.Common
