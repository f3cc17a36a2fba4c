import Mathlib.Logic.Function.Basic
import DiamondBot.Library.AtomicRun

/-!
# Tokens, logout and the authentication middleware

A logout puts the id of a token on the blacklist with the token's expiry; the
blacklist drops what has expired when an entry is added more than an hour after
the last cleanup. The middleware asks the blacklist about the text of the token.
-/

set_option autoImplicit false

namespace DiamondBot.Common.Auth

open Library

structure Claims where
  sub : String
  role : String
  walletIds : List String
  exp : ℕ
  nbf : ℕ
  iat : ℕ
  jti : String
deriving DecidableEq

inductive UserRole where
  | user
  | admin
  | system
deriving DecidableEq

def UserRole.text : UserRole → String
  | .admin => "admin"
  | .system => "system"
  | .user => "user"

structure Jsonwebtoken where
  encode : String → Claims → Except String String
  verify : String → String → Except String Claims

/-- `decode` with the default `Validation`: a token counts for a leeway of a minute
after its expiry. -/
def Jsonwebtoken.decode (jwt : Jsonwebtoken) (now : ℕ) (secret token : String) :
    Except String Claims :=
  match jwt.verify secret token with
  | .error e => .error e
  | .ok claims => if claims.exp+60 < now then .error "ExpiredSignature" else .ok claims

theorem Jsonwebtoken.decode_ok_iff {jwt : Jsonwebtoken} {now : ℕ} {secret token : String}
    {claims : Claims} : jwt.decode now secret token = .ok claims ↔
      jwt.verify secret token = .ok claims ∧ now ≤ claims.exp+60 := by
  unfold decode
  cases hverify : jwt.verify secret token with
  | error e => simp
  | ok read =>
    by_cases hlate : read.exp+60 < now
    · simp only [if_pos hlate]
      constructor
      · intro h
        simp at h
      · intro h
        cases h.1
        omega
    · simp only [if_neg hlate,Except.ok.injEq]
      constructor
      · intro h
        subst h
        exact ⟨rfl,by omega⟩
      · exact fun h => h.1

/-- `create_jwt_token`; `jti` is the fresh id. -/
def createJwtToken (jwt : Jsonwebtoken) (jwtSecret : String) (now : ℕ) (jti userId : String)
    (role : UserRole) (walletIds : List String) (durationHours : ℕ) : Except String String :=
  jwt.encode jwtSecret ⟨userId,role.text,walletIds,now+durationHours*3600,now,now,jti⟩

structure TokenBlacklist where
  blacklistedTokens : String → Option ℕ
  lastCleanup : ℕ

namespace TokenBlacklist

def new (now : ℕ) : TokenBlacklist := ⟨fun _ => none,now⟩

def isBlacklisted (b : TokenBlacklist) (jti : String) : Bool := (b.blacklistedTokens jti).isSome

def cleanup (b : TokenBlacklist) (now : ℕ) : TokenBlacklist :=
  { b with blacklistedTokens := fun jti => (b.blacklistedTokens jti).filter fun exp => exp > now }

/-- The cleanup reads the clock again, `pause` seconds later. -/
def addToken (b : TokenBlacklist) (now pause : ℕ) (jti : String) (exp : ℕ) : TokenBlacklist :=
  let b := { b with blacklistedTokens := Function.update b.blacklistedTokens jti (some exp) }
  if now-b.lastCleanup > 3600 then { b.cleanup (now+pause) with lastCleanup := now } else b

theorem addToken_listed {b : TokenBlacklist} {now pause exp : ℕ} {jti id : String}
    (h : (b.addToken now pause jti exp).isBlacklisted id = true) :
    id = jti ∨ b.isBlacklisted id = true := by
  by_cases hid : id = jti
  · exact Or.inl hid
  · right
    unfold addToken at h
    by_cases hdue : now-b.lastCleanup > 3600
    · simp only [hdue,if_true,isBlacklisted,cleanup,Function.update_of_ne hid] at h
      obtain ⟨exp',hexp⟩ := Option.isSome_iff_exists.mp h
      rw [isBlacklisted,(Option.filter_eq_some_iff.mp hexp).1]
      rfl
    · simpa only [hdue,if_false,isBlacklisted,Function.update_of_ne hid] using h

end TokenBlacklist

/-- The result of `logout`, and the blacklist after it. -/
def logout (jwt : Jsonwebtoken) (jwtSecret : String) (now pause : ℕ) (blacklist : TokenBlacklist)
    (token : String) : Except String Unit × TokenBlacklist :=
  match jwt.decode now jwtSecret token with
  | .ok claims => (.ok (),blacklist.addToken now pause claims.jti claims.exp)
  | .error e => (.error ("Token không hợp lệ: "++e),blacklist)

/-- The headers of a request; a value is `none` where it is not visible text. -/
structure Request where
  headers : String → Option (Option String)

def trim (s : List Char) : List Char :=
  ((s.dropWhile Char.isWhitespace).reverse.dropWhile Char.isWhitespace).reverse

def extractClientIp (request : Request) : Option String :=
  match (request.headers "X-Forwarded-For").join with
  | some s => some (String.ofList (trim (s.toList.takeWhile (· ≠ ','))))
  | none => (request.headers "X-Real-IP").join

inductive JWTAuthError where
  | invalidToken (message : String)
  | blacklistedToken
  | rateLimitExceeded
deriving DecidableEq

def stripBearer (headerValue : String) : Option String :=
  if "Bearer ".toList.isPrefixOf headerValue.toList then
    some (String.ofList (headerValue.toList.drop 7))
  else none

structure JWTAuthMiddleware where
  jwtSecret : String
  blacklistChecker : String → Bool
  rateLimitChecker : String → ℕ → Bool

/-- `into_middleware`: the claims the request goes on with, or the error. -/
def JWTAuthMiddleware.intoMiddleware (self : JWTAuthMiddleware) (jwt : Jsonwebtoken) (now : ℕ)
    (request : Request) : Except JWTAuthError Claims :=
  match request.headers "authorization" with
  | none => .error (.invalidToken "No authorization header")
  | some headerValue =>
    match stripBearer (headerValue.getD "") with
    | none => .error (.invalidToken "Invalid token format")
    | some token =>
      if self.blacklistChecker token then .error .blacklistedToken
      else if !self.rateLimitChecker
          ((extractClientIp request).getD "unknown"++":"++token) 100 then
        .error .rateLimitExceeded
      else match jwt.decode now self.jwtSecret token with
        | .ok claims => .ok claims
        | .error e => .error (.invalidToken ("Token invalid: "++e))

/-- The request carries the token. -/
def Request.Carries (request : Request) (token : String) : Prop :=
  ∃ headerValue, request.headers "authorization" = some headerValue ∧
    stripBearer (headerValue.getD "") = some token

/-- The middleware lets a token pass exactly when the checkers do and it decodes. -/
theorem intoMiddleware_ok_iff {self : JWTAuthMiddleware} {jwt : Jsonwebtoken} {now : ℕ}
    {request : Request} {token : String} (hcarries : request.Carries token) {claims : Claims} :
    self.intoMiddleware jwt now request = .ok claims ↔
      self.blacklistChecker token = false ∧
        self.rateLimitChecker ((extractClientIp request).getD "unknown"++":"++token) 100 = true ∧
        jwt.decode now self.jwtSecret token = .ok claims := by
  obtain ⟨headerValue,hheader,htoken⟩ := hcarries
  unfold JWTAuthMiddleware.intoMiddleware
  rw [hheader]
  simp only [htoken]
  cases self.blacklistChecker token with
  | true => simp
  | false =>
    cases self.rateLimitChecker ((extractClientIp request).getD "unknown"++":"++token) 100 with
    | false => simp
    | true =>
      cases jwt.decode now self.jwtSecret token with
      | error e => simp
      | ok read => simp

structure AuthSystem where
  now : ℕ
  issued : List String
  blacklist : TokenBlacklist

inductive AuthAction where
  | login (jti userId : String) (role : UserRole) (walletIds : List String) (durationHours : ℕ)
  | logout (token : String) (pause : ℕ)
  | wait (seconds : ℕ)

namespace AuthSystem

variable (jwt : Jsonwebtoken) (jwtSecret : String)

def start (now : ℕ) : AuthSystem := ⟨now,[],TokenBlacklist.new now⟩

def next (s : AuthSystem) : AuthAction → AuthSystem
  | .login jti userId role walletIds durationHours =>
    match createJwtToken jwt jwtSecret s.now jti userId role walletIds durationHours with
    | .ok token => { s with issued := s.issued++[token] }
    | .error _ => s
  | .logout token pause =>
    { s with
      now := s.now+pause
      blacklist := (Auth.logout jwt jwtSecret s.now pause s.blacklist token).2 }
  | .wait seconds => { s with now := s.now+seconds }

def middleware (s : AuthSystem) (secret : String) (rateLimitChecker : String → ℕ → Bool) :
    JWTAuthMiddleware := ⟨secret,s.blacklist.isBlacklisted,rateLimitChecker⟩

def Rejects (s : AuthSystem) (secret token : String) : Prop :=
  ∀ rateLimitChecker request claims, Request.Carries request token →
    (s.middleware secret rateLimitChecker).intoMiddleware jwt s.now request ≠ .ok claims

variable {jwt jwtSecret}

/-- Only logouts put ids on the blacklist, each the id of its own token. -/
theorem next_listed {s : AuthSystem} {a : AuthAction} {id : String}
    (h : (s.next jwt jwtSecret a).blacklist.isBlacklisted id = true) :
    (∃ token pause claims, a = .logout token pause ∧
      jwt.verify jwtSecret token = .ok claims ∧ claims.jti = id) ∨
        s.blacklist.isBlacklisted id = true := by
  cases a with
  | login jti userId role walletIds durationHours =>
    right
    simp only [next] at h
    split at h
    · exact h
    · exact h
  | logout token pause =>
    simp only [next,Auth.logout] at h
    cases hdecode : jwt.decode s.now jwtSecret token with
    | error e =>
      rw [hdecode] at h
      exact Or.inr h
    | ok claims =>
      rw [hdecode] at h
      rcases TokenBlacklist.addToken_listed h with heq | hold
      · exact Or.inl ⟨token,pause,claims,rfl,
          (Jsonwebtoken.decode_ok_iff.mp hdecode).1,heq.symm⟩
      · exact Or.inr hold
  | wait seconds => exact Or.inr h

theorem run_listed (now : ℕ) (actions : List AuthAction) (id : String) :
    (AtomicRun.run (next jwt jwtSecret) actions (start now)).blacklist.isBlacklisted id = true →
      ∃ token pause claims, .logout token pause ∈ actions ∧
        jwt.verify jwtSecret token = .ok claims ∧ claims.jti = id := by
  refine AtomicRun.run_trace (I := fun actions (s : AuthSystem) => s.blacklist.isBlacklisted id = true →
    ∃ token pause claims, AuthAction.logout token pause ∈ actions ∧
      jwt.verify jwtSecret token = .ok claims ∧ claims.jti = id) ?_ ?_ actions
  · intro h
    simp [start,TokenBlacklist.new,TokenBlacklist.isBlacklisted] at h
  · intro actions a ih h
    rcases next_listed h with ⟨token,pause,claims,ha,hclaims⟩ | hold
    · exact ⟨token,pause,claims,by simp [ha],hclaims⟩
    · obtain ⟨token,pause,claims,hmem,hclaims⟩ := ih hold
      exact ⟨token,pause,claims,List.mem_append_left _ hmem,hclaims⟩

def bearing (token : String) : Request :=
  ⟨fun name => if name = "authorization" then some (some ("Bearer "++token)) else none⟩

theorem bearing_carries (token : String) : (bearing token).Carries token := by
  refine ⟨some ("Bearer "++token),rfl,?_⟩
  simp [stripBearer]

/-- A token is refused exactly when it does not decode or its text is listed. -/
theorem rejects_iff (s : AuthSystem) (secret token : String) : s.Rejects jwt secret token ↔
    s.blacklist.isBlacklisted token = true ∨
      ∀ claims, jwt.decode s.now secret token ≠ .ok claims := by
  constructor
  · intro h
    by_cases hlisted : s.blacklist.isBlacklisted token = true
    · exact Or.inl hlisted
    · right
      intro claims hdecode
      have hok : (s.middleware secret fun _ _ => true).intoMiddleware jwt s.now
          (bearing token) = .ok claims :=
        (intoMiddleware_ok_iff (bearing_carries token)).mpr
          ⟨Bool.not_eq_true _ ▸ hlisted,rfl,hdecode⟩
      exact h _ _ claims (bearing_carries token) hok
  · intro h rateLimitChecker request claims hcarries hok
    obtain ⟨hunlisted,_,hdecode⟩ := (intoMiddleware_ok_iff hcarries).mp hok
    rcases h with hlisted | hfails
    · exact absurd (hlisted.symm.trans hunlisted) (by decide)
    · exact hfails claims hdecode

/-- After the logout of a token that the middleware accepted, at whatever later time
and whatever happened in between, the token is refused exactly when it is more
than a minute past its expiry or its own text is an id on the blacklist. -/
theorem rejected_after_logout_iff {now pause : ℕ} {before after : List AuthAction}
    {secret token : String} {claims : Claims} {rateLimitChecker : String → ℕ → Bool}
    {request : Request} (hcarries : request.Carries token)
    (haccepted : ((AtomicRun.run (next jwt jwtSecret) before (start now)).middleware secret
        rateLimitChecker).intoMiddleware jwt
      (AtomicRun.run (next jwt jwtSecret) before (start now)).now request = .ok claims) :
    let later := AtomicRun.run (next jwt jwtSecret) (before++.logout token pause::after) (start now)
    later.Rejects jwt secret token ↔
      claims.exp+60 < later.now ∨ later.blacklist.isBlacklisted token = true := by
  intro later
  have hverify := (Jsonwebtoken.decode_ok_iff.mp
    ((intoMiddleware_ok_iff hcarries).mp haccepted).2.2).1
  change jwt.verify secret token = .ok claims at hverify
  rw [rejects_iff,or_comm]
  apply or_congr_left
  constructor
  · intro hfails
    by_contra hearly
    exact hfails claims (Jsonwebtoken.decode_ok_iff.mpr ⟨hverify,Nat.le_of_not_lt hearly⟩)
  · intro hlate read hdecode
    obtain ⟨hread,hearly⟩ := Jsonwebtoken.decode_ok_iff.mp hdecode
    rw [hverify] at hread
    cases hread
    omega

def anHour : Claims := ⟨"user1","user",[],4600,1000,1000,"2f1c"⟩

def oneToken : Jsonwebtoken where
  encode _ claims := if claims = anHour then .ok "eyJh.eyJz.c2ln" else .error "InvalidKeyFormat"
  verify _ token := if token = "eyJh.eyJz.c2ln" then .ok anHour else .error "InvalidToken"

theorem rejected_after_logout_iff_expired :
    let later := AtomicRun.run (next oneToken "secret")
      ([.login "2f1c" "user1" .user [] 1]++.logout "eyJh.eyJz.c2ln" 0::[.wait 3661]) (start 1000)
    later.Rejects oneToken "secret" "eyJh.eyJz.c2ln" ↔
      anHour.exp+60 < later.now ∨ later.blacklist.isBlacklisted "eyJh.eyJz.c2ln" = true := by
  have haccepted : ((AtomicRun.run (next oneToken "secret") [.login "2f1c" "user1" .user [] 1]
      (start 1000)).middleware "secret" fun _ _ => true).intoMiddleware oneToken
      (AtomicRun.run (next oneToken "secret") [.login "2f1c" "user1" .user [] 1] (start 1000)).now
      (bearing "eyJh.eyJz.c2ln") = .ok anHour := by decide
  exact rejected_after_logout_iff (bearing_carries "eyJh.eyJz.c2ln") haccepted

/-- A token that was just logged out is accepted ten seconds later. -/
theorem accepted_after_logout :
    let s := AtomicRun.run (next oneToken "secret") [.login "2f1c" "user1" .user [] 1] (start 1000)
    let later := AtomicRun.run (next oneToken "secret")
      [.logout "eyJh.eyJz.c2ln" 0,.wait 10] s
    s.issued = ["eyJh.eyJz.c2ln"] ∧
      (Auth.logout oneToken "secret" s.now 0 s.blacklist "eyJh.eyJz.c2ln").1 = .ok () ∧
      later.blacklist.isBlacklisted "2f1c" = true ∧
      ¬ later.Rejects oneToken "secret" "eyJh.eyJz.c2ln" := by
  refine ⟨by decide,by decide,by decide,?_⟩
  intro h
  exact h (fun _ _ => true) (bearing "eyJh.eyJz.c2ln") anHour
    (bearing_carries "eyJh.eyJz.c2ln") (by decide)

end AuthSystem

end DiamondBot.Common.Auth
