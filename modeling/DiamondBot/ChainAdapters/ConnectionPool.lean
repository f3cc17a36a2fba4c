import DiamondBot.ChainAdapters.EndpointInfo
import DiamondBot.Library.Checked
import DiamondBot.Library.RotatingSearch

/-!
# The connection pool

A pool keeps a list of primary and a list of backup endpoints, each with the
index its next search starts at. Asking for a provider goes round the primary
endpoints, then round the backup endpoints, and takes the first that is not
down and whose semaphore gives a permit before the timeout. Whether it does is
told by the environment, for each endpoint at the moment it is asked.
-/

set_option autoImplicit false

namespace DiamondBot
open Library RotatingSearch

variable {P : Type}

structure PooledEndpoint (P : Type) where
  info : EndpointInfo
  provider : P
  lastUsed : ℕ

structure RPCConnectionPool (P : Type) where
  primaryEndpoints : List (PooledEndpoint P)
  backupEndpoints : List (PooledEndpoint P)
  nextPrimaryIndex : ℕ
  nextBackupIndex : ℕ
  maxConnections : ℕ

structure ProviderGuard (P : Type) where
  provider : P
  endpointInfo : EndpointInfo

/-- By index, whether the semaphore gives a permit before the timeout. -/
structure Permits where
  primary : ℕ → Bool
  backup : ℕ → Bool

structure Lookup (P : Type) where
  result : Except String (ProviderGuard P)
  pool : RPCConnectionPool P
  primarySeen : List ℕ
  backupSeen : List ℕ

namespace RPCConnectionPool

/-- `none` when the URL names no provider or it does not answer in time. -/
def createEndpoint (answer : Option P) (url : String) (priority : UInt32)
    (maxConcurrent now : ℕ) : Option (PooledEndpoint P) :=
  answer.map fun provider =>
    { info := EndpointInfo.new url priority maxConcurrent, provider, lastUsed := now }

/-- The endpoints of the URLs that answer, with priorities from `base` on. -/
def createEndpoints (base maxConcurrent now : ℕ) (urls : List (String × Option P)) :
    List (PooledEndpoint P) :=
  urls.zipIdx.filterMap fun ((url,answer),i) =>
    createEndpoint answer url (UInt32.ofNat (i+base)) maxConcurrent now

def new (primaryUrls backupUrls : List (String × Option P)) (maxConnections now : ℕ) :
    Except String (RPCConnectionPool P) :=
  let primaryEndpoints := createEndpoints 0 maxConnections now primaryUrls
  if primaryEndpoints = [] then .error "No valid primary RPC endpoints available"
  else .ok
    { primaryEndpoints
      backupEndpoints := createEndpoints 100 maxConnections now backupUrls
      nextPrimaryIndex := 0
      nextBackupIndex := 0
      maxConnections }

def tryEndpoints (endpoints : List (PooledEndpoint P)) (permit : ℕ → Bool) :
    ℕ → ℕ → Except String Search
  | 0, index => .ok ⟨none,index,[]⟩
  | turns+1, index => do
    let next ← Checked.rem (index+1) endpoints.length
    let endpoint ← Checked.expect endpoints[index]? "index out of bounds"
    if endpoint.info.isAvailable && permit index then
      .ok ⟨some index,next,[index]⟩
    else do
      let rest ← tryEndpoints endpoints permit turns next
      .ok ⟨rest.found,rest.next,index::rest.seen⟩

def tryList (endpoints : List (PooledEndpoint P)) (permit : ℕ → Bool) (index : ℕ) :
    Except String Search :=
  if endpoints.isEmpty then .ok ⟨none,index,[]⟩
  else tryEndpoints endpoints permit endpoints.length index

def guardOf (endpoint : PooledEndpoint P) : ProviderGuard P :=
  ⟨endpoint.provider,endpoint.info⟩

/-- The error of the outer result is a panic. -/
def getProvider (pool : RPCConnectionPool P) (permits : Permits) (now : ℕ) :
    Except String (Lookup P) := do
  let primary ← tryList pool.primaryEndpoints permits.primary pool.nextPrimaryIndex
  let pool := { pool with nextPrimaryIndex := primary.next }
  match primary.found with
  | some index =>
    let endpoint ← Checked.expect pool.primaryEndpoints[index]? "index out of bounds"
    let used := { endpoint with lastUsed := now }
    let pool := { pool with primaryEndpoints := pool.primaryEndpoints.set index used }
    .ok ⟨.ok (guardOf used),pool,primary.seen,[]⟩
  | none =>
    let backup ← tryList pool.backupEndpoints permits.backup pool.nextBackupIndex
    let pool := { pool with nextBackupIndex := backup.next }
    match backup.found with
    | some index =>
      let endpoint ← Checked.expect pool.backupEndpoints[index]? "index out of bounds"
      let used := { endpoint with lastUsed := now }
      let pool := { pool with backupEndpoints := pool.backupEndpoints.set index used }
      .ok ⟨.ok (guardOf used),pool,primary.seen,backup.seen⟩
    | none =>
      .ok ⟨.error "No available RPC endpoints",pool,primary.seen,backup.seen⟩

def addEndpoint (pool : RPCConnectionPool P) (url : String) (isPrimary : Bool)
    (answer : Option P) (now : ℕ) : Except String (RPCConnectionPool P) := do
  Checked.require (∀ endpoint ∈ pool.primaryEndpoints, endpoint.info.url ≠ url)
    ("Endpoint already exists: "++url)
  Checked.require (∀ endpoint ∈ pool.backupEndpoints, endpoint.info.url ≠ url)
    ("Endpoint already exists: "++url)
  let priority := if isPrimary then UInt32.ofNat pool.primaryEndpoints.length
    else UInt32.ofNat (pool.backupEndpoints.length+100)
  let newEndpoint ← Checked.expect (createEndpoint answer url priority pool.maxConnections now)
    ("Provider not responding for URL: "++url)
  if isPrimary then
    .ok { pool with primaryEndpoints := pool.primaryEndpoints++[newEndpoint] }
  else
    .ok { pool with backupEndpoints := pool.backupEndpoints++[newEndpoint] }

def recordFirst (url : String) (record : EndpointInfo → EndpointInfo) :
    List (PooledEndpoint P) → Option (List (PooledEndpoint P))
  | [] => none
  | endpoint::rest =>
    if endpoint.info.url = url then some ({ endpoint with info := record endpoint.info }::rest)
    else (recordFirst url record rest).map (endpoint::·)

def recordFor (pool : RPCConnectionPool P) (url : String)
    (record : EndpointInfo → EndpointInfo) : RPCConnectionPool P :=
  match recordFirst url record pool.primaryEndpoints with
  | some primaryEndpoints => { pool with primaryEndpoints }
  | none =>
    match recordFirst url record pool.backupEndpoints with
    | some backupEndpoints => { pool with backupEndpoints }
    | none => pool

def recordSuccess (pool : RPCConnectionPool P) (url : String) (latencyMs : Float)
    (now : UInt64) : RPCConnectionPool P :=
  pool.recordFor url fun info => info.recordSuccess latencyMs now

def recordError (pool : RPCConnectionPool P) (url : String) (now : UInt64) :
    RPCConnectionPool P :=
  pool.recordFor url fun info => info.recordError now

/-- `latency` is that of an endpoint that answered the check. -/
def healthCheckEndpoint (latency : Option Float) (now : UInt64) (endpoint : PooledEndpoint P) :
    PooledEndpoint P :=
  match latency with
  | some latencyMs => { endpoint with info := endpoint.info.recordSuccess latencyMs now }
  | none => { endpoint with info := endpoint.info.recordError now }

def healthCheckAll (pool : RPCConnectionPool P) (primary backup : ℕ → Option Float)
    (now : UInt64) : RPCConnectionPool P :=
  { pool with
    primaryEndpoints := pool.primaryEndpoints.mapIdx fun i => healthCheckEndpoint (primary i) now
    backupEndpoints := pool.backupEndpoints.mapIdx fun i => healthCheckEndpoint (backup i) now }

inductive Action (P : Type)
  | getProvider (permits : Permits) (now : ℕ)
  | addEndpoint (url : String) (isPrimary : Bool) (answer : Option P) (now : ℕ)
  | recordSuccess (url : String) (latencyMs : Float) (now : UInt64)
  | recordError (url : String) (now : UInt64)
  | healthCheckAll (primary backup : ℕ → Option Float) (now : UInt64)

def step (pool : RPCConnectionPool P) : Action P → Except String (RPCConnectionPool P)
  | .getProvider permits now => (pool.getProvider permits now).map (·.pool)
  | .addEndpoint url isPrimary answer now => pool.addEndpoint url isPrimary answer now
  | .recordSuccess url latencyMs now => .ok (pool.recordSuccess url latencyMs now)
  | .recordError url now => .ok (pool.recordError url now)
  | .healthCheckAll primary backup now => .ok (pool.healthCheckAll primary backup now)

def next : RPCConnectionPool P → Action P → RPCConnectionPool P := AtomicRun.settle step

/-- Each index points into its list; that of an empty list is zero. -/
structure InRange (pool : RPCConnectionPool P) : Prop where
  primary : pool.nextPrimaryIndex = 0 ∨ pool.nextPrimaryIndex < pool.primaryEndpoints.length
  backup : pool.nextBackupIndex = 0 ∨ pool.nextBackupIndex < pool.backupEndpoints.length

def Qualifies (endpoints : List (PooledEndpoint P)) (permit : ℕ → Bool)
    (endpoint : PooledEndpoint P) : Prop :=
  ∃ i, endpoints[i]? = some endpoint ∧ endpoint.info.isAvailable = true ∧ permit i = true

/-- No list is looked at twice at one index, and no index is outside its list. -/
structure LooksOnce (pool : RPCConnectionPool P) (lookup : Lookup P) : Prop where
  primary : lookup.primarySeen.Nodup
  primaryInList : ∀ i ∈ lookup.primarySeen, i < pool.primaryEndpoints.length
  backup : lookup.backupSeen.Nodup
  backupInList : ∀ i ∈ lookup.backupSeen, i < pool.backupEndpoints.length

/-- What is asked of the choice of a provider. -/
structure Selects (pool : RPCConnectionPool P) (permits : Permits)
    (result : Except String (ProviderGuard P)) : Prop where
  primary : (∃ e, Qualifies pool.primaryEndpoints permits.primary e) →
    ∃ e, Qualifies pool.primaryEndpoints permits.primary e ∧ result = .ok (guardOf e)
  backup : (¬∃ e, Qualifies pool.primaryEndpoints permits.primary e) →
    (∃ e, Qualifies pool.backupEndpoints permits.backup e) →
    ∃ e, Qualifies pool.backupEndpoints permits.backup e ∧ result = .ok (guardOf e)
  error : ∀ e, result = .error e →
    (¬∃ e, Qualifies pool.primaryEndpoints permits.primary e) ∧
      ¬∃ e, Qualifies pool.backupEndpoints permits.backup e

/-! ## One list -/

variable {endpoints : List (PooledEndpoint P)} {permit : ℕ → Bool}

def usable (endpoints : List (PooledEndpoint P)) (permit : ℕ → Bool) (i : ℕ) : Bool :=
  endpoints[i]?.any (·.info.isAvailable) && permit i

theorem qualifies_iff : (∃ e, Qualifies endpoints permit e) ↔
    ∃ i < endpoints.length, usable endpoints permit i = true := by
  constructor
  · rintro ⟨e,i,he,havailable,hpermit⟩
    have hi : i < endpoints.length := (List.getElem?_eq_some_iff.mp he).1
    exact ⟨i,hi,by simp [usable,he,havailable,hpermit]⟩
  · rintro ⟨i,hi,husable⟩
    have he : endpoints[i]? = some endpoints[i] := List.getElem?_eq_getElem hi
    rw [usable,he,Option.any_some,Bool.and_eq_true] at husable
    exact ⟨endpoints[i],i,he,husable⟩

theorem tryEndpoints_eq (turns : ℕ) {index : ℕ} (h : index < endpoints.length) :
    tryEndpoints endpoints permit turns index =
      .ok (search endpoints.length (usable endpoints permit) turns index) := by
  induction turns generalizing index with
  | zero => rfl
  | succ turns ih =>
    have hpos : endpoints.length ≠ 0 := by omega
    have hrem : Checked.rem (index+1) endpoints.length = .ok ((index+1)%endpoints.length) :=
      Checked.rem_ok.mpr ⟨hpos,rfl⟩
    have he : endpoints[index]? = some endpoints[index] := List.getElem?_eq_getElem h
    have husable : usable endpoints permit index =
        (endpoints[index].info.isAvailable && permit index) := by
      rw [usable,he,Option.any_some]
    simp only [tryEndpoints,search,hrem,he,Checked.expect,husable,bind,Except.bind]
    split
    · rfl
    · rw [ih (Nat.mod_lt _ (by omega))]

structure Searched (endpoints : List (PooledEndpoint P)) (permit : ℕ → Bool) (s : Search) :
    Prop where
  found : ∀ i, s.found = some i → ∃ e, endpoints[i]? = some e ∧ Qualifies endpoints permit e
  missed : s.found = none → ¬∃ e, Qualifies endpoints permit e
  next : s.next = 0 ∨ s.next < endpoints.length
  nodup : s.seen.Nodup
  inList : ∀ i ∈ s.seen, i < endpoints.length

theorem tryList_searched (permit : ℕ → Bool) {index : ℕ} (h : index = 0 ∨ index < endpoints.length) :
    ∃ s, tryList endpoints permit index = .ok s ∧ Searched endpoints permit s := by
  cases endpoints with
  | nil =>
    refine ⟨⟨none,index,[]⟩,rfl,fun _ hfound => (nomatch hfound),fun _ => ?_,h,List.nodup_nil,
      fun _ hi => (nomatch hi)⟩
    rintro ⟨_,_,he,_⟩
    cases he
  | cons e rest =>
    have hindex : index < (e::rest).length := by
      rcases h with rfl | h
      · exact Nat.succ_pos _
      · exact h
    refine ⟨search (e::rest).length (usable (e::rest) permit) (e::rest).length index,
      tryEndpoints_eq _ hindex,?_,?_,Or.inr (search_next hindex),seen_nodup hindex,
      seen_lt hindex⟩
    · intro i hfound
      obtain ⟨hi,husable⟩ := found_some hindex hfound
      have hget : (e::rest)[i]? = some (e::rest)[i] := List.getElem?_eq_getElem hi
      rw [usable,hget,Option.any_some,Bool.and_eq_true] at husable
      exact ⟨(e::rest)[i],hget,i,hget,husable⟩
    · intro hfound hq
      obtain ⟨i,hi,husable⟩ := qualifies_iff.mp hq
      rw [found_none hindex hfound i hi] at husable
      cases husable

/-! ## Both lists -/

theorem getProvider_spec {pool : RPCConnectionPool P} (h : pool.InRange) (permits : Permits)
    (now : ℕ) : ∃ lookup, pool.getProvider permits now = .ok lookup ∧
      pool.Selects permits lookup.result ∧ pool.LooksOnce lookup ∧ lookup.pool.InRange := by
  obtain ⟨primary,hprimary,hsearched⟩ := tryList_searched permits.primary h.primary
  obtain ⟨backup,hbackup,hbackups⟩ := tryList_searched permits.backup h.backup
  simp only [getProvider,hprimary,bind,Except.bind]
  cases hfound : primary.found with
  | some i =>
    obtain ⟨e,he,hq⟩ := hsearched.found i hfound
    simp only [he,Checked.expect]
    refine ⟨_,rfl,⟨fun _ => ⟨e,hq,rfl⟩,fun hno => absurd ⟨e,hq⟩ hno,fun _ herr => by cases herr⟩,
      ⟨hsearched.nodup,hsearched.inList,List.nodup_nil,fun _ hi => absurd hi List.not_mem_nil⟩,?_,
      h.backup⟩
    simpa using hsearched.next
  | none =>
    have hno := hsearched.missed hfound
    simp only [hbackup]
    cases hfound' : backup.found with
    | some i =>
      obtain ⟨e,he,hq⟩ := hbackups.found i hfound'
      simp only [he,Checked.expect]
      refine ⟨_,rfl,⟨fun hyes => absurd hyes hno,fun _ _ => ⟨e,hq,rfl⟩,
        fun _ herr => by cases herr⟩,
        ⟨hsearched.nodup,hsearched.inList,hbackups.nodup,hbackups.inList⟩,hsearched.next,?_⟩
      simpa using hbackups.next
    | none =>
      have hno' := hbackups.missed hfound'
      exact ⟨_,rfl,⟨fun hyes => absurd hyes hno,fun _ hyes => absurd hyes hno',
        fun _ _ => ⟨hno,hno'⟩⟩,
        ⟨hsearched.nodup,hsearched.inList,hbackups.nodup,hbackups.inList⟩,hsearched.next,
        hbackups.next⟩

theorem new_inRange {primaryUrls backupUrls : List (String × Option P)} {maxConnections now : ℕ}
    {pool : RPCConnectionPool P}
    (h : new primaryUrls backupUrls maxConnections now = .ok pool) : pool.InRange := by
  dsimp only [new] at h
  split at h <;> cases h
  exact ⟨Or.inl rfl,Or.inl rfl⟩

theorem recordFirst_length {url : String} {record : EndpointInfo → EndpointInfo}
    {endpoints endpoints' : List (PooledEndpoint P)}
    (h : recordFirst url record endpoints = some endpoints') :
    endpoints'.length = endpoints.length := by
  induction endpoints generalizing endpoints' with
  | nil => cases h
  | cons e rest ih =>
    unfold recordFirst at h
    split at h
    · cases h
      rfl
    · obtain ⟨rest',hrest,rfl⟩ := Option.map_eq_some_iff.mp h
      rw [List.length_cons,ih hrest,List.length_cons]

theorem recordFor_inRange {pool : RPCConnectionPool P} (h : pool.InRange) (url : String)
    (record : EndpointInfo → EndpointInfo) : (pool.recordFor url record).InRange := by
  unfold recordFor
  split
  next hfirst => exact ⟨by rw [recordFirst_length hfirst]; exact h.primary,h.backup⟩
  next =>
    split
    next hfirst => exact ⟨h.primary,by rw [recordFirst_length hfirst]; exact h.backup⟩
    next => exact h

theorem addEndpoint_inRange {pool pool' : RPCConnectionPool P} (h : pool.InRange) {url : String}
    {isPrimary : Bool} {answer : Option P} {now : ℕ}
    (hadd : pool.addEndpoint url isPrimary answer now = .ok pool') : pool'.InRange := by
  obtain ⟨_,_,hadd⟩ := Checked.bind_ok.mp hadd
  obtain ⟨_,_,hadd⟩ := Checked.bind_ok.mp hadd
  obtain ⟨e,_,hadd⟩ := Checked.bind_ok.mp hadd
  cases isPrimary with
  | true =>
    cases hadd
    refine ⟨h.primary.imp_right fun hlt => ?_,h.backup⟩
    rw [List.length_append]
    exact Nat.lt_add_right _ hlt
  | false =>
    cases hadd
    refine ⟨h.primary,h.backup.imp_right fun hlt => ?_⟩
    rw [List.length_append]
    exact Nat.lt_add_right _ hlt

theorem step_inRange {pool pool' : RPCConnectionPool P} {action : Action P} (h : pool.InRange)
    (hstep : pool.step action = .ok pool') : pool'.InRange := by
  cases action with
  | getProvider permits now =>
    obtain ⟨lookup,hlookup,_,_,hrange⟩ := getProvider_spec h permits now
    rw [step,hlookup] at hstep
    cases hstep
    exact hrange
  | addEndpoint url isPrimary answer now => exact addEndpoint_inRange h hstep
  | recordSuccess url latencyMs now =>
    cases hstep
    exact recordFor_inRange h url _
  | recordError url now =>
    cases hstep
    exact recordFor_inRange h url _
  | healthCheckAll primary backup now =>
    cases hstep
    refine ⟨?_,?_⟩
    · simpa [healthCheckAll] using h.primary
    · simpa [healthCheckAll] using h.backup

/-- A pool keeps its indices in their lists through every run, and with its
indices anywhere in them a request for a provider ends without a panic, takes a
primary endpoint whenever one qualifies, else a backup endpoint whenever one
does, and looks at no endpoint of a list twice. -/
theorem getProvider_selects :
    (∀ (primaryUrls backupUrls : List (String × Option P)) (maxConnections now : ℕ)
        (pool : RPCConnectionPool P) (actions : List (Action P)),
      new primaryUrls backupUrls maxConnections now = .ok pool →
        (AtomicRun.run next actions pool).InRange) ∧
    ∀ (pool : RPCConnectionPool P) (permits : Permits) (now : ℕ), pool.InRange →
      ∃ lookup, pool.getProvider permits now = .ok lookup ∧
        pool.Selects permits lookup.result ∧ pool.LooksOnce lookup ∧ lookup.pool.InRange := by
  refine ⟨fun _ _ _ _ pool actions hnew => ?_,fun pool permits now h =>
    getProvider_spec h permits now⟩
  refine AtomicRun.run_invariant (fun pool action h => ?_) (new_inRange hnew) actions
  exact AtomicRun.settle_preserves h fun _ hstep => step_inRange h hstep

def halfDown : RPCConnectionPool ℕ where
  primaryEndpoints := [⟨EndpointInfo.new "https://one" 0 10,1,0⟩,
    ⟨{ EndpointInfo.new "https://two" 1 10 with status := .down },2,0⟩]
  backupEndpoints := [⟨EndpointInfo.new "https://three" 100 10,3,0⟩]
  nextPrimaryIndex := 1
  nextBackupIndex := 0
  maxConnections := 10

example : (halfDown.getProvider ⟨fun i => i = 0,fun _ => true⟩ 5).map
    (fun lookup => (lookup.primarySeen,lookup.result.map (·.provider))) = .ok ([1,0],.ok 1) := rfl

theorem halfDown_selects :
    (AtomicRun.run next [.recordError "https://one" 7]
      (⟨[⟨EndpointInfo.new "https://one" 0 10,1,0⟩],[],0,0,10⟩ : RPCConnectionPool ℕ)).InRange ∧
    ∃ lookup, halfDown.getProvider ⟨fun i => i = 0,fun _ => true⟩ 5 = .ok lookup ∧
      halfDown.Selects ⟨fun i => i = 0,fun _ => true⟩ lookup.result ∧
      halfDown.LooksOnce lookup ∧ lookup.pool.InRange :=
  ⟨getProvider_selects.1 [("https://one",some 1)] [] 10 0 _ _ rfl,
    getProvider_selects.2 halfDown _ 5 ⟨Or.inr (by decide),Or.inl rfl⟩⟩

end RPCConnectionPool

end DiamondBot
