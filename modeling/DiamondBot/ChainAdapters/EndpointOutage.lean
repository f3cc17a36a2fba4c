import DiamondBot.ChainAdapters.ConnectionPool
import DiamondBot.Library.Projection

/-!
# Outages of the endpoints of a pool

The status of an endpoint is moved by the requests made through the pool and by
its health checks. Only a failure marks an endpoint down, and only a failure
takes it out again: a success lifts a degraded endpoint and no other. With all
endpoints down no request reaches one, so nothing but a health check that fails
can end an outage.
-/

set_option autoImplicit false

namespace DiamondBot
open Library Library.AtomicRun Library.Projection

namespace EndpointInfo

def prescribed (records : List Record) : EndpointStatus :=
  statusFor (errors records/records.length)

/-- A failure left the share of failures of a dead endpoint, and no failure since
left that of a degraded one. -/
def LeftDown (records : List Record) : Prop :=
  ∃ before now after, records = before++.error now::after ∧
    prescribed (before++[.error now]) = .down ∧
    ∀ later now' rest, after = later++.error now'::rest →
      prescribed (before++.error now::later++[.error now']) ≠ .degraded

theorem leftDown_success {records : List Record} {latencyMs : Float} {now : UInt64} :
    LeftDown (records++[.success latencyMs now]) ↔ LeftDown records := by
  constructor
  · rintro ⟨before,now',after,hsplit,hdown,hsince⟩
    rcases concat_split.mp hsplit with ⟨_,hlast,_⟩ | ⟨rest,rfl,rfl⟩
    · cases hlast
    · refine ⟨before,now',rest,rfl,hdown,?_⟩
      rintro later now'' rest' rfl
      exact hsince later now'' (rest'++[.success latencyMs now]) (by simp)
  · rintro ⟨before,now',after,rfl,hdown,hsince⟩
    refine ⟨before,now',after++[.success latencyMs now],by simp,hdown,?_⟩
    intro later now'' rest hsplit
    rcases concat_split.mp hsplit with ⟨_,hlast,_⟩ | ⟨rest',rfl,rfl⟩
    · cases hlast
    · exact hsince later now'' rest' rfl

/-- A failure decides when it leaves more than a tenth of the requests failing. -/
theorem leftDown_error {records : List Record} {now : UInt64} :
    LeftDown (records++[.error now]) ↔ prescribed (records++[.error now]) = .down ∨
      prescribed (records++[.error now]) ≠ .degraded ∧ LeftDown records := by
  constructor
  · rintro ⟨before,now',after,hsplit,hdown,hsince⟩
    rcases concat_split.mp hsplit with ⟨rfl,hlast,_⟩ | ⟨rest,rfl,rfl⟩
    · rw [hlast]
      exact Or.inl hdown
    · right
      refine ⟨hsince rest now [] (by simp),before,now',rest,rfl,hdown,?_⟩
      rintro later now'' rest' rfl
      exact hsince later now'' (rest'++[.error now]) (by simp)
  · rintro (hdown | ⟨hnot,before,now',after,rfl,hdown,hsince⟩)
    · refine ⟨records,now,[],rfl,hdown,?_⟩
      intro later now' rest hsplit
      cases later <;> cases hsplit
    · refine ⟨before,now',after++[.error now],by simp,hdown,?_⟩
      intro later now'' rest hsplit
      rcases concat_split.mp hsplit with ⟨rfl,hlast,_⟩ | ⟨rest',rfl,rfl⟩
      · rw [← hlast]
        exact hnot
      · exact hsince later now'' rest' rfl

theorem run_error_status {url : String} {priority : UInt32} {concurrentLimit : ℕ}
    {records : List Record} (h : records.length < 2^52) (now : UInt64) :
    (run next (records++[.error now]) (new url priority concurrentLimit)).status =
      if prescribed (records++[.error now]) = .healthy then
        (run next records (new url priority concurrentLimit)).status
      else prescribed (records++[.error now]) := by
  obtain ⟨he,hs⟩ := run_counts url priority concurrentLimit records (by omega)
  have hle := errors_le records
  rw [run_append,prescribed,statusFor_eq (errors_le _),errors_append,List.length_append,
    List.length_singleton]
  generalize run next records (new url priority concurrentLimit) = info at he hs
  have he' : (info.errorCount+1).toNat = info.errorCount.toNat+1 := toNat_succ (by omega)
  have htotal : (info.successCount+(info.errorCount+1)).toNat = records.length+1 := by
    rw [toNat_total (by omega)]
    omega
  change (info.recordError now).status = _
  simp only [recordError,rate_gt_half (e := info.errorCount+1)
    (n := info.successCount+(info.errorCount+1)) (by omega) (by omega) (by omega),
    rate_gt_tenth (e := info.errorCount+1)
    (n := info.successCount+(info.errorCount+1)) (by omega) (by omega) (by omega),he',htotal,
    he,Record.isError,if_true]
  split
  · rfl
  · split <;> rfl

theorem success_status_down {info : EndpointInfo} (latencyMs : Float) (now : UInt64) :
    (info.recordSuccess latencyMs now).status = .down ↔ info.status = .down := by
  change (if info.status = .degraded ∧ _ then EndpointStatus.healthy else info.status) = .down ↔ _
  split
  next h => rw [h.1]; exact iff_of_false (fun h => nomatch h) fun h => nomatch h
  next => exact Iff.rfl

theorem run_down_iff (url : String) (priority : UInt32) (concurrentLimit : ℕ)
    (records : List Record) (h : records.length ≤ 2^52) :
    (run next records (new url priority concurrentLimit)).status = .down ↔ LeftDown records := by
  induction records using List.reverseRecOn with
  | nil =>
    refine iff_of_false (fun h => nomatch h) ?_
    rintro ⟨before,now,after,hsplit,_⟩
    cases before <;> cases hsplit
  | append_singleton records record ih =>
    rw [List.length_append,List.length_singleton] at h
    have ih := ih (by omega)
    cases record with
    | success latencyMs now =>
      rw [run_append,leftDown_success,← ih]
      exact success_status_down latencyMs now
    | error now =>
      rw [run_error_status (by omega),leftDown_error,← ih]
      cases prescribed (records++[.error now]) <;> simp

/-- Of fifteen requests six failed, the last one a health check. It is that
failure which takes the endpoint out of an outage that ten successes left it in. -/
example : (run next (List.replicate 5 (.error 1)++List.replicate 9 (.success 2.0 3))
      (new "https://node" 0 10)).status = .down ∧
    (run next (List.replicate 5 (.error 1)++List.replicate 9 (.success 2.0 3)++[.error 4])
      (new "https://node" 0 10)).status = .degraded := ⟨rfl,rfl⟩

end EndpointInfo

namespace RPCConnectionPool

variable {P T : Type}

def endpoints (isPrimary : Bool) (pool : RPCConnectionPool P) : List (PooledEndpoint P) :=
  if isPrimary then pool.primaryEndpoints else pool.backupEndpoints

def infoAt (isPrimary : Bool) (i : ℕ) (pool : RPCConnectionPool P) : Option EndpointInfo :=
  (pool.endpoints isPrimary)[i]?.map (·.info)

def placeOf (pool : RPCConnectionPool P) (url : String) : Option (Bool × ℕ) :=
  match pool.primaryEndpoints.findIdx? fun e => e.info.url = url with
  | some i => some (true,i)
  | none => (pool.backupEndpoints.findIdx? fun e => e.info.url = url).map fun i => (false,i)

def checkRecord (latency : Option Float) (now : UInt64) : EndpointInfo.Record :=
  match latency with
  | some latencyMs => .success latencyMs now
  | none => .error now

def recordsAt (isPrimary : Bool) (i : ℕ) (pool : RPCConnectionPool P) :
    Action P → List EndpointInfo.Record
  | .getProvider _ _ => []
  | .addEndpoint _ _ _ _ => []
  | .recordSuccess url latencyMs now =>
    if pool.placeOf url = some (isPrimary,i) then [.success latencyMs now] else []
  | .recordError url now =>
    if pool.placeOf url = some (isPrimary,i) then [.error now] else []
  | .healthCheckAll primary backup now =>
    if i < (pool.endpoints isPrimary).length then
      [checkRecord (if isPrimary then primary i else backup i) now] else []

def Action.adds : Action P → Bool
  | .addEndpoint _ _ _ _ => true
  | _ => false

def history (isPrimary : Bool) (i : ℕ) (actions : List (Action P)) (pool : RPCConnectionPool P) :
    List EndpointInfo.Record :=
  given next (recordsAt isPrimary i) actions pool

/-- `answer` is what the operation gives with the provider it is handed, after
`latencyMs`. -/
def withProvider (pool : RPCConnectionPool P) (permits : Permits) (answer : P → Except String T)
    (latencyMs : Float) (now : ℕ) (seconds : UInt64) :
    Except String (Except String T × RPCConnectionPool P) := do
  let lookup ← pool.getProvider permits now
  match lookup.result with
  | .error e => .ok (.error e,lookup.pool)
  | .ok guard =>
    match answer guard.provider with
    | .ok value =>
      .ok (.ok value,lookup.pool.recordSuccess guard.endpointInfo.url latencyMs seconds)
    | .error e => .ok (.error e,lookup.pool.recordError guard.endpointInfo.url seconds)

inductive Call (P T : Type)
  | withProvider (permits : Permits) (answer : P → Except String T) (latencyMs : Float)
      (now : ℕ) (seconds : UInt64)
  | direct (action : Action P)

def stepCall (pool : RPCConnectionPool P) : Call P T → Except String (RPCConnectionPool P)
  | .withProvider permits answer latencyMs now seconds =>
    (pool.withProvider permits answer latencyMs now seconds).map (·.2)
  | .direct action => pool.step action

def nextCall : RPCConnectionPool P → Call P T → RPCConnectionPool P := settle stepCall

def AllDown (pool : RPCConnectionPool P) : Prop :=
  ∀ isPrimary i info, pool.infoAt isPrimary i = some info → info.status = .down

/-- The call reports no failure from outside, every endpoint it checks answers,
and it adds none. What an operation gives is left open. -/
def Call.Quiet : Call P T → Prop
  | .withProvider _ _ _ _ _ => True
  | .direct (.getProvider _ _) => True
  | .direct (.recordSuccess _ _ _) => True
  | .direct (.healthCheckAll primary backup _) =>
    ∀ i, (primary i).isSome = true ∧ (backup i).isSome = true
  | .direct (.recordError _ _) => False
  | .direct (.addEndpoint _ _ _ _) => False

/-- Whoever asks for a provider is told that there is none. -/
def Refused (pool : RPCConnectionPool P) : Call P T → Prop
  | .withProvider permits answer latencyMs now seconds =>
    ∃ pool', pool.withProvider permits answer latencyMs now seconds =
      .ok (.error "No available RPC endpoints",pool')
  | .direct (.getProvider permits now) =>
    ∃ lookup, pool.getProvider permits now = .ok lookup ∧
      lookup.result = .error "No available RPC endpoints"
  | .direct _ => True

/-! ## One action -/

variable {pool : RPCConnectionPool P} {isPrimary : Bool} {i : ℕ}

theorem recordFirst_eq (url : String) (record : EndpointInfo → EndpointInfo)
    (endpoints : List (PooledEndpoint P)) : recordFirst url record endpoints =
      (endpoints.findIdx? fun e => e.info.url = url).map fun i =>
        endpoints.modify i fun e => { e with info := record e.info } := by
  induction endpoints with
  | nil => rfl
  | cons e rest ih =>
    rw [recordFirst,List.findIdx?_cons,ih]
    by_cases hurl : e.info.url = url
    · simp [hurl]
    · simp [hurl,Function.comp_def]

theorem infoAt_modify (endpoints : List (PooledEndpoint P)) (record : EndpointInfo → EndpointInfo)
    (j : ℕ) : (endpoints.modify j fun e => { e with info := record e.info })[i]?.map (·.info) =
      if j = i then (endpoints[i]?.map (·.info)).map record else endpoints[i]?.map (·.info) := by
  rw [List.getElem?_modify]
  split <;> simp [Function.comp_def]

theorem recordFor_infoAt (url : String) (record : EndpointInfo → EndpointInfo) :
    (pool.recordFor url record).infoAt isPrimary i =
      if pool.placeOf url = some (isPrimary,i) then (pool.infoAt isPrimary i).map record
      else pool.infoAt isPrimary i := by
  unfold recordFor placeOf
  rw [recordFirst_eq,recordFirst_eq]
  cases pool.primaryEndpoints.findIdx? fun e => e.info.url = url with
  | some j => cases isPrimary <;> simp [infoAt,endpoints,infoAt_modify]
  | none =>
    cases pool.backupEndpoints.findIdx? fun e => e.info.url = url with
    | some j => cases isPrimary <;> simp [infoAt,endpoints,infoAt_modify]
    | none => simp

theorem placeOf_lt {url : String} (h : pool.placeOf url = some (isPrimary,i)) :
    i < (pool.endpoints isPrimary).length := by
  unfold placeOf at h
  split at h
  next j hfind =>
    cases h
    exact (List.findIdx?_eq_some_iff_getElem.mp hfind).1
  next =>
    obtain ⟨j,hfind,hj⟩ := Option.map_eq_some_iff.mp h
    cases hj
    exact (List.findIdx?_eq_some_iff_getElem.mp hfind).1

theorem recordsAt_absent (h : pool.infoAt isPrimary i = none) (action : Action P) :
    pool.recordsAt isPrimary i action = [] := by
  have hout : ¬i < (pool.endpoints isPrimary).length := by
    simpa [infoAt] using h
  cases action with
  | getProvider permits now => rfl
  | addEndpoint url isPrimary answer now => rfl
  | recordSuccess url latencyMs now => exact if_neg fun hplace => hout (placeOf_lt hplace)
  | recordError url now => exact if_neg fun hplace => hout (placeOf_lt hplace)
  | healthCheckAll primary backup now => exact if_neg hout

theorem set_infoAt {endpoints : List (PooledEndpoint P)} {e : PooledEndpoint P} {j : ℕ}
    (h : endpoints[j]? = some e) (now : ℕ) :
    (endpoints.set j { e with lastUsed := now })[i]?.map (·.info) = endpoints[i]?.map (·.info) := by
  rw [List.getElem?_set]
  split
  next hji =>
    subst hji
    rw [if_pos (List.getElem?_eq_some_iff.mp h).1,h]
    rfl
  next => rfl

theorem getProvider_infoAt {permits : Permits} {now : ℕ} {lookup : Lookup P}
    (h : pool.getProvider permits now = .ok lookup) :
    lookup.pool.infoAt isPrimary i = pool.infoAt isPrimary i := by
  obtain ⟨primary,_,h⟩ := Checked.bind_ok.mp h
  dsimp only at h
  split at h
  next j hfound =>
    obtain ⟨e,he,h⟩ := Checked.bind_ok.mp h
    cases h
    have he := Checked.expect_ok.mp he
    cases isPrimary with
    | true => exact set_infoAt he now
    | false => rfl
  next =>
    obtain ⟨backup,_,h⟩ := Checked.bind_ok.mp h
    split at h
    next j hfound =>
      obtain ⟨e,he,h⟩ := Checked.bind_ok.mp h
      cases h
      have he := Checked.expect_ok.mp he
      cases isPrimary with
      | true => rfl
      | false => exact set_infoAt he now
    next =>
      cases h
      rfl

theorem append_infoAt (endpoints : List (PooledEndpoint P)) (e : PooledEndpoint P) :
    (endpoints++[e])[i]?.map (·.info) = endpoints[i]?.map (·.info) ∨
      endpoints[i]?.map (·.info) = none ∧
        (endpoints++[e])[i]?.map (·.info) = some e.info := by
  rcases lt_trichotomy i endpoints.length with hlt | rfl | hgt
  · rw [List.getElem?_append_left hlt]
    exact Or.inl rfl
  · simp
  · rw [List.getElem?_eq_none (by simp; omega),List.getElem?_eq_none (by omega)]
    exact Or.inl rfl

theorem addEndpoint_infoAt {pool' : RPCConnectionPool P} {url : String} {toPrimary : Bool}
    {answer : Option P} {now : ℕ} (h : pool.addEndpoint url toPrimary answer now = .ok pool') :
    pool'.infoAt isPrimary i = pool.infoAt isPrimary i ∨ pool.infoAt isPrimary i = none ∧
      ∃ priority, pool'.infoAt isPrimary i =
        some (EndpointInfo.new url priority pool.maxConnections) := by
  obtain ⟨_,_,h⟩ := Checked.bind_ok.mp h
  obtain ⟨_,_,h⟩ := Checked.bind_ok.mp h
  obtain ⟨e,he,h⟩ := Checked.bind_ok.mp h
  obtain ⟨provider,_,rfl⟩ := Option.map_eq_some_iff.mp (Checked.expect_ok.mp he)
  cases toPrimary <;> cases h <;> cases isPrimary
  · exact (append_infoAt pool.backupEndpoints _).imp_right fun hnew => ⟨hnew.1,_,hnew.2⟩
  · exact Or.inl rfl
  · exact Or.inl rfl
  · exact (append_infoAt pool.primaryEndpoints _).imp_right fun hnew => ⟨hnew.1,_,hnew.2⟩

theorem check_infoAt (endpoints : List (PooledEndpoint P)) (latency : ℕ → Option Float)
    (now : UInt64) :
    (endpoints.mapIdx fun i => healthCheckEndpoint (latency i) now)[i]?.map (·.info) =
      (endpoints[i]?.map (·.info)).map fun info => info.next (checkRecord (latency i) now) := by
  rw [List.getElem?_mapIdx,Option.map_map,Option.map_map]
  congr 1
  funext e
  cases hlatency : latency i <;> simp [healthCheckEndpoint,checkRecord,EndpointInfo.next]

theorem map_nothing (x : Option EndpointInfo) : x.map (run EndpointInfo.next []) = x := by
  cases x <;> rfl

/-- An endpoint goes through what the action records for it, and through nothing
else. A place that had none may be given a new one. -/
theorem next_infoAt (pool : RPCConnectionPool P) (isPrimary : Bool) (i : ℕ) (action : Action P) :
    (pool.next action).infoAt isPrimary i = (pool.infoAt isPrimary i).map
        (run EndpointInfo.next (pool.recordsAt isPrimary i action)) ∨
      pool.infoAt isPrimary i = none ∧ action.adds = true ∧ ∃ url priority concurrentLimit,
        (pool.next action).infoAt isPrimary i =
          some (EndpointInfo.new url priority concurrentLimit) := by
  cases action with
  | getProvider permits now =>
    left
    rw [recordsAt,map_nothing]
    rcases settle_cases step pool (.getProvider permits now) with hstep | hstep
    · obtain ⟨lookup,hlookup,hpool⟩ := Checked.map_ok.mp hstep
      rw [next,← hpool,getProvider_infoAt hlookup]
    · rw [next,hstep]
  | addEndpoint url toPrimary answer now =>
    rw [recordsAt,map_nothing]
    rcases settle_cases step pool (.addEndpoint url toPrimary answer now) with hstep | hstep
    · exact (addEndpoint_infoAt hstep).imp_right fun hnew =>
        ⟨hnew.1,rfl,_,hnew.2.choose,_,hnew.2.choose_spec⟩
    · exact Or.inl (by rw [next,hstep])
  | recordSuccess url latencyMs now =>
    left
    change (pool.recordFor url _).infoAt isPrimary i = _
    rw [recordFor_infoAt,recordsAt]
    split
    · rfl
    · rw [map_nothing]
  | recordError url now =>
    left
    change (pool.recordFor url _).infoAt isPrimary i = _
    rw [recordFor_infoAt,recordsAt]
    split
    · rfl
    · rw [map_nothing]
  | healthCheckAll primary backup now =>
    left
    rw [recordsAt]
    split
    next =>
      cases isPrimary with
      | true => exact check_infoAt pool.primaryEndpoints primary now
      | false => exact check_infoAt pool.backupEndpoints backup now
    next hout =>
      have habsent : pool.infoAt isPrimary i = none := by simpa [infoAt] using hout
      rw [habsent]
      cases isPrimary with
      | true =>
        refine (check_infoAt pool.primaryEndpoints primary now).trans ?_
        exact congrArg _ habsent
      | false =>
        refine (check_infoAt pool.backupEndpoints backup now).trans ?_
        exact congrArg _ habsent

/-! ## Runs -/

theorem run_infoAt {info : EndpointInfo} (h : pool.infoAt isPrimary i = some info)
    (actions : List (Action P)) : (run next actions pool).infoAt isPrimary i =
      some (run EndpointInfo.next (history isPrimary i actions pool) info) := by
  refine run_related (r := fun pool info => infoAt isPrimary i pool = some info) ?_ actions h
  intro pool info action h
  rcases next_infoAt pool isPrimary i action with hnext | ⟨habsent,_⟩
  · rw [hnext,h]
    rfl
  · cases h.symm.trans habsent

/-- What a run of the pool leaves of an endpoint is what its records make of a new one. -/
theorem run_recorded (hnew : ∀ info, pool.infoAt isPrimary i = some info →
      ∃ url priority concurrentLimit, info = EndpointInfo.new url priority concurrentLimit)
    (actions : List (Action P)) :
    ((run next actions pool).infoAt isPrimary i = none → history isPrimary i actions pool = []) ∧
      ∀ info, (run next actions pool).infoAt isPrimary i = some info →
        ∃ url priority concurrentLimit, info = run EndpointInfo.next
          (history isPrimary i actions pool) (EndpointInfo.new url priority concurrentLimit) := by
  refine run_trace (I := fun actions last => (infoAt isPrimary i last = none →
    history isPrimary i actions pool = []) ∧ ∀ info, infoAt isPrimary i last = some info →
      ∃ url priority concurrentLimit, info = run EndpointInfo.next
        (history isPrimary i actions pool) (EndpointInfo.new url priority concurrentLimit))
    ⟨fun _ => rfl,hnew⟩ ?_ actions
  rintro actions action ⟨habsent,hinfo⟩
  have hhistory : history isPrimary i (actions++[action]) pool =
      history isPrimary i actions pool++(run next actions pool).recordsAt isPrimary i action := by
    rw [history,given_append,given,given,List.append_nil]
    rfl
  rw [hhistory]
  cases hlast : (run next actions pool).infoAt isPrimary i with
  | none =>
    rw [recordsAt_absent hlast,habsent hlast]
    refine ⟨fun _ => rfl,fun info hnext => ?_⟩
    rcases next_infoAt (run next actions pool) isPrimary i action with hkept | ⟨_,_,u,p,c,hadded⟩
    · rw [hkept,hlast] at hnext
      cases hnext
    · exact ⟨u,p,c,Option.some_inj.mp (hnext.symm.trans hadded)⟩
  | some info =>
    obtain ⟨u,p,c,rfl⟩ := hinfo info hlast
    rcases next_infoAt (run next actions pool) isPrimary i action with hkept | ⟨hnone,_⟩
    · rw [hlast,Option.map_some,← run_append] at hkept
      rw [hkept]
      constructor
      · intro h
        cases h
      · exact fun info hnext => ⟨u,p,c,(Option.some_inj.mp hnext).symm⟩
    · cases hlast.symm.trans hnone

theorem new_infoAt {primaryUrls backupUrls : List (String × Option P)} {maxConnections now : ℕ}
    (h : new primaryUrls backupUrls maxConnections now = .ok pool) {info : EndpointInfo}
    (hinfo : pool.infoAt isPrimary i = some info) :
    ∃ url priority concurrentLimit, info = EndpointInfo.new url priority concurrentLimit := by
  have hcreated {base : ℕ} {urls : List (String × Option P)} {e : PooledEndpoint P}
      (he : e ∈ createEndpoints base maxConnections now urls) :
      ∃ url priority concurrentLimit, e.info = EndpointInfo.new url priority concurrentLimit := by
    obtain ⟨⟨⟨url,answer⟩,j⟩,_,hcreate⟩ := List.mem_filterMap.mp he
    obtain ⟨provider,_,rfl⟩ := Option.map_eq_some_iff.mp hcreate
    exact ⟨_,_,_,rfl⟩
  dsimp only [new] at h
  split at h <;> cases h
  obtain ⟨e,he,rfl⟩ := Option.map_eq_some_iff.mp hinfo
  cases isPrimary with
  | true => exact hcreated (List.mem_of_getElem? he)
  | false => exact hcreated (List.mem_of_getElem? he)

/-- In every run of a pool, as long as the floats compare as the exact shares do,
an endpoint is not handed out exactly when some failure recorded for it left more
than half of its requests failed and no failure since left more than a tenth but
not more than half of them. Successes do not count but in these shares. -/
theorem unavailable_iff_leftDown {primaryUrls backupUrls : List (String × Option P)}
    {maxConnections start : ℕ} {pool : RPCConnectionPool P}
    (hnew : new primaryUrls backupUrls maxConnections start = .ok pool)
    (actions : List (Action P)) (isPrimary : Bool) (i : ℕ) (info : EndpointInfo)
    (hinfo : (run next actions pool).infoAt isPrimary i = some info)
    (hlen : (history isPrimary i actions pool).length ≤ 2^52) :
    info.isAvailable = false ↔ EndpointInfo.LeftDown (history isPrimary i actions pool) := by
  obtain ⟨url,priority,concurrentLimit,rfl⟩ :=
    (run_recorded (fun _ => new_infoAt hnew) actions).2 info hinfo
  rw [← EndpointInfo.run_down_iff url priority concurrentLimit _ hlen]
  simp [EndpointInfo.isAvailable]

/-- One failed request, then a check that the endpoint answers. -/
theorem unavailable_iff_leftDown_checked :
    EndpointInfo.LeftDown (history true 0
      [.recordError "https://one" 7,.healthCheckAll (fun _ => some 2.0) (fun _ => none) 8]
      (⟨[⟨EndpointInfo.new "https://one" 0 10,1,0⟩],[],0,0,10⟩ : RPCConnectionPool ℕ)) :=
  (@unavailable_iff_leftDown ℕ [("https://one",some 1)] [] 10 0 _ rfl _ true 0 _ rfl
    (by decide)).mp rfl

/-! ## Outages -/

theorem getProvider_refused (hrange : pool.InRange) (hdown : pool.AllDown) (permits : Permits)
    (now : ℕ) : ∃ lookup, pool.getProvider permits now = .ok lookup ∧
      lookup.result = .error "No available RPC endpoints" ∧ lookup.pool.InRange := by
  have hnone {isPrimary : Bool} {permit : ℕ → Bool} :
      ¬∃ e, Qualifies (pool.endpoints isPrimary) permit e := by
    rintro ⟨e,j,he,havailable,_⟩
    have hstatus := hdown isPrimary j e.info (by rw [infoAt,he]; rfl)
    rw [EndpointInfo.isAvailable,hstatus] at havailable
    cases havailable
  have hfound (isPrimary : Bool) {permit : ℕ → Bool} {s : RotatingSearch.Search}
      (h : Searched (pool.endpoints isPrimary) permit s) : s.found = none := by
    cases hfound : s.found with
    | none => rfl
    | some j =>
      obtain ⟨e,_,hq⟩ := h.found j hfound
      exact absurd ⟨e,hq⟩ hnone
  obtain ⟨lookup,hlookup,_,_,hrange'⟩ := getProvider_spec hrange permits now
  refine ⟨lookup,hlookup,?_,hrange'⟩
  obtain ⟨primary,hprimary,hsearched⟩ := tryList_searched permits.primary hrange.primary
  obtain ⟨backup,hbackup,hbackups⟩ := tryList_searched permits.backup hrange.backup
  simp only [getProvider,hprimary,hbackup,bind,Except.bind,hfound true hsearched,
    hfound false hbackups] at hlookup
  cases hlookup
  rfl

theorem allDown_of_records (hdown : pool.AllDown) {action : Action P}
    (hadds : action.adds = false) (hrecords : ∀ isPrimary i,
      ∀ record ∈ pool.recordsAt isPrimary i action, record.isError = false) :
    (pool.next action).AllDown := by
  intro isPrimary i info hinfo
  rcases next_infoAt pool isPrimary i action with hkept | ⟨_,hadded,_⟩
  · rw [hkept] at hinfo
    obtain ⟨old,hold,rfl⟩ := Option.map_eq_some_iff.mp hinfo
    have hstays := EndpointInfo.down_stays (hdown isPrimary i old hold) (hrecords isPrimary i)
    simpa [EndpointInfo.isAvailable] using hstays
  · cases hadds.symm.trans hadded

theorem checkRecord_answered {latency : Option Float} {now : UInt64}
    (h : latency.isSome = true) : (checkRecord latency now).isError = false := by
  obtain ⟨latencyMs,rfl⟩ := Option.isSome_iff_exists.mp h
  rfl

theorem nextCall_quiet (hrange : pool.InRange) (hdown : pool.AllDown) {call : Call P T}
    (hquiet : call.Quiet) :
    pool.Refused call ∧ (pool.nextCall call).InRange ∧ (pool.nextCall call).AllDown := by
  cases call with
  | withProvider permits answer latencyMs now seconds =>
    obtain ⟨lookup,hlookup,hresult,hrange'⟩ := getProvider_refused hrange hdown permits now
    have hcall : pool.withProvider permits answer latencyMs now seconds =
        .ok (.error "No available RPC endpoints",lookup.pool) := by
      simp only [withProvider,hlookup,hresult,bind,Except.bind]
    have hnext : pool.nextCall (.withProvider permits answer latencyMs now seconds) =
        lookup.pool := settle_ok (by rw [stepCall,hcall]; rfl)
    refine ⟨⟨_,hcall⟩,hnext ▸ hrange',fun isPrimary i info hinfo => ?_⟩
    rw [hnext,getProvider_infoAt hlookup] at hinfo
    exact hdown isPrimary i info hinfo
  | direct action =>
    have hnext : pool.nextCall (.direct action : Call P T) = pool.next action := rfl
    have hrange' : (pool.next action).InRange :=
      settle_preserves hrange fun _ hstep => step_inRange hrange hstep
    rw [hnext]
    cases action with
    | getProvider permits now =>
      obtain ⟨lookup,hlookup,hresult,_⟩ := getProvider_refused hrange hdown permits now
      have hpool : pool.next (.getProvider permits now) = lookup.pool :=
        settle_ok (by rw [step,hlookup]; rfl)
      refine ⟨⟨lookup,hlookup,hresult⟩,hrange',fun isPrimary i info hinfo => ?_⟩
      rw [hpool,getProvider_infoAt hlookup] at hinfo
      exact hdown isPrimary i info hinfo
    | addEndpoint url isPrimary answer now => cases hquiet
    | recordError url now => cases hquiet
    | recordSuccess url latencyMs now =>
      refine ⟨trivial,hrange',allDown_of_records hdown rfl fun isPrimary i record hrecord => ?_⟩
      rw [recordsAt] at hrecord
      split at hrecord
      · rw [List.mem_singleton.mp hrecord]
        rfl
      · cases hrecord
    | healthCheckAll primary backup now =>
      refine ⟨trivial,hrange',allDown_of_records hdown rfl fun isPrimary i record hrecord => ?_⟩
      rw [recordsAt] at hrecord
      split at hrecord
      · rw [List.mem_singleton.mp hrecord]
        have hanswers := hquiet i
        cases isPrimary with
        | true => exact checkRecord_answered hanswers.1
        | false => exact checkRecord_answered hanswers.2
      · cases hrecord

/-- An outage of all endpoints lasts through every run in which every health check
finds the endpoint answering, no failure is reported from outside and no endpoint
is added: whoever asks for a provider is refused, and no operation is run that
could show an endpoint to work. -/
theorem outage_lasts {pool : RPCConnectionPool P} (hrange : pool.InRange) (hdown : pool.AllDown)
    {calls : List (Call P T)} (hquiet : ∀ call ∈ calls, call.Quiet) :
    Along nextCall Refused calls pool := by
  induction calls generalizing pool with
  | nil => trivial
  | cons call calls ih =>
    obtain ⟨hrefused,hrange',hdown'⟩ := nextCall_quiet hrange hdown
      (hquiet call List.mem_cons_self)
    exact ⟨hrefused,ih hrange' hdown' fun c hc => hquiet c (List.mem_cons_of_mem _ hc)⟩

/-- The one endpoint is down, and the next two health checks find it answering. -/
theorem outage_lasts_answering :
    Along nextCall Refused
      [.direct (.healthCheckAll (fun _ => some 2.0) (fun _ => some 2.0) 9),
        .withProvider ⟨fun _ => true,fun _ => true⟩ (fun provider => .ok provider) 2.0 10 10,
        .direct (.healthCheckAll (fun _ => some 2.0) (fun _ => some 2.0) 11),
        .direct (.getProvider ⟨fun _ => true,fun _ => true⟩ 12)]
      (⟨[⟨{ EndpointInfo.new "https://one" 0 10 with status := .down },1,0⟩],[],0,0,10⟩ :
        RPCConnectionPool ℕ) := by
  refine outage_lasts ⟨Or.inl rfl,Or.inl rfl⟩ (fun isPrimary i info hinfo => ?_) ?_
  · obtain ⟨e,he,rfl⟩ := Option.map_eq_some_iff.mp hinfo
    cases isPrimary with
    | true =>
      rw [List.mem_singleton.mp (List.mem_of_getElem? he)]
    | false => cases List.mem_of_getElem? he
  · simp [Call.Quiet]

end RPCConnectionPool

end DiamondBot
