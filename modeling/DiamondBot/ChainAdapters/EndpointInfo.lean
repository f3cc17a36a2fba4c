import DiamondBot.Library.AtomicRun
import DiamondBot.Library.Binary64

/-!
# The record of an endpoint

An endpoint counts the requests that succeeded and those that failed. Each of
the two record functions recomputes the share of failures and then adjusts the
status in its own way. Rates are machine floats, rounded as the hardware does.
-/

set_option autoImplicit false

namespace DiamondBot
open Library

inductive EndpointStatus
  | healthy
  | degraded
  | down
  deriving DecidableEq

structure EndpointInfo where
  url : String
  status : EndpointStatus
  avgLatency : Float
  lastCheck : UInt64
  errorRate : Float
  successCount : UInt64
  errorCount : UInt64
  priority : UInt32
  concurrentLimit : ℕ

namespace EndpointInfo

def new (url : String) (priority : UInt32) (concurrentLimit : ℕ) : EndpointInfo where
  url
  status := .healthy
  avgLatency := 0.0
  lastCheck := 0
  errorRate := 0.0
  successCount := 0
  errorCount := 0
  priority
  concurrentLimit

def recordSuccess (info : EndpointInfo) (latencyMs : Float) (now : UInt64) : EndpointInfo :=
  let successCount := info.successCount+1
  let totalRequests := successCount+info.errorCount
  let errorRate := info.errorCount.toFloat/totalRequests.toFloat
  { info with
    successCount
    avgLatency := (info.avgLatency*(totalRequests-1).toFloat+latencyMs)/totalRequests.toFloat
    errorRate
    lastCheck := now
    status := if info.status = .degraded ∧ errorRate < 0.1 then .healthy else info.status }

def recordError (info : EndpointInfo) (now : UInt64) : EndpointInfo :=
  let errorCount := info.errorCount+1
  let totalRequests := info.successCount+errorCount
  let errorRate := errorCount.toFloat/totalRequests.toFloat
  { info with
    errorCount
    errorRate
    lastCheck := now
    status := if errorRate > 0.5 then .down
      else if errorRate > 0.1 then .degraded else info.status }

def isAvailable (info : EndpointInfo) : Bool := info.status ≠ .down

inductive Record
  | success (latencyMs : Float) (now : UInt64)
  | error (now : UInt64)

def next (info : EndpointInfo) : Record → EndpointInfo
  | .success latencyMs now => info.recordSuccess latencyMs now
  | .error now => info.recordError now

def statusFor (ratio : ℚ) : EndpointStatus :=
  if 1/2 < ratio then .down else if 1/10 < ratio then .degraded else .healthy

def Record.isError : Record → Bool
  | .success _ _ => false
  | .error _ => true

def errors (records : List Record) : ℕ := records.countP Record.isError

/-- After every record the status is that of the exact share of failures. -/
def Reflects (url : String) (priority : UInt32) (concurrentLimit : ℕ) (records : List Record) :
    Prop :=
  ∀ before after, records = before++after →
    (AtomicRun.run next before (new url priority concurrentLimit)).status =
      statusFor (errors before/before.length)

/-- No success takes the share of failures from above one half to one half or
below, and none takes it to one tenth. -/
def StaysClear (records : List Record) : Prop :=
  ∀ before latencyMs now after, records = before++.success latencyMs now::after →
    (before.length < 2*errors before → before.length+1 < 2*errors before) ∧
      10*errors before ≠ before.length+1

/-! ## The computed rate -/

section
open Binary64

theorem half_value : HasValue 0.5 (((2^52 : ℕ) : ℚ)*2^(-53 : ℤ)) :=
  ⟨2^52,-53,by decide,rfl,le_rfl,by decide,rfl⟩

theorem tenth_value : HasValue 0.1 (((7205759403792794 : ℕ) : ℚ)*2^(-56 : ℤ)) :=
  ⟨7205759403792794,-56,by decide,rfl,by decide,by decide,rfl⟩

variable {e n : UInt64}

theorem rate_gt {f : Float} {c : ℕ} {k : ℤ} {p : Prop} (hf : HasValue f (c*2^k)) (hc : c < 2^53)
    (hn : 0 < n.toNat) (hle : e.toNat ≤ n.toNat) (hn' : n.toNat ≤ 2^52)
    (hlow : ¬p → (e.toNat : ℚ) ≤ c*2^k*n.toNat)
    (hhigh : p → ((c : ℚ)*2^k+2^k/2)*n.toNat < e.toNat) (hp : p → 0 < e.toNat) :
    e.toFloat/n.toFloat > f ↔ p := by
  have hnq : (0 : ℚ) < n.toNat := by exact_mod_cast hn
  rcases Nat.eq_zero_or_pos e.toNat with he | he
  · obtain rfl : e = 0 := UInt64.toNat_inj.mp he
    exact iff_of_false (zero_div_lt hn (by omega) hf).2 fun h => absurd (hp h) (by decide)
  · obtain ⟨r,j,hvalue,hr,hround⟩ := div_rounds he (by omega) hn (by omega)
    rw [gt_iff_lt,lt_iff hf hvalue]
    constructor
    · contrapose!
      exact fun h => hround.le hc ((div_le_iff₀ hnq).mpr (hlow h))
    · exact fun h => hround.lt_above hr hc ((lt_div_iff₀ hnq).mpr (hhigh h))

theorem rate_gt_half (hn : 0 < n.toNat) (hle : e.toNat ≤ n.toNat) (hn' : n.toNat ≤ 2^52) :
    e.toFloat/n.toFloat > 0.5 ↔ n.toNat < 2*e.toNat := by
  have hbound : (n.toNat : ℚ) ≤ 2^52 := by exact_mod_cast hn'
  refine rate_gt half_value (by decide) hn hle hn' (fun h => ?_) (fun h => ?_) (fun h => by omega)
  · have hq : 2*(e.toNat : ℚ) ≤ n.toNat := by exact_mod_cast not_lt.mp h
    norm_num
    linarith
  · have hq : (n.toNat : ℚ)+1 ≤ 2*e.toNat := by exact_mod_cast h
    norm_num
    linarith

theorem rate_gt_tenth (hn : 0 < n.toNat) (hle : e.toNat ≤ n.toNat) (hn' : n.toNat ≤ 2^52) :
    e.toFloat/n.toFloat > 0.1 ↔ n.toNat < 10*e.toNat := by
  have hnq : (0 : ℚ) < n.toNat := by exact_mod_cast hn
  have hbound : (n.toNat : ℚ) ≤ 2^52 := by exact_mod_cast hn'
  refine rate_gt tenth_value (by decide) hn hle hn' (fun h => ?_) (fun h => ?_) (fun h => by omega)
  · have hq : 10*(e.toNat : ℚ) ≤ n.toNat := by exact_mod_cast not_lt.mp h
    norm_num
    linarith
  · have hq : (n.toNat : ℚ)+1 ≤ 10*e.toNat := by exact_mod_cast h
    norm_num
    linarith

/-- One tenth itself is rounded up to the constant, so it is not below it. -/
theorem rate_lt_tenth (hn : 0 < n.toNat) (hle : e.toNat ≤ n.toNat) (hn' : n.toNat ≤ 2^52) :
    e.toFloat/n.toFloat < 0.1 ↔ 10*e.toNat < n.toNat := by
  have hnq : (0 : ℚ) < n.toNat := by exact_mod_cast hn
  have hbound : (n.toNat : ℚ) ≤ 2^52 := by exact_mod_cast hn'
  rcases Nat.eq_zero_or_pos e.toNat with he | he
  · obtain rfl : e = 0 := UInt64.toNat_inj.mp he
    exact iff_of_true (zero_div_lt hn (by omega) tenth_value).1 (by omega)
  obtain ⟨r,j,hvalue,hr,hround⟩ := div_rounds he (by omega) hn (by omega)
  rw [lt_iff hvalue tenth_value]
  constructor
  · contrapose!
    intro h
    have hq : (n.toNat : ℚ) ≤ 10*e.toNat := by exact_mod_cast h
    refine hround.ge hr (by decide) ?_ ?_
    · rw [le_div_iff₀ hnq]
      norm_num
      linarith
    · rw [lt_div_iff₀ hnq]
      norm_num
      linarith
  · intro h
    have hq : 10*(e.toNat : ℚ)+1 ≤ n.toNat := by exact_mod_cast h
    refine hround.lt_below (by decide) ?_
    rw [div_lt_iff₀ hnq]
    norm_num
    linarith

end

/-! ## Runs of records -/

theorem statusFor_eq {e n : ℕ} (h : e ≤ n) : statusFor (e/n) =
    if n < 2*e then .down else if n < 10*e then .degraded else .healthy := by
  rcases Nat.eq_zero_or_pos n with rfl | hn
  · obtain rfl : e = 0 := Nat.le_zero.mp h
    norm_num [statusFor]
  have hnq : (0 : ℚ) < n := by exact_mod_cast hn
  have hhalf : (1/2 : ℚ) < e/n ↔ n < 2*e := by
    rw [div_lt_div_iff₀ (by norm_num) hnq,one_mul,mul_comm]
    exact_mod_cast Iff.rfl
  have htenth : (1/10 : ℚ) < e/n ↔ n < 10*e := by
    rw [div_lt_div_iff₀ (by norm_num) hnq,one_mul,mul_comm]
    exact_mod_cast Iff.rfl
  simp only [statusFor,hhalf,htenth]

theorem toNat_succ {a : UInt64} (h : a.toNat+1 < 2^64) : (a+1).toNat = a.toNat+1 := by
  rw [UInt64.toNat_add,UInt64.toNat_one]
  exact Nat.mod_eq_of_lt h

theorem toNat_total {a b : UInt64} (h : a.toNat+b.toNat < 2^64) :
    (a+b).toNat = a.toNat+b.toNat := by
  rw [UInt64.toNat_add]
  exact Nat.mod_eq_of_lt h

theorem errors_append (records : List Record) (record : Record) :
    errors (records++[record]) = errors records+if record.isError then 1 else 0 := by
  rw [errors,List.countP_append,List.countP_singleton]
  rfl

theorem errors_le (records : List Record) : errors records ≤ records.length :=
  List.countP_le_length

/-- The counters count the records, as long as they fit. -/
theorem run_counts (url : String) (priority : UInt32) (concurrentLimit : ℕ)
    (records : List Record) :
    records.length < 2^64 →
      (AtomicRun.run next records (new url priority concurrentLimit)).errorCount.toNat =
        errors records ∧
      (AtomicRun.run next records (new url priority concurrentLimit)).successCount.toNat+
        errors records = records.length := by
  refine AtomicRun.run_trace (I := fun records (info : EndpointInfo) => records.length < 2^64 →
    info.errorCount.toNat = errors records ∧
      info.successCount.toNat+errors records = records.length) (fun _ => ⟨rfl,rfl⟩) ?_ records
  intro records record ih hlen
  rw [List.length_append,List.length_singleton] at hlen ⊢
  obtain ⟨he,hs⟩ := ih (by omega)
  have hle := errors_le records
  rw [errors_append]
  cases record with
  | success latencyMs now =>
    refine ⟨he,?_⟩
    change (_+1 : UInt64).toNat+(errors records+0) = _
    rw [toNat_succ (by omega)]
    omega
  | error now =>
    refine ⟨?_,?_⟩
    · change (_+1 : UInt64).toNat = errors records+1
      rw [toNat_succ (by omega),he]
    · change _+(errors records+1) = _
      rw [← hs]
      exact (Nat.add_assoc _ _ _).symm

theorem recordError_status {info : EndpointInfo} {n : ℕ}
    (hn : info.successCount.toNat+info.errorCount.toNat = n) (hbound : n+1 ≤ 2^52)
    (hstatus : info.status = statusFor (info.errorCount.toNat/n)) (now : UInt64) :
    (info.recordError now).status = statusFor ((info.errorCount.toNat+1 : ℕ)/(n+1 : ℕ)) := by
  have he : (info.errorCount+1).toNat = info.errorCount.toNat+1 := toNat_succ (by omega)
  have htotal : (info.successCount+(info.errorCount+1)).toNat = n+1 := by
    rw [toNat_total (by omega)]
    omega
  rw [statusFor_eq (by omega)] at hstatus ⊢
  simp only [recordError,rate_gt_half (e := info.errorCount+1)
    (n := info.successCount+(info.errorCount+1)) (by omega) (by omega) (by omega),
    rate_gt_tenth (e := info.errorCount+1)
    (n := info.successCount+(info.errorCount+1)) (by omega) (by omega) (by omega),he,htotal]
  split
  · rfl
  · split
    · rfl
    · rw [hstatus,if_neg (by omega),if_neg (by omega)]

/-- A success leaves it exactly when it takes the share neither out of the range
of a dead endpoint nor to one tenth. -/
theorem recordSuccess_status {info : EndpointInfo} {n : ℕ}
    (hn : info.successCount.toNat+info.errorCount.toNat = n) (hbound : n+1 ≤ 2^52)
    (hstatus : info.status = statusFor (info.errorCount.toNat/n)) (latencyMs : Float)
    (now : UInt64) :
    (info.recordSuccess latencyMs now).status =
        statusFor (info.errorCount.toNat/(n+1 : ℕ)) ↔
      (n < 2*info.errorCount.toNat → n+1 < 2*info.errorCount.toNat) ∧
        10*info.errorCount.toNat ≠ n+1 := by
  have hs : (info.successCount+1).toNat = info.successCount.toNat+1 := toNat_succ (by omega)
  have htotal : (info.successCount+1+info.errorCount).toNat = n+1 := by
    rw [toNat_total (by omega)]
    omega
  rw [statusFor_eq (by omega)] at hstatus ⊢
  simp only [recordSuccess,rate_lt_tenth (e := info.errorCount)
    (n := info.successCount+1+info.errorCount) (by omega) (by omega) (by omega),htotal,hstatus]
  generalize info.errorCount.toNat = e
  rcases Nat.lt_or_ge n (2*e) with hdown | hup
  · -- A dead endpoint stays so, whatever the share.
    rw [if_pos hdown,if_neg fun h => nomatch h.1]
    by_cases hstays : n+1 < 2*e
    · rw [if_pos hstays]
      exact iff_of_true rfl ⟨fun _ => hstays,by omega⟩
    · rw [if_neg hstays]
      refine iff_of_false ?_ fun h => hstays (h.1 hdown)
      split <;> exact fun h => nomatch h
  rw [if_neg (show ¬n < 2*e by omega),if_neg (show ¬n+1 < 2*e by omega)]
  rcases Nat.lt_or_ge n (10*e) with hdegraded | hhealthy
  · have hstays : ¬10*e < n+1 := by omega
    rw [if_pos hdegraded,if_neg fun h => hstays h.2]
    by_cases hexact : 10*e = n+1
    · rw [if_neg (by omega)]
      exact iff_of_false (fun h => nomatch h) fun h => h.2 hexact
    · rw [if_pos (by omega)]
      exact iff_of_true rfl ⟨fun h => by omega,hexact⟩
  · rw [if_neg (show ¬n < 10*e by omega),if_neg (show ¬n+1 < 10*e by omega),ite_self]
    exact iff_of_true rfl ⟨fun h => by omega,by omega⟩

theorem next_reflects {url : String} {priority : UInt32} {concurrentLimit : ℕ}
    {records : List Record} (h : records.length < 2^52)
    (hstatus : (AtomicRun.run next records (new url priority concurrentLimit)).status =
      statusFor (errors records/records.length)) (record : Record) :
    (AtomicRun.run next (records++[record]) (new url priority concurrentLimit)).status =
        statusFor (errors (records++[record])/(records++[record]).length) ↔
      ∀ latencyMs now, record = .success latencyMs now →
        (records.length < 2*errors records → records.length+1 < 2*errors records) ∧
          10*errors records ≠ records.length+1 := by
  obtain ⟨he,hs⟩ := run_counts url priority concurrentLimit records (by omega)
  rw [AtomicRun.run_append,errors_append,List.length_append,List.length_singleton]
  rw [← he] at hs hstatus ⊢
  cases record with
  | success latencyMs now =>
    have hiff := recordSuccess_status hs (by omega) hstatus latencyMs now
    exact hiff.trans ⟨fun h _ _ _ => h,fun h => h latencyMs now rfl⟩
  | error now =>
    exact iff_of_true (recordError_status hs (by omega) hstatus now) fun _ _ h => nomatch h

/-- In a run of at most `2^52` records, where the floats compare as the exact
shares do, the status is the prescribed one after every record exactly when no
success brings the share of failures down to one half or to one tenth. -/
theorem reflects_iff_staysClear (url : String) (priority : UInt32) (concurrentLimit : ℕ)
    (records : List Record) :
    (records.length ≤ 2^52 ∧ StaysClear records →
      Reflects url priority concurrentLimit records) ∧
    (records.length ≤ 2^52 → Reflects url priority concurrentLimit records →
      StaysClear records) := by
  refine ⟨fun ⟨hlen,hclear⟩ before => ?_,fun hlen hreflects => ?_⟩
  · induction before using List.reverseRecOn with
    | nil =>
      intro _ _
      norm_num [AtomicRun.run,new,statusFor,errors]
    | append_singleton before record ih =>
      intro after hsplit
      rw [List.append_assoc,List.singleton_append] at hsplit
      have hbefore : before.length < records.length := by simp [hsplit]
      refine (next_reflects (by omega) (ih _ hsplit) record).mpr ?_
      rintro latencyMs now rfl
      exact hclear before latencyMs now after hsplit
  · intro before latencyMs now after hsplit
    have hbefore : before.length < records.length := by simp [hsplit]
    have hsplit' : records = (before++[.success latencyMs now])++after := by simp [hsplit]
    exact (next_reflects (by omega) (hreflects before _ hsplit) _).mp
      (hreflects _ after hsplit') latencyMs now rfl

/-- One failure, then one success: one half is not above one half. -/
theorem not_reflects : ¬Reflects "https://node" 0 10 [.error 1,.success 40.0 2] := by
  intro h
  have hdown := h [.error 1,.success 40.0 2] [] rfl
  have hcode : (AtomicRun.run next [.error 1,.success 40.0 2] (new "https://node" 0 10)).status =
      .down := rfl
  rw [hcode,statusFor_eq (by decide)] at hdown
  exact absurd hdown (by decide)

theorem down_stays {info : EndpointInfo} (h : info.status = .down) {records : List Record}
    (hrecords : ∀ record ∈ records, record.isError = false) :
    (AtomicRun.run next records info).isAvailable = false := by
  induction records generalizing info with
  | nil => rw [AtomicRun.run,isAvailable,h]; rfl
  | cons record records ih =>
    refine ih ?_ fun r hr => hrecords r (List.mem_cons_of_mem _ hr)
    cases record with
    | error now => cases hrecords _ List.mem_cons_self
    | success latencyMs now =>
      change (if info.status = .degraded ∧ _ then EndpointStatus.healthy else info.status) = .down
      rw [h,if_neg fun hd => nomatch hd.1]

end EndpointInfo

end DiamondBot
