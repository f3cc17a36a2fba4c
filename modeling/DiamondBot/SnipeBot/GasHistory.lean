import DiamondBot.SnipeBot.GasOptimizer
import DiamondBot.Library.AtomicRun
import DiamondBot.Library.TimedLog

/-!
# The history of gas prices

An update that comes too soon after the last one does nothing. Any other marks
its time, takes old samples out of both histories and only then asks for the gas
price, so a request that fails holds off the next update as a sample would.
-/

set_option autoImplicit false

namespace DiamondBot.Trade
open Library TimedLog

/-- A call of the update: the clock, what the client answers, and the clock again
when the cache is written. -/
structure HistoryUpdate where
  now : UInt64
  getGasPrice : Except String ℕ
  getBlock : Except String (Option Block)
  cachedAt : UInt64

namespace GasOptimizer

def growthRate (samples : List ℕ) : Except String ℕ :=
  match samples[0]?,samples[4]? with
  | some newest,some oldest =>
    if 0 < oldest ∧ oldest < newest then do
      let grown ← Checked.mul 256 (newest-oldest) 100
      .ok (grown/oldest)
    else .ok 0
  | _,_ => .ok 0

def variancePercent (variance average : ℕ) : Except String ℕ :=
  if average > 0 then do
    let scaled ← Checked.mul 256 variance 100
    .ok (scaled/average)
  else .ok 0

def congestionOf (growthRate variancePercent : ℕ) : NetworkCongestion :=
  if growthRate > 20 ∨ variancePercent > 30 then .veryHigh
  else if growthRate > 10 ∨ variancePercent > 15 then .high
  else if growthRate > 5 ∨ variancePercent > 5 then .medium
  else .low

def updateNetworkCongestion (o : GasOptimizer) : Except String GasOptimizer :=
  if o.gasPriceHistory.length < 2 then .ok o
  else do
    let samples := (o.gasPriceHistory.reverse.take 10).map Prod.snd
    let sum ← Checked.sum 256 samples 0
    let average := sum/samples.length
    let deviation ← Checked.sum 256
      (samples.map fun price => if price > average then price-average else average-price) 0
    let variance ← variancePercent (deviation/samples.length) average
    let growth ← growthRate samples
    .ok { o with networkCongestion := congestionOf growth variance }

def updateGasPriceCache (o : GasOptimizer) (cache : GasPriceCache) (now : UInt64)
    (gasPrice : ℕ) : GasPriceCache :=
  let baseFee := o.baseFeeHistory.getLast?.map Prod.snd
  Function.update cache o.chainId (some
    { chainId := o.chainId
      timestamp := now
      gasPrice
      priorityFee := priorityFeeOver gasPrice baseFee
      baseFee
      networkCongestion := o.networkCongestion })

def suppressed (o : GasOptimizer) (now : UInt64) : Bool :=
  now-o.lastUpdate < o.config.sampleInterval

def outside (o : GasOptimizer) (now time : UInt64) : Bool :=
  now-time > o.config.historyWindow

def prepared (o : GasOptimizer) (now : UInt64) : GasOptimizer :=
  { o with
    lastUpdate := now
    gasPriceHistory := expire (o.outside now) o.gasPriceHistory
    baseFeeHistory := expire (o.outside now) o.baseFeeHistory }

def sampled (o : GasOptimizer) (call : HistoryUpdate) (gasPrice : ℕ) : GasOptimizer :=
  { o with
    gasPriceHistory := o.gasPriceHistory++[(call.now,gasPrice)]
    baseFeeHistory := match latestBaseFee call.getBlock with
      | some fee => o.baseFeeHistory++[(call.now,fee)]
      | none => o.baseFeeHistory }

/-- The last test is that of the metric, which takes the price as 64 bits. -/
def updateGasPriceHistory (o : GasOptimizer) (cache : GasPriceCache) (call : HistoryUpdate) :
    (GasOptimizer × GasPriceCache) × Except GasFailure Unit :=
  if o.suppressed call.now then ((o,cache),.ok ())
  else
    let o := o.prepared call.now
    match call.getGasPrice with
    | .error e => ((o,cache),.error (.failed e))
    | .ok gasPrice =>
      let o := o.sampled call gasPrice
      match o.updateNetworkCongestion with
      | .error message => ((o,cache),.error (.panicked message))
      | .ok o =>
        ((o,o.updateGasPriceCache cache call.cachedAt gasPrice),
          if gasPrice < 2^64 then .ok ()
          else .error (.panicked "Integer overflow when casting to u64"))

def next (s : GasOptimizer × GasPriceCache) (call : HistoryUpdate) :
    GasOptimizer × GasPriceCache :=
  (s.1.updateGasPriceHistory s.2 call).1

def after (config : GasOptimizerConfig) (cache : GasPriceCache) (calls : List HistoryUpdate) :
    GasOptimizer :=
  (AtomicRun.run next calls (withConfig config,cache)).1

def Fails (o : GasOptimizer) (call : HistoryUpdate) : Prop :=
  o.suppressed call.now = false ∧ ∃ e, call.getGasPrice = .error e

def Stores (o : GasOptimizer) (call : HistoryUpdate) : Prop :=
  o.suppressed call.now = false ∧ ∃ gasPrice, call.getGasPrice = .ok gasPrice

structure InOrder (o : GasOptimizer) : Prop where
  gasPrices : Ordered (fun s t => s ≤ t) o.gasPriceHistory
  baseFees : Ordered (fun s t => s ≤ t) o.baseFeeHistory
  spaced : Ordered (fun s t => s.toNat+o.config.sampleInterval.toNat ≤ t.toNat) o.gasPriceHistory

structure InWindow (o : GasOptimizer) (now : UInt64) : Prop where
  gasPrices : ∀ a ∈ o.gasPriceHistory, now.toNat-a.1.toNat ≤ o.config.historyWindow.toNat
  baseFees : ∀ a ∈ o.baseFeeHistory, now.toNat-a.1.toNat ≤ o.config.historyWindow.toNat

/-- What is asked of the histories of a run. A call that fails leaves no trace
when it suppresses the next one only if that was suppressed without it. -/
structure HistoriesKept (config : GasOptimizerConfig) (cache : GasPriceCache)
    (calls : List HistoryUpdate) : Prop where
  inOrder : ∀ before rest, calls = before++rest → (after config cache before).InOrder
  inWindow : ∀ before call rest, calls = before++call::rest →
    (after config cache before).Stores call →
    (after config cache (before++[call])).InWindow call.now
  noTrace : ∀ before call call' rest, calls = before++call::call'::rest →
    (after config cache before).Fails call →
    (after config cache (before++[call])).suppressed call'.now = true →
    (after config cache before).suppressed call'.now = true

/-- After a request that failed, the next call is made an interval later. -/
def RetriesLate (config : GasOptimizerConfig) (cache : GasPriceCache)
    (calls : List HistoryUpdate) : Prop :=
  ∀ before call call' rest, calls = before++call::call'::rest →
    (after config cache before).Fails call →
    call.now.toNat+config.sampleInterval.toNat ≤ call'.now.toNat

/-! ## One call -/

theorem updateNetworkCongestion_ok {o o' : GasOptimizer}
    (h : o.updateNetworkCongestion = .ok o') :
    ∃ congestion, o' = { o with networkCongestion := congestion } := by
  unfold updateNetworkCongestion at h
  split at h
  · cases h
    exact ⟨_,rfl⟩
  · obtain ⟨_,_,h⟩ := Checked.bind_ok.mp h
    obtain ⟨_,_,h⟩ := Checked.bind_ok.mp h
    obtain ⟨_,_,h⟩ := Checked.bind_ok.mp h
    obtain ⟨_,_,h⟩ := Checked.bind_ok.mp h
    cases h
    exact ⟨_,rfl⟩

/-- A call does nothing, or fails after it marked its time, or stores a sample. -/
theorem next_cases (s : GasOptimizer × GasPriceCache) (call : HistoryUpdate) :
    s.1.suppressed call.now = true ∧ (next s call).1 = s.1 ∨
    s.1.Fails call ∧ (next s call).1 = s.1.prepared call.now ∨
    s.1.Stores call ∧ ∃ gasPrice congestion, (next s call).1 =
      { (s.1.prepared call.now).sampled call gasPrice with networkCongestion := congestion } := by
  unfold next updateGasPriceHistory
  cases hsuppressed : s.1.suppressed call.now with
  | true => exact Or.inl ⟨rfl,rfl⟩
  | false =>
    apply Or.inr
    cases hprice : call.getGasPrice with
    | error e => exact Or.inl ⟨⟨hsuppressed,e,hprice⟩,rfl⟩
    | ok gasPrice =>
      refine Or.inr ⟨⟨hsuppressed,gasPrice,hprice⟩,gasPrice,?_⟩
      cases hcongestion : ((s.1.prepared call.now).sampled call gasPrice).updateNetworkCongestion with
      | error message =>
        refine ⟨((s.1.prepared call.now).sampled call gasPrice).networkCongestion,?_⟩
        simp only [hcongestion,Bool.false_eq_true,if_false]
      | ok o =>
        obtain ⟨congestion,rfl⟩ := updateNetworkCongestion_ok hcongestion
        refine ⟨congestion,?_⟩
        simp only [hcongestion,Bool.false_eq_true,if_false]

/-- What holds between calls: the order of the histories, with no entry later
than the last update. -/
structure Kept (config : GasOptimizerConfig) (o : GasOptimizer) : Prop where
  config : o.config = config
  inOrder : o.InOrder
  gasPrices : ∀ a ∈ o.gasPriceHistory, a.1 ≤ o.lastUpdate
  baseFees : ∀ a ∈ o.baseFeeHistory, a.1 ≤ o.lastUpdate

variable {config : GasOptimizerConfig} {o : GasOptimizer}

theorem prepared_kept (h : Kept config o) {now : UInt64} (hnow : o.lastUpdate ≤ now) :
    Kept config (o.prepared now) where
  config := h.config
  inOrder :=
    { gasPrices := ordered_expire h.inOrder.gasPrices
      baseFees := ordered_expire h.inOrder.baseFees
      spaced := ordered_expire h.inOrder.spaced }
  gasPrices a ha := UInt64.le_trans (h.gasPrices a (mem_expire ha)) hnow
  baseFees a ha := UInt64.le_trans (h.baseFees a (mem_expire ha)) hnow

theorem interval_of_not_suppressed {now : UInt64} (hnow : o.lastUpdate ≤ now)
    (h : o.suppressed now = false) :
    o.lastUpdate.toNat+o.config.sampleInterval.toNat ≤ now.toNat := by
  have hle := decide_eq_false_iff_not.mp h
  rw [UInt64.not_lt,UInt64.le_iff_toNat_le,UInt64.toNat_sub_of_le _ _ hnow] at hle
  rw [UInt64.le_iff_toNat_le] at hnow
  omega

theorem sampled_baseFees (o : GasOptimizer) (call : HistoryUpdate) (gasPrice : ℕ) :
    (o.sampled call gasPrice).baseFeeHistory = o.baseFeeHistory ∨
      ∃ fee, (o.sampled call gasPrice).baseFeeHistory = o.baseFeeHistory++[(call.now,fee)] := by
  unfold sampled
  cases latestBaseFee call.getBlock with
  | none => exact Or.inl rfl
  | some fee => exact Or.inr ⟨fee,rfl⟩

theorem sampled_kept (h : Kept config o) {call : HistoryUpdate} (hnow : o.lastUpdate ≤ call.now)
    (hstores : o.Stores call) (gasPrice : ℕ) (congestion : NetworkCongestion) :
    Kept config { (o.prepared call.now).sampled call gasPrice with
      networkCongestion := congestion } := by
  have hp := prepared_kept h hnow
  have hinterval := interval_of_not_suppressed hnow hstores.1
  have hspaced (a : UInt64 × ℕ) (ha : a ∈ (o.prepared call.now).gasPriceHistory) :
      a.1.toNat+o.config.sampleInterval.toNat ≤ call.now.toNat := by
    have hle := UInt64.le_iff_toNat_le.mp (h.gasPrices a (mem_expire ha))
    exact (Nat.add_le_add_right hle _).trans hinterval
  have hbase : Ordered (fun s t => s ≤ t)
        ((o.prepared call.now).sampled call gasPrice).baseFeeHistory ∧
      ∀ a ∈ ((o.prepared call.now).sampled call gasPrice).baseFeeHistory, a.1 ≤ call.now := by
    rcases sampled_baseFees (o.prepared call.now) call gasPrice with hsame | ⟨fee,hstored⟩
    · rw [hsame]
      exact ⟨hp.inOrder.baseFees,hp.baseFees⟩
    · rw [hstored]
      exact ⟨ordered_append hp.inOrder.baseFees hp.baseFees,
        forall_append (fun t => t ≤ call.now) hp.baseFees (UInt64.le_refl _)⟩
  exact ⟨h.config,⟨ordered_append hp.inOrder.gasPrices hp.gasPrices,hbase.1,
    ordered_append hp.inOrder.spaced hspaced⟩,
    forall_append (fun t => t ≤ call.now) hp.gasPrices (UInt64.le_refl _),hbase.2⟩

theorem expire_inWindow {log : List (UInt64 × ℕ)} (h : Ordered (fun s t => s ≤ t) log)
    (now : UInt64) (hnow : ∀ a ∈ log, a.1 ≤ now) :
    ∀ a ∈ expire (o.outside now) log,
      now.toNat-a.1.toNat ≤ o.config.historyWindow.toNat := by
  have houtside {t : UInt64} (ht : t ≤ now) :
      o.outside now t = true ↔ o.config.historyWindow.toNat < now.toNat-t.toNat := by
    rw [outside,decide_eq_true_iff,gt_iff_lt,UInt64.lt_iff_toNat_lt,
      UInt64.toNat_sub_of_le _ _ ht]
  have hold : Ordered (fun s t => o.outside now t = true → o.outside now s = true) log := by
    refine List.Pairwise.imp_of_mem (fun {a b} ha hb hab ht => ?_) h
    rw [houtside (hnow b hb)] at ht
    rw [houtside (hnow a ha)]
    have hle := UInt64.le_iff_toNat_le.mp hab
    omega
  intro a ha
  have hyoung := expire_young hold a ha
  rw [← Bool.not_eq_true,houtside (hnow a (mem_expire ha)),not_lt] at hyoung
  exact hyoung

theorem sampled_inWindow (h : Kept config o) {call : HistoryUpdate}
    (hnow : o.lastUpdate ≤ call.now) (gasPrice : ℕ) (congestion : NetworkCongestion) :
    InWindow { (o.prepared call.now).sampled call gasPrice with
      networkCongestion := congestion } call.now := by
  have hgas := expire_inWindow (o := o) h.inOrder.gasPrices call.now
    fun a ha => UInt64.le_trans (h.gasPrices a ha) hnow
  have hbase := expire_inWindow (o := o) h.inOrder.baseFees call.now
    fun a ha => UInt64.le_trans (h.baseFees a ha) hnow
  have hwindow {log : List (UInt64 × ℕ)} {v : ℕ}
      (hlog : ∀ a ∈ log, call.now.toNat-a.1.toNat ≤ o.config.historyWindow.toNat) :
      ∀ a ∈ log++[(call.now,v)], call.now.toNat-a.1.toNat ≤ o.config.historyWindow.toNat :=
    forall_append (fun t : UInt64 => call.now.toNat-t.toNat ≤ o.config.historyWindow.toNat) hlog
      (by omega)
  refine ⟨hwindow hgas,?_⟩
  change ∀ a ∈ ((o.prepared call.now).sampled call gasPrice).baseFeeHistory, _
  rcases sampled_baseFees (o.prepared call.now) call gasPrice with hsame | ⟨fee,hstored⟩
  · rw [hsame]
    exact hbase
  · rw [hstored]
    exact hwindow hbase

/-! ## Runs -/

/-- The times of the calls do not decrease. -/
def Timely (calls : List HistoryUpdate) : Prop :=
  calls.Pairwise fun a b => a.now ≤ b.now

theorem after_cases (config : GasOptimizerConfig) (cache : GasPriceCache)
    (calls : List HistoryUpdate) (call : HistoryUpdate) :
    (after config cache calls).suppressed call.now = true ∧
      after config cache (calls++[call]) = after config cache calls ∨
    (after config cache calls).Fails call ∧
      after config cache (calls++[call]) = (after config cache calls).prepared call.now ∨
    (after config cache calls).Stores call ∧ ∃ gasPrice congestion,
      after config cache (calls++[call]) =
        { ((after config cache calls).prepared call.now).sampled call gasPrice with
          networkCongestion := congestion } := by
  have happend : after config cache (calls++[call]) =
      (next (AtomicRun.run next calls (withConfig config,cache)) call).1 := by
    rw [after,AtomicRun.run_append]
    rfl
  rw [happend]
  exact next_cases _ call

theorem timely_append {calls : List HistoryUpdate} {call : HistoryUpdate} :
    Timely (calls++[call]) ↔ Timely calls ∧ ∀ a ∈ calls, a.now ≤ call.now := by
  rw [Timely,List.pairwise_append]
  constructor
  · rintro ⟨hcalls,_,hlast⟩
    exact ⟨hcalls,fun a ha => hlast a ha call (List.mem_singleton.mpr rfl)⟩
  · rintro ⟨hcalls,hlast⟩
    refine ⟨hcalls,List.pairwise_singleton _ _,fun a ha b hb => ?_⟩
    rw [List.mem_singleton.mp hb]
    exact hlast a ha

theorem after_kept (config : GasOptimizerConfig) (cache : GasPriceCache)
    (calls : List HistoryUpdate) : Timely calls →
      Kept config (after config cache calls) ∧
        ∀ now : UInt64, (∀ call ∈ calls, call.now ≤ now) →
          (after config cache calls).lastUpdate ≤ now := by
  induction calls using List.reverseRecOn with
  | nil =>
    intro _
    exact ⟨⟨rfl,⟨List.Pairwise.nil,List.Pairwise.nil,List.Pairwise.nil⟩,
      fun _ ha => (nomatch ha),fun _ ha => (nomatch ha)⟩,fun now _ => UInt64.zero_le⟩
  | append_singleton calls call ih =>
    intro htimely
    obtain ⟨hcalls,hlast⟩ := timely_append.mp htimely
    obtain ⟨hkept,hclock⟩ := ih hcalls
    have hnow := hclock call.now hlast
    have hmem : call ∈ calls++[call] := List.mem_append_right _ (List.mem_singleton.mpr rfl)
    rcases after_cases config cache calls call with
      ⟨_,hsame⟩ | ⟨_,hfailed⟩ | ⟨hstores,gasPrice,congestion,hstored⟩
    · rw [hsame]
      exact ⟨hkept,fun now hbefore =>
        hclock now fun a ha => hbefore a (List.mem_append_left _ ha)⟩
    · rw [hfailed]
      exact ⟨prepared_kept hkept hnow,fun now hbefore => hbefore call hmem⟩
    · rw [hstored]
      exact ⟨sampled_kept hkept hnow hstores gasPrice congestion,
        fun now hbefore => hbefore call hmem⟩

theorem before_last {calls : List HistoryUpdate} {cache : GasPriceCache} {call : HistoryUpdate}
    (h : Timely (calls++[call])) : Kept config (after config cache calls) ∧
      (after config cache calls).lastUpdate ≤ call.now := by
  obtain ⟨hcalls,hlast⟩ := timely_append.mp h
  obtain ⟨hkept,hclock⟩ := after_kept config cache calls hcalls
  exact ⟨hkept,hclock call.now hlast⟩

theorem after_fails {calls : List HistoryUpdate} {cache : GasPriceCache} {call : HistoryUpdate}
    (h : (after config cache calls).Fails call) :
    after config cache (calls++[call]) = (after config cache calls).prepared call.now := by
  rcases after_cases config cache calls call with
    ⟨hsuppressed,_⟩ | ⟨_,hfailed⟩ | ⟨⟨_,_,hprice⟩,_⟩
  · exact absurd hsuppressed (by rw [h.1]; exact Bool.false_ne_true)
  · exact hfailed
  · obtain ⟨_,e,he⟩ := h
    rw [he] at hprice
    cases hprice

theorem after_stores {calls : List HistoryUpdate} {cache : GasPriceCache} {call : HistoryUpdate}
    (h : (after config cache calls).Stores call) :
    ∃ gasPrice congestion, after config cache (calls++[call]) =
      { ((after config cache calls).prepared call.now).sampled call gasPrice with
        networkCongestion := congestion } := by
  rcases after_cases config cache calls call with ⟨hsuppressed,_⟩ | ⟨⟨_,e,he⟩,_⟩ | ⟨_,hstored⟩
  · exact absurd hsuppressed (by rw [h.1]; exact Bool.false_ne_true)
  · obtain ⟨_,gasPrice,hprice⟩ := h
    rw [he] at hprice
    cases hprice
  · exact hstored

/-- A call that failed suppresses the next exactly when that comes too soon. -/
theorem failed_leaves_no_trace {calls : List HistoryUpdate} {cache : GasPriceCache}
    {call call' : HistoryUpdate} (htimely : Timely (calls++[call]))
    (hfails : (after config cache calls).Fails call) (hnext : call.now ≤ call'.now) :
    ((after config cache (calls++[call])).suppressed call'.now = true →
      (after config cache calls).suppressed call'.now = true) ↔
    call.now.toNat+config.sampleInterval.toNat ≤ call'.now.toNat := by
  obtain ⟨hkept,hnow⟩ := before_last htimely
  have hwithout : (after config cache calls).suppressed call'.now = false := by
    have hinterval := interval_of_not_suppressed hnow hfails.1
    have hle := UInt64.le_trans hnow hnext
    rw [suppressed,decide_eq_false_iff_not,UInt64.not_lt,UInt64.le_iff_toNat_le,
      UInt64.toNat_sub_of_le _ _ hle]
    have := UInt64.le_iff_toNat_le.mp hnext
    omega
  have hwith : ((after config cache calls).prepared call.now).suppressed call'.now = true ↔
      call'.now.toNat-call.now.toNat < config.sampleInterval.toNat := by
    change decide (call'.now-call.now < (after config cache calls).config.sampleInterval) = true ↔ _
    rw [decide_eq_true_iff,UInt64.lt_iff_toNat_lt,UInt64.toNat_sub_of_le _ _ hnext,hkept.config]
  rw [after_fails hfails,hwithout,hwith]
  have := UInt64.le_iff_toNat_le.mp hnext
  constructor
  · intro h
    by_contra hsoon
    exact Bool.false_ne_true (h (by omega))
  · intro h hsoon
    omega

/-- In every run of calls at times that do not decrease the histories are in
order, a stored sample leaves them inside the window, and failed calls leave no
trace exactly when each is followed by a pause of one interval. -/
theorem historiesKept_iff (config : GasOptimizerConfig) (cache : GasPriceCache)
    (calls : List HistoryUpdate) (h : Timely calls) :
    HistoriesKept config cache calls ↔ RetriesLate config cache calls := by
  have hbefore {before rest : List HistoryUpdate} (hsplit : calls = before++rest) :
      Timely before := by
    rw [hsplit] at h
    exact (List.pairwise_append.mp h).1
  have hsplit_one {before rest : List HistoryUpdate} {call : HistoryUpdate}
      (hsplit : calls = before++call::rest) : calls = (before++[call])++rest := by
    rw [hsplit,List.append_assoc,List.singleton_append]
  have hpause {before rest : List HistoryUpdate} {call call' : HistoryUpdate}
      (hsplit : calls = before++call::call'::rest)
      (hfails : (after config cache before).Fails call) :
      ((after config cache (before++[call])).suppressed call'.now = true →
        (after config cache before).suppressed call'.now = true) ↔
      call.now.toNat+config.sampleInterval.toNat ≤ call'.now.toNat := by
    have hnext : call.now ≤ call'.now := by
      rw [hsplit] at h
      exact (List.pairwise_cons.mp (List.pairwise_append.mp h).2.1).1 call' List.mem_cons_self
    exact failed_leaves_no_trace (hbefore (hsplit_one hsplit)) hfails hnext
  constructor
  · intro hkept before call call' rest hsplit hfails
    exact (hpause hsplit hfails).mp (hkept.noTrace before call call' rest hsplit hfails)
  · intro hlate
    refine ⟨fun before rest hsplit => ?_,fun before call rest hsplit hstores => ?_,
      fun before call call' rest hsplit hfails =>
        (hpause hsplit hfails).mpr (hlate before call call' rest hsplit hfails)⟩
    · exact (after_kept config cache before (hbefore hsplit)).1.inOrder
    · obtain ⟨hkept,hnow⟩ := before_last (hbefore (hsplit_one hsplit))
      obtain ⟨gasPrice,congestion,hstored⟩ := after_stores hstores
      rw [hstored]
      exact sampled_inWindow hkept hnow gasPrice congestion

def failedThenSoon : List HistoryUpdate :=
  [⟨1000,.error "timeout",.ok none,1000⟩,⟨1010,.ok 30000000000,.ok none,1010⟩]

theorem failedThenSoon_not_kept :
    ¬HistoriesKept defaultConfig (fun _ => none) failedThenSoon := by
  intro h
  have hsuppressed := h.noTrace [] _ _ [] rfl ⟨rfl,"timeout",rfl⟩ rfl
  exact Bool.false_ne_true hsuppressed

theorem failedThenSoon_iff : HistoriesKept defaultConfig (fun _ => none) failedThenSoon ↔
    RetriesLate defaultConfig (fun _ => none) failedThenSoon :=
  historiesKept_iff _ _ _ (by unfold Timely; decide)

end GasOptimizer

end DiamondBot.Trade
