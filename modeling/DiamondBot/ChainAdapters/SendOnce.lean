import DiamondBot.ChainAdapters.SendRetry
import DiamondBot.ChainAdapters.NonceUniqueness

/-!
# One call, one nonce

Two transactions of one nonce cannot both be mined. A retry asks the manager
for a nonce again, and the manager answers with a new one unless its counter
has gone back to the chain since. A call whose first transaction is still
alive is therefore safe only when no later attempt of it is accepted, or when
the counter was loaded again and has come to the same nonce.
-/

set_option autoImplicit false

namespace DiamondBot.SendRetry
open Library NonceManager

/-- All transactions accepted for the call carry the same nonce. -/
def Sender.OneNonce (s : Sender) : Prop :=
  ∀ t ∈ s.broadcast, ∀ t' ∈ s.broadcast, t.nonce = t'.nonce

structure Watch where
  sender : Sender
  found : NonceManager.System
  sinceTaken : Bool
  sinceAccepted : Bool

namespace Watch

def start (nonces : NonceManager.System) (wallet : Option Address) (defaultGasPrice : ℕ)
    (request : Request) : Watch where
  sender := {
    nonces, wallet, defaultGasPrice, request
    retry := Retry.start none 0
    phase := .idle
    broadcast := [] }
  found := nonces
  sinceTaken := false
  sinceAccepted := false

def reloads (s : Sender) (a : Action) : Bool :=
  (s.nonceAction a).any fun b => ¬s.nonces.Kept s.walletAddress b

def next (w : Watch) (a : Action) : Watch :=
  match a,w.sender.phase with
  | .nonce _,.asking => {
      sender := w.sender.next a
      found := w.sender.nonces
      sinceTaken := false
      sinceAccepted := w.sinceAccepted || reloads w.sender a }
  | .send none,.sending _ => { w with
      sender := w.sender.next a
      sinceAccepted := w.sinceTaken }
  | _,_ => { w with
      sender := w.sender.next a
      sinceTaken := w.sinceTaken || reloads w.sender a
      sinceAccepted := w.sinceAccepted || reloads w.sender a }

def OneNonce (w : Watch) : Prop := w.sender.OneNonce

/-- A transaction is accepted after another one of the same call only if the
counter has been loaded again since the other took its nonce and the manager
then offered that nonce: from the cache, or as the count when nothing usable
was cached. -/
def Reoffered (w : Watch) : Action → Prop
  | .send none => ∀ tx t n, w.sender.phase = .sending tx → w.sender.broadcast.getLast? = some t →
      t.nonce = some n → w.sinceAccepted = true ∧
        w.found.manager.Offers w.found.now w.sender.walletAddress
          (w.found.mined w.sender.walletAddress) n
  | _ => True

/-! ## What is remembered of the attempts -/

def Latest (s : Sender) (n : ℕ) : Prop :=
  ∃ t, s.broadcast.getLast? = some t ∧ t.nonce = some n

def Above (s : Sender) (n : ℕ) : Prop :=
  ∃ v, s.nonces.manager.nonces.lookup s.walletAddress = some v ∧ n < v

structure Remembered (w : Watch) : Prop where
  numbered : ∀ t ∈ w.sender.broadcast, ∃ n, t.nonce = some n
  sending : ∀ tx, w.sender.phase = .sending tx → ∃ n, tx.nonce = some n ∧
    w.found.manager.Offers w.found.now w.sender.walletAddress
      (w.found.mined w.sender.walletAddress) n ∧
    (w.sinceTaken = false → Above w.sender n) ∧
    (w.sinceAccepted = false → ∀ m, Latest w.sender m → m < n)
  accepted : w.sinceAccepted = false → ∀ n, Latest w.sender n → Above w.sender n

theorem next_walletAddress (s : Sender) (a : Action) :
    (s.next a).walletAddress = s.walletAddress := by
  have hmoves := s.next_moves a
  generalize s.next a = s' at hmoves
  cases hmoves <;> rfl

theorem above_next {s : Sender} {a : Action} {n : ℕ} (hkept : reloads s a = false)
    (h : Above s n) : Above (s.next a) n := by
  obtain ⟨v,hv,hn⟩ := h
  unfold Above
  rw [next_walletAddress,s.next_nonces]
  unfold reloads at hkept
  cases haction : s.nonceAction a with
  | none => exact ⟨v,hv,hn⟩
  | some b =>
    rw [haction] at hkept
    have hb : s.nonces.Kept s.walletAddress b := by simpa using hkept
    obtain ⟨v',hv',hle⟩ := System.next_kept hv hb
    exact ⟨v',hv',by omega⟩

theorem next_other {w : Watch} {a : Action}
    (htakes : ∀ failure, a = .nonce failure → w.sender.phase ≠ .asking)
    (haccepts : ∀ tx, a = .send none → w.sender.phase ≠ .sending tx) :
    w.next a = { w with
      sender := w.sender.next a
      sinceTaken := w.sinceTaken || reloads w.sender a
      sinceAccepted := w.sinceAccepted || reloads w.sender a } := by
  unfold next
  split
  · rename_i failure hphase
    exact absurd hphase (htakes failure rfl)
  · rename_i tx hphase
    exact absurd hphase (haccepts tx rfl)
  · rfl

/-- A step that neither takes a nonce nor has a transaction accepted. -/
theorem remembered_other {w : Watch} {a : Action} (h : w.Remembered)
    (htakes : ∀ failure, a = .nonce failure → w.sender.phase ≠ .asking)
    (haccepts : ∀ tx, a = .send none → w.sender.phase ≠ .sending tx)
    (hbroadcast : (w.sender.next a).broadcast = w.sender.broadcast ∨
      (w.sender.next a).broadcast = [])
    (hphase : ∀ tx, (w.sender.next a).phase = .sending tx → w.sender.phase = .sending tx) :
    (w.next a).Remembered := by
  have hlatest : ∀ n, Latest (w.sender.next a) n → Latest w.sender n := by
    rintro n ⟨t,ht,hn⟩
    rcases hbroadcast with hb | hb
    · exact ⟨t,by rwa [hb] at ht,hn⟩
    · rw [hb] at ht
      cases ht
  rw [next_other htakes haccepts]
  refine ⟨fun t ht => ?_,fun tx htx => ?_,fun hsince n hn => ?_⟩
  · rcases hbroadcast with hb | hb
    · exact h.numbered t (hb ▸ ht)
    · exact nomatch (hb ▸ ht : t ∈ [])
  · obtain ⟨n,hn,hoffers,htaken,haccepted⟩ := h.sending tx (hphase tx htx)
    rw [next_walletAddress]
    refine ⟨n,hn,hoffers,fun hsince => ?_,fun hsince m hm => ?_⟩
    · obtain ⟨hold,hkept⟩ := Bool.or_eq_false_iff.mp hsince
      exact above_next hkept (htaken hold)
    · exact haccepted (Bool.or_eq_false_iff.mp hsince).1 m (hlatest m hm)
  · obtain ⟨hold,hkept⟩ := Bool.or_eq_false_iff.mp hsince
    exact above_next hkept (h.accepted hold n (hlatest n hn))

theorem taken_above {s : Sender} {s' : NonceManager.System} {failure : Option String} {m n : ℕ}
    (hphase : s.phase = .asking)
    (h : s.nonces.Asked s.walletAddress failure (.ok n) s')
    (hkept : reloads s (.nonce failure) = false) (hm : Above s m) : m < n := by
  obtain ⟨v,hv,hlt⟩ := hm
  cases h with
  | fromCache _ hcached _ =>
    rw [cached_some hcached] at hv
    cases hv
    exact hlt
  | fromChain habsent hanswered _ =>
    subst hanswered
    have hb : s.nonces.Kept s.walletAddress (.getNextNonce s.walletAddress none) := by
      simpa [reloads,Sender.nonceAction,hphase] using hkept
    exact absurd habsent (hb rfl)

theorem next_nonce {w : Watch} (failure : Option String) (h : w.sender.phase = .asking) :
    w.next (.nonce failure) = {
      sender := w.sender.next (.nonce failure)
      found := w.sender.nonces
      sinceTaken := false
      sinceAccepted := w.sinceAccepted || reloads w.sender (.nonce failure) } := by
  simp only [next,h]

theorem next_accepted {w : Watch} {tx : TypedTransaction} (h : w.sender.phase = .sending tx) :
    w.next (.send none) = { w with
      sender := { w.sender with broadcast := w.sender.broadcast++[tx], phase := .waiting tx }
      sinceAccepted := w.sinceTaken } := by
  simp only [next,h,Sender.next,Sender.sent]

/-- The attempt asks for its nonce, with or without success. -/
theorem remembered_nonce {w : Watch} {failure : Option String} (h : w.Remembered)
    (hphase : w.sender.phase = .asking)
    (hbroadcast : (w.sender.next (.nonce failure)).broadcast = w.sender.broadcast)
    (hsending : ∀ tx, (w.sender.next (.nonce failure)).phase = .sending tx →
      ∃ n, tx.nonce = some n ∧ w.sender.nonces.Asked w.sender.walletAddress failure (.ok n)
        (w.sender.next (.nonce failure)).nonces) :
    (w.next (.nonce failure)).Remembered := by
  have hlatest : ∀ n, Latest (w.sender.next (.nonce failure)) n → Latest w.sender n := by
    rintro n ⟨t,ht,hn⟩
    exact ⟨t,by rwa [hbroadcast] at ht,hn⟩
  rw [next_nonce failure hphase]
  refine ⟨fun t ht => h.numbered t (hbroadcast ▸ ht),fun tx htx => ?_,fun hsince n hn => ?_⟩
  · obtain ⟨n,hn,hasked⟩ := hsending tx htx
    rw [next_walletAddress]
    refine ⟨n,hn,System.asked_offers hasked,fun _ => ?_,fun hsince m hm => ?_⟩
    · refine ⟨n+1,?_,by omega⟩
      rw [next_walletAddress]
      exact System.asked_next hasked
    · obtain ⟨hold,hkept⟩ := Bool.or_eq_false_iff.mp hsince
      exact taken_above hphase hasked hkept (h.accepted hold m (hlatest m hm))
  · obtain ⟨hold,hkept⟩ := Bool.or_eq_false_iff.mp hsince
    exact above_next hkept (h.accepted hold n (hlatest n hn))

theorem remembered_accepted {w : Watch} {tx : TypedTransaction} (h : w.Remembered)
    (hphase : w.sender.phase = .sending tx) : (w.next (.send none)).Remembered := by
  obtain ⟨n,hn,_,htaken,_⟩ := h.sending tx hphase
  rw [next_accepted hphase]
  refine ⟨fun t ht => ?_,fun _ htx => (nomatch htx),fun hsince m hm => ?_⟩
  · rcases List.mem_append.mp ht with ht | ht
    · exact h.numbered t ht
    · rw [List.mem_singleton.mp ht]
      exact ⟨n,hn⟩
  · obtain ⟨t,ht,hm⟩ := hm
    rw [List.getLast?_concat] at ht
    cases ht
    cases hn.symm.trans hm
    exact htaken hsince

theorem remembered_quiet {w : Watch} {a : Action} (h : w.Remembered)
    (htakes : ∀ failure, a ≠ .nonce failure) (haccepts : a ≠ .send none)
    (hbroadcast : (w.sender.next a).broadcast = w.sender.broadcast ∨
      (w.sender.next a).broadcast = [])
    (hphase : ∀ tx, (w.sender.next a).phase = .sending tx → w.sender.phase = .sending tx) :
    (w.next a).Remembered :=
  remembered_other h (fun failure ha => absurd ha (htakes failure))
    (fun _ ha => absurd ha haccepts) hbroadcast hphase

theorem next_remembered (w : Watch) (a : Action) (h : w.Remembered) : (w.next a).Remembered := by
  have hmoves := w.sender.next_moves a
  have hother := remembered_other (a := a) h
  have hquiet := remembered_quiet (a := a) h
  have hresting : ∀ {phase : Phase}, Sender.Resting phase → ∀ tx, phase ≠ .sending tx := by
    rintro _ hr tx rfl
    exact hr
  generalize hs : w.sender.next a = s' at hmoves hother hquiet
  cases hmoves with
  | nonceTaken failure n nonces tx asking answer carries =>
    apply remembered_nonce h asking
    · rw [hs]
    · rw [hs]
      rintro _ ⟨⟩
      exact ⟨n,carries,answer⟩
  | nonceFailed failure e nonces retry phase asking answer resting =>
    apply remembered_nonce h asking
    · rw [hs]
    · rw [hs]
      intro tx htx
      exact absurd htx (hresting resting tx)
  | accepted tx sending => exact remembered_accepted h sending
  | ignored a unasked quiet =>
    apply hother _ _ (Or.inl rfl) (fun _ htx => htx)
    · rintro failure rfl hphase
      simp only [Sender.nonceAction,hphase] at quiet
      cases quiet
    · exact fun tx ha => unasked tx none ha
  | began request retry phase free opened =>
    refine hquiet (by simp) (by simp) (Or.inr rfl) ?_
    rintro tx rfl
    rcases opened with hasking | hphase
    · cases hasking
    · exact absurd rfl (hresting hphase tx)
  | dropped tx errorStr retry phase sending keeps resting =>
    exact hquiet (by simp) (by simp) (Or.inl rfl) fun tx htx => absurd htx (hresting resting tx)
  | reset errorStr failure retry phase resetting resting =>
    exact hquiet (by simp) (by simp) (Or.inl rfl) fun tx htx => absurd htx (hresting resting tx)
  | finished tx answer retry phase waiting resting =>
    exact hquiet (by simp) (by simp) (Or.inl rfl) fun tx htx => absurd htx (hresting resting tx)
  | other b => exact hquiet (by simp) (by simp) (Or.inl rfl) fun tx htx => htx
  | _ =>
    refine hquiet (by simp) (by simp) (Or.inl rfl) ?_
    rintro _ ⟨⟩

/-! ## All runs -/

theorem start_remembered (nonces : NonceManager.System) (wallet : Option Address)
    (defaultGasPrice : ℕ) (request : Request) :
    (start nonces wallet defaultGasPrice request).Remembered := by
  refine ⟨fun _ ht => (nomatch ht),fun _ htx => (nomatch htx),fun _ n hn => ?_⟩
  obtain ⟨t,ht,_⟩ := hn
  cases ht

theorem next_broadcast {s : Sender} {a : Action}
    (h : ∀ tx, a = .send none → s.phase ≠ .sending tx) :
    (s.next a).broadcast = s.broadcast ∨ (s.next a).broadcast = [] := by
  have hmoves := s.next_moves a
  generalize s.next a = s' at hmoves
  cases hmoves with
  | accepted tx sending => exact absurd sending (h tx rfl)
  | began request retry phase free opened => exact Or.inr rfl
  | _ => exact Or.inl rfl

theorem next_sender (w : Watch) (a : Action) : (w.next a).sender = w.sender.next a := by
  unfold next
  split <;> rfl

theorem oneNonce_append {s : Sender} {tx : TypedTransaction} {phase : Phase} (h : s.OneNonce) :
    Sender.OneNonce { s with broadcast := s.broadcast++[tx], phase } ↔
      ∀ t, s.broadcast.getLast? = some t → t.nonce = tx.nonce := by
  constructor
  · intro hone t ht
    exact hone t (List.mem_append_left _ (List.mem_of_getLast? ht)) tx
      (List.mem_append_right _ List.mem_cons_self)
  · intro hlast
    have hall : ∀ t ∈ s.broadcast, t.nonce = tx.nonce := by
      intro t ht
      obtain ⟨t',ht'⟩ := Option.isSome_iff_exists.mp
        (List.getLast?_isSome.mpr (List.ne_nil_of_mem ht))
      rw [h t ht t' (List.mem_of_getLast? ht'),hlast t' ht']
    intro t ht t' ht'
    have hsame : ∀ x ∈ s.broadcast++[tx], x.nonce = tx.nonce := by
      intro x hx
      rcases List.mem_append.mp hx with hx | hx
      · exact hall x hx
      · rw [List.mem_singleton.mp hx]
    rw [hsame t ht,hsame t' ht']

theorem next_oneNonce_iff {w : Watch} {a : Action} (h : w.Remembered) (hone : w.OneNonce) :
    (w.next a).OneNonce ↔ w.Reoffered a := by
  by_cases haccepts : ∃ tx, a = .send none ∧ w.sender.phase = .sending tx
  · obtain ⟨tx,rfl,hphase⟩ := haccepts
    obtain ⟨n,hn,hoffers,_,haccepted⟩ := h.sending tx hphase
    unfold OneNonce
    rw [next_accepted hphase,oneNonce_append hone]
    constructor
    · intro hlast tx' t m htx' ht hm
      cases hphase.symm.trans htx'
      have hmn : m = n := Option.some.inj (hm.symm.trans ((hlast t ht).trans hn))
      subst hmn
      refine ⟨?_,hoffers⟩
      by_contra hsince
      exact lt_irrefl m (haccepted (Bool.eq_false_iff.mpr hsince) m ⟨t,ht,hm⟩)
    · intro hre t ht
      obtain ⟨m,hm⟩ := h.numbered t (List.mem_of_getLast? ht)
      rw [hm,hn,offers_unique (hre tx t m hphase ht hm).2 hoffers]
  · have hother : ∀ tx, a = .send none → w.sender.phase ≠ .sending tx :=
      fun tx ha hphase => haccepts ⟨tx,ha,hphase⟩
    apply iff_of_true
    · unfold OneNonce
      rw [next_sender]
      rcases next_broadcast hother with hb | hb
      · unfold Sender.OneNonce
        rw [hb]
        exact hone
      · intro t ht
        rw [hb] at ht
        cases ht
    · unfold Reoffered
      split
      · exact fun tx _ _ hphase => absurd hphase (hother tx rfl)
      · trivial

/-- In every run of calls, other tasks and the chain, the transactions accepted
for a call carry one nonce exactly when none is accepted after another except
with the counter loaded again and the same nonce offered. -/
theorem sends_once_iff (nonces : NonceManager.System) (wallet : Option Address)
    (defaultGasPrice : ℕ) (request : Request) (actions : List Action) :
    AtomicRun.Throughout next OneNonce actions (start nonces wallet defaultGasPrice request) ↔
      AtomicRun.Along next Reoffered actions (start nonces wallet defaultGasPrice request) := by
  apply AtomicRun.throughout_iff_along next_remembered (fun w a => next_oneNonce_iff)
    (start_remembered nonces wallet defaultGasPrice request)
  intro t ht
  cases ht

def freshWallet : Watch :=
  start (System.start 60 (fun _ => 0) 0) (some System.wallet) 1 transferRequest

def receiptTimedOut : List Action := [
  .call transferRequest,.nonce none,.send none,.receipt (.error "request timeout"),
  .other (.wait (500*10^6)),.wake,.nonce none,.send none]

/-- Both transactions are alive and can be mined one after the other. -/
theorem transfer_sent_twice :
    (AtomicRun.run next receiptTimedOut freshWallet).sender.broadcast.map
      TypedTransaction.nonce = [some 0,some 1] ∧
    ¬AtomicRun.Throughout next OneNonce receiptTimedOut freshWallet := by
  have hnonces : (AtomicRun.run next receiptTimedOut freshWallet).sender.broadcast.map
      TypedTransaction.nonce = [some 0,some 1] := by decide +kernel
  refine ⟨hnonces,fun h => ?_⟩
  have hsame : ∀ x ∈ [some 0,some 1], ∀ y ∈ [some 0,some 1], x = y := by
    rw [← hnonces]
    intro x hx y hy
    obtain ⟨t,ht,rfl⟩ := List.mem_map.mp hx
    obtain ⟨t',ht',rfl⟩ := List.mem_map.mp hy
    exact AtomicRun.throughout_last h t ht t' ht'
  exact absurd (hsame (some 0) (by decide) (some 1) (by decide)) (by decide)

def nonceReset : List Action := [
  .call transferRequest,.nonce none,.send none,.receipt (.error "request timeout"),
  .other (.resetNonce System.wallet none),.other (.wait (500*10^6)),.wake,.nonce none,.send none]

/-- The retry is accepted with the nonce of the first transaction. -/
theorem transfer_sent_again :
    (AtomicRun.run next nonceReset freshWallet).sender.broadcast.map TypedTransaction.nonce =
      [some 0,some 0] ∧ AtomicRun.Throughout next OneNonce nonceReset freshWallet := by
  refine ⟨by decide +kernel,(sends_once_iff _ _ _ _ nonceReset).mpr
    ⟨trivial,trivial,?_,trivial,trivial,trivial,trivial,trivial,?_,trivial⟩⟩
  · rintro tx t n _ ⟨⟩
  · rintro tx t n _ ⟨⟩ ⟨⟩
    exact ⟨by decide +kernel,Or.inl (by decide +kernel)⟩

end Watch

end DiamondBot.SendRetry
