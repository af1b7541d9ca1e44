import Lolipay.Ledger.Traps
import Lolipay.Escrow.Custody

namespace Lolipay.Escrow.Traps

open Lolipay.Ledger
open Lolipay.Ledger.Calls Lolipay.Ledger.Storage Lolipay.Ledger.Invocation Lolipay.Ledger.Runs
open Lolipay.Ledger.Traps
open Lolipay.Escrow.Types Lolipay.Escrow.Contract Lolipay.Escrow.System Lolipay.Escrow.Payout
open Lolipay.Escrow.Transitions Lolipay.Escrow.Effects Lolipay.Escrow.Invariant Lolipay.Escrow.Custody

/-- Amounts whose products with a rate stay in the range of `i128`. -/
def I128Safe (amount : ℤ) : Prop := -i128Limit ≤ amount * 10000 ∧ amount * 10000 < i128Limit

section

variable {amount : ℤ} {platformBps lpBps : ℕ}

theorem mul_rate_bounds (h : I128Safe amount) {bps : ℕ} (hb : bps ≤ 10000) :
    -i128Limit ≤ amount * bps ∧ amount * bps < i128Limit := by
  obtain ⟨hlow, hhigh⟩ := h
  have hlimit : (0 : ℤ) < i128Limit := by decide
  obtain hneg | hpos := lt_or_ge amount 0
  · have hle : amount * 10000 ≤ amount * bps :=
      Int.mul_le_mul_of_nonpos_left hneg.le (by omega)
    have hnonpos : amount * bps ≤ 0 := Int.mul_nonpos_of_nonpos_of_nonneg hneg.le (by omega)
    omega
  · have hle : amount * bps ≤ amount * 10000 := Int.mul_le_mul_of_nonneg_left (by omega) hpos
    have hnonneg : 0 ≤ amount * bps := Int.mul_nonneg hpos (by omega)
    omega

theorem fees_within (hb : platformBps + lpBps ≤ 10000) (hpos : 0 ≤ amount) :
    0 ≤ feeOf amount platformBps ∧ 0 ≤ feeOf amount lpBps ∧
      feeOf amount platformBps + feeOf amount lpBps ≤ amount := by
  have hp := feeOf_le hpos platformBps
  have hl := feeOf_le hpos lpBps
  have hsum : amount * (platformBps + lpBps : ℤ) ≤ amount * 10000 :=
    Int.mul_le_mul_of_nonneg_left (by omega) hpos
  rw [Int.mul_add] at hsum
  refine ⟨feeOf_nonneg hpos _, feeOf_nonneg hpos _, ?_⟩
  omega

theorem feeOf_neg (amount : ℤ) (bps : ℕ) : feeOf (-amount) bps = -feeOf amount bps := by
  rw [feeOf, feeOf, Int.neg_mul, Int.neg_tdiv]

theorem rest_bounds (h : I128Safe amount) (hb : platformBps + lpBps ≤ 10000) :
    (-i128Limit ≤ amount - feeOf amount platformBps ∧
      amount - feeOf amount platformBps < i128Limit) ∧
    (-i128Limit ≤ amount - feeOf amount platformBps - feeOf amount lpBps ∧
      amount - feeOf amount platformBps - feeOf amount lpBps < i128Limit) := by
  obtain ⟨hlow, hhigh⟩ := h
  have hlimit : (0 : ℤ) < i128Limit := by decide
  obtain hpos | hneg := le_total 0 amount
  · obtain ⟨hp, hl, hsum⟩ := fees_within hb hpos
    omega
  · obtain ⟨hp, hl, hsum⟩ := fees_within hb (Int.neg_nonneg_of_nonpos hneg)
    rw [feeOf_neg] at hp hl hsum
    rw [feeOf_neg] at hsum
    omega

/-- The split of an amount in range is the exact one. -/
theorem splitFees_of_safe (h : I128Safe amount) (hb : platformBps + lpBps < 10000) :
    splitFees amount platformBps lpBps = .ok ⟨feeOf amount platformBps, feeOf amount lpBps,
      amount - feeOf amount platformBps - feeOf amount lpBps⟩ := by
  obtain ⟨hrest, hnet⟩ := rest_bounds h hb.le
  simp only [splitFees, mulI128, subI128, bind_eq_ok, checkI128_eq_ok]
  exact ⟨_, ⟨mul_rate_bounds h (by omega), rfl⟩, _, ⟨mul_rate_bounds h (by omega), rfl⟩, _,
    ⟨hrest, rfl⟩, _, ⟨hnet, rfl⟩, rfl⟩

end

def timeLimit : ℕ := 2 ^ 64 - 2 ^ 33

def tokenLimit : ℤ := 2 ^ 63

variable {self : Address} {cfg cfg₀ : Config} {env : Env} {h : EscrowHost} {id : TradeId} {t : Trade}
  {start : ℕ} {w w₀ : World} {a : Action} {tr : History}

/-- The times and the amount of a stored trade are small enough for every sum
that is ever formed with them. -/
structure Fits (env : Env) (t : Trade) : Prop where
  amount_pos : 0 < t.usdcAmount
  amount_lt : t.usdcAmount < tokenLimit
  fees_lt : t.platformFeeBps + t.lpFeeBps < 10000
  pay_le : t.payDeadline ≤ env.timestamp + maxPayWindow
  post_le : t.postSettleDeadline ≤ env.timestamp + maxDisputeWindow
  window_le : t.disputeWindow ≤ maxDisputeWindow

theorem Sound.fits (hs : Sound cfg₀ start w.now t) (hnow : w.now ≤ env.timestamp)
    (hamount : t.usdcAmount < tokenLimit) : Fits env t := by
  have hwindow := hs.terms.window_le
  refine ⟨hs.terms.amount_pos, hamount, hs.terms.fees_lt, ?_, ?_, hwindow⟩
  · have hpay := hs.terms.pay_le
    have hcreated := hs.terms.created_le
    omega
  · cases hset : settlement t with
    | none =>
      rw [(hs.held hset).postSettle]
      exact Nat.zero_le _
    | some d =>
      have hrec := hs.settled d hset
      have hat := hrec.settledAt_le
      rw [hrec.postSettle]
      omega

theorem safe_of_lt {amount : ℤ} (hpos : 0 < amount) (hlt : amount < tokenLimit) : I128Safe amount := by
  simp only [I128Safe, i128Limit, tokenLimit] at *
  omega

theorem Fits.split (hf : Fits env t) :
    splitFees t.usdcAmount t.platformFeeBps t.lpFeeBps = .ok (feesOf t.toTerms) :=
  splitFees_of_safe (safe_of_lt hf.amount_pos hf.amount_lt) hf.fees_lt

theorem gracedDeadline_noTrap (hf : Fits env t) (htime : env.timestamp < timeLimit) :
    NoTrap (gracedDeadline t.toTerms) := by
  have hpay := hf.pay_le
  simp only [gracedDeadline, noTrap_bind, noTrap_addU64, noTrap_ok, implies_true, and_true]
  simp only [timeLimit, maxPayWindow, attestGraceSecs, u64Limit] at *
  omega

theorem payFee_noTrap (env : Env) (h : EscrowHost) (u : Transfer) : NoTrap (payFee env h u) := by
  rw [payFee]
  split
  next => exact noTrap_transfer env h u
  next => exact noTrap_ok h

theorem settleTime_fits (hf : Fits env t) (htime : env.timestamp < timeLimit) :
    env.timestamp + t.disputeWindow < u64Limit := by
  have hwindow := hf.window_le
  simp only [timeLimit, maxDisputeWindow, u64Limit] at *
  omega

theorem payRelease_noTrap (hf : Fits env t) (htime : env.timestamp < timeLimit) :
    NoTrap (payRelease env h id t) := by
  simp only [payRelease, noTrap_bind, noTrap_addU64, payFee_noTrap, noTrap_transfer, noTrap_ok,
    implies_true, and_true, hf.split]
  exact ⟨trivial, fun _ _ => settleTime_fits hf htime⟩

theorem doRefund_noTrap (hf : Fits env t) (htime : env.timestamp < timeLimit) :
    NoTrap (doRefund env h id t) := by
  simp only [doRefund, noTrap_bind, noTrap_addU64, noTrap_transfer, noTrap_ok, implies_true, and_true]
  exact settleTime_fits hf htime

theorem Fits.recorded (hf : Fits env t) (prior : Option Status) :
    Fits env (t.setPreDisputeStatus prior) := by
  obtain ⟨hpos, hlt, hfees, hpay, hpost, hwindow⟩ := hf
  cases prior <;> exact ⟨hpos, hlt, hfees, hpay, hpost, hwindow⟩

variable (hall : ∀ t, h.storage.trades.lookup id = some t → Fits env t)
  (htime : env.timestamp < timeLimit)

include htime in
/-- No check of `create_trade` bounds the arguments before the sums are formed, and none needs to:
the sums are of the ledger's time and constants. -/
theorem createTrade_noTrap (args : CreateArgs) : NoTrap (createTrade env h id args) := by
  have hsum (secs : ℕ) (hs : secs ≤ maxTotalWindow) : env.timestamp + secs < u64Limit := by
    simp only [timeLimit, maxTotalWindow, u64Limit] at *
    omega
  simp only [createTrade, rejectOperator, getConfig, noTrap_bind, noTrap_okOr, noTrap_rejectIf,
    noTrap_addU64, noTrap_requireAuth, noTrap_transfer, noTrap_ok, hsum minPayWindow (by decide),
    hsum maxPayWindow (by decide), hsum maxTotalWindow le_rfl, implies_true, and_true]

include hall htime

theorem markFiatPaid_noTrap (caller : Address) : NoTrap (markFiatPaid env h id caller) := by
  simp only [markFiatPaid, markDeadline, getConfig, getTrade, storageGetTrade, noTrap_bind, noTrap_okOr,
    noTrap_rejectIf, noTrap_requireAuth, noTrap_ok, implies_true, true_and, and_true, okOr_eq_ok]
  intro cfg hcfg t ht _ _
  split
  next =>
    simp only [noTrap_bind, noTrap_rejectIf, true_and]
    exact fun _ _ => gracedDeadline_noTrap (hall t ht) htime
  next =>
    split
    next => exact noTrap_ok _
    next => exact noTrap_error _

theorem releaseFromFunded_noTrap : NoTrap (releaseFromFunded env h id) := by
  simp only [releaseFromFunded, getConfig, getTrade, storageGetTrade, noTrap_bind, noTrap_okOr,
    noTrap_rejectIf, noTrap_requireAuth, noTrap_ok, implies_true, true_and, and_true, okOr_eq_ok]
  intro cfg hcfg t ht _ _ _ _ _ _ _ _
  exact ⟨gracedDeadline_noTrap (hall t ht) htime, fun _ _ _ _ _ _ _ _ =>
    payRelease_noTrap (hall t ht) htime⟩

theorem confirmAndRelease_noTrap : NoTrap (confirmAndRelease env h id) := by
  simp only [confirmAndRelease, getConfig, getTrade, storageGetTrade, noTrap_bind, noTrap_okOr,
    noTrap_rejectIf, noTrap_requireAuth, noTrap_ok, implies_true, true_and, and_true, okOr_eq_ok]
  intro cfg hcfg t ht _ _ _ _
  exact payRelease_noTrap (hall t ht) htime

theorem refund_noTrap : NoTrap (refund env h id) := by
  simp only [refund, refundOpensAt, getConfig, getTrade, storageGetTrade, noTrap_bind, noTrap_okOr,
    noTrap_rejectIf, true_and, okOr_eq_ok]
  intro cfg hcfg t ht _ _
  refine ⟨?_, fun _ _ _ _ => doRefund_noTrap (hall t ht) htime⟩
  split
  next => exact gracedDeadline_noTrap (hall t ht) htime
  next => exact noTrap_ok _

theorem cancel_noTrap : NoTrap (cancel env h id) := by
  simp only [cancel, getConfig, getTrade, storageGetTrade, noTrap_bind, noTrap_okOr, noTrap_rejectIf,
    noTrap_requireAuth, true_and, okOr_eq_ok]
  intro cfg hcfg t ht _ _ _ _ _ _
  exact doRefund_noTrap (hall t ht) htime

omit hall in
theorem raiseDispute_noTrap (raiser : Address) : NoTrap (raiseDispute env h id raiser) := by
  have hprior (cfg : Config) (t : Trade) : NoTrap (priorStatus cfg t raiser env.timestamp) := by
    rw [priorStatus]
    cases t.status with
    | fiatPaid => exact noTrap_ok _
    | disputed => exact noTrap_error _
    | funded | released | refunded =>
      simp only [noTrap_bind, noTrap_rejectIf, noTrap_ok, implies_true, and_true]
  simp only [raiseDispute, getConfig, getTrade, storageGetTrade, noTrap_bind, noTrap_okOr,
    noTrap_rejectIf, noTrap_requireAuth, noTrap_addU64, noTrap_ok, hprior, implies_true, true_and,
    and_true]
  intros
  simp only [timeLimit, resolverWindow, u64Limit] at *
  omega

omit hall in
theorem verdict_noTrap {t : Trade} (hf : Fits env t) (prior : Status) (outcome : ResolveOutcome) :
    NoTrap (verdict t prior outcome env.timestamp) := by
  have hpost := hf.post_le
  rw [verdict]
  split
  next => exact noTrap_ok _
  next =>
    simp only [noTrap_bind, noTrap_addU64, addU64_eq_ok, noTrap_ok, implies_true, and_true]
    simp only [timeLimit, maxDisputeWindow, resolverWindow, postVerdictGrace, u64Limit] at *
    refine ⟨by omega, ?_⟩
    rintro _ ⟨-, rfl⟩
    exact ⟨by omega, fun _ _ => by omega⟩

omit hall in
theorem settleResolved_noTrap {t : Trade} (hf : Fits env t) (outcome : ResolveOutcome) :
    NoTrap (settleResolved env h id t outcome) := by
  cases outcome with
  | refund =>
    simp only [settleResolved, noTrap_bind, noTrap_ok, implies_true, and_true]
    exact doRefund_noTrap hf htime
  | release =>
    simp only [settleResolved, noTrap_bind, noTrap_ok, implies_true, and_true]
    exact payRelease_noTrap hf htime

theorem resolve_noTrap (outcome : ResolveOutcome) (caller : Address) :
    NoTrap (resolve env h id outcome caller) := by
  have hsign (cfg : Config) (unwind : Bool) : NoTrap (attestorCoSigns env cfg unwind) := by
    rw [attestorCoSigns]
    split
    next => exact noTrap_ok ()
    next => exact noTrap_requireAuth env _
  simp only [resolve, getConfig, getTrade, storageGetTrade, noTrap_bind, noTrap_okOr, noTrap_rejectIf,
    noTrap_requireAuth, true_and, okOr_eq_ok]
  intro cfg hcfg t ht _ _ _ _ _ _ _ _
  have hf := hall t ht
  split
  next =>
    simp only [noTrap_bind, hsign, true_and]
    exact fun _ _ => settleResolved_noTrap htime (hf.recorded none) outcome
  next =>
    simp only [noTrap_bind, noTrap_ok, implies_true, and_true]
    exact verdict_noTrap htime hf _ outcome
  next => exact settleResolved_noTrap htime hf outcome

omit hall in
theorem exec_noTrap (hall : ∀ id t, h.storage.trades.lookup id = some t → Fits env t) (op : Op) :
    NoTrap (exec env h op) := by
  cases op with
  | createTrade id args => exact createTrade_noTrap htime args
  | markFiatPaid id caller => exact markFiatPaid_noTrap (hall id) htime caller
  | releaseFromFunded id => exact releaseFromFunded_noTrap (hall id) htime
  | confirmAndRelease id => exact confirmAndRelease_noTrap (hall id) htime
  | refund id => exact refund_noTrap (hall id) htime
  | cancel id => exact cancel_noTrap (hall id) htime
  | raiseDispute id raiser => exact raiseDispute_noTrap htime raiser
  | resolve id outcome caller => exact resolve_noTrap (hall id) htime outcome caller
  | setConfig c =>
    simp only [exec, setConfig, getConfig, noTrap_bind, noTrap_okOr, noTrap_rejectIf,
      noTrap_requireAuth, noTrap_ok, implies_true, and_true]
  | setPaused p =>
    simp only [exec, setPaused, getConfig, noTrap_bind, noTrap_okOr, noTrap_requireAuth, noTrap_ok,
      implies_true, and_true]

omit hall htime

def Modest (b : Balances) : Prop := ∀ token holder, b token holder < tokenLimit

/-- Amounts are bounded by nothing but the transfer that funds them. -/
def Sized (w : World) : Prop := ∀ id t, w.trade id = some t → t.usdcAmount < tokenLimit

theorem owed_nonneg (hi : Coherent cfg₀ start w) (id : TradeId) :
    0 ≤ measureAt owed w.contents.trades id := by
  rw [measureAt]
  cases ht : w.contents.trades.lookup id with
  | none => exact le_rfl
  | some t =>
    have hpos := (hi.trades id t ht).terms.amount_pos
    show 0 ≤ owed t
    rw [owed]
    split <;> omega

theorem held_lt (hi : Coherent cfg₀ start w) (hs : Solvent self cfg₀.usdcToken w)
    (hb : Modest w.balances) (ht : w.trade id = some t) (hheld : principalHeld t = true) :
    t.usdcAmount < tokenLimit := by
  have hle := measureAt_le_total (owed_nonneg hi) id
  rw [measureAt_of_lookup ht, owed, if_pos hheld] at hle
  exact lt_of_le_of_lt (hle.trans hs) (hb _ _)

theorem Sized.step (hi : Coherent cfg₀ start w) (hs : Solvent self cfg₀.usdcToken w)
    (ha : admits self w a) (hb : Modest (next w a).balances) (h : Sized w) : Sized (next w a) := by
  intro id t ht
  cases trade_step ha id with
  | same hsame =>
    rw [hsame] at ht
    exact h id t ht
  | moved hact hself hcfg hlook hm hmoved =>
    obtain rfl := Option.some.inj (ht.symm.trans hmoved)
    rw [moves_toTerms hm]
    exact h id _ hlook
  | opened hact hself hcfg ho hnew hopen =>
    have hheld : principalHeld t = true := by
      rw [Option.some.inj (ht.symm.trans hopen)]
      rfl
    exact held_lt (hi.step ha) (step_solvent hi ha hs) hb ht hheld

theorem Sized.of_run (hd : Deployed self cfg₀ w₀) (hr : Run (machine self) w₀ tr w)
    (hb : ∀ e ∈ tr, Modest e.post.balances) : Sized w := by
  induction hr with
  | nil =>
    intro id t ht
    cases (trade_none_of_deployed hd).symm.trans ht
  | @snoc tr u hr a ha ih =>
    have hprev := ih fun e he => hb e (List.mem_append_left _ he)
    exact hprev.step ((Coherent.deployed hd).run hr) (run_solvent hd hr) ha
      (hb ((machine self).entry u a) (by simp))

end Lolipay.Escrow.Traps
