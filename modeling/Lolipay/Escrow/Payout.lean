import Lolipay.Escrow.Contract

namespace Lolipay.Escrow.Payout

open Lolipay.Ledger.Calls Lolipay.Ledger.Storage Lolipay.Ledger.Invocation
open Lolipay.Escrow.Types Lolipay.Escrow.Contract

def feeOf (amount : ℤ) (bps : ℕ) : ℤ := (amount * bps).tdiv 10000

def feesOf (t : Terms) : FeeSplit :=
  ⟨feeOf t.usdcAmount t.platformFeeBps, feeOf t.usdcAmount t.lpFeeBps,
    t.usdcAmount - feeOf t.usdcAmount t.platformFeeBps - feeOf t.usdcAmount t.lpFeeBps⟩

def feeTransfer (t : Transfer) : List Transfer := if t.amount > 0 then [t] else []

/-- The transfers that settle a trade, as a function of its terms and of the direction alone. -/
def payout (self : Address) (t : Terms) : ResolveOutcome → List Transfer
  | .refund => [⟨t.usdcToken, self, t.usdcProvider, t.usdcAmount⟩]
  | .release =>
    feeTransfer ⟨t.usdcToken, self, t.platformWallet, (feesOf t).platformFee⟩ ++
      feeTransfer ⟨t.usdcToken, self, t.lpWallet, (feesOf t).lpFee⟩ ++
      [⟨t.usdcToken, self, t.usdcRecipient, (feesOf t).net⟩]

theorem splitFees_eq (t : Terms) (fees : FeeSplit)
    (h : splitFees t.usdcAmount t.platformFeeBps t.lpFeeBps = .ok fees) : fees = feesOf t := by
  simp only [splitFees, mulI128, subI128, bind_eq_ok, checkI128_eq_ok, Except.ok.injEq] at h
  obtain ⟨p, ⟨-, rfl⟩, l, ⟨-, rfl⟩, r, ⟨-, rfl⟩, n, ⟨-, rfl⟩, rfl⟩ := h
  rfl

theorem payFee_ok {env : Env} {h h' : EscrowHost} {t : Transfer} (hp : payFee env h t = .ok h') :
    h' = h.paid (feeTransfer t) := by
  rw [payFee] at hp
  rw [feeTransfer]
  split at hp
  next ht => simpa [ht] using ((transfer_eq_ok env h h' t).mp hp).2
  next ht =>
    rw [if_neg ht, paid_nil]
    exact (Except.ok.inj hp).symm

theorem payRelease_ok {env : Env} {h h' : EscrowHost} {id : TradeId} {trade : Trade}
    {fees : FeeSplit} (hp : payRelease env h id trade = .ok (h', fees)) :
    fees = feesOf trade.toTerms ∧
      h' = (setTrade h id (trade.settled .released env.timestamp
        (env.timestamp + trade.disputeWindow))).paid
          (payout env.contract trade.toTerms .release) := by
  simp only [payRelease, bind_eq_ok, addU64_eq_ok, transfer_eq_ok, Except.ok.injEq,
    Prod.mk.injEq] at hp
  obtain ⟨f, hf, d, ⟨-, rfl⟩, h₁, hp₁, h₂, hp₂, h₃, ⟨-, rfl⟩, rfl, rfl⟩ := hp
  have hfees := splitFees_eq trade.toTerms f hf
  rw [payFee_ok hp₁] at hp₂
  rw [payFee_ok hp₂, paid_paid, paid_paid, hfees, payout, List.append_assoc]
  exact ⟨rfl, rfl⟩

theorem doRefund_eq_ok (env : Env) (h h' : EscrowHost) (id : TradeId) (trade : Trade) :
    doRefund env h id trade = .ok h' ↔
      env.timestamp + trade.disputeWindow < u64Limit ∧
      (0 ≤ trade.usdcAmount ∧ env.accepts
        ⟨trade.usdcToken, env.contract, trade.usdcProvider, trade.usdcAmount⟩) ∧
      h' = ((setTrade h id (trade.settled .refunded env.timestamp
        (env.timestamp + trade.disputeWindow))).paid
          (payout env.contract trade.toTerms .refund)).publish (.refunded id trade.usdcAmount) := by
  simp only [doRefund, bind_eq_ok, addU64_eq_ok, transfer_eq_ok, Except.ok.injEq]
  constructor
  · rintro ⟨d, ⟨hd, rfl⟩, h₁, ⟨hacc, rfl⟩, rfl⟩
    exact ⟨hd, hacc, rfl⟩
  · rintro ⟨hd, hacc, rfl⟩
    exact ⟨_, ⟨hd, rfl⟩, _, ⟨hacc, rfl⟩, rfl⟩

theorem feeTransfer_amounts (t : Transfer) (h : 0 ≤ t.amount) :
    amounts (feeTransfer t) = t.amount := by
  rw [feeTransfer]
  split
  next => simp [amounts]
  next => simp only [amounts, List.map_nil, List.sum_nil]; omega

theorem mem_feeTransfer {t u : Transfer} (h : u ∈ feeTransfer t) : u = t ∧ 0 < t.amount := by
  rw [feeTransfer] at h
  split at h
  next ht => exact ⟨by simpa using h, ht⟩
  next => simp at h

theorem payout_ne_nil (self : Address) (t : Terms) (d : ResolveOutcome) : payout self t d ≠ [] := by
  cases d <;> simp [payout]

theorem mem_payout {self : Address} {t : Terms} {d : ResolveOutcome} {u : Transfer}
    (hu : u ∈ payout self t d) :
    u.payer = self ∧ u.token = t.usdcToken ∧
      (0 < u.amount ∨ u.amount = t.usdcAmount ∨ u.amount = (feesOf t).net) := by
  cases d with
  | refund =>
    rw [payout, List.mem_singleton] at hu
    subst hu
    exact ⟨rfl, rfl, .inr (.inl rfl)⟩
  | release =>
    simp only [payout, List.mem_append, List.mem_singleton] at hu
    obtain (hu | hu) | hu := hu
    · obtain ⟨rfl, hpos⟩ := mem_feeTransfer hu
      exact ⟨rfl, rfl, .inl hpos⟩
    · obtain ⟨rfl, hpos⟩ := mem_feeTransfer hu
      exact ⟨rfl, rfl, .inl hpos⟩
    · subst hu
      exact ⟨rfl, rfl, .inr (.inr rfl)⟩

theorem outgoing_payout (self : Address) (t : Terms) (d : ResolveOutcome) :
    outgoing self (payout self t d) = payout self t d :=
  List.filter_eq_self.mpr fun u hu => by simpa using (mem_payout hu).1

theorem payout_reaches_recipient (self : Address) {t : Terms} (d : ResolveOutcome)
    (hne : t.usdcProvider ≠ t.usdcRecipient) :
    (∃ u ∈ payout self t d, u.payee = t.usdcRecipient) ↔ d = .release := by
  cases d with
  | refund => simp [payout, hne]
  | release =>
    refine ⟨fun _ => rfl, fun _ => ⟨⟨t.usdcToken, self, t.usdcRecipient, (feesOf t).net⟩, ?_, rfl⟩⟩
    simp [payout]

theorem feeOf_nonneg {amount : ℤ} (h : 0 ≤ amount) (bps : ℕ) : 0 ≤ feeOf amount bps :=
  Int.tdiv_nonneg (Int.mul_nonneg h (Int.natCast_nonneg bps)) (by decide)

theorem feeOf_le {amount : ℤ} (h : 0 ≤ amount) (bps : ℕ) :
    feeOf amount bps * 10000 ≤ amount * bps := by
  have hdiv := Int.mul_tdiv_add_tmod (amount * bps) 10000
  have hmod := Int.tmod_nonneg 10000 (Int.mul_nonneg h (Int.natCast_nonneg bps))
  rw [feeOf]
  omega

theorem net_pos {t : Terms} (ha : 0 < t.usdcAmount) (hb : t.platformFeeBps + t.lpFeeBps < 10000) :
    0 < (feesOf t).net := by
  have hp := feeOf_le ha.le t.platformFeeBps
  have hl := feeOf_le ha.le t.lpFeeBps
  have hsum : t.usdcAmount * (t.platformFeeBps + t.lpFeeBps : ℤ) ≤ t.usdcAmount * 9999 :=
    Int.mul_le_mul_of_nonneg_left (by omega) ha.le
  rw [Int.mul_add] at hsum
  simp only [feesOf]
  omega

theorem payout_nonneg {self : Address} {t : Terms} {d : ResolveOutcome} {u : Transfer}
    (ha : 0 < t.usdcAmount) (hb : t.platformFeeBps + t.lpFeeBps < 10000)
    (hu : u ∈ payout self t d) : 0 ≤ u.amount := by
  have hnet := net_pos ha hb
  obtain ⟨-, -, hpos | heq | heq⟩ := mem_payout hu
  · exact hpos.le
  · omega
  · omega

/-- Whatever the direction, the transfers of a settlement add up to the principal. -/
theorem payout_amounts (self : Address) (t : Terms) (d : ResolveOutcome) (ha : 0 < t.usdcAmount) :
    amounts (payout self t d) = t.usdcAmount := by
  cases d with
  | refund => simp [payout, amounts]
  | release =>
    have hp := feeTransfer_amounts ⟨t.usdcToken, self, t.platformWallet, (feesOf t).platformFee⟩
      (feeOf_nonneg ha.le _)
    have hl := feeTransfer_amounts ⟨t.usdcToken, self, t.lpWallet, (feesOf t).lpFee⟩
      (feeOf_nonneg ha.le _)
    simp only [amounts, payout, List.map_append, List.sum_append, List.map_cons, List.map_nil,
      List.sum_cons, List.sum_nil] at hp hl ⊢
    rw [hp, hl]
    simp only [feesOf]
    omega

end Lolipay.Escrow.Payout
