import Lolipay.Ledger.Latch
import Lolipay.Escrow.Invariant

namespace Lolipay.Escrow.Custody

open Lolipay.Ledger.Calls Lolipay.Ledger.Storage Lolipay.Ledger.Invocation Lolipay.Ledger.Runs
open Lolipay.Ledger.Latch
open Lolipay.Escrow.Types Lolipay.Escrow.Contract Lolipay.Escrow.System Lolipay.Escrow.Payout
open Lolipay.Escrow.Transitions Lolipay.Escrow.Effects Lolipay.Escrow.Invariant

variable {self : Address} {cfg₀ : Config} {start : ℕ} {w w₀ : World} {tr : History} {a : Action}

def owed (t : Trade) : ℤ := if principalHeld t then t.usdcAmount else 0

def settledPayout (self : Address) (t : Trade) : Option (List Transfer) :=
  (settlement t).map (payout self t.toTerms)

/-- The abstract view of one trade: a latch that closes with the payout. -/
def phase (self : Address) (id : TradeId) (w : World) : Option (List Transfer) :=
  (w.trade id).bind (settledPayout self)

theorem phase_of_trade {id : TradeId} {t : Trade} (ht : w.trade id = some t) :
    phase self id w = settledPayout self t := by
  simp only [phase, ht, Option.bind_some]

theorem phase_of_none {id : TradeId} (ht : w.trade id = none) : phase self id w = none := by
  simp only [phase, ht, Option.bind_none]

theorem payment_nil {id : TradeId} {e : Entry World Action (Option Receipt)}
    (hp : paidBy self id e = []) : payment self id e = none := by
  simp only [payment, hp, if_true]

/-- The contract refines a latch for every trade. -/
theorem phase_latch (hi : Coherent cfg₀ start w) (ha : admits self w a) (id : TradeId) :
    LatchStep (phase self id w) (phase self id (next w a))
      (payment self id ((machine self).entry w a)) := by
  cases trade_step ha id with
  | same ht hp =>
    rw [payment_nil hp, phase, phase, ht]
    exact .keep _
  | opened hact hself hcfg ho hnew ht hp =>
    rw [payment_nil hp, phase_of_none hnew, phase_of_trade ht]
    exact .keep none
  | @moved env op cfg t t' ts hact hself hcfg hlook hm ht hr hp =>
    subst hself
    have hterms := moves_toTerms hm
    rw [phase_of_trade hlook, phase_of_trade ht]
    obtain ⟨hs, rfl⟩ | ⟨hn, d, hd, rfl⟩ := moves_settlement (hi.trades id t hlook).flagged hm
    · rw [payment_nil hp, settledPayout, settledPayout, hs, hterms]
      exact .keep _
    · rw [outgoing_payout] at hp
      have hpay : payment env.contract id ((machine env.contract).entry w a) =
          some (payout env.contract t.toTerms d) := by
        simp only [payment, hp, payout_ne_nil, if_false]
      rw [hpay, settledPayout, settledPayout, hn, hd, hterms]
      exact .take _

/-- The payouts of a trade are known from its record: none while it is held,
and afterwards the one that its terms and its direction prescribe. -/
theorem payouts_eq (hd : Deployed self cfg₀ w₀) (hr : Run (machine self) w₀ tr w) (id : TradeId) :
    payouts self id tr = (phase self id w).toList := by
  have h0 : phase self id w₀ = none := phase_of_none (trade_none_of_deployed hd)
  exact announced_once (phase self id) (payment self id) hr (Coherent.deployed hd)
    (fun _ _ h ha => h.step ha) h0 (fun _ _ h ha => phase_latch h ha id)

theorem owed_of_settlement {t : Trade} (hf : Flagged t) :
    owed t = if settlement t = none then t.usdcAmount else 0 := by
  have h := settlement_none_iff hf
  rw [owed]
  by_cases hh : principalHeld t = true
  · rw [if_pos hh, if_pos (h.mpr hh)]
  · rw [if_neg hh, if_neg (fun hn => hh (h.mp hn))]

def Solvent (self token : Address) (w : World) : Prop :=
  total owed w.contents.trades ≤ w.balances token self

theorem effect_solvent {env : Env} {op : Op} {c : Contents} {ts : List Transfer}
    (hi : Coherent cfg₀ start w) (he : Effect env w.contents op c ts)
    (h : Solvent env.contract cfg₀.usdcToken w) :
    total owed c.trades ≤ moveAll w.balances ts cfg₀.usdcToken env.contract := by
  cases he with
  | configured | pauseSet => exact h
  | @opened cfg id args hcfg hnew ho =>
    obtain ⟨-, hk⟩ := hi.unique hcfg
    have hne : args.usdcProvider ≠ env.contract := fun hc => env.silent (hc ▸ ho.signed)
    have howed : owed (openingTrade cfg env.timestamp args) = args.usdcAmount := rfl
    apply total_insert_le h
    rw [measureAt_of_none hnew, howed]
    simp only [moveAll, List.foldl_cons, List.foldl_nil, move, hk.token, Ne.symm hne, and_false,
      and_self, if_false, if_true]
    omega
  | @moved cfg id t t' op ts hcfg hlook hm =>
    have hsound := hi.trades id t hlook
    have hflag' := moves_flagged hsound.flagged hm
    have hterms := moves_toTerms hm
    apply total_insert_le h
    rw [measureAt_of_lookup hlook, owed_of_settlement hsound.flagged, owed_of_settlement hflag']
    obtain ⟨hs, rfl⟩ | ⟨hn, d, hd, rfl⟩ := moves_settlement hsound.flagged hm
    · rw [hs, hterms]
      simp only [moveAll, List.foldl_nil]
      omega
    · have hpaid := moveAll_payer w.balances (payout env.contract t.toTerms d) cfg₀.usdcToken
        env.contract fun u hu => ⟨(mem_payout hu).1,
          (mem_payout hu).2.1.trans hsound.terms.token_eq,
          payout_nonneg hsound.terms.amount_pos hsound.terms.fees_lt hu⟩
      rw [payout_amounts _ _ _ hsound.terms.amount_pos] at hpaid
      rw [hn, hd, if_pos rfl, if_neg (by simp)]
      omega

theorem step_solvent (hi : Coherent cfg₀ start w) (ha : admits self w a)
    (h : Solvent self cfg₀.usdcToken w) : Solvent self cfg₀.usdcToken (next w a) := by
  cases a with
  | other time moves => exact h.trans (le_moveAll _ _ _ _ ha.2)
  | call env op =>
    obtain ⟨rfl, -⟩ := ha
    obtain ⟨hn, -⟩ | ⟨c, ts, evs, he, hn, -⟩ := call_cases w env op
    · rw [hn]
      exact h
    · rw [hn]
      exact effect_solvent hi he h

theorem run_solvent (hd : Deployed self cfg₀ w₀) (hr : Run (machine self) w₀ tr w) :
    Solvent self cfg₀.usdcToken w := by
  have h0 : Solvent self cfg₀.usdcToken w₀ := by
    obtain ⟨-, -, -, -, -, -, -, -, -, -, -, hc, hb⟩ := hd
    rw [Solvent, hc]
    exact hb
  have h : Coherent cfg₀ w₀.now w ∧ Solvent self cfg₀.usdcToken w :=
    hr.invariant (I := fun u => Coherent cfg₀ w₀.now u ∧ Solvent self cfg₀.usdcToken u)
      ⟨Coherent.deployed hd, h0⟩ fun u a hu ha => ⟨hu.1.step ha, step_solvent hu.1 ha hu.2⟩
  exact h.2

theorem outflow_named (ha : admits self w a) {r : Receipt} (hr : receipt w a = some r)
    {u : Transfer} (hu : u ∈ r.transfers) (hp : u.payer = self) :
    ∃ id, u ∈ paidBy self id ((machine self).entry w a) := by
  cases a with
  | other time moves => cases hr
  | call env op =>
    obtain ⟨rfl, -⟩ := ha
    have hmem {id : TradeId} (hop : op.tradeId = some id) :
        u ∈ paidBy env.contract id ((machine env.contract).entry w (.call env op)) := by
      rw [paidBy_call id hr, if_pos hop]
      exact List.mem_filter.mpr ⟨hu, by simpa using hp⟩
    obtain ⟨-, hnone⟩ | ⟨c, ts, evs, he, -, hsome⟩ := call_cases w env op
    · rw [hnone] at hr
      cases hr
    obtain rfl := Option.some.inj (hsome.symm.trans hr)
    cases he with
    | configured | pauseSet => cases hu
    | opened => exact ⟨_, hmem rfl⟩
    | moved hcfg hlook hm => exact ⟨_, hmem (moves_tradeId hm)⟩

/-- The two shapes of a payout: all of it back to the provider, or the three
shares of a release, of which the fees are sent only when they are positive. -/
def PaidInFull (self : Address) (t : Trade) (ts : List Transfer) : Prop :=
  ts = [⟨t.usdcToken, self, t.usdcProvider, t.usdcAmount⟩] ∨
  ∃ platformFee lpFee net, platformFee + lpFee + net = t.usdcAmount ∧
    0 ≤ platformFee ∧ 0 ≤ lpFee ∧ 0 < net ∧
    ts = (if platformFee > 0 then [⟨t.usdcToken, self, t.platformWallet, platformFee⟩] else []) ++
      (if lpFee > 0 then [⟨t.usdcToken, self, t.lpWallet, lpFee⟩] else []) ++
      [⟨t.usdcToken, self, t.usdcRecipient, net⟩]

theorem payout_inFull {now : ℕ} {t : Trade} (hs : Sound cfg₀ start now t) (d : ResolveOutcome) :
    PaidInFull self t (payout self t.toTerms d) := by
  cases d with
  | refund => exact .inl rfl
  | release =>
    refine .inr ⟨_, _, _, ?_, feeOf_nonneg hs.terms.amount_pos.le t.platformFeeBps,
      feeOf_nonneg hs.terms.amount_pos.le t.lpFeeBps,
      net_pos hs.terms.amount_pos hs.terms.fees_lt, rfl⟩
    simp only [feesOf]
    omega

/-- In every run from the constructor the contract's balance covers all trades
that it still holds, every trade is paid out at most once and in full, and no
token leaves the contract in any other way. -/
theorem solvent_and_paid_once (hd : Deployed self cfg₀ w₀) (hr : Run (machine self) w₀ tr w) :
    total owed w.contents.trades ≤ w.balances cfg₀.usdcToken self ∧
    (∀ id, w.trade id = none → payouts self id tr = []) ∧
    (∀ id t, w.trade id = some t →
      (principalHeld t = true ∧ payouts self id tr = []) ∨
      (principalHeld t = false ∧ ∃ ts, payouts self id tr = [ts] ∧ PaidInFull self t ts)) ∧
    (∀ e ∈ tr, ∀ r, e.out = some r → ∀ u ∈ r.transfers, u.payer = self →
      ∃ id, ∃ ts ∈ payouts self id tr, u ∈ ts) := by
  have hi := (Coherent.deployed hd).run hr
  refine ⟨run_solvent hd hr, ?_, ?_, ?_⟩
  · intro id ht
    rw [payouts_eq hd hr, phase_of_none ht]
    rfl
  · intro id t ht
    have hs := hi.trades id t ht
    have hheld := settlement_none_iff hs.flagged
    rw [payouts_eq hd hr, phase_of_trade ht, settledPayout]
    cases hset : settlement t with
    | none => exact .inl ⟨hheld.mp hset, rfl⟩
    | some d =>
      have hnot : principalHeld t = false := by
        rw [← Bool.not_eq_true, ← hheld, hset]
        simp
      exact .inr ⟨hnot, _, rfl, payout_inFull hs d⟩
  · intro e he r hout u hu hp
    obtain ⟨tr₁, tr₂, htr, -, ha, hentry, -⟩ := hr.of_mem he
    have hrec : receipt e.pre e.act = some r := by
      rw [hentry] at hout
      exact hout
    obtain ⟨id, hid⟩ := outflow_named ha hrec hu hp
    rw [← hentry] at hid
    refine ⟨id, paidBy self id e, ?_, hid⟩
    have hne : paidBy self id e ≠ [] := List.ne_nil_of_mem hid
    exact List.mem_filterMap.mpr ⟨e, he, by simp only [payment, hne, if_false]⟩

/-- An environment in which the contract's own name is struck from the signers. -/
def sampleEnv (time : ℕ) (signers : List Address) : Env :=
  ⟨⟨0⟩, time, signers.filter (· ≠ ⟨0⟩), fun _ => true, by simp⟩

def sampleConfig : Config :=
  { admin := ⟨1⟩, usdcToken := ⟨2⟩, resolver := ⟨3⟩, defaultPlatformFeeBps := 50,
    defaultPlatformWallet := ⟨4⟩, paused := false, disputeWindow := 3600, fiatAttestor := ⟨5⟩,
    earlyReleaseProviders := [] }

def sampleWorld : World := ⟨⟨some sampleConfig, ∅⟩, fun _ _ => 0, 1000⟩

def sampleArgs : CreateArgs :=
  { usdcProvider := ⟨6⟩, usdcRecipient := ⟨7⟩, confirmer := ⟨6⟩, usdcAmount := 1000000,
    fiatAmount := 16000, fiatCurrency := "IDR", flow := .topUp, platformFeeBps := 50,
    lpFeeBps := 100, platformWallet := ⟨4⟩, lpWallet := ⟨6⟩, payDeadline := 2000,
    confirmDeadline := 8000, disputeDeadline := 9000 }

theorem sampleWorld_deployed : Deployed ⟨0⟩ sampleConfig sampleWorld :=
  ⟨sampleEnv 1000 [⟨1⟩], ⟨1⟩, ⟨2⟩, ⟨3⟩, 50, ⟨4⟩, 3600, ⟨5⟩, rfl, rfl, rfl, rfl,
    by decide⟩

/-- Two trades are opened; the first one is paid, released and disputed by its provider. -/
def sampleActions : List Action :=
  [.call (sampleEnv 1000 [⟨6⟩]) (.createTrade 1 sampleArgs),
    .call (sampleEnv 1200 [⟨6⟩]) (.createTrade 2 sampleArgs),
    .call (sampleEnv 1500 [⟨7⟩]) (.markFiatPaid 1 ⟨7⟩),
    .call (sampleEnv 1600 [⟨6⟩]) (.confirmAndRelease 1),
    .call (sampleEnv 1700 [⟨6⟩]) (.raiseDispute 1 ⟨6⟩)]

theorem sampleActions_admitted : Admitted (machine ⟨0⟩) sampleWorld sampleActions := by
  refine ⟨⟨rfl, ?_⟩, ⟨rfl, ?_⟩, ⟨rfl, ?_⟩, ⟨rfl, ?_⟩, ⟨rfl, ?_⟩, trivial⟩ <;> decide

def sampleFinal : World := final (machine ⟨0⟩) sampleWorld sampleActions

def sampleHistory : History := history (machine ⟨0⟩) sampleWorld sampleActions

theorem sample_run : Run (machine ⟨0⟩) sampleWorld sampleHistory sampleFinal :=
  Run.of_actions sampleActions sampleWorld sampleActions_admitted

theorem sample_solvent_and_paid_once :
    payouts ⟨0⟩ 1 sampleHistory =
      [[⟨⟨2⟩, ⟨0⟩, ⟨4⟩, 5000⟩, ⟨⟨2⟩, ⟨0⟩, ⟨6⟩, 10000⟩, ⟨⟨2⟩, ⟨0⟩, ⟨7⟩, 985000⟩]] ∧
    payouts ⟨0⟩ 2 sampleHistory = [] ∧ total owed sampleFinal.contents.trades = 1000000 ∧
    total owed sampleFinal.contents.trades ≤ sampleFinal.balances ⟨2⟩ ⟨0⟩ :=
  ⟨by decide, by decide, by decide,
    (solvent_and_paid_once sampleWorld_deployed sample_run).1⟩

end Lolipay.Escrow.Custody
