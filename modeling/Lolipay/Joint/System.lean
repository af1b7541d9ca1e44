import Lolipay.Escrow.Invariant
import Lolipay.Staking.Solvency

namespace Lolipay.Joint.System

open Lolipay.Ledger
open Lolipay.Ledger.Calls Lolipay.Ledger.Storage Lolipay.Ledger.Invocation Lolipay.Ledger.Runs
open Lolipay.Escrow.Types (TradeId Trade DisputeView)
open Lolipay.Staking.Types (Reply StakeInfo)

/-- Where the two contracts live. -/
structure Site where
  escrow : Address
  staking : Address
  apart : escrow ≠ staking

/-- The storage of both contracts over one ledger of token balances. -/
structure World where
  escrow : Escrow.Types.Contents
  staking : Staking.Types.Contents
  balances : Balances
  now : ℕ

def World.escrowSide (w : World) : Escrow.System.World := ⟨w.escrow, w.balances, w.now⟩

def World.stakingSide (w : World) : Staking.System.World := ⟨w.staking, w.balances, w.now⟩

def World.trade (w : World) (id : TradeId) : Option Trade := w.escrowSide.trade id

def World.stake (w : World) (lp : Address) : StakeInfo := w.stakingSide.stake lp

inductive Action where
  | escrow (env : Env) (op : Escrow.System.Op)
  | staking (env : Env) (op : Staking.System.Op)
  | other (time : ℕ) (moves : List Transfer)

def reply : Outcome Escrow.Types.Error DisputeView → Reply
  | .ok v => .view v
  | .error (.error e) => .contractError e.code
  | .error _ => .unreadable

/-- What the contracts of the ledger answer to a staking contract that asks about a trade. -/
def answers (site : Site) (w : World) (contract : Address) (id : TradeId) : Reply :=
  if contract = site.escrow then
    reply (Escrow.Contract.disputeView (enter w.escrow w.balances) id)
  else .unreadable

def stakingCall (site : Site) (w : World) (env : Env) (op : Staking.System.Op) :
    Staking.System.Action :=
  .call env ⟨op, answers site w⟩

def next (site : Site) (w : World) : Action → World
  | .escrow env op =>
    let v := Escrow.System.next w.escrowSide (.call env op)
    { w with escrow := v.contents, balances := v.balances, now := v.now }
  | .staking env op =>
    let v := Staking.System.next w.stakingSide (stakingCall site w env op)
    { w with staking := v.contents, balances := v.balances, now := v.now }
  | .other time moves => { w with balances := moveAll w.balances moves, now := time }

def out (site : Site) (w : World) : Action → Option (List Transfer)
  | .escrow env op =>
    (Escrow.System.receipt w.escrowSide (.call env op)).map fun r => r.transfers
  | .staking env op =>
    (Staking.System.receipt w.stakingSide (stakingCall site w env op)).map fun r => r.transfers
  | .other _ _ => none

/-- As for one contract. The escrow calls nobody but the token, and the staking
contract asks the escrow for a view only, so neither of them ever signs. -/
def admits (site : Site) (w : World) : Action → Prop
  | .escrow env _ =>
    env.contract = site.escrow ∧ w.now ≤ env.timestamp ∧ site.staking ∉ env.signers
  | .staking env _ =>
    env.contract = site.staking ∧ w.now ≤ env.timestamp ∧ site.escrow ∉ env.signers
  | .other time moves =>
    w.now ≤ time ∧ ∀ t ∈ moves, t.payer ≠ site.escrow ∧ t.payer ≠ site.staking ∧ 0 ≤ t.amount

instance (site : Site) (w : World) : (a : Action) → Decidable (admits site w a)
  | .escrow env _ => inferInstanceAs (Decidable
      (env.contract = site.escrow ∧ w.now ≤ env.timestamp ∧ site.staking ∉ env.signers))
  | .staking env _ => inferInstanceAs (Decidable
      (env.contract = site.staking ∧ w.now ≤ env.timestamp ∧ site.escrow ∉ env.signers))
  | .other time moves => inferInstanceAs (Decidable (w.now ≤ time ∧
      ∀ t ∈ moves, t.payer ≠ site.escrow ∧ t.payer ≠ site.staking ∧ 0 ≤ t.amount))

def machine (site : Site) : Machine World Action (Option (List Transfer)) :=
  ⟨admits site, next site, out site⟩

abbrev JointEntry := Entry World Action (Option (List Transfer))

abbrev History := List JointEntry

/-- Both contracts are freshly constructed, and the staking contract asks this escrow. -/
structure Deployed (site : Site) (ecfg : Escrow.Types.Config) (scfg : Staking.Types.Config)
    (w : World) : Prop where
  escrow : Escrow.System.Deployed site.escrow ecfg w.escrowSide
  staking : Staking.System.Deployed site.staking scfg w.stakingSide
  linked : scfg.escrowContract = site.escrow

/-- To the escrow a call of the staking contract is money moving elsewhere. -/
def escrowAction (site : Site) (w : World) (a : Action) : Escrow.System.Action :=
  match a with
  | .escrow env op => .call env op
  | .staking env _ => .other env.timestamp ((out site w a).getD [])
  | .other time moves => .other time moves

def stakingAction (site : Site) (w : World) (a : Action) : Staking.System.Action :=
  match a with
  | .escrow env _ => .other env.timestamp ((out site w a).getD [])
  | .staking env op => stakingCall site w env op
  | .other time moves => .other time moves

def escrowEntry (site : Site) (e : JointEntry) :
    Entry Escrow.System.World Escrow.System.Action (Option Escrow.System.Receipt) :=
  (Escrow.System.machine site.escrow).entry e.pre.escrowSide (escrowAction site e.pre e.act)

def stakingEntry (site : Site) (e : JointEntry) :
    Entry Staking.System.World Staking.System.Action (Option Staking.System.Receipt) :=
  (Staking.System.machine site.staking).entry e.pre.stakingSide (stakingAction site e.pre e.act)

variable {site : Site} {ecfg : Escrow.Types.Config} {scfg : Staking.Types.Config} {start : ℕ}
  {w w₀ w' : World} {a : Action} {tr : History}

theorem staking_payer {env : Env} {c c' : Staking.Types.Contents} {call : Staking.System.Call}
    {ts : List Transfer} (he : Staking.Effects.Effect env c call c' ts) :
    ∀ u ∈ ts, (u.payer = env.contract ∨ u.payer ∈ env.signers) ∧ 0 ≤ u.amount := by
  cases he with
  | requested | configured | pauseSet => simp
  | staked hcfg hpos hs => simp [hs, hpos.le]
  | claimed hcfg hpos => simp [hpos.le]
  | slashed hcfg hs => simp [hs.amount_pos.le]

theorem escrow_payer {env : Env} {c : Escrow.Types.Contents} {v : Escrow.System.World}
    {op : Escrow.System.Op} {ts : List Transfer} (hi : Escrow.Invariant.Coherent ecfg start v)
    (he : Escrow.Effects.Effect env v.contents op c ts) :
    ∀ u ∈ ts, (u.payer = env.contract ∨ u.payer ∈ env.signers) ∧ 0 ≤ u.amount := by
  cases he with
  | configured | pauseSet => simp
  | opened hcfg hnew ho => simp [ho.signed, ho.amount_pos.le]
  | @moved cfg id t t' op ts hcfg hlook hm =>
    have hs := hi.trades id t hlook
    obtain ⟨-, rfl⟩ | ⟨-, d, -, rfl⟩ := Escrow.Invariant.moves_settlement hs.flagged hm
    · simp
    · intro u hu
      exact ⟨.inl (Escrow.Payout.mem_payout hu).1,
        Escrow.Payout.payout_nonneg hs.terms.amount_pos hs.terms.fees_lt hu⟩

/-- A step of the two contracts is a step of the escrow contract. -/
theorem escrow_follows (ha : admits site w a) :
    Escrow.System.admits site.escrow w.escrowSide (escrowAction site w a) ∧
      Escrow.System.next w.escrowSide (escrowAction site w a) = (next site w a).escrowSide := by
  cases a with
  | escrow env op => exact ⟨⟨ha.1, ha.2.1⟩, rfl⟩
  | other time moves => exact ⟨⟨ha.1, fun t ht => ⟨(ha.2 t ht).1, (ha.2 t ht).2.2⟩⟩, rfl⟩
  | staking env op =>
    obtain ⟨hself, hle, hsig⟩ := ha
    obtain ⟨hn, hr⟩ | ⟨c, ts, evs, he, hn, hr⟩ :=
      Staking.Effects.call_cases w.stakingSide env ⟨op, answers site w⟩
    · refine ⟨⟨hle, ?_⟩, ?_⟩
      · simp [out, stakingCall, hr]
      · simp only [escrowAction, out, stakingCall, hr, next, hn]
        rfl
    · refine ⟨⟨hle, ?_⟩, ?_⟩
      · intro u hu
        simp only [out, stakingCall, hr, Option.map_some, Option.getD_some] at hu
        obtain ⟨hp | hp, hnn⟩ := staking_payer he u hu
        · exact ⟨fun hc => site.apart (hc.symm.trans (hp.trans hself)), hnn⟩
        · exact ⟨fun hc => hsig (hc ▸ hp), hnn⟩
      · simp only [escrowAction, out, stakingCall, hr, next, hn]
        rfl

/-- A step of the two contracts is a step of the staking contract. -/
theorem staking_follows (hi : Escrow.Invariant.Coherent ecfg start w.escrowSide)
    (ha : admits site w a) :
    Staking.System.admits site.staking w.stakingSide (stakingAction site w a) ∧
      Staking.System.next w.stakingSide (stakingAction site w a) = (next site w a).stakingSide := by
  cases a with
  | staking env op => exact ⟨⟨ha.1, ha.2.1⟩, rfl⟩
  | other time moves => exact ⟨⟨ha.1, fun t ht => (ha.2 t ht).2⟩, rfl⟩
  | escrow env op =>
    obtain ⟨hself, hle, hsig⟩ := ha
    obtain ⟨hn, hr⟩ | ⟨c, ts, evs, he, hn, hr⟩ := Escrow.Effects.call_cases w.escrowSide env op
    · refine ⟨⟨hle, ?_⟩, ?_⟩
      · simp [out, hr]
      · simp only [stakingAction, out, hr, next, hn]
        rfl
    · refine ⟨⟨hle, ?_⟩, ?_⟩
      · intro u hu
        simp only [out, hr, Option.map_some, Option.getD_some] at hu
        obtain ⟨hp | hp, hnn⟩ := escrow_payer hi he u hu
        · exact ⟨fun hc => site.apart (hself.symm.trans (hp.symm.trans hc)), hnn⟩
        · exact ⟨fun hc => hsig (hc ▸ hp), hnn⟩
      · simp only [stakingAction, out, hr, next, hn]
        rfl

theorem run_escrow (hr : Run (machine site) w tr w') :
    Run (Escrow.System.machine site.escrow) w.escrowSide (tr.map (escrowEntry site))
      w'.escrowSide :=
  hr.project World.escrowSide (escrowAction site) (I := fun _ => True) trivial
    (fun _ _ _ _ => trivial) fun _ _ _ ha => escrow_follows ha

theorem coherent_step (hi : Escrow.Invariant.Coherent ecfg start w.escrowSide)
    (ha : admits site w a) : Escrow.Invariant.Coherent ecfg start (next site w a).escrowSide := by
  obtain ⟨hadm, hn⟩ := escrow_follows ha
  rw [← hn]
  exact hi.step hadm

theorem run_coherent (hd : Deployed site ecfg scfg w₀) (hr : Run (machine site) w₀ tr w) :
    Escrow.Invariant.Coherent ecfg w₀.now w.escrowSide :=
  (Escrow.Invariant.Coherent.deployed hd.escrow).run (run_escrow hr)

theorem run_staking (hi : Escrow.Invariant.Coherent ecfg start w.escrowSide)
    (hr : Run (machine site) w tr w') :
    Run (Staking.System.machine site.staking) w.stakingSide (tr.map (stakingEntry site))
      w'.stakingSide :=
  hr.project World.stakingSide (stakingAction site)
    (I := fun u => Escrow.Invariant.Coherent ecfg start u.escrowSide) hi
    (fun _ _ hu ha => coherent_step hu ha) fun _ _ hu ha => staking_follows hu ha

end Lolipay.Joint.System
