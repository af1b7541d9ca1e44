import Lolipay.Ledger.Deployment
import Lolipay.Escrow.Contract

namespace Lolipay.Escrow.System

open Lolipay.Ledger
open Lolipay.Ledger.Calls Lolipay.Ledger.Storage Lolipay.Ledger.Invocation Lolipay.Ledger.Runs
open Lolipay.Escrow.Types Lolipay.Escrow.Contract

inductive Op where
  | createTrade (tradeId : TradeId) (args : CreateArgs)
  | markFiatPaid (tradeId : TradeId) (caller : Address)
  | releaseFromFunded (tradeId : TradeId)
  | confirmAndRelease (tradeId : TradeId)
  | refund (tradeId : TradeId)
  | cancel (tradeId : TradeId)
  | raiseDispute (tradeId : TradeId) (raiser : Address)
  | resolve (tradeId : TradeId) (outcome : ResolveOutcome) (caller : Address)
  | setConfig (newConfig : Config)
  | setPaused (paused : Bool)
  deriving DecidableEq, Repr

def Op.tradeId : Op → Option TradeId
  | .createTrade id _ | .markFiatPaid id _ | .releaseFromFunded id | .confirmAndRelease id
  | .refund id | .cancel id | .raiseDispute id _ | .resolve id _ _ => some id
  | .setConfig _ | .setPaused _ => none

def exec (env : Env) (h : EscrowHost) : Op → Outcome Error EscrowHost
  | .createTrade id a => createTrade env h id a
  | .markFiatPaid id caller => markFiatPaid env h id caller
  | .releaseFromFunded id => releaseFromFunded env h id
  | .confirmAndRelease id => confirmAndRelease env h id
  | .refund id => refund env h id
  | .cancel id => cancel env h id
  | .raiseDispute id raiser => raiseDispute env h id raiser
  | .resolve id outcome caller => resolve env h id outcome caller
  | .setConfig c => setConfig env h c
  | .setPaused p => setPaused env h p

abbrev World := Deployment.World Contents

abbrev Receipt := Deployment.Receipt Event

abbrev Action := Deployment.Action Op

def World.trade (w : World) (id : TradeId) : Option Trade := w.contents.trades.lookup id

abbrev next (w : World) (a : Action) : World := Deployment.next exec w a

abbrev receipt (w : World) (a : Action) : Option Receipt := Deployment.receipt exec w a

abbrev admits (self : Address) (w : World) (a : Action) : Prop := Deployment.admits self w a

abbrev machine (self : Address) : Machine World Action (Option Receipt) :=
  Deployment.machine exec self

abbrev History := List (Entry World Action (Option Receipt))

/-- A freshly constructed contract, in a world where its token balance is not negative. -/
def Deployed (self : Address) (cfg : Config) (w : World) : Prop :=
  ∃ env admin token resolver feeBps wallet window attestor,
    env.contract = self ∧ env.timestamp = w.now ∧
    construct env admin token resolver feeBps wallet window attestor = .ok cfg ∧
    w.contents = ⟨some cfg, ∅⟩ ∧ 0 ≤ w.balances cfg.usdcToken self

def paidBy (self : Address) (id : TradeId) (e : Entry World Action (Option Receipt)) :
    List Transfer :=
  match e.act, e.out with
  | .call _ op, some r => if op.tradeId = some id then outgoing self r.transfers else []
  | _, _ => []

def payment (self : Address) (id : TradeId) (e : Entry World Action (Option Receipt)) :
    Option (List Transfer) :=
  if paidBy self id e = [] then none else some (paidBy self id e)

def payouts (self : Address) (id : TradeId) (tr : History) : List (List Transfer) :=
  tr.filterMap (payment self id)

end Lolipay.Escrow.System
