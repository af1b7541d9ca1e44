import Lolipay.Escrow.System
import Lolipay.Coordinator.Orders

namespace Lolipay.Coordinator.Binding

open Lolipay.Ledger.Storage Lolipay.Ledger.Invocation
open Lolipay.Escrow.Types Lolipay.Escrow.System
open Lolipay.Coordinator.Orders

structure Roles where
  usdcProvider : Address
  usdcRecipient : Address
  confirmer : Address
  deriving DecidableEq, Repr

def mapRoles (flow : Flow) (user lp : Address) : Roles :=
  match flow with
  | .topUp => ⟨lp, user, lp⟩
  | .withdraw => ⟨user, lp, user⟩

/-- A compared value, kept in its own type until a message is printed. -/
inductive Shown where
  | number (n : ℤ)
  | text (s : String)
  | account (a : Address)
  deriving DecidableEq, Repr

inductive Mismatch where
  | noProvider
  | undecodable (field : String) (expected : Shown)
  | differs (field : String) (got expected : Shown)
  deriving DecidableEq, Repr

def Shown.toText (strkey : Address → String) : Shown → String
  | .number n => toString n
  | .text s => s
  | .account a => strkey a

/-- The messages of the comparison; `strkey` prints an address. -/
def Mismatch.message (strkey : Address → String) : Mismatch → String
  | .noProvider => "lpWallet: order has no matched provider, cannot bind an on-chain trade to it"
  | .undecodable field expected =>
    field ++ ": missing or undecodable on chain (expected " ++ expected.toText strkey ++ ")"
  | .differs field got expected =>
    field ++ ": chain=" ++ got.toText strkey ++ " order=" ++ expected.toText strkey

/-- One comparison: `compareBigint`, `compareNumber` and `compareString` differ
only in how they decode the value. -/
def compare {α : Type} [DecidableEq α] (shows : α → Shown) (field : String) (actual : Option α)
    (expected : α) : List Mismatch :=
  match actual with
  | none => [.undecodable field (shows expected)]
  | some got => if got = expected then [] else [.differs field (shows got) (shows expected)]

def verifyTradeMatchesOrder (trade : TradeOnChain) (order : OrderBindingFields) : List Mismatch :=
  match order.lpWallet with
  | none => [.noProvider]
  | some lpWallet =>
    let roles := mapRoles order.flow order.userAddress lpWallet
    compare .number "usdcAmount" trade.usdcAmount order.usdcAmount ++
    compare .number "fiatAmount" trade.fiatAmount order.fiatAmount ++
    compare .text "fiatCurrency" trade.fiatCurrency order.fiatCurrency ++
    compare .number "flow" trade.flow (flowDiscriminant order.flow) ++
    compare .account "usdcProvider" trade.usdcProvider roles.usdcProvider ++
    compare .account "usdcRecipient" trade.usdcRecipient roles.usdcRecipient ++
    compare .account "confirmer" trade.confirmer roles.confirmer ++
    compare .account "platformWallet" trade.platformWallet order.platformWallet ++
    compare .account "lpWallet" trade.lpWallet lpWallet ++
    compare .number "platformFeeBps" trade.platformFeeBps order.platformFeeBps ++
    compare .number "lpFeeBps" trade.lpFeeBps order.lpFeeBps ++
    compare .number "payDeadline" trade.payDeadline order.payDeadline ++
    compare .number "confirmDeadline" trade.confirmDeadline order.confirmDeadline ++
    compare .number "disputeDeadline" trade.disputeDeadline order.disputeDeadline

/-- A row that already went through the comparison is not compared again. -/
def tradeBindsToOrder (onChain : TradeOnChain) (order : Order) : Bool :=
  !notYetBoundOnChain order.status ||
    verifyTradeMatchesOrder onChain order.toOrderBindingFields = []

variable {α : Type} [DecidableEq α]

@[simp] theorem compare_eq_nil (shows : α → Shown) (field : String) (actual : Option α)
    (expected : α) : compare shows field actual expected = [] ↔ actual = some expected := by
  cases actual with
  | none => simp [compare]
  | some got => simp [compare]

/-- No mismatch means that all fourteen fields can be decoded and agree. -/
theorem verify_eq_nil_iff (trade : TradeOnChain) (order : OrderBindingFields) :
    verifyTradeMatchesOrder trade order = [] ↔
      ∃ lp, order.lpWallet = some lp ∧
        trade.usdcAmount = some order.usdcAmount ∧ trade.fiatAmount = some order.fiatAmount ∧
        trade.fiatCurrency = some order.fiatCurrency ∧
        trade.flow = some (flowDiscriminant order.flow) ∧
        trade.usdcProvider = some (mapRoles order.flow order.userAddress lp).usdcProvider ∧
        trade.usdcRecipient = some (mapRoles order.flow order.userAddress lp).usdcRecipient ∧
        trade.confirmer = some (mapRoles order.flow order.userAddress lp).confirmer ∧
        trade.platformWallet = some order.platformWallet ∧ trade.lpWallet = some lp ∧
        trade.platformFeeBps = some order.platformFeeBps ∧
        trade.lpFeeBps = some order.lpFeeBps ∧ trade.payDeadline = some order.payDeadline ∧
        trade.confirmDeadline = some order.confirmDeadline ∧
        trade.disputeDeadline = some order.disputeDeadline := by
  rw [verifyTradeMatchesOrder]
  split
  next h => simp [h]
  next lp h =>
    simp only [h, List.append_eq_nil_iff, compare_eq_nil, Option.some.injEq, exists_eq_left',
      and_assoc]

theorem verify_toTerms {t t' : Trade} (h : t.toTerms = t'.toTerms) (order : OrderBindingFields) :
    verifyTradeMatchesOrder (decodeTradeStatus t) order =
      verifyTradeMatchesOrder (decodeTradeStatus t') order := by
  obtain ⟨terms, rest⟩ := t
  obtain ⟨terms', rest'⟩ := t'
  obtain rfl : terms = terms' := h
  rfl

def BoundAt (chain : Address → World) (home : Address) (p : Placement) : Prop :=
  ∃ t, (chain (contractIdFor p home)).trade p.tradeId = some t ∧
    verifyTradeMatchesOrder (decodeTradeStatus t) p.toOrderBindingFields = []

end Lolipay.Coordinator.Binding
