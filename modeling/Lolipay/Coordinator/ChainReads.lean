import Lolipay.Async.TimedCache
import Lolipay.Escrow.Lifecycle
import Lolipay.Coordinator.Orders

namespace Lolipay.Coordinator.ChainReads

open Lolipay.Ledger.Invocation Lolipay.Ledger.Runs
open Lolipay.Async.Process Lolipay.Async.Scheduling Lolipay.Async.TimedCache
open Lolipay.Escrow.Types (TradeId Trade)
open Lolipay.Coordinator.Orders

def statusCacheTtlMs : ℕ := 4000
def trustlineTtlMs : ℕ := 300000
def walletAgeTtlMs : ℕ := 300000

section Status

/-- A trade is read from the escrow contract of its order. -/
abbrev StatusKey := Address × TradeId

/-- A failure is answered, and kept, like a trade that does not exist. -/
def statusPolicy : Policy (Option Trade) (Option TradeOnChain) where
  ttl := statusCacheTtlMs
  answers seen := some ((seen.bind id).map decodeTradeStatus)
  keeps seen := some ((seen.bind id).map decodeTradeStatus)
  limit := some 500

def getTradeStatus (contractId : Address) (tradeId : TradeId) :
    Reader StatusKey (Option Trade) (Option TradeOnChain) (Option TradeOnChain) :=
  cachedRead statusPolicy (contractId, tradeId)

def evictTradeStatus (contractId : Address) (tradeId : TradeId) : Move StatusKey :=
  .forget (contractId, tradeId)

def trades (chain : ℕ → Address → Escrow.System.World) (now : ℕ) (k : StatusKey) : Option Trade :=
  (chain now k.1).trade k.2

abbrev statusReads (chain : ℕ → Address → Escrow.System.World) :=
  readers statusPolicy (trades chain)

example (chain : ℕ → Address → Escrow.System.World) (contractId : Address) (tradeId : TradeId) :
    (statusReads chain).body (contractId, tradeId) =
      (getTradeStatus contractId tradeId >>= fun _ => .pure ()) := rfl

variable {chain : ℕ → Address → Escrow.System.World} {contractId : Address} {tradeId : TradeId}
  {start : ℕ} {tr tr' : List (Entry (Pool (Effect StatusKey (Option Trade))
    (Reply (Option Trade) (Option TradeOnChain)) (Store StatusKey (Option TradeOnChain)))
    (Act StatusKey Bool (Move StatusKey)) (Option (Pid × Effect StatusKey (Option Trade))))}
  {w w' : Pool (Effect StatusKey (Option Trade)) (Reply (Option Trade) (Option TradeOnChain))
    (Store StatusKey (Option TradeOnChain))} {a : Answer StatusKey (Option TradeOnChain)}
  {onChain : TradeOnChain}

theorem seen_of_looked {u : ℕ} {k : StatusKey} {seen : Option (Option Trade)}
    (hlooked : Looked (trades chain) k u seen)
    (hval : (seen.bind id).map decodeTradeStatus = some onChain) :
    (trades chain u k).map decodeTradeStatus = some onChain := by
  obtain rfl | rfl := hlooked
  · cases hval
  · exact hval

/-- A trade that is answered was so on the chain less than four seconds before the
call. -/
theorem trade_status_recent (hr : Run (machine (statusReads chain)) (idle (empty start)) tr w)
    (ha : a ∈ w.shared.answers) (hval : a.val = some onChain) :
    ∃ u ≤ a.ended, a.started < u + statusCacheTtlMs ∧
      ((chain u a.key.1).trade a.key.2).map decodeTradeStatus = some onChain := by
  obtain ⟨u, hu, seen, hlooked, ⟨hstarted, hanswers⟩ | ⟨hyoung, hkeeps⟩⟩ := answers_recent hr ha
  · refine ⟨u, hu, Nat.lt_of_le_of_lt hstarted (Nat.lt_add_of_pos_right (by decide)), seen_of_looked hlooked ?_⟩
    exact (Option.some.inj hanswers).trans hval
  · exact ⟨u, hu, hyoung, seen_of_looked hlooked ((Option.some.inj hkeeps).trans hval)⟩

/-- After an eviction, unless a read that had its reply was still to be kept, no
trade is answered as it was before. -/
theorem evicted_status_gone (hr : Run (machine (statusReads chain)) (idle (empty start)) tr w)
    (hquiet : ∀ pid, ¬Late (contractId, tradeId) w pid)
    (hr' : Run (machine (statusReads chain))
      ((machine (statusReads chain)).next w (.outside (evictTradeStatus contractId tradeId))) tr' w')
    (ha : a ∈ w'.shared.answers) (hkey : a.key = (contractId, tradeId)) (hval : a.val = some onChain) :
    a ∈ w.shared.answers ∨ ∃ u ≤ a.ended, w.shared.now ≤ u ∧
      ((chain u contractId).trade tradeId).map decodeTradeStatus = some onChain := by
  obtain hold | ⟨u, hu, hsince, seen, hlooked, hrest⟩ := answers_after_forget hr hquiet hr' ha hkey
  · exact .inl hold
  · refine .inr ⟨u, hu, hsince, seen_of_looked (k := (contractId, tradeId)) hlooked ?_⟩
    obtain h | h := hrest
    all_goals exact (Option.some.inj h).trans hval

/-- The trade comes to the chain in the second second. -/
def sampleChain (now : ℕ) (_ : Address) : Escrow.System.World :=
  if now < 2000 then Escrow.Custody.sampleWorld else Escrow.Custody.sampleFinal

def sampleKey : StatusKey := (⟨0⟩, 1)

def earlyRead : List (Act StatusKey Bool (Move StatusKey)) :=
  [.spawn 0 sampleKey, .go 0 false, .go 0 false, .go 0 false, .outside (.clock 3000)]

def lateRead : List (Act StatusKey Bool (Move StatusKey)) :=
  [.spawn 1 sampleKey, .go 1 false, .go 1 false, .go 1 false, .outside (.clock 6000),
    .spawn 2 sampleKey, .go 2 false]

abbrev SamplePool := Pool (Effect StatusKey (Option Trade)) (Reply (Option Trade) (Option TradeOnChain))
  (Store StatusKey (Option TradeOnChain))

def readEarly : SamplePool := final (machine (statusReads sampleChain)) (idle (empty 0)) earlyRead

def evicted : SamplePool :=
  (machine (statusReads sampleChain)).next readEarly (.outside (evictTradeStatus ⟨0⟩ 1))

def readLate : SamplePool := final (machine (statusReads sampleChain)) evicted lateRead

theorem earlyRead_run : Run (machine (statusReads sampleChain)) (idle (empty 0))
    (history (machine (statusReads sampleChain)) (idle (empty 0)) earlyRead) readEarly :=
  Run.of_actions _ _ ⟨⟨rfl, trivial⟩, trivial, trivial, trivial, (by decide : 0 ≤ 3000), trivial⟩

theorem lateRead_run : Run (machine (statusReads sampleChain)) evicted
    (history (machine (statusReads sampleChain)) evicted lateRead) readLate :=
  Run.of_actions _ _ ⟨⟨rfl, trivial⟩, trivial, trivial, trivial, (by decide : 3000 ≤ 6000),
    ⟨rfl, trivial⟩, trivial, trivial⟩

def sampleAnswer (time : ℕ) : Answer StatusKey (Option TradeOnChain) :=
  ⟨sampleKey, (Escrow.Custody.sampleFinal.trade 1).map decodeTradeStatus, time, time⟩

theorem readEarly_quiet (pid : Pid) : ¬Late sampleKey readEarly pid := by
  rintro ⟨started, seen, next, hrun⟩
  by_cases hpid : pid = 0
  · subst hpid
    cases hrun
  · have hnone : readEarly.running pid = none := by
      apply running_final rfl earlyRead
      simp [earlyRead, Act.subject, Ne.symm hpid]
    rw [hnone] at hrun
    cases hrun

/-- The second answer comes from the cache. -/
theorem trade_status_recent_sample : ∃ u ≤ 6000, 6000 < u + statusCacheTtlMs ∧
    ((sampleChain u ⟨0⟩).trade 1).map decodeTradeStatus =
      some (decodeTradeStatus Escrow.Lifecycle.sampleTrade) := by
  have hrun : Run (machine (statusReads sampleChain)) (idle (empty 3000))
      (history (machine (statusReads sampleChain)) (idle (empty 3000)) lateRead)
      (final (machine (statusReads sampleChain)) (idle (empty 3000)) lateRead) :=
    Run.of_actions _ _ ⟨⟨rfl, trivial⟩, trivial, trivial, trivial, (by decide : 3000 ≤ 6000),
      ⟨rfl, trivial⟩, trivial, trivial⟩
  exact trade_status_recent (a := sampleAnswer 6000) hrun List.mem_cons_self
    (congrArg (Option.map decodeTradeStatus) Escrow.Lifecycle.sampleFinal_trade)

theorem evicted_status_gone_sample : ∃ u ≤ 3000, 3000 ≤ u ∧
    ((sampleChain u ⟨0⟩).trade 1).map decodeTradeStatus =
      some (decodeTradeStatus Escrow.Lifecycle.sampleTrade) := by
  have hmem : sampleAnswer 3000 ∈ readLate.shared.answers :=
    List.mem_cons_of_mem _ List.mem_cons_self
  have hold : sampleAnswer 3000 ∉ readEarly.shared.answers := by
    intro h
    have hone := List.mem_singleton.mp (h : sampleAnswer 3000 ∈ [⟨sampleKey, _, 0, 0⟩])
    cases congrArg Answer.started hone
  exact (evicted_status_gone earlyRead_run readEarly_quiet lateRead_run hmem rfl
    (congrArg (Option.map decodeTradeStatus) Escrow.Lifecycle.sampleFinal_trade)).resolve_left hold

end Status

section Trustline

structure Balance where
  assetCode : Option String
  assetIssuer : Option String
  deriving DecidableEq, Repr

structure UsdcAsset where
  code : String
  issuer : String

def UsdcAsset.trustedBy (usdc : UsdcAsset) (balances : List Balance) : Bool :=
  balances.any fun b => b.assetCode = some usdc.code && b.assetIssuer = some usdc.issuer

/-- An account that does not exist has no trustline, and a failure is no answer.
Only a yes is kept. -/
def trustlinePolicy (usdc : UsdcAsset) : Policy (Option (List Balance)) Bool where
  ttl := trustlineTtlMs
  answers seen := seen.map fun account => account.any usdc.trustedBy
  keeps seen := (seen.map fun account => account.any usdc.trustedBy).filter id
  limit := none

def hasUsdcTrustline (usdc : UsdcAsset) (address : Address) :
    Reader Address (Option (List Balance)) Bool Bool :=
  cachedRead (trustlinePolicy usdc) address

variable {usdc : UsdcAsset} {accounts : ℕ → Address → Option (List Balance)} {start : ℕ}
  {tr : List (Entry (Pool (Effect Address (Option (List Balance)))
    (Reply (Option (List Balance)) Bool) (Store Address Bool)) (Act Address Bool (Move Address))
    (Option (Pid × Effect Address (Option (List Balance)))))}
  {w : Pool (Effect Address (Option (List Balance))) (Reply (Option (List Balance)) Bool)
    (Store Address Bool)} {a : Answer Address Bool}

theorem trusted_of_looked {u : ℕ} {address : Address} {seen : Option (Option (List Balance))}
    {b : Bool} (hlooked : Looked accounts address u seen)
    (hval : (seen.map fun account => account.any usdc.trustedBy) = some b) :
    (accounts u address).any usdc.trustedBy = b := by
  obtain rfl | rfl := hlooked
  · cases hval
  · exact Option.some.inj hval

/-- Who is told to have no trustline had none during the call; a yes may be five
minutes old. -/
theorem trustline_answers
    (hr : Run (machine (readers (trustlinePolicy usdc) accounts)) (idle (empty start)) tr w)
    (ha : a ∈ w.shared.answers) :
    (a.val = false → ∃ u, a.started ≤ u ∧ u ≤ a.ended ∧ (accounts u a.key).any usdc.trustedBy = false) ∧
    (a.val = true → ∃ u ≤ a.ended, a.started < u + trustlineTtlMs ∧
      (accounts u a.key).any usdc.trustedBy = true) := by
  obtain ⟨u, hu, seen, hlooked, ⟨hstarted, hanswers⟩ | ⟨hyoung, hkeeps⟩⟩ := answers_recent hr ha
  · refine ⟨fun hno => ⟨u, hstarted, hu, ?_⟩, fun hyes => ⟨u, hu, ?_, ?_⟩⟩
    · exact trusted_of_looked hlooked (hanswers.trans (congrArg some hno))
    · exact Nat.lt_of_le_of_lt hstarted (Nat.lt_add_of_pos_right (by decide))
    · exact trusted_of_looked hlooked (hanswers.trans (congrArg some hyes))
  · obtain ⟨hseen, hval⟩ := Option.filter_eq_some_iff.mp hkeeps
    refine ⟨fun hno => ?_, fun hyes => ⟨u, hu, hyoung, ?_⟩⟩
    · rw [hno] at hval
      cases hval
    · exact trusted_of_looked hlooked (hseen.trans (congrArg some hyes))

def sampleAsset : UsdcAsset := ⟨"USDC", "issuer"⟩

def sampleAccounts (now : ℕ) (_ : Address) : Option (List Balance) :=
  some (if now < 1000 then [] else [⟨some "USDC", some "issuer"⟩])

def sampleChecks : List (Act Address Bool (Move Address)) :=
  [.spawn 0 ⟨6⟩, .go 0 false, .go 0 false, .go 0 false, .outside (.clock 1000),
    .spawn 1 ⟨6⟩, .go 1 false, .go 1 false, .go 1 false]

theorem trustline_answers_sample :
    (∃ u, 0 ≤ u ∧ u ≤ 0 ∧ (sampleAccounts u ⟨6⟩).any sampleAsset.trustedBy = false) ∧
    ∃ u ≤ 1000, 1000 < u + trustlineTtlMs ∧
      (sampleAccounts u ⟨6⟩).any sampleAsset.trustedBy = true := by
  have hrun : Run (machine (readers (trustlinePolicy sampleAsset) sampleAccounts)) (idle (empty 0))
      (history (machine (readers (trustlinePolicy sampleAsset) sampleAccounts)) (idle (empty 0))
        sampleChecks)
      (final (machine (readers (trustlinePolicy sampleAsset) sampleAccounts)) (idle (empty 0))
        sampleChecks) :=
    Run.of_actions _ _ ⟨⟨rfl, trivial⟩, trivial, trivial, trivial, (by decide : 0 ≤ 1000),
      ⟨rfl, trivial⟩, trivial, trivial, trivial, trivial⟩
  constructor
  · exact (trustline_answers (a := ⟨⟨6⟩, false, 0, 0⟩) hrun
      (List.mem_cons_of_mem _ List.mem_cons_self)).1 rfl
  · exact (trustline_answers (a := ⟨⟨6⟩, true, 1000, 1000⟩) hrun List.mem_cons_self).2 rfl

end Trustline

section WalletAge

/-- An account that does not exist is kept as one without a transaction, a failure
is answered so and not kept. -/
def walletAgePolicy : Policy (Option (Option String)) (Option String) where
  ttl := walletAgeTtlMs
  answers seen := some ((seen.bind id).bind id)
  keeps seen := seen.map fun account => account.bind id
  limit := none

def getAccountFirstTxAt (address : Address) :
    Reader Address (Option (Option String)) (Option String) (Option String) :=
  cachedRead walletAgePolicy address

variable {accounts : ℕ → Address → Option (Option String)} {start : ℕ}
  {tr : List (Entry (Pool (Effect Address (Option (Option String)))
    (Reply (Option (Option String)) (Option String)) (Store Address (Option String)))
    (Act Address Bool (Move Address)) (Option (Pid × Effect Address (Option (Option String)))))}
  {w : Pool (Effect Address (Option (Option String))) (Reply (Option (Option String)) (Option String))
    (Store Address (Option String))} {a : Answer Address (Option String)}

/-- The day of a first transaction that is answered was right less than five
minutes before the call, and so was a none that does not come from a look of the
call itself. -/
theorem wallet_age_recent
    (hr : Run (machine (readers walletAgePolicy accounts)) (idle (empty start)) tr w)
    (ha : a ∈ w.shared.answers) : ∃ u ≤ a.ended, a.started < u + walletAgeTtlMs ∧
      ((accounts u a.key).bind id = a.val ∨ (a.val = none ∧ a.started ≤ u)) := by
  obtain ⟨u, hu, seen, hlooked, ⟨hstarted, hanswers⟩ | ⟨hyoung, hkeeps⟩⟩ := answers_recent hr ha
  · refine ⟨u, hu, Nat.lt_of_le_of_lt hstarted (Nat.lt_add_of_pos_right (by decide)), ?_⟩
    obtain rfl | rfl := hlooked
    · exact .inr ⟨(Option.some.inj hanswers).symm, hstarted⟩
    · exact .inl (Option.some.inj hanswers)
  · refine ⟨u, hu, hyoung, .inl ?_⟩
    obtain rfl | rfl := hlooked
    · cases hkeeps
    · exact Option.some.inj hkeeps

end WalletAge

end Lolipay.Coordinator.ChainReads
