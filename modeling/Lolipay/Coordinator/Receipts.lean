import Lolipay.Ledger.Decimal
import Lolipay.Lists.Words
import Lolipay.Coordinator.Attestation
import Lolipay.Coordinator.StoodDown
import Lolipay.Coordinator.BoundRows

namespace Lolipay.Coordinator.Receipts

open Lolipay.Lists.Words Lolipay.Ledger.Storage Lolipay.Ledger.Invocation Lolipay.Ledger.Runs
open Lolipay.Async.Process Lolipay.Async.Scheduling
open Lolipay.Escrow.Types hiding Config
open Lolipay.Coordinator.Orders Lolipay.Coordinator.Binding Lolipay.Coordinator.Writes
open Lolipay.Coordinator.Database hiding Effect Reply
open Lolipay.Coordinator.Services hiding attestFiatPaid
open Lolipay.Coordinator.Desk hiding Call Move body moved prunable
open Lolipay.Coordinator.Creation Lolipay.Coordinator.Steps Lolipay.Coordinator.BoundRows
open Lolipay.Coordinator.Attestation
open Lolipay.Escrow.Custody (sampleEnv sampleArgs)
open Lolipay.Ledger.Decimal (int_toString_inj not_mem_int_toString)

variable {x : Config} {id id' : OrderId} {p p' : Placement} {at₁ at₂ : ℤ} {message : String}

theorem space_not_mem_token {token : String} (h : printableToken token = true) :
    ' ' ∉ token.toList := by
  intro hmem
  simp only [printableToken, Bool.and_eq_true, List.all_eq_true] at h
  have hspace := h.2 ' ' hmem
  revert hspace
  decide

/-- A statement tells what it is about: no two orders, and no two times, have
the same one. -/
theorem message_inj (h : providerReceiptMessage x id p at₁ = some message)
    (h' : providerReceiptMessage x id' p' at₂ = some message) :
    id = id' ∧ x.tradeText p.tradeId = x.tradeText p'.tradeId ∧ p.fiatAmount = p'.fiatAmount ∧
      p.fiatCurrency = p'.fiatCurrency ∧
      (p.ref.map x.refText).getD "-" = (p'.ref.map x.refText).getD "-" ∧ at₁ = at₂ := by
  simp only [providerReceiptMessage, List.all_cons, List.all_nil, Bool.and_true, Bool.and_eq_true,
    Option.ite_none_right_eq_some, Option.some.injEq] at h h'
  obtain ⟨⟨hid, htrade, hcurrency, href⟩, rfl⟩ := h
  obtain ⟨⟨hid', htrade', hcurrency', href'⟩, hmessage⟩ := h'
  have hlabels : " trade=".toList = ' ' :: "trade=".toList ∧
      " amount=".toList = ' ' :: "amount=".toList ∧
      " currency=".toList = ' ' :: "currency=".toList ∧
      " reference=".toList = ' ' :: "reference=".toList ∧
      " at=".toList = ' ' :: "at=".toList := by
    decide
  have hspace (n : ℤ) : ' ' ∉ (toString n).toList := not_mem_int_toString (by decide) (by decide) n
  have hchars := congrArg String.toList hmessage
  simp only [String.toList_append, List.append_assoc, hlabels, List.cons_append] at hchars
  -- One word after the other, from the left.
  obtain ⟨horder, hrest⟩ := word_inj (space_not_mem_token hid') (space_not_mem_token hid)
    (List.append_cancel_left (List.append_cancel_left (List.append_cancel_left hchars)))
  obtain ⟨htradeEq, hrest⟩ := word_inj (space_not_mem_token htrade') (space_not_mem_token htrade)
    (List.append_cancel_left hrest)
  obtain ⟨hamountEq, hrest⟩ := word_inj (hspace _) (hspace _) (List.append_cancel_left hrest)
  obtain ⟨hcurrencyEq, hrest⟩ := word_inj (space_not_mem_token hcurrency')
    (space_not_mem_token hcurrency) (List.append_cancel_left hrest)
  obtain ⟨hrefEq, hrest⟩ := word_inj (space_not_mem_token href') (space_not_mem_token href)
    (List.append_cancel_left hrest)
  have hat := List.append_cancel_left hrest
  exact ⟨x.orderText_injective (String.toList_injective horder.symm),
    String.toList_injective htradeEq.symm, int_toString_inj (String.toList_injective hamountEq.symm),
    String.toList_injective hcurrencyEq.symm, String.toList_injective hrefEq.symm,
    int_toString_inj (String.toList_injective hat.symm)⟩

variable {s t u : Shared} {row row' : Order} {pid : Pid} {caller : Address}

/-- What every step keeps of the tables and the chain that a receipt rests on. -/
structure Lasts (s t : Shared) : Prop extends Grows s t where
  lps : ∀ id lp, s.db.lps.lookup id = some lp →
    ∃ lp', t.db.lps.lookup id = some lp' ∧ lp'.stellarAddress = lp.stellarAddress

theorem Lasts.of_lps (h : Grows s t) (hlps : t.db.lps = s.db.lps) : Lasts s t :=
  ⟨h, fun _ lp hlp => ⟨lp, by rw [hlps, hlp], rfl⟩⟩

theorem Lasts.refl (s : Shared) : Lasts s s := .of_lps (.refl s) rfl

theorem Lasts.trans (h : Lasts s t) (h' : Lasts t u) : Lasts s u where
  toGrows := h.toGrows.trans h'.toGrows
  lps id lp hlp := by
    obtain ⟨lp', hlp', hsame⟩ := h.lps id lp hlp
    obtain ⟨lp'', hlp'', hsame'⟩ := h'.lps id lp' hlp'
    exact ⟨lp'', hlp'', hsame'.trans hsame⟩

theorem lps_insert {lps : Store LpId Lp} {at' : LpId} {old new : Lp} (hold : lps.lookup at' = some old)
    (hnew : new.stellarAddress = old.stellarAddress) (id : LpId) (lp : Lp)
    (hlp : lps.lookup id = some lp) :
    ∃ lp', (lps.insert at' new).lookup id = some lp' ∧ lp'.stellarAddress = lp.stellarAddress := by
  by_cases hid : id = at'
  · subst hid
    obtain rfl := Option.some.inj (hold.symm.trans hlp)
    exact ⟨new, AList.lookup_insert _, hnew⟩
  · exact ⟨lp, (AList.lookup_insert_ne hid).trans hlp, rfl⟩

theorem lps_decision {id : LpId} {seen : Lp} {status : LpStatus} {note : Option String}
    {reachable : List OrderId} (i : LpId) (lp : Lp) (hlp : s.db.lps.lookup i = some lp) :
    ∃ lp', (runSetLpStatus id seen status note reachable s).1.db.lps.lookup i = some lp' ∧
      lp'.stellarAddress = lp.stellarAddress := by
  rw [runSetLpStatus]
  split
  next => exact ⟨lp, hlp, rfl⟩
  next old hold =>
    split
    next =>
      refine lps_insert hold ?_ i lp hlp
      rfl
    next => exact ⟨lp, hlp, rfl⟩

theorem lps_loss {id : OrderId} (i : LpId) (lp : Lp) (hlp : s.db.lps.lookup i = some lp) :
    ∃ lp', (runProviderLoss id s).db.lps.lookup i = some lp' ∧
      lp'.stellarAddress = lp.stellarAddress := by
  rw [runProviderLoss]
  split
  next => exact ⟨lp, hlp, rfl⟩
  next row _ =>
    dsimp only
    split
    next => exact ⟨lp, hlp, rfl⟩
    next =>
      split
      next => exact ⟨lp, hlp, rfl⟩
      next old hold =>
        refine lps_insert hold ?_ i lp hlp
        rfl

theorem Lasts.after (hc : Clean s) (pid : Pid) (e : Database.Effect) (o : Choice) :
    Lasts s (Desk.after pid e o s) := by
  have hgrows := Grows.after hc pid e o
  cases e with
  | setLpStatus id seen status note reachable =>
    refine ⟨hgrows, fun i lp hlp => ?_⟩
    simp only [Desk.after]
    split
    next => exact ⟨lp, hlp, rfl⟩
    next => exact lps_decision i lp hlp
  | accrueProviderLoss id =>
    refine ⟨hgrows, fun i lp hlp => ?_⟩
    simp only [Desk.after]
    split
    next => exact ⟨lp, hlp, rfl⟩
    next => exact lps_loss i lp hlp
  | _ => exact .of_lps hgrows (StoodDown.lps_after (by simp) (by simp))

theorem Lasts.moved {a : Desk.Move} (ha : Moves s a) : Lasts s (Desk.moved s a) := by
  refine .of_lps (.moved ha) ?_
  cases a <;> rfl

theorem Lasts.release : Lasts s (Desk.release pid s) :=
  .of_lps ⟨(Grows.refl s).rows, .refl _⟩ rfl

theorem Lasts.provider (h : Lasts s t) (hp : row'.toPlacement = row.toPlacement)
    (hrow : providerOfRow s row = some caller) : providerOfRow t row' = some caller := by
  have hlpId : row'.lpId = row.lpId := congrArg Placement.lpId hp
  obtain ⟨lp, hlp, hcaller⟩ := Option.map_eq_some_iff.mp hrow
  obtain ⟨lpId, hid, hlook⟩ := Option.bind_eq_some_iff.mp hlp
  obtain ⟨lp', hlook', hsame⟩ := h.lps lpId lp hlook
  rw [providerOfRow, hlpId, hid, Option.bind_some, hlook', Option.map_some, hsame, hcaller]

/-- The nonce that a submission uses up. -/
def Evidence.nonce : Attestation.Evidence → Option Nonce
  | .text _ _ => none
  | .receipt _ r => some r.nonce

def uses (n : Nonce) (sub : Submission) : Bool := Evidence.nonce sub.evidence = some n

variable {v v' : Chamber} {n : Nonce}

/-- One nonce is good for one submission: it is used once or held by one call,
and then its record is there or its time is over. -/
structure Once (x : Config) (n : Nonce) (v : Chamber) : Prop where
  submitted : v.submitted.countP (uses n) ≤ 1
  single : ∀ p q, v.holding p = some n → v.holding q = some n → p = q
  unsent : ∀ p, v.holding p = some n → v.submitted.countP (uses n) = 0
  spent : (0 < v.submitted.countP (uses n) ∨ ∃ p, v.holding p = some n) →
    v.consumed.lookup n = some (expiresAt x n) ∨ n.2 + x.challengeTtl < nowSecs v.shared.now

theorem nowSecs_mono {now now' : ℕ} (h : now ≤ now') : nowSecs now ≤ nowSecs now' :=
  Int.ofNat_le.mpr (Nat.div_le_div_right h)

theorem of_cleared {f : Pid → Option Nonce} {q : Pid}
    (h : (if q = pid then none else f q) = some n) : q ≠ pid ∧ f q = some n := by
  split at h
  next => cases h
  next hq => exact ⟨hq, h⟩

theorem Once.of_same (h : Once x n v) (hsub : v'.submitted = v.submitted)
    (hcons : v'.consumed = v.consumed) (hold : ∀ p, v'.holding p = some n → v.holding p = some n)
    (hnow : v.shared.now ≤ v'.shared.now) : Once x n v' where
  submitted := by
    rw [hsub]
    exact h.submitted
  single p q hp hq := h.single p q (hold p hp) (hold q hq)
  unsent p hp := by
    rw [hsub]
    exact h.unsent p (hold p hp)
  spent hs := by
    rw [hsub] at hs
    rw [hcons]
    exact (h.spent (hs.imp_right fun ⟨p, hp⟩ => ⟨p, hold p hp⟩)).imp_right fun hlt =>
      hlt.trans_le (nowSecs_mono hnow)

theorem accept_cases (x : Config) (pid : Pid) (caller : Address) (r : SignedReceipt) (v : Chamber) :
    accept x pid caller r v = (v, false) ∨
    timely x r.nonce v.shared.now = true ∧ v.consumed.lookup r.nonce = none ∧
      accept x pid caller r v = ({ v with
        consumed := v.consumed.insert r.nonce (expiresAt x r.nonce)
        holding := fun q => if q = pid then some r.nonce else v.holding q
        accepted := ⟨caller, r, nowSecs v.shared.now⟩ :: v.accepted }, true) := by
  rw [accept]
  split
  next htimely =>
    split
    next => exact .inl rfl
    next hrow => exact .inr ⟨htimely, hrow, rfl⟩
  next => exact .inl rfl

/-- A nonce that is accepted was never accepted before. -/
theorem Once.accept (h : Once x n v) (r : SignedReceipt) : Once x n (accept x pid caller r v).1 := by
  obtain heq | ⟨htimely, hrow, heq⟩ := accept_cases x pid caller r v
  · rw [heq]
    exact h
  · rw [heq]
    by_cases hn : r.nonce = n
    · have hnew : ¬(0 < v.submitted.countP (uses n) ∨ ∃ p, v.holding p = some n) := by
        intro hs
        obtain hrow' | hover := h.spent hs
        · rw [hn] at hrow
          cases hrow.symm.trans hrow'
        · simp only [timely, hn, Bool.and_eq_true, decide_eq_true_eq] at htimely
          omega
      obtain ⟨hsub, hhold⟩ := not_or.mp hnew
      have hown (p : Pid) (hp : (if p = pid then some r.nonce else v.holding p) = some n) :
          p = pid := by
        by_contra hne
        rw [if_neg hne] at hp
        exact hhold ⟨p, hp⟩
      refine ⟨h.submitted, fun p q hp hq => (hown p hp).trans (hown q hq).symm,
        fun p _ => Nat.eq_zero_of_not_pos hsub, fun _ => .inl ?_⟩
      rw [hn]
      exact AList.lookup_insert _
    · have hheld (p : Pid) (hp : (if p = pid then some r.nonce else v.holding p) = some n) :
          v.holding p = some n := by
        split at hp
        next => exact absurd (Option.some.inj hp) hn
        next => exact hp
      refine ⟨h.submitted, fun p q hp hq => h.single p q (hheld p hp) (hheld q hq),
        fun p hp => h.unsent p (hheld p hp), fun hs => ?_⟩
      obtain hrow' | hover := h.spent (hs.imp_right fun ⟨p, hp⟩ => ⟨p, hheld p hp⟩)
      · exact .inl ((AList.lookup_insert_ne (Ne.symm hn)).trans hrow')
      · exact .inr hover

theorem Once.submit (h : Once x n v) {sub : Submission} {answer : Choice}
    (hold : ∀ m, Evidence.nonce sub.evidence = some m → v.holding pid = some m) :
    Once x n (effect x pid (.submit sub) answer v).1 := by
  simp only [effect]
  by_cases hn : uses n sub = true
  · have hpid : v.holding pid = some n := hold n (of_decide_eq_true hn)
    have hzero := h.unsent pid hpid
    refine ⟨?_, fun p q hp hq => h.single p q (of_cleared hp).2 (of_cleared hq).2, fun p hp => ?_,
      fun _ => h.spent (.inr ⟨pid, hpid⟩)⟩
    · rw [List.countP_cons_of_pos hn, hzero]
    · obtain ⟨hne, hp⟩ := of_cleared hp
      exact absurd (h.single p pid hp hpid) hne
  · have hcount : (sub :: v.submitted).countP (uses n) = v.submitted.countP (uses n) :=
      List.countP_cons_of_neg hn
    refine ⟨hcount ▸ h.submitted,
      fun p q hp hq => h.single p q (of_cleared hp).2 (of_cleared hq).2,
      fun p hp => hcount ▸ h.unsent p (of_cleared hp).2, fun hs => h.spent ?_⟩
    rw [hcount] at hs
    exact hs.imp_right fun ⟨p, hp⟩ => ⟨p, (of_cleared hp).2⟩

theorem Once.prune (h : Once x n v) : Once x n (moved v .pruneOldQuotes) := by
  refine ⟨h.submitted, h.single, h.unsent, fun hs => ?_⟩
  obtain hrow | hover := h.spent hs
  · by_cases hp : n ∈ prunable v
    · right
      obtain ⟨-, hlt⟩ := List.mem_filter.mp hp
      rw [hrow] at hlt
      simp only [Option.any_some, decide_eq_true_eq, expiresAt] at hlt
      simp only [moved, nowSecs]
      omega
    · left
      simp only [moved]
      rw [lookup_erases, if_neg hp]
      exact hrow
  · exact .inr hover

def FundedBound (x : Config) (s : Shared) : Prop :=
  ∀ id row, s.db.orders.lookup id = some row → row.status = .funded →
    BoundAt s.chain x.escrowContractId row.toPlacement

/-- The statement of a receipt is about the order as it stands, signed by its
provider, and was accepted in time. -/
structure Vouched (x : Config) (v : Chamber) (caller : Address) (r : SignedReceipt) : Prop where
  signed : x.verifySep53 caller r.message r.signature = true
  order : ∃ row, v.shared.db.orders.lookup r.order = some row ∧
    providerReceiptMessage x r.order row.toPlacement r.at' = some r.message ∧
    providerOfRow v.shared row = some caller
  accepted : ∃ a ∈ v.accepted, a.caller = caller ∧ a.receipt = r ∧ r.at' ≤ a.time ∧
    a.time ≤ r.at' + x.challengeTtl

/-- The account has funded the trade of the order. -/
def Funder (x : Config) (s : Shared) (id : OrderId) (caller : Address) : Prop :=
  ∃ row trade, s.db.orders.lookup id = some row ∧
    (s.chain (contractIdFor row.toPlacement x.escrowContractId)).trade row.tradeId = some trade ∧
    trade.usdcProvider = caller

def Grounds (x : Config) (v : Chamber) (id : OrderId) : Attestation.Evidence → Prop
  | .text _ _ => True
  | .receipt caller r => r.order = id ∧ Vouched x v caller r ∧ Funder x v.shared id caller

/-- The contract and the trade are those of the order, which under the condition
`C` has the terms of the trade. -/
def Placed (x : Config) (C : Prop) (s : Shared) (id : OrderId) (contractId : Address)
    (tradeId : TradeId) : Prop :=
  ∃ row, s.db.orders.lookup id = some row ∧
    contractId = contractIdFor row.toPlacement x.escrowContractId ∧ tradeId = row.tradeId ∧
    (C → BoundAt s.chain x.escrowContractId row.toPlacement)

structure Concerns (x : Config) (C : Prop) (v : Chamber) (sub : Submission) : Prop where
  placed : Placed x C v.shared sub.order sub.contractId sub.tradeId
  grounds : Grounds x v sub.order sub.evidence

/-- What a call may count on. -/
structure Continues (v v' : Chamber) : Prop where
  shared : Lasts v.shared v'.shared
  accepted : v.accepted ⊆ v'.accepted

theorem Continues.refl (v : Chamber) : Continues v v := ⟨.refl _, List.Subset.refl _⟩

theorem Continues.trans {v'' : Chamber} (h : Continues v v') (h' : Continues v' v'') :
    Continues v v'' :=
  ⟨h.shared.trans h'.shared, List.Subset.trans h.accepted h'.accepted⟩

variable {C : Prop} {r : SignedReceipt} {sub : Submission} {evidence : Attestation.Evidence}
  {contractId : Address} {tradeId : TradeId}

theorem Vouched.continues (h : Vouched x v caller r) (hc : Continues v v') :
    Vouched x v' caller r where
  signed := h.signed
  order := by
    obtain ⟨row, hrow, hnames, hprovider⟩ := h.order
    obtain ⟨row', hrow', hp, -⟩ := hc.shared.rows _ row hrow
    refine ⟨row', hrow', ?_, hc.shared.provider hp hprovider⟩
    rw [hp]
    exact hnames
  accepted := by
    obtain ⟨a, ha, hfacts⟩ := h.accepted
    exact ⟨a, hc.accepted ha, hfacts⟩

theorem Funder.lasts (h : Funder x s id caller) (hl : Lasts s t) : Funder x t id caller := by
  obtain ⟨row, trade, hrow, htrade, hcaller⟩ := h
  obtain ⟨row', hrow', hp, -⟩ := hl.rows _ row hrow
  obtain ⟨trade', htrade', hterms⟩ := hl.chain _ _ trade htrade
  refine ⟨row', trade', hrow', ?_, ?_⟩
  · rw [hp]
    exact htrade'
  · have hsame : trade'.usdcProvider = trade.usdcProvider := congrArg Terms.usdcProvider hterms
    rw [hsame, hcaller]

theorem Grounds.continues (h : Grounds x v id evidence) (hc : Continues v v') :
    Grounds x v' id evidence := by
  cases evidence with
  | text => trivial
  | receipt caller r => exact ⟨h.1, h.2.1.continues hc, h.2.2.lasts hc.shared⟩

theorem Placed.lasts (h : Placed x C s id contractId tradeId) (hl : Lasts s t) :
    Placed x C t id contractId tradeId := by
  obtain ⟨row, hrow, hcontract, htrade, hbound⟩ := h
  obtain ⟨row', hrow', hp, -⟩ := hl.rows _ row hrow
  refine ⟨row', hrow', by rw [hp]; exact hcontract, ?_, fun hC => ?_⟩
  · exact htrade.trans (congrArg Placement.tradeId hp).symm
  · rw [hp]
    exact hl.chain.bound (hbound hC)

theorem Concerns.continues (h : Concerns x C v sub) (hc : Continues v v') : Concerns x C v' sub :=
  ⟨h.placed.lasts hc.shared, h.grounds.continues hc⟩

structure Sound (x : Config) (C : Prop) (v : Chamber) : Prop where
  clean : Clean v.shared
  past : ∀ c ∈ v.shared.past, ChainGrows c v.shared.chain
  once : ∀ n, Once x n v
  concerns : ∀ sub ∈ v.submitted, Concerns x C v sub

/-- The anchor, seen in runs in which the condition makes every funded order bound. -/
def anchorUnder (x : Config) (C : Prop) : System Call Choice Move Effect Reply Chamber :=
  (anchor x).restrict (fun _ _ _ v => C → FundedBound x v.shared) fun _ _ => True

theorem Sound.of_same (h : Sound x C v) (hc : Continues v v') (hclean : Clean v'.shared)
    (hpast : ∀ c ∈ v'.shared.past, ChainGrows c v'.shared.chain)
    (hsub : v'.submitted = v.submitted) (honce : ∀ n, Once x n v') : Sound x C v' where
  clean := hclean
  past := hpast
  once := honce
  concerns sub hs := (h.concerns sub (hsub ▸ hs)).continues hc

def Guarded (pid : Pid) (v v' : Chamber) : Prop :=
  Continues v v' ∧ ∀ q ≠ pid, v'.holding q = v.holding q

theorem Sound.accept (h : Sound x C v) (r : SignedReceipt) :
    Guarded pid v (accept x pid caller r v).1 ∧ Sound x C (accept x pid caller r v).1 := by
  have honce (n : Nonce) := @Once.accept x pid caller v n (h.once n) r
  obtain heq | ⟨-, -, heq⟩ := accept_cases x pid caller r v
  · rw [heq]
    exact ⟨⟨.refl v, fun _ _ => rfl⟩, h⟩
  · rw [heq] at honce ⊢
    have hc : Continues v { v with
        consumed := v.consumed.insert r.nonce (expiresAt x r.nonce)
        holding := fun q => if q = pid then some r.nonce else v.holding q
        accepted := ⟨caller, r, nowSecs v.shared.now⟩ :: v.accepted } :=
      ⟨.refl _, List.subset_cons_self _ _⟩
    exact ⟨⟨hc, fun q hq => if_neg hq⟩, h.of_same hc h.clean h.past rfl honce⟩

theorem Sound.effect {e : Effect} {o : Choice} (h : Sound x C v) (he : ∀ sub, e ≠ .submit sub)
    (hp : (anchor x).permits pid e o v) :
    Guarded pid v (effect x pid e o v).1 ∧ Sound x C (effect x pid e o v).1 := by
  cases e with
  | own e =>
    obtain ⟨hnow, hchain, hpast, -⟩ := after_outside pid e o v.shared
    have hc : Continues v (Attestation.effect x pid (.own e) o v).1 :=
      ⟨.after h.clean pid e o, List.Subset.refl _⟩
    refine ⟨⟨hc, fun _ _ => rfl⟩, h.of_same hc (h.clean.after hp) ?_ rfl fun n =>
      (h.once n).of_same rfl rfl (fun _ hp => hp) hnow.ge⟩
    simp only [Attestation.effect]
    rw [hpast, hchain]
    exact h.past
  | findReceiptOrder | recordAudit | readEscrowFiatAttestor | buildMarkFiatPaidTx =>
    exact ⟨⟨.refl v, fun _ _ => rfl⟩, h⟩
  | accept caller r =>
    simp only [Attestation.effect]
    split
    next => exact ⟨⟨.refl v, fun _ _ => rfl⟩, h⟩
    next => exact h.accept r
  | enter id =>
    simp only [Attestation.effect]
    split
    next => exact ⟨⟨.refl v, fun _ _ => rfl⟩, h⟩
    next =>
      exact ⟨⟨⟨.refl _, List.Subset.refl _⟩, fun _ _ => rfl⟩,
        h.of_same ⟨.refl _, List.Subset.refl _⟩ h.clean h.past rfl fun n =>
          (h.once n).of_same rfl rfl (fun _ hp => hp) le_rfl⟩
  | leave id =>
    exact ⟨⟨⟨.refl _, List.Subset.refl _⟩, fun _ _ => rfl⟩,
      h.of_same ⟨.refl _, List.Subset.refl _⟩ h.clean h.past rfl fun n =>
        (h.once n).of_same rfl rfl (fun _ hp => hp) le_rfl⟩
  | submit sub => exact absurd rfl (he sub)

theorem Sound.submit {o : Choice} (h : Sound x C v) (hsub : Concerns x C v sub)
    (hold : ∀ m, Evidence.nonce sub.evidence = some m → v.holding pid = some m) :
    Guarded pid v (Attestation.effect x pid (.submit sub) o v).1 ∧
      Sound x C (Attestation.effect x pid (.submit sub) o v).1 := by
  have hc : Continues v (Attestation.effect x pid (.submit sub) o v).1 :=
    ⟨.refl _, List.Subset.refl _⟩
  refine ⟨⟨hc, fun q hq => if_neg hq⟩, h.clean, h.past, fun n => (h.once n).submit hold, ?_⟩
  intro sub' hs
  obtain rfl | hs := List.mem_cons.mp hs
  · exact hsub.continues hc
  · exact (h.concerns sub' hs).continues hc

theorem Sound.dies (h : Sound x C v) :
    Continues v ((anchor x).dies pid v) ∧ Sound x C ((anchor x).dies pid v) := by
  have hc : Continues v ((anchor x).dies pid v) := ⟨.release, List.Subset.refl _⟩
  exact ⟨hc, h.of_same hc h.clean.release h.past rfl fun n =>
    (h.once n).of_same rfl rfl (fun _ hp => (of_cleared hp).2) le_rfl⟩

theorem Sound.moved {a : Move} (h : Sound x C v) (ha : (anchor x).moves v a) :
    Continues v (moved v a) ∧ Sound x C (moved v a) := by
  cases a with
  | desk a =>
    have hc : Continues v (Attestation.moved v (.desk a)) := ⟨.moved ha, List.Subset.refl _⟩
    have hnow : v.shared.now ≤ (Attestation.moved v (.desk a)).shared.now := by
      cases a with
      | tick time => exact ha
      | chain | prune => exact le_rfl
    exact ⟨hc, h.of_same hc (h.clean.moved a) (past_moved h.past ha) rfl fun n =>
      (h.once n).of_same rfl rfl (fun _ hp => hp) hnow⟩
  | pruneOldQuotes =>
    have hc : Continues v (Attestation.moved v .pruneOldQuotes) := ⟨.refl _, List.Subset.refl _⟩
    exact ⟨hc, h.of_same hc h.clean h.past rfl fun n => (h.once n).prune⟩

/-- Everybody relies on what lasts, and nobody touches the nonce that another
call holds. -/
def receiptProtocol (x : Config) (C : Prop) : Protocol (anchorUnder x C) where
  rely pid v v' := Continues v v' ∧ v'.holding pid = v.holding pid
  guar := Guarded
  inv := Sound x C
  refl _ v := ⟨.refl v, rfl⟩
  trans _ _ _ _ h h' := ⟨h.1.trans h'.1, h'.2.trans h.2⟩
  shares _ q _ _ hne _ h := ⟨h.1, h.2 q (Ne.symm hne)⟩
  dies _ _ h := ⟨h.dies.2, fun _ hq => ⟨h.dies.1, if_neg (Ne.symm hq)⟩⟩
  moved _ a h ha := by
    refine ⟨(h.moved ha.1).2, fun q => ⟨(h.moved ha.1).1, ?_⟩⟩
    cases a <;> rfl

section Safety

variable {α β : Type} {e : Effect}

abbrev Keeps (x : Config) (C : Prop) (pid : Pid) (h : Handler α) (v : Chamber) : Prop :=
  Safe ((receiptProtocol x C).of pid) (fun _ _ => True) h v

def Silent (e : Effect) : Prop := ∀ sub, e ≠ .submit sub

theorem keeps_silent {k : Reply e → Handler α} (he : Silent e)
    (hk : ∀ t o, (anchorUnder x C).permits pid e o t → Sound x C t → Continues v t →
      t.holding pid = v.holding pid → Keeps x C pid (k (effect x pid e o t).2) (effect x pid e o t).1) :
    Keeps x C pid (.step e k) v := by
  apply safe_step _
  intro t o hst ht hp
  obtain ⟨hguar, hsound⟩ := ht.effect he hp.1
  exact ⟨hguar, hsound, hk t o hp ht hst.1 hst.2⟩

theorem keeps_of_silent {h : Handler α} (hh : Every Silent h) : Keeps x C pid h v := by
  induction h generalizing v with
  | pure a => exact fun _ _ _ => trivial
  | fail => trivial
  | step e k ih => exact keeps_silent hh.1 fun _ _ _ _ _ _ => ih _ (hh.2 _)

theorem silent_embed (h : Service α) : Every Silent (h.embed .own : Handler α) := by
  apply Every.embed
  induction h with
  | pure a => trivial
  | fail => trivial
  | step e k ih => exact ⟨fun _ => by simp, ih⟩

theorem keeps_demand {f : Unit → Handler β} {ok : Bool} (h : ok = true → Keeps x C pid (f ()) v) :
    Keeps x C pid (demand ok >>= f) v := by
  cases ok with
  | false => trivial
  | true => exact h rfl

/-- Effects that neither accept a receipt nor use one up. -/
def Neutral : Effect → Prop
  | .accept _ _ | .submit _ => False
  | _ => True

theorem Neutral.silent (he : Neutral e) : Silent e := by
  rintro sub rfl
  exact he

theorem Neutral.holding (he : Neutral e) (o : Choice) :
    (effect x pid e o v).1.holding = v.holding := by
  cases e with
  | accept | submit => cases he
  | enter =>
    simp only [effect]
    split <;> rfl
  | _ => rfl

/-- The submission is accounted for, and its nonce held. -/
structure Ready (x : Config) (C : Prop) (pid : Pid) (v : Chamber) (sub : Submission) : Prop
    extends Concerns x C v sub where
  held : ∀ m, Evidence.nonce sub.evidence = some m → v.holding pid = some m

theorem Ready.continues (h : Ready x C pid v sub) (hc : Continues v v')
    (hh : v'.holding pid = v.holding pid) : Ready x C pid v' sub :=
  ⟨h.toConcerns.continues hc, fun m hm => hh.trans (h.held m hm)⟩

theorem keeps_neutral {k : Reply e → Handler α} (he : Neutral e)
    (hk : ∀ t o, (anchorUnder x C).permits pid e o t → Sound x C t → Continues v t →
      Continues v (effect x pid e o t).1 → (effect x pid e o t).1.holding pid = v.holding pid →
      Keeps x C pid (k (effect x pid e o t).2) (effect x pid e o t).1) :
    Keeps x C pid (.step e k) v := by
  refine keeps_silent he.silent fun t o hp ht hc hh => hk t o hp ht hc ?_ ?_
  · exact hc.trans (ht.effect he.silent hp.1).1.1
  · rw [he.holding]
    exact hh

theorem attest_keeps (h : Ready x C pid v sub) (notAfter : ℤ) :
    Keeps x C pid (attest x sub notAfter) v := by
  apply keeps_demand
  intro _
  refine keeps_neutral trivial fun _ _ _ _ _ hc hh => ?_
  have h := h.continues hc hh
  apply keeps_demand
  intro _
  refine keeps_neutral trivial fun _ _ _ _ _ hc hh => ?_
  have h := h.continues hc hh
  apply keeps_demand
  intro _
  refine keeps_neutral trivial fun _ _ _ _ _ hc hh => ?_
  have h := h.continues hc hh
  apply keeps_demand
  intro _
  apply safe_step _
  intro t o hst ht hp
  have h := h.continues hst.1 hst.2
  obtain ⟨hguar, hsound⟩ := ht.submit h.toConcerns h.held
  refine ⟨hguar, hsound, ?_⟩
  generalize ((anchorUnder x C).effect pid (.submit sub) o t).2 = sent
  cases (sent : Option Bool) with
  | none => trivial
  | some success => exact fun _ _ _ => trivial

theorem whileAttesting_keeps {work : Handler Unit}
    (h : ∀ u, Sound x C u → Continues v u → u.holding pid = v.holding pid → Keeps x C pid work u) :
    Keeps x C pid (whileAttesting id work) v := by
  refine keeps_neutral trivial fun t o hp ht _ hc hh => ?_
  have hsound := (ht.effect (e := .enter id) (fun _ => by simp) hp.1).2
  apply keeps_demand
  intro _
  apply Safe.ensuring ((receiptProtocol x C).refl pid) (h _ hsound hc hh) hsound
  intro u _
  exact keeps_of_silent ⟨fun _ => by simp, fun _ => trivial⟩

theorem attestFiatPaidOnce_keeps (hg : Grounds x v id evidence)
    (hold : ∀ m, Evidence.nonce evidence = some m → v.holding pid = some m) :
    Keeps x C pid (attestFiatPaidOnce x id evidence) v := by
  refine keeps_neutral trivial fun t o hp ht _ hc hh => ?_
  have hfound (order : Order) (horder : t.shared.db.orders.lookup id = some order)
      (hfunded : order.status = .funded) : Ready x C pid t
        ⟨id, contractIdFor order.toPlacement x.escrowContractId, order.tradeId, evidence⟩ := by
    refine ⟨⟨⟨order, horder, rfl, rfl, fun hC => ?_⟩, hg.continues hc⟩, fun m hm => ?_⟩
    · exact hp.2 hC id order horder hfunded
    · exact hh.trans (hold m hm)
  change Keeps x C pid (Program.bind (.pure (t.shared.db.orders.lookup id)) _) t
  cases horder : t.shared.db.orders.lookup id with
  | none => trivial
  | some order =>
    apply keeps_demand
    intro _
    apply keeps_demand
    intro hfunded
    have hready := hfound order horder (of_decide_eq_true hfunded)
    have hrecorded := Safe.ensuring ((receiptProtocol x C).refl pid)
      (attest_keeps hready (refundOpensAt order.toOrderBindingFields)) ht fun u _ =>
        keeps_of_silent (h := do let _ ← issue Effect.recordAudit; .pure ())
          ⟨fun _ => by simp, fun _ => trivial⟩
    apply hrecorded.bind ((receiptProtocol x C).refl pid) ht
    intro success u _ _
    apply keeps_demand
    intro _
    exact keeps_of_silent ((silent_embed _).bind fun _ => trivial)

theorem funder_of_read {order : Order} {trade : TradeOnChain} (hs : Sound x C v)
    (hrow : ∃ row, v.shared.db.orders.lookup id = some row ∧ row.toPlacement = order.toPlacement)
    (hread : ReallyHad v.shared (contractIdFor order.toPlacement x.escrowContractId) order.tradeId
      (some trade))
    (hcaller : trade.usdcProvider = some caller) : Funder x v.shared id caller := by
  obtain ⟨row, hrow, hp⟩ := hrow
  obtain ⟨c, hc, htrade⟩ := hread
  obtain ⟨t, ht, rfl⟩ := Option.map_eq_some_iff.mp htrade.symm
  have hgrows : ChainGrows c v.shared.chain := by
    obtain rfl | hc := List.mem_cons.mp hc
    · exact .refl _
    · exact hs.past c hc
  obtain ⟨t', ht', hterms⟩ := hgrows _ _ t ht
  refine ⟨row, t', hrow, ?_, ?_⟩
  · rw [hp]
    exact ht'
  · exact (congrArg Terms.usdcProvider hterms).trans (Option.some.inj hcaller)

def Read (s : Shared) (id : OrderId) (order : Order) : Prop :=
  ∃ row, s.db.orders.lookup id = some row ∧ row.toPlacement = order.toPlacement

theorem Read.lasts {order : Order} (h : Read s id order) (hl : Lasts s t) : Read t id order := by
  obtain ⟨row, hrow, hp⟩ := h
  obtain ⟨row', hrow', hp', -⟩ := hl.rows _ row hrow
  exact ⟨row', hrow', hp'.trans hp⟩

theorem confirmOnChain_keeps {order : Order} (hread : Read v.shared r.order order)
    (hv : Vouched x v caller r) (hold : v.holding pid = some r.nonce) :
    Keeps x C pid (confirmOnChain x order caller r) v := by
  refine keeps_neutral trivial fun t o hp ht hct hc hh => ?_
  have hv' : Vouched x t caller r := hv.continues hct
  have hread' : Read t.shared r.order order := hread.lasts hct.shared
  change Keeps x C pid (Program.bind (.pure (answer t.shared o
    (.getTradeStatusStrict (contractIdFor order.toPlacement x.escrowContractId) order.tradeId))) _) t
  generalize hanswer : answer t.shared o
    (.getTradeStatusStrict (contractIdFor order.toPlacement x.escrowContractId) order.tradeId) = onChain
  rcases (onChain : Option (Option TradeOnChain)) with _ | _ | trade
  · trivial
  · trivial
  · apply keeps_demand
    intro hcaller
    have hfunder : Funder x t.shared r.order caller :=
      funder_of_read ht hread' (read_strict (y := x.toSettings) hp.1 hanswer) (of_decide_eq_true hcaller)
    split
    next => exact keeps_of_silent ⟨fun _ => by simp, fun _ => trivial⟩
    next =>
      apply keeps_demand
      intro _
      refine keeps_neutral trivial fun t' _ _ _ hct' hc' hh' => ?_
      apply keeps_demand
      intro _
      refine attestFiatPaidOnce_keeps ⟨rfl, hv'.continues hct', hfunder.lasts hct'.shared⟩ ?_
      intro m hm
      obtain rfl := Option.some.inj hm
      exact (hh'.trans hh).trans hold

theorem vouched_of_accept {order : Order} {signature : String} {at' : ℤ} {o : Choice}
    (hrow : ∃ row, v.shared.db.orders.lookup id = some row ∧
      row.toPlacement = order.toPlacement ∧ providerOfRow v.shared row = some caller)
    (hmessage : providerReceiptMessage x id order.toPlacement at' = some message)
    (hsigned : x.verifySep53 caller message signature = true)
    (hok : (effect x pid (.accept caller ⟨id, at', message, signature⟩) o v).2 = true) :
    Vouched x (effect x pid (.accept caller ⟨id, at', message, signature⟩) o v).1 caller
        ⟨id, at', message, signature⟩ ∧
      (effect x pid (.accept caller ⟨id, at', message, signature⟩) o v).1.holding pid =
        some (id, at') := by
  simp only [effect] at hok ⊢
  split at hok
  next => cases hok
  next hf =>
    rw [if_neg hf]
    obtain heq | ⟨htimely, -, heq⟩ := accept_cases x pid caller ⟨id, at', message, signature⟩ v
    · rw [heq] at hok
      cases hok
    · rw [heq]
      obtain ⟨row, hrow, hp, hprovider⟩ := hrow
      refine ⟨⟨hsigned, ⟨row, hrow, by rw [hp]; exact hmessage, hprovider⟩,
        ⟨_, List.mem_cons_self, rfl, rfl, ?_⟩⟩, if_pos rfl⟩
      obtain ⟨hold, hnew⟩ := Bool.and_eq_true_iff.mp htimely
      exact ⟨of_decide_eq_true hnew, Int.le_add_of_sub_right_le (of_decide_eq_true hold)⟩

theorem confirmReceiptAsProvider_keeps (at' : ℤ) (signature : String) :
    Keeps x C pid (confirmReceiptAsProvider x id caller at' signature) v := by
  refine keeps_neutral trivial fun t o hp ht hct hc hh => ?_
  change Keeps x C pid (Program.bind (Program.bind (.pure ((t.shared.db.orders.lookup id).map
    fun row => (row, providerOfRow t.shared row))) _) _) t
  cases horder : t.shared.db.orders.lookup id with
  | none => trivial
  | some order =>
    change Keeps x C pid (Program.bind (if _ then _ else _) _) t
    split
    next hprovider =>
      dsimp only [Program.bind]
      split
      next => trivial
      next message hmessage =>
        apply keeps_demand
        intro hsigned
        refine keeps_silent (fun _ => by simp) fun u o' hp' hu hcu _ => ?_
        obtain ⟨row, hrow, hplace, -⟩ := hcu.shared.rows id order horder
        have hrow' : ∃ row, u.shared.db.orders.lookup id = some row ∧
            row.toPlacement = order.toPlacement ∧ providerOfRow u.shared row = some caller :=
          ⟨row, hrow, hplace, hcu.shared.provider hplace hprovider⟩
        have hread : Read u.shared id order := ⟨row, hrow, hplace⟩
        have haccept := (hu.effect (fun _ => by simp) hp'.1).1.1
        apply keeps_demand
        intro hok
        obtain ⟨hv, hold⟩ := vouched_of_accept hrow' hmessage hsigned hok
        apply whileAttesting_keeps
        intro w _ hcw hhw
        exact confirmOnChain_keeps (hread.lasts (haccept.trans hcw).shared) (hv.continues hcw)
          (hhw.trans hold)
    next => trivial

theorem body_keeps (pid : Pid) (c : Call) (v : Chamber) : Keeps x C pid (body x c) v := by
  cases c with
  | attestFiatPaid id actor evidence =>
    exact whileAttesting_keeps fun u _ _ _ =>
      attestFiatPaidOnce_keeps trivial fun m hm => by cases hm
  | confirmReceiptAsProvider id caller at' signature => exact confirmReceiptAsProvider_keeps at' signature
  | other c => exact keeps_of_silent (silent_embed _)

theorem every_attest {P : Effect → Prop} (hP : ∀ e, Silent e → P e) (hsub : P (.submit sub))
    (notAfter : ℤ) : Every P (attest x sub notAfter) := by
  refine (every_demand _).bind fun _ => ⟨hP _ fun _ => by simp, fun _ => ?_⟩
  refine (every_demand _).bind fun _ => ⟨hP _ fun _ => by simp, fun _ => ?_⟩
  refine (every_demand _).bind fun _ => ⟨hP _ fun _ => by simp, fun _ => ?_⟩
  refine (every_demand _).bind fun _ => ⟨hsub, fun sent => ?_⟩
  cases (sent : Option Bool) <;> trivial

theorem every_attestFiatPaidOnce {P : Effect → Prop} (hP : ∀ e, Silent e → P e)
    (hsub : ∀ contractId tradeId, P (.submit ⟨id, contractId, tradeId, evidence⟩)) :
    Every P (attestFiatPaidOnce x id evidence) := by
  refine ⟨hP _ fun _ => by simp, fun order => ?_⟩
  cases (order : Option Order) with
  | none => trivial
  | some order =>
    refine (every_demand _).bind fun _ => (every_demand _).bind fun _ => ?_
    refine Every.bind (.ensuring (every_attest hP (hsub _ _) _) ⟨hP _ fun _ => by simp, fun _ => trivial⟩) ?_
    intro success
    apply (every_demand _).bind
    intro _
    exact ((silent_embed _).mono hP).bind fun _ => trivial

theorem every_whileAttesting {P : Effect → Prop} (hP : ∀ e, Silent e → P e) {work : Handler Unit}
    (h : Every P work) : Every P (whileAttesting id work) := by
  refine ⟨hP _ fun _ => by simp, fun free => (every_demand _).bind fun _ => ?_⟩
  exact h.ensuring ⟨hP _ fun _ => by simp, fun _ => trivial⟩

theorem every_confirmOnChain {P : Effect → Prop} (hP : ∀ e, Silent e → P e) {order : Order}
    (hsub : ∀ contractId tradeId, P (.submit ⟨r.order, contractId, tradeId, .receipt caller r⟩)) :
    Every P (confirmOnChain x order caller r) := by
  refine ⟨hP _ fun _ => by simp, fun onChain => ?_⟩
  rcases (onChain : Option (Option TradeOnChain)) with _ | _ | trade
  · trivial
  · trivial
  · apply (every_demand _).bind
    intro _
    split
    next => exact ⟨hP _ fun _ => by simp, fun _ => trivial⟩
    next =>
      apply (every_demand _).bind
      intro _
      refine ⟨hP _ fun _ => by simp, fun now => (every_demand _).bind fun _ => ?_⟩
      exact every_attestFiatPaidOnce hP hsub

/-- The calls behind the submissions that rest on an administrator's evidence. -/
def Triggers (c : Call) : Effect → Prop
  | .submit sub => ∀ actor text, sub.evidence = .text actor text →
      c = .attestFiatPaid sub.order actor text
  | _ => True

theorem Silent.triggers {c : Call} (he : Silent e) : Triggers c e := by
  cases e with
  | submit sub => exact absurd rfl (he sub)
  | _ => trivial

theorem body_triggers (c : Call) : Every (Triggers c) (body x c) := by
  cases c with
  | attestFiatPaid id actor evidence =>
    refine every_whileAttesting (fun _ => Silent.triggers) ?_
    refine every_attestFiatPaidOnce (fun _ => Silent.triggers) fun _ _ actor' text h => ?_
    obtain ⟨rfl, rfl⟩ := Evidence.text.inj h
    rfl
  | confirmReceiptAsProvider id caller at' signature =>
    refine ⟨trivial, fun found => ?_⟩
    rcases (found : Option (Order × Option Address)) with _ | ⟨order, lp⟩
    · trivial
    · change Every _ (Program.bind (if _ then _ else _) _)
      split
      next =>
        dsimp only [Program.bind]
        split
        next => trivial
        next =>
          refine (every_demand _).bind fun _ => ⟨trivial, fun _ => (every_demand _).bind fun _ => ?_⟩
          refine every_whileAttesting (fun _ => Silent.triggers) ?_
          exact every_confirmOnChain (fun _ => Silent.triggers) fun _ _ _ _ h => by cases h
      next => trivial
  | other c => exact (silent_embed _).mono fun _ => Silent.triggers

end Safety

abbrev Log := List (Entry (Pool Effect Reply Chamber) (Act Call Choice Move) (Option (Pid × Effect)))

structure Vacant (v : Chamber) : Prop where
  opening : Opening v.shared
  past : v.shared.past = []
  holding : ∀ pid, v.holding pid = none
  accepted : v.accepted = []
  submitted : v.submitted = []

theorem Vacant.sound (h : Vacant v) : Sound x C v where
  clean := h.opening.clean
  past c hc := by
    rw [h.past] at hc
    cases hc
  once n := by
    refine ⟨by simp [h.submitted], fun p _ hp => ?_, fun _ _ => by simp [h.submitted], fun hs => ?_⟩
    · cases (h.holding p).symm.trans hp
    · obtain hs | ⟨p, hp⟩ := hs
      · simp [h.submitted] at hs
      · cases (h.holding p).symm.trans hp
  concerns sub hs := by
    rw [h.submitted] at hs
    cases hs

def Triggered (tr : Log) (pid : Pid) (sub : Submission) : Prop :=
  ∃ actor text, sub.evidence = .text actor text ∧
    ∃ e ∈ tr, e.act = .spawn pid (.attestFiatPaid sub.order actor text)

/-- The account that is both the provider of the order and the one that funded
its trade has signed for the order, and the statement was accepted in time. -/
structure Authorised (x : Config) (v : Chamber) (sub : Submission) (row : Order) (caller : Address)
    (r : SignedReceipt) (trade : Trade) : Prop where
  evidence : sub.evidence = .receipt caller r
  names : providerReceiptMessage x sub.order row.toPlacement r.at' = some r.message
  signed : x.verifySep53 caller r.message r.signature = true
  provider : providerOfRow v.shared row = some caller
  onChain : (v.shared.chain sub.contractId).trade sub.tradeId = some trade
  funder : trade.usdcProvider = caller
  accepted : ∃ a ∈ v.accepted, a.caller = caller ∧ a.receipt = r ∧ r.at' ≤ a.time ∧
    a.time ≤ r.at' + x.challengeTtl

/-- A submission that rests on the statement. -/
def restsOn (message : String) (sub : Submission) : Bool :=
  match sub.evidence with
  | .text _ _ => false
  | .receipt _ r => r.message = message

variable {w : Pool Effect Reply Chamber} {tr tr₁ tr₂ : Log}

theorem run_sound (hv : Vacant v) (hr : Run (machine (anchor x)) (idle v) tr w)
    (hC : C → ∀ e ∈ tr, FundedBound x e.pre.shared.shared) : Sound x C w.shared := by
  have hheeds : ∀ e ∈ tr, Heeds (fun _ _ _ v => C → FundedBound x v.shared) (fun _ _ => True)
      e.pre e.act := by
    intro e he
    cases e.act with
    | go pid o =>
      simp only [Heeds]
      split
      next => exact fun h => hC h e he
      next => trivial
    | spawn | kill | outside => trivial
  exact (run_orderly_of_heeds (d := receiptProtocol x C) (fun pid c s _ _ => body_keeps pid c s) hr
    hv.sound hheeds).1

theorem Concerns.agrees {row : Order} {trade : Trade} (h : Concerns x C v sub) (hC : C)
    (hrow : v.shared.db.orders.lookup sub.order = some row)
    (htrade : (v.shared.chain sub.contractId).trade sub.tradeId = some trade) :
    trade.fiatAmount = row.fiatAmount ∧ trade.fiatCurrency = row.fiatCurrency := by
  obtain ⟨row', hrow', hcontract, htradeId, hbound⟩ := h.placed
  obtain rfl := Option.some.inj (hrow.symm.trans hrow')
  obtain ⟨t, ht, hverify⟩ := hbound hC
  rw [hcontract, htradeId] at htrade
  obtain rfl := Option.some.inj (ht.symm.trans htrade)
  obtain ⟨_, -, -, hamount, hcurrency, -⟩ := (verify_eq_nil_iff _ _).mp hverify
  refine ⟨Option.some.inj hamount, ?_⟩
  simp only [decodeTradeStatus, asString, Option.ite_none_left_eq_some, Option.some.injEq] at hcurrency
  exact hcurrency.2

theorem Concerns.authorised {row : Order} (h : Concerns x C v sub) (hsub : sub.evidence = .receipt caller r)
    (hrow : v.shared.db.orders.lookup sub.order = some row) :
    ∃ trade, Authorised x v sub row caller r trade := by
  obtain ⟨row', hrow', hcontract, htradeId, -⟩ := h.placed
  obtain rfl := Option.some.inj (hrow.symm.trans hrow')
  have hg := h.grounds
  rw [hsub] at hg
  obtain ⟨horder, hv, row', trade, hrow', htrade, hfunder⟩ := hg
  obtain rfl := Option.some.inj (hrow.symm.trans hrow')
  obtain ⟨row', hrow', hnames, hprovider⟩ := hv.order
  rw [horder] at hrow' hnames
  obtain rfl := Option.some.inj (hrow.symm.trans hrow')
  refine ⟨trade, hsub, hnames, hv.signed, hprovider, ?_, hfunder, hv.accepted⟩
  rw [hcontract, htradeId]
  exact htrade

theorem restsOn_iff : restsOn message sub = true ↔
    ∃ caller r, sub.evidence = .receipt caller r ∧ r.message = message := by
  rw [restsOn]
  split
  next actor text h => simp [h]
  next caller r h => simp [h]

theorem Sound.names (h : Sound x C v) (hs : sub ∈ v.submitted)
    (hsub : sub.evidence = .receipt caller r) :
    ∃ p, providerReceiptMessage x r.order p r.at' = some r.message := by
  have hg := (h.concerns sub hs).grounds
  rw [hsub] at hg
  obtain ⟨row, -, hnames, -⟩ := hg.2.1.order
  exact ⟨_, hnames⟩

theorem Sound.countP_restsOn (h : Sound x C v) (message : String) :
    v.submitted.countP (restsOn message) ≤ 1 := by
  by_cases hnone : ∃ sub ∈ v.submitted, restsOn message sub = true
  · obtain ⟨sub, hs, hrests⟩ := hnone
    obtain ⟨caller, r, hsub, hmessage⟩ := restsOn_iff.mp hrests
    obtain ⟨p, hp⟩ := h.names hs hsub
    have hsame : ∀ sub' ∈ v.submitted, restsOn message sub' = true → uses r.nonce sub' = true := by
      intro sub' hs' hrests'
      obtain ⟨caller', r', hsub', hmessage'⟩ := restsOn_iff.mp hrests'
      obtain ⟨p', hp'⟩ := h.names hs' hsub'
      rw [hmessage] at hp
      rw [hmessage'] at hp'
      obtain ⟨horder, -, -, -, -, hat⟩ := message_inj hp hp'
      simp [uses, hsub', Evidence.nonce, SignedReceipt.nonce, horder, hat]
    exact (List.countP_mono_left hsame).trans (h.once r.nonce).submitted
  · have hzero : v.submitted.countP (restsOn message) = 0 := by
      rw [List.countP_eq_zero]
      intro sub hs hrests
      exact hnone ⟨sub, hs, hrests⟩
    rw [hzero]
    exact Nat.zero_le 1

/-- The key signs only on an authorised trigger: every `mark_fiat_paid` that is
submitted is for the trade of its order, and an administrator has called for it
or the provider's statement was accepted before; one statement leads to at most
one submission; and if funded orders are bound to matching trades, the amount and
the currency that the statement names are those of the trade. -/
theorem submissions_authorised (hv : Vacant v) (hr : Run (machine (anchor x)) (idle v) tr w) :
    (∀ tr₁ e tr₂ pid sub, tr = tr₁ ++ e :: tr₂ → e.out = some (pid, .submit sub) →
      ∃ row, e.pre.shared.shared.db.orders.lookup sub.order = some row ∧
        sub.contractId = contractIdFor row.toPlacement x.escrowContractId ∧
        sub.tradeId = row.tradeId ∧
        (Triggered tr₁ pid sub ∨
          ∃ caller r trade, Authorised x e.pre.shared sub row caller r trade ∧
            ((∀ e ∈ tr, FundedBound x e.pre.shared.shared) →
              trade.fiatAmount = row.fiatAmount ∧ trade.fiatCurrency = row.fiatCurrency))) ∧
    ∀ message, w.shared.submitted.countP (restsOn message) ≤ 1 := by
  refine ⟨?_, (run_sound (C := False) hv hr (fun h => h.elim)).countP_restsOn⟩
  rintro tr₁ e tr₂ pid sub rfl hout
  obtain ⟨hpre, ha, hentry, hpost⟩ := hr.at_entry
  rw [entry_out hentry] at hout
  obtain ⟨o, k, hact, hrun⟩ := of_out hout
  have hlast : e.post.shared = (effect x pid (.submit sub) o e.pre.shared).1 := by
    rw [entry_post hentry, hact]
    simp only [machine, next, hrun]
    rfl
  -- The submission changes nothing of what it rests on.
  have hsame : Continues e.post.shared e.pre.shared := by
    rw [hlast]
    exact ⟨.refl _, List.Subset.refl _⟩
  have hrun' : Run (machine (anchor x)) (idle v) (tr₁ ++ [e]) e.post := by
    have hnext := hpre.snoc e.act ha
    rw [← hentry, ← entry_post hentry] at hnext
    exact hnext
  have hstart : ∀ e' ∈ tr₁ ++ [e], e' ∈ tr₁ ++ e :: tr₂ := by
    intro e' he'
    simp only [List.mem_append, List.mem_cons, List.not_mem_nil, or_false] at he' ⊢
    tauto
  have hsound := run_sound (C := ∀ e' ∈ tr₁ ++ e :: tr₂, FundedBound x e'.pre.shared.shared) hv hrun'
    fun hC e' he' => hC e' (hstart e' he')
  have hmem : sub ∈ e.post.shared.submitted := by
    rw [hlast]
    exact List.mem_cons_self
  have hconcerns := (hsound.concerns sub hmem).continues hsame
  obtain ⟨row, hrow, hcontract, htrade, -⟩ := hconcerns.placed
  refine ⟨row, hrow, hcontract, htrade, ?_⟩
  cases hsub : sub.evidence with
  | text actor text =>
    obtain ⟨c, hspawn, hevery⟩ := spawned_every (fun _ c _ => body_triggers c) hpre hrun
    obtain rfl := hevery.1 actor text hsub
    exact .inl ⟨actor, text, hsub, hspawn⟩
  | receipt caller r =>
    obtain ⟨trade, hauth⟩ := hconcerns.authorised hsub hrow
    exact .inr ⟨caller, r, trade, hauth, fun hC => hconcerns.agrees hC hrow hauth.onChain⟩

section Samples

def letters (n : ℕ) : String := String.ofList (List.replicate (n + 1) 'a')

def sampleAnchor : Config where
  toSettings := sampleSettings
  orderText := letters
  orderText_injective m n h := by
    have hlength := congrArg (fun text => text.toList.length) h
    simpa [letters] using hlength
  tradeText id := letters id.toNat
  refText := letters
  verifySep53 caller _ signature := caller = ⟨6⟩ && signature = "c2lnbmVk"
  challengeTtl := 300
  hasAttestorKey := true
  escrowContractIdsExtra := []

/-- A funded order of the provider `⟨6⟩`. -/
def sampleChamber : Chamber where
  shared := sampleDesk ((∅ : Store OrderId Order).insert 0 (samplePlacement.opened.setStatus .funded))
  consumed := ∅
  attesting _ := none
  holding _ := none
  accepted := []
  submitted := []

theorem sampleChamber_vacant : Vacant sampleChamber :=
  ⟨⟨fun _ => rfl, fun _ => rfl⟩, rfl, fun _ => rfl, rfl, rfl⟩

def confirmActions : List (Act Call Choice Move) :=
  [.outside (.desk (.chain ⟨0⟩ (.call (sampleEnv 1000 [⟨6⟩]) (.createTrade 1 sampleArgs)))),
    .spawn 0 (.confirmReceiptAsProvider 0 ⟨6⟩ 1000 "c2lnbmVk"), .go 0 {}, .go 0 {}, .go 0 {},
    .go 0 { onChain := some (decodeTradeStatus sampleFunded) }, .go 0 {}, .go 0 {}, .go 0 {}, .go 0 {},
    .go 0 {}]

theorem confirmActions_admitted :
    Admitted (machine (anchor sampleAnchor)) (idle sampleChamber) (confirmActions ++ [.go 0 {}]) := by
  exact ⟨⟨rfl, by decide⟩, ⟨rfl, trivial⟩, trivial, trivial, trivial, .inr ⟨_, .head _, rfl⟩, trivial, trivial,
    trivial, trivial, trivial, trivial, trivial⟩

def sampleMachine : Machine (Pool Effect Reply Chamber) (Act Call Choice Move) (Option (Pid × Effect)) :=
  machine (anchor sampleAnchor)

/-- The confirmation comes to its submission, which the provider has authorised. -/
theorem sample_submissions_authorised : ∃ tr e sub row,
    Vacant sampleChamber ∧ Run sampleMachine (idle sampleChamber) (tr ++ [e]) e.post ∧
    e.out = some (0, .submit sub) ∧ e.pre.shared.shared.db.orders.lookup sub.order = some row ∧
    (Triggered tr 0 sub ∨ ∃ caller r trade, Authorised sampleAnchor e.pre.shared sub row caller r trade) ∧
    ∀ message, e.post.shared.submitted.countP (restsOn message) ≤ 1 := by
  obtain ⟨hbefore, hlast, -⟩ := Admitted.of_append confirmActions_admitted
  have hrun := (Run.of_actions _ _ hbefore).snoc (.go 0 {}) hlast
  obtain ⟨hsub, honce⟩ := submissions_authorised sampleChamber_vacant hrun
  obtain ⟨row, hrow, -, -, hauth⟩ := hsub _ _ _ 0 ⟨0, ⟨0⟩, 1, _⟩ rfl rfl
  exact ⟨_, _, _, row, sampleChamber_vacant, hrun, rfl, hrow,
    hauth.imp_right fun ⟨caller, r, trade, h, _⟩ => ⟨caller, r, trade, h⟩, honce⟩

end Samples

end Lolipay.Coordinator.Receipts
