import Lolipay.Ledger.Latch
import Lolipay.Coordinator.Transactions

namespace Lolipay.Coordinator.Capacity

open Lolipay.Ledger.Storage Lolipay.Ledger.Invocation Lolipay.Ledger.Runs Lolipay.Ledger.Latch
open Lolipay.Async.Process Lolipay.Async.Scheduling
open Lolipay.Escrow.Types
open Lolipay.Coordinator.Orders Lolipay.Coordinator.Writes Lolipay.Coordinator.Database
open Lolipay.Coordinator.Creation Lolipay.Coordinator.Desk Lolipay.Coordinator.Steps
open Lolipay.Coordinator.Reservations Lolipay.Coordinator.Transactions

variable {y : Settings} {allowed : Call → Prop} {solo : Prop} {s t : Shared} {pid : Pid}
  {e : Effect} {o : Choice} {quote : QuoteId} {out : Option (Pid × Effect)} {w : Office}
  {a : DeskAct} {tr : DeskHistory}

def placed (e : DeskEntry) : Option (QuoteId × OrderId) :=
  match e.act, e.out with
  | .go pid o, some (_, .commit) =>
    match o.fails, e.pre.shared.txs pid with
    | false, some ⟨some c, some d⟩ => some (c.1, d.1)
    | _, _ => none
  | _, _ => none

def ordersFrom (quote : QuoteId) (e : DeskEntry) : ℤ :=
  if (placed e).any (fun c => c.1 = quote) then 1 else 0

def quoteUsed (quote : QuoteId) (s : Shared) : Bool :=
  (s.db.quotes.lookup quote).any fun q => q.usedAt.isSome

/-- The quotes that open transactions have taken are unused, each taken by one. -/
structure Taken (s : Shared) : Prop where
  unused : ∀ pid tx c, s.txs pid = some tx → tx.consumed = some c →
    ∃ q, s.db.quotes.lookup c.1 = some q ∧ q.usedAt = none
  apart : ∀ pid q tx tx' c c', pid ≠ q → s.txs pid = some tx → tx.consumed = some c →
    s.txs q = some tx' → tx'.consumed = some c' → c.1 ≠ c'.1

theorem lookup_useQuote {quotes : Store QuoteId Quote} (c : QuoteId × ℕ) (quote : QuoteId) :
    (useQuote quotes c).lookup quote =
      if quote = c.1 then (quotes.lookup quote).map fun q => { q with usedAt := some c.2 }
      else quotes.lookup quote := by
  rw [useQuote]
  split
  next h =>
    by_cases hq : quote = c.1
    · subst hq
      simp [h]
    · rw [if_neg hq]
  next q h =>
    by_cases hq : quote = c.1
    · subst hq
      simp [h]
    · rw [if_neg hq, AList.lookup_insert_ne hq]

theorem quotes_after (pid : Pid) (e : Effect) (o : Choice) (s : Shared) :
    (after pid e o s).db.quotes = s.db.quotes ∨
      ∃ tx c, e = .commit ∧ s.txs pid = some tx ∧ tx.consumed = some c ∧
        (after pid e o s).db.quotes = useQuote s.db.quotes c := by
  by_cases he : e = .commit
  · subst he
    simp only [after]
    split
    next => exact .inl rfl
    next =>
      simp only [runCommit, release, Shared.setTx]
      cases htx : s.txs pid with
      | none => exact .inl rfl
      | some tx =>
        simp only [Option.elim_some, applyTx]
        cases hc : tx.consumed with
        | none => exact .inl rfl
        | some c => exact .inr ⟨tx, c, trivial, rfl, hc, rfl⟩
  · exact .inl (tables_after he).1

theorem Taken.after (hs : Taken s) (hp : Permits y pid e o s) : Taken (after pid e o s) where
  unused q tx c htx hc := by
    have hkept (h : ∃ q, s.db.quotes.lookup c.1 = some q ∧ q.usedAt = none)
        (hcommit : e = .commit → q ≠ pid ∧ s.txs q = some tx) :
        ∃ q, (Desk.after pid e o s).db.quotes.lookup c.1 = some q ∧ q.usedAt = none := by
      obtain hsame | ⟨tx', c', he, htx', hc', hquotes⟩ := quotes_after pid e o s
      · rwa [hsame]
      · obtain ⟨hq, hthat⟩ := hcommit he
        rw [hquotes, lookup_useQuote, if_neg (hs.apart q pid tx tx' c c' hq hthat hc htx' hc')]
        exact h
    by_cases hq : q = pid
    · subst hq
      cases tx_step htx with
      | kept he h₀ => exact hkept (hs.unused q tx c h₀ hc) fun h => absurd h he.1
      | begun => cases hc
      | consumed h₀ hquote hnew =>
        obtain rfl := Option.some.inj hc
        exact hkept ⟨_, hquote, hnew⟩ fun h => by cases h
      | created h₀ hno => exact hkept (hs.unused q _ c h₀ hc) fun h => by cases h
    · rw [txs_other hq] at htx
      exact hkept (hs.unused q tx c htx hc) fun _ => ⟨hq, htx⟩
  apart q q' tx tx' c c' hne htx hc htx' hc' := by
    -- A process waits for the quotes that others have taken.
    have hwait (q : Pid) (tx tx' : Tx) (c c' : QuoteId × ℕ) (hq : q ≠ pid)
        (hown : (Desk.after pid e o s).txs pid = some tx) (hc : tx.consumed = some c)
        (hthat : s.txs q = some tx') (hc' : tx'.consumed = some c') : c.1 ≠ c'.1 := by
      cases tx_step hown with
      | kept he h₀ => exact hs.apart pid q tx tx' c c' (Ne.symm hq) h₀ hc hthat hc'
      | begun => cases hc
      | consumed h₀ hquote hnew =>
        obtain rfl := Option.some.inj hc
        exact Ne.symm (hp q hq tx' c' hthat hc')
      | created h₀ hno => exact hs.apart pid q _ tx' c c' (Ne.symm hq) h₀ hc hthat hc'
    by_cases hq : q = pid
    · subst hq
      rw [txs_other (Ne.symm hne)] at htx'
      exact hwait q' tx tx' c c' (Ne.symm hne) htx hc htx' hc'
    · rw [txs_other hq] at htx
      by_cases hq' : q' = pid
      · subst hq'
        exact Ne.symm (hwait q tx' tx c' c hq htx' hc' htx hc)
      · rw [txs_other hq'] at htx'
        exact hs.apart q q' tx tx' c c' hne htx hc htx' hc'

theorem Taken.of (hs : Taken s) (htxs : ∀ pid tx, t.txs pid = some tx → s.txs pid = some tx)
    (hquotes : t.db.quotes = s.db.quotes) : Taken t where
  unused pid tx c htx hc := by
    rw [hquotes]
    exact hs.unused pid tx c (htxs pid tx htx) hc
  apart pid q tx tx' c c' hne htx hc htx' hc' :=
    hs.apart pid q tx tx' c c' hne (htxs pid tx htx) hc (htxs q tx' htx') hc'

theorem Taken.step (hs : Taken s) (h : Step (desk y allowed) s out t) : Taken t := by
  cases h with
  | same => exact hs
  | effect pid e o hp => exact hs.after hp
  | dies pid =>
    refine hs.of (fun q tx htx => ?_) rfl
    change (release pid s).txs q = some tx at htx
    rw [txs_release] at htx
    split at htx
    next => cases htx
    next => exact htx
  | moved m hm => cases m <;> exact hs.of (fun _ _ htx => htx) rfl

theorem quoteUsed_after (h : quoteUsed quote s = true) :
    quoteUsed quote (after pid e o s) = true := by
  simp only [quoteUsed] at h ⊢
  obtain hsame | ⟨tx, c, -, -, -, hquotes⟩ := quotes_after pid e o s
  · rw [hsame]
    exact h
  · rw [hquotes, lookup_useQuote]
    split
    next =>
      cases hq : s.db.quotes.lookup quote with
      | none => simp [hq] at h
      | some q => simp
    next => exact h

theorem quoteUsed_step (h : Step (desk y allowed) s out t) (hq : quoteUsed quote s = true) :
    quoteUsed quote t = true := by
  cases h with
  | same => exact hq
  | effect pid e o hp => exact quoteUsed_after hq
  | dies pid => exact hq
  | moved m hm => cases m <;> exact hq

theorem placed_cases {id : OrderId} (ha : (machine (desk y allowed)).admits w a)
    (h : placed ((machine (desk y allowed)).entry w a) = some (quote, id)) :
    ∃ pid o time p k, a = .go pid o ∧ o.fails = false ∧
      w.running pid = some (.step .commit k) ∧
      w.shared.txs pid = some ⟨some (quote, time), some (id, p)⟩ ∧
      ((machine (desk y allowed)).next w a).shared = after pid .commit o w.shared := by
  cases a with
  | spawn | kill | outside => cases h
  | go pid o =>
    obtain ⟨e, k, hrun, -, hout, hnext⟩ := go_cases ha
    simp only [placed, Machine.entry, hout] at h
    split at h
    next _ _ hact he =>
      obtain ⟨rfl, rfl⟩ := Act.go.inj hact
      obtain ⟨-, rfl⟩ := Prod.mk.inj (Option.some.inj he)
      split at h
      next hfails htx =>
        obtain ⟨rfl, rfl⟩ := Prod.mk.inj (Option.some.inj h)
        exact ⟨_, _, _, _, k, rfl, hfails, hrun, htx, hnext⟩
      next => cases h
    next => cases h

theorem ordersFrom_charge (hs : Taken w.shared) (ha : (machine (desk y allowed)).admits w a) :
    ordersFrom quote ((machine (desk y allowed)).entry w a) + spent (quoteUsed quote w.shared) ≤
      spent (quoteUsed quote ((machine (desk y allowed)).next w a).shared) := by
  rw [ordersFrom]
  split
  next h =>
    obtain ⟨c, hc, hquote⟩ := (Option.any_eq_true _ _).mp h
    obtain rfl := of_decide_eq_true hquote
    obtain ⟨pid, o, time, p, k, -, hf, -, htx, hnext⟩ := placed_cases ha hc
    obtain ⟨q, hq, hnew⟩ := hs.unused pid _ _ htx rfl
    have hbefore : quoteUsed c.1 w.shared = false := by simp [quoteUsed, hq, hnew]
    have hafter : quoteUsed c.1 (after pid .commit o w.shared) = true := by
      simp [quoteUsed, (commit_tables hf htx).1, lookup_useQuote, hq]
    rw [hnext, hbefore, hafter]
    decide
  next =>
    rw [zero_add]
    exact spent_mono (quoteUsed_step (step_of_next ha))

theorem unplaced_tables (hw : Orderly (creationProtocol y allowed True) w)
    (ha : (machine (desk y allowed)).admits w a)
    (h : placed ((machine (desk y allowed)).entry w a) = none) :
    ((machine (desk y allowed)).next w a).shared.db.quotes = w.shared.db.quotes ∧
      ((machine (desk y allowed)).next w a).shared.db.orders = w.shared.db.orders := by
  cases a with
  | spawn | kill => exact ⟨rfl, rfl⟩
  | outside m => exact ⟨by cases m <;> rfl, orders_moved w.shared m⟩
  | go pid o =>
    obtain ⟨e, k, hrun, -, hout, hnext⟩ := go_cases ha
    obtain ⟨-, hwhole⟩ := hw.guar hrun ha
    obtain ⟨hquotes, horders⟩ | ⟨c, d, htx, -, horders⟩ := hwhole
    · exact ⟨hquotes, horders trivial⟩
    · -- A row that appears is the work of a commit that went through.
      have hfresh := hw.1.clean.id_fresh htx rfl
      have hstep : RowStep w.shared pid e d.1 _ _ := row_step hw.1.clean o d.1
      have hrow : (after pid e o w.shared).db.orders.lookup d.1 = some d.2.opened := by
        change (next (desk y allowed) w (.go pid o)).shared.db.orders = _ at horders
        rw [← AList.lookup_insert (a := d.1) (b := d.2.opened) w.shared.db.orders, ← horders]
        exact congrArg (·.db.orders.lookup d.1) hnext.symm
      rw [hfresh, hrow] at hstep
      obtain rfl : e = .commit := by
        cases hstep with
        | created he => exact he
      cases hf : o.fails with
      | true =>
        rw [commit_failed hf] at hrow
        cases hfresh.symm.trans hrow
      | false => simp [placed, Machine.entry, hout, htx, hf] at h

/-- The capacity of the provider holds the row that a creation commits. -/
theorem placed_exposure {id : OrderId} (hw : Orderly (creationProtocol y allowed True) w)
    (ha : (machine (desk y allowed)).admits w a)
    (h : placed ((machine (desk y allowed)).entry w a) = some (quote, id)) :
    ∃ (time : ℕ) (p : Placement) (lp : LpId) (wallet : Address),
      ((machine (desk y allowed)).next w a).shared.db.quotes =
        useQuote w.shared.db.quotes (quote, time) ∧
      w.shared.db.orders.lookup id = none ∧
      ((machine (desk y allowed)).next w a).shared.db.orders =
        w.shared.db.orders.insert id p.opened ∧
      p.lpId = some lp ∧ p.lpWallet = some wallet ∧
      lpExposure ((machine (desk y allowed)).next w a).shared.db.orders lp
        (((machine (desk y allowed)).next w a).shared.now / 1000) ≤ y.bondOf wallet := by
  obtain ⟨pid, o, time, p, k, -, hf, -, htx, hnext⟩ := placed_cases ha h
  rw [hnext]
  have hquotes := (commit_tables hf htx).1
  have horders : (after pid .commit o w.shared).db.orders =
      w.shared.db.orders.insert id p.opened := (commit_tables hf htx).2
  have hroom : Room y True w.shared pid p := (hw.1.rooms pid _ _ htx rfl).2
  obtain ⟨lp, wallet, hlp, hwallet, -, hcap⟩ := hroom.provider
  have hfresh := hw.1.clean.id_fresh htx rfl
  refine ⟨time, p, lp, wallet, hquotes, hfresh, horders, hlp, hwallet, ?_⟩
  have hnow := (after_outside pid .commit o w.shared).1
  have hfits := hcap trivial (w.shared.now / 1000) (le_refl _)
  rw [horders, hnow, lpExposure, total_insert, measureAt_of_none hfresh]
  have hamount := hroom.amount
  have hopened : p.opened.usdcAmount = p.usdcAmount := rfl
  simp only [lpExposure] at hfits
  rw [hopened]
  split <;> omega

/-- However creations run into each other: a quote makes one order at most, a
provider's bond covers what it is exposed to after each of them, and a step
that is not the commit of a creation touches neither quotes nor orders. -/
theorem quotes_and_capacity (hs : Opening s)
    (hrows : ∀ id row, s.db.orders.lookup id = some row → 0 ≤ row.usdcAmount)
    (hr : Run (machine (desk y IsCreation)) (idle s) tr w) :
    (∀ quote, (tr.map (ordersFrom quote)).sum ≤ 1) ∧
    ∀ e ∈ tr,
      (placed e = none → e.post.shared.db.quotes = e.pre.shared.db.quotes ∧
        e.post.shared.db.orders = e.pre.shared.db.orders) ∧
      ∀ quote id, placed e = some (quote, id) →
        ∃ (time : ℕ) (p : Placement) (lp : LpId) (wallet : Address),
          e.post.shared.db.quotes = useQuote e.pre.shared.db.quotes (quote, time) ∧
          e.pre.shared.db.orders.lookup id = none ∧
          e.post.shared.db.orders = e.pre.shared.db.orders.insert id p.opened ∧
          p.lpId = some lp ∧ p.lpWallet = some wallet ∧
          lpExposure e.post.shared.db.orders lp (e.post.shared.now / 1000) ≤ y.bondOf wallet := by
  have hstart : Reserved y True s :=
    ⟨hs.clean, fun id row h => ⟨hrows id row h, .inl trivial⟩,
      fun pid tx c htx => by simp [hs.idle] at htx⟩
  have htaken : Taken s :=
    ⟨fun pid tx c htx => by simp [hs.idle] at htx,
      fun pid q tx tx' c c' _ htx => by simp [hs.idle] at htx⟩
  refine ⟨fun quote => ?_, fun e he => ?_⟩
  · exact charged_once (I := fun w : Office => Taken w.shared) (ordersFrom quote)
      (fun w => quoteUsed quote w.shared) hr htaken
      (fun _ _ hw ha => hw.step (step_of_next ha)) fun _ _ hw ha => ordersFrom_charge hw ha
  · obtain ⟨tr₁, tr₂, -, hpre, ha, hentry, -⟩ := hr.of_mem he
    have hw := run_abides (fun _ c hc => hc) hstart hpre
    rw [entry_post hentry]
    rw [hentry]
    exact ⟨unplaced_tables hw ha, fun quote id h => placed_exposure hw ha h⟩

def sampleLimits : UserTier → Option ℕ := fun _ => some 1

/-- A deployment whose persons may order for one unit of the token a day, with
a provider that is bonded for two. -/
def smallSettings : Settings :=
  { sampleSettings with dailyLimitByTier := sampleLimits, bondOf := fun _ => 20000000 }

def smallConfig : PlatformConfig :=
  ⟨false, true, none, 1, 10000000, 1800, 1800, 7200, sampleLimits, Int.one_pos⟩

def smallQuote : Quote :=
  { userAddress := ⟨7⟩, flow := .topUp, rail := .bank, usdcAmount := 6000000, fiatAmount := 96000,
    fiatCurrency := "IDR", platformFeeBps := 50, lpFeeBps := 100, expiresAt := 2000000,
    usedAt := none }

def quotedDesk : Shared :=
  { sampleDesk ∅ with
    db := { (sampleDesk ∅).db with
      quotes := ((∅ : Store QuoteId Quote).insert 1 smallQuote).insert 2 smallQuote } }

/-- What the environment answers to the creation of order `n`. -/
def creationChoice (person : Option PersonId) (n : ℕ) : Choice :=
  { config := some smallConfig, person, candidates := [⟨0, ⟨6⟩, 0, 0⟩],
    stake := some ⟨20000000, true⟩, tradeId := n, orderId := n, ref := n }

/-- A whole `createFromQuote`. The provider's wallet belongs to nobody else. -/
def creationActions (pid : Pid) (n : ℕ) : List DeskAct :=
  .spawn pid (.createFromQuote ⟨7⟩ n none) ::
    List.replicate 15 (.go pid (creationChoice (some 1) n)) ++
      List.replicate 14 (.go pid (creationChoice none n))

theorem quotedDesk_opening : Opening quotedDesk :=
  ⟨fun _ => rfl, fun _ => rfl⟩

theorem creationActions_admitted :
    Admitted (machine (desk smallSettings IsCreation)) (idle quotedDesk) (creationActions 0 1) := by
  refine ⟨⟨rfl, trivial⟩, trivial, trivial, rfl, trivial, rfl, trivial, trivial, trivial, trivial,
    trivial, trivial, trivial, trivial, ?_, trivial, trivial, trivial, trivial, trivial, trivial,
    .inl rfl, .inl rfl, trivial, trivial, trivial, trivial, ?_, ?_, trivial, trivial⟩
  · intro stake h
    obtain rfl := Option.some.inj h
    rfl
  -- Nobody else has a transaction open.
  · intro q hq tx c htx
    change (if q = 0 then some (⟨none, none⟩ : Tx) else none) = some tx at htx
    cases (if_neg hq).symm.trans htx
  · intro q hq tx c htx
    change (if q = 0 then some (⟨some (1, 1000000), none⟩ : Tx)
      else if q = 0 then some (⟨none, none⟩ : Tx) else none) = some tx at htx
    cases (if_neg hq).symm.trans ((if_neg hq).symm.trans htx)

theorem admitted_widen {allowed allowed' : Call → Prop} (hmore : ∀ c, allowed c → allowed' c)
    {as : List DeskAct} (h : Admitted (machine (desk y allowed)) w as) :
    Admitted (machine (desk y allowed')) w as := by
  induction as generalizing w with
  | nil => trivial
  | cons a as ih =>
    refine ⟨?_, ih h.2⟩
    cases a with
    | spawn pid c => exact ⟨h.1.1, hmore c h.1.2⟩
    | go | kill | outside => exact h.1

def creationHistory : DeskHistory :=
  history (machine (desk smallSettings IsCreation)) (idle quotedDesk) (creationActions 0 1)

def placedDesk : Office :=
  final (machine (desk smallSettings IsCreation)) (idle quotedDesk) (creationActions 0 1)

theorem sample_quotes_and_capacity :
    Opening quotedDesk ∧
    (∀ id row, quotedDesk.db.orders.lookup id = some row → 0 ≤ row.usdcAmount) ∧
    (placedDesk.shared.db.orders.lookup 1).map (·.status) = some .matched ∧
    lpExposure placedDesk.shared.db.orders 0 1000 = 6000000 ∧
    ∀ quote, (creationHistory.map (ordersFrom quote)).sum ≤ 1 :=
  have hrows (id : OrderId) (row : Order) (h : quotedDesk.db.orders.lookup id = some row) :
      0 ≤ row.usdcAmount := by cases h
  ⟨quotedDesk_opening, hrows, by decide, by decide,
    (quotes_and_capacity quotedDesk_opening hrows
      (Run.of_actions _ _ creationActions_admitted)).1⟩

end Lolipay.Coordinator.Capacity
