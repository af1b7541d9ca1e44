import Lolipay.Escrow.Liability
import Lolipay.Joint.Bond

namespace Lolipay.Joint.Slash

open Lolipay.Ledger.Calls Lolipay.Ledger.Storage Lolipay.Ledger.Invocation Lolipay.Ledger.Runs
open Lolipay.Escrow.Types (TradeId Trade Terms ResolveOutcome DisputeView)
open Lolipay.Escrow.Contract (viewOf)
open Lolipay.Escrow.Invariant (settlement principalHeld)
open Lolipay.Escrow.Liability (Contradicts)
open Lolipay.Staking.Contract (slashedOf stakeOf culpritAndVictim)
open Lolipay.Staking.Effects (bonded seized Slashing)
open Lolipay.Joint.System

variable {site : Site} {ecfg : Escrow.Types.Config} {scfg : Staking.Types.Config}
  {lp caller : Address} {id : TradeId} {amount : ℤ} {t : Trade} {d : ResolveOutcome} {env : Env}
  {start : ℕ} {w w₀ w' : World} {a : Action} {e : JointEntry} {tr tr₁ tr₂ : History}

/-- The party that a settlement left with the money. -/
def holder (t : Terms) : ResolveOutcome → Address
  | .release => t.usdcRecipient
  | .refund => t.usdcProvider

def claimant (t : Terms) : ResolveOutcome → Address
  | .release => t.usdcProvider
  | .refund => t.usdcRecipient

def slashedBy (id : TradeId) (e : JointEntry) : Option ℤ :=
  match e.act, e.out with
  | .staking _ (.slash _ id' amount _), some _ => if id' = id then some amount else none
  | _, _ => none

def slashes (id : TradeId) (tr : History) : List ℤ := tr.filterMap (slashedBy id)

def slashPaidBy (id : TradeId) (e : JointEntry) : List Transfer :=
  match e.act, e.out with
  | .staking _ (.slash _ id' _ _), some ts => if id' = id then ts else []
  | _, _ => []

def slashPayments (id : TradeId) (tr : History) : List Transfer := tr.flatMap (slashPaidBy id)

theorem answers_escrow (site : Site) (w : World) (id : TradeId) :
    answers site w site.escrow id =
      (w.trade id).elim (.contractError 5) fun t => .view (viewOf t) := by
  rw [answers, if_pos rfl]
  show reply (okOr (w.trade id) .tradeNotFound >>= fun t => .ok (viewOf t)) = _
  cases w.trade id <;> rfl

theorem trade_of_view {view : DisputeView} (h : answers site w site.escrow id = .view view) :
    ∃ t, w.trade id = some t ∧ view = viewOf t := by
  rw [answers_escrow] at h
  cases ht : w.trade id with
  | none =>
    rw [ht] at h
    cases h
  | some t =>
    rw [ht] at h
    exact ⟨t, rfl, (Staking.Types.Reply.view.inj h).symm⟩

theorem culpritAndVictim_viewOf (hd : settlement t = some d) :
    culpritAndVictim (viewOf t) = (holder t.toTerms d, claimant t.toTerms d) := by
  have hrel := Escrow.Invariant.released_iff t
  rw [hd] at hrel
  cases d with
  | release => rw [culpritAndVictim, if_pos (hrel.mpr rfl)]; rfl
  | refund =>
    have hno : ¬(viewOf t).released = true := by simp [hrel]
    rw [culpritAndVictim, if_neg hno]
    rfl

/-- What is behind a slash that went through: a settled trade with a slash
window that is still open, the holder's bond and the claimant's money. -/
structure Slashed (site : Site) (scfg : Staking.Types.Config) (w : World) (env : Env)
    (lp : Address) (id : TradeId) (amount : ℤ) (t : Trade) (d : ResolveOutcome) (w' : World)
    (ts : List Transfer) : Prop where
  trade : w.trade id = some t
  direction : settlement t = some d
  liable : t.liabilityEstablished = true
  timely : env.timestamp ≤ t.slashDeadline
  culprit : lp = holder t.toTerms d
  capped : slashedOf w.staking id + amount ≤ t.usdcAmount
  paid : ts = [⟨scfg.usdcToken, site.staking, claimant t.toTerms d, amount⟩]
  booked : slashedOf w'.staking id = slashedOf w.staking id + amount
  taken : bonded (w'.stake lp) = bonded (w.stake lp) - amount
  others : ∀ lp', lp' ≠ lp → w'.stake lp' = w.stake lp'

structure Coherent (site : Site) (ecfg : Escrow.Types.Config) (scfg : Staking.Types.Config)
    (start : ℕ) (w : World) : Prop where
  escrow : Escrow.Invariant.Coherent ecfg start w.escrowSide
  staking : Staking.Solvency.Coherent site.staking scfg w.stakingSide
  linked : scfg.escrowContract = site.escrow

theorem Coherent.of_run (hd : Deployed site ecfg scfg w₀) (hr : Run (machine site) w₀ tr w) :
    Coherent site ecfg scfg w₀.now w :=
  ⟨run_coherent hd hr,
    (Staking.Solvency.Coherent.deployed hd.staking).run (run_staking (run_coherent hd Run.nil) hr),
    hd.linked⟩

theorem slash_inversion (hi : Coherent site ecfg scfg start w)
    (ha : admits site w (.staking env (.slash lp id amount caller))) {ts : List Transfer}
    (hout : out site w (.staking env (.slash lp id amount caller)) = some ts) :
    ∃ t d, Slashed site scfg w env lp id amount t d
      (next site w (.staking env (.slash lp id amount caller))) ts := by
  obtain ⟨-, hr⟩ | ⟨c, ts', evs, he, hn, hr⟩ := Staking.Effects.call_cases w.stakingSide env
    ⟨.slash lp id amount caller, answers site w⟩
  · simp only [out, stakingCall, hr, Option.map_none] at hout
    cases hout
  simp only [out, stakingCall, hr, Option.map_some, Option.some.injEq] at hout
  subst hout
  cases he with
  | @slashed cfg _ _ _ _ view _ hcfg hs =>
    obtain ⟨-, hk⟩ := hi.staking.unique hcfg
    have hreply := hs.reply
    rw [hk.escrow, hi.linked] at hreply
    obtain ⟨t, ht, rfl⟩ := trade_of_view hreply
    obtain ⟨d, hset⟩ : ∃ d, settlement t = some d := by
      rw [← Option.isSome_iff_exists, ← Option.ne_none_iff_isSome, Ne,
        ← Escrow.Invariant.preSettlement_iff, hs.settled]
      simp
    have hpair := culpritAndVictim_viewOf hset
    have hside : (next site w (.staking env (.slash lp id amount caller))).staking =
        { w.staking with
          stakes := w.staking.stakes.insert lp (seized (stakeOf w.staking lp) amount)
          slashed := w.staking.slashed.insert id (slashedOf w.staking id + amount) } := by
      simp only [next, stakingCall, hn]
      rfl
    refine ⟨t, d, ht, hset, hs.liable, hs.timely, ?_, hs.capped, ?_, ?_, ?_, ?_⟩
    · rw [hs.culprit, hpair]
    · rw [hpair, hk.token, ha.1]
    · rw [hside, slashedOf, AList.lookup_insert]
      rfl
    · show bonded (stakeOf (next site w _).staking lp) = _
      rw [hside, Staking.Effects.stakeOf_insert]
      exact (Staking.Solvency.seized_sound (hi.staking.stakes lp) hs.covered).2
    · intro lp' hne
      show stakeOf (next site w _).staking lp' = _
      rw [hside, Staking.Effects.stakeOf_insert_ne _ hne]
      rfl

theorem settled_stays (hi : Coherent site ecfg scfg start w) (hr : Run (machine site) w tr w')
    (ht : w.trade id = some t) (hset : settlement t = some d) :
    ∃ t', w'.trade id = some t' ∧ settlement t' = some d ∧ t'.toTerms = t.toTerms := by
  obtain ⟨t', ht', hterms⟩ := Escrow.Lifecycle.run_toTerms (run_escrow hr) ht
  obtain ⟨t₁, ht₁, hsame⟩ := Escrow.Lifecycle.run_sameSettlement hi.escrow (run_escrow hr) ht hset
  obtain rfl := Option.some.inj (ht'.symm.trans ht₁)
  exact ⟨t', ht', hsame.direction, hterms⟩

/-- An action either slashes on the trade or leaves the books of the trade alone. -/
theorem step_books (site : Site) (w : World) (a : Action) (id : TradeId) :
    (∃ env lp amount caller ts, a = .staking env (.slash lp id amount caller) ∧
      out site w a = some ts) ∨
    (slashedBy id ((machine site).entry w a) = none ∧
      slashPaidBy id ((machine site).entry w a) = [] ∧
      slashedOf (next site w a).staking id = slashedOf w.staking id) := by
  cases a with
  | escrow env op => exact .inr ⟨rfl, rfl, rfl⟩
  | other time moves => exact .inr ⟨rfl, rfl, rfl⟩
  | staking env op =>
    obtain ⟨hn, hr⟩ | ⟨c, ts, evs, he, hn, hr⟩ := Staking.Effects.call_cases w.stakingSide env
      ⟨op, answers site w⟩
    · have hout : out site w (.staking env op) = none := by simp only [out, stakingCall, hr]; rfl
      refine .inr ⟨?_, ?_, ?_⟩
      · simp only [slashedBy, Machine.entry, machine, hout]
      · simp only [slashPaidBy, Machine.entry, machine, hout]
      · simp only [next, stakingCall, hn]
        rfl
    · have hout : out site w (.staking env op) = some ts := by
        simp only [out, stakingCall, hr]
        rfl
      have hside : (next site w (.staking env op)).staking = c := by
        simp only [next, stakingCall, hn]
      rw [hside]
      cases he with
      | staked | requested | claimed | configured | pauseSet => exact .inr ⟨rfl, rfl, rfl⟩
      | @slashed cfg lp id' amount caller view _ hcfg hs =>
        by_cases hid : id' = id
        · subst hid
          exact .inl ⟨env, lp, amount, caller, _, rfl, hout⟩
        · refine .inr ⟨?_, ?_, ?_⟩
          · simp only [slashedBy, Machine.entry, machine, hout, hid, if_false]
          · simp only [slashPaidBy, Machine.entry, machine, hout, hid, if_false]
          · simp only [slashedOf, AList.lookup_insert_ne (Ne.symm hid)]
            rfl

/-- The books of a trade over a whole history: what was slashed is what the
staking contract remembers and what it paid, and the trade covers it. -/
structure Accounts (id : TradeId) (tr : History) (w : World) : Prop where
  booked : slashedOf w.staking id = (slashes id tr).sum
  paid : amounts (slashPayments id tr) = (slashes id tr).sum
  covered : slashes id tr ≠ [] → ∃ t d, w.trade id = some t ∧ settlement t = some d ∧
    (slashes id tr).sum ≤ t.usdcAmount

theorem Accounts.step (hi : Coherent site ecfg scfg start w) (ha : admits site w a)
    (h : Accounts id tr w) :
    Accounts id (tr ++ [(machine site).entry w a]) (next site w a) := by
  have hslashes : slashes id (tr ++ [(machine site).entry w a]) =
      slashes id tr ++ (slashedBy id ((machine site).entry w a)).toList := by
    rw [slashes, List.filterMap_append, List.filterMap_cons, List.filterMap_nil]
    cases slashedBy id ((machine site).entry w a) <;> rfl
  have hpayments : slashPayments id (tr ++ [(machine site).entry w a]) =
      slashPayments id tr ++ slashPaidBy id ((machine site).entry w a) := by
    simp only [slashPayments, List.flatMap_append, List.flatMap_cons, List.flatMap_nil,
      List.append_nil]
  obtain ⟨env, lp, amount, caller, ts, rfl, hout⟩ | ⟨hby, hpaid, hkept⟩ := step_books site w a id
  · obtain ⟨t, d, hs⟩ := slash_inversion hi ha hout
    have hby : slashedBy id ((machine site).entry w (.staking env (.slash lp id amount caller))) =
        some amount := by
      simp only [slashedBy, Machine.entry, machine, hout, if_true]
    have hpaid :
        slashPaidBy id ((machine site).entry w (.staking env (.slash lp id amount caller))) =
          [⟨scfg.usdcToken, site.staking, claimant t.toTerms d, amount⟩] := by
      simp only [slashPaidBy, Machine.entry, machine, hout, if_true, hs.paid]
    have hsum : (slashes id (tr ++ [(machine site).entry w
        (.staking env (.slash lp id amount caller))])).sum = (slashes id tr).sum + amount := by
      rw [hslashes, hby]
      simp
    have hcap := hs.capped
    rw [h.booked] at hcap
    refine ⟨?_, ?_, fun _ => ⟨t, d, hs.trade, hs.direction, ?_⟩⟩
    · rw [hsum, hs.booked, h.booked]
    · rw [hsum, hpayments, hpaid, amounts, List.map_append, List.sum_append, ← amounts, h.paid]
      simp
    · rw [hsum]
      exact hcap
  · rw [hby, Option.toList_none, List.append_nil] at hslashes
    rw [hpaid, List.append_nil] at hpayments
    refine ⟨?_, ?_, ?_⟩
    · rw [hkept, hslashes, h.booked]
    · rw [hpayments, hslashes, h.paid]
    · rw [hslashes]
      intro hne
      obtain ⟨t, d, ht, hset, hle⟩ := h.covered hne
      obtain ⟨t', ht', hset', hterms⟩ := settled_stays hi (Run.nil.snoc a ha) ht hset
      refine ⟨t', d, ht', hset', ?_⟩
      rw [hterms]
      exact hle

theorem Accounts.of_run (hd : Deployed site ecfg scfg w₀) (hr : Run (machine site) w₀ tr w)
    (id : TradeId) : Accounts id tr w := by
  induction hr with
  | nil =>
    obtain ⟨-, -, -, -, -, -, -, -, -, -, hc, -⟩ := hd.staking
    have hnone : slashedOf w₀.staking id = 0 := by
      rw [show w₀.staking = _ from hc]
      rfl
    exact ⟨hnone, rfl, fun hne => absurd rfl hne⟩
  | snoc hr a ha ih => exact ih.step (Coherent.of_run hd hr) ha

theorem slash_entry (hd : Deployed site ecfg scfg w₀)
    (hr : Run (machine site) w₀ (tr₁ ++ e :: tr₂) w)
    (hact : e.act = .staking env (.slash lp id amount caller)) (hout : e.out.isSome = true) :
    ∃ t d ts, e.out = some ts ∧ Slashed site scfg e.pre env lp id amount t d e.post ts ∧
      (∃ t', w.trade id = some t' ∧ settlement t' = some d ∧ t'.toTerms = t.toTerms) ∧
      ∃ f ∈ tr₁, ∃ time, Contradicts id (escrowEntry site f) time := by
  obtain ⟨hpre, ha, he, -⟩ := hr.at_entry
  have hi := Coherent.of_run hd hpre
  obtain ⟨ts, hts⟩ := Option.isSome_iff_exists.mp hout
  have hmade : out site e.pre (.staking env (.slash lp id amount caller)) = some ts := by
    rw [← hact, ← hts, entry_out he]
    rfl
  rw [hact] at ha
  obtain ⟨t, d, hs⟩ := slash_inversion hi ha hmade
  have hpost : e.post = next site e.pre (.staking env (.slash lp id amount caller)) := by
    rw [← hact, entry_post he]
    rfl
  rw [← hpost] at hs
  have hlaw := Escrow.Liability.liability_iff hd.escrow (run_escrow hpre) hs.trade
  obtain ⟨f, hf, time, hc⟩ := hlaw.mp hs.liable
  obtain ⟨g, hg, rfl⟩ := List.mem_map.mp hf
  exact ⟨t, d, ts, hts, hs, settled_stays hi hr.from_entry hs.trade hs.direction, g, hg, time, hc⟩

theorem failed_slash (he : e = (machine site).entry e.pre e.act)
    (hact : e.act = .staking env (.slash lp id amount caller)) (hout : e.out = none) :
    e.post.staking = e.pre.staking ∧ e.post.escrow = e.pre.escrow ∧
      e.post.balances = e.pre.balances := by
  have hfail : out site e.pre (.staking env (.slash lp id amount caller)) = none := by
    rw [← hact, ← hout, entry_out he]
    rfl
  have hpost : e.post = next site e.pre (.staking env (.slash lp id amount caller)) := by
    rw [← hact, entry_post he]
    rfl
  rw [hpost]
  obtain ⟨hn, -⟩ | ⟨c, ts, evs, -, -, hr⟩ := Staking.Effects.call_cases e.pre.stakingSide env
    ⟨.slash lp id amount caller, answers site e.pre⟩
  · simp only [next, stakingCall, hn]
    exact ⟨rfl, trivial, rfl⟩
  · simp only [out, stakingCall, hr, Option.map_some] at hfail
    cases hfail

/-- Slash accounting, for every trade in every run of the two contracts. All
slashes of a trade together stay within its amount and are paid to the party
that its settlement went against; each takes the bond of the other party, after
a verdict against the settlement and inside the slash window. -/
theorem slash_accounting (hd : Deployed site ecfg scfg w₀) (hr : Run (machine site) w₀ tr w)
    (id : TradeId) :
    (∀ t, w.trade id = some t → (slashes id tr).sum ≤ t.usdcAmount ∧
      amounts (slashPayments id tr) ≤ t.usdcAmount) ∧
    (∀ t, w.trade id = some t → principalHeld t = true → slashes id tr = []) ∧
    (w.trade id = none → slashes id tr = []) ∧
    (∀ t d, w.trade id = some t → settlement t = some d →
      ∀ tr₁ e tr₂ env lp amount caller, tr = tr₁ ++ e :: tr₂ →
        e.act = .staking env (.slash lp id amount caller) → e.out.isSome = true →
        lp = holder t.toTerms d ∧
        e.out = some [⟨scfg.usdcToken, site.staking, claimant t.toTerms d, amount⟩] ∧
        bonded (e.post.stake lp) = bonded (e.pre.stake lp) - amount ∧
        (∀ lp', lp' ≠ lp → e.post.stake lp' = e.pre.stake lp') ∧
        (∃ t', e.pre.trade id = some t' ∧ env.timestamp ≤ t'.slashDeadline) ∧
        ∃ f ∈ tr₁, ∃ time, Contradicts id (escrowEntry site f) time) ∧
    (∀ e ∈ tr, ∀ env lp amount caller, e.act = .staking env (.slash lp id amount caller) →
      e.out = none → e.post.staking = e.pre.staking ∧ e.post.escrow = e.pre.escrow ∧
        e.post.balances = e.pre.balances) := by
  have hacc := Accounts.of_run hd hr id
  have hi := Coherent.of_run hd hr
  have hsettled (h : ∀ t d, w.trade id = some t → settlement t ≠ some d) : slashes id tr = [] := by
    by_contra hne
    obtain ⟨t, d, ht, hset, -⟩ := hacc.covered hne
    exact h t d ht hset
  refine ⟨?_, ?_, ?_, ?_, ?_⟩
  · intro t ht
    rw [hacc.paid, and_self]
    by_cases hne : slashes id tr = []
    · have hpos := (hi.escrow.trades id t ht).terms.amount_pos
      rw [hne]
      exact hpos.le
    · obtain ⟨t', d, ht', -, hle⟩ := hacc.covered hne
      obtain rfl := Option.some.inj (ht.symm.trans ht')
      exact hle
  · intro t ht hheld
    apply hsettled
    intro t' d ht'
    obtain rfl := Option.some.inj (ht.symm.trans ht')
    have hflag := (hi.escrow.trades id t ht).flagged
    have hnone := (Escrow.Invariant.settlement_none_iff hflag).mpr hheld
    rw [hnone]
    simp
  · intro hnone
    apply hsettled
    intro t d ht
    rw [hnone] at ht
    cases ht
  · rintro t d ht hset tr₁ e tr₂ env lp amount caller rfl hact hout
    obtain ⟨t₀, d₀, ts, hts, hs, ⟨t', ht', hset', hterms⟩, hcontra⟩ := slash_entry hd hr hact hout
    obtain rfl := Option.some.inj (ht.symm.trans ht')
    obtain rfl := Option.some.inj (hset.symm.trans hset')
    rw [hterms]
    refine ⟨hs.culprit, ?_, hs.taken, hs.others, ⟨t₀, hs.trade, hs.timely⟩, hcontra⟩
    rw [hts, hs.paid]
  · intro e he env lp amount caller hact hout
    obtain ⟨-, -, -, -, -, hentry, -⟩ := hr.of_mem he
    exact failed_slash hentry hact hout

theorem sample_slash_accounting :
    slashes 1 Bond.sampleHistory = [400000, 600000] ∧
    (∀ t, (next Bond.sampleSite Bond.slashedWorld Bond.claimAction).trade 1 = some t →
      (slashes 1 Bond.sampleHistory).sum ≤ t.usdcAmount ∧
      amounts (slashPayments 1 Bond.sampleHistory) ≤ t.usdcAmount) :=
  ⟨by decide, (slash_accounting Bond.sampleWorld_deployed Bond.sample_run 1).1⟩

end Lolipay.Joint.Slash
