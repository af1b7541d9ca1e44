import Lolipay.Escrow.Roles

namespace Lolipay.Escrow.Rounds

open Lolipay.Ledger.Calls Lolipay.Ledger.Storage Lolipay.Ledger.Invocation Lolipay.Ledger.Runs
open Lolipay.Escrow.Types Lolipay.Escrow.Contract Lolipay.Escrow.System Lolipay.Escrow.Payout
open Lolipay.Escrow.Transitions Lolipay.Escrow.Effects Lolipay.Escrow.Invariant
open Lolipay.Escrow.Custody Lolipay.Escrow.Lifecycle Lolipay.Escrow.Roles

variable {self : Address} {cfg cfg₀ : Config} {env : Env} {id : TradeId} {t t' : Trade} {op : Op}
  {ts : List Transfer} {raiser : Address} {rs : List Address} {w w₀ : World} {tr : History}

/-- Who opened a dispute about a settled trade with this call, if the call did so. -/
def roundBy (id : TradeId) (e : Entry World Action (Option Receipt)) : Option Address :=
  match e.act, e.out, e.pre.trade id with
  | .call _ (.raiseDispute id' raiser), some _, some t =>
    if id' = id ∧ (t.status = .released ∨ t.status = .refunded) then some raiser else none
  | _, _, _ => none

def rounds (id : TradeId) (tr : History) : List Address := tr.filterMap (roundBy id)

def byThird (t : Terms) (rs : List Address) : List Address :=
  rs.filter fun a => a ≠ t.usdcProvider ∧ a ≠ t.usdcRecipient

/-- The three latches of a trade say how often each of them was used. -/
structure Counted (t : Trade) (rs : List Address) : Prop where
  provider : rs.count t.usdcProvider = t.providerPostSettleUsed.toNat
  recipient : rs.count t.usdcRecipient = t.recipientPostSettleUsed.toNat
  third : (byThird t.toTerms rs).length = t.resolverPostSettleUsed.toNat

theorem Counted.of_eq (h : Counted t rs) (hterms : t'.toTerms = t.toTerms)
    (hp : t'.providerPostSettleUsed = t.providerPostSettleUsed)
    (hr : t'.recipientPostSettleUsed = t.recipientPostSettleUsed)
    (hq : t'.resolverPostSettleUsed = t.resolverPostSettleUsed) : Counted t' rs := by
  refine ⟨?_, ?_, ?_⟩
  · rw [hterms, hp]
    exact h.provider
  · rw [hterms, hr]
    exact h.recipient
  · rw [hterms, hq]
    exact h.third

theorem Counted.reopen (h : Counted t rs) (hne : t.usdcProvider ≠ t.usdcRecipient)
    (hfresh : postSettleSpent t raiser = false) :
    Counted (reopened env t raiser) (rs ++ [raiser]) := by
  have hp := h.provider
  have hr := h.recipient
  have hq := h.third
  by_cases hprov : raiser = t.usdcProvider
  · subst hprov
    have hspent : t.providerPostSettleUsed = false := by simpa [postSettleSpent] using hfresh
    refine ⟨?_, ?_, ?_⟩ <;>
      simp [reopened, spendPostSettle, disputed, Trade.setPreDisputeStatus, byThird, hp, hr, hne,
        hspent]
    simpa [byThird] using hq
  by_cases hrec : raiser = t.usdcRecipient
  · subst hrec
    have hspent : t.recipientPostSettleUsed = false := by
      simpa [postSettleSpent, hprov] using hfresh
    refine ⟨?_, ?_, ?_⟩ <;>
      simp [reopened, spendPostSettle, disputed, Trade.setPreDisputeStatus, byThird, hp, hr,
        hne.symm, hspent]
    simpa [byThird] using hq
  · have hspent : t.resolverPostSettleUsed = false := by
      simpa [postSettleSpent, hprov, hrec] using hfresh
    refine ⟨?_, ?_, ?_⟩ <;>
      simp [reopened, spendPostSettle, disputed, Trade.setPreDisputeStatus, byThird, hp, hr, hprov,
        hrec, hspent]
    simpa [byThird, hspent] using hq

theorem length_eq (hne : t.usdcProvider ≠ t.usdcRecipient) (rs : List Address) :
    rs.length =
      rs.count t.usdcProvider + rs.count t.usdcRecipient + (byThird t.toTerms rs).length := by
  induction rs with
  | nil => rfl
  | cons a rs ih =>
    by_cases hp : a = t.usdcProvider
    · subst hp
      simp [byThird, hne] at ih ⊢
      omega
    by_cases hr : a = t.usdcRecipient
    · subst hr
      simp [byThird, hne.symm] at ih ⊢
      omega
    · simp [byThird, hp, hr] at ih ⊢
      omega

theorem Counted.bounds (h : Counted t rs) (hne : t.usdcProvider ≠ t.usdcRecipient) :
    rs.length ≤ 3 ∧ rs.count t.usdcProvider ≤ 1 ∧ rs.count t.usdcRecipient ≤ 1 ∧
      (byThird t.toTerms rs).length ≤ 1 := by
  have hp := h.provider
  have hr := h.recipient
  have hq := h.third
  have hlen := length_eq hne rs
  have hb (b : Bool) : b.toNat ≤ 1 := by cases b <;> decide
  have hbp := hb t.providerPostSettleUsed
  have hbr := hb t.recipientPostSettleUsed
  have hbq := hb t.resolverPostSettleUsed
  omega

theorem roundBy_some {e : Entry World Action (Option Receipt)} (h : roundBy id e = some raiser) :
    ∃ env t, e.act = .call env (.raiseDispute id raiser) ∧ e.out.isSome = true ∧
      e.pre.trade id = some t ∧ (t.status = .released ∨ t.status = .refunded) := by
  rw [roundBy] at h
  split at h
  next env id' raiser' r t hact hout hlook =>
    split at h
    next hc =>
      obtain ⟨rfl, hst⟩ := hc
      obtain rfl := Option.some.inj h
      exact ⟨env, t, hact, by rw [hout]; rfl, hlook, hst⟩
    next => cases h
  next => cases h

/-- What a round does: it is raised in time, by somebody with a fresh latch, who
is a party or the resolver of the moment, and it reopens the trade. -/
theorem round_moves {a : Action} (h : roundBy id ((machine self).entry w a) = some raiser) :
    ∃ env cfg t, a = .call env (.raiseDispute id raiser) ∧ w.trade id = some t ∧
      w.contents.config = some cfg ∧ (t.status = .released ∨ t.status = .refunded) ∧
      (raiser = cfg.resolver ∨ isParty t.toTerms raiser) ∧ postSettleSpent t raiser = false ∧
      env.timestamp ≤ t.postSettleDeadline ∧
      (next w a).trade id = some (reopened env t raiser) := by
  obtain ⟨env, t, hact, hsome, hlook, hst⟩ := roundBy_some h
  obtain rfl : a = .call env (.raiseDispute id raiser) := hact
  obtain ⟨cfg, t', ts, hcfg, hm, hnext⟩ := succeeded_moves hsome rfl hlook
  cases hm with
  | disputePaid hst' | disputeFunded hst' => obtain hst | hst := hst <;> cases hst.symm.trans hst'
  | disputeSettled hst' hs hby hfresh ht =>
    exact ⟨env, cfg, t, rfl, hlook, hcfg, hst, hby, hfresh, ht, hnext⟩

theorem roundBy_raise {a : Action} {env : Env} (ha : a = .call env (.raiseDispute id raiser))
    (hr : (receipt w a).isSome = true) (hlook : w.trade id = some t)
    (hst : t.status = .released ∨ t.status = .refunded) :
    roundBy id ((machine self).entry w a) = some raiser := by
  obtain ⟨r, hr⟩ := Option.isSome_iff_exists.mp hr
  subst ha
  simp only [roundBy, Machine.entry, machine, Lolipay.Ledger.Deployment.machine, hr, hlook, hst,
    and_self, if_true]

theorem moves_latches (hm : Moves cfg env id t op t' ts) :
    (∃ raiser, op = .raiseDispute id raiser ∧ (t.status = .released ∨ t.status = .refunded)) ∨
    (t'.providerPostSettleUsed = t.providerPostSettleUsed ∧
      t'.recipientPostSettleUsed = t.recipientPostSettleUsed ∧
      t'.resolverPostSettleUsed = t.resolverPostSettleUsed) := by
  cases hm with
  | mark | releaseEarly | confirm | refundLate | cancelBoth | disputePaid | disputeFunded
  | settlePaid | settleFunded => exact .inr ⟨rfl, rfl, rfl⟩
  | disputeSettled hst => exact .inl ⟨_, rfl, hst⟩
  | judge hst hj hpre hprior hv =>
    obtain ⟨-, -, rfl⟩ | ⟨-, rfl⟩ := verdict_ok hv <;> exact .inr ⟨rfl, rfl, rfl⟩

/-- The rounds of a stored trade are exactly what its latches have counted, and
before a trade is stored there are none. -/
def Tally (id : TradeId) (w : World) (rs : List Address) : Prop :=
  match w.trade id with
  | none => rs = []
  | some t => Counted t rs

theorem tally_of_trade (ht : w.trade id = some t) : Tally id w rs ↔ Counted t rs := by
  rw [Tally, ht]

theorem Tally.step {start : ℕ} {a : Action} (hi : Coherent cfg₀ start w) (h : Tally id w rs)
    (ha : admits self w a) :
    Tally id (next w a) (rs ++ (roundBy id ((machine self).entry w a)).toList) := by
  cases hround : roundBy id ((machine self).entry w a) with
  | some raiser =>
    obtain ⟨env, cfg, t, -, hlook, -, -, -, hfresh, -, hnext⟩ := round_moves hround
    rw [tally_of_trade hlook] at h
    rw [tally_of_trade hnext]
    exact h.reopen (hi.trades id t hlook).terms.parties_ne hfresh
  | none =>
    rw [Option.toList_none, List.append_nil]
    cases trade_step ha id with
    | same hs =>
      rw [Tally, hs]
      exact h
    | opened hact hself hcfg ho hnew hopen =>
      rw [Tally, hnew] at h
      subst h
      rw [tally_of_trade hopen]
      exact ⟨rfl, rfl, rfl⟩
    | @moved env op cfg t t' ts hact hself hcfg hlook hm hnext hrec =>
      rw [tally_of_trade hlook] at h
      rw [tally_of_trade hnext]
      obtain ⟨raiser, rfl, hst⟩ | ⟨hp, hr, hq⟩ := moves_latches hm
      · cases hround.symm.trans (roundBy_raise hact hrec hlook hst)
      · exact h.of_eq (moves_toTerms hm) hp hr hq

theorem run_tally (hd : Deployed self cfg₀ w₀) (hr : Run (machine self) w₀ tr w)
    (id : TradeId) : Tally id w (rounds id tr) := by
  induction hr with
  | nil =>
    rw [Tally, trade_none_of_deployed hd]
    rfl
  | @snoc tr u hr a ha ih =>
    have hstep := ih.step ((Coherent.deployed hd).run hr) ha
    have hrounds : rounds id (tr ++ [(machine self).entry u a]) =
        rounds id tr ++ (roundBy id ((machine self).entry u a)).toList := by
      cases hround : roundBy id ((machine self).entry u a) <;>
        simp [rounds, List.filterMap_append, hround]
    rw [hrounds]
    exact hstep

theorem raise_silent {r : Receipt} (hr : receipt w (.call env (.raiseDispute id raiser)) = some r) :
    r.transfers = [] := by
  obtain ⟨-, hnone⟩ | ⟨c, ts, evs, he, -, hsome⟩ := call_cases w env (.raiseDispute id raiser)
  · cases hnone.symm.trans hr
  obtain rfl := Option.some.inj (hsome.symm.trans hr)
  cases he with
  | moved hcfg hlook hm => cases hm <;> rfl

theorem settled_silent {d : ResolveOutcome} {r : Receipt} (hf : Flagged t)
    (hd : settlement t = some d) (hlook : w.trade id = some t) (hop : op.tradeId = some id)
    (hr : receipt w (.call env op) = some r) : r.transfers = [] := by
  obtain ⟨-, hnone⟩ | ⟨c, ts, evs, he, -, hsome⟩ := call_cases w env op
  · cases hnone.symm.trans hr
  obtain rfl := Option.some.inj (hsome.symm.trans hr)
  cases he with
  | configured | pauseSet => cases hop
  | opened hcfg hnew =>
    obtain rfl := Option.some.inj hop
    cases hlook.symm.trans hnew
  | moved hcfg hlook' hm =>
    obtain rfl := Option.some.inj (hop.symm.trans (moves_tradeId hm))
    obtain rfl := Option.some.inj (hlook.symm.trans hlook')
    obtain ⟨-, hts⟩ | ⟨hn, -⟩ := moves_settlement hf hm
    · exact hts
    · cases hd.symm.trans hn

/-- A record read anywhere in a run agrees on the end of the dispute window with
every other record of the same settled trade. -/
theorem postSettleDeadline_fixed (hd : Deployed self cfg₀ w₀) (hr : Run (machine self) w₀ tr w)
    (ht : w.trade id = some t) {v : World} (hv : Visits tr v) (hu : v.trade id = some t')
    (hset : settlement t' ≠ none) : t.postSettleDeadline = t'.postSettleDeadline := by
  obtain ⟨d, hset⟩ := Option.ne_none_iff_exists'.mp hset
  obtain ⟨e, he, hv⟩ := hv
  obtain ⟨tr₁, tr₂, -, hpre, ha, hentry, hpost⟩ := hr.of_mem he
  have hafter : Run (machine self) e.pre (e :: tr₂) w := by
    have h := Run.cons ha (entry_post hentry ▸ hpost)
    rw [← hentry] at h
    exact h
  have hi := (Coherent.deployed hd).run hpre
  obtain rfl | rfl := hv
  · obtain ⟨t₁, ht₁, hsame⟩ := run_sameSettlement hi hafter hu hset
    obtain rfl := Option.some.inj (ht.symm.trans ht₁)
    exact hsame.postSettle
  · have hi' := hi.step ha
    have hnext : e.post = next e.pre e.act := entry_post hentry
    rw [← hnext] at hi'
    obtain ⟨t₁, ht₁, hsame⟩ := run_sameSettlement hi' hpost hu hset
    obtain rfl := Option.some.inj (ht.symm.trans ht₁)
    exact hsame.postSettle

/-- A verdict on a settled trade gives it the status back that it had when the
round was opened. -/
theorem verdict_restores (hd : Deployed self cfg₀ w₀)
    {e : Entry World Action (Option Receipt)} (hr : Run (machine self) w₀ tr e.pre)
    (he : e = (machine self).entry e.pre e.act) {d : ResolveOutcome} {caller : Address}
    (hact : e.act = .call env (.resolve id d caller)) (hout : e.out.isSome = true)
    (hlook : e.pre.trade id = some t) (hset : settlement t ≠ none) :
    ∃ e₀ ∈ tr, ∃ t₀ t₂, RaisedFrom id e₀ t₀ t ∧ (roundBy id e₀).isSome = true ∧
      e.post.trade id = some t₂ ∧ t₂.status = t₀.status := by
  have hf := (((Coherent.deployed hd).run hr).trades id t hlook).flagged
  obtain ⟨d', hset⟩ := Option.ne_none_iff_exists'.mp hset
  rw [entry_out he, hact] at hout
  obtain ⟨cfg, t', ts, -, hm, hnext⟩ := succeeded_moves hout rfl hlook
  obtain ⟨raiser, hop, -⟩ | ⟨outcome, caller', prior, u, -, hst, hpre, hdir, hv, rfl⟩ :=
    moves_of_settled hf hset hm
  · cases hop
  obtain ⟨e₀, he₀, t₀, hraised⟩ := dispute_origin hd hr hlook hst
  have hprior : prior = t₀.status := by
    have hrec := hraised.recorded
    rw [hpre] at hrec
    split at hrec
    next => cases hrec
    next => exact Option.some.inj hrec
  have hsettled : t₀.status = .released ∨ t₀.status = .refunded := by
    rw [hprior] at hdir
    generalize t₀.status = s at hdir
    cases s with
    | released => exact .inl rfl
    | refunded => exact .inr rfl
    | funded | fiatPaid | disputed => cases hdir
  refine ⟨e₀, he₀, t₀, restored u prior, hraised, ?_, ?_, hprior⟩
  · obtain ⟨-, -, -, -, -, hentry₀, -⟩ := hr.of_mem he₀
    obtain ⟨env₀, raiser, hact₀, -⟩ := hraised.call
    have hsome₀ := hraised.succeeded
    rw [entry_out hentry₀] at hsome₀
    rw [hentry₀, roundBy_raise hact₀ hsome₀ hraised.before hsettled]
    rfl
  · rw [entry_post he, hact]
    exact hnext

/-- Disputes about a settled trade are bounded: three in its whole life, one for
each party and one for all third parties together, who are resolvers at that
moment; all are raised in the window fixed at the settlement, none moves a
token, and every verdict restores the status from before its round. -/
theorem post_settlement_rounds (hd : Deployed self cfg₀ w₀) (hr : Run (machine self) w₀ tr w)
    (ht : w.trade id = some t) :
    (rounds id tr).length ≤ 3 ∧ (rounds id tr).count t.usdcProvider ≤ 1 ∧
    (rounds id tr).count t.usdcRecipient ≤ 1 ∧ (byThird t.toTerms (rounds id tr)).length ≤ 1 ∧
    (∀ e ∈ tr, ∀ raiser, roundBy id e = some raiser →
      (isParty t.toTerms raiser ∨ ∃ cfg, e.pre.contents.config = some cfg ∧ raiser = cfg.resolver) ∧
      (∀ r, e.out = some r → r.transfers = []) ∧
      ∀ v t₁, Visits tr v → v.trade id = some t₁ → settlement t₁ ≠ none →
        e.act.time ≤ t₁.postSettleDeadline) ∧
    (∀ tr₁ e tr₂ env d caller t₁, tr = tr₁ ++ e :: tr₂ →
      e.act = .call env (.resolve id d caller) → e.out.isSome = true →
      e.pre.trade id = some t₁ → settlement t₁ ≠ none →
      (∀ r, e.out = some r → r.transfers = []) ∧
      ∃ e₀ ∈ tr₁, ∃ t₀ t₂, RaisedFrom id e₀ t₀ t₁ ∧ (roundBy id e₀).isSome = true ∧
        e.post.trade id = some t₂ ∧ t₂.status = t₀.status) := by
  have hcount := (tally_of_trade ht).mp (run_tally hd hr id)
  have hs := ((Coherent.deployed hd).run hr).trades id t ht
  obtain ⟨hlen, hp, hrec, hthird⟩ := hcount.bounds hs.terms.parties_ne
  refine ⟨hlen, hp, hrec, hthird, ?_, ?_⟩
  · intro e he raiser hround
    obtain ⟨tr₁, tr₂, -, hpre, ha, hentry, hpost⟩ := hr.of_mem he
    rw [hentry] at hround
    obtain ⟨env, cfg, u, hact, hlook, hcfg, hst, hby, -, htime, -⟩ := round_moves hround
    have hf := (((Coherent.deployed hd).run hpre).trades id u hlook).flagged
    have hset : settlement u ≠ none := by
      rw [settlement_of_unflagged (hf.unflagged (by cases hst <;> simp [*]))]
      cases hst <;> simp [*, direction]
    obtain ⟨t₃, ht₃, hterms⟩ := run_toTerms (Run.cons ha (entry_post hentry ▸ hpost)) hlook
    obtain rfl := Option.some.inj (ht.symm.trans ht₃)
    refine ⟨?_, ?_, ?_⟩
    · rw [hterms]
      obtain hby | hby := hby
      · exact .inr ⟨cfg, hcfg, hby⟩
      · exact .inl hby
    · intro r hout
      rw [entry_out hentry, hact] at hout
      exact raise_silent hout
    · intro v t₁ hv hv' hset₁
      have h₁ := postSettleDeadline_fixed hd hr ht hv hv' hset₁
      have h₂ := postSettleDeadline_fixed hd hr ht ⟨e, he, .inl rfl⟩ hlook hset
      rw [← h₁, h₂, hact]
      exact htime
  · rintro tr₁ e tr₂ env d caller t₁ rfl hact hout hlook hset
    obtain ⟨hpre, -, hentry, -⟩ := hr.at_entry
    have hf := (((Coherent.deployed hd).run hpre).trades id t₁ hlook).flagged
    refine ⟨fun r hr' => ?_, verdict_restores hd hpre hentry hact hout hlook hset⟩
    rw [entry_out hentry, hact] at hr'
    obtain ⟨d', hset⟩ := Option.ne_none_iff_exists'.mp hset
    exact settled_silent hf hset hlook rfl hr'

theorem sample_post_settlement_rounds :
    rounds 1 sampleHistory = [⟨6⟩] ∧ (rounds 1 sampleHistory).count sampleTrade.usdcProvider ≤ 1 :=
  ⟨by decide, (post_settlement_rounds sampleWorld_deployed sample_run sampleFinal_trade).2.1⟩

def raisedByResolver (id : TradeId) (e : Entry World Action (Option Receipt)) : Bool :=
  match roundBy id e, e.pre.contents.config with
  | some raiser, some cfg => raiser = cfg.resolver
  | _, _ => false

/-- The recipient of a released trade is resolver for a while and disputes the
settlement; his successor gives the verdict and disputes it a second time. -/
def relayActions : List Action :=
  [.call (sampleEnv 1000 [⟨6⟩]) (.createTrade 1 sampleArgs),
    .call (sampleEnv 1500 [⟨7⟩]) (.markFiatPaid 1 ⟨7⟩),
    .call (sampleEnv 1600 [⟨6⟩]) (.confirmAndRelease 1),
    .call (sampleEnv 1700 [⟨1⟩]) (.setConfig { sampleConfig with resolver := ⟨7⟩ }),
    .call (sampleEnv 1800 [⟨7⟩]) (.raiseDispute 1 ⟨7⟩),
    .call (sampleEnv 1900 [⟨1⟩]) (.setConfig sampleConfig),
    .call (sampleEnv 2000 [⟨3⟩]) (.resolve 1 .release ⟨3⟩),
    .call (sampleEnv 2100 [⟨3⟩]) (.raiseDispute 1 ⟨3⟩)]

theorem relayActions_admitted : Admitted (machine ⟨0⟩) sampleWorld relayActions := by
  refine ⟨⟨rfl, ?_⟩, ⟨rfl, ?_⟩, ⟨rfl, ?_⟩, ⟨rfl, ?_⟩, ⟨rfl, ?_⟩, ⟨rfl, ?_⟩, ⟨rfl, ?_⟩, ⟨rfl, ?_⟩,
    trivial⟩ <;> decide

/-- Holders of the resolver role can open two rounds between them, because a
party among them spends its own latch. -/
theorem two_rounds_by_resolvers :
    Deployed ⟨0⟩ sampleConfig sampleWorld ∧
    Run (machine ⟨0⟩) sampleWorld (history (machine ⟨0⟩) sampleWorld relayActions)
      (final (machine ⟨0⟩) sampleWorld relayActions) ∧
    ((history (machine ⟨0⟩) sampleWorld relayActions).filter (raisedByResolver 1)).length = 2 :=
  ⟨sampleWorld_deployed, Run.of_actions relayActions sampleWorld relayActions_admitted, by decide⟩

end Lolipay.Escrow.Rounds
