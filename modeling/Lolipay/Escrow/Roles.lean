import Lolipay.Escrow.Progress

namespace Lolipay.Escrow.Roles

open Lolipay.Ledger
open Lolipay.Ledger.Calls Lolipay.Ledger.Storage Lolipay.Ledger.Invocation Lolipay.Ledger.Runs
open Lolipay.Escrow.Types Lolipay.Escrow.Contract Lolipay.Escrow.System Lolipay.Escrow.Payout
open Lolipay.Escrow.Transitions Lolipay.Escrow.Effects Lolipay.Escrow.Invariant
open Lolipay.Escrow.Custody Lolipay.Escrow.Lifecycle Lolipay.Escrow.Deadlines
open Lolipay.Escrow.Progress

variable {self : Address} {cfg cfg₀ : Config} {env : Env} {id : TradeId} {t : Trade}
  {party : Address} {w w₀ : World} {tr : History}

def isParty (t : Terms) (a : Address) : Prop := a = t.usdcProvider ∨ a = t.usdcRecipient

/-- Somebody becomes administrator or resolver while the trade is already stored. -/
structure Appoints (id : TradeId) (party : Address) (e : Entry World Action (Option Receipt)) :
    Prop where
  call : ∃ env c, e.act = .call env (.setConfig c) ∧ (party = c.admin ∨ party = c.resolver)
  succeeded : e.out.isSome = true
  stored : (e.pre.trade id).isSome = true

/-- A party is an operator only if it has been appointed after the trade was made. -/
def Separated (w : World) (tr : History) : Prop :=
  ∀ cfg id t party, w.contents.config = some cfg → w.trade id = some t → isParty t.toTerms party →
    party = cfg.admin ∨ party = cfg.resolver → ∃ e ∈ tr, Appoints id party e

theorem config_step (w : World) (a : Action) :
    (next w a).contents.config = w.contents.config ∨
    (∃ cfg, w.contents.config = some cfg ∧ ∃ paused,
      (next w a).contents.config = some { cfg with paused }) ∨
    (∃ env c, a = .call env (.setConfig c) ∧ (receipt w a).isSome = true ∧
      (next w a).contents.config = some c ∧ ∀ id, (next w a).trade id = w.trade id) := by
  cases a with
  | other time moves => exact .inl rfl
  | call env op =>
    obtain ⟨hn, -⟩ | ⟨c, ts, evs, he, hn, hr⟩ := call_cases w env op
    · exact .inl (by rw [hn])
    cases he with
    | opened | moved => exact .inl (by rw [hn])
    | configured =>
      exact .inr (.inr ⟨env, _, rfl, by rw [hr]; rfl, by rw [hn], fun id => by rw [hn]; rfl⟩)
    | pauseSet hcfg => exact .inr (.inl ⟨_, hcfg, _, by rw [hn]⟩)

theorem opening_party {args : CreateArgs} (ho : Opening cfg env args)
    (hparty : isParty (openingTrade cfg env.timestamp args).toTerms party) :
    ¬isOperator cfg party := by
  obtain rfl | rfl := hparty
  · exact ho.provider_free
  · exact ho.recipient_free

theorem party_step {a : Action} (ha : admits self w a) (ht : (next w a).trade id = some t)
    (hparty : isParty t.toTerms party) :
    (∃ u, w.trade id = some u ∧ isParty u.toTerms party) ∨
    (∃ env cfg args, a = .call env (.createTrade id args) ∧ w.contents.config = some cfg ∧
      ¬isOperator cfg party) := by
  cases trade_step ha id with
  | same hs => exact .inl ⟨t, hs.symm.trans ht, hparty⟩
  | opened hact hself hcfg ho hnew hopen =>
    obtain rfl := Option.some.inj (ht.symm.trans hopen)
    exact .inr ⟨_, _, _, hact, hcfg, opening_party ho hparty⟩
  | moved hact hself hcfg hlook hm hnext =>
    obtain rfl := Option.some.inj (ht.symm.trans hnext)
    rw [moves_toTerms hm] at hparty
    exact .inl ⟨_, hlook, hparty⟩

theorem Separated.step {a : Action} (hi : Separated w tr) (ha : admits self w a) :
    Separated (next w a) (tr ++ [(machine self).entry w a]) := by
  intro cfg id t party hcfg ht hparty hrole
  have hold {u : Trade} {c : Config} (hc : w.contents.config = some c) (hu : w.trade id = some u)
      (hp : isParty u.toTerms party) (hrole : party = c.admin ∨ party = c.resolver) :
      ∃ e ∈ tr ++ [(machine self).entry w a], Appoints id party e := by
    obtain ⟨e, he, happ⟩ := hi c id u party hc hu hp hrole
    exact ⟨e, List.mem_append_left _ he, happ⟩
  obtain hsame | ⟨c, hc, paused, hset⟩ | ⟨env, c, hact, hrec, hset, htrades⟩ := config_step w a
  · rw [hsame] at hcfg
    obtain ⟨u, hu, hp⟩ | ⟨env, c, args, -, hc, hfree⟩ := party_step ha ht hparty
    · exact hold hcfg hu hp hrole
    · obtain rfl := Option.some.inj (hcfg.symm.trans hc)
      exact absurd (by unfold isOperator; tauto) hfree
  · obtain rfl := Option.some.inj (hcfg.symm.trans hset)
    obtain ⟨u, hu, hp⟩ | ⟨env, c', args, -, hc', hfree⟩ := party_step ha ht hparty
    · exact hold hc hu hp hrole
    · obtain rfl := Option.some.inj (hc.symm.trans hc')
      exact absurd (by unfold isOperator; tauto) hfree
  · obtain rfl := Option.some.inj (hcfg.symm.trans hset)
    rw [htrades] at ht
    have hstored : (w.trade id).isSome = true := by rw [ht]; rfl
    exact ⟨(machine self).entry w a, by simp, ⟨env, cfg, hact, hrole⟩, hrec, hstored⟩

theorem run_separated (hd : Deployed self cfg₀ w₀) (hr : Run (machine self) w₀ tr w) :
    Separated w tr := by
  induction hr with
  | nil =>
    intro cfg id t party hcfg ht
    cases (trade_none_of_deployed hd).symm.trans ht
  | snoc h a ha ih => exact ih.step ha

theorem funded_dispute_refused (hcfg : w.contents.config = some cfg) (ht : w.trade id = some t)
    (hst : t.status = .funded) (hparty : party ≠ cfg.resolver) (env : Env) :
    receipt w (.call env (.raiseDispute id party)) = none := by
  by_contra hsome
  obtain ⟨cfg', t', ts, hcfg', hm, -⟩ :=
    succeeded_moves (Option.isSome_iff_ne_none.mpr hsome) rfl ht
  obtain rfl := Option.some.inj (hcfg.symm.trans hcfg')
  cases hm with
  | disputePaid hst' => cases hst.symm.trans hst'
  | disputeFunded hst' hs hby => exact hparty hby
  | disputeSettled hst' => cases hst' <;> simp_all

/-- Whatever title it holds, a party never settles a dispute about its own trade. -/
theorem party_never_judges (ht : w.trade id = some t) (hparty : isParty t.toTerms party)
    (d : ResolveOutcome) (env : Env) :
    receipt w (.call env (.resolve id d party)) = none := by
  by_contra hsome
  obtain ⟨cfg, t', ts, -, hm, -⟩ := succeeded_moves (Option.isSome_iff_ne_none.mpr hsome) rfl ht
  have hnot (hj : Judge cfg env t party) : False := by
    obtain rfl | rfl := hparty
    · exact hj.notProvider rfl
    · exact hj.notRecipient rfl
  cases hm with
  | settlePaid hst hj | settleFunded hst hj | judge hst hj => exact hnot hj

theorem resolver_opens (hs : Sound cfg₀ w₀.now w.now t) (hcfg : w.contents.config = some cfg)
    (ht : w.trade id = some t) (hst : t.status = .disputed) (hheld : principalHeld t = true)
    (hfree : ¬isParty t.toTerms cfg.resolver) (d : ResolveOutcome) {τ : ℕ}
    (hfit : d = .release → FeesFit t.toTerms) (hwin : τ + t.disputeWindow < u64Limit) :
    Opens self w id [cfg.resolver, cfg.fiatAttestor] (payout self t.toTerms d)
      (.resolve id d cfg.resolver) (if d = .release then .released else .refunded) τ := by
  refine opens_of_exec ht rfl ?_ fun cfg env t' us hm => moves_resolved_held hheld hm
  rintro env rfl rfl hsig hacc
  have hj : Judge cfg env t cfg.resolver :=
    ⟨fun hc => hfree (.inl hc), fun hc => hfree (.inr hc), .inl rfl, hsig _ (by simp)⟩
  exact resolve_goes hs hcfg ht hst hheld hj (.inl (hsig _ (by simp))) hfit hwin hacc

/-- Operators and parties. The attestor is never a party. A party holds another
office only by an appointment made after its trade; as long as there is none,
neither party can dispute the trade while it is funded, and the resolver of the
moment can settle it once it is disputed. No office lets a party settle it. -/
theorem operators_and_parties (hd : Deployed self cfg₀ w₀) (hr : Run (machine self) w₀ tr w)
    (ht : w.trade id = some t) :
    ∃ cfg, w.contents.config = some cfg ∧ ¬isParty t.toTerms cfg.fiatAttestor ∧
    (∀ party, isParty t.toTerms party → party = cfg.admin ∨ party = cfg.resolver →
      ∃ e ∈ tr, Appoints id party e) ∧
    (∀ party, isParty t.toTerms party → (∀ e ∈ tr, ¬Appoints id party e) → t.status = .funded →
      ∀ env, receipt w (.call env (.raiseDispute id party)) = none) ∧
    ((∀ party, isParty t.toTerms party → ∀ e ∈ tr, ¬Appoints id party e) →
      t.status = .disputed → principalHeld t = true →
      ¬isParty t.toTerms cfg.resolver ∧ ∀ d τ, (d = .release → FeesFit t.toTerms) →
        τ + t.disputeWindow < u64Limit →
        Opens self w id [cfg.resolver, cfg.fiatAttestor] (payout self t.toTerms d)
          (.resolve id d cfg.resolver) (if d = .release then .released else .refunded) τ) ∧
    (∀ party, isParty t.toTerms party → ∀ d env,
      receipt w (.call env (.resolve id d party)) = none) := by
  have hi := (Coherent.deployed hd).run hr
  have hs := hi.trades id t ht
  obtain ⟨cfg, hcfg, -, hk⟩ := hi.config
  have hsep := run_separated hd hr cfg id t
  refine ⟨cfg, hcfg, ?_, fun party hp hrole => hsep party hcfg ht hp hrole, ?_, ?_,
    fun party hp d env => party_never_judges ht hp d env⟩
  · rw [hk.attestor]
    rintro (hc | hc)
    · exact hs.terms.provider_ne hc.symm
    · exact hs.terms.recipient_ne hc.symm
  · intro party hp hnone hst env
    refine funded_dispute_refused hcfg ht hst (fun hc => ?_) env
    obtain ⟨e, he, happ⟩ := hsep party hcfg ht hp (.inr hc)
    exact hnone e he happ
  · intro hnone hst hheld
    have hfree : ¬isParty t.toTerms cfg.resolver := fun hp => by
      obtain ⟨e, he, happ⟩ := hsep _ hcfg ht hp (.inr rfl)
      exact hnone _ hp e he happ
    exact ⟨hfree, fun d τ hfit hwin => resolver_opens hs hcfg ht hst hheld hfree d hfit hwin⟩

theorem sample_operators_and_parties :
    ∃ cfg, sampleFinal.contents.config = some cfg ∧
      ∀ env, receipt sampleFinal (.call env (.raiseDispute 2 ⟨7⟩)) = none := by
  obtain ⟨cfg, hcfg, -, -, hfunded, -⟩ :=
    operators_and_parties sampleWorld_deployed sample_run unpaidTrade_stored
  refine ⟨cfg, hcfg, hfunded ⟨7⟩ (.inr rfl) ?_ rfl⟩
  rintro e he ⟨⟨env, c, hact, -⟩, -, -⟩
  have hall : ∀ e ∈ sampleHistory, ∀ env c, e.act ≠ .call env (.setConfig c) := by
    intro e he env c
    simp only [sampleHistory, history, sampleActions, List.mem_cons, List.not_mem_nil,
      or_false] at he
    obtain rfl | rfl | rfl | rfl | rfl := he <;> simp [Machine.entry]
  exact hall e he env c hact

/-- The recipient of the first trade becomes resolver and disputes his own funded trade. -/
def appointActions : List Action :=
  [.call (sampleEnv 1000 [⟨6⟩]) (.createTrade 1 sampleArgs),
    .call (sampleEnv 1100 [⟨1⟩]) (.setConfig { sampleConfig with resolver := ⟨7⟩ }),
    .call (sampleEnv 1200 [⟨7⟩]) (.raiseDispute 1 ⟨7⟩)]

theorem appointActions_admitted : Admitted (machine ⟨0⟩) sampleWorld appointActions := by
  refine ⟨⟨rfl, ?_⟩, ⟨rfl, ?_⟩, ⟨rfl, ?_⟩, trivial⟩ <;> decide

def appointFinal : World := final (machine ⟨0⟩) sampleWorld appointActions

def appointedTrade : Trade := (appointFinal.trade 1).get (by decide)

/-- A rotation of the resolver can appoint a party: it then disputes its own
funded trade, which blocks the refund, and may not settle that dispute itself. -/
theorem party_appointed :
    Deployed ⟨0⟩ sampleConfig sampleWorld ∧
    Run (machine ⟨0⟩) sampleWorld (history (machine ⟨0⟩) sampleWorld appointActions)
      appointFinal ∧
    appointFinal.trade 1 = some appointedTrade ∧ principalHeld appointedTrade = true ∧
    appointFinal.contents.config = some { sampleConfig with resolver := ⟨7⟩ } ∧
    appointedTrade.usdcRecipient = ⟨7⟩ ∧
    appointedTrade.preDisputeStatus? = some .funded ∧ appointedTrade.disputedBy = some ⟨7⟩ ∧
    ∀ d env, receipt appointFinal (.call env (.resolve 1 d ⟨7⟩)) = none := by
  have htrade : appointFinal.trade 1 = some appointedTrade := (Option.some_get _).symm
  refine ⟨sampleWorld_deployed, Run.of_actions appointActions sampleWorld appointActions_admitted,
    htrade, by decide, by decide, by decide, by decide, by decide, fun d env => ?_⟩
  exact party_never_judges htrade (.inr (by decide)) d env

end Lolipay.Escrow.Roles
