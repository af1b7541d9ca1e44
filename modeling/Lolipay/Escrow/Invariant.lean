import Lolipay.Escrow.Effects

namespace Lolipay.Escrow.Invariant

open Lolipay.Ledger
open Lolipay.Ledger.Calls Lolipay.Ledger.Storage Lolipay.Ledger.Invocation Lolipay.Ledger.Runs
open Lolipay.Escrow.Types Lolipay.Escrow.Contract Lolipay.Escrow.System Lolipay.Escrow.Payout
open Lolipay.Escrow.Transitions Lolipay.Escrow.Effects

def direction : Status → Option ResolveOutcome
  | .released => some .release
  | .refunded => some .refund
  | _ => none

/-- The direction in which a trade has settled, read through an open dispute. -/
def settlement (t : Trade) : Option ResolveOutcome := direction t.effective

/-- The contract still owes the principal: the trade is funded or marked as
paid, or disputed from one of these two. -/
def principalHeld (t : Trade) : Bool :=
  match t.status with
  | .funded | .fiatPaid => true
  | .disputed => t.preDisputeStatus? = none || t.preDisputeStatus? = some .funded
  | _ => false

def postSettleRaised (t : Trade) : Bool :=
  t.providerPostSettleUsed || t.recipientPostSettleUsed || t.resolverPostSettleUsed

/-- What the checks of `createTrade` make true of a trade's terms for ever.
`cfg₀` is the configuration of the constructor. -/
structure SoundTerms (cfg₀ : Config) (start now : ℕ) (t : Terms) : Prop where
  amount_pos : 0 < t.usdcAmount
  confirmer_eq : t.confirmer = t.usdcProvider
  parties_ne : t.usdcProvider ≠ t.usdcRecipient
  fees_lt : t.platformFeeBps + t.lpFeeBps < 10000
  token_eq : t.usdcToken = cfg₀.usdcToken
  provider_ne : t.usdcProvider ≠ cfg₀.fiatAttestor
  recipient_ne : t.usdcRecipient ≠ cfg₀.fiatAttestor
  window_ge : minDisputeWindow ≤ t.disputeWindow
  window_le : t.disputeWindow ≤ maxDisputeWindow
  pay_lt : t.payDeadline < t.confirmDeadline
  confirm_lt : t.confirmDeadline < t.disputeDeadline
  pay_le : t.payDeadline ≤ t.createdAt + maxPayWindow
  created_ge : start ≤ t.createdAt
  created_le : t.createdAt ≤ now

/-- The flag is up only during a dispute, over a status from which it can come. -/
structure Flagged (t : Trade) : Prop where
  up : t.hasPreDisputeStatus = true → t.status = .disputed ∧
    (t.preDisputeStatus = .funded ∨ t.preDisputeStatus = .released ∨
      t.preDisputeStatus = .refunded)
  down : t.hasPreDisputeStatus = false → t.preDisputeStatus = .funded

structure HeldRecord (t : Trade) : Prop where
  settledAt : t.settledAt = 0
  postSettle : t.postSettleDeadline = 0
  slash : t.slashDeadline = 0
  liability : t.liabilityEstablished = false
  raised : postSettleRaised t = false

structure SettledRecord (start now : ℕ) (t : Trade) : Prop where
  settledAt_ge : start ≤ t.settledAt
  settledAt_le : t.settledAt ≤ now
  postSettle : t.postSettleDeadline = t.settledAt + t.disputeWindow
  slash_le : t.slashDeadline ≤ t.postSettleDeadline + 3 * resolverWindow
  raised : t.status = .disputed ∨ t.liabilityEstablished = true → postSettleRaised t = true

structure Sound (cfg₀ : Config) (start now : ℕ) (t : Trade) : Prop where
  terms : SoundTerms cfg₀ start now t.toTerms
  flagged : Flagged t
  held : settlement t = none → HeldRecord t
  settled : ∀ d, settlement t = some d → SettledRecord start now t

/-- The configuration is lawful and keeps what the constructor fixed, and every trade is sound. -/
structure Coherent (cfg₀ : Config) (start : ℕ) (w : World) : Prop where
  config : ∃ cfg, w.contents.config = some cfg ∧ Lawful cfg ∧ Keeps cfg₀ cfg
  clock : start ≤ w.now
  trades : ∀ id t, w.trade id = some t → Sound cfg₀ start w.now t

theorem settlement_none_iff {t : Trade} (hf : Flagged t) :
    settlement t = none ↔ principalHeld t = true := by
  unfold settlement principalHeld Trade.effective Trade.preDisputeStatus?
  cases hflag : t.hasPreDisputeStatus with
  | false => cases t.status <;> simp [direction]
  | true =>
    obtain ⟨hst, hpre | hpre | hpre⟩ := hf.up hflag <;> simp [hst, hpre, direction]

theorem preSettlement_iff (t : Trade) :
    (viewOf t).preSettlement = true ↔ settlement t = none := by
  unfold viewOf settlement
  cases t.effective <;> simp [direction]

theorem released_iff (t : Trade) :
    (viewOf t).released = true ↔ settlement t = some .release := by
  unfold viewOf settlement
  cases t.effective <;> simp [direction]

variable {cfg cfg₀ : Config} {env : Env} {id : TradeId} {t t' : Trade} {op : Op}
  {ts : List Transfer} {start now : ℕ}

/-- The two ways a verdict on a settlement can end: it closes the slash window,
or it keeps the window open for a while and may establish liability. -/
theorem verdict_ok {prior : Status} {d : ResolveOutcome} (hv : verdict t prior d now = .ok t') :
    (upheld prior d = true ∧ t.liabilityEstablished = false ∧ t' = { t with slashDeadline := 0 }) ∨
    ((upheld prior d = false ∨ t.liabilityEstablished = true ∨
        t.disputedBy = some (holderOf t.toTerms prior)) ∧
      t' = { t with
        liabilityEstablished := t.liabilityEstablished || !upheld prior d
        slashDeadline := max t.slashDeadline (min (now + postVerdictGrace)
          (t.postSettleDeadline + 2 * resolverWindow + postVerdictGrace)) }) := by
  rw [verdict] at hv
  split at hv
  next hc =>
    obtain ⟨hu, -, hl⟩ := hc
    exact .inl ⟨hu, by simpa using hl, (Except.ok.inj hv).symm⟩
  next hc =>
    simp only [bind_eq_ok, addU64_eq_ok, Except.ok.injEq] at hv
    obtain ⟨a, ⟨-, rfl⟩, b, ⟨-, rfl⟩, c, ⟨-, rfl⟩, rfl⟩ := hv
    refine .inr ⟨?_, rfl⟩
    cases hu : upheld prior d with
    | false => exact .inl rfl
    | true =>
      by_cases hby : t.disputedBy = some (holderOf t.toTerms prior)
      · exact .inr (.inr hby)
      · have hl : t.liabilityEstablished = true := by
          simpa [hu, claimedAgainstTheHolder, hby] using hc
        exact .inr (.inl hl)

theorem spendPostSettle_eq (t : Trade) (raiser : Address) :
    ∃ p r q, spendPostSettle t raiser = { t with
      providerPostSettleUsed := p, recipientPostSettleUsed := r, resolverPostSettleUsed := q } ∧
      (p || r || q) = true := by
  rw [spendPostSettle]
  split
  · exact ⟨true, t.recipientPostSettleUsed, t.resolverPostSettleUsed, rfl, by simp⟩
  · split
    · exact ⟨t.providerPostSettleUsed, true, t.resolverPostSettleUsed, rfl, by simp⟩
    · exact ⟨t.providerPostSettleUsed, t.recipientPostSettleUsed, true, rfl, by simp⟩

theorem reopened_eq (env : Env) (t : Trade) (raiser : Address) :
    ∃ p r q, reopened env t raiser = { t with
      status := .disputed
      disputedBy := some raiser
      resolverDeadline := env.timestamp + resolverWindow
      hasPreDisputeStatus := true
      preDisputeStatus := t.status
      slashDeadline := max t.slashDeadline (env.timestamp + resolverWindow)
      providerPostSettleUsed := p
      recipientPostSettleUsed := r
      resolverPostSettleUsed := q } ∧ (p || r || q) = true := by
  obtain ⟨p, r, q, he, hp⟩ := spendPostSettle_eq { t.setPreDisputeStatus (some t.status) with
    slashDeadline := max t.slashDeadline (env.timestamp + resolverWindow) } raiser
  exact ⟨p, r, q, by rw [reopened, he]; rfl, hp⟩

theorem verdict_toTerms {prior : Status} {d : ResolveOutcome}
    (hv : verdict t prior d now = .ok t') : t'.toTerms = t.toTerms := by
  obtain ⟨-, -, rfl⟩ | ⟨-, rfl⟩ := verdict_ok hv <;> rfl

theorem moves_toTerms (hm : Moves cfg env id t op t' ts) : t'.toTerms = t.toTerms := by
  cases hm with
  | mark | releaseEarly | confirm | refundLate | cancelBoth | disputePaid | disputeFunded
  | settlePaid | settleFunded => rfl
  | @disputeSettled raiser =>
    obtain ⟨p, r, q, he, -⟩ := reopened_eq env t raiser
    rw [he]
  | judge hst hj hpre hprior hv =>
    have h := verdict_toTerms hv
    exact h

theorem Sound.slash_le (hs : Sound cfg₀ start now t) :
    t.slashDeadline ≤ t.settledAt + 4 * resolverWindow := by
  cases hset : settlement t with
  | none =>
    have hslash := (hs.held hset).slash
    omega
  | some d =>
    have hr := hs.settled d hset
    have hle := hr.slash_le
    have hpost := hr.postSettle
    have hwin := hs.terms.window_le
    simp only [maxDisputeWindow, resolverWindow] at *
    omega

theorem Flagged.unflagged (hf : Flagged t) (hst : t.status ≠ .disputed) :
    t.hasPreDisputeStatus = false := by
  cases hflag : t.hasPreDisputeStatus with
  | false => rfl
  | true => exact absurd (hf.up hflag).1 hst

theorem recorded_none (hpre : t.preDisputeStatus? = none) : t.hasPreDisputeStatus = false := by
  simpa [Trade.preDisputeStatus?] using hpre

theorem recorded_some {prior : Status} (hpre : t.preDisputeStatus? = some prior) :
    t.hasPreDisputeStatus = true ∧ t.preDisputeStatus = prior := by
  simpa [Trade.preDisputeStatus?] using hpre

theorem settlement_of_unflagged (hflag : t.hasPreDisputeStatus = false) :
    settlement t = direction t.status := by
  simp only [settlement, Trade.effective, Trade.preDisputeStatus?, hflag, Bool.false_eq_true,
    if_false, Option.getD_none]

theorem settlement_of_recorded {prior : Status} (hpre : t.preDisputeStatus? = some prior) :
    settlement t = direction prior := by
  simp only [settlement, Trade.effective, hpre, Option.getD_some]

theorem settlement_settledNow (hflag : t.hasPreDisputeStatus = false) (d : ResolveOutcome) :
    settlement (settledNow env t d) = some d := by
  have h := settlement_of_unflagged (t := settledNow env t d) hflag
  rw [h]
  cases d <;> rfl

theorem settlement_reopened (hflag : t.hasPreDisputeStatus = false) (raiser : Address) :
    settlement (reopened env t raiser) = settlement t := by
  obtain ⟨p, r, q, he, -⟩ := reopened_eq env t raiser
  rw [he, settlement_of_unflagged hflag]
  rfl

theorem settlement_restored (u : Trade) (prior : Status) :
    settlement (restored u prior) = direction prior := rfl

/-- One call on a trade is one step of a latch: either nothing is paid and the
direction stays, or the principal was held and leaves in one direction. -/
theorem moves_settlement (hf : Flagged t) (hm : Moves cfg env id t op t' ts) :
    (settlement t' = settlement t ∧ ts = []) ∨
    (settlement t = none ∧ ∃ d, settlement t' = some d ∧ ts = payout env.contract t.toTerms d) := by
  cases hm with
  | mark hst hd ht hs =>
    have hflag := hf.unflagged (by simp [hst])
    left
    have h := settlement_of_unflagged hflag
    have h' := settlement_of_unflagged (t := { t with status := .fiatPaid }) hflag
    rw [hst] at h
    exact ⟨h'.trans h.symm, rfl⟩
  | releaseEarly hst | confirm hst | refundLate hst | cancelBoth hst =>
    have hflag := hf.unflagged (by simp [hst])
    right
    rw [settlement_of_unflagged hflag, hst]
    exact ⟨rfl, _, settlement_settledNow hflag _, rfl⟩
  | @disputePaid raiser hst =>
    have hflag := hf.unflagged (by simp [hst])
    left
    have h := settlement_of_unflagged hflag
    have h' := settlement_of_unflagged (t := disputed env t raiser) hflag
    rw [hst] at h
    exact ⟨h'.trans h.symm, rfl⟩
  | disputeFunded hst =>
    have hflag := hf.unflagged (by simp [hst])
    left
    rw [settlement_of_unflagged hflag, hst]
    exact ⟨rfl, rfl⟩
  | disputeSettled hst =>
    have hflag := hf.unflagged (by cases hst <;> simp [*])
    exact .inl ⟨settlement_reopened hflag _, rfl⟩
  | settlePaid hst hj hpre =>
    have hflag := recorded_none hpre
    right
    rw [settlement_of_unflagged hflag, hst]
    exact ⟨rfl, _, settlement_settledNow hflag _, rfl⟩
  | settleFunded hst hj hpre =>
    right
    rw [settlement_of_recorded hpre]
    exact ⟨rfl, _, settlement_settledNow rfl _, rfl⟩
  | judge hst hj hpre =>
    left
    rw [settlement_restored, settlement_of_recorded hpre]
    exact ⟨rfl, rfl⟩

theorem moves_flagged (hf : Flagged t) (hm : Moves cfg env id t op t' ts) : Flagged t' := by
  cases hm with
  | mark hst | releaseEarly hst | confirm hst | refundLate hst | cancelBoth hst
  | disputePaid hst =>
    have hflag := hf.unflagged (by simp [hst])
    exact ⟨fun h => absurd (hflag.symm.trans h) (by simp), fun _ => hf.down hflag⟩
  | disputeFunded hst => exact ⟨fun _ => ⟨rfl, .inl rfl⟩, fun h => by cases h⟩
  | @disputeSettled raiser hst =>
    obtain ⟨p, r, q, he, -⟩ := reopened_eq env t raiser
    rw [he]
    exact ⟨fun _ => ⟨rfl, .inr hst⟩, fun h => (by cases h)⟩
  | settlePaid hst hj hpre =>
    have hflag := recorded_none hpre
    exact ⟨fun h => absurd (hflag.symm.trans h) (by simp), fun _ => hf.down hflag⟩
  | settleFunded | judge => exact ⟨fun h => (by cases h), fun _ => rfl⟩

theorem HeldRecord.of_eq {u : Trade} (hr : HeldRecord t)
    (hsa : u.settledAt = t.settledAt) (hps : u.postSettleDeadline = t.postSettleDeadline)
    (hsl : u.slashDeadline = t.slashDeadline)
    (hli : u.liabilityEstablished = t.liabilityEstablished)
    (hra : postSettleRaised u = postSettleRaised t) : HeldRecord u :=
  ⟨hsa.trans hr.settledAt, hps.trans hr.postSettle, hsl.trans hr.slash, hli.trans hr.liability,
    hra.trans hr.raised⟩

theorem HeldRecord.settle (hr : HeldRecord t) (hstart : start ≤ env.timestamp)
    (d : ResolveOutcome) : SettledRecord start env.timestamp (settledNow env t d) where
  settledAt_ge := hstart
  settledAt_le := le_rfl
  postSettle := rfl
  slash_le := Nat.le_add_right _ _
  raised h := by
    have hst : (settledNow env t d).status ≠ .disputed := by
      cases d <;> simp [settledNow, Trade.settled]
    exact absurd (hr.liability.symm.trans (h.resolve_left hst)) (by simp)

theorem SettledRecord.reopen (hr : SettledRecord start now t) (hnow : now ≤ env.timestamp)
    (ht : env.timestamp ≤ t.postSettleDeadline) (raiser : Address) :
    SettledRecord start env.timestamp (reopened env t raiser) := by
  obtain ⟨p, r, q, he, hp⟩ := reopened_eq env t raiser
  rw [he]
  refine ⟨hr.settledAt_ge, hr.settledAt_le.trans hnow, hr.postSettle, ?_, fun _ => hp⟩
  have hslash := hr.slash_le
  simp only [resolverWindow] at hslash ⊢
  omega

theorem SettledRecord.judge {prior : Status} {d : ResolveOutcome}
    (hr : SettledRecord start now t) (hnow : now ≤ env.timestamp) (hst : t.status = .disputed)
    (hv : verdict t prior d env.timestamp = .ok t') :
    SettledRecord start env.timestamp (restored t' prior) := by
  have hraised : postSettleRaised t = true := hr.raised (.inl hst)
  have hslash := hr.slash_le
  obtain ⟨-, -, rfl⟩ | ⟨-, rfl⟩ := verdict_ok hv
  · exact ⟨hr.settledAt_ge, hr.settledAt_le.trans hnow, hr.postSettle, Nat.zero_le _,
      fun _ => hraised⟩
  · refine ⟨hr.settledAt_ge, hr.settledAt_le.trans hnow, hr.postSettle, ?_, fun _ => hraised⟩
    simp only [restored, Trade.setPreDisputeStatus, resolverWindow, postVerdictGrace] at hslash ⊢
    omega

/-- Either the principal stays and the books stay empty, or the trade is
settled and its books are in order. -/
theorem moves_books (hf : Flagged t) (hheld : settlement t = none → HeldRecord t)
    (hset : ∀ d, settlement t = some d → SettledRecord start now t) (hstart : start ≤ now)
    (hnow : now ≤ env.timestamp) (hm : Moves cfg env id t op t' ts) :
    (settlement t' = none ∧ HeldRecord t') ∨
      (settlement t' ≠ none ∧ SettledRecord start env.timestamp t') := by
  have hs := hstart.trans hnow
  cases hm with
  | mark hst | disputePaid hst | disputeFunded hst =>
    have hflag := hf.unflagged (by simp [hst])
    have hr := hheld (by rw [settlement_of_unflagged hflag, hst]; rfl)
    left
    refine ⟨?_, hr.of_eq rfl rfl rfl rfl rfl⟩
    first | rfl | exact settlement_of_unflagged (by exact hflag)
  | releaseEarly hst | confirm hst | refundLate hst | cancelBoth hst =>
    have hflag := hf.unflagged (by simp [hst])
    have hr := hheld (by rw [settlement_of_unflagged hflag, hst]; rfl)
    right
    exact ⟨by simp [settlement_settledNow hflag], hr.settle hs _⟩
  | @disputeSettled raiser hst hsig hby hfresh ht =>
    have hflag := hf.unflagged (by cases hst <;> simp [*])
    right
    rw [settlement_reopened hflag]
    cases hd : settlement t with
    | none => rw [settlement_of_unflagged hflag] at hd; cases hst <;> simp_all [direction]
    | some d => exact ⟨by simp, (hset d hd).reopen hnow ht raiser⟩
  | settlePaid hst hj hpre =>
    have hflag := recorded_none hpre
    have hr := hheld (by rw [settlement_of_unflagged hflag, hst]; rfl)
    exact .inr ⟨by simp [settlement_settledNow hflag], hr.settle hs _⟩
  | settleFunded hst hj hpre =>
    have hr := hheld (by rw [settlement_of_recorded hpre]; rfl)
    have hr' : HeldRecord (t.setPreDisputeStatus none) := hr.of_eq rfl rfl rfl rfl rfl
    exact .inr ⟨by rw [settlement_settledNow rfl]; simp, hr'.settle hs _⟩
  | @judge caller d prior u hst hj hpre hprior hv =>
    obtain ⟨hflag, rfl⟩ := recorded_some hpre
    obtain ⟨d', hd'⟩ : ∃ d', direction t.preDisputeStatus = some d' := by
      obtain ⟨-, hp | hp | hp⟩ := hf.up hflag
      · exact absurd hp hprior
      · exact ⟨_, by rw [hp]; rfl⟩
      · exact ⟨_, by rw [hp]; rfl⟩
    right
    rw [settlement_restored, hd']
    exact ⟨by simp, (hset d' ((settlement_of_recorded hpre).trans hd')).judge hnow hst hv⟩

theorem SoundTerms.later {now' : ℕ} {u : Terms} (h : SoundTerms cfg₀ start now u)
    (hnow : now ≤ now') : SoundTerms cfg₀ start now' u :=
  { h with created_le := h.created_le.trans hnow }

theorem Sound.later {now' : ℕ} (h : Sound cfg₀ start now t) (hnow : now ≤ now') :
    Sound cfg₀ start now' t where
  terms := h.terms.later hnow
  flagged := h.flagged
  held := h.held
  settled d hd :=
    { h.settled d hd with settledAt_le := (h.settled d hd).settledAt_le.trans hnow }

theorem moves_sound (h : Sound cfg₀ start now t) (hstart : start ≤ now)
    (hnow : now ≤ env.timestamp) (hm : Moves cfg env id t op t' ts) :
    Sound cfg₀ start env.timestamp t' where
  terms := by
    rw [moves_toTerms hm]
    exact h.terms.later hnow
  flagged := moves_flagged h.flagged hm
  held hn := by
    obtain ⟨-, hr⟩ | ⟨hs, -⟩ := moves_books h.flagged h.held h.settled hstart hnow hm
    · exact hr
    · exact absurd hn hs
  settled d hd := by
    obtain ⟨hn, -⟩ | ⟨-, hr⟩ := moves_books h.flagged h.held h.settled hstart hnow hm
    · rw [hn] at hd
      cases hd
    · exact hr

theorem openingTrade_sound {args : CreateArgs} (hl : Lawful cfg) (hk : Keeps cfg₀ cfg)
    (ho : Opening cfg env args) (hstart : start ≤ env.timestamp) :
    Sound cfg₀ start env.timestamp (openingTrade cfg env.timestamp args) where
  terms :=
    { amount_pos := ho.amount_pos
      confirmer_eq := ho.confirmer_eq
      parties_ne := ho.parties_ne
      fees_lt := ho.fees_lt
      token_eq := hk.token
      provider_ne := fun hc => ho.provider_free (.inr (.inl (hc.trans hk.attestor.symm)))
      recipient_ne := fun hc => ho.recipient_free (.inr (.inl (hc.trans hk.attestor.symm)))
      window_ge := hl.window_ge
      window_le := hl.window_le
      pay_lt := ho.pay_lt
      confirm_lt := ho.confirm_lt
      pay_le := ho.pay_le
      created_ge := hstart
      created_le := le_rfl }
  flagged := ⟨fun h => (by cases h), fun _ => rfl⟩
  held _ := ⟨rfl, rfl, rfl, rfl, rfl⟩
  settled d hd := by cases hd

theorem effect_config {c c' : Contents} (he : Effect env c op c' ts)
    (hc : ∃ cfg, c.config = some cfg ∧ Lawful cfg ∧ Keeps cfg₀ cfg) :
    ∃ cfg, c'.config = some cfg ∧ Lawful cfg ∧ Keeps cfg₀ cfg := by
  obtain ⟨cfg, hcfg, hl, hk⟩ := hc
  cases he with
  | opened | moved => exact ⟨cfg, hcfg, hl, hk⟩
  | configured hcfg' hs hs' hl' hk' =>
    obtain rfl := Option.some.inj (hcfg.symm.trans hcfg')
    exact ⟨_, rfl, hl', hk'.token.trans hk.token, hk'.wallet.trans hk.wallet,
      hk'.attestor.trans hk.attestor⟩
  | pauseSet hcfg' =>
    obtain rfl := Option.some.inj (hcfg.symm.trans hcfg')
    exact ⟨_, rfl, ⟨hl.fee_le, hl.window_ge, hl.window_le, hl.roles⟩, hk.token, hk.wallet,
      hk.attestor⟩

theorem Coherent.unique {w : World} (hi : Coherent cfg₀ start w)
    (hcfg : w.contents.config = some cfg) :
    Lawful cfg ∧ Keeps cfg₀ cfg := by
  obtain ⟨cfg', hcfg', h⟩ := hi.config
  obtain rfl := Option.some.inj (hcfg.symm.trans hcfg')
  exact h

/-- The invariant is kept by every action that the environment may choose. -/
theorem Coherent.step {self : Address} {w : World} {a : Action} (hi : Coherent cfg₀ start w)
    (ha : admits self w a) : Coherent cfg₀ start (next w a) where
  config := by
    cases a with
    | other time moves => exact hi.config
    | call env op =>
      obtain ⟨hn, -⟩ | ⟨c, ts, evs, he, hn, -⟩ := call_cases w env op
      · rw [hn]
        exact hi.config
      · rw [hn]
        exact effect_config he hi.config
  clock := by
    rw [Deployment.now_next]
    exact hi.clock.trans (Deployment.admits_time ha)
  trades id t ht := by
    rw [Deployment.now_next]
    cases trade_step ha id with
    | same hsame =>
      rw [hsame] at ht
      exact (hi.trades id t ht).later (Deployment.admits_time ha)
    | opened hact hself hcfg ho hnew hopen =>
      subst hact
      obtain rfl := Option.some.inj (ht.symm.trans hopen)
      obtain ⟨hl, hk⟩ := hi.unique hcfg
      exact openingTrade_sound hl hk ho (hi.clock.trans ha.2)
    | moved hact hself hcfg hlook hm hmoved =>
      subst hact
      obtain rfl := Option.some.inj (ht.symm.trans hmoved)
      exact moves_sound (hi.trades id _ hlook) hi.clock ha.2 hm

theorem Coherent.deployed {self : Address} {w : World} (hd : Deployed self cfg₀ w) :
    Coherent cfg₀ w.now w := by
  obtain ⟨env, admin, token, resolver, fee, wallet, window, attestor, -, -, hx, hc, -⟩ := hd
  refine ⟨⟨cfg₀, by rw [hc], (construct_lawful hx).1, rfl, rfl, rfl⟩, le_rfl, fun id t ht => ?_⟩
  rw [World.trade, hc] at ht
  cases ht

theorem Coherent.run {self : Address} {w w' : World} {tr : History} (hi : Coherent cfg₀ start w)
    (hr : Run (machine self) w tr w') : Coherent cfg₀ start w' :=
  hr.invariant hi fun _ _ h ha => h.step ha

end Lolipay.Escrow.Invariant
