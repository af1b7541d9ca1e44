import Lolipay.Escrow.Lifecycle

namespace Lolipay.Escrow.Liability

open Lolipay.Ledger.Calls Lolipay.Ledger.Storage Lolipay.Ledger.Invocation Lolipay.Ledger.Runs
open Lolipay.Escrow.Types Lolipay.Escrow.Contract Lolipay.Escrow.System
open Lolipay.Escrow.Transitions Lolipay.Escrow.Effects Lolipay.Escrow.Invariant
open Lolipay.Escrow.Custody Lolipay.Escrow.Lifecycle

variable {self : Address} {cfg cfg₀ : Config} {env : Env} {id : TradeId} {t t' : Trade} {op : Op}
  {ts : List Transfer} {d : ResolveOutcome} {start now : ℕ} {w w₀ w' : World} {tr tr' : History}

/-- A verdict on a settled trade for the side that the settlement went against. -/
structure Contradicts (id : TradeId) (e : Entry World Action (Option Receipt)) (time : ℕ) :
    Prop where
  succeeded : e.out.isSome = true
  call : ∃ env outcome caller t d, e.act = .call env (.resolve id outcome caller) ∧
    env.timestamp = time ∧ e.pre.trade id = some t ∧ settlement t = some d ∧ outcome ≠ d

theorem upheld_iff {prior : Status} {outcome : ResolveOutcome} (hd : direction prior = some d) :
    upheld prior outcome = true ↔ outcome = d := by
  cases prior with
  | released | refunded =>
    obtain rfl := Option.some.inj hd
    cases outcome <;> simp [upheld]
  | funded | fiatPaid | disputed => cases hd

theorem judged_record {prior : Status} {outcome : ResolveOutcome} {u : Trade}
    (hdir : direction prior = some d) (hv : verdict t prior outcome env.timestamp = .ok u) :
    ((restored u prior).liabilityEstablished = true ↔
      t.liabilityEstablished = true ∨ outcome ≠ d) ∧
    (t.liabilityEstablished = true → t.slashDeadline ≤ (restored u prior).slashDeadline) ∧
    (outcome ≠ d → env.timestamp ≤ t.postSettleDeadline + 2 * resolverWindow →
      env.timestamp + resolverWindow ≤ (restored u prior).slashDeadline) := by
  have hup : upheld prior outcome = true ↔ outcome = d := upheld_iff hdir
  simp only [restored, Trade.setPreDisputeStatus]
  obtain ⟨hu, hl, rfl⟩ | ⟨-, rfl⟩ := verdict_ok hv
  · have heq := hup.mp hu
    simp [hl, heq]
  · refine ⟨?_, fun _ => Nat.le_max_left _ _, fun _ hle => ?_⟩
    · rw [Bool.or_eq_true, Bool.not_eq_true', ne_eq, ← hup, Bool.not_eq_true]
    · simp only [postVerdictGrace, resolverWindow] at hle ⊢
      omega

/-- A step on a settled trade keeps liability and, under liability, never shortens the window. -/
theorem moves_liability (hf : Flagged t) (hd : settlement t = some d)
    (hm : Moves cfg env id t op t' ts) (hl : t.liabilityEstablished = true) :
    t'.liabilityEstablished = true ∧ t.slashDeadline ≤ t'.slashDeadline := by
  obtain ⟨raiser, -, -, -, rfl⟩ | ⟨o, c, prior, u, -, -, -, hdir, hv, rfl⟩ :=
    moves_of_settled hf hd hm
  · obtain ⟨p, r, q, he, -⟩ := reopened_eq env t raiser
    rw [he]
    exact ⟨hl, Nat.le_max_left _ _⟩
  · obtain ⟨hliab, hslash, -⟩ := judged_record hdir hv
    exact ⟨hliab.mpr (.inl hl), hslash hl⟩

theorem moves_held_liability (hf : Flagged t) (hd : settlement t = none)
    (hm : Moves cfg env id t op t' ts) : t'.liabilityEstablished = t.liabilityEstablished := by
  cases hm with
  | disputeSettled hst =>
    have hflag := hf.unflagged (by cases hst <;> simp [*])
    rw [settlement_of_unflagged hflag] at hd
    cases hst <;> simp_all [direction]
  | judge hst hj hpre hprior hv =>
    obtain ⟨hflag, rfl⟩ := recorded_some hpre
    rw [settlement_of_recorded hpre] at hd
    obtain ⟨-, hp | hp | hp⟩ := hf.up hflag
    · exact absurd hp hprior
    · simp [hp, direction] at hd
    · simp [hp, direction] at hd
  | mark | releaseEarly | confirm | refundLate | cancelBoth | disputePaid | disputeFunded
  | settlePaid | settleFunded => rfl

theorem moves_new_liability (hs : Sound cfg₀ start now t) (hm : Moves cfg env id t op t' ts)
    (hl' : t'.liabilityEstablished = true) (hl : t.liabilityEstablished = false) :
    ∃ outcome caller d, op = .resolve id outcome caller ∧ settlement t = some d ∧ outcome ≠ d := by
  cases hd : settlement t with
  | none =>
    rw [moves_held_liability hs.flagged hd hm, hl] at hl'
    cases hl'
  | some d =>
    obtain ⟨raiser, -, -, -, rfl⟩ | ⟨o, c, prior, u, rfl, -, -, hdir, hv, rfl⟩ :=
      moves_of_settled hs.flagged hd hm
    · obtain ⟨p, r, q, he, -⟩ := reopened_eq env t raiser
      rw [he] at hl'
      cases hl.symm.trans hl'
    · obtain hl'' | hne := (judged_record hdir hv).1.mp hl'
      · cases hl.symm.trans hl''
      · exact ⟨o, c, d, rfl, rfl, hne⟩

theorem contradicts_after {e : Entry World Action (Option Receipt)} {time : ℕ}
    (hi : Coherent cfg₀ start e.pre) (he : e = (machine self).entry e.pre e.act)
    (hc : Contradicts id e time) :
    ∃ t t', e.pre.trade id = some t ∧ e.post.trade id = some t' ∧
      t'.liabilityEstablished = true ∧ (time ≤ t.postSettleDeadline + 2 * resolverWindow →
        time + resolverWindow ≤ t'.slashDeadline) := by
  obtain ⟨hsucc, env, outcome, caller, t, d, hact, rfl, ht, hd, hne⟩ := hc
  rw [entry_out he, hact] at hsucc
  rw [entry_post he, hact]
  obtain ⟨cfg, t', ts, hcfg, hm, ht'⟩ := succeeded_moves hsucc rfl ht
  refine ⟨t, t', ht, ht', ?_⟩
  have hs := hi.trades id t ht
  obtain ⟨raiser, hop, -⟩ | ⟨o, c, prior, u, hop, -, -, hdir, hv, rfl⟩ :=
    moves_of_settled hs.flagged hd hm
  · cases hop
  · cases hop
    obtain ⟨hliab, -, hday⟩ := judged_record hdir hv
    exact ⟨hliab.mpr (.inr hne), hday hne⟩

/-- The flag is the memory of the verdicts: it is up exactly when one of them
has contradicted the settlement. -/
theorem liability_iff (hd : Deployed self cfg₀ w₀) (hr : Run (machine self) w₀ tr w)
    (ht : w.trade id = some t) :
    t.liabilityEstablished = true ↔ ∃ e ∈ tr, ∃ time, Contradicts id e time := by
  induction hr generalizing t with
  | nil => cases (trade_none_of_deployed hd).symm.trans ht
  | @snoc tr u hr a ha ih =>
    have hi := (Coherent.deployed hd).run hr
    have hnew {time : ℕ} (hc : Contradicts id ((machine self).entry u a) time) :
        t.liabilityEstablished = true := by
      obtain ⟨t₁, t₂, -, ht₂, hl, -⟩ := contradicts_after hi rfl hc
      obtain rfl := Option.some.inj (ht.symm.trans ht₂)
      exact hl
    have hmem : (∃ e ∈ tr ++ [(machine self).entry u a], ∃ time, Contradicts id e time) ↔
        (∃ e ∈ tr, ∃ time, Contradicts id e time) ∨
          ∃ time, Contradicts id ((machine self).entry u a) time := by
      simp [or_and_right, exists_or]
    rw [hmem]
    cases trade_step ha id with
    | same hs =>
      rw [ih (hs.symm.trans ht)]
      refine ⟨.inl, fun h => ?_⟩
      obtain h | ⟨time, hc⟩ := h
      · exact h
      · exact (ih (hs.symm.trans ht)).mp (hnew hc)
    | opened hact hself hcfg ho hnone hopen =>
      obtain rfl := Option.some.inj (ht.symm.trans hopen)
      refine ⟨fun h => (by cases h), fun h => ?_⟩
      obtain ⟨e, he, time, hc⟩ | ⟨time, hc⟩ := h
      · -- A verdict needs a stored trade, and stored trades do not disappear.
        obtain ⟨tr₁, tr₂, -, hr₁, -, hentry, hr₂⟩ := hr.of_mem he
        obtain ⟨t₁, t₂, -, ht₂, -⟩ := contradicts_after ((Coherent.deployed hd).run hr₁) hentry hc
        obtain ⟨t₃, ht₃, -⟩ := run_toTerms hr₂ ht₂
        cases hnone.symm.trans ht₃
      · exact hnew hc
    | @moved env op cfg t₀ t₁ ts hact hself hcfg hlook hm hnext hrec =>
      obtain rfl := Option.some.inj (ht.symm.trans hnext)
      have hs₀ := hi.trades id t₀ hlook
      constructor
      · intro hl
        cases hl₀ : t₀.liabilityEstablished with
        | true => exact .inl ((ih hlook).mp hl₀)
        | false =>
          obtain ⟨o, c, d, rfl, hset, hne⟩ := moves_new_liability hs₀ hm hl hl₀
          exact .inr ⟨env.timestamp, hrec, env, o, c, t₀, d, hact, rfl, hlook, hset, hne⟩
      · intro h
        obtain hold | ⟨time, hc⟩ := h
        · have hl₀ := (ih hlook).mpr hold
          cases hset : settlement t₀ with
          | none => cases (hs₀.held hset).liability.symm.trans hl₀
          | some d => exact (moves_liability hs₀.flagged hset hm hl₀).1
        · exact hnew hc

/-- After liability is established the slash window never shrinks, and nothing
that the slash reads from the dispute view changes. -/
theorem run_liability (hi : Coherent cfg₀ start w) (hr : Run (machine self) w tr w')
    (ht : w.trade id = some t) (hd : settlement t = some d)
    (hl : t.liabilityEstablished = true) :
    ∃ t', w'.trade id = some t' ∧ settlement t' = some d ∧ t'.liabilityEstablished = true ∧
      t.slashDeadline ≤ t'.slashDeadline := by
  have hf := (hi.trades id t ht).flagged
  obtain ⟨t', ht', -, hlaw⟩ := run_trade (P := fun u => Flagged u ∧ settlement u = some d ∧
      u.liabilityEstablished = true ∧ t.slashDeadline ≤ u.slashDeadline) hr ht
    ⟨hf, hd, hl, le_rfl⟩ fun cfg env op u u' ts hu hm => by
      obtain ⟨hfu, hdu, hlu, hle⟩ := hu
      obtain ⟨hl', hle'⟩ := moves_liability hfu hdu hm hlu
      exact ⟨moves_flagged hfu hm, (moves_sameSettlement hfu hdu hm).direction, hl',
        hle.trans hle'⟩
  exact ⟨t', ht', hlaw⟩

theorem moves_window (hs : Sound cfg₀ start now t) (hm : Moves cfg env id t op t' ts)
    (hl : t'.liabilityEstablished = true) : 0 < t'.slashDeadline := by
  cases hd : settlement t with
  | none =>
    rw [moves_held_liability hs.flagged hd hm, (hs.held hd).liability] at hl
    cases hl
  | some d =>
    obtain ⟨raiser, -, -, -, rfl⟩ | ⟨o, c, prior, u, -, -, -, -, hv, rfl⟩ :=
      moves_of_settled hs.flagged hd hm
    · obtain ⟨p, r, q, he, -⟩ := reopened_eq env t raiser
      rw [he]
      simp only [resolverWindow]
      omega
    · simp only [restored, Trade.setPreDisputeStatus] at hl ⊢
      obtain ⟨-, hno, rfl⟩ | ⟨-, rfl⟩ := verdict_ok hv
      · cases hno.symm.trans hl
      · simp only [postVerdictGrace, resolverWindow]
        omega

theorem liable_window (hd : Deployed self cfg₀ w₀) (hr : Run (machine self) w₀ tr w)
    (ht : w.trade id = some t) (hl : t.liabilityEstablished = true) : 0 < t.slashDeadline := by
  induction hr generalizing t with
  | nil => cases (trade_none_of_deployed hd).symm.trans ht
  | @snoc tr u hr a ha ih =>
    cases trade_step ha id with
    | same hs => exact ih (hs.symm.trans ht) hl
    | opened hact hself hcfg ho hnone hopen =>
      obtain rfl := Option.some.inj (ht.symm.trans hopen)
      cases hl
    | moved hact hself hcfg hlook hm hnext hrec =>
      obtain rfl := Option.some.inj (ht.symm.trans hnext)
      exact moves_window (((Coherent.deployed hd).run hr).trades id _ hlook) hm hl

def slashable (v : DisputeView) : Bool × Bool × Bool × Bool :=
  (v.preSettlement, v.postSettleRaised, v.liabilityEstablished, v.released)

theorem slashable_of_liable (hs : Sound cfg₀ start now t) (hd : settlement t = some d)
    (hl : t.liabilityEstablished = true) :
    slashable (viewOf t) = (false, true, true, decide (d = .release)) := by
  have hpre : (viewOf t).preSettlement = false := by
    rw [← Bool.not_eq_true, preSettlement_iff, hd]
    simp
  have hraised : (viewOf t).postSettleRaised = true := (hs.settled d hd).raised (.inr hl)
  have hrel : (viewOf t).released = decide (d = .release) := by
    rw [Bool.eq_iff_iff, released_iff, hd]
    simp
  simp only [slashable, hpre, hraised, hrel]
  exact congrArg (fun b => (false, true, b, decide (d = .release))) hl

/-- Liability and the slash window, for every settled trade of every reachable state. -/
theorem liability_law (hd : Deployed self cfg₀ w₀) (hr : Run (machine self) w₀ tr w)
    (ht : w.trade id = some t) (hset : settlement t = some d) :
    (t.liabilityEstablished = true ↔ ∃ e ∈ tr, ∃ time, Contradicts id e time) ∧
    t.slashDeadline ≤ t.postSettleDeadline + 3 * 86400 ∧
    (t.liabilityEstablished = true → ∀ tr' w', Run (machine self) w tr' w' →
      ∃ t', w'.trade id = some t' ∧ t'.liabilityEstablished = true ∧
        t.slashDeadline ≤ t'.slashDeadline ∧
        slashable (viewOf t') = slashable (viewOf t) ∧
        slashable (viewOf t) = (false, true, true, decide (d = .release))) ∧
    (∀ e ∈ tr, ∀ v, Contradicts id e v → v ≤ t.postSettleDeadline + 2 * 86400 →
      ∃ t', e.post.trade id = some t' ∧ v + 86400 ≤ t'.slashDeadline) := by
  have hi := (Coherent.deployed hd).run hr
  have hs := hi.trades id t ht
  refine ⟨liability_iff hd hr ht, (hs.settled d hset).slash_le, ?_, ?_⟩
  · intro hl tr' w' hr'
    obtain ⟨t', ht', hset', hl', hle⟩ := run_liability hi hr' ht hset hl
    have hview := slashable_of_liable hs hset hl
    have hview' := slashable_of_liable ((hi.run hr').trades id t' ht') hset' hl'
    exact ⟨t', ht', hl', hle, hview'.trans hview.symm, hview⟩
  · intro e he v hc hv
    obtain ⟨tr₁, tr₂, -, hr₁, ha, hentry, hr₂⟩ := hr.of_mem he
    have hi₁ := (Coherent.deployed hd).run hr₁
    obtain ⟨t₁, t₂, ht₁, ht₂, -, hday⟩ := contradicts_after hi₁ hentry hc
    refine ⟨t₂, ht₂, hday ?_⟩
    -- The window of the verdict is the one that the trade still has.
    obtain ⟨-, env, o, c, t₀, d₀, -, -, ht₀, hd₀, -⟩ := hc
    obtain rfl := Option.some.inj (ht₀.symm.trans ht₁)
    rw [hentry] at hr₂
    obtain ⟨t₃, ht₃, hsame⟩ := run_sameSettlement hi₁ (Run.cons ha hr₂) ht₀ hd₀
    obtain rfl := Option.some.inj (ht.symm.trans ht₃)
    rw [← hsame.postSettle]
    exact hv

def judgedActions : List Action :=
  sampleActions ++ [.call (sampleEnv 1800 [⟨3⟩]) (.resolve 1 .refund ⟨3⟩)]

def judgedFinal : World := final (machine ⟨0⟩) sampleWorld judgedActions

def judgedHistory : History := history (machine ⟨0⟩) sampleWorld judgedActions

theorem judged_run : Run (machine ⟨0⟩) sampleWorld judgedHistory judgedFinal := by
  apply Run.of_actions
  refine ⟨⟨rfl, ?_⟩, ⟨rfl, ?_⟩, ⟨rfl, ?_⟩, ⟨rfl, ?_⟩, ⟨rfl, ?_⟩, ⟨rfl, ?_⟩, trivial⟩ <;> decide

def judgedTrade : Trade := (judgedFinal.trade 1).get (by decide)

theorem judgedFinal_trade : judgedFinal.trade 1 = some judgedTrade := (Option.some_get _).symm

theorem judged_liability_law :
    judgedTrade.status = .released ∧ judgedTrade.slashDeadline = 88200 ∧
    ∃ e ∈ judgedHistory, ∃ time, Contradicts 1 e time :=
  ⟨by decide, by decide, (liability_law (d := .release) sampleWorld_deployed judged_run
    judgedFinal_trade (by decide)).1.mp (by decide)⟩

end Lolipay.Escrow.Liability
