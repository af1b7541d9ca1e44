import Lolipay.Escrow.Invariant

namespace Lolipay.Escrow.Phases

open Lolipay.Ledger
open Lolipay.Ledger.Calls Lolipay.Ledger.Storage Lolipay.Ledger.Invocation Lolipay.Ledger.Runs
open Lolipay.Escrow.Types Lolipay.Escrow.Contract Lolipay.Escrow.System Lolipay.Escrow.Payout
open Lolipay.Escrow.Transitions Lolipay.Escrow.Effects Lolipay.Escrow.Invariant

/-- The trade as its published events tell it. A resolver who refunds
publishes the refund first; `unwinding` is the moment between the two events. -/
inductive Phase where
  | absent
  | funded
  | fiatPaid
  | disputed (raiser : Address)
  | unwinding (raiser : Address)
  | settled (d : ResolveOutcome)
  | reopened (d : ResolveOutcome) (raiser : Address)
  deriving DecidableEq, Repr

def Phase.next : Phase → Event → Option Phase
  | .absent, .tradeCreated _ _ => some .funded
  | .funded, .fiatPaid _ => some .fiatPaid
  | .funded, .earlyReleased _ _ _ _ => some (.settled .release)
  | .fiatPaid, .released _ _ _ _ => some (.settled .release)
  | .funded, .refunded _ _ => some (.settled .refund)
  | .funded, .disputed _ raiser => some (.disputed raiser)
  | .fiatPaid, .disputed _ raiser => some (.disputed raiser)
  | .disputed _, .resolved _ true false => some (.settled .release)
  | .disputed raiser, .refunded _ _ => some (.unwinding raiser)
  | .unwinding _, .resolved _ false false => some (.settled .refund)
  | .settled d, .disputed _ raiser => some (.reopened d raiser)
  | .reopened d _, .resolved _ _ true => some (.settled d)
  | _, _ => none

def Phase.status : Phase → Option Status
  | .absent => none
  | .funded => some .funded
  | .fiatPaid => some .fiatPaid
  | .disputed _ | .reopened _ _ => some .disputed
  | .unwinding _ => some .refunded
  | .settled .release => some .released
  | .settled .refund => some .refunded

def Phase.direction : Phase → Option ResolveOutcome
  | .unwinding _ => some .refund
  | .settled d | .reopened d _ => some d
  | _ => none

def Phase.raiser : Phase → Option Address
  | .disputed raiser | .unwinding raiser | .reopened _ raiser => some raiser
  | _ => none

def subject : Event → Option TradeId
  | .tradeCreated id _ | .fiatPaid id | .released id _ _ _ | .refunded id _ | .disputed id _
  | .resolved id _ _ | .earlyReleased id _ _ _ => some id
  | .configChanged _ _ | .pausedSet _ => none

/-- The events about one trade that a successful call on it publishes. -/
inductive Announces (id : TradeId) (t : Trade) : Op → List Event → Prop
  | fiatPaid (caller : Address) : Announces id t (.markFiatPaid id caller) [.fiatPaid id]
  | earlyReleased (fees : FeeSplit) :
      Announces id t (.releaseFromFunded id)
        [.earlyReleased id fees.net fees.platformFee fees.lpFee]
  | released (fees : FeeSplit) :
      Announces id t (.confirmAndRelease id) [.released id fees.net fees.platformFee fees.lpFee]
  | refunded : Announces id t (.refund id) [.refunded id t.usdcAmount]
  | cancelled : Announces id t (.cancel id) [.refunded id t.usdcAmount]
  | disputed (raiser : Address) : Announces id t (.raiseDispute id raiser) [.disputed id raiser]
  | resolvedRelease (caller : Address)
      (hheld : t.preDisputeStatus? = none ∨ t.preDisputeStatus? = some .funded) :
      Announces id t (.resolve id .release caller) [.resolved id true false]
  | resolvedRefund (caller : Address)
      (hheld : t.preDisputeStatus? = none ∨ t.preDisputeStatus? = some .funded) :
      Announces id t (.resolve id .refund caller)
        [.refunded id t.usdcAmount, .resolved id false false]
  | judged {prior : Status} (caller : Address) (d : ResolveOutcome)
      (hpre : t.preDisputeStatus? = some prior) (hprior : prior ≠ .funded) :
      Announces id t (.resolve id d caller) [.resolved id (d = .release) true]

variable {env : Env} {h h' : EscrowHost} {id : TradeId} {t t' : Trade} {op : Op}

theorem settleResolved_announces {u : Trade} {d : ResolveOutcome} (caller : Address)
    (hheld : t.preDisputeStatus? = none ∨ t.preDisputeStatus? = some .funded)
    (hterms : u.toTerms = t.toTerms) (hx : settleResolved env h id u d = .ok h') :
    ∃ evs, Announces id t (.resolve id d caller) evs ∧ h'.events = h.events ++ evs := by
  cases d with
  | refund =>
    simp only [settleResolved, bind_eq_ok, doRefund_eq_ok, Except.ok.injEq] at hx
    obtain ⟨h₁, ⟨-, -, rfl⟩, rfl⟩ := hx
    refine ⟨_, .resolvedRefund caller hheld, ?_⟩
    simp [Host.publish, Host.paid, setTrade, hterms]
  | release =>
    simp only [settleResolved, bind_eq_ok, Except.ok.injEq] at hx
    obtain ⟨⟨h₁, fees⟩, hpay, rfl⟩ := hx
    obtain ⟨-, rfl⟩ := payRelease_ok hpay
    exact ⟨_, .resolvedRelease caller hheld, rfl⟩

theorem resolve_announces {d : ResolveOutcome} {caller : Address}
    (hlook : h.storage.trades.lookup id = some t) (hx : resolve env h id d caller = .ok h') :
    ∃ evs, Announces id t (.resolve id d caller) evs ∧ h'.events = h.events ++ evs := by
  simp only [resolve, getConfig, getTrade, storageGetTrade, bind_eq_ok, okOr_eq_ok,
    rejectIf_eq_ok, requireAuth_eq_ok] at hx
  obtain ⟨cfg, -, u, hlook', -, -, -, -, -, -, -, -, hx⟩ := hx
  obtain rfl := Option.some.inj (hlook.symm.trans hlook')
  split at hx
  next hpre =>
    obtain ⟨_, -, hx⟩ := (bind_eq_ok _ _ _).mp hx
    have hterms : (t.setPreDisputeStatus none).toTerms = t.toTerms := rfl
    exact settleResolved_announces caller (.inr hpre) hterms hx
  next prior hne hpre =>
    simp only [bind_eq_ok, Except.ok.injEq] at hx
    obtain ⟨t', -, rfl⟩ := hx
    exact ⟨_, .judged caller d hpre hne, rfl⟩
  next hpre => exact settleResolved_announces caller (.inl hpre) rfl hx

theorem exec_announces (hlook : h.storage.trades.lookup id = some t) (hop : op.tradeId = some id)
    (hnew : ∀ a, op ≠ .createTrade id a) (hx : exec env h op = .ok h') :
    ∃ evs, Announces id t op evs ∧ h'.events = h.events ++ evs := by
  cases op with
  | createTrade i a =>
    obtain rfl := Option.some.inj hop
    exact absurd rfl (hnew a)
  | markFiatPaid i caller =>
    obtain rfl := Option.some.inj hop
    simp only [exec, markFiatPaid, getConfig, getTrade, storageGetTrade, bind_eq_ok, okOr_eq_ok,
      rejectIf_eq_ok, requireAuth_eq_ok, Except.ok.injEq] at hx
    obtain ⟨cfg, -, u, -, -, -, deadline, -, -, -, -, -, rfl⟩ := hx
    exact ⟨_, .fiatPaid caller, rfl⟩
  | releaseFromFunded i =>
    obtain rfl := Option.some.inj hop
    simp only [exec, releaseFromFunded, getConfig, getTrade, storageGetTrade, bind_eq_ok,
      okOr_eq_ok, rejectIf_eq_ok, requireAuth_eq_ok, Except.ok.injEq] at hx
    obtain ⟨cfg, -, u, -, -, -, -, -, -, -, -, -, deadline, -, -, -, -, -, -, -, ⟨h₁, fees⟩, hpay,
      rfl⟩ := hx
    obtain ⟨-, rfl⟩ := payRelease_ok hpay
    exact ⟨_, .earlyReleased fees, rfl⟩
  | confirmAndRelease i =>
    obtain rfl := Option.some.inj hop
    simp only [exec, confirmAndRelease, getConfig, getTrade, storageGetTrade, bind_eq_ok,
      okOr_eq_ok, rejectIf_eq_ok, requireAuth_eq_ok, Except.ok.injEq] at hx
    obtain ⟨cfg, -, u, -, -, -, -, -, ⟨h₁, fees⟩, hpay, rfl⟩ := hx
    obtain ⟨-, rfl⟩ := payRelease_ok hpay
    exact ⟨_, .released fees, rfl⟩
  | refund i =>
    obtain rfl := Option.some.inj hop
    simp only [exec, refund, getConfig, getTrade, storageGetTrade, bind_eq_ok, okOr_eq_ok,
      rejectIf_eq_ok, doRefund_eq_ok] at hx
    obtain ⟨cfg, -, u, hu, -, -, opensAt, -, -, -, -, -, rfl⟩ := hx
    obtain rfl := Option.some.inj (hlook.symm.trans hu)
    exact ⟨_, .refunded, rfl⟩
  | cancel i =>
    obtain rfl := Option.some.inj hop
    simp only [exec, cancel, getConfig, getTrade, storageGetTrade, bind_eq_ok, okOr_eq_ok,
      rejectIf_eq_ok, requireAuth_eq_ok, doRefund_eq_ok] at hx
    obtain ⟨cfg, -, u, hu, -, -, -, -, -, -, -, -, rfl⟩ := hx
    obtain rfl := Option.some.inj (hlook.symm.trans hu)
    exact ⟨_, .cancelled, rfl⟩
  | raiseDispute i raiser =>
    obtain rfl := Option.some.inj hop
    simp only [exec, raiseDispute, getConfig, getTrade, storageGetTrade, bind_eq_ok, okOr_eq_ok,
      rejectIf_eq_ok, requireAuth_eq_ok, addU64_eq_ok, Except.ok.injEq] at hx
    obtain ⟨u, -, cfg, -, prior, -, -, -, -, -, d, -, rfl⟩ := hx
    exact ⟨_, .disputed raiser, rfl⟩
  | resolve i d caller =>
    obtain rfl := Option.some.inj hop
    exact resolve_announces hlook hx
  | setConfig | setPaused => cases hop

theorem createTrade_announces {a : CreateArgs} (hx : createTrade env h id a = .ok h') :
    h'.events = h.events ++ [.tradeCreated id a.usdcAmount] := by
  simp only [createTrade, getConfig, rejectOperator, bind_eq_ok, okOr_eq_ok, rejectIf_eq_ok,
    requireAuth_eq_ok, addU64_eq_ok, transfer_eq_ok, Except.ok.injEq] at hx
  obtain ⟨cfg, -, -, -, -, -, -, -, -, -, -, -, -, -, -, -, -, -, -, -, -, -, -, -, -, -, -, -, -,
    -, -, -, -, -, -, -, h₁, ⟨-, rfl⟩, rfl⟩ := hx
  rfl

/-- The stored record is the one that the events tell of. -/
structure Describes (φ : Phase) (t : Trade) : Prop where
  status : φ.status = some t.status
  settlement : Invariant.settlement t = φ.direction
  raiser : ∀ r, φ.raiser = some r → t.disputedBy = some r
  undated : φ.direction = none → t.settledAt = 0
  whole : ∀ r, φ ≠ .unwinding r
  flagged : Flagged t

def Agrees (φ : Phase) : Option Trade → Prop
  | none => φ = .absent
  | some t => Describes φ t

variable {φ : Phase} {cfg : Config} {ts : List Transfer} {evs : List Event}

theorem Describes.funded (hd : Describes φ t) (hst : t.status = .funded) : φ = .funded := by
  have h := hd.status
  rw [hst] at h
  cases φ with
  | funded => rfl
  | settled d => cases d <;> cases h
  | absent | fiatPaid | disputed | unwinding | reopened => cases h

theorem Describes.fiatPaid (hd : Describes φ t) (hst : t.status = .fiatPaid) : φ = .fiatPaid := by
  have h := hd.status
  rw [hst] at h
  cases φ with
  | fiatPaid => rfl
  | settled d => cases d <;> cases h
  | absent | funded | disputed | unwinding | reopened => cases h

theorem Describes.disputed (hd : Describes φ t) (hst : t.status = .disputed) :
    (∃ r, φ = .disputed r) ∨ ∃ d r, φ = .reopened d r := by
  have h := hd.status
  rw [hst] at h
  cases φ with
  | disputed r => exact .inl ⟨r, rfl⟩
  | reopened d r => exact .inr ⟨d, r, rfl⟩
  | settled d => cases d <;> cases h
  | absent | funded | fiatPaid | unwinding => cases h

theorem Describes.settled (hd : Describes φ t) (hst : t.status = .released ∨ t.status = .refunded) :
    ∃ d, φ = .settled d ∧ direction t.status = some d := by
  have h := hd.status
  cases φ with
  | settled d => exact ⟨d, rfl, by cases d <;> obtain h' := Option.some.inj h <;> rw [← h'] <;> rfl⟩
  | unwinding r => exact absurd rfl (hd.whole r)
  | absent | funded | fiatPaid | disputed | reopened =>
    obtain hst | hst := hst <;> rw [hst] at h <;> cases h

theorem Describes.disputed_held (hd : Describes φ t) (hst : t.status = .disputed)
    (hnone : Invariant.settlement t = none) : ∃ r, φ = .disputed r := by
  obtain h | ⟨d, r, rfl⟩ := hd.disputed hst
  · exact h
  · cases hnone.symm.trans hd.settlement

theorem describes_settledNow {u : Trade} {d : ResolveOutcome} (hf : Flagged (settledNow env u d))
    (hflag : u.hasPreDisputeStatus = false) : Describes (.settled d) (settledNow env u d) where
  status := by cases d <;> rfl
  settlement := settlement_settledNow hflag d
  raiser r hr := by cases hr
  undated hn := by cases hn
  whole r := by simp
  flagged := hf

theorem settled_prior {prior : Status} (hf : Flagged t) (hpre : t.preDisputeStatus? = some prior)
    (hprior : prior ≠ .funded) : prior = .released ∨ prior = .refunded := by
  obtain ⟨hflag, rfl⟩ := recorded_some hpre
  exact (hf.up hflag).2.resolve_left hprior

/-- What a call announces takes the trade as told to the trade as stored. -/
theorem moves_describes (hm : Moves cfg env id t op t' ts) (ha : Announces id t op evs)
    (hd : Describes φ t) : ∃ φ', evs.foldlM Phase.next φ = some φ' ∧ Describes φ' t' := by
  have hf : Flagged t' := moves_flagged hd.flagged hm
  have hsame (hts : ts = []) : Invariant.settlement t' = φ.direction := by
    obtain ⟨h, -⟩ | ⟨-, d, -, hpaid⟩ := moves_settlement hd.flagged hm
    · exact h.trans hd.settlement
    · exact absurd (hpaid.symm.trans hts) (payout_ne_nil _ _ _)
  cases hm with
  | mark hst =>
    obtain rfl := hd.funded hst
    cases ha
    exact ⟨.fiatPaid, rfl, rfl, hsame rfl, fun r hr => (by cases hr), fun _ => hd.undated rfl,
      fun r => (by simp), hf⟩
  | releaseEarly hst =>
    obtain rfl := hd.funded hst
    cases ha
    exact ⟨_, rfl, describes_settledNow hf (hd.flagged.unflagged (by simp [hst]))⟩
  | confirm hst =>
    obtain rfl := hd.fiatPaid hst
    cases ha
    exact ⟨_, rfl, describes_settledNow hf (hd.flagged.unflagged (by simp [hst]))⟩
  | refundLate hst | cancelBoth hst =>
    obtain rfl := hd.funded hst
    cases ha
    exact ⟨_, rfl, describes_settledNow hf (hd.flagged.unflagged (by simp [hst]))⟩
  | @disputePaid raiser hst =>
    obtain rfl := hd.fiatPaid hst
    cases ha
    exact ⟨.disputed raiser, rfl, rfl, hsame rfl, fun r hr => hr, fun _ => hd.undated rfl,
      fun r => (by simp), hf⟩
  | @disputeFunded raiser hst =>
    obtain rfl := hd.funded hst
    cases ha
    exact ⟨.disputed raiser, rfl, rfl, hsame rfl, fun r hr => hr, fun _ => hd.undated rfl,
      fun r => (by simp), hf⟩
  | @disputeSettled raiser hst =>
    obtain ⟨d, rfl, -⟩ := hd.settled hst
    cases ha
    obtain ⟨p, r, q, he, -⟩ := reopened_eq env t raiser
    refine ⟨.reopened d raiser, rfl, ?_, hsame rfl, fun r hr => ?_, fun h => (by cases h),
      fun r => (by simp), hf⟩
    · rw [he]
      rfl
    · rw [he]
      exact hr
  | settlePaid hst hj hpre =>
    have hflag := recorded_none hpre
    obtain ⟨r, rfl⟩ := hd.disputed_held hst (by rw [settlement_of_unflagged hflag, hst]; rfl)
    cases ha with
    | resolvedRelease | resolvedRefund => exact ⟨_, rfl, describes_settledNow hf hflag⟩
    | judged caller d hpre' => cases hpre.symm.trans hpre'
  | settleFunded hst hj hpre =>
    obtain ⟨r, rfl⟩ := hd.disputed_held hst (by rw [settlement_of_recorded hpre]; rfl)
    cases ha with
    | resolvedRelease | resolvedRefund => exact ⟨_, rfl, describes_settledNow hf rfl⟩
    | judged caller d hpre' hprior =>
      exact absurd (Option.some.inj (hpre'.symm.trans hpre)) hprior
  | @judge caller d prior u hst hj hpre hprior hv =>
    have hdir := hd.settlement
    rw [settlement_of_recorded hpre] at hdir
    obtain hpast | hpast := settled_prior hd.flagged hpre hprior <;> subst hpast <;>
      obtain ⟨r, rfl⟩ | ⟨d', r, rfl⟩ := hd.disputed hst <;> cases hdir
    all_goals
      cases ha with
      | resolvedRelease _ hheld | resolvedRefund _ hheld => simp [hpre] at hheld
      | judged =>
        exact ⟨_, rfl, rfl, hsame rfl, fun r hr => (by cases hr), fun h => (by cases h),
          fun r => (by simp), hf⟩

theorem Announces.subject_eq (ha : Announces id t op evs) : ∀ ev ∈ evs, subject ev = some id := by
  cases ha <;> simp [subject]

def news (id : TradeId) (w : World) (a : Action) : List Event :=
  ((receipt w a).elim [] fun r => r.events).filter fun ev => subject ev = some id

theorem filter_subject (hall : ∀ ev ∈ evs, subject ev = some id) (i : TradeId) :
    (evs.filter fun ev => subject ev = some i) = if id = i then evs else [] := by
  by_cases hi : id = i
  · rw [if_pos hi, List.filter_eq_self]
    intro ev hev
    simp [hall ev hev, hi]
  · rw [if_neg hi, List.filter_eq_nil_iff]
    intro ev hev
    simp [hall ev hev, hi]

theorem describes_openingTrade (cfg : Config) (now : ℕ) (a : CreateArgs) :
    Describes .funded (openingTrade cfg now a) where
  status := rfl
  settlement := rfl
  raiser r hr := by cases hr
  undated _ := rfl
  whole r := by simp
  flagged := ⟨fun h => (by cases h), fun _ => rfl⟩

/-- What one action does to one trade, with what it publishes about it. -/
inductive NewsStep (id : TradeId) (w : World) (a : Action) : Prop
  | same (ht : (next w a).trade id = w.trade id) (hn : news id w a = [])
  | opened {cfg : Config} {now : ℕ} {args : CreateArgs} (hnew : w.trade id = none)
      (ht : (next w a).trade id = some (openingTrade cfg now args))
      (hn : news id w a = [.tradeCreated id args.usdcAmount])
  | moved {cfg : Config} {env : Env} {op : Op} {t t' : Trade} {ts : List Transfer}
      {evs : List Event} (hlook : w.trade id = some t) (hm : Moves cfg env id t op t' ts)
      (ha : Announces id t op evs) (ht : (next w a).trade id = some t') (hn : news id w a = evs)

theorem call_news {w : World} (hx : Deployment.invoke exec w env op = .ok h')
    (heff : Effect env w.contents op h'.storage ts) : NewsStep id w (.call env op) := by
  have hnext : (next w (.call env op)).trade id = h'.storage.trades.lookup id := by
    simp [next, Deployment.next, hx, World.trade]
  have hnews : news id w (.call env op) = h'.events.filter fun ev => subject ev = some id := by
    simp [news, receipt, Deployment.receipt, hx]
  generalize hst : h'.storage = c at heff hnext
  cases heff with
  | @opened cfg i a hcfg hnew ho =>
    have hev : h'.events = [.tradeCreated i a.usdcAmount] := createTrade_announces hx
    have hall : ∀ ev ∈ [Event.tradeCreated i a.usdcAmount], subject ev = some i := by
      simp [subject]
    rw [hev, filter_subject hall] at hnews
    by_cases hi : i = id
    · subst hi
      rw [if_pos rfl] at hnews
      exact .opened hnew (hnext.trans (AList.lookup_insert _)) hnews
    · rw [if_neg hi] at hnews
      exact .same (hnext.trans (AList.lookup_insert_ne (Ne.symm hi))) hnews
  | @moved cfg i t t' _ _ hcfg hlook hm =>
    obtain ⟨evs, ha, hev⟩ := exec_announces hlook (moves_tradeId hm) (by cases hm <;> simp) hx
    have hev : h'.events = evs := hev
    rw [hev, filter_subject ha.subject_eq] at hnews
    by_cases hi : i = id
    · subst hi
      rw [if_pos rfl] at hnews
      exact .moved hlook hm ha (hnext.trans (AList.lookup_insert _)) hnews
    · rw [if_neg hi] at hnews
      exact .same (hnext.trans (AList.lookup_insert_ne (Ne.symm hi))) hnews
  | configured hcfg =>
    simp only [Deployment.invoke, exec, setConfig, getConfig, bind_eq_ok, okOr_eq_ok,
      rejectIf_eq_ok, requireAuth_eq_ok, Except.ok.injEq] at hx
    obtain ⟨_, -, -, -, -, -, -, -, -, -, -, -, -, -, -, -, -, -, -, -, rfl⟩ := hx
    exact .same hnext hnews
  | pauseSet =>
    simp only [Deployment.invoke, exec, setPaused, getConfig, bind_eq_ok, okOr_eq_ok,
      requireAuth_eq_ok, Except.ok.injEq] at hx
    obtain ⟨_, -, -, -, rfl⟩ := hx
    exact .same hnext hnews

theorem news_step (id : TradeId) (w : World) (a : Action) : NewsStep id w a := by
  cases a with
  | other time moves => exact .same rfl rfl
  | call env op =>
    cases hx : Deployment.invoke exec w env op with
    | error f =>
      refine .same ?_ ?_
      · simp [next, Deployment.next, hx, World.trade]
      · simp [news, receipt, Deployment.receipt, hx]
    | ok h' =>
      obtain ⟨ts, heff, -, -⟩ := exec_effect env _ op h' hx
      exact call_news hx heff

theorem next_agrees {w : World} (a : Action) (hag : Agrees φ (w.trade id)) :
    ∃ φ', (news id w a).foldlM Phase.next φ = some φ' ∧ Agrees φ' ((next w a).trade id) := by
  cases news_step id w a with
  | same ht hn =>
    rw [ht, hn]
    exact ⟨φ, rfl, hag⟩
  | opened hnew ht hn =>
    rw [hnew] at hag
    obtain rfl : φ = .absent := hag
    rw [ht, hn]
    exact ⟨.funded, rfl, describes_openingTrade _ _ _⟩
  | moved hlook hm ha ht hn =>
    rw [hlook] at hag
    rw [ht, hn]
    exact moves_describes hm ha hag

/-- How far a trade is; after a settlement it is not further, whatever is raised. -/
def Phase.rank : Phase → ℕ
  | .absent => 0
  | .funded => 1
  | .fiatPaid => 2
  | .disputed _ => 3
  | .unwinding _ => 4
  | .settled _ | .reopened _ _ => 5

def isVerdict : Event → Bool
  | .resolved _ _ _ => true
  | _ => false

def phaseAt (log : List Event) (i : ℕ) : Phase :=
  (log.take i).foldl (fun φ ev => (φ.next ev).getD φ) .absent

def Legal (log : List Event) : Prop :=
  ∀ i ev, log[i]? = some ev → (phaseAt log i).next ev = some (phaseAt log (i + 1))

variable {log : List Event} {i j : ℕ} {ev : Event} {ψ : Phase}

theorem phaseAt_append (evs : List Event) (hi : i ≤ log.length) :
    phaseAt (log ++ evs) i = phaseAt log i := by
  rw [phaseAt, List.take_append_of_le_length hi, phaseAt]

theorem phaseAt_succ (hev : log[i]? = some ev) (hn : (phaseAt log i).next ev = some ψ) :
    phaseAt log (i + 1) = ψ := by
  rw [phaseAt, List.take_add_one, hev, Option.toList_some, List.foldl_append, ← phaseAt]
  simp [hn]

theorem Legal.nil : Legal [] := by
  intro i ev hev
  simp at hev

theorem Legal.snoc (hl : Legal log) (hn : (phaseAt log log.length).next ev = some ψ) :
    Legal (log ++ [ev]) ∧ phaseAt (log ++ [ev]) (log.length + 1) = ψ := by
  have hlast : phaseAt (log ++ [ev]) (log.length + 1) = ψ := by
    have hev : (log ++ [ev])[log.length]? = some ev := by simp
    apply phaseAt_succ hev
    rw [phaseAt_append _ le_rfl, hn]
  refine ⟨fun i ev' hev => ?_, hlast⟩
  by_cases hi : i < log.length
  · rw [List.getElem?_append_left hi] at hev
    rw [phaseAt_append _ hi.le, phaseAt_append _ hi]
    exact hl i ev' hev
  · have hlen : i < (log ++ [ev]).length := (List.getElem?_eq_some_iff.mp hev).1
    obtain rfl : i = log.length := by
      rw [List.length_append, List.length_singleton] at hlen
      omega
    obtain rfl : ev = ev' := by simpa using hev
    rw [hlast, phaseAt_append _ le_rfl, hn]

theorem Legal.append (hl : Legal log)
    (hn : evs.foldlM Phase.next (phaseAt log log.length) = some ψ) :
    Legal (log ++ evs) ∧ phaseAt (log ++ evs) (log ++ evs).length = ψ := by
  induction evs generalizing log with
  | nil =>
    rw [List.append_nil]
    exact ⟨hl, Option.some.inj hn⟩
  | cons ev evs ih =>
    rw [List.foldlM_cons] at hn
    obtain ⟨φ₁, h₁, hn⟩ := Option.bind_eq_some_iff.mp hn
    obtain ⟨hl', hφ⟩ := hl.snoc h₁
    have hlen : (log ++ [ev]).length = log.length + 1 := by simp
    rw [List.append_cons]
    apply ih hl'
    rw [hlen, hφ]
    exact hn

theorem Legal.mono (hl : Legal log) {P : Phase → Prop}
    (hP : ∀ φ ev φ', Phase.next φ ev = some φ' → P φ → P φ') (hij : i ≤ j)
    (h : P (phaseAt log i)) : P (phaseAt log j) := by
  induction j, hij using Nat.le_induction with
  | base => exact h
  | succ j hij ih =>
    by_cases hj : j < log.length
    · exact hP _ _ _ (hl j log[j] (List.getElem?_eq_getElem hj)) ih
    · rw [phaseAt, List.take_of_length_le (by omega : log.length ≤ j + 1)]
      rw [phaseAt, List.take_of_length_le (by omega : log.length ≤ j)] at ih
      exact ih

theorem next_rank {φ' : Phase} (hn : Phase.next φ ev = some φ') : φ.rank ≤ φ'.rank := by
  unfold Phase.next at hn
  split at hn <;> cases hn <;> simp [Phase.rank]

theorem next_present {φ' : Phase} (hn : Phase.next φ ev = some φ') : 1 ≤ φ'.rank := by
  unfold Phase.next at hn
  split at hn <;> cases hn <;> simp [Phase.rank]

theorem next_direction {φ' : Phase} {d : ResolveOutcome} (hn : Phase.next φ ev = some φ')
    (hd : φ.direction = some d) : φ'.direction = some d := by
  unfold Phase.next at hn
  split at hn <;> cases hn <;> first | exact hd | cases hd

theorem Legal.rank_le (hl : Legal log) (hij : i ≤ j) :
    (phaseAt log i).rank ≤ (phaseAt log j).rank :=
  hl.mono (P := fun φ => (phaseAt log i).rank ≤ φ.rank)
    (fun _ _ _ hn h => h.trans (next_rank hn)) hij le_rfl

theorem Legal.direction_eq (hl : Legal log) (hij : i ≤ j) {d : ResolveOutcome}
    (hd : (phaseAt log i).direction = some d) : (phaseAt log j).direction = some d :=
  hl.mono (P := fun φ => φ.direction = some d) (fun _ _ _ hn h => next_direction hn h) hij hd

end Lolipay.Escrow.Phases
