import Lolipay.Coordinator.Reservations

namespace Lolipay.Coordinator.Transactions

open Lolipay.Ledger.Storage Lolipay.Ledger.Invocation Lolipay.Ledger.Runs
open Lolipay.Async Lolipay.Async.Process Lolipay.Async.Scheduling
open Lolipay.Escrow.Types
open Lolipay.Coordinator.Orders Lolipay.Coordinator.Writes Lolipay.Coordinator.Database
open Lolipay.Coordinator.Services Lolipay.Coordinator.Creation Lolipay.Coordinator.Desk
open Lolipay.Coordinator.Steps Lolipay.Coordinator.Footprint Lolipay.Coordinator.Reservations

variable {y : Settings} {allowed : Call → Prop} {solo : Prop} {s t : Shared} {pid : Pid}
  {e : Effect} {o : Choice} {α : Type}

/-- A service that keeps to the protocol, with what it leaves behind. -/
abbrev Abides (y : Settings) (allowed : Call → Prop) (solo : Prop) (pid : Pid)
    (Q : α → Shared → Prop) (p : Service α) (s : Shared) : Prop :=
  Safe ((creationProtocol y allowed solo).of pid) Q p s

theorem licensed_keeps (hl : Licensed y solo pid e o t) (ht : Reserved y solo t)
    (hp : (desk y allowed).permits pid e o t) :
    (creationProtocol y allowed solo).guar pid t (after pid e o t) ∧
      Reserved y solo (after pid e o t) :=
  ⟨⟨fun _ hq => ⟨ht.steady hp hl (.inl (Ne.symm hq)), txs_other (Ne.symm hq)⟩, hl.whole⟩,
    ht.after hp hl⟩

theorem abides_issue {Q : α → Shared → Prop} {k : Reply e → Service α}
    (hl : ∀ t o, Reserved y solo t → Relies y solo pid s t → Licensed y solo pid e o t)
    (hk : ∀ t o, Reserved y solo t → Relies y solo pid s t →
      Abides y allowed solo pid Q (k (reply pid e o t)) (after pid e o t)) :
    Abides y allowed solo pid Q (issue e >>= k) s := by
  refine safe_step _ fun t o hst ht hp => ?_
  obtain ⟨hguar, hinv⟩ := licensed_keeps (hl t o ht hst) ht hp
  exact ⟨hguar, hinv, hk t o ht hst⟩

theorem abides_ask {Q : α → Shared → Prop} {a : Query} {k : a.Reply → Service α}
    (hk : ∀ t o, Reserved y solo t → Relies y solo pid s t → Truthful y t o a →
      Abides y allowed solo pid Q (k (answer t o a)) t) :
    Abides y allowed solo pid Q (ask a >>= k) s :=
  safe_step _ fun t o hst ht hp =>
    ⟨⟨fun q _ => .refl q t, .inl ⟨rfl, fun _ => rfl⟩⟩, ht, hk t o ht hst hp⟩

theorem abides_of_every {p : Service α} (h : Every (fun e => ∀ t o, Licensed y solo pid e o t) p) :
    Abides y allowed solo pid (fun _ _ => True) p s :=
  safe_every (creationProtocol y allowed solo) (fun _ hl t o ht hp => licensed_keeps (hl t o) ht hp) h s

theorem licensed_of_not_tx (hsolo : ¬solo) (he : isTx e = false) : Licensed y solo pid e o s := by
  cases e with
  | ask => trivial
  | createOrderRow | commit => cases he
  | _ => exact fun h => absurd h hsolo

theorem exposure_antitone (hs : Reserved y solo s) (lp : LpId) {n m : ℤ} (hnm : n ≤ m) :
    lpExposure s.db.orders lp m ≤ lpExposure s.db.orders lp n := by
  refine total_le fun id => ?_
  simp only [measureAt]
  cases hrow : s.db.orders.lookup id with
  | none => exact le_refl _
  | some row =>
    have hlater (h : exposes lp m row = true) : exposes lp n row = true := by
      simp only [exposes, Bool.and_eq_true] at h ⊢
      refine ⟨h.1, ?_⟩
      have hopen := h.2
      split at hopen
      next => rfl
      next => exact decide_eq_true (hnm.trans (of_decide_eq_true hopen))
    simp only [Option.map_some, Option.getD_some]
    by_cases h : exposes lp m row = true
    · rw [if_pos h, if_pos (hlater h)]
    · rw [if_neg h]
      split
      next => exact (hs.rows id row hrow).1
      next => exact le_refl 0

theorem standing_le_used (hs : Reserved y solo s) (hsolo : ¬solo) (person : PersonId)
    {since : ℤ} (till : ℤ) (hsince : s.now - dayMs ≤ since) :
    standing s.db.orders person since till ≤ used24hBaseUnits s.db.orders person s.now := by
  refine total_le fun id => ?_
  simp only [measureAt]
  cases hrow : s.db.orders.lookup id with
  | none => exact le_refl _
  | some row =>
    obtain ⟨hamount, hmarked⟩ := hs.rows id row hrow
    have hcounted (h : counts person since till row = true) :
        countsToVolume person (s.now - dayMs) row = true := by
      simp only [counts, Bool.and_eq_true, decide_eq_true_eq, Bool.not_eq_true'] at h
      obtain ⟨⟨⟨hperson, hfrom⟩, -⟩, hclear⟩ := h
      simp only [countsToVolume, Bool.and_eq_true, decide_eq_true_eq, Bool.not_eq_true']
      refine ⟨⟨hperson, hsince.trans hfrom⟩, Bool.eq_false_iff.mpr fun hex => ?_⟩
      exact Bool.eq_false_iff.mp hclear (hmarked.resolve_left hsolo hex)
    simp only [Option.map_some, Option.getD_some]
    by_cases h : counts person since till row = true
    · rw [if_pos h, if_pos (hcounted h)]
    · rw [if_neg h]
      split
      next => exact hamount
      next => exact le_refl 0

/-- What `createFromQuote` has established when it comes to its transaction. -/
structure Fair (y : Settings) (r : Request) : Prop where
  person : r.data.personId = r.personId
  lp : r.data.lpId = some r.lp.id
  wallet : r.data.lpWallet = some r.lp.stellarAddress
  bond : r.lp.staked = y.bondOf r.lp.stellarAddress
  limit : r.limitBase = dailyLimit y r.personId
  amount : 0 ≤ r.data.usdcAmount

/-- An open transaction that has its locks and has inserted nothing. -/
structure Holds (y : Settings) (r : Request) (pid : Pid) (c : Option (QuoteId × ℕ)) (s : Shared) :
    Prop where
  tx : s.txs pid = some ⟨c, none⟩
  person : s.locks (.person (y.hashtext r.personId)) = some pid
  provider : s.locks (.lpCapacity (y.hashtext r.lp.id)) = some pid

theorem Holds.relies {r : Request} {c : Option (QuoteId × ℕ)} (h : Holds y r pid c s)
    (hst : Relies y solo pid s t) : Holds y r pid c t :=
  ⟨hst.tx.trans h.tx, hst.locks _ h.person, hst.locks _ h.provider⟩

theorem Fair.room {r : Request} {c : Option (QuoteId × ℕ)} {since : ℤ} (hr : Fair y r)
    (h : Holds y r pid c s)
    (hcap : solo → RoomAtProvider y s r.lp.id r.lp.stellarAddress r.data.usdcAmount)
    (hvol : solo ∨ RoomInVolume y s r.personId since r.data.usdcAmount)
    (hsince : since ≤ s.now - dayMs) (ref : ℕ) :
    Room y solo s pid (stamped r.data r.needsRef s.now ref) where
  amount := hr.amount
  person := by
    simp only [stamped, hr.person]
    exact h.person
  volume := by
    refine hvol.imp_right fun hroom since' till hfrom => ?_
    simp only [stamped, hr.person]
    exact hroom since' till (hsince.trans hfrom)
  provider := ⟨_, _, hr.lp, hr.wallet, h.provider, hcap⟩

theorem rollback_abides :
    Abides y allowed solo pid (fun _ _ => True) (failAfter .rollback : Service Unit) s :=
  abides_issue (fun _ _ _ _ _ => rfl) fun _ _ _ _ => trivial

section

variable {r : Request} {retry : Service Unit} {c : QuoteId × ℕ}

theorem insert_abides (hr : Fair y r) (hretry : ∀ t, Abides y allowed solo pid (fun _ _ => True) retry t)
    (since : ℤ) (h : Holds y r pid (some c) s)
    (hcap : solo → RoomAtProvider y s r.lp.id r.lp.stellarAddress r.data.usdcAmount)
    (hvol : solo ∨ RoomInVolume y s r.personId since r.data.usdcAmount)
    (hsince : since ≤ s.now - dayMs) :
    Abides y allowed solo pid (fun _ _ => True) (do
      let inserted ← issue (Effect.createOrderRow r.data r.needsRef)
      match inserted with
      | none => failAfter .rollback
      | some .uniqueViolation => do
        issue Effect.rollback
        retry
      | some (.row _) =>
        let done : Bool ← issue Effect.commit
        demand done) s := by
  refine abides_issue (fun t o ht hst => ?_) fun t o ht hst => ?_
  · have hnow : (s.now : ℤ) ≤ t.now := by exact_mod_cast hst.now
    have hcap' (hsolo : solo) := (hcap hsolo).steady hst.toSteady hsolo h.provider
    have hvol' := hvol.imp_right fun hroom => hroom.steady hst.toSteady h.person
    exact ⟨hr.room (h.relies hst) hcap' hvol' (by omega) o.ref, c, (h.relies hst).tx⟩
  · have htx := (h.relies hst).tx
    simp only [reply, after]
    split
    next => exact rollback_abides
    next => exact abides_issue (fun _ _ _ _ _ => rfl) fun t o _ _ => hretry _
    next id hrow =>
      -- The insertion has gone through, so the transaction is complete.
      refine abides_issue (fun u o' _ htu => ?_) fun u o' _ _ => ?_
      · refine ⟨c, (o.orderId, stamped r.data r.needsRef t.now o.ref), htu.tx.trans ?_⟩
        split at hrow
        next => cases hrow
        next hf =>
          simp only [runCreateOrderRow] at hrow ⊢
          split at hrow
          next => cases hrow
          next hno => simp [hf, hno, txs_setTx, htx]
      · exact safe_demand _

theorem createLocked_abides (hr : Fair y r)
    (hretry : ∀ t, Abides y allowed solo pid (fun _ _ => True) retry t)
    (h : Holds y r pid none s) :
    Abides y allowed solo pid (fun _ _ => True) (createLocked r retry) s := by
  refine abides_ask fun t₁ o₁ _ hst _ => abides_ask fun t₂ o₂ ht₂ ht₁₂ _ => ?_
  have h₂ := (h.relies hst).relies ht₁₂
  split
  next => exact rollback_abides
  next hfits =>
    have hcap (hsolo : solo) :
        RoomAtProvider y t₂ r.lp.id r.lp.stellarAddress r.data.usdcAmount := by
      intro nowSec hnow
      have hread : (t₁.now : ℤ) / 1000 ≤ nowSec :=
        (Int.ediv_le_ediv (by decide) (by exact_mod_cast ht₁₂.now)).trans hnow
      have hle := exposure_antitone ht₂ r.lp.id hread
      have hbond := hr.bond
      simp only [answer] at hfits
      omega
    refine abides_ask fun t₃ o₃ ht₃ ht₂₃ _ => ?_
    have h₃ := h₂.relies ht₂₃
    split
    next => exact rollback_abides
    next hfits' =>
      have hvol : solo ∨ RoomInVolume y t₃ r.personId (t₃.now - dayMs) r.data.usdcAmount := by
        by_cases hsolo : solo
        · exact .inl hsolo
        · refine .inr fun since till hsince => ?_
          have hle := standing_le_used ht₃ hsolo r.personId till hsince
          have hlimit := hr.limit
          simp only [answer] at hfits'
          omega
      refine abides_ask fun t₄ o₄ _ ht₃₄ _ => ?_
      split
      next =>
        refine abides_issue (fun _ _ _ _ _ => rfl) fun t₅ o₅ ht₅ ht₄₅ => ?_
        have ht₃₅ := ht₃₄.trans ht₄₅
        have h₅ := h₃.relies ht₃₅
        split
        next => exact rollback_abides
        next => exact rollback_abides
        next n hconsumed =>
          simp only [reply] at hconsumed
          split at hconsumed
          next => cases hconsumed
          next hf =>
            simp only [runConsumeQuote] at hconsumed
            split at hconsumed
            next => cases hconsumed
            next quote hquote =>
              -- The quote is taken in the transaction; locks and rows are as they were.
              have hafter : after pid (.consumeQuote r.quoteId) o₅ t₅ =
                  t₅.setTx pid (some ⟨some (r.quoteId, t₅.now), none⟩) := by
                simp only [after, runConsumeQuote, hf, hquote, h₅.tx, Option.map_some]
                rfl
              have hset : Steady y solo pid t₅ (after pid (.consumeQuote r.quoteId) o₅ t₅) := by
                rw [hafter]
                exact .of_same rfl (le_refl _) fun _ h => h
              rw [hafter] at hset ⊢
              refine insert_abides hr hretry (c := (r.quoteId, t₅.now)) (t₃.now - dayMs)
                ⟨by simp [txs_setTx], h₅.person, h₅.provider⟩ (fun hsolo => ?_) ?_ ?_
              · exact (hcap hsolo).steady ((ht₂₃.trans ht₃₅).toSteady.trans hset) hsolo h₂.provider
              · exact hvol.imp_right fun hroom => hroom.steady (ht₃₅.toSteady.trans hset) h₃.person
              · have hnow : (t₃.now : ℤ) ≤ t₅.now := by exact_mod_cast ht₃₅.now
                simp only [Shared.setTx]
                omega
      next => exact rollback_abides

theorem createAttempts_abides (hr : Fair y r) (n : ℕ) (s : Shared) :
    Abides y allowed solo pid (fun _ _ => True) (createAttempts y r n) s := by
  induction n generalizing s with
  | zero => trivial
  | succ n ih =>
    refine abides_issue (fun _ _ _ _ _ => rfl) fun t₁ o₁ _ _ => ?_
    refine abides_issue (fun _ _ _ _ _ => rfl) fun t₂ o₂ _ ht₁₂ => ?_
    refine abides_issue (fun _ _ _ _ _ => rfl) fun t₃ o₃ _ ht₂₃ => ?_
    refine createLocked_abides hr (fun t => ih t) ⟨?_, ?_, ?_⟩
    · exact ht₂₃.tx.trans (ht₁₂.tx.trans (by simp [after, txs_setTx]))
    · have hkey := ht₂₃.locks (.person (y.hashtext r.personId)) (by simp [after])
      simp [after, AdvisoryLock.acquire, hkey]
    · simp [after]

end

theorem tryLps_abides (amount : ℤ) (person : PersonId) (nowSec : ℤ) (lps : List Candidate)
    (s : Shared) :
    Abides y allowed solo pid (fun lp _ => lp.staked = y.bondOf lp.stellarAddress)
      (tryLps amount person nowSec lps) s := by
  induction lps generalizing s with
  | nil => trivial
  | cons lp others ih =>
    refine abides_ask fun t o _ _ htruth => ?_
    split
    next => exact ih t
    next stake hstake =>
      split
      next =>
        refine abides_ask fun t₁ o₁ _ _ _ => ?_
        split
        next => exact ih t₁
        next =>
          refine abides_ask fun t₂ o₂ _ _ _ => ?_
          split
          next => trivial
          next => exact fun _ _ _ => htruth stake hstake
      next => exact ih t

theorem placeOrder_abides {quote : Quote} (config : PlatformConfig) (user : Address)
    (quoteId : QuoteId) (personId : PersonId) {limitBase : ℤ} (hamount : 0 ≤ quote.usdcAmount)
    (hlimit : limitBase = dailyLimit y personId) :
    Abides y allowed solo pid (fun _ _ => True)
      (placeOrder y user quoteId quote config personId limitBase) s := by
  refine abides_ask fun t₁ o₁ ht₁ _ _ => abides_ask fun t₂ o₂ ht₂ _ _ => ?_
  have hpick : Abides y allowed solo pid (fun lp _ => lp.staked = y.bondOf lp.stellarAddress)
      (pickLp quote.rail quote.fiatCurrency quote.usdcAmount personId) t₂ := by
    refine abides_ask fun _ _ _ _ _ => abides_ask fun _ _ _ _ _ => ?_
    exact abides_ask fun t _ _ _ _ => tryLps_abides _ _ _ _ t
  refine Safe.bind (Relies.refl pid) hpick ht₂ fun lp t ht hbond => ?_
  have hready (as : List Address) : Abides y allowed solo pid (fun _ _ => True)
      (trustlinesReady as) t :=
    abides_of_every (trustlinesReady_every (fun _ _ _ => trivial) as)
  refine Safe.bind (Relies.refl pid) (hready _) ht fun ready u _ _ => ?_
  split
  next => exact createAttempts_abides ⟨rfl, rfl, rfl, hbond, hlimit, hamount⟩ _ u
  next => trivial

theorem createFromQuote_abides (user : Address) (quoteId : QuoteId) (destination : Option String) :
    Abides y allowed solo pid (fun _ _ => True) (createFromQuote y user quoteId destination) s := by
  refine abides_ask fun _ _ _ _ _ => ?_
  split
  next => trivial
  next quote hquote =>
    refine abides_ask fun _ _ _ _ _ => ?_
    split
    next => trivial
    next =>
      split
      next => trivial
      next =>
        split
        next => trivial
        next =>
          refine abides_ask fun t o _ _ hconfig => ?_
          split
          next => trivial
          next hbounds =>
            refine abides_ask fun _ _ _ _ _ => ?_
            split
            next => trivial
            next personId _ =>
              refine abides_ask fun t₁ o₁ _ _ htier => abides_ask fun _ _ _ _ _ => ?_
              split
              next => trivial
              next =>
                refine abides_ask fun _ _ _ _ _ => abides_ask fun _ _ _ _ _ => ?_
                split
                next =>
                  -- The amount is at least the smallest order, and the tier and
                  -- the table of limits are those of the run.
                  refine placeOrder_abides _ user quoteId personId ?_ ?_
                  · have hmin := (answer t o .getConfig).minOrder_pos
                    have hge := (not_or.mp (not_or.mp hbounds).2).1
                    exact hmin.le.trans (not_lt.mp hge)
                  · change dailyLimitBaseUnits o₁.tier (o.config.getD defaultConfig).dailyLimitByTier = _
                    rw [htier, hconfig]
                    rfl
                next => trivial

def IsCreation : Call → Prop
  | .createFromQuote _ _ _ => True
  | _ => False

/-- Every service keeps to the protocol; with `solo`, only creations run. -/
theorem body_abides (pid : Pid) (c : Call) (s : Shared) (hc : solo → IsCreation c) :
    Abides y allowed solo pid (fun _ _ => True) (body y c) s := by
  by_cases hsolo : solo
  · cases c with
    | createFromQuote user quoteId destination =>
      exact createFromQuote_abides user quoteId destination
    | _ => exact (hc hsolo).elim
  · -- The other services touch neither locks nor transactions.
    have hfree (e : Effect) (he : isTx e = false) (t : Shared) (o : Choice) :
        Licensed y solo pid e o t := licensed_of_not_tx hsolo he
    have hask (q : Query) := hfree (.ask q) rfl
    cases c with
    | getOrder id => exact abides_of_every (getOrder_every _ hask fun _ _ => hfree _ rfl)
    | cancelOrder id caller =>
      exact abides_of_every (cancelOrder_every _ hask (fun _ => hfree _ rfl) (hfree _ rfl) caller)
    | expireStaleOrders =>
      exact abides_of_every (expireStaleOrders_every _ hask fun _ => hfree _ rfl)
    | autoRefundExpired =>
      exact abides_of_every (autoRefundExpired_every _ hask fun _ _ _ => hfree _ rfl)
    | attestFiatPaid id => exact abides_of_every (attestFiatPaid_every _ hask (hfree _ rfl))
    | setStatus id status note =>
      exact abides_of_every (setStatus_every hask fun _ _ => hfree _ rfl)
    | applyEvent ev =>
      refine abides_of_every (Every.bind ?_ fun _ => trivial)
      refine applyEvent_every _ hask (fun _ => hfree _ rfl) (fun e id he _ => hfree e ?_) ev
      cases e <;> first | rfl | cases he
    | createFromQuote user quoteId destination =>
      exact createFromQuote_abides user quoteId destination

theorem run_abides {w : Office} {tr : DeskHistory} (hsolo : solo → ∀ c, allowed c → IsCreation c)
    (hs : Reserved y solo s) (hr : Run (machine (desk y allowed)) (idle s) tr w) :
    Orderly (creationProtocol y allowed solo) w :=
  run_orderly (fun pid c s _ hc => body_abides pid c s fun h => hsolo h c hc) hr (.idle hs)

end Lolipay.Coordinator.Transactions
