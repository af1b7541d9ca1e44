import Lolipay.Coordinator.ConfigPatches

namespace Lolipay.Coordinator.ConfigSound

open Lolipay.Ledger.Invocation Lolipay.Ledger.Runs
open Lolipay.Async.Process Lolipay.Async.Scheduling
open Lolipay.Coordinator.Orders
open Lolipay.Coordinator.Database (UserTier)
open Lolipay.Coordinator.Creation (dailyLimitBaseUnits defaultDailyLimitUsdc usdcBaseUnits)
open Lolipay.Coordinator.Limits
open Lolipay.Coordinator.RateGuard (spreadCoversPriceDeviation platformFeeFitsSpread)
open Lolipay.Coordinator.ConfigPatches

def windowsOf (c : Config) : Windows :=
  ⟨c.payWindowSecs, c.confirmWindowSecs, c.disputeWindowSecs⟩

/-- What the checks are for: the fees leave something of an amount, the windows
fit the contract and the cooldown of the stake, an accepted price move does not
eat up the spread, and every tier can place some order. -/
structure Sound (priceDeviationMaxBps : ℕ) (cooldownSecs : ℤ) (c : Config) : Prop where
  wallet : c.platformWallet.isSome
  fees : c.platformFeeBps + c.lpFeeBps < 10000
  allowed : (windowsOf c).allowed = true
  windows : windowsFitTheContract (windowsOf c) (some cooldownSecs) = none
  spread : priceDeviationMaxBps < c.spreadBps
  provider : c.platformFeeBps + priceDeviationMaxBps < c.spreadBps
  bounds : c.minOrder < c.maxOrder
  limits : ∀ tier, c.minOrder ≤ dailyLimitBaseUnits tier c.dailyLimitByTier

/-- What the start of the server asks of the stored row. -/
def checkRow (priceDeviationMaxBps : ℕ) (row : Config) : Except String Unit := do
  throwProblem "refusing to start" (spreadCoversPriceDeviation row.spreadBps priceDeviationMaxBps)
  throwProblem "refusing to start"
    (platformFeeFitsSpread row.platformFeeBps row.spreadBps priceDeviationMaxBps)
  throwProblem "refusing to start" (windowsFitTheContract (windowsOf row) none)
  throwIf (row.platformWallet = none)
    ("refusing to start: Config.platformWallet is empty, so every escrow lock would route the " ++
      "platform fee to no account and order creation would fail on-chain. Seed it first.")

section Checks

theorem then_ok {x : Except String Unit} {f : Unit → Except String Unit} :
    (x >>= f) = .ok () ↔ x = .ok () ∧ f () = .ok () := by
  cases x <;> simp [bind, Except.bind]

theorem throwIf_ok {p : Prop} [Decidable p] {message : String} : throwIf p message = .ok () ↔ ¬p := by
  by_cases hp : p <;> simp [throwIf, hp]

theorem throwProblem_ok {label : String} {problem : Option String} :
    throwProblem label problem = .ok () ↔ problem = none := by
  cases problem <;> simp [throwProblem]

theorem spreadCovers_none {spreadBps dev : ℕ} :
    spreadCoversPriceDeviation spreadBps dev = none ↔ dev < spreadBps := by
  unfold spreadCoversPriceDeviation
  split <;> simp [*]

theorem platformFeeFits_none {feeBps spreadBps dev : ℕ} :
    platformFeeFitsSpread feeBps spreadBps dev = none ↔ feeBps + dev < spreadBps := by
  unfold platformFeeFitsSpread
  split <;> simp_all

theorem windowsFit_none {w : Windows} {cooldown : Option ℤ} :
    windowsFitTheContract w cooldown = none ↔
      minUsablePayWindowSecs ≤ w.payWindowSecs ∧ w.payWindowSecs ≤ maxPayWindowSecs ∧
      w.payWindowSecs + w.confirmWindowSecs + w.disputeWindowSecs ≤ maxTotalWindowSecs ∧
      ∀ secs, cooldown = some secs → cooldownFloorSecs w.payWindowSecs w.confirmWindowSecs ≤ secs := by
  unfold windowsFitTheContract
  dsimp only
  split
  next hlow =>
    simp only [reduceCtorEq, false_iff, not_and]
    omega
  next hlow =>
    split
    next hhigh =>
      simp only [reduceCtorEq, false_iff, not_and]
      omega
    next hhigh =>
      split
      next htotal =>
        simp only [reduceCtorEq, false_iff, not_and]
        omega
      next htotal =>
        cases cooldown with
        | none => simp [not_lt.mp hlow, not_lt.mp hhigh, not_lt.mp htotal]
        | some secs => simp [not_lt.mp hlow, not_lt.mp hhigh, not_lt.mp htotal]

end Checks

theorem Sound.checkRow {dev : ℕ} {cooldownSecs : ℤ} {c : Config} (h : Sound dev cooldownSecs c) :
    checkRow dev c = .ok () := by
  obtain ⟨hlow, hhigh, htotal, -⟩ := windowsFit_none.mp h.windows
  simp only [ConfigSound.checkRow, then_ok, throwProblem_ok, throwIf_ok]
  refine ⟨spreadCovers_none.mpr h.spread, platformFeeFits_none.mpr h.provider, ?_, ?_⟩
  · exact windowsFit_none.mpr ⟨hlow, hhigh, htotal, fun _ hnone => by cases hnone⟩
  · exact Option.isSome_iff_ne_none.mp h.wallet

/-- The row that the first start creates is sound over the settings it is meant for. -/
theorem default_sound {dev : ℕ} {cooldownSecs : ℤ} (wallet : Address) (now : ℕ)
    (hdev : 30 + dev < 150) (hcooldown : cooldownFloorSecs 1800 1800 ≤ cooldownSecs) :
    Sound dev cooldownSecs (defaultConfig (some wallet) now) where
  wallet := rfl
  fees := show 30 + 120 < 10000 by decide
  allowed := rfl
  windows := windowsFit_none.mpr ⟨show minUsablePayWindowSecs ≤ 1800 by decide,
    show 1800 ≤ maxPayWindowSecs by decide, show 1800 + 1800 + 7200 ≤ maxTotalWindowSecs by decide,
    fun secs hsecs => by
      obtain rfl := Option.some.inj hsecs
      exact hcooldown⟩
  spread := by
    change dev < 150
    omega
  provider := hdev
  bounds := show (50000000 : ℤ) < 10000000000 by decide
  limits tier := by
    change 50000000 ≤ dailyLimitBaseUnits tier fun _ => none
    cases tier <;> decide

variable {usdcText : ℤ → String} {dev : ℕ} {patch : UpdateConfigDto} {fee : Option ℕ}
  {cooldown : Option ℤ} {current : Config}

section Patch

/-- The bounds of the orders, and the daily limits when one of the two moves. -/
def checkBounds (usdcText : ℤ → String) (patch : UpdateConfigDto) (current : Config) :
    Except String Unit := do
  throwIf (¬patch.nextMinOrder current < patch.nextMaxOrder current) "ORDER_BOUNDS_INVALID"
  if patch.minOrder.isSome || patch.dailyLimitByTier.isSome then
    let belowFloor := (tierLevels.map fun tier =>
      (tier, dailyLimitBaseUnits tier (patch.nextLimits current))).filter fun p =>
        p.2 < patch.nextMinOrder current
    throwIf (belowFloor ≠ [])
      (dailyLimitBelowMinOrderMessage usdcText belowFloor (patch.nextMinOrder current))
  else .ok ()

theorem checkBounds_ok (h : checkBounds usdcText patch current = .ok ()) :
    patch.nextMinOrder current < patch.nextMaxOrder current ∧
    ((patch.minOrder.isSome || patch.dailyLimitByTier.isSome) = true → ∀ tier ∈ tierLevels,
      patch.nextMinOrder current ≤ dailyLimitBaseUnits tier (patch.nextLimits current)) := by
  simp only [checkBounds, then_ok, throwIf_ok, not_not] at h
  obtain ⟨hbounds, h⟩ := h
  refine ⟨hbounds, fun hmoves tier htier => ?_⟩
  rw [if_pos hmoves, throwIf_ok, not_not, List.filter_eq_nil_iff] at h
  have hnot := h _ (List.mem_map_of_mem htier)
  exact not_lt.mp fun hlt => hnot (decide_eq_true hlt)

def checkFeeTotal (patch : UpdateConfigDto) (current : Config) : Except String Unit :=
  throwIf (patch.platformFeeBps.getD current.platformFeeBps + patch.lpFeeBps.getD current.lpFeeBps ≥ 10000)
    "BPS_OVERFLOW"

def checkWindows (patch : UpdateConfigDto) (cooldown : Option ℤ) (current : Config) :
    Except String Unit :=
  throwProblem "WINDOW_BOUNDS_INVALID" (windowsFitTheContract (windowsOf (patch.onto current 0)) cooldown)

def checkSpread (dev : ℕ) (patch : UpdateConfigDto) : Except String Unit :=
  match patch.spreadBps with
  | some spreadBps => throwProblem "SPREAD_TOO_NARROW" (spreadCoversPriceDeviation spreadBps dev)
  | none => .ok ()

def checkPlatformFee (dev : ℕ) (patch : UpdateConfigDto) (current : Config) : Except String Unit :=
  if patch.platformFeeBps.isSome || patch.spreadBps.isSome then
    throwProblem "PLATFORM_FEE_EXCEEDS_SPREAD" (platformFeeFitsSpread
      (patch.platformFeeBps.getD current.platformFeeBps) (patch.spreadBps.getD current.spreadBps) dev)
  else .ok ()

def checkChainFee (patch : UpdateConfigDto) : Option ℕ → Except String Unit
  | some fee =>
    throwIf (patch.platformFeeBps ≠ some fee)
      ("PLATFORM_FEE_DIVERGES_FROM_CHAIN: platformFeeBps (" ++
        (patch.platformFeeBps.map toString).getD "undefined" ++
        ") must equal the escrow contract default_platform_fee_bps (" ++ toString fee ++
        "), because create_trade refuses any other value and every funding would revert")
  | none => .ok ()

theorem checkPatch_eq :
    checkPatch usdcText dev patch fee cooldown current =
      (checkFeeTotal patch current >>= fun _ => checkWindows patch cooldown current >>= fun _ =>
        checkSpread dev patch >>= fun _ => checkPlatformFee dev patch current >>= fun _ =>
        checkChainFee patch fee >>= fun _ => checkBounds usdcText patch current) := by
  obtain ⟨spreadBps, platformFeeBps⟩ := patch
  cases spreadBps <;> cases platformFeeBps <;> cases fee <;> rfl

theorem checkSpread_ok (h : checkSpread dev patch = .ok ()) {spreadBps : ℕ}
    (hs : patch.spreadBps = some spreadBps) : dev < spreadBps := by
  rw [checkSpread, hs] at h
  exact spreadCovers_none.mp (throwProblem_ok.mp h)

theorem checkPlatformFee_ok (h : checkPlatformFee dev patch current = .ok ())
    (hmoves : (patch.platformFeeBps.isSome || patch.spreadBps.isSome) = true) :
    patch.platformFeeBps.getD current.platformFeeBps + dev < patch.spreadBps.getD current.spreadBps := by
  rw [checkPlatformFee, if_pos hmoves] at h
  exact platformFeeFits_none.mp (throwProblem_ok.mp h)

/-- The cooldown is read whenever a window moves that it has to cover. -/
def Covers (cooldownSecs : ℤ) (patch : UpdateConfigDto) (cooldown : Option ℤ) : Prop :=
  (patch.payWindowSecs.isSome || patch.confirmWindowSecs.isSome) = true →
    ∃ secs ≤ cooldownSecs, cooldown = some secs

section Sound

variable {cooldownSecs : ℤ} (hsound : Sound dev cooldownSecs current) (now : ℕ)

include hsound

theorem onto_limits (h : checkBounds usdcText patch current = .ok ()) (tier : UserTier) :
    patch.nextMinOrder current ≤ dailyLimitBaseUnits tier (patch.nextLimits current) := by
  by_cases hmoves : (patch.minOrder.isSome || patch.dailyLimitByTier.isSome) = true
  · exact (checkBounds_ok h).2 hmoves tier (by cases tier <;> decide)
  · simp only [Bool.or_eq_true, Option.isSome_iff_ne_none, ne_eq, not_or, not_not] at hmoves
    obtain ⟨hmin, hlimits⟩ := hmoves
    simp only [UpdateConfigDto.nextMinOrder, UpdateConfigDto.nextLimits, hmin, hlimits, Option.map_none,
      Option.getD_none]
    exact hsound.limits tier

theorem onto_spread (hspread : checkSpread dev patch = .ok ()) :
    dev < patch.spreadBps.getD current.spreadBps := by
  cases hs : patch.spreadBps with
  | none => exact hsound.spread
  | some spreadBps => exact checkSpread_ok hspread hs

theorem onto_provider (h : checkPlatformFee dev patch current = .ok ()) :
    patch.platformFeeBps.getD current.platformFeeBps + dev < patch.spreadBps.getD current.spreadBps := by
  by_cases hmoves : (patch.platformFeeBps.isSome || patch.spreadBps.isSome) = true
  · exact checkPlatformFee_ok h hmoves
  · simp only [Bool.or_eq_true, Option.isSome_iff_ne_none, ne_eq, not_or, not_not] at hmoves
    obtain ⟨hfee, hspread⟩ := hmoves
    rw [hfee, hspread]
    exact hsound.provider

theorem onto_allowed (hvalid : patch.validate = true) :
    (windowsOf (patch.onto current now)).allowed = true := by
  have hold := hsound.allowed
  simp only [UpdateConfigDto.validate, Bool.and_eq_true] at hvalid
  obtain ⟨⟨⟨-, hpay⟩, hconfirm⟩, hdispute⟩ := hvalid
  simp only [windowsOf, Windows.allowed, UpdateConfigDto.onto, Bool.and_eq_true] at hold ⊢
  obtain ⟨⟨hpay₀, hconfirm₀⟩, hdispute₀⟩ := hold
  refine ⟨⟨?_, ?_⟩, ?_⟩
  · cases hp : patch.payWindowSecs with
    | none => exact hpay₀
    | some secs =>
      rw [hp] at hpay
      exact hpay
  · cases hc : patch.confirmWindowSecs with
    | none => exact hconfirm₀
    | some secs =>
      rw [hc] at hconfirm
      exact hconfirm
  · cases hd : patch.disputeWindowSecs with
    | none => exact hdispute₀
    | some secs =>
      rw [hd] at hdispute
      exact hdispute

theorem onto_windows (hcovers : Covers cooldownSecs patch cooldown)
    (h : checkWindows patch cooldown current = .ok ()) :
    windowsFitTheContract (windowsOf (patch.onto current now)) (some cooldownSecs) = none := by
  obtain ⟨hlow, hhigh, htotal, hfloor⟩ := windowsFit_none.mp (throwProblem_ok.mp h)
  refine windowsFit_none.mpr ⟨hlow, hhigh, htotal, fun secs hsecs => ?_⟩
  obtain rfl := Option.some.inj hsecs
  by_cases hmoves : (patch.payWindowSecs.isSome || patch.confirmWindowSecs.isSome) = true
  · obtain ⟨read, hle, hread⟩ := hcovers hmoves
    exact (hfloor read hread).trans hle
  · simp only [Bool.or_eq_true, Option.isSome_iff_ne_none, ne_eq, not_or, not_not] at hmoves
    obtain ⟨-, -, -, hfloor₀⟩ := windowsFit_none.mp hsound.windows
    simp only [windowsOf, UpdateConfigDto.onto, hmoves.1, hmoves.2, Option.getD_none]
    exact hfloor₀ _ rfl

/-- A patch that passes the form and the checks leaves a sound row, if the row
that it is written onto is the one that was checked. -/
theorem checkPatch_sound (hvalid : patch.validate = true) (hcovers : Covers cooldownSecs patch cooldown)
    (h : checkPatch usdcText dev patch fee cooldown current = .ok ()) :
    Sound dev cooldownSecs (patch.onto current now) := by
  rw [checkPatch_eq] at h
  simp only [then_ok] at h
  obtain ⟨htotal, hwindows, hspread, hfee, -, hbounds⟩ := h
  exact {
    wallet := by
      simp only [UpdateConfigDto.onto, Option.isSome_or, hsound.wallet, Bool.or_true]
    fees := not_le.mp (throwIf_ok.mp htotal)
    allowed := onto_allowed hsound now hvalid
    windows := onto_windows hsound now hcovers hwindows
    spread := onto_spread hsound hspread
    provider := onto_provider hsound hfee
    bounds := (checkBounds_ok hbounds).1
    limits := onto_limits hsound hbounds }

end Sound

end Patch

structure Setting where
  printed : Address → String
  usdcText : ℤ → String
  priceDeviationMaxBps : ℕ
  self : Address
  cooldownSecs : ℤ

variable {y : Setting} {pid : Pid} {α : Type} {s t u : Shared}

/-- No update commits in the millisecond of the one before it, and no reading of
the cooldown is above the one that the stakes have. -/
def apart (cooldownSecs : ℤ) (_ : Pid) (e : Effect) (o : Choice) (s : Shared) : Prop :=
  match e with
  | .update updatedAt _ => o.fails = false → s.row.updatedAt = updatedAt → s.row.updatedAt < s.now
  | .stakingCooldownSecs => o.fails = false → o.cooldownSecs ≤ cooldownSecs
  | _ => True

instance (cooldownSecs : ℤ) (pid : Pid) (o : Choice) (s : Shared) :
    (e : Effect) → Decidable (apart cooldownSecs pid e o s)
  | .update updatedAt _ =>
    inferInstanceAs (Decidable (o.fails = false → s.row.updatedAt = updatedAt → s.row.updatedAt < s.now))
  | .stakingCooldownSecs => inferInstanceAs (Decidable (o.fails = false → o.cooldownSecs ≤ cooldownSecs))
  | .readEscrowPlatformDefaults | .findCurrent | .invalidateAllConfigCaches | .throw _ => .isTrue trivial

def timely (y : Setting) : System UpdateConfigDto Choice Move Effect Reply Shared :=
  (office y.printed y.usdcText y.priceDeviationMaxBps y.self).restrict (apart y.cooldownSecs)
    fun _ _ => True

def Later (s t : Shared) : Prop := t.row = s.row ∨ s.row.updatedAt < t.row.updatedAt

theorem Later.of_same (h : t.row = s.row) : Later s t := .inl h

theorem Later.trans (h : Later s t) (h' : Later t u) : Later s u := by
  unfold Later at *
  obtain hst | hst := h <;> obtain htu | htu := h'
  · exact .inl (htu.trans hst)
  · exact .inr (by rwa [← hst])
  · exact .inr (by rwa [htu])
  · exact .inr (hst.trans htu)

theorem Later.same (h : Later s t) (hstamp : t.row.updatedAt = s.row.updatedAt) : t.row = s.row :=
  h.resolve_right fun hlt => by omega

def rowProtocol (y : Setting) : Protocol (timely y) where
  rely _ := Later
  guar _ := Later
  inv s := Sound y.priceDeviationMaxBps y.cooldownSecs s.row
  refl _ _ := .of_same rfl
  trans _ := Later.trans
  shares _ _ _ _ _ _ h := h
  dies _ _ h := ⟨h, fun _ _ => .of_same rfl⟩
  moved _ a h _ := by
    cases a with
    | ledger | clock => exact ⟨h, fun _ => .of_same rfl⟩

/-- Everything but the update leaves the row as it is. -/
def Reads (e : Effect) : Prop := ∀ updatedAt patch, e ≠ .update updatedAt patch

theorem effect_row {e : Effect} (he : Reads e) (pid : Pid) (o : Choice) (s : Shared) :
    (effect pid e o s).1.row = s.row := by
  cases e with
  | readEscrowPlatformDefaults | stakingCooldownSecs | findCurrent | invalidateAllConfigCaches | throw =>
    rfl
  | update updatedAt patch => exact absurd rfl (he updatedAt patch)

theorem safe_reading {Q : α → Shared → Prop} {e : Effect} {k : Reply e → Service α} (he : Reads e)
    (hk : ∀ t o, Later s t → Sound y.priceDeviationMaxBps y.cooldownSecs t.row →
      apart y.cooldownSecs pid e o t →
      Safe ((rowProtocol y).of pid) Q (k (effect pid e o t).2) (effect pid e o t).1) :
    Safe ((rowProtocol y).of pid) Q (.step e k) s := by
  apply safe_step
  intro t o hst ht hp
  have hrow := effect_row he pid o t
  refine ⟨.of_same hrow, ?_, hk t o hst ht hp.2⟩
  change Sound _ _ (effect pid e o t).1.row
  rw [hrow]
  exact ht

theorem reads_safe {p : Service α} (h : Every Reads p) (s : Shared) :
    Safe ((rowProtocol y).of pid) (fun _ _ => True) p s := by
  induction p generalizing s with
  | pure a => exact fun _ _ _ => trivial
  | fail => trivial
  | step e k ih => exact safe_reading h.1 fun t o _ _ _ => ih _ (h.2 _) _

theorem raise_reads (message : String) : Every Reads (raise message : Service α) :=
  ⟨fun _ _ h => (by cases h), fun _ => trivial⟩

theorem orThrow_reads : (r : Except String Unit) → Every Reads (orThrow r)
  | .ok () => trivial
  | .error message => raise_reads message

theorem readChainPlatformFee_reads (printed : Address → String) (patch : UpdateConfigDto) :
    Every Reads (readChainPlatformFee printed patch) := by
  rw [readChainPlatformFee]
  by_cases hchecks : (patch.platformWallet.isSome || patch.platformFeeBps.isSome) = true
  · rw [if_pos hchecks]
    refine ⟨fun _ _ h => (by cases h), fun reply => ?_⟩
    cases reply with
    | error reason => exact raise_reads _
    | ok read => exact (orThrow_reads _).bind fun _ => trivial
  · rw [if_neg hchecks]
    trivial

theorem readCooldown_safe (patch : UpdateConfigDto) (s : Shared) :
    Safe ((rowProtocol y).of pid) (fun cooldown _ => Covers y.cooldownSecs patch cooldown)
      (readCooldown patch) s := by
  rw [readCooldown]
  by_cases hmoves : (patch.payWindowSecs.isSome || patch.confirmWindowSecs.isSome) = true
  · rw [if_pos hmoves]
    refine safe_reading (fun _ _ h => by cases h) fun t o _ _ hread => ?_
    simp only [effect]
    cases hf : o.fails with
    | true => exact safe_reading (fun _ _ h => by cases h) fun _ _ _ _ _ => trivial
    | false => exact fun _ _ _ _ => ⟨o.cooldownSecs, hread hf, rfl⟩
  · rw [if_neg hmoves]
    exact fun _ _ _ h => absurd h hmoves

/-- The update writes onto the row that was checked or onto none. -/
theorem update_safe {patch : UpdateConfigDto} {k : Option (Option Config) → Service Unit}
    (hnext : ∀ now, Sound y.priceDeviationMaxBps y.cooldownSecs (patch.onto s.row now))
    (hk : ∀ r, Every Reads (k r)) :
    Safe ((rowProtocol y).of pid) (fun _ _ => True) (.step (.update s.row.updatedAt patch) k) s := by
  apply safe_step
  intro t o hst ht hp
  have hrest : Safe ((rowProtocol y).of pid) (fun _ _ => True)
      (k (effect pid (.update s.row.updatedAt patch) o t).2)
      (effect pid (.update s.row.updatedAt patch) o t).1 := reads_safe (hk _) _
  suffices h : Later t (effect pid (.update s.row.updatedAt patch) o t).1 ∧
      Sound y.priceDeviationMaxBps y.cooldownSecs (effect pid (.update s.row.updatedAt patch) o t).1.row from
    ⟨h.1, h.2, hrest⟩
  simp only [effect]
  cases hf : o.fails with
  | true => exact ⟨.of_same rfl, ht⟩
  | false =>
    simp only [Bool.false_eq_true, if_false, runUpdate]
    by_cases hstamp : t.row.updatedAt = s.row.updatedAt
    · rw [if_pos hstamp]
      refine ⟨.inr (hp.2 hf hstamp), ?_⟩
      rw [hst.same hstamp]
      exact hnext t.now
    · rw [if_neg hstamp]
      exact ⟨.of_same rfl, ht⟩

theorem updateConfig_safe {patch : UpdateConfigDto} (hvalid : patch.validate = true)
    (hs : Sound y.priceDeviationMaxBps y.cooldownSecs s.row) :
    Safe ((rowProtocol y).of pid) (fun _ _ => True)
      (updateConfigTransactional y.printed y.usdcText y.priceDeviationMaxBps patch) s := by
  have hsame (t : Shared) : Later t t := .of_same rfl
  rw [updateConfigTransactional]
  refine (reads_safe (readChainPlatformFee_reads _ _) s).bind hsame hs fun fee t ht _ => ?_
  refine (readCooldown_safe patch t).bind hsame ht fun cooldown u hu hcovers => ?_
  refine safe_reading (fun _ _ h => by cases h) fun v o _ hv _ => ?_
  cases hf : o.fails with
  | true =>
    simp only [effect, hf, if_true]
    trivial
  | false =>
    simp only [effect, hf, Bool.false_eq_true, if_false]
    change Safe _ _ (orThrow (checkPatch y.usdcText y.priceDeviationMaxBps patch fee cooldown v.row) >>= _) v
    cases hcheck : checkPatch y.usdcText y.priceDeviationMaxBps patch fee cooldown v.row with
    | error message => exact safe_reading (fun _ _ h => by cases h) fun _ _ _ _ _ => trivial
    | ok =>
      apply update_safe fun now => checkPatch_sound hv now hvalid hcovers hcheck
      rintro (_ | _ | row)
      · trivial
      · exact raise_reads _
      · exact ⟨fun _ _ h => (by cases h), fun _ => trivial⟩

/-- Whatever the administrators save at once, a sound row stays sound, and the
server starts with it again. -/
theorem stored_config_sound {s : Shared} {w : Pool Effect Reply Shared}
    {tr : List (Entry (Pool Effect Reply Shared) (Act UpdateConfigDto Choice Move) (Option (Pid × Effect)))}
    (hs : Sound y.priceDeviationMaxBps y.cooldownSecs s.row)
    (hr : Run (machine (office y.printed y.usdcText y.priceDeviationMaxBps y.self)) (idle s) tr w)
    (hapart : ∀ e ∈ tr, Heeds (apart y.cooldownSecs) (fun _ _ => True) e.pre e.act) :
    Sound y.priceDeviationMaxBps y.cooldownSecs w.shared.row ∧
      checkRow y.priceDeviationMaxBps w.shared.row = .ok () := by
  have hsound : Sound y.priceDeviationMaxBps y.cooldownSecs w.shared.row :=
    (run_orderly_of_heeds (d := rowProtocol y)
      (fun _ _ _ ht hvalid => updateConfig_safe hvalid ht) hr hs hapart).1
  exact ⟨hsound, hsound.checkRow⟩

def sampleSetting : Setting := ⟨fun address => toString address.key, toString, 100, ⟨0⟩, 349201⟩

/-- Two administrators who both read before either of them writes. -/
def sampleActions : List (Act UpdateConfigDto Choice Move) :=
  [.spawn 0 { spreadBps := some 131 }, .spawn 1 { lpFeeBps := some 500 }, .outside (.clock 2000),
    .go 0 {}, .go 1 {}, .go 0 {}, .go 1 {}, .go 1 {}]

def sampleEnd : Pool Effect Reply Shared := final (machine sampleOffice) sampleOpening sampleActions

theorem stored_config_sound_sample :
    Sound 100 349201 sampleEnd.shared.row ∧ checkRow 100 sampleEnd.shared.row = .ok () ∧
      sampleEnd.shared.row.spreadBps = 131 ∧ sampleEnd.shared.row.lpFeeBps = 120 := by
  have hrun : Run (machine sampleOffice) sampleOpening
      (history (machine sampleOffice) sampleOpening sampleActions) sampleEnd :=
    Run.of_actions _ _ ⟨⟨rfl, rfl⟩, ⟨rfl, rfl⟩, (by decide : 1000 ≤ 2000), trivial, trivial, trivial,
      trivial, trivial, trivial⟩
  have hapart : ∀ e ∈ history (machine sampleOffice) sampleOpening sampleActions,
      Heeds (apart 349201) (fun _ _ => True) e.pre e.act := by
    apply history_meets
    exact ⟨trivial, trivial, trivial, trivial, trivial, fun _ _ => (by decide : 1000 < 2000),
      fun _ h => (by cases h), trivial, trivial⟩
  obtain ⟨hsound, hstarts⟩ := stored_config_sound (y := sampleSetting)
    (default_sound ⟨4⟩ 1000 (by decide) (by decide)) hrun hapart
  exact ⟨hsound, hstarts, rfl, rfl⟩

end Lolipay.Coordinator.ConfigSound
