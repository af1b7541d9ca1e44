import Mathlib.Algebra.Order.Field.Rat
import Lolipay.Async.Scheduling

namespace Lolipay.Coordinator.Prices

open Lolipay.Ledger.Runs Lolipay.Async.Process Lolipay.Async.Scheduling

abbrev FetchId := ℕ

structure Market where
  manualRateOverride : Option ℚ
  priceMinPerUsdc : ℚ
  priceMaxPerUsdc : ℚ
  deriving DecidableEq, Repr

/-- The row of the price cache; times are in milliseconds. -/
structure FiatPrice where
  pricePerUsdc : ℚ
  fetchedAt : ℕ
  deriving DecidableEq, Repr

/-- The settings `priceDeviationMaxBps` and `priceStaleSecs`. -/
structure PriceSettings where
  deviationMaxBps : ℚ
  staleSecs : ℕ

inductive Effect where
  | getEnabled
  | findCache
  | clock
  /-- `refreshPrice`: the fetch under way, or a new one. -/
  | refreshPrice
  | awaitFetch (fetch : FetchId)
  /-- The anomaly check with what it does to the pending price. -/
  | judge (prev : Option ℚ) (price : ℚ) (fetch : FetchId)
  | upsert (prev : Option ℚ) (price : ℚ) (fetch : FetchId)
  | answer (price : ℚ) (fetch : FetchId)

/-- An outer `none` is a call that threw. -/
@[reducible] def Reply : Effect → Type
  | .getEnabled => Option Market
  | .findCache => Option FiatPrice
  | .clock => ℕ
  | .refreshPrice => FetchId
  | .awaitFetch _ => Option ℚ
  | .judge _ _ _ => Bool
  | .upsert _ _ _ => Option Unit
  | .answer _ _ => Unit

abbrev Service (α : Type) := Program Effect Reply α

def withinBounds (v : ℚ) (market : Market) : Bool :=
  0 < v && market.priceMinPerUsdc ≤ v && v ≤ market.priceMaxPerUsdc

def assertPlausible (v : ℚ) (market : Market) : Service Unit :=
  if withinBounds v market then .pure () else .fail

def cacheFresh (y : PriceSettings) (cache : FiatPrice) (now : ℕ) : Bool :=
  (now : ℤ) - cache.fetchedAt < y.staleSecs * 1000

/-- The part of `getReferencePrice` behind a stale or missing cache row. -/
def fetchPrice (market : Market) (prev : Option ℚ) : Service ℚ := do
  let fetch : ℕ ← issue Effect.refreshPrice
  let price ← (attempt (.awaitFetch fetch) fun r => r : Service ℚ)
  assertPlausible price market
  let accepted : Bool ← issue (Effect.judge prev price fetch)
  if accepted then do
    let _ ← (attempt (.upsert prev price fetch) fun r => r : Service Unit)
    let _ ← issue (Effect.answer price fetch)
    .pure price
  else .fail

def readOrFetch (y : PriceSettings) (market : Market) : Service ℚ := do
  let cache : Option FiatPrice ← issue Effect.findCache
  let now : ℕ ← issue Effect.clock
  match cache with
  | some cache =>
    if cacheFresh y cache now then do
      assertPlausible cache.pricePerUsdc market
      .pure cache.pricePerUsdc
    else fetchPrice market (some cache.pricePerUsdc)
  | none => fetchPrice market none

def getReferencePrice (y : PriceSettings) : Service ℚ := do
  let market ← (attempt .getEnabled fun r => r : Service Market)
  match market.manualRateOverride with
  | some price => do
    assertPlausible price market
    .pure price
  | none => readOrFetch y market

def deviatesTooFar (y : PriceSettings) (prev next : ℚ) : Bool :=
  y.deviationMaxBps < |next - prev| / prev * 10000

/-- A price that came from a fetch, beside the cached price that it replaced. -/
structure Quoted where
  before : Option ℚ
  price : ℚ
  fetch : FetchId
  deriving DecidableEq, Repr

/-- The service for one fiat currency. `results` are the prices that the
adapter has returned; `written` and `answered` are no data of the service, and
neither is the fetch beside the pending price. -/
structure Shared where
  cache : Option FiatPrice
  now : ℕ
  inflight : Option FetchId
  started : ℕ
  results : FetchId → Option ℚ
  pendingPrice : Option (ℚ × FetchId)
  written : List Quoted
  answered : List (ℚ × FetchId)

structure Choice where
  fails : Bool := false
  market : Market := ⟨none, 0, 0⟩

def confirmsPendingPrice (y : PriceSettings) (s : Shared) (next : ℚ) : Bool :=
  s.pendingPrice.any fun pending => !deviatesTooFar y pending.1 next

def anomalous (y : PriceSettings) (prev : Option ℚ) (price : ℚ) : Bool :=
  prev.any fun prev => deviatesTooFar y prev price

def judge (y : PriceSettings) (prev : Option ℚ) (price : ℚ) (fetch : FetchId) (s : Shared) :
    Shared × Bool :=
  if anomalous y prev price ∧ confirmsPendingPrice y s price = false then
    ({ s with pendingPrice := some (price, fetch) }, false)
  else ({ s with pendingPrice := none }, true)

def effect (y : PriceSettings) (_ : Pid) (e : Effect) (o : Choice) (s : Shared) :
    Shared × Reply e :=
  match e with
  | .getEnabled => (s, if o.fails then none else some o.market)
  | .findCache => (s, s.cache)
  | .clock => (s, s.now)
  | .refreshPrice =>
    match s.inflight with
    | some fetch => (s, fetch)
    | none => ({ s with inflight := some s.started, started := s.started + 1 }, s.started)
  | .awaitFetch fetch => (s, if o.fails then none else s.results fetch)
  | .judge prev price fetch => judge y prev price fetch s
  | .upsert _ price fetch =>
    if o.fails then (s, none)
    else
      ({ s with
          cache := some ⟨price, s.now⟩
          written := ⟨s.cache.map (·.pricePerUsdc), price, fetch⟩ :: s.written }, some ())
  | .answer price fetch => ({ s with answered := (price, fetch) :: s.answered }, ())

inductive Move where
  | tick (time : ℕ)
  /-- The adapter answers the fetch under way, or it fails. -/
  | settle (price : Option ℚ)

def moved (s : Shared) : Move → Shared
  | .tick time => { s with now := time }
  | .settle price =>
    match s.inflight with
    | none => s
    | some fetch =>
      { s with
        inflight := none
        results := fun f => if f = fetch then price else s.results f }

/-- Any number of callers for one fiat currency. A caller resumes when its
fetch is over. -/
def rates (y : PriceSettings) : System Unit Choice Move Effect Reply Shared where
  body _ := do
    let _ ← getReferencePrice y
    .pure ()
  delivers _ _ := True
  permits _ e _ s :=
    match e with
    | .awaitFetch fetch => s.inflight ≠ some fetch
    | _ => True
  effect := effect y
  dies _ s := s
  moves s
    | .tick time => s.now ≤ time
    | .settle _ => s.inflight.isSome
  moved := moved

abbrev Office := Pool Effect Reply Shared

instance (y : PriceSettings) (s : Shared) (call : Unit) : Decidable ((rates y).delivers s call) :=
  .isTrue trivial

instance (y : PriceSettings) (pid : Pid) (o : Choice) (s : Shared) :
    (e : Effect) → Decidable ((rates y).permits pid e o s)
  | .awaitFetch fetch => inferInstanceAs (Decidable (s.inflight ≠ some fetch))
  | .getEnabled | .findCache | .clock | .refreshPrice | .judge _ _ _ | .upsert _ _ _
  | .answer _ _ => .isTrue trivial

instance (y : PriceSettings) (s : Shared) : (a : Move) → Decidable ((rates y).moves s a)
  | .tick time => inferInstanceAs (Decidable (s.now ≤ time))
  | .settle _ => inferInstanceAs (Decidable (s.inflight.isSome = true))

variable {y : PriceSettings} {s t : Shared} {pid : Pid} {prev : Option ℚ} {price : ℚ}
  {fetch : FetchId}

/-- Two fetches agree on the price: the one it came from and another. -/
def Backed (y : PriceSettings) (s : Shared) (price : ℚ) (fetch : FetchId) : Prop :=
  s.results fetch = some price ∧
    ∃ other p, other ≠ fetch ∧ s.results other = some p ∧ deviatesTooFar y p price = false

/-- A step is unshared if it meets neither a pending price that a caller of the
same fetch has left behind, nor, since the check of its price, a new cache row
from which that price is too far. -/
def Unshared (y : PriceSettings) (o : Choice) (s : Shared) : Effect → Prop
  | .judge prev price fetch =>
    anomalous y prev price = true → ∀ pending ∈ s.pendingPrice, pending.2 ≠ fetch
  | .upsert prev price _ =>
    o.fails = true ∨
      (anomalous y (s.cache.map (·.pricePerUsdc)) price = true → anomalous y prev price = true)
  | _ => True

instance (o : Choice) (s : Shared) : (e : Effect) → Decidable (Unshared y o s e)
  | .judge _ _ _ => inferInstanceAs (Decidable (_ → ∀ pending ∈ _, _ ≠ _))
  | .upsert _ _ _ => inferInstanceAs (Decidable (_ ∨ (_ → _ = true)))
  | .getEnabled | .findCache | .clock | .refreshPrice | .awaitFetch _ | .answer _ _ =>
    .isTrue trivial

def StepsUnshared (y : PriceSettings) : Office → Act Unit Choice Move → Prop :=
  Heeds (fun _ e o s => Unshared y o s e) fun _ _ => True

instance (w : Office) (a : Act Unit Choice Move) : Decidable (StepsUnshared y w a) :=
  inferInstanceAs (Decidable (Heeds _ _ w a))

structure Sound (y : PriceSettings) (s : Shared) : Prop where
  unstarted : ∀ f, s.started ≤ f → s.results f = none
  started_of : ∀ f, s.inflight = some f → s.results f = none ∧ f < s.started
  pending : ∀ p f, s.pendingPrice = some (p, f) → s.results f = some p
  written : ∀ x ∈ s.written, anomalous y x.before x.price = true → Backed y s x.price x.fetch
  answered : ∀ a ∈ s.answered, ∃ x ∈ s.written, x.price = a.1 ∧ x.fetch = a.2

/-- Results are there to stay, and so is the record of the writes. -/
structure Extends (s t : Shared) : Prop where
  results : ∀ f p, s.results f = some p → t.results f = some p
  written : s.written ⊆ t.written

theorem Extends.of_same (hr : t.results = s.results) (hw : t.written = s.written) : Extends s t :=
  ⟨fun _ _ h => hr ▸ h, hw ▸ List.Subset.refl _⟩

theorem Extends.trans {u : Shared} (h : Extends s t) (h' : Extends t u) : Extends s u :=
  ⟨fun f p hf => h'.results f p (h.results f p hf), List.Subset.trans h.written h'.written⟩

theorem Backed.extend (h : Backed y s price fetch) (hst : Extends s t) : Backed y t price fetch := by
  obtain ⟨hown, other, p, hne, hother, hband⟩ := h
  exact ⟨hst.results _ _ hown, other, p, hne, hst.results _ _ hother, hband⟩

theorem Sound.settle (h : Sound y s) (answer : Option ℚ) :
    Sound y (moved s (.settle answer)) ∧ Extends s (moved s (.settle answer)) := by
  cases hin : s.inflight with
  | none =>
    simp only [moved, hin]
    exact ⟨h, .of_same rfl rfl⟩
  | some fetch =>
    obtain ⟨hnone, hlt⟩ := h.started_of fetch hin
    have hext : Extends s (moved s (.settle answer)) := by
      refine ⟨fun f p hf => ?_, ?_⟩
      · have hne : f ≠ fetch := by
          rintro rfl
          rw [hnone] at hf
          cases hf
        simp only [moved, hin, hne, if_false]
        exact hf
      · simp only [moved, hin]
        exact List.Subset.refl _
    refine ⟨⟨fun f hf => ?_, fun f hf => ?_, fun p f hp => ?_, fun x hx ha => ?_, fun a ha => ?_⟩,
      hext⟩
    · simp only [moved, hin] at hf ⊢
      have hne : f ≠ fetch := by
        rintro rfl
        exact absurd hlt (not_lt.mpr hf)
      simp only [hne, if_false]
      exact h.unstarted f hf
    · simp only [moved, hin] at hf
      cases hf
    · simp only [moved, hin] at hp
      exact hext.results f p (h.pending p f hp)
    · simp only [moved, hin] at hx
      exact (h.written x hx ha).extend hext
    · simp only [moved, hin] at ha ⊢
      exact h.answered a ha

/-- The callers that do not share what they should not. -/
def apart (y : PriceSettings) : System Unit Choice Move Effect Reply Shared :=
  (rates y).restrict (fun _ e o s => Unshared y o s e) fun _ _ => True

def agreeProtocol (y : PriceSettings) : Protocol (apart y) where
  rely _ := Extends
  guar _ := Extends
  inv := Sound y
  refl _ _ := .of_same rfl rfl
  trans _ _ _ _ h h' := h.trans h'
  shares _ _ _ _ _ _ h := h
  dies _ _ hs := ⟨hs, fun _ _ => .of_same rfl rfl⟩
  moved s a hs _ := by
    cases a with
    | tick time =>
      exact ⟨⟨hs.unstarted, hs.started_of, hs.pending, hs.written, hs.answered⟩,
        fun _ => .of_same rfl rfl⟩
    | settle answer => exact ⟨(hs.settle answer).1, fun _ => (hs.settle answer).2⟩

variable {α : Type} {Q : α → Shared → Prop}

theorem safe_reading {e : Effect} {k : Reply e → Service α}
    (hq : ∀ o t, (effect y pid e o t).1 = t)
    (hk : ∀ o t, Extends s t → Sound y t → Safe ((agreeProtocol y).of pid) Q
      (k (effect y pid e o t).2) t) :
    Safe ((agreeProtocol y).of pid) Q (.step e k) s :=
  safe_quiet (agreeProtocol y) (fun _ => .of_same rfl rfl) hq fun t o hst ht => hk o t hst ht

def Passed (y : PriceSettings) (s : Shared) (prev : Option ℚ) (price : ℚ) (fetch : FetchId) :
    Prop :=
  anomalous y prev price = true → Backed y s price fetch

theorem upsert_safe (hpass : Passed y s prev price fetch) :
    Safe ((agreeProtocol y).of pid) (fun _ _ => True)
      (attempt (.upsert prev price fetch) (fun r => r) >>= fun _ : Unit =>
        issue (Effect.answer price fetch) >>= fun _ => .pure price) s := by
  apply safe_step
  intro t o hst ht hp
  cases hf : o.fails with
  | true =>
    simp only [apart, System.restrict, rates, effect, hf]
    exact ⟨.of_same rfl rfl, ht, trivial⟩
  | false =>
    simp only [apart, System.restrict, rates, effect, hf]
    have hjudged := hp.2.resolve_left (by simp [hf])
    refine ⟨⟨fun _ _ h => h, List.subset_cons_self _ _⟩,
      ⟨ht.unstarted, ht.started_of, ht.pending, fun x hx ha => ?_, fun a ha => ?_⟩, ?_⟩
    · obtain rfl | hx := List.mem_cons.mp hx
      · have hbacked : Backed y t price fetch := (hpass (hjudged ha)).extend hst
        exact hbacked
      · exact ht.written x hx ha
    · obtain ⟨x, hx, hx'⟩ := ht.answered a ha
      exact ⟨x, List.mem_cons_of_mem _ hx, hx'⟩
    · apply safe_step
      intro u o' hsu hu _
      refine ⟨.of_same rfl rfl,
        ⟨hu.unstarted, hu.started_of, hu.pending, hu.written, fun a ha => ?_⟩, fun _ _ _ => trivial⟩
      obtain rfl | ha := List.mem_cons.mp ha
      · exact ⟨_, hsu.written List.mem_cons_self, rfl, rfl⟩
      · exact hu.answered a ha

theorem judge_safe {k : Bool → Service α} (hres : s.results fetch = some price)
    (hno : ∀ t, Safe ((agreeProtocol y).of pid) Q (k false) t)
    (hyes : ∀ t, Passed y t prev price fetch → Safe ((agreeProtocol y).of pid) Q (k true) t) :
    Safe ((agreeProtocol y).of pid) Q (issue (Effect.judge prev price fetch) >>= k) s := by
  apply safe_step
  intro t o hst ht hp
  have hres' : t.results fetch = some price := hst.results _ _ hres
  by_cases hrefuse : anomalous y prev price ∧ confirmsPendingPrice y t price = false
  · simp only [apart, System.restrict, rates, effect, judge, hrefuse, and_self, if_true]
    refine ⟨.of_same rfl rfl, ⟨ht.unstarted, ht.started_of, fun p f hpf => ?_, ht.written,
      ht.answered⟩, hno _⟩
    obtain ⟨rfl, rfl⟩ := Prod.mk.inj (Option.some.inj hpf)
    exact hres'
  · simp only [apart, System.restrict, rates, effect, judge, hrefuse, if_false]
    refine ⟨.of_same rfl rfl, ⟨ht.unstarted, ht.started_of, fun p f hpf => (by cases hpf),
      ht.written, ht.answered⟩, hyes _ fun hanom => ?_⟩
    -- An anomalous price passes only on the word of a pending one.
    have hconf : confirmsPendingPrice y t price = true := by
      by_contra hc
      exact hrefuse ⟨hanom, by simpa using hc⟩
    obtain ⟨⟨p, f⟩, hpend, hband⟩ := (Option.any_eq_true _ _).mp hconf
    exact ⟨hres', f, p, hp.2 hanom (p, f) hpend, ht.pending p f hpend, by simpa using hband⟩

theorem Sound.start (h : Sound y s) :
    Sound y { s with inflight := some s.started, started := s.started + 1 } := by
  refine ⟨fun f hf => h.unstarted f (Nat.le_of_succ_le hf), fun f hf => ?_, h.pending, h.written,
    h.answered⟩
  obtain rfl := Option.some.inj hf
  exact ⟨h.unstarted _ le_rfl, Nat.lt_succ_self _⟩

theorem fetchPrice_safe (market : Market) (prev : Option ℚ) (s : Shared) :
    Safe ((agreeProtocol y).of pid) (fun _ _ => True) (fetchPrice market prev) s := by
  -- What follows the fetch, whichever it is.
  have hrest (fetch : FetchId) (t : Shared) :
      Safe ((agreeProtocol y).of pid) (fun _ _ => True)
        (attempt (.awaitFetch fetch) (fun r => r) >>= fun price : ℚ =>
          assertPlausible price market >>= fun _ =>
          issue (Effect.judge prev price fetch) >>= fun accepted : Bool =>
          if accepted then
            attempt (.upsert prev price fetch) (fun r => r) >>= fun _ : Unit =>
              issue (Effect.answer price fetch) >>= fun _ => .pure price
          else .fail) t := by
    apply safe_reading (fun _ _ => rfl)
    intro o u htu hu
    cases hf : o.fails with
    | true =>
      simp only [effect, hf]
      trivial
    | false =>
      simp only [effect, hf]
      cases hres : u.results fetch with
      | none => trivial
      | some price =>
        change Safe _ _ (assertPlausible price market >>= _) u
        rw [assertPlausible]
        split
        next => exact judge_safe hres (fun _ => trivial) fun _ hpass => upsert_safe hpass
        next => trivial
  apply safe_step
  intro t o hst ht _
  cases hin : t.inflight with
  | some fetch =>
    simp only [apart, System.restrict, rates, effect, hin]
    exact ⟨.of_same rfl rfl, ht, hrest fetch t⟩
  | none =>
    simp only [apart, System.restrict, rates, effect, hin]
    exact ⟨.of_same rfl rfl, ht.start, hrest t.started _⟩

theorem getReferencePrice_safe (s : Shared) :
    Safe ((agreeProtocol y).of pid) (fun _ _ => True) (getReferencePrice y) s := by
  apply safe_reading (fun _ _ => rfl)
  intro o t hst ht
  cases hf : o.fails with
  | true =>
    simp only [effect, hf]
    trivial
  | false =>
    simp only [effect, hf]
    change Safe _ _ (match o.market.manualRateOverride with
      | some price => assertPlausible price o.market >>= fun _ => .pure price
      | none => readOrFetch y o.market) t
    cases o.market.manualRateOverride with
    | some price =>
      dsimp only
      rw [assertPlausible]
      split
      next =>
        intro _ _ _
        trivial
      next => trivial
    | none =>
      apply safe_reading (fun _ _ => rfl)
      intro o' u _ _
      apply safe_reading (fun _ _ => rfl)
      intro o'' v _ _
      change Safe _ _ (match u.cache with
        | some cache => if cacheFresh y cache v.now then
            assertPlausible cache.pricePerUsdc o.market >>= fun _ => .pure cache.pricePerUsdc
          else fetchPrice o.market (some cache.pricePerUsdc)
        | none => fetchPrice o.market none) v
      cases u.cache with
      | none => exact fetchPrice_safe _ _ _
      | some cache =>
        dsimp only
        split
        next =>
          rw [assertPlausible]
          split
          next =>
            intro _ _ _
            trivial
          next => trivial
        next => exact fetchPrice_safe _ _ _

structure Fresh (s : Shared) : Prop where
  results : ∀ f, s.results f = none
  inflight : s.inflight = none
  pendingPrice : s.pendingPrice = none
  written : s.written = []
  answered : s.answered = []

theorem Fresh.sound (h : Fresh s) : Sound y s where
  unstarted f _ := h.results f
  started_of f hf := by simp [h.inflight] at hf
  pending p f hp := by simp [h.pendingPrice] at hp
  written x hx := by simp [h.written] at hx
  answered a ha := by simp [h.answered] at ha

variable {w : Office} {tr : List (Entry Office (Act Unit Choice Move) (Option (Pid × Effect)))}

/-- With steps that share nothing they should not, a price that replaces a
cached one from which it deviates too far is backed by two fetches, and no
fetched price is returned that was not written. -/
theorem anomalies_need_two_fetches (hs : Fresh s) (hr : Run (machine (rates y)) (idle s) tr w)
    (hsteps : ∀ e ∈ tr, StepsUnshared y e.pre e.act) :
    (∀ x ∈ w.shared.written, anomalous y x.before x.price = true →
      Backed y w.shared x.price x.fetch) ∧
    ∀ a ∈ w.shared.answered, ∃ x ∈ w.shared.written, x.price = a.1 ∧ x.fetch = a.2 := by
  have hbody (pid : Pid) (call : Unit) (s : Shared) (hs : Sound y s)
      (_ : (rates y).delivers s call) :
      Safe ((agreeProtocol y).of pid) (fun _ _ => True) ((rates y).body call) s :=
    (getReferencePrice_safe s).bind ((agreeProtocol y).refl pid) hs
      fun _ _ _ _ => fun _ _ _ => trivial
  have horder : Orderly (agreeProtocol y) w := run_orderly_of_heeds hbody hr hs.sound hsteps
  exact ⟨horder.1.written, horder.1.answered⟩

def sampleSettings : PriceSettings := ⟨150, 60⟩

def sampleMarket : Market := ⟨none, 10000, 20000⟩

def sampleRates : Shared :=
  ⟨some ⟨16000, 0⟩, 100000, none, 0, fun _ => none, none, [], []⟩

theorem sampleRates_fresh : Fresh sampleRates := ⟨fun _ => rfl, rfl, rfl, rfl, rfl⟩

/-- A caller up to the fetch that it waits for. -/
def join (pid : Pid) : List (Act Unit Choice Move) :=
  .spawn pid () :: List.replicate 4 (.go pid ⟨false, sampleMarket⟩)

def refused (pid : Pid) : List (Act Unit Choice Move) :=
  List.replicate 2 (.go pid ⟨false, sampleMarket⟩)

def taken (pid : Pid) : List (Act Unit Choice Move) :=
  List.replicate 4 (.go pid ⟨false, sampleMarket⟩)

def agreeingActions : List (Act Unit Choice Move) :=
  join 0 ++ [.outside (.settle (some 17000))] ++ refused 0 ++
    (join 1 ++ [.outside (.settle (some 17010))] ++ taken 1)

theorem agreeingActions_admitted :
    Admitted (machine (rates sampleSettings)) (idle sampleRates) agreeingActions := by
  decide +kernel

theorem sample_two_fetches : ∃ tr w, Run (machine (rates sampleSettings)) (idle sampleRates) tr w ∧
    (∃ x ∈ w.shared.written, x = ⟨some 16000, 17010, 1⟩ ∧
      anomalous sampleSettings x.before x.price = true ∧
      Backed sampleSettings w.shared x.price x.fetch) ∧
    w.shared.answered = [(17010, 1)] := by
  have hsteps : ∀ e ∈ history (machine (rates sampleSettings)) (idle sampleRates) agreeingActions,
      StepsUnshared sampleSettings e.pre e.act := by
    apply history_meets
    decide +kernel
  have hrun := Run.of_actions _ _ agreeingActions_admitted
  have hwritten : (⟨some 16000, 17010, 1⟩ : Quoted) ∈
      (final (machine (rates sampleSettings)) (idle sampleRates) agreeingActions).shared.written := by
    decide +kernel
  have hfar : anomalous sampleSettings (some 16000) 17010 = true := by decide +kernel
  refine ⟨_, _, hrun, ⟨_, hwritten, rfl, hfar, ?_⟩, by decide +kernel⟩
  exact (anomalies_need_two_fetches sampleRates_fresh hrun hsteps).1 _ hwritten hfar

def sharedActions : List (Act Unit Choice Move) :=
  join 0 ++ join 1 ++ [.outside (.settle (some 17000))] ++ refused 0 ++ taken 1

theorem sharedActions_results (f : FetchId) :
    (final (machine (rates sampleSettings)) (idle sampleRates) sharedActions).shared.results f =
      if f = 0 then some 17000 else none := by
  with_unfolding_all rfl

theorem anomaly_from_one_fetch :
    ∃ tr w, Run (machine (rates sampleSettings)) (idle sampleRates) tr w ∧ w.shared.started = 1 ∧
      (∃ x ∈ w.shared.written, anomalous sampleSettings x.before x.price = true ∧
        ¬Backed sampleSettings w.shared x.price x.fetch) ∧
      w.shared.answered = [(17000, 0)] := by
  have hrun := Run.of_actions (m := machine (rates sampleSettings)) sharedActions (idle sampleRates)
    (by decide +kernel)
  refine ⟨_, _, hrun, by decide +kernel, ⟨⟨some 16000, 17000, 0⟩, by decide +kernel,
    by decide +kernel, ?_⟩, by decide +kernel⟩
  rintro ⟨-, other, p, hne, hother, -⟩
  rw [sharedActions_results, if_neg hne] at hother
  cases hother

end Lolipay.Coordinator.Prices
