import Lolipay.Async.Scheduling
import Lolipay.Coordinator.Database

namespace Lolipay.Coordinator.ConfigCaches

open Lolipay.Ledger.Runs Lolipay.Async.Process Lolipay.Async.Scheduling
open Lolipay.Coordinator.Database

abbrev CacheId := ℕ

/-- The settings row; `version` stands for `updatedAt`, which every update advances. -/
structure Row where
  version : ℕ
  config : PlatformConfig

structure CacheEntry where
  row : Row
  storedAt : ℕ

abbrev Patch := PlatformConfig → Option PlatformConfig

inductive Effect where
  /-- The start of `ConfigCache.read`: the clock and the entry. -/
  | peek (cache : CacheId)
  | upsert
  | store (cache : CacheId) (row : Row) (time : ℕ)
  | yield (row : Row)
  | proceed (row : Row)
  | findCurrent
  | commit (current : Row) (next : PlatformConfig)
  | invalidateAll
  | confirm (row : Row)

/-- An outer `none` is a statement that threw. -/
@[reducible] def Reply : Effect → Type
  | .peek _ => ℕ × Option CacheEntry
  | .upsert | .findCurrent | .commit _ _ => Option Row
  | .store _ _ _ | .yield _ | .proceed _ | .invalidateAll | .confirm _ => Unit

abbrev Service (α : Type) := Program Effect Reply α

def configTtlMs : ℕ := 5000

/-- The database's turn when the entry is missing or too old. -/
def refill (cache : CacheId) (now : ℕ) : Service Row := do
  let row ← (attempt .upsert fun r => r : Service Row)
  let _ ← issue (Effect.store cache row now)
  .pure row

def read (cache : CacheId) : Service Row := do
  let (now, entry) ← issue (Effect.peek cache)
  match entry with
  | some entry => if now - entry.storedAt < configTtlMs then .pure entry.row else refill cache now
  | none => refill cache now

/-- `createQuote` and `createFromQuote` up to their pause check. -/
def serve (cache : CacheId) : Service Unit := do
  let row ← read cache
  let _ ← issue (Effect.yield row)
  if row.config.paused then .fail else issue (Effect.proceed row)

def updateConfigTransactional (patch : Patch) : Service Unit := do
  let current ← (attempt .findCurrent fun r => r : Service Row)
  match patch current.config with
  | none => .fail
  | some next => do
    let committed ← (attempt (.commit current next) fun r => r : Service Row)
    let _ ← issue Effect.invalidateAll
    issue (Effect.confirm committed)

inductive Call where
  | serve (cache : CacheId)
  | updateConfig (patch : Patch)

def body : Call → Service Unit
  | .serve cache => serve cache
  | .updateConfig patch => updateConfigTransactional patch

/-- The row, all rows it ever was and the caches. The rest is no data of the
services: the newest version confirmed to an administrator, the version of the
row and the count when the caches were last cleared, for every read what was
confirmed when it began and the count when it fetched its row, and what the
reads returned and the callers went on with, each beside what was confirmed. -/
structure Shared where
  row : Row
  rows : List Row
  entries : CacheId → Option CacheEntry
  now : ℕ
  answers : List (ℕ × Row)
  proceeded : List (ℕ × Row)
  confirmed : ℕ
  floor : ℕ
  clears : ℕ
  begun : Pid → ℕ
  fetched : Pid → ℕ

def note (f : Pid → ℕ) (pid : Pid) (n : ℕ) : Pid → ℕ := fun q => if q = pid then n else f q

/-- The guarded update: it misses when somebody else has updated the row. -/
def runCommit (current : Row) (next : PlatformConfig) (s : Shared) : Shared × Option Row :=
  if s.row.version = current.version then
    let row : Row := ⟨s.row.version + 1, next⟩
    ({ s with row, rows := row :: s.rows }, some row)
  else (s, none)

structure Choice where
  fails : Bool := false

def effect (pid : Pid) (e : Effect) (o : Choice) (s : Shared) : Shared × Reply e :=
  match e with
  | .peek cache => ({ s with begun := note s.begun pid s.confirmed }, (s.now, s.entries cache))
  | .upsert =>
    if o.fails then (s, none) else ({ s with fetched := note s.fetched pid s.clears }, some s.row)
  | .store cache row time =>
    ({ s with entries := fun c => if c = cache then some ⟨row, time⟩ else s.entries c }, ())
  | .yield row => ({ s with answers := (s.begun pid, row) :: s.answers }, ())
  | .proceed row => ({ s with proceeded := (s.begun pid, row) :: s.proceeded }, ())
  | .findCurrent => (s, if o.fails then none else some s.row)
  | .commit current next => if o.fails then (s, none) else runCommit current next s
  | .invalidateAll =>
    ({ s with entries := fun _ => none, floor := s.row.version, clears := s.clears + 1 }, ())
  | .confirm row => ({ s with confirmed := max s.confirmed row.version }, ())

/-- The services that read the settings and the administrators who change
them; the only thing around them is the clock. -/
def office : System Call Choice ℕ Effect Reply Shared where
  body := body
  delivers _ _ := True
  permits _ _ _ _ := True
  effect := effect
  dies _ s := s
  moves s time := s.now ≤ time
  moved s time := { s with now := time }

abbrev Office := Pool Effect Reply Shared

/-- A store is in time if the caches were not cleared since its row was fetched. -/
def InTime (pid : Pid) (s : Shared) : Effect → Prop
  | .store _ _ _ => s.fetched pid = s.clears
  | _ => True

def StoresInTime : Office → Act Call Choice ℕ → Prop :=
  Heeds (fun pid e _ s => InTime pid s e) fun _ _ => True

def punctual : System Call Choice ℕ Effect Reply Shared :=
  office.restrict (fun pid e _ s => InTime pid s e) fun _ _ => True

/-- A read that began when `b` was confirmed may return the row. -/
def Recent (s : Shared) (b : ℕ) (row : Row) : Prop := b ≤ row.version ∧ row ∈ s.rows

structure Coherent (s : Shared) : Prop where
  current : s.row ∈ s.rows
  floor_le : s.floor ≤ s.row.version
  confirmed_le : s.confirmed ≤ s.floor
  stored : ∀ c e, s.entries c = some e → Recent s s.floor e.row
  answered : ∀ a ∈ s.answers, Recent s a.1 a.2
  proceeded : ∀ a ∈ s.proceeded, Recent s a.1 a.2 ∧ a.2.config.paused = false

/-- What time brings: newer rows, newer clearings. -/
structure Advances (s t : Shared) : Prop where
  rows : s.rows ⊆ t.rows
  version : s.row.version ≤ t.row.version
  floor : s.floor ≤ t.floor
  confirmed : s.confirmed ≤ t.confirmed
  clears : s.clears ≤ t.clears
  same : t.clears = s.clears → t.floor = s.floor

theorem Advances.of_same {s t : Shared} (hrows : t.rows = s.rows) (hrow : t.row = s.row)
    (hfloor : t.floor = s.floor) (hconfirmed : t.confirmed = s.confirmed)
    (hclears : t.clears = s.clears) : Advances s t where
  rows := hrows ▸ List.Subset.refl _
  version := by rw [hrow]
  floor := hfloor.ge
  confirmed := hconfirmed.ge
  clears := hclears.ge
  same _ := hfloor

theorem Advances.refl (s : Shared) : Advances s s := .of_same rfl rfl rfl rfl rfl

theorem Advances.trans {s t u : Shared} (h : Advances s t) (h' : Advances t u) : Advances s u where
  rows := List.Subset.trans h.rows h'.rows
  version := h.version.trans h'.version
  floor := h.floor.trans h'.floor
  confirmed := h.confirmed.trans h'.confirmed
  clears := h.clears.trans h'.clears
  same heq := by
    have ht : t.clears = s.clears := by
      have h₁ := h.clears
      have h₂ := h'.clears
      omega
    rw [h'.same (heq.trans ht.symm), h.same ht]

def OwnNotes (pid : Pid) (s t : Shared) : Prop :=
  t.begun pid = s.begun pid ∧ t.fetched pid = s.fetched pid

def freshProtocol : Protocol punctual where
  rely pid s t := Advances s t ∧ OwnNotes pid s t
  guar pid s t := Advances s t ∧ ∀ q ≠ pid, OwnNotes q s t
  inv := Coherent
  refl _ s := ⟨.refl s, rfl, rfl⟩
  trans _ _ _ _ h h' :=
    ⟨h.1.trans h'.1, h'.2.1.trans h.2.1, h'.2.2.trans h.2.2⟩
  shares _ q _ _ hne _ h := ⟨h.1, h.2 q (Ne.symm hne)⟩
  dies _ s hs := ⟨hs, fun _ _ => ⟨.refl s, rfl, rfl⟩⟩
  moved _ _ hs _ :=
    ⟨⟨hs.current, hs.floor_le, hs.confirmed_le, hs.stored, hs.answered, hs.proceeded⟩,
      fun _ => ⟨.of_same rfl rfl rfl rfl rfl, rfl, rfl⟩⟩

variable {s t : Shared} {pid : Pid} {row : Row} {b : ℕ}

theorem Recent.advance (h : Recent s b row) (hst : Advances s t) : Recent t b row :=
  ⟨h.1, hst.rows h.2⟩

/-- The row is good enough for the read that is under way. -/
def Known (pid : Pid) (row : Row) (s : Shared) : Prop := Recent s (s.begun pid) row

theorem Known.stable (h : Known pid row s) (hst : freshProtocol.rely pid s t) :
    Known pid row t := by
  have hbegun : t.begun pid = s.begun pid := hst.2.1
  rw [Known, hbegun]
  exact h.advance hst.1

theorem note_self (f : Pid → ℕ) (pid : Pid) (n : ℕ) : note f pid n pid = n := by
  simp [note]

theorem note_other {f : Pid → ℕ} {pid q : Pid} (hq : q ≠ pid) (n : ℕ) : note f pid n q = f q := by
  simp [note, hq]

theorem finish_safe (h : Known pid row s) :
    Safe (freshProtocol.of pid) (fun _ _ => True)
      (issue (Effect.yield row) >>= fun _ =>
        if row.config.paused then .fail else issue (Effect.proceed row)) s := by
  apply safe_step
  intro t o hst ht _
  have hknown : Known pid row t := h.stable hst
  refine ⟨⟨.of_same rfl rfl rfl rfl rfl, fun _ _ => ⟨rfl, rfl⟩⟩,
    ⟨ht.current, ht.floor_le, ht.confirmed_le, ht.stored, ?_, ht.proceeded⟩, ?_⟩
  · intro a ha
    obtain rfl | ha := List.mem_cons.mp ha
    · exact hknown
    · exact ht.answered a ha
  · cases hpaused : row.config.paused with
    | true => trivial
    | false =>
      apply safe_step
      intro u o' hsu hu _
      have hafter : Known pid row (effect pid (.yield row) o t).1 := hknown
      have hknown' : Known pid row u := hafter.stable hsu
      refine ⟨⟨.of_same rfl rfl rfl rfl rfl, fun _ _ => ⟨rfl, rfl⟩⟩,
        ⟨hu.current, hu.floor_le, hu.confirmed_le, hu.stored, hu.answered, ?_⟩,
        fun _ _ _ => trivial⟩
      intro a ha
      obtain rfl | ha := List.mem_cons.mp ha
      · exact ⟨hknown', hpaused⟩
      · exact hu.proceeded a ha

theorem store_safe (cache : CacheId) (time : ℕ) (h : Known pid row s)
    (hfloor : s.floor ≤ row.version) (hfetched : s.fetched pid = s.clears) :
    Safe (freshProtocol.of pid) (fun row t => Known pid row t)
      (issue (Effect.store cache row time) >>= fun _ => .pure row) s := by
  apply safe_step
  intro t o hst ht hp
  have hknown : Known pid row t := h.stable hst
  -- The store is in time, so nothing was cleared since the row came.
  have hclears : t.clears = s.clears := by
    have hin : t.fetched pid = t.clears := hp.2
    rw [← hin, hst.2.2, hfetched]
  have hfloor' : t.floor ≤ row.version := (hst.1.same hclears).le.trans hfloor
  refine ⟨⟨.of_same rfl rfl rfl rfl rfl, fun _ _ => ⟨rfl, rfl⟩⟩,
    ⟨ht.current, ht.floor_le, ht.confirmed_le, ?_, ht.answered, ht.proceeded⟩, ?_⟩
  · intro c e he
    by_cases hc : c = cache
    · obtain rfl : (⟨row, time⟩ : CacheEntry) = e := by
        simpa [punctual, System.restrict, office, effect, hc] using he
      exact ⟨hfloor', hknown.2⟩
    · exact ht.stored c e (by simpa [punctual, System.restrict, office, effect, hc] using he)
  · intro u hsu _
    have hafter : Known pid row (effect pid (.store cache row time) o t).1 := hknown
    exact hafter.stable hsu

theorem refill_safe (cache : CacheId) (now : ℕ) (hb : s.begun pid ≤ s.confirmed) :
    Safe (freshProtocol.of pid) (fun row t => Known pid row t) (refill cache now) s := by
  apply safe_step
  intro t o hst ht _
  cases hf : o.fails with
  | true =>
    simp only [punctual, System.restrict, office, effect, hf]
    exact ⟨⟨.refl t, fun _ _ => ⟨rfl, rfl⟩⟩, ht, trivial⟩
  | false =>
    simp only [punctual, System.restrict, office, effect, hf]
    refine ⟨⟨.of_same rfl rfl rfl rfl rfl, fun q hq => ⟨rfl, note_other hq _⟩⟩,
      ⟨ht.current, ht.floor_le, ht.confirmed_le, ht.stored, ht.answered, ht.proceeded⟩, ?_⟩
    refine store_safe cache now ⟨?_, ht.current⟩ ht.floor_le (note_self _ _ _)
    calc t.begun pid = s.begun pid := hst.2.1
      _ ≤ s.confirmed := hb
      _ ≤ t.confirmed := hst.1.confirmed
      _ ≤ t.floor := ht.confirmed_le
      _ ≤ t.row.version := ht.floor_le

theorem read_safe (cache : CacheId) (s : Shared) :
    Safe (freshProtocol.of pid) (fun row t => Known pid row t) (read cache) s := by
  apply safe_step
  intro t o hst ht _
  have hb : (effect pid (.peek cache) o t).1.begun pid = t.confirmed := note_self _ _ _
  refine ⟨⟨.of_same rfl rfl rfl rfl rfl, fun q hq => ⟨note_other hq _, rfl⟩⟩,
    ⟨ht.current, ht.floor_le, ht.confirmed_le, ht.stored, ht.answered, ht.proceeded⟩, ?_⟩
  change Safe _ _ (match t.entries cache with
    | some entry => if t.now - entry.storedAt < configTtlMs then .pure entry.row
      else refill cache t.now
    | none => refill cache t.now) _
  cases hentry : t.entries cache with
  | none => exact refill_safe cache t.now hb.le
  | some entry =>
    dsimp only
    split
    next =>
      intro u hsu _
      have hrecent := ht.stored cache entry hentry
      have hafter : Known pid entry.row (effect pid (.peek cache) o t).1 :=
        ⟨hb.le.trans (ht.confirmed_le.trans hrecent.1), hrecent.2⟩
      exact hafter.stable hsu
    next => exact refill_safe cache t.now hb.le

theorem serve_safe (cache : CacheId) (hs : Coherent s) :
    Safe (freshProtocol.of pid) (fun _ _ => True) (serve cache) s :=
  (read_safe cache s).bind (freshProtocol.refl pid) hs fun _ _ _ h => finish_safe h

theorem confirm_safe (h : row.version ≤ s.floor) :
    Safe (freshProtocol.of pid) (fun _ _ => True) (issue (Effect.confirm row)) s := by
  apply safe_step
  intro t o hst ht _
  have hfloor : row.version ≤ t.floor := h.trans hst.1.floor
  refine ⟨⟨⟨List.Subset.refl _, le_rfl, le_rfl, le_max_left _ _, le_rfl, fun _ => rfl⟩,
    fun _ _ => ⟨rfl, rfl⟩⟩, ⟨ht.current, ht.floor_le, max_le ht.confirmed_le hfloor, ht.stored,
    ht.answered, ht.proceeded⟩, fun _ _ _ => trivial⟩

/-- The caches are cleared after the commit, so the floor is above it. -/
theorem invalidate_safe (h : row.version ≤ s.row.version) :
    Safe (freshProtocol.of pid) (fun _ _ => True)
      (issue Effect.invalidateAll >>= fun _ => issue (Effect.confirm row)) s := by
  apply safe_step
  intro t o hst ht _
  refine ⟨⟨⟨List.Subset.refl _, le_rfl, ht.floor_le, le_rfl, Nat.le_succ _, ?_⟩,
    fun _ _ => ⟨rfl, rfl⟩⟩, ⟨ht.current, le_rfl, ht.confirmed_le.trans ht.floor_le, ?_, ht.answered,
    ht.proceeded⟩, ?_⟩
  · intro heq
    exact absurd heq (Nat.succ_ne_self _)
  · intro c e he
    cases he
  · apply confirm_safe
    exact h.trans hst.1.version

theorem Coherent.commit (h : Coherent s) (next : PlatformConfig) :
    Advances s { s with
      row := ⟨s.row.version + 1, next⟩, rows := ⟨s.row.version + 1, next⟩ :: s.rows } ∧
    Coherent { s with
      row := ⟨s.row.version + 1, next⟩, rows := ⟨s.row.version + 1, next⟩ :: s.rows } := by
  have hadv : Advances s { s with
      row := ⟨s.row.version + 1, next⟩, rows := ⟨s.row.version + 1, next⟩ :: s.rows } :=
    ⟨List.subset_cons_self _ _, Nat.le_succ _, le_rfl, le_rfl, le_rfl, fun _ => rfl⟩
  refine ⟨hadv, ⟨List.mem_cons_self, h.floor_le.trans (Nat.le_succ _), h.confirmed_le, ?_, ?_, ?_⟩⟩
  · intro c e he
    exact (h.stored c e he).advance hadv
  · intro a ha
    exact (h.answered a ha).advance hadv
  · intro a ha
    exact ⟨(h.proceeded a ha).1.advance hadv, (h.proceeded a ha).2⟩

theorem updateConfig_safe (patch : Patch) (s : Shared) :
    Safe (freshProtocol.of pid) (fun _ _ => True) (updateConfigTransactional patch) s := by
  apply safe_step
  intro t o hst ht _
  refine ⟨⟨.refl t, fun _ _ => ⟨rfl, rfl⟩⟩, ht, ?_⟩
  cases hf : o.fails with
  | true =>
    simp only [punctual, System.restrict, office, effect, hf]
    trivial
  | false =>
    simp only [punctual, System.restrict, office, effect, hf]
    change Safe _ _ (match patch t.row.config with
      | none => .fail
      | some next => _) t
    cases patch t.row.config with
    | none => trivial
    | some next =>
      apply safe_step
      intro u o' hsu hu _
      cases hf' : o'.fails with
      | true =>
        simp only [effect, hf']
        exact ⟨⟨.refl u, fun _ _ => ⟨rfl, rfl⟩⟩, hu, trivial⟩
      | false =>
        by_cases hguard : u.row.version = t.row.version
        · obtain ⟨hadv, hcoh⟩ := hu.commit next
          simp only [effect, hf', runCommit, hguard, if_true]
          rw [← hguard]
          exact ⟨⟨hadv, fun _ _ => ⟨rfl, rfl⟩⟩, hcoh, invalidate_safe le_rfl⟩
        · simp only [effect, hf', runCommit, hguard, if_false]
          exact ⟨⟨.refl u, fun _ _ => ⟨rfl, rfl⟩⟩, hu, trivial⟩

theorem body_safe (call : Call) (hs : Coherent s) :
    Safe (freshProtocol.of pid) (fun _ _ => True) (body call) s := by
  cases call with
  | serve cache => exact serve_safe cache hs
  | updateConfig patch => exact updateConfig_safe patch s

structure Fresh (s : Shared) : Prop where
  rows : s.rows = [s.row]
  entries : ∀ c, s.entries c = none
  answers : s.answers = []
  proceeded : s.proceeded = []
  confirmed : s.confirmed = 0
  floor : s.floor = 0

theorem Fresh.coherent (h : Fresh s) : Coherent s where
  current := by simp [h.rows]
  floor_le := by simp [h.floor]
  confirmed_le := by simp [h.floor, h.confirmed]
  stored c e he := by simp [h.entries] at he
  answered a ha := by simp [h.answers] at ha
  proceeded a ha := by simp [h.proceeded] at ha

variable {w : Office} {tr : List (Entry Office (Act Call Choice ℕ) (Option (Pid × Effect)))}

/-- With every store in time, a read returns a row at least as new as any that
was confirmed when it began, and whoever goes on does so on such a row, which
is not paused. -/
theorem confirmed_changes_are_seen (hs : Fresh s) (hr : Run (machine office) (idle s) tr w)
    (hstores : ∀ e ∈ tr, StoresInTime e.pre e.act) :
    (∀ b row, (b, row) ∈ w.shared.answers → b ≤ row.version) ∧
      ∀ b row, (b, row) ∈ w.shared.proceeded →
        row ∈ w.shared.rows ∧ b ≤ row.version ∧ row.config.paused = false := by
  have horder : Orderly freshProtocol w :=
    run_orderly_of_heeds (fun _ call _ hs _ => body_safe call hs) hr hs.coherent hstores
  refine ⟨fun b row h => (horder.1.answered _ h).1, fun b row h => ?_⟩
  obtain ⟨⟨hle, hmem⟩, hpaused⟩ := horder.1.proceeded _ h
  exact ⟨hmem, hle, hpaused⟩

def sampleConfig : PlatformConfig :=
  ⟨false, true, none, 50000000, 10000000000, 1800, 1800, 7200, fun _ => none, by decide⟩

def pause : Patch := fun config => some { config with paused := true }

def sampleOffice : Shared :=
  ⟨⟨0, sampleConfig⟩, [⟨0, sampleConfig⟩], fun _ => none, 0, [], [], 0, 0, 0, fun _ => 0, fun _ => 0⟩

theorem sampleOffice_fresh : Fresh sampleOffice :=
  ⟨rfl, fun _ => rfl, rfl, rfl, rfl, rfl⟩

def pausedActions : List (Act Call Choice ℕ) :=
  [.spawn 1 (.updateConfig pause), .go 1 ⟨false⟩, .go 1 ⟨false⟩, .go 1 ⟨false⟩, .go 1 ⟨false⟩,
    .spawn 2 (.serve 0), .go 2 ⟨false⟩, .go 2 ⟨false⟩, .go 2 ⟨false⟩, .go 2 ⟨false⟩]

theorem pausedActions_admitted : Admitted (machine office) (idle sampleOffice) pausedActions :=
  ⟨⟨rfl, trivial⟩, trivial, trivial, trivial, trivial, ⟨rfl, trivial⟩, trivial, trivial, trivial,
    trivial, trivial⟩

theorem sample_confirmed_changes : ∃ tr w, Run (machine office) (idle sampleOffice) tr w ∧
    (1, (⟨1, { sampleConfig with paused := true }⟩ : Row)) ∈ w.shared.answers ∧
    ∀ b row, (b, row) ∈ w.shared.answers → b ≤ row.version := by
  have hr := Run.of_actions _ _ pausedActions_admitted
  have hstores : ∀ e ∈ history (machine office) (idle sampleOffice) pausedActions,
      StoresInTime e.pre e.act :=
    history_meets _ _ ⟨trivial, trivial, trivial, trivial, trivial, trivial, trivial, trivial, rfl,
      trivial, trivial⟩
  exact ⟨_, _, hr, List.mem_cons_self,
    (confirmed_changes_are_seen sampleOffice_fresh hr hstores).1⟩

/-- A read fetches its row, the administrator pauses, the read stores its row,
and the next caller finds it. -/
def overtakenActions : List (Act Call Choice ℕ) :=
  [.spawn 0 (.serve 0), .go 0 ⟨false⟩, .go 0 ⟨false⟩, .spawn 1 (.updateConfig pause),
    .go 1 ⟨false⟩, .go 1 ⟨false⟩, .go 1 ⟨false⟩, .go 1 ⟨false⟩, .go 0 ⟨false⟩,
    .spawn 2 (.serve 0), .go 2 ⟨false⟩, .go 2 ⟨false⟩, .go 2 ⟨false⟩]

theorem paused_change_not_seen : ∃ tr w, Run (machine office) (idle sampleOffice) tr w ∧
    w.shared.row.config.paused = true ∧ w.shared.confirmed = w.shared.row.version ∧
    ∃ row, (1, row) ∈ w.shared.answers ∧ row.version < 1 ∧ (1, row) ∈ w.shared.proceeded ∧
      row.config.paused = false := by
  refine ⟨_, _, .of_actions overtakenActions _ ?_, rfl, rfl, ⟨0, sampleConfig⟩, List.mem_cons_self,
    by decide, List.mem_cons_self, rfl⟩
  exact ⟨⟨rfl, trivial⟩, trivial, trivial, ⟨rfl, trivial⟩, trivial, trivial, trivial, trivial,
    trivial, ⟨rfl, trivial⟩, trivial, trivial, trivial, trivial⟩

end Lolipay.Coordinator.ConfigCaches
