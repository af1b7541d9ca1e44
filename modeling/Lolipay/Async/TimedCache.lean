import Lolipay.Async.Stages
import Lolipay.Lists.Association

namespace Lolipay.Async.TimedCache

open Lolipay.Lists.Association Lolipay.Ledger.Runs
open Lolipay.Async.Process Lolipay.Async.Scheduling Lolipay.Async.Stages

variable {K F V : Type}

/-- What a cache makes of a look: what it answers, if anything, what it keeps, if
anything, and for how long; above the limit it drops what is too old. -/
structure Policy (F V : Type) where
  ttl : ℕ
  answers : Option F → Option V
  keeps : Option F → Option V
  limit : Option ℕ

structure Slot (V : Type) where
  val : V
  since : ℕ

inductive Effect (K F : Type) where
  | consult (k : K)
  | look (k : K)
  | settle (k : K) (started : ℕ) (seen : Option F)

@[reducible] def Reply (F V : Type) : Effect K F → Type
  | .consult _ => ℕ × Option V
  | .look _ => Option F
  | .settle _ _ _ => Unit

abbrev Reader (K F V : Type) (α : Type) := Program (Effect K F) (Reply F V) α

/-- A read through the cache. It is dated from before the look. -/
def cachedRead (y : Policy F V) (k : K) : Reader K F V V :=
  .step (.consult k) fun (now, hit) =>
    match hit with
    | some val => .pure val
    | none =>
      .step (.look k) fun seen =>
        .step (.settle k now seen) fun () =>
          match y.answers seen with
          | some val => .pure val
          | none => .fail

inductive Stage (K F : Type) where
  | away
  | asking (k : K) (started : ℕ)
  | asked (k : K) (started : ℕ) (seen : Option F)

inductive Turn : Itinerary (Effect K F) (Reply F V) (Stage K F)
  | hit (k : K) (now : ℕ) (val : V) : Turn .away (.consult k) (now, some val) .away
  | miss (k : K) (now : ℕ) : Turn .away (.consult k) (now, none) (.asking k now)
  | look (k : K) (started : ℕ) (seen : Option F) :
      Turn (.asking k started) (.look k) seen (.asked k started seen)
  | settle (k : K) (started : ℕ) (seen : Option F) :
      Turn (.asked k started seen) (.settle k started seen) () .away

theorem cachedRead_follows (y : Policy F V) (k : K) :
    Follows Turn (fun _ q => q = .away) (fun q => q = .away) .away (cachedRead y k) := by
  rintro ⟨now, hit⟩
  cases hit with
  | some val => exact ⟨_, .hit k now val, rfl⟩
  | none =>
    refine ⟨_, .miss k now, fun seen => ⟨_, .look k now seen, fun () => ⟨_, .settle k now seen, ?_⟩⟩⟩
    cases y.answers seen <;> rfl

structure Answer (K V : Type) where
  key : K
  val : V
  started : ℕ
  ended : ℕ

structure Store (K V : Type) where
  now : ℕ
  slots : List (K × Slot V)
  answers : List (Answer K V)

variable [DecidableEq K]

def drop (k : K) (slots : List (K × Slot V)) : List (K × Slot V) := slots.filter fun p => p.1 ≠ k

def prune (y : Policy F V) (now : ℕ) (slots : List (K × Slot V)) : List (K × Slot V) :=
  if y.limit.any fun n => n < slots.length then slots.filter fun p => now < p.2.since + y.ttl
  else slots

def consult (y : Policy F V) (k : K) (s : Store K V) : Store K V × (ℕ × Option V) :=
  match s.slots.lookup k with
  | some x =>
    if s.now < x.since + y.ttl then
      ({ s with answers := ⟨k, x.val, s.now, s.now⟩ :: s.answers }, (s.now, some x.val))
    else (s, (s.now, none))
  | none => (s, (s.now, none))

def settle (y : Policy F V) (k : K) (started : ℕ) (seen : Option F) (s : Store K V) : Store K V :=
  { s with
    slots :=
      match y.keeps seen with
      | some val => prune y started (put k ⟨val, started⟩ s.slots)
      | none => s.slots
    answers :=
      match y.answers seen with
      | some val => ⟨k, val, started, s.now⟩ :: s.answers
      | none => s.answers }

def effect (y : Policy F V) (world : ℕ → K → F) (_ : Pid) (e : Effect K F) (fails : Bool)
    (s : Store K V) : Store K V × Reply F V e :=
  match e with
  | .consult k => consult y k s
  | .look k => (s, if fails then none else some (world s.now k))
  | .settle k started seen => (settle y k started seen s, ())

inductive Move (K : Type) where
  | clock (time : ℕ)
  | forget (k : K)

def moved (s : Store K V) : Move K → Store K V
  | .clock time => { s with now := time }
  | .forget k => { s with slots := drop k s.slots }

def readers (y : Policy F V) (world : ℕ → K → F) :
    System K Bool (Move K) (Effect K F) (Reply F V) (Store K V) where
  body k := cachedRead y k >>= fun _ => .pure ()
  delivers _ _ := True
  permits _ _ _ _ := True
  effect := effect y world
  dies _ s := s
  moves s m :=
    match m with
    | .clock time => s.now ≤ time
    | .forget _ => True
  moved := moved

def empty (now : ℕ) : Store K V := ⟨now, [], []⟩

def Looked (world : ℕ → K → F) (k : K) (u : ℕ) (seen : Option F) : Prop :=
  seen = none ∨ seen = some (world u k)

variable {y : Policy F V} {world : ℕ → K → F} {key k : K} {since : ℕ} {before : List (Answer K V)}
  {s t : Store K V} {stage : Pid → Stage K F} {pid : Pid} {q : Stage K F}

/-- A look at a key, which for one key is no older than a moment. -/
def Seen (world : ℕ → K → F) (key : K) (since : ℕ) (k : K) (u : ℕ) (seen : Option F) : Prop :=
  (k = key → since ≤ u) ∧ Looked world k u seen

/-- An answer rests on a look of its own or on one that was kept. -/
def Rests (y : Policy F V) (world : ℕ → K → F) (key : K) (since : ℕ) (a : Answer K V) : Prop :=
  ∃ u ≤ a.ended, ∃ seen, Seen world key since a.key u seen ∧
    ((a.started ≤ u ∧ y.answers seen = some a.val) ∨
      (a.started < u + y.ttl ∧ y.keeps seen = some a.val))

def Stage.Kept (world : ℕ → K → F) (key : K) (since now : ℕ) : Stage K F → Prop
  | .away => True
  | .asking _ started => started ≤ now
  | .asked k started seen => ∃ u, started ≤ u ∧ u ≤ now ∧ Seen world key since k u seen

/-- Everything that is kept or on its way comes from a look, and all answers but
those from before do. -/
structure Books (y : Policy F V) (world : ℕ → K → F) (key : K) (since : ℕ)
    (before : List (Answer K V)) (s : Store K V) (stage : Pid → Stage K F) : Prop where
  clock : since ≤ s.now
  slots : ∀ p ∈ s.slots, ∃ u, p.2.since ≤ u ∧ u ≤ s.now ∧
    ∃ seen, Seen world key since p.1 u seen ∧ y.keeps seen = some p.2.val
  stages : ∀ pid, (stage pid).Kept world key since s.now
  answers : ∀ a ∈ s.answers, a ∈ before ∨ Rests y world key since a

omit [DecidableEq K] in
theorem mem_prune {now : ℕ} {slots : List (K × Slot V)} {p : K × Slot V}
    (h : p ∈ prune y now slots) : p ∈ slots := by
  rw [prune] at h
  split at h
  · exact (List.mem_filter.mp h).1
  · exact h

omit [DecidableEq K] in
theorem kept_place {now : ℕ} (h : ∀ p, (stage p).Kept world key since now) (pid : Pid)
    (hq : q.Kept world key since now) (p : Pid) : (place stage pid q p).Kept world key since now :=
  forall_place (P := fun _ (q : Stage K F) => q.Kept world key since now) hq (fun p _ => h p) p

theorem Books.consult (h : Books y world key since before s stage)
    (hturn : Turn .away (.consult k) (consult y k s).2 q) :
    Books y world key since before (consult y k s).1 (place stage pid q) := by
  have hmiss : Books y world key since before s (place stage pid (.asking k s.now)) := by
    exact ⟨h.clock, h.slots, kept_place h.stages pid (Nat.le_refl _), h.answers⟩
  unfold TimedCache.consult at hturn ⊢
  cases hlookup : s.slots.lookup k with
  | none =>
    simp only [hlookup] at hturn ⊢
    cases hturn
    exact hmiss
  | some x =>
    simp only [hlookup] at hturn ⊢
    by_cases hfresh : s.now < x.since + y.ttl
    · rw [if_pos hfresh] at hturn ⊢
      cases hturn
      obtain ⟨u, hsince, hle, seen, hseen, hkeeps⟩ := h.slots _ (mem_of_lookup hlookup)
      have hyoung : s.now < u + y.ttl :=
        Nat.lt_of_lt_of_le hfresh (Nat.add_le_add_right hsince y.ttl)
      refine ⟨h.clock, h.slots, kept_place h.stages pid trivial, fun a ha => ?_⟩
      obtain rfl | ha := List.mem_cons.mp ha
      · exact .inr ⟨u, hle, seen, hseen, .inr ⟨hyoung, hkeeps⟩⟩
      · exact h.answers a ha
    · rw [if_neg hfresh] at hturn ⊢
      cases hturn
      exact hmiss

omit [DecidableEq K] in
theorem Books.look (h : Books y world key since before s stage) {started : ℕ}
    (hstage : stage pid = .asking k started) {seen : Option F} (hlooked : Looked world k s.now seen) :
    Books y world key since before s (place stage pid (.asked k started seen)) := by
  have hstarted := h.stages pid
  rw [hstage] at hstarted
  refine ⟨h.clock, h.slots, kept_place h.stages pid ?_, h.answers⟩
  exact ⟨s.now, hstarted, Nat.le_refl _, fun _ => h.clock, hlooked⟩

theorem Books.settle (h : Books y world key since before s stage) {started : ℕ} {seen : Option F}
    (hstage : stage pid = .asked k started seen) :
    Books y world key since before (settle y k started seen s) (place stage pid .away) := by
  have hkept := h.stages pid
  rw [hstage] at hkept
  obtain ⟨u, hstarted, hle, hseen⟩ := hkept
  refine ⟨h.clock, fun p hp => ?_, kept_place h.stages pid trivial, fun a ha => ?_⟩
  · simp only [TimedCache.settle] at hp
    split at hp
    next val hval =>
      obtain rfl | hp := mem_put (mem_prune hp)
      · exact ⟨u, hstarted, hle, seen, hseen, hval⟩
      · exact h.slots p hp
    next => exact h.slots p hp
  · simp only [TimedCache.settle] at ha
    split at ha
    next val hval =>
      obtain rfl | ha := List.mem_cons.mp ha
      · exact .inr ⟨u, hle, seen, hseen, .inl ⟨hstarted, hval⟩⟩
      · exact h.answers a ha
    next => exact h.answers a ha

omit [DecidableEq K] in
theorem Stage.Kept.later {now now' : ℕ} (h : q.Kept world key since now) (hle : now ≤ now') :
    q.Kept world key since now' := by
  cases q with
  | away => trivial
  | asking k started => exact Nat.le_trans h hle
  | asked k started seen =>
    obtain ⟨u, hstarted, hu, hseen⟩ := h
    exact ⟨u, hstarted, Nat.le_trans hu hle, hseen⟩

theorem Books.moved (h : Books y world key since before s stage) (m : Move K)
    (hm : (readers y world).moves s m) : Books y world key since before (moved s m) stage := by
  cases m with
  | clock time =>
    have hle : s.now ≤ time := hm
    refine ⟨Nat.le_trans h.clock hle, fun p hp => ?_, fun pid => (h.stages pid).later hle, h.answers⟩
    obtain ⟨u, hsince, hu, hseen⟩ := h.slots p hp
    exact ⟨u, hsince, Nat.le_trans hu hle, hseen⟩
  | forget k =>
    exact ⟨h.clock, fun p hp => h.slots p (List.mem_filter.mp hp).1, h.stages, h.answers⟩

theorem books_maintains (y : Policy F V) (world : ℕ → K → F) (key : K) (since : ℕ)
    (before : List (Answer K V)) :
    Maintains Turn (readers y world) (fun _ => .away) .away (fun _ _ => True) (fun _ => True)
      (Books y world key since before) where
  spawn _ _ pid _ h _ _ := ⟨h.clock, h.slots, kept_place h.stages pid trivial, h.answers⟩
  go s stage pid e fails q h hturn _ := by
    generalize hstage : stage pid = now at hturn
    cases e with
    | consult k =>
      obtain rfl : now = .away := by
        generalize ((readers y world).effect pid (.consult k) fails s).2 = r at hturn
        cases hturn <;> rfl
      exact h.consult hturn
    | look k =>
      generalize hseen : ((readers y world).effect pid (.look k) fails s).2 = seen at hturn
      cases hturn
      refine h.look hstage ?_
      rw [← hseen]
      cases fails with
      | true => exact .inl rfl
      | false => exact .inr rfl
    | settle k started seen =>
      cases hturn
      exact h.settle hstage
  dies _ _ pid h _ := ⟨h.clock, h.slots, kept_place h.stages pid trivial, h.answers⟩
  moved _ _ m h hm := h.moved m hm

variable {tr tr' : List (Entry (Pool (Effect K F) (Reply F V) (Store K V)) (Act K Bool (Move K))
    (Option (Pid × Effect K F)))} {w w' : Pool (Effect K F) (Reply F V) (Store K V)} {now : ℕ}

theorem body_follows (k : K) :
    Follows Turn (fun _ q => q = .away) (fun q => q = .away) .away ((readers y world).body k) :=
  (cachedRead_follows y k).bind fun _ _ hq => hq

theorem run_books (key : K) (hr : Run (machine (readers y world)) (idle (empty now)) tr w) :
    ∃ stage, Underway Turn (fun q => q = .away) .away w stage ∧
      Books y world key 0 [] w.shared stage := by
  have hstart : Books y world key 0 [] (empty now) fun _ => .away :=
    ⟨Nat.zero_le _, fun _ h => (by cases h), fun _ => trivial, fun _ h => by cases h⟩
  exact run_underway (books_maintains y world key 0 []) body_follows hr hstart
    fun e _ => by cases e.act <;> trivial

/-- What an answer stands on: a look during the read, or one that was kept and is
younger than the lifetime. -/
theorem answers_recent (hr : Run (machine (readers y world)) (idle (empty now)) tr w)
    {a : Answer K V} (ha : a ∈ w.shared.answers) :
    ∃ u ≤ a.ended, ∃ seen, Looked world a.key u seen ∧
      ((a.started ≤ u ∧ y.answers seen = some a.val) ∨
        (a.started < u + y.ttl ∧ y.keeps seen = some a.val)) := by
  obtain ⟨stage, -, hbooks⟩ := run_books a.key hr
  obtain hnone | ⟨u, hu, seen, hseen, hrest⟩ := hbooks.answers a ha
  · cases hnone
  · exact ⟨u, hu, seen, hseen.2, hrest⟩

/-- A read of the key has seen something and has yet to keep it. -/
def Late (k : K) (w : Pool (Effect K F) (Reply F V) (Store K V)) (pid : Pid) : Prop :=
  ∃ started seen next, w.running pid = some (.step (.settle k started seen) next)

omit [DecidableEq K] in
theorem late_of_asked (h : Underway Turn (fun q => q = .away) .away w stage) {started : ℕ}
    {seen : Option F} (hstage : stage pid = .asked k started seen) : Late k w pid := by
  cases hrun : w.running pid with
  | none =>
    have hrest := h.atRest pid hrun
    rw [hstage] at hrest
    cases hrest
  | some p =>
    have hfollows := h.follows pid p hrun
    rw [hstage] at hfollows
    cases p with
    | pure | fail => cases hfollows
    | step e next =>
      cases e with
      | consult k' =>
        obtain ⟨q, hturn, -⟩ := hfollows (0, none)
        cases hturn
      | look k' =>
        obtain ⟨q, hturn, -⟩ := hfollows none
        cases hturn
      | settle k' started' seen' =>
        obtain ⟨q, hturn, -⟩ := hfollows ()
        cases hturn
        exact ⟨started, seen, next, hrun⟩

/-- What was forgotten while no read of it had yet to keep what it saw does not come
back: later answers stand on looks that are no older than that. -/
theorem answers_after_forget (hr : Run (machine (readers y world)) (idle (empty now)) tr w)
    (hquiet : ∀ pid, ¬Late k w pid)
    (hr' : Run (machine (readers y world)) ((machine (readers y world)).next w (.outside (.forget k)))
      tr' w') {a : Answer K V} (ha : a ∈ w'.shared.answers) (hkey : a.key = k) :
    a ∈ w.shared.answers ∨ ∃ u ≤ a.ended, w.shared.now ≤ u ∧ ∃ seen, Looked world k u seen ∧
      (y.answers seen = some a.val ∨ y.keeps seen = some a.val) := by
  obtain ⟨stage, hway, hbooks⟩ := run_books k hr
  have hstart : Books y world k w.shared.now w.shared.answers
      ((machine (readers y world)).next w (.outside (.forget k))).shared stage := by
    refine ⟨Nat.le_refl _, fun p hp => ?_, fun pid => ?_, fun a ha => .inl ha⟩
    · obtain ⟨hold, hne⟩ := List.mem_filter.mp hp
      obtain ⟨u, hsince, hle, seen, hseen, hkeeps⟩ := hbooks.slots p hold
      exact ⟨u, hsince, hle, seen, ⟨fun hkey => absurd hkey (by simpa using hne), hseen.2⟩, hkeeps⟩
    · have hkept := hbooks.stages pid
      cases hstage : stage pid with
      | away => trivial
      | asking k' started =>
        rw [hstage] at hkept
        exact hkept
      | asked k' started seen =>
        rw [hstage] at hkept
        obtain ⟨u, hstarted, hle, hseen⟩ := hkept
        refine ⟨u, hstarted, hle, fun hkey => ?_, hseen.2⟩
        subst hkey
        exact absurd (late_of_asked hway hstage) (hquiet pid)
  have hway' : Underway Turn (fun q => q = .away) .away
      ((machine (readers y world)).next w (.outside (.forget k))) stage := ⟨hway.follows, hway.atRest⟩
  obtain ⟨stage', -, hbooks'⟩ :=
    hway'.run (books_maintains y world k w.shared.now w.shared.answers) body_follows hstart hr'
      fun e _ => by cases e.act <;> trivial
  obtain hold | ⟨u, hu, seen, ⟨hsince, hlooked⟩, hrest⟩ := hbooks'.answers a ha
  · exact .inl hold
  · rw [hkey] at hlooked
    exact .inr ⟨u, hu, hsince hkey, seen, hlooked, hrest.imp And.right And.right⟩

end Lolipay.Async.TimedCache
