import Mathlib.Data.List.Infix
import Lolipay.Async.Stages

namespace Lolipay.Async.Feeds

open Lolipay.Async.Scheduling Lolipay.Async.Stages

variable {E : Type}

/-- The books of the readers of a log: the position that is saved for the next
reader, the entries that were handled, and the positions at which a reader
started without regard to the saved one. `begun` and `saves` count the readings
that loaded the position and those that saved a new one. -/
structure Book (E : Type) where
  saved : Option ℕ
  handled : List (ℕ × E)
  jumps : List ℕ
  begun : ℕ
  saves : ℕ

def Book.empty : Book E := ⟨none, [], [], 0, 0⟩

def Book.load (b : Book E) : Book E := { b with begun := b.begun + 1 }

def Book.jump (b : Book E) (p : ℕ) : Book E := { b with jumps := b.jumps ++ [p] }

def Book.handle (b : Book E) (i : ℕ) (e : E) : Book E := { b with handled := b.handled ++ [(i, e)] }

def Book.save (b : Book E) (c : ℕ) : Book E := { b with saved := some c, saves := b.saves + 1 }

/-- Where a reader is: between two readings, behind the load of the saved
position, or at `next` in a page that began at `base` and of which `todo` is left. -/
inductive Place (E : Type) where
  | away
  | loaded (saved : Option ℕ)
  | reading (base next : ℕ) (todo : List E) (jumped : Bool)

/-- What a reader may do next, with what it does to the books. -/
inductive Deed (log : List E) (b : Book E) : Place E → Place E → Book E → Prop
  | load : Deed log b .away (.loaded b.saved) b.load
  | turn {c : ℕ} {todo : List E} (h : todo <+: log.drop c) :
      Deed log b (.loaded (some c)) (.reading c c todo false) b
  | jump {saved : Option ℕ} {p : ℕ} {todo : List E} (h : todo <+: log.drop p) :
      Deed log b (.loaded saved) (.reading p p todo true) (b.jump p)
  | handle {base next : ℕ} {e : E} {todo : List E} {jumped : Bool} :
      Deed log b (.reading base next (e :: todo) jumped) (.reading base (next + 1) todo jumped)
        (b.handle next e)
  | save {base next : ℕ} {jumped : Bool} :
      Deed log b (.reading base next [] jumped) .away (b.save next)
  | quiet {q : Place E} : Deed log b q q b
  | leave {q : Place E} : Deed log b q .away b

section Coverage

/-- Handled, or left behind by a jump. -/
def Book.Passed (b : Book E) (i : ℕ) : Prop :=
  (∃ e, (i, e) ∈ b.handled) ∨ ∃ p ∈ b.jumps, i < p

def Book.Reaches (b : Book E) (c : ℕ) : Prop := ∀ i < c, b.Passed i

def Place.Reached (log : List E) (b : Book E) : Place E → Prop
  | .away | .loaded none => True
  | .loaded (some c) => b.Reaches c
  | .reading _ next todo _ => b.Reaches next ∧ todo <+: log.drop next

/-- No position in front of a saved one, of a reader or of a handled entry is
passed over. -/
structure Sound (log : List E) (b : Book E) (place : Pid → Place E) : Prop where
  saved : ∀ c, b.saved = some c → b.Reaches c
  readers : ∀ pid, (place pid).Reached log b
  handled : ∀ i e, (i, e) ∈ b.handled → log[i]? = some e ∧ b.Reaches i

variable {log log' : List E} {b b' : Book E} {q q' : Place E} {place : Pid → Place E}

theorem Sound.start (log : List E) : Sound log Book.empty fun _ => .away where
  saved c h := by cases h
  readers _ := trivial
  handled i e h := by cases h

theorem Deed.passed {i : ℕ} (h : Deed log b q q' b') (hi : b.Passed i) : b'.Passed i := by
  cases h with
  | load | turn | save | quiet | leave => exact hi
  | jump =>
    apply hi.imp_right
    rintro ⟨p, hp, hlt⟩
    exact ⟨p, List.mem_append_left _ hp, hlt⟩
  | handle =>
    apply hi.imp_left
    rintro ⟨e, he⟩
    exact ⟨e, List.mem_append_left _ he⟩

theorem Deed.reaches {c : ℕ} (h : Deed log b q q' b') (hc : b.Reaches c) : b'.Reaches c :=
  fun i hi => h.passed (hc i hi)

theorem reaches_succ {c : ℕ} (hc : b.Reaches c) (h : b.Passed c) : b.Reaches (c + 1) := by
  intro i hi
  obtain hlt | rfl := Nat.lt_succ_iff_lt_or_eq.mp hi
  · exact hc i hlt
  · exact h

theorem Deed.reached (h : Deed log b q q' b') (hq : q.Reached log b)
    (hsaved : ∀ c, b.saved = some c → b.Reaches c) : q'.Reached log b' := by
  cases h with
  | load =>
    match hs : b.saved with
    | none => trivial
    | some c => exact hsaved c hs
  | turn h => exact ⟨hq, h⟩
  | jump h => exact ⟨fun i hi => .inr ⟨_, List.mem_append_right _ (List.mem_singleton_self _), hi⟩, h⟩
  | @handle base next e todo jumped =>
    have hstep : Deed log b (.reading base next (e :: todo) jumped)
      (.reading base (next + 1) todo jumped) (b.handle next e) := .handle
    refine ⟨reaches_succ (hstep.reaches hq.1) (.inl ⟨e, ?_⟩), ?_⟩
    · exact List.mem_append_right _ (List.mem_singleton_self _)
    · have htail := hq.2.drop 1
      rwa [List.drop_drop] at htail
  | save | leave => trivial
  | quiet => exact hq

theorem Place.Reached.mono (hq : q.Reached log b) (hlog : log <+: log')
    (hpassed : ∀ c, b.Reaches c → b'.Reaches c) : q.Reached log' b' := by
  match q with
  | .away | .loaded none => trivial
  | .loaded (some c) => exact hpassed c hq
  | .reading _ next todo _ => exact ⟨hpassed next hq.1, hq.2.trans (hlog.drop next)⟩

theorem Sound.deed {pid : Pid} (hs : Sound log b place) (h : Deed log b (place pid) q' b') :
    Sound log b' (Stages.place place pid q') where
  saved c hc := by
    have hold (hc : b.saved = some c) : b'.Reaches c := h.reaches (hs.saved c hc)
    generalize hq : place pid = q at h
    cases h with
    | load | turn | jump | handle | quiet | leave => exact hold hc
    | save =>
      obtain rfl := Option.some.inj hc
      have hreader := hs.readers pid
      rw [hq] at hreader
      exact hreader.1
  readers p := by
    refine forall_place (P := fun _ (q : Place E) => q.Reached log b') ?_ (fun p _ => ?_) p
    · exact h.reached (hs.readers pid) hs.saved
    · exact (hs.readers p).mono (List.prefix_refl log) fun c => h.reaches
  handled i e he := by
    have hold (he : (i, e) ∈ b.handled) : log[i]? = some e ∧ b'.Reaches i :=
      ⟨(hs.handled i e he).1, h.reaches (hs.handled i e he).2⟩
    have hreader := hs.readers pid
    have hreaches (c : ℕ) (hc : b.Reaches c) : b'.Reaches c := h.reaches hc
    generalize place pid = q at h hreader
    cases h with
    | load | turn | jump | save | quiet | leave => exact hold he
    | handle =>
      obtain he | he := List.mem_append.mp he
      · exact hold he
      · obtain ⟨rfl, rfl⟩ := Prod.mk.inj (List.mem_singleton.mp he)
        refine ⟨?_, hreaches _ hreader.1⟩
        obtain ⟨rest, hrest⟩ := hreader.2
        rw [← Nat.add_zero i, ← List.getElem?_drop, ← hrest]
        rfl

theorem getElem?_of_front {i : ℕ} {e : E} (h : log <+: log') (hi : log[i]? = some e) :
    log'[i]? = some e := by
  obtain ⟨rest, rfl⟩ := h
  rw [List.getElem?_append_left (List.getElem?_eq_some_iff.mp hi).1, hi]

theorem Sound.grow (hs : Sound log b place) (hlog : log <+: log') : Sound log' b place where
  saved := hs.saved
  readers pid := (hs.readers pid).mono hlog fun _ => id
  handled i e he := by
    obtain ⟨hi, hreach⟩ := hs.handled i e he
    exact ⟨getElem?_of_front hlog hi, hreach⟩

end Coverage

section Repetition

def Book.times (b : Book E) (i : ℕ) : ℕ := b.handled.countP fun h => h.1 = i

def Book.isPast (b : Book E) (i : ℕ) : ℕ := if (b.saved.any fun c => i < c) then 1 else 0

/-- Whether a reading that has begun has the position still to handle, if ever. -/
def Place.owes (i : ℕ) : Place E → ℕ
  | .away => 0
  | .loaded _ => 1
  | .reading base next _ _ => if base ≤ i ∧ i < next then 0 else 1

def Place.jumped : Place E → ℕ
  | .reading _ _ _ true => 1
  | _ => 0

/-- What a reader that is alone knows about the books. -/
def Place.Alone (b : Book E) : Place E → Prop
  | .away => True
  | .loaded saved => saved = b.saved
  | .reading base next _ jumped => base ≤ next ∧ (jumped = false → b.saved = some base)

/-- Every reading handles a position at most once, and after one that has saved
behind it only a jump goes back. -/
structure Tally (b : Book E) (q : Place E) : Prop where
  alone : q.Alone b
  times : ∀ i, b.times i + b.saves + q.owes i + q.jumped ≤ b.begun + b.jumps.length + b.isPast i

variable {log : List E} {b b' : Book E} {q q' : Place E}

theorem Tally.start : Tally (Book.empty : Book E) .away where
  alone := trivial
  times i := by simp [Book.empty, Book.times, Place.owes, Place.jumped]

theorem times_handle (next i : ℕ) (e : E) :
    (b.handle next e).times i = b.times i + if next = i then 1 else 0 := by
  simp [Book.handle, Book.times, List.countP_append, List.countP_singleton]

theorem isPast_save (c i : ℕ) : (b.save c).isPast i = if i < c then 1 else 0 := by
  simp [Book.save, Book.isPast]

theorem isPast_of_saved {c : ℕ} (h : b.saved = some c) (i : ℕ) :
    b.isPast i = if i < c then 1 else 0 := by
  simp [Book.isPast, h]

theorem isPast_le (b : Book E) (i : ℕ) : b.isPast i ≤ 1 := by
  unfold Book.isPast
  split <;> omega

theorem Deed.alone (h : Deed log b q q' b') (hq : q.Alone b) : q'.Alone b' := by
  cases h with
  | load => rfl
  | turn => exact ⟨Nat.le_refl _, fun _ => hq.symm⟩
  | jump => exact ⟨Nat.le_refl _, fun h => by cases h⟩
  | handle => exact ⟨Nat.le_succ_of_le hq.1, hq.2⟩
  | save | leave => trivial
  | quiet => exact hq

theorem Tally.deed (ht : Tally b q) (h : Deed log b q q' b') : Tally b' q' where
  alone := h.alone ht.alone
  times i := by
    have htimes := ht.times i
    have halone := ht.alone
    cases h with
    | load =>
      change b.times i + b.saves + 1 + 0 ≤ b.begun + 1 + b.jumps.length + b.isPast i
      simp only [Place.owes, Place.jumped] at htimes
      omega
    | turn =>
      simp only [Place.owes, Place.jumped] at htimes ⊢
      split <;> omega
    | jump =>
      simp only [Place.owes, Place.jumped] at htimes
      simp only [Place.owes, Place.jumped, Book.jump, List.length_append, List.length_singleton]
      change b.times i + b.saves + (if _ then 0 else 1) + 1 ≤ b.begun + _ + b.isPast i
      split <;> omega
    | @handle base next e todo jumped =>
      have hbase : base ≤ next := halone.1
      have hjumped : (Place.reading base (next + 1) todo jumped).jumped =
        (Place.reading base next (e :: todo) jumped).jumped := by cases jumped <;> rfl
      rw [times_handle, hjumped]
      simp only [Place.owes] at htimes ⊢
      change _ + b.saves + _ + _ ≤ b.begun + b.jumps.length + b.isPast i
      split at htimes <;> split <;> split <;> omega
    | @save base next jumped =>
      have hbase : base ≤ next := halone.1
      rw [isPast_save]
      change b.times i + (b.saves + 1) + 0 + 0 ≤ b.begun + b.jumps.length + _
      simp only [Place.owes] at htimes
      cases jumped with
      | false =>
        rw [isPast_of_saved (halone.2 rfl)] at htimes
        simp only [Place.jumped] at htimes
        split at htimes <;> split at htimes <;> split <;> omega
      | true =>
        have hpast := isPast_le b i
        simp only [Place.jumped] at htimes
        split at htimes <;> split <;> omega
    | quiet => exact htimes
    | leave =>
      simp only [Place.owes, Place.jumped]
      omega

end Repetition

end Lolipay.Async.Feeds
