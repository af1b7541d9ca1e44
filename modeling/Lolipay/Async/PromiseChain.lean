import Lolipay.Async.Stages

namespace Lolipay.Async.PromiseChain

open Lolipay.Async.Scheduling Lolipay.Async.Stages

/-- A chain of promises: whoever joins puts a promise of its own behind the last
one, and waits for that one. The promises are numbered as they come, the first of
them is settled from the start; `begun` records who has come to its turn. -/
structure Chain where
  last : ℕ := 0
  settled : List ℕ := [0]
  begun : List ℕ := []
  deriving DecidableEq, Repr

def Chain.join (c : Chain) : Chain := { c with last := c.last + 1 }

def Chain.begin (c : Chain) (n : ℕ) : Chain := { c with begun := n :: c.begun }

def Chain.settle (c : Chain) (n : ℕ) : Chain := { c with settled := n :: c.settled }

inductive Place where
  | away
  | waiting (n : ℕ)
  | inTurn (n : ℕ)
  deriving DecidableEq, Repr

def Place.ticket : Place → Option ℕ
  | .away => none
  | .waiting n | .inTurn n => some n

def upTo : ℕ → List ℕ
  | 0 => []
  | n + 1 => (n + 1) :: upTo n

theorem mem_upTo {m n : ℕ} : m ∈ upTo n ↔ 1 ≤ m ∧ m ≤ n := by
  induction n with
  | zero =>
    simp only [upTo, List.not_mem_nil, false_iff]
    omega
  | succ n ih =>
    simp only [upTo, List.mem_cons, ih]
    omega

variable {c : Chain} {place : Pid → Place} {pid : Pid} {k n : ℕ}

/-- The promises are settled in their order, and a turn begins when the one before
it is over. -/
structure Sound (c : Chain) (place : Pid → Place) (k : ℕ) : Prop where
  settled : ∀ n, n ∈ c.settled ↔ n ≤ k
  le_last : k ≤ c.last
  begun : c.begun = upTo k ∨
    (c.begun = upTo (k + 1) ∧ k < c.last ∧ ∀ pid, place pid ≠ .waiting (k + 1))
  waiting : ∀ pid n, place pid = .waiting n → k < n ∧ n ≤ c.last
  inTurn : ∀ pid n, place pid = .inTurn n → n = k + 1 ∧ n ≤ c.last ∧ c.begun = upTo (k + 1)
  unique : ∀ p q n, (place p).ticket = some n → (place q).ticket = some n → p = q

theorem Sound.start : Sound {} (fun _ => .away) 0 where
  settled n := by simp
  le_last := Nat.le_refl 0
  begun := .inl rfl
  waiting _ _ h := by cases h
  inTurn _ _ h := by cases h
  unique _ _ _ h := by cases h

theorem Sound.ticket_le (h : Sound c place k) (hn : (place pid).ticket = some n) : k < n ∧ n ≤ c.last := by
  cases hp : place pid with
  | away =>
    rw [hp] at hn
    cases hn
  | waiting m =>
    rw [hp] at hn
    obtain rfl := Option.some.inj hn
    exact h.waiting pid m hp
  | inTurn m =>
    rw [hp] at hn
    obtain rfl := Option.some.inj hn
    obtain ⟨rfl, hle, -⟩ := h.inTurn pid m hp
    exact ⟨Nat.lt_succ_self k, hle⟩

/-- No two tickets are the same after one of the places has changed to a ticket
that nobody else has. -/
theorem unique_place {q : Place} (h : ∀ p q n, (place p).ticket = some n → (place q).ticket = some n → p = q)
    (hq : ∀ n, q.ticket = some n → ∀ p ≠ pid, (place p).ticket ≠ some n) (p p' : Pid) (n : ℕ)
    (hp : (Stages.place place pid q p).ticket = some n)
    (hp' : (Stages.place place pid q p').ticket = some n) : p = p' := by
  by_cases hpid : p = pid <;> by_cases hpid' : p' = pid
  · exact hpid.trans hpid'.symm
  · rw [hpid, place_self] at hp
    rw [place_other hpid'] at hp'
    exact absurd hp' (hq n hp p' hpid')
  · rw [hpid', place_self] at hp'
    rw [place_other hpid] at hp
    exact absurd hp (hq n hp' p hpid)
  · rw [place_other hpid] at hp
    rw [place_other hpid'] at hp'
    exact h p p' n hp hp'

theorem Sound.join (h : Sound c place k) :
    Sound c.join (Stages.place place pid (.waiting (c.last + 1))) k where
  settled := h.settled
  le_last := Nat.le_succ_of_le h.le_last
  begun := by
    obtain hbegun | ⟨hbegun, hlt, hnone⟩ := h.begun
    · exact .inl hbegun
    · refine .inr ⟨hbegun, Nat.lt_succ_of_lt hlt, ?_⟩
      refine forall_place (P := fun _ (q : Place) => q ≠ .waiting (k + 1)) (fun heq => ?_)
        fun p _ => hnone p
      have hlast := Place.waiting.inj heq
      omega
  waiting p m hm := by
    by_cases hp : p = pid
    · rw [hp, place_self] at hm
      obtain rfl := Place.waiting.inj hm
      exact ⟨Nat.lt_succ_of_le h.le_last, Nat.le_refl _⟩
    · rw [place_other hp] at hm
      obtain ⟨hlt, hle⟩ := h.waiting p m hm
      exact ⟨hlt, Nat.le_succ_of_le hle⟩
  inTurn p m hm := by
    by_cases hp : p = pid
    · rw [hp, place_self] at hm
      cases hm
    · rw [place_other hp] at hm
      obtain ⟨heq, hle, hbegun⟩ := h.inTurn p m hm
      exact ⟨heq, Nat.le_succ_of_le hle, hbegun⟩
  unique := by
    refine unique_place h.unique fun m hm p _ hsame => ?_
    obtain rfl := Option.some.inj hm
    have hle := (h.ticket_le hsame).2
    omega

theorem Sound.next (h : Sound c place k) (hpid : place pid = .waiting (n + 1)) (hn : n ∈ c.settled) :
    n = k ∧ c.begun = upTo k := by
  have hle := (h.settled n).mp hn
  have hlt := (h.waiting pid (n + 1) hpid).1
  obtain rfl : n = k := by omega
  obtain hbegun | ⟨-, -, hnone⟩ := h.begun
  · exact ⟨rfl, hbegun⟩
  · exact absurd hpid (hnone pid)

theorem Sound.begin (h : Sound c place k) (hpid : place pid = .waiting (n + 1)) (hn : n ∈ c.settled) :
    Sound (c.begin (n + 1)) (Stages.place place pid (.inTurn (n + 1))) k := by
  obtain ⟨rfl, hbegun⟩ := h.next hpid hn
  have hmine : (place pid).ticket = some (n + 1) := by rw [hpid]; rfl
  have hle := (h.waiting pid (n + 1) hpid).2
  have hupTo : (c.begin (n + 1)).begun = upTo (n + 1) := congrArg _ hbegun
  have hother (p : Pid) (hp : p ≠ pid) : (place p).ticket ≠ some (n + 1) :=
    fun hsame => hp (h.unique p pid _ hsame hmine)
  refine ⟨h.settled, h.le_last, .inr ⟨hupTo, hle, ?_⟩, fun p m hm => ?_, fun p m hm => ?_, ?_⟩
  · refine forall_place (P := fun _ (q : Place) => q ≠ .waiting (n + 1)) nofun fun p hp hsame => ?_
    exact hother p hp (congrArg Place.ticket hsame)
  · by_cases hp : p = pid
    · rw [hp, place_self] at hm
      cases hm
    · rw [place_other hp] at hm
      exact h.waiting p m hm
  · by_cases hp : p = pid
    · rw [hp, place_self] at hm
      obtain rfl := Place.inTurn.inj hm
      exact ⟨rfl, hle, hupTo⟩
    · rw [place_other hp] at hm
      obtain ⟨rfl, -, -⟩ := h.inTurn p m hm
      exact absurd (congrArg Place.ticket hm) (hother p hp)
  · refine unique_place h.unique fun m hm p hp => ?_
    obtain rfl := Option.some.inj hm
    exact hother p hp

theorem Sound.settle (h : Sound c place k) (hpid : place pid = .inTurn n) :
    Sound (c.settle n) (Stages.place place pid .away) (k + 1) := by
  obtain ⟨rfl, hle, hbegun⟩ := h.inTurn pid n hpid
  have hmine : (place pid).ticket = some (k + 1) := by rw [hpid]; rfl
  have hother (p : Pid) (hp : p ≠ pid) : (place p).ticket ≠ some (k + 1) :=
    fun hsame => hp (h.unique p pid _ hsame hmine)
  refine ⟨fun m => ?_, hle, .inl hbegun, fun p m hm => ?_, fun p m hm => ?_, ?_⟩
  · simp only [Chain.settle, List.mem_cons, h.settled]
    omega
  · by_cases hp : p = pid
    · rw [hp, place_self] at hm
      cases hm
    · rw [place_other hp] at hm
      obtain ⟨hlt, hlast⟩ := h.waiting p m hm
      have hne : m ≠ k + 1 := by
        rintro rfl
        exact hother p hp (congrArg Place.ticket hm)
      exact ⟨by omega, hlast⟩
  · by_cases hp : p = pid
    · rw [hp, place_self] at hm
      cases hm
    · rw [place_other hp] at hm
      obtain ⟨rfl, -, -⟩ := h.inTurn p m hm
      exact absurd (congrArg Place.ticket hm) (hother p hp)
  · exact unique_place h.unique fun m hm => by cases hm

theorem Sound.leave (h : Sound c place k) (pid : Pid) :
    Sound c (Stages.place place pid .away) k where
  settled := h.settled
  le_last := h.le_last
  begun := by
    obtain hbegun | ⟨hbegun, hlt, hnone⟩ := h.begun
    · exact .inl hbegun
    · refine .inr ⟨hbegun, hlt, ?_⟩
      exact forall_place (P := fun _ (q : Place) => q ≠ .waiting (k + 1)) nofun fun p _ => hnone p
  waiting p m hm := by
    by_cases hp : p = pid
    · rw [hp, place_self] at hm
      cases hm
    · rw [place_other hp] at hm
      exact h.waiting p m hm
  inTurn p m hm := by
    by_cases hp : p = pid
    · rw [hp, place_self] at hm
      cases hm
    · rw [place_other hp] at hm
      exact h.inTurn p m hm
  unique := unique_place h.unique fun m hm => by cases hm

/-- As long as nobody leaves, every promise that is not settled is somebody's. -/
def Owned (c : Chain) (place : Pid → Place) : Prop :=
  ∀ n, n ∉ c.settled → n ≤ c.last → ∃ pid, (place pid).ticket = some n

theorem Owned.start : Owned {} (fun _ => .away) := by
  intro n hn hle
  obtain rfl : n = 0 := Nat.le_zero.mp hle
  exact absurd List.mem_cons_self hn

theorem Owned.keep (h : Owned c place) {q : Place}
    (hq : ∀ n, (place pid).ticket = some n → q.ticket = some n) : Owned c (Stages.place place pid q) := by
  intro n hn hle
  obtain ⟨p, hp⟩ := h n hn hle
  by_cases hpid : p = pid
  · subst hpid
    exact ⟨p, by rw [place_self]; exact hq n hp⟩
  · exact ⟨p, by rw [place_other hpid]; exact hp⟩

theorem Owned.join (h : Owned c place) (hpid : place pid = .away) :
    Owned c.join (Stages.place place pid (.waiting (c.last + 1))) := by
  intro n hn hle
  obtain hle | rfl := Nat.le_succ_iff.mp hle
  · exact h.keep (fun m hm => by rw [hpid] at hm; cases hm) n hn hle
  · exact ⟨pid, by rw [place_self]; rfl⟩

theorem Owned.settle (h : Owned c place) (hpid : place pid = .inTurn n) :
    Owned (c.settle n) (Stages.place place pid .away) := by
  intro m hm hle
  obtain ⟨hne, hm⟩ := not_or.mp fun hor => hm (List.mem_cons.mpr hor)
  obtain ⟨p, hp⟩ := h m hm hle
  have hother : p ≠ pid := by
    rintro rfl
    rw [hpid] at hp
    exact hne (Option.some.inj hp).symm
  exact ⟨p, by rw [place_other hother]; exact hp⟩

/-- Then nobody waits for ever: somebody is in turn or can be. -/
theorem Owned.next (h : Owned c place) (hs : Sound c place k) (hk : k < c.last) :
    ∃ pid, place pid = .inTurn (k + 1) ∨ place pid = .waiting (k + 1) := by
  have hopen : k + 1 ∉ c.settled := fun hin => by
    have := (hs.settled (k + 1)).mp hin
    omega
  obtain ⟨pid, hpid⟩ := h (k + 1) hopen hk
  cases hp : place pid with
  | away =>
    rw [hp] at hpid
    cases hpid
  | waiting n =>
    rw [hp] at hpid
    obtain rfl := Option.some.inj hpid
    exact ⟨pid, .inr hp⟩
  | inTurn n =>
    rw [hp] at hpid
    obtain rfl := Option.some.inj hpid
    exact ⟨pid, .inl hp⟩

end Lolipay.Async.PromiseChain
