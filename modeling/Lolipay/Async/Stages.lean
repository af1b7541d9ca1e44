import Lolipay.Async.Scheduling

namespace Lolipay.Async.Stages

open Lolipay.Ledger.Runs Lolipay.Async.Process Lolipay.Async.Scheduling

variable {C O A E S Q α β : Type} {R : E → Type}

/-- The stages that a process goes through: from which one it may do which
effect, and where it can be after the reply. -/
abbrev Itinerary (E : Type) (R : E → Type) (Q : Type) := Q → (e : E) → R e → Q → Prop

variable (m : Itinerary E R Q)

/-- Whatever the replies, the process keeps to the itinerary, and ends at a
stage as it should, also when it fails. -/
def Follows (returns : α → Q → Prop) (fails : Q → Prop) : Q → Program E R α → Prop
  | q, .pure a => returns a q
  | q, .fail => fails q
  | q, .step e k => ∀ r, ∃ q', m q e r q' ∧ Follows returns fails q' (k r)

variable {m} {returns : α → Q → Prop} {fails : Q → Prop} {p : Program E R α} {q : Q}

theorem Follows.bind {f : α → Program E R β} {returns' : β → Q → Prop}
    (h : Follows m returns fails q p)
    (hf : ∀ a q', returns a q' → Follows m returns' fails q' (f a)) :
    Follows m returns' fails q (p >>= f) := by
  induction p generalizing q with
  | pure a => exact hf a q h
  | fail => exact h
  | step e k ih =>
    intro r
    obtain ⟨q', hturn, hk⟩ := h r
    exact ⟨q', hturn, ih r hk⟩

theorem Follows.mono {returns' : α → Q → Prop} {fails' : Q → Prop}
    (h : Follows m returns fails q p) (hpure : ∀ a q', returns a q' → returns' a q')
    (hfail : ∀ q', fails q' → fails' q') : Follows m returns' fails' q p := by
  induction p generalizing q with
  | pure a => exact hpure a q h
  | fail => exact hfail q h
  | step e k ih =>
    intro r
    obtain ⟨q', hturn, hk⟩ := h r
    exact ⟨q', hturn, ih r hk⟩

/-- The end of a process starts where its work came to, by itself or by an
exception. -/
theorem Follows.ensuring {r : Program E R Unit} {returns' : α → Q → Prop} {fails' : Q → Prop}
    (h : Follows m returns fails q p)
    (hpure : ∀ a q', returns a q' → Follows m (fun _ => returns' a) fails' q' r)
    (hfail : ∀ q', fails q' → Follows m (fun _ => fails') fails' q' r) :
    Follows m returns' fails' q (p.ensuring r) := by
  induction p generalizing q with
  | pure a => exact (hpure a q h).bind fun _ _ hq => hq
  | fail => exact (hfail q h).bind fun _ _ hq => hq
  | step e k ih =>
    intro r
    obtain ⟨q', hturn, hk⟩ := h r
    exact ⟨q', hturn, ih r hk⟩

theorem Follows.caught {returns' : Option α → Q → Prop} {fails' : Q → Prop}
    (h : Follows m returns fails q p) (hpure : ∀ a q', returns a q' → returns' (some a) q')
    (hfail : ∀ q', fails q' → returns' none q') : Follows m returns' fails' q p.caught := by
  induction p generalizing q with
  | pure a => exact hpure a q h
  | fail => exact hfail q h
  | step e k ih =>
    intro r
    obtain ⟨q', hturn, hk⟩ := h r
    exact ⟨q', hturn, ih r hk⟩

theorem Follows.embed {F Q' : Type} {T : F → Type} {m' : Itinerary F T Q'} {f : E → F}
    {m : Itinerary E (fun e => T (f e)) Q} {p : Program E (fun e => T (f e)) α} {c : Q → Q'}
    (hm : ∀ q e r q', m q e r q' → m' (c q) (f e) r (c q'))
    (h : Follows m returns fails q p) :
    Follows m' (fun a q' => ∃ q, q' = c q ∧ returns a q) (fun q' => ∃ q, q' = c q ∧ fails q) (c q)
      (p.embed f) := by
  induction p generalizing q with
  | pure a => exact ⟨q, rfl, h⟩
  | fail => exact ⟨q, rfl, h⟩
  | step e k ih =>
    intro r
    obtain ⟨q', hturn, hk⟩ := h r
    exact ⟨c q', hm q e r q' hturn, ih _ hk⟩

theorem Follows.of_every (h : Every (fun e => ∀ r, m q e r q) p) :
    Follows m (fun _ q' => q' = q) (fun q' => q' = q) q p := by
  induction p with
  | pure a => rfl
  | fail => rfl
  | step e k ih =>
    intro r
    exact ⟨q, h.1 r, ih r (h.2 r)⟩

def place (stage : Pid → Q) (pid : Pid) (q : Q) : Pid → Q :=
  fun p => if p = pid then q else stage p

theorem place_self (stage : Pid → Q) (pid : Pid) (q : Q) : place stage pid q pid = q :=
  if_pos rfl

theorem place_other {stage : Pid → Q} {pid p : Pid} {q : Q} (h : p ≠ pid) :
    place stage pid q p = stage p :=
  if_neg h

theorem place_same {stage : Pid → Q} {pid : Pid} {q : Q} (h : stage pid = q) :
    place stage pid q = stage := by
  funext p
  by_cases hp : p = pid
  · subst hp
    rw [place_self, h]
  · exact place_other hp

theorem place_comp {Q' : Type} (f : Q → Q') (stage : Pid → Q) (pid : Pid) (q : Q) :
    (fun p => f (place stage pid q p)) = place (fun p => f (stage p)) pid (f q) := by
  funext p
  by_cases hp : p = pid <;> simp [place, hp]

theorem forall_place {P : Pid → Q → Prop} {stage : Pid → Q} {pid : Pid} {q : Q} (hown : P pid q)
    (hother : ∀ p ≠ pid, P p (stage p)) (p : Pid) : P p (place stage pid q p) := by
  by_cases hp : p = pid
  · subst hp
    rw [place_self]
    exact hown
  · rw [place_other hp]
    exact hother p hp

variable (m) {y : System C O A E R S}

/-- Everything that runs is at a stage from which it will end well, and what
does not run is at rest. -/
structure Underway (ends : Q → Prop) (rest : Q) (w : Pool E R S) (stage : Pid → Q) : Prop where
  follows : ∀ pid p, w.running pid = some p → Follows m (fun _ => ends) ends (stage pid) p
  atRest : ∀ pid, w.running pid = none → stage pid = rest

/-- What the steps of a pool owe to an invariant about the shared state and the
stages of the processes, which start with their calls and go to rest when they
die; `okSpawn` and `okKill` are the calls and the deaths of the runs that it is
about. -/
structure Maintains (y : System C O A E R S) (start : C → Q) (rest : Q)
    (okSpawn : Pid → C → Prop) (okKill : Pid → Prop) (I : S → (Pid → Q) → Prop) : Prop where
  spawn : ∀ s stage pid c, I s stage → stage pid = rest → okSpawn pid c →
    I s (place stage pid (start c))
  go : ∀ s stage pid e o q, I s stage → m (stage pid) e (y.effect pid e o s).2 q →
    y.permits pid e o s → I (y.effect pid e o s).1 (place stage pid q)
  dies : ∀ s stage pid, I s stage → okKill pid → I (y.dies pid s) (place stage pid rest)
  moved : ∀ s stage a, I s stage → y.moves s a → I (y.moved s a) stage

def Among (okSpawn : Pid → C → Prop) (okKill : Pid → Prop) : Act C O A → Prop
  | .spawn pid c => okSpawn pid c
  | .kill pid => okKill pid
  | _ => True

variable {m} {start : C → Q} {rest : Q} {okSpawn : Pid → C → Prop} {okKill : Pid → Prop}
  {I : S → (Pid → Q) → Prop} {ends : Q → Prop} {w : Pool E R S} {a : Act C O A} {stage : Pid → Q}

theorem Underway.set {pid : Pid} {s : S} {q : Q} {p : Option (Program E R Unit)}
    (h : Underway m ends rest w stage)
    (hsome : ∀ p', p = some p' → Follows m (fun _ => ends) ends q p')
    (hnone : p = none → q = rest) :
    Underway m ends rest ⟨s, setRunning w.running pid p⟩ (place stage pid q) where
  follows p' prog hrun := by
    simp only [setRunning] at hrun
    split at hrun
    next heq =>
      subst heq
      rw [place_self]
      exact hsome prog hrun
    next hne =>
      rw [place_other hne]
      exact h.follows p' prog hrun
  atRest p' hrun := by
    simp only [setRunning] at hrun
    split at hrun
    next heq =>
      subst heq
      rw [place_self]
      exact hnone hrun
    next hne =>
      rw [place_other hne]
      exact h.atRest p' hrun

theorem underway_step (hm : Maintains m y start rest okSpawn okKill I)
    (hbody : ∀ c, Follows m (fun _ => ends) ends (start c) (y.body c))
    (h : Underway m ends rest w stage) (hI : I w.shared stage) (ha : admits y w a)
    (hok : Among okSpawn okKill a) :
    ∃ stage', Underway m ends rest (next y w a) stage' ∧ I (next y w a).shared stage' := by
  cases a with
  | spawn pid c =>
    refine ⟨place stage pid (start c), ?_, hm.spawn _ _ pid c hI (h.atRest pid ha.1) hok⟩
    refine h.set (fun p hp => ?_) fun hp => by cases hp
    obtain rfl := Option.some.inj hp
    exact hbody c
  | go pid o =>
    simp only [admits] at ha
    split at ha
    next e k hrun =>
      obtain ⟨q, hturn, hk⟩ := h.follows pid _ hrun (y.effect pid e o w.shared).2
      simp only [next, hrun]
      refine ⟨place stage pid q, ?_, hm.go _ _ pid e o q hI hturn ha⟩
      refine h.set (fun p hp => ?_) fun hp => by cases hp
      obtain rfl := Option.some.inj hp
      exact hk
    next => cases ha
  | kill pid =>
    refine ⟨place stage pid rest, ?_, hm.dies _ _ pid hI hok⟩
    exact h.set (fun p hp => by cases hp) fun _ => rfl
  | outside a => exact ⟨stage, ⟨h.follows, h.atRest⟩, hm.moved _ _ a hI ha⟩

theorem Underway.run {w' : Pool E R S} {tr} (hm : Maintains m y start rest okSpawn okKill I)
    (hbody : ∀ c, Follows m (fun _ => ends) ends (start c) (y.body c))
    (hw : Underway m ends rest w stage) (hI : I w.shared stage) (hr : Run (machine y) w tr w')
    (hok : ∀ e ∈ tr, Among okSpawn okKill e.act) :
    ∃ stage, Underway m ends rest w' stage ∧ I w'.shared stage := by
  induction hr with
  | nil => exact ⟨stage, hw, hI⟩
  | snoc _ a ha ih =>
    obtain ⟨stage', hstage, hI⟩ := ih fun e he => hok e (List.mem_append_left _ he)
    exact underway_step hm hbody hstage hI ha
      (hok _ (List.mem_append_right _ (List.mem_singleton_self _)))

/-- An invariant about the shared state and the stages holds along every run. -/
theorem run_underway (hm : Maintains m y start rest okSpawn okKill I)
    (hbody : ∀ c, Follows m (fun _ => ends) ends (start c) (y.body c)) {s : S} {tr}
    (hr : Run (machine y) (idle s) tr w) (hs : I s fun _ => rest)
    (hok : ∀ e ∈ tr, Among okSpawn okKill e.act) :
    ∃ stage, Underway m ends rest w stage ∧ I w.shared stage := by
  induction hr with
  | nil => exact ⟨fun _ => rest, ⟨fun _ _ hp => (by cases hp), fun _ _ => rfl⟩, hs⟩
  | snoc _ a ha ih =>
    obtain ⟨stage, hstage, hI⟩ := ih fun e he => hok e (List.mem_append_left _ he)
    exact underway_step hm hbody hstage hI ha
      (hok _ (List.mem_append_right _ (List.mem_singleton_self _)))

end Lolipay.Async.Stages
