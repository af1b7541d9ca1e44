import Lolipay.Ledger.Runs
import Lolipay.Async.Process

namespace Lolipay.Async.Scheduling

open Lolipay.Ledger.Runs Lolipay.Async.Process

variable {C O A E S : Type} {R : E → Type}

abbrev Pid := ℕ

/-- What the processes of a pool share, and the rest of each that runs. -/
structure Pool (E : Type) (R : E → Type) (S : Type) where
  shared : S
  running : Pid → Option (Program E R Unit)

/-- Calls start processes, any of them may do its next effect with a reply that
the environment has a say in, any may die, and the world around them moves. -/
inductive Act (C O A : Type) where
  | spawn (pid : Pid) (call : C)
  | go (pid : Pid) (choice : O)
  | kill (pid : Pid)
  | outside (a : A)

/-- How a pool behaves: the processes behind the calls, the effects, what is
left of a process that dies, and the moves of the world. -/
structure System (C O A E : Type) (R : E → Type) (S : Type) where
  body : C → Program E R Unit
  delivers : S → C → Prop
  permits : Pid → (e : E) → O → S → Prop
  effect : Pid → (e : E) → O → S → S × R e
  dies : Pid → S → S
  moves : S → A → Prop
  moved : S → A → S

variable (y : System C O A E R S)

def setRunning (running : Pid → Option (Program E R Unit)) (pid : Pid)
    (p : Option (Program E R Unit)) : Pid → Option (Program E R Unit) :=
  fun q => if q = pid then p else running q

def admits (w : Pool E R S) : Act C O A → Prop
  | .spawn pid call => w.running pid = none ∧ y.delivers w.shared call
  | .go pid choice =>
    match w.running pid with
    | some (.step e _) => y.permits pid e choice w.shared
    | _ => False
  | .kill _ => True
  | .outside a => y.moves w.shared a

instance [∀ s c, Decidable (y.delivers s c)] [∀ pid e o s, Decidable (y.permits pid e o s)]
    [∀ s a, Decidable (y.moves s a)] (w : Pool E R S) : (a : Act C O A) → Decidable (admits y w a)
  | .spawn pid call =>
    inferInstanceAs (Decidable (w.running pid = none ∧ y.delivers w.shared call))
  | .go pid choice =>
    match h : w.running pid with
    | some (.step e _) =>
      decidable_of_iff (y.permits pid e choice w.shared) (by simp only [admits, h])
    | some (.pure _) => .isFalse (by simp [admits, h])
    | some .fail => .isFalse (by simp [admits, h])
    | none => .isFalse (by simp [admits, h])
  | .kill _ => .isTrue trivial
  | .outside a => inferInstanceAs (Decidable (y.moves w.shared a))

def next (w : Pool E R S) : Act C O A → Pool E R S
  | .spawn pid call => ⟨w.shared, setRunning w.running pid (some (y.body call))⟩
  | .go pid choice =>
    match w.running pid with
    | some (.step e k) =>
      ⟨(y.effect pid e choice w.shared).1,
        setRunning w.running pid (some (k (y.effect pid e choice w.shared).2))⟩
    | _ => w
  | .kill pid => ⟨y.dies pid w.shared, setRunning w.running pid none⟩
  | .outside a => ⟨y.moved w.shared a, w.running⟩

/-- The machine announces the effect that a step does, and who does it. -/
def machine : Machine (Pool E R S) (Act C O A) (Option (Pid × E)) where
  admits := admits y
  next := next y
  out w
    | .go pid _ =>
      match w.running pid with
      | some (.step e _) => some (pid, e)
      | _ => none
    | _ => none

instance [∀ w a, Decidable (admits y w a)] (w : Pool E R S) (a : Act C O A) :
    Decidable ((machine y).admits w a) :=
  inferInstanceAs (Decidable (admits y w a))

/-- What one step of the pool can do to the shared state, with what it announces. -/
inductive Step (s : S) : Option (Pid × E) → S → Prop
  | same : Step s none s
  | effect (pid : Pid) (e : E) (o : O) (h : y.permits pid e o s) :
      Step s (some (pid, e)) (y.effect pid e o s).1
  | dies (pid : Pid) : Step s none (y.dies pid s)
  | moved (a : A) (h : y.moves s a) : Step s none (y.moved s a)

variable {y} {w w' : Pool E R S} {a : Act C O A}

theorem go_cases {pid : Pid} {o : O} (ha : (machine y).admits w (.go pid o)) :
    ∃ e k, w.running pid = some (.step e k) ∧ y.permits pid e o w.shared ∧
      (machine y).out w (.go pid o) = some (pid, e) ∧
      ((machine y).next w (.go pid o)).shared = (y.effect pid e o w.shared).1 := by
  simp only [machine, admits] at ha
  split at ha
  next e k h => exact ⟨e, k, h, ha, by simp only [machine, h], by simp only [machine, next, h]⟩
  next => cases ha

theorem of_out {pid : Pid} {e : E} (h : (machine y).out w a = some (pid, e)) :
    ∃ o k, a = .go pid o ∧ w.running pid = some (.step e k) := by
  cases a with
  | go q o =>
    simp only [machine] at h
    split at h
    next e' k hrun =>
      obtain ⟨rfl, rfl⟩ := Prod.mk.inj (Option.some.inj h)
      exact ⟨o, k, rfl, hrun⟩
    next => cases h
  | spawn | kill | outside => cases h

theorem step_of_next (ha : (machine y).admits w a) :
    Step y w.shared ((machine y).out w a) ((machine y).next w a).shared := by
  cases a with
  | spawn pid call => exact .same
  | go pid choice =>
    obtain ⟨e, k, -, hp, hout, hnext⟩ := go_cases ha
    rw [hout, hnext]
    exact .effect pid e choice hp
  | kill pid => exact .dies pid
  | outside a => exact .moved a ha

def does (y : System C O A E R S) (pid : Pid) (e : E) (s : S) (r : R e) (t : S) : Prop :=
  ∃ o, y.permits pid e o s ∧ y.effect pid e o s = (t, r)

/-- A protocol for the processes of a pool. What one guarantees, the others
rely on; deaths and the world keep to what everybody relies on. -/
structure Protocol (y : System C O A E R S) where
  rely : Pid → S → S → Prop
  guar : Pid → S → S → Prop
  inv : S → Prop
  refl : ∀ pid s, rely pid s s
  trans : ∀ pid {s t u}, rely pid s t → rely pid t u → rely pid s u
  shares : ∀ pid q {s t}, pid ≠ q → inv s → guar pid s t → rely q s t
  dies : ∀ pid s, inv s → inv (y.dies pid s) ∧ ∀ q, pid ≠ q → rely q s (y.dies pid s)
  moved : ∀ s a, inv s → y.moves s a → inv (y.moved s a) ∧ ∀ q, rely q s (y.moved s a)

/-- The protocol as one process sees it. -/
def Protocol.of (d : Protocol y) (pid : Pid) : Discipline E R S :=
  ⟨does y pid, d.rely pid, d.guar pid, d.inv⟩

variable (d : Protocol y)

/-- To be safe, a process accounts for its next effect in every state that the
others may have brought about. -/
theorem safe_step {α : Type} {Q : α → S → Prop} {pid : Pid} {e : E} {k : R e → Program E R α} {s : S}
    (h : ∀ t o, d.rely pid s t → d.inv t → y.permits pid e o t →
      d.guar pid t (y.effect pid e o t).1 ∧ d.inv (y.effect pid e o t).1 ∧
        Safe (d.of pid) Q (k (y.effect pid e o t).2) (y.effect pid e o t).1) :
    Safe (d.of pid) Q (.step e k) s := by
  rintro t hst ht r u ⟨o, hp, heq⟩
  obtain ⟨hguar, hinv, hk⟩ := h t o hst ht hp
  rw [heq] at hguar hinv hk
  exact ⟨hguar, hinv, hk⟩

theorem safe_quiet {α : Type} {Q : α → S → Prop} {pid : Pid} {e : E} {k : R e → Program E R α} {s : S}
    (hguar : ∀ t, d.guar pid t t) (hq : ∀ o t, (y.effect pid e o t).1 = t)
    (hk : ∀ t o, d.rely pid s t → d.inv t → Safe (d.of pid) Q (k (y.effect pid e o t).2) t) :
    Safe (d.of pid) Q (.step e k) s := by
  apply safe_step
  intro t o hst ht _
  rw [hq o t]
  exact ⟨hguar t, ht, hk t o hst ht⟩

theorem safe_last {α : Type} {Q : α → S → Prop} {pid : Pid} {e : E} {k : R e → Program E R α} {s : S}
    (hk : ∀ r t, Safe (d.of pid) Q (k r) t)
    (h : ∀ t o, d.rely pid s t → d.inv t →
      d.guar pid t (y.effect pid e o t).1 ∧ d.inv (y.effect pid e o t).1) :
    Safe (d.of pid) Q (.step e k) s := by
  apply safe_step
  intro t o hst ht _
  obtain ⟨hguar, hinv⟩ := h t o hst ht
  exact ⟨hguar, hinv, hk _ _⟩

theorem safe_failAfter {α : Type} {Q : α → S → Prop} {pid : Pid} {e : E} {s : S}
    (h : ∀ t o, d.rely pid s t → d.inv t →
      d.guar pid t (y.effect pid e o t).1 ∧ d.inv (y.effect pid e o t).1) :
    Safe (d.of pid) Q (failAfter e) s :=
  safe_last d (fun _ _ => trivial) h

/-- A process is safe when each of its effects is, wherever it comes to it. -/
theorem safe_every {α : Type} {P : E → Prop} {pid : Pid} {p : Program E R α}
    (heffect : ∀ e, P e → ∀ t o, d.inv t → y.permits pid e o t →
      d.guar pid t (y.effect pid e o t).1 ∧ d.inv (y.effect pid e o t).1)
    (hp : Every P p) (s : S) : Safe (d.of pid) (fun _ _ => True) p s := by
  induction p generalizing s with
  | pure a =>
    intro _ _ _
    trivial
  | fail => trivial
  | step e k ih =>
    apply safe_step
    intro t o _ ht hperm
    obtain ⟨hguar, hinv⟩ := heffect e hp.1 t o ht hperm
    exact ⟨hguar, hinv, ih _ (hp.2 _) _⟩

def Orderly (w : Pool E R S) : Prop :=
  d.inv w.shared ∧ ∀ pid p, w.running pid = some p → Safe (d.of pid) (fun _ _ => True) p w.shared

variable {d}

theorem Orderly.step (hbody : ∀ pid c s, d.inv s → y.delivers s c →
      Safe (d.of pid) (fun _ _ => True) (y.body c) s)
    (h : Orderly d w) (ha : admits y w a) : Orderly d (next y w a) := by
  obtain ⟨hinv, hsafe⟩ := h
  -- A process that does not move keeps its safety along what it relies on.
  have hothers (q : Pid) (p : Program E R Unit) (s : S) (hp : w.running q = some p)
      (hr : d.rely q w.shared s) : Safe (d.of q) (fun _ _ => True) p s :=
    (hsafe q p hp).stable (d.trans q) hr
  cases a with
  | spawn pid call =>
    refine ⟨hinv, fun q p hp => ?_⟩
    simp only [next, setRunning] at hp
    split at hp
    next hq =>
      obtain rfl := Option.some.inj hp
      exact hbody q call _ hinv ha.2
    next => exact hsafe q p hp
  | go pid choice =>
    simp only [admits] at ha
    split at ha
    next e k h =>
      obtain ⟨hguar, hinv', hk⟩ := hsafe pid _ h _ (d.refl pid _) hinv _ _ ⟨choice, ha, rfl⟩
      simp only [next, h]
      refine ⟨hinv', fun q p hp => ?_⟩
      simp only [setRunning] at hp
      split at hp
      next hq =>
        obtain rfl := Option.some.inj hp
        subst hq
        exact hk
      next hq => exact hothers q p _ hp (d.shares pid q (Ne.symm hq) hinv hguar)
    next => cases ha
  | kill pid =>
    obtain ⟨hinv', hrely⟩ := d.dies pid _ hinv
    refine ⟨hinv', fun q p hp => ?_⟩
    simp only [next, setRunning] at hp
    split at hp
    next => cases hp
    next hq => exact hothers q p _ hp (hrely q (Ne.symm hq))
  | outside a =>
    obtain ⟨hinv', hrely⟩ := d.moved _ a hinv ha
    exact ⟨hinv', fun q p hp => hothers q p _ hp (hrely q)⟩

/-- A pool of safe processes keeps its invariant along every run. -/
theorem run_orderly {tr} (hbody : ∀ pid c s, d.inv s → y.delivers s c →
      Safe (d.of pid) (fun _ _ => True) (y.body c) s)
    (hr : Run (machine y) w tr w') (hw : Orderly d w) : Orderly d w' :=
  hr.invariant hw fun _ _ h ha => h.step hbody ha

def idle (s : S) : Pool E R S := ⟨s, fun _ => none⟩

theorem Orderly.idle {s : S} (hs : d.inv s) : Orderly d (Scheduling.idle s) :=
  ⟨hs, fun _ _ hp => by cases hp⟩

theorem Orderly.guar {pid : Pid} {o : O} {e : E} {k : R e → Program E R Unit}
    (h : Orderly d w) (hp : w.running pid = some (.step e k)) (ha : admits y w (.go pid o)) :
    d.guar pid w.shared (next y w (.go pid o)).shared := by
  simp only [admits, hp] at ha
  obtain ⟨hguar, -, -⟩ := h.2 pid _ hp _ (d.refl pid _) h.1 _ _ ⟨o, ha, rfl⟩
  simp only [next, hp]
  exact hguar

def Act.subject : Act C O A → Option Pid
  | .spawn pid _ | .go pid _ | .kill pid => some pid
  | .outside _ => none

theorem running_next {pid : Pid} (h : a.subject ≠ some pid) :
    (next y w a).running pid = w.running pid := by
  cases a with
  | spawn q call =>
    have hq : pid ≠ q := fun hpid => h (congrArg some hpid.symm)
    simp [next, setRunning, hq]
  | go q o =>
    have hq : pid ≠ q := fun hpid => h (congrArg some hpid.symm)
    simp only [next]
    split
    next => simp [setRunning, hq]
    next => rfl
  | kill q =>
    have hq : pid ≠ q := fun hpid => h (congrArg some hpid.symm)
    simp [next, setRunning, hq]
  | outside => rfl

theorem running_final {T : Type} {m : Machine (Pool E R S) (Act C O A) T} (hm : m.next = next y)
    {pid : Pid} (as : List (Act C O A)) (h : ∀ a ∈ as, a.subject ≠ some pid) :
    (final m w as).running pid = w.running pid := by
  induction as generalizing w with
  | nil => rfl
  | cons a as ih =>
    have hrest := ih (w := m.next w a) fun b hb => h b (List.mem_cons_of_mem _ hb)
    rw [final, hrest, hm]
    exact running_next (h a List.mem_cons_self)

/-- A process that runs was started by a call, and never comes to anything that
is not in it. -/
theorem spawned_every {P : C → E → Prop} {s : S} {tr}
    (hbody : ∀ t c, y.delivers t c → Every (P c) (y.body c))
    (hr : Run (machine y) (idle s) tr w) {pid : Pid} {p : Program E R Unit}
    (hp : w.running pid = some p) :
    ∃ c, (∃ e ∈ tr, e.act = .spawn pid c) ∧ Every (P c) p := by
  induction hr generalizing pid p with
  | nil => cases hp
  | @snoc tr u _ a ha ih =>
    have hold {pid : Pid} {p : Program E R Unit} (hp : u.running pid = some p) :
        ∃ c, (∃ e ∈ tr ++ [(machine y).entry u a], e.act = .spawn pid c) ∧ Every (P c) p := by
      obtain ⟨c, ⟨e, he, hact⟩, hevery⟩ := ih hp
      exact ⟨c, ⟨e, List.mem_append_left _ he, hact⟩, hevery⟩
    cases a with
    | spawn q call =>
      simp only [machine, next, setRunning] at hp
      split at hp
      next heq =>
        obtain rfl := Option.some.inj hp
        subst heq
        exact ⟨call, ⟨_, List.mem_append_right _ (List.mem_singleton_self _), rfl⟩, hbody _ _ ha.2⟩
      next => exact hold hp
    | go q o =>
      simp only [machine, next] at hp
      split at hp
      next e k hrun =>
        simp only [setRunning] at hp
        split at hp
        next heq =>
          obtain rfl := Option.some.inj hp
          subst heq
          obtain ⟨c, hspawn, hevery⟩ := hold hrun
          exact ⟨c, hspawn, hevery.2 _⟩
        next => exact hold hp
      next => exact hold hp
    | kill q =>
      simp only [machine, next, setRunning] at hp
      split at hp
      next => cases hp
      next => exact hold hp
    | outside a => exact hold hp

/-- A condition on the effects and the outside moves of a step, which looks at
nothing but the shared state before it and the environment's choice. -/
def Heeds (okEffect : Pid → E → O → S → Prop) (okMove : S → A → Prop) (w : Pool E R S) :
    Act C O A → Prop
  | .go pid choice =>
    match w.running pid with
    | some (.step e _) => okEffect pid e choice w.shared
    | _ => True
  | .outside a => okMove w.shared a
  | _ => True

instance {okEffect : Pid → E → O → S → Prop} {okMove : S → A → Prop}
    [∀ pid e o s, Decidable (okEffect pid e o s)] [∀ s a, Decidable (okMove s a)]
    (w : Pool E R S) : (a : Act C O A) → Decidable (Heeds okEffect okMove w a)
  | .spawn _ _ => .isTrue trivial
  | .go pid o =>
    match h : w.running pid with
    | some (.step e _) => decidable_of_iff (okEffect pid e o w.shared) (by simp only [Heeds, h])
    | some (.pure _) => .isTrue (by simp [Heeds, h])
    | some .fail => .isTrue (by simp [Heeds, h])
    | none => .isTrue (by simp [Heeds, h])
  | .kill _ => .isTrue trivial
  | .outside a => inferInstanceAs (Decidable (okMove w.shared a))

def System.restrict (y : System C O A E R S) (okEffect : Pid → E → O → S → Prop)
    (okMove : S → A → Prop) : System C O A E R S :=
  { y with
    permits := fun pid e o s => y.permits pid e o s ∧ okEffect pid e o s
    moves := fun s a => y.moves s a ∧ okMove s a }

variable {okEffect : Pid → E → O → S → Prop} {okMove : S → A → Prop}

theorem admits_restrict (ha : admits y w a) (hok : Heeds okEffect okMove w a) :
    admits (y.restrict okEffect okMove) w a := by
  cases a with
  | spawn | kill => exact ha
  | outside a => exact ⟨ha, hok⟩
  | go pid o =>
    simp only [admits, Heeds] at ha hok ⊢
    split at ha
    next e k hrun =>
      simp only [hrun] at hok ⊢
      exact ⟨ha, hok⟩
    next => cases ha

/-- A protocol for the restricted system governs every run that heeds the condition. -/
theorem run_orderly_of_heeds {s : S} {tr} {d : Protocol (y.restrict okEffect okMove)}
    (hbody : ∀ pid c s, d.inv s → y.delivers s c →
      Safe (d.of pid) (fun _ _ => True) (y.body c) s)
    (hr : Run (machine y) (idle s) tr w) (hs : d.inv s)
    (hok : ∀ e ∈ tr, Heeds okEffect okMove e.pre e.act) : Orderly d w := by
  apply (hr.narrow hok).invariant (I := Orderly d) (.idle hs)
  rintro u a hu ⟨ha, hheeds⟩
  exact hu.step hbody (admits_restrict ha hheeds)

end Lolipay.Async.Scheduling
