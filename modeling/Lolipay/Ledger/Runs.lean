import Mathlib.Tactic.Common
import Mathlib.Data.List.Induction

namespace Lolipay.Ledger.Runs

variable {S A R : Type}

/-- A deterministic system driven from outside. The environment picks every
action; `admits` is all that it promises about its choice. -/
structure Machine (S A R : Type) where
  admits : S → A → Prop
  next : S → A → S
  out : S → A → R

structure Entry (S A R : Type) where
  pre : S
  act : A
  out : R
  post : S

def Machine.entry (m : Machine S A R) (s : S) (a : A) : Entry S A R :=
  ⟨s, a, m.out s a, m.next s a⟩

/-- Finite runs with their full history, oldest entry first. -/
inductive Run (m : Machine S A R) (s : S) : List (Entry S A R) → S → Prop
  | nil : Run m s [] s
  | snoc {tr : List (Entry S A R)} {u : S} (h : Run m s tr u) (a : A) (ha : m.admits u a) :
      Run m s (tr ++ [m.entry u a]) (m.next u a)

variable {m : Machine S A R} {s t u : S} {tr tr₁ tr₂ : List (Entry S A R)}

/-- What holds at the start and is kept by every admitted action holds at the end. -/
theorem Run.invariant {I : S → Prop} (h : Run m s tr t) (hs : I s)
    (hstep : ∀ u a, I u → m.admits u a → I (m.next u a)) : I t := by
  induction h with
  | nil => exact hs
  | snoc _ a ha ih => exact hstep _ a ih ha

theorem Run.trans (h : Run m s tr₁ u) (h' : Run m u tr₂ t) : Run m s (tr₁ ++ tr₂) t := by
  induction h' with
  | nil => simpa using h
  | snoc _ a ha ih => simpa only [List.append_assoc] using ih.snoc a ha

theorem Run.cons {a : A} (ha : m.admits s a) (h : Run m (m.next s a) tr t) :
    Run m s (m.entry s a :: tr) t :=
  (Run.nil.snoc a ha).trans h

theorem Run.split (h : Run m s tr t) (htr : tr = tr₁ ++ tr₂) :
    ∃ u, Run m s tr₁ u ∧ Run m u tr₂ t := by
  induction h generalizing tr₂ with
  | nil =>
    obtain ⟨rfl, rfl⟩ := List.append_eq_nil_iff.mp htr.symm
    exact ⟨s, .nil, .nil⟩
  | @snoc tr u h a ha ih =>
    obtain rfl | ⟨rest, e, rfl⟩ := List.eq_nil_or_concat tr₂
    · rw [List.append_nil] at htr
      subst htr
      exact ⟨_, h.snoc a ha, .nil⟩
    · rw [List.concat_eq_append, ← List.append_assoc] at htr
      obtain ⟨hrest, he⟩ := List.append_inj' htr rfl
      obtain ⟨v, hv, hv'⟩ := ih hrest
      refine ⟨v, hv, ?_⟩
      rw [List.concat_eq_append, ← he]
      exact hv'.snoc a ha

/-- One entry of a run was taken in a state that the run had reached, under
the environment's promise, and the rest of the run starts where it ended. -/
theorem Run.at_entry {e : Entry S A R} (h : Run m s (tr₁ ++ e :: tr₂) t) :
    Run m s tr₁ e.pre ∧ m.admits e.pre e.act ∧ e = m.entry e.pre e.act ∧ Run m e.post tr₂ t := by
  have htr : tr₁ ++ e :: tr₂ = (tr₁ ++ [e]) ++ tr₂ := by simp
  obtain ⟨u, hu, hu'⟩ := h.split htr
  generalize hl : tr₁ ++ [e] = l at hu
  cases hu with
  | nil => simp at hl
  | snoc hv a ha =>
    obtain ⟨rfl, he⟩ := List.append_inj' hl rfl
    obtain rfl : e = m.entry _ a := by simpa using he
    exact ⟨hv, ha, rfl, hu'⟩

theorem entry_out {e : Entry S A R} (he : e = m.entry e.pre e.act) :
    e.out = m.out e.pre e.act := by
  rw [he]
  rfl

theorem entry_post {e : Entry S A R} (he : e = m.entry e.pre e.act) :
    e.post = m.next e.pre e.act := by
  rw [he]
  rfl

theorem Run.from_entry {e : Entry S A R} (h : Run m s (tr₁ ++ e :: tr₂) t) :
    Run m e.pre (e :: tr₂) t := by
  obtain ⟨-, ha, he, hpost⟩ := h.at_entry
  rw [entry_post he] at hpost
  have hrest := Run.cons ha hpost
  rw [← he] at hrest
  exact hrest

theorem Run.of_mem {e : Entry S A R} (h : Run m s tr t) (he : e ∈ tr) :
    ∃ tr₁ tr₂, tr = tr₁ ++ e :: tr₂ ∧ Run m s tr₁ e.pre ∧ m.admits e.pre e.act ∧
      e = m.entry e.pre e.act ∧ Run m e.post tr₂ t := by
  obtain ⟨tr₁, tr₂, rfl⟩ := List.append_of_mem he
  exact ⟨tr₁, tr₂, rfl, h.at_entry⟩

def Visits (tr : List (Entry S A R)) (u : S) : Prop := ∃ e ∈ tr, u = e.pre ∨ u = e.post

theorem Run.reaches (h : Run m s tr t) (hu : Visits tr u) : ∃ tr', Run m s tr' u := by
  obtain ⟨e, he, hu⟩ := hu
  obtain ⟨tr₁, -, -, hpre, ha, hentry, -⟩ := h.of_mem he
  obtain rfl | rfl := hu
  · exact ⟨tr₁, hpre⟩
  · rw [entry_post hentry]
    exact ⟨_, hpre.snoc e.act ha⟩

/-- An observation that some actions leave alone, and that the others update
by itself, is determined by the latter. -/
theorem Run.observe {C : Type} (c : S → C) (g : C → A → C) (silent : A → Bool)
    (h : Run m s tr t)
    (hs : ∀ e ∈ tr, c e.post = if silent e.act then c e.pre else g (c e.pre) e.act) :
    c t = ((tr.map fun e => e.act).filter fun a => !silent a).foldl g (c s) := by
  induction h with
  | nil => rfl
  | @snoc tr u h a ha ih =>
    have hlast := hs (m.entry u a) (by simp)
    rw [List.map_append, List.filter_append, List.foldl_append,
      ← ih fun e he => hs e (List.mem_append_left _ he)]
    cases hsil : silent a with
    | false => simpa [Machine.entry, hsil] using hlast
    | true => simpa [Machine.entry, hsil] using hlast

def final (m : Machine S A R) : S → List A → S
  | s, [] => s
  | s, a :: as => final m (m.next s a) as

def history (m : Machine S A R) : S → List A → List (Entry S A R)
  | _, [] => []
  | s, a :: as => m.entry s a :: history m (m.next s a) as

def Admitted (m : Machine S A R) : S → List A → Prop
  | _, [] => True
  | s, a :: as => m.admits s a ∧ Admitted m (m.next s a) as

instance decidableAdmitted [∀ s a, Decidable (m.admits s a)] (s : S) :
    (as : List A) → Decidable (Admitted m s as)
  | [] => .isTrue trivial
  | a :: as =>
    let _ : Decidable (Admitted m (m.next s a) as) := decidableAdmitted _ as
    inferInstanceAs (Decidable (m.admits s a ∧ Admitted m (m.next s a) as))

theorem Run.of_actions (as : List A) (s : S) (h : Admitted m s as) :
    Run m s (history m s as) (final m s as) := by
  induction as generalizing s with
  | nil => exact .nil
  | cons a as ih => exact Run.cons h.1 (ih _ h.2)

theorem Admitted.append {as bs : List A} (h : Admitted m s as)
    (h' : Admitted m (final m s as) bs) : Admitted m s (as ++ bs) := by
  induction as generalizing s with
  | nil => exact h'
  | cons a as ih => exact ⟨h.1, ih h.2 h'⟩

theorem Admitted.of_append {as bs : List A} (h : Admitted m s (as ++ bs)) :
    Admitted m s as ∧ Admitted m (final m s as) bs := by
  induction as generalizing s with
  | nil => exact ⟨trivial, h⟩
  | cons a as ih => exact ⟨⟨h.1, (ih h.2).1⟩, (ih h.2).2⟩

theorem act_of_history {e : Entry S A R} {as : List A} (he : e ∈ history m s as) : e.act ∈ as := by
  induction as generalizing s with
  | nil => simp [history] at he
  | cons a as ih =>
    obtain rfl | he := List.mem_cons.mp he
    · exact List.mem_cons_self
    · exact List.mem_cons_of_mem a (ih he)

theorem history_meets {ok : S → A → Prop} (as : List A) (s : S)
    (h : Admitted { m with admits := ok } s as) : ∀ e ∈ history m s as, ok e.pre e.act := by
  induction as generalizing s with
  | nil => simp [history]
  | cons a as ih =>
    intro e he
    obtain rfl | he := List.mem_cons.mp he
    · exact h.1
    · exact ih _ h.2 e he

theorem Run.narrow {ok : S → A → Prop} (h : Run m s tr t) (hok : ∀ e ∈ tr, ok e.pre e.act) :
    Run { m with admits := fun u a => m.admits u a ∧ ok u a } s tr t := by
  induction h with
  | nil => exact .nil
  | @snoc tr u h a ha ih =>
    have hlast : ok u a := hok (m.entry u a) (by simp)
    exact (ih fun e he => hok e (List.mem_append_left _ he)).snoc a ⟨ha, hlast⟩

variable {S' A' R' : Type} {m' : Machine S' A' R'}

/-- A machine that answers every action of another one with one action of its
own, through a map of the states, follows all of its runs. -/
theorem Run.project (f : S → S') (g : S → A → A') {I : S → Prop} (h : Run m s tr t) (hs : I s)
    (hstep : ∀ u a, I u → m.admits u a → I (m.next u a))
    (hsim : ∀ u a, I u → m.admits u a →
      m'.admits (f u) (g u a) ∧ m'.next (f u) (g u a) = f (m.next u a)) :
    Run m' (f s) (tr.map fun e => m'.entry (f e.pre) (g e.pre e.act)) (f t) := by
  induction h with
  | nil => exact .nil
  | @snoc tr u h a ha ih =>
    obtain ⟨hadm, hnext⟩ := hsim u a (h.invariant hs hstep) ha
    rw [List.map_append, ← hnext]
    exact ih.snoc (g u a) hadm

end Lolipay.Ledger.Runs
