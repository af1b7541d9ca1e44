import Mathlib.Tactic.Common

namespace Lolipay.Async.Process

/-- A process that does one atomic effect at a time and picks the next one
from the reply. Between two effects the state that it shares with others may
change; `fail` is an exception that nobody catches. -/
inductive Program (E : Type) (R : E → Type) (α : Type) where
  | pure (a : α)
  | fail
  | step (e : E) (k : R e → Program E R α)

variable {E S α β : Type} {R : E → Type}

def Program.bind : Program E R α → (α → Program E R β) → Program E R β
  | .pure a, f => f a
  | .fail, _ => .fail
  | .step e k, f => .step e fun r => (k r).bind f

instance : Monad (Program E R) where
  pure := .pure
  bind := .bind

def issue (e : E) : Program E R (R e) := .step e .pure

/-- A check that throws. -/
def demand (ok : Bool) : Program E R Unit := if ok then .pure () else .fail

/-- An effect after which the process throws, as a rollback. -/
def failAfter (e : E) : Program E R α := .step e fun _ => .fail

/-- One effect whose failure ends the process. -/
def attempt (e : E) (get : R e → Option α) : Program E R α :=
  .step e fun r =>
    match get r with
    | some a => .pure a
    | none => .fail

/-- The same process in a place where there are more effects. -/
def Program.embed {F : Type} {T : F → Type} (f : E → F) :
    Program E (fun e => T (f e)) α → Program F T α
  | .pure a => .pure a
  | .fail => .fail
  | .step e k => .step (f e) fun r => (k r).embed f

/-- A process with an end that is done however it ends, like `finally`. -/
def Program.ensuring : Program E R α → Program E R Unit → Program E R α
  | .pure a, q => q.bind fun _ => .pure a
  | .fail, q => q.bind fun _ => .fail
  | .step e k, q => .step e fun r => (k r).ensuring q

/-- A process whose exception somebody catches. -/
def Program.caught : Program E R α → Program E R (Option α)
  | .pure a => .pure (some a)
  | .fail => .pure none
  | .step e k => .step e fun r => (k r).caught

/-- The same process when it ends at certain effects: they throw, or nobody is
left to do them. -/
def Program.cutAt (ends : E → Bool) : Program E R α → Program E R α
  | .pure a => .pure a
  | .fail => .fail
  | .step e k => if ends e then .fail else .step e fun r => (k r).cutAt ends

theorem cutAt_step {ends : E → Bool} {e : E} (he : ends e = false) (k : R e → Program E R α) :
    (Program.step e k).cutAt ends = .step e fun r => (k r).cutAt ends :=
  if_neg (by simp [he])

theorem cutAt_ends {ends : E → Bool} {e : E} (he : ends e = true) (k : R e → Program E R α) :
    (Program.step e k).cutAt ends = .fail :=
  if_pos he

theorem cutAt_bind (ends : E → Bool) (p : Program E R α) (f : α → Program E R β) :
    (p >>= f).cutAt ends = p.cutAt ends >>= fun a => (f a).cutAt ends := by
  induction p with
  | pure a => rfl
  | fail => rfl
  | step e k ih =>
    cases he : ends e with
    | true => exact (cutAt_ends he _).trans (by rw [cutAt_ends he]; rfl)
    | false =>
      rw [cutAt_step he]
      exact (cutAt_step he _).trans (congrArg (Program.step e) (funext ih))

theorem cutAt_embed {F : Type} {T : F → Type} (f : E → F) (ends : F → Bool)
    (p : Program E (fun e => T (f e)) α) :
    (p.embed f).cutAt ends = (p.cutAt fun e => ends (f e)).embed f := by
  induction p with
  | pure | fail => rfl
  | step e k ih =>
    simp only [Program.embed, Program.cutAt, ih]
    split <;> rfl

/-- What a process that nobody interrupts leaves behind. -/
def alone (effect : (e : E) → S → S × R e) : Program E R α → S → S
  | .pure _, s => s
  | .fail, s => s
  | .step e k, s => alone effect (k (effect e s).2) (effect e s).1

/-- A process that nobody interrupts: the effects that it does, in order, the
state that it leaves, and its result unless it fails. -/
def complete (effect : (e : E) → S → S × R e) : Program E R α → S → List E × S × Option α
  | .pure a, s => ([], s, some a)
  | .fail, s => ([], s, none)
  | .step e k, s =>
    (e :: (complete effect (k (effect e s).2) (effect e s).1).1,
      (complete effect (k (effect e s).2) (effect e s).1).2)

theorem complete_bind {effect : (e : E) → S → S × R e} {p : Program E R α}
    {f : α → Program E R β} {s t : S} {es : List E} {a : α}
    (h : complete effect p s = (es, t, some a)) :
    complete effect (p >>= f) s =
      (es ++ (complete effect (f a) t).1, (complete effect (f a) t).2) := by
  induction p generalizing s es with
  | pure b =>
    simp only [complete, Prod.mk.injEq, Option.some.injEq] at h
    obtain ⟨rfl, rfl, rfl⟩ := h
    rfl
  | fail => simp [complete] at h
  | step e k ih =>
    simp only [complete, Prod.mk.injEq] at h
    obtain ⟨rfl, h⟩ := h
    have hk := ih (effect e s).2 (Prod.ext rfl h)
    change complete effect (.step e fun r => k r >>= f) s = _
    simp only [complete, hk, List.cons_append]

theorem complete_bind_fail {effect : (e : E) → S → S × R e} {p : Program E R α}
    {f : α → Program E R β} {s t : S} {es : List E} (h : complete effect p s = (es, t, none)) :
    complete effect (p >>= f) s = (es, t, none) := by
  induction p generalizing s es with
  | pure b => simp [complete] at h
  | fail =>
    simp only [complete, Prod.mk.injEq, and_true] at h
    obtain ⟨rfl, rfl⟩ := h
    rfl
  | step e k ih =>
    simp only [complete, Prod.mk.injEq] at h
    obtain ⟨rfl, h⟩ := h
    have hk := ih (effect e s).2 (Prod.ext rfl h)
    change complete effect (.step e fun r => k r >>= f) s = _
    simp only [complete, hk]

def Every (P : E → Prop) : Program E R α → Prop
  | .pure _ => True
  | .fail => True
  | .step e k => P e ∧ ∀ r, Every P (k r)

theorem Every.bind {P : E → Prop} {p : Program E R α} {f : α → Program E R β} (hp : Every P p)
    (hf : ∀ a, Every P (f a)) : Every P (p >>= f) := by
  induction p with
  | pure a => exact hf a
  | fail => trivial
  | step e k ih => exact ⟨hp.1, fun r => ih r (hp.2 r)⟩

theorem every_one {P : E → Prop} {e : E} (h : P e) : Every P (issue e : Program E R (R e)) :=
  ⟨h, fun _ => trivial⟩

theorem every_issue {P : E → Prop} {e : E} {k : R e → Program E R α} (h : P e)
    (hk : ∀ r, Every P (k r)) : Every P (issue e >>= k) :=
  ⟨h, hk⟩

theorem every_demand {P : E → Prop} (ok : Bool) : Every P (demand ok : Program E R Unit) := by
  cases ok <;> trivial

theorem every_failAfter {P : E → Prop} {e : E} (h : P e) :
    Every P (failAfter e : Program E R α) :=
  ⟨h, fun _ => trivial⟩

theorem Every.mono {P P' : E → Prop} {p : Program E R α} (hp : Every P p)
    (h : ∀ e, P e → P' e) : Every P' p := by
  induction p with
  | pure a => trivial
  | fail => trivial
  | step e k ih => exact ⟨h e hp.1, fun r => ih r (hp.2 r)⟩

theorem Every.of_forall {P : E → Prop} (h : ∀ e, P e) (p : Program E R α) : Every P p := by
  induction p with
  | pure a => trivial
  | fail => trivial
  | step e k ih => exact ⟨h e, ih⟩

theorem Every.embed {F : Type} {T : F → Type} {P : F → Prop} {f : E → F}
    {p : Program E (fun e => T (f e)) α} (hp : Every (fun e => P (f e)) p) :
    Every P (p.embed f) := by
  induction p with
  | pure a => trivial
  | fail => trivial
  | step e k ih => exact ⟨hp.1, fun r => ih _ (hp.2 _)⟩

theorem Every.ensuring {P : E → Prop} {p : Program E R α} {q : Program E R Unit} (hp : Every P p)
    (hq : Every P q) : Every P (p.ensuring q) := by
  induction p with
  | pure a => exact hq.bind fun _ => trivial
  | fail => exact hq.bind fun _ => trivial
  | step e k ih => exact ⟨hp.1, fun r => ih r (hp.2 r)⟩

theorem Every.caught {P : E → Prop} {p : Program E R α} (hp : Every P p) : Every P p.caught := by
  induction p with
  | pure a => trivial
  | fail => trivial
  | step e k ih => exact ⟨hp.1, fun r => ih r (hp.2 r)⟩

theorem Every.cutAt {P : E → Prop} {p : Program E R α} (hp : Every P p) (ends : E → Bool) :
    Every P (p.cutAt ends) := by
  induction p with
  | pure a => trivial
  | fail => trivial
  | step e k ih =>
    cases he : ends e with
    | true =>
      rw [cutAt_ends he]
      trivial
    | false =>
      rw [cutAt_step he]
      exact ⟨hp.1, fun r => ih r (hp.2 r)⟩

theorem Every.of_complete {effect : (e : E) → S → S × R e} {P : E → Prop} {p : Program E R α}
    {s : S} (hp : Every P p) : ∀ e ∈ (complete effect p s).1, P e := by
  induction p generalizing s with
  | pure | fail => simp [complete]
  | step e k ih =>
    intro e' he'
    obtain rfl | he' := List.mem_cons.mp he'
    · exact hp.1
    · exact ih _ (hp.2 _) e' he'

/-- What a process may count on and what it owes to the others: `does` are its
own atomic effects, `rely` is what the rest of the system can do between them,
`guar` bounds its own steps and `inv` is kept by everybody. -/
structure Discipline (E : Type) (R : E → Type) (S : Type) where
  does : (e : E) → S → R e → S → Prop
  rely : S → S → Prop
  guar : S → S → Prop
  inv : S → Prop

variable (D : Discipline E R S)

/-- Every effect of the process keeps the invariant and its guarantee,
whatever happens between them, and `Q` holds of the result if there is one. -/
def Safe (Q : α → S → Prop) : Program E R α → S → Prop
  | .pure a, s => ∀ t, D.rely s t → D.inv t → Q a t
  | .fail, _ => True
  | .step e k, s =>
    ∀ t, D.rely s t → D.inv t → ∀ r u, D.does e t r u →
      D.guar t u ∧ D.inv u ∧ Safe Q (k r) u

variable {D} {Q : α → S → Prop} {Q' : β → S → Prop} {p : Program E R α} {s t : S}

theorem Safe.stable (htrans : ∀ {a b c}, D.rely a b → D.rely b c → D.rely a c)
    (h : Safe D Q p s) (hst : D.rely s t) : Safe D Q p t := by
  cases p with
  | pure a =>
    intro u hu
    exact h u (htrans hst hu)
  | fail => trivial
  | step e k =>
    intro u hu
    exact h u (htrans hst hu)

theorem Safe.bind (hrefl : ∀ a, D.rely a a) {f : α → Program E R β} (h : Safe D Q p s)
    (hs : D.inv s) (hf : ∀ a t, D.inv t → Q a t → Safe D Q' (f a) t) :
    Safe D Q' (p >>= f) s := by
  induction p generalizing s with
  | pure a => exact hf a s hs (h s (hrefl s) hs)
  | fail => trivial
  | step e k ih =>
    intro t hst ht r u hdoes
    obtain ⟨hguar, hu, hk⟩ := h t hst ht r u hdoes
    exact ⟨hguar, hu, ih r hk hu⟩

theorem Safe.mono {Q₁ : α → S → Prop} (h : Safe D Q p s) (hq : ∀ a t, D.inv t → Q a t → Q₁ a t) :
    Safe D Q₁ p s := by
  induction p generalizing s with
  | pure a =>
    intro t hst ht
    exact hq a t ht (h t hst ht)
  | fail => trivial
  | step e k ih =>
    intro t hst ht r u hdoes
    obtain ⟨hguar, hu, hk⟩ := h t hst ht r u hdoes
    exact ⟨hguar, hu, ih r hk⟩

theorem safe_demand (ok : Bool) : Safe D (fun _ _ => True) (demand ok) s := by
  cases ok with
  | false => trivial
  | true => exact fun _ _ _ => trivial

theorem Safe.ensuring (hrefl : ∀ a, D.rely a a) {q : Program E R Unit}
    (hp : Safe D (fun _ _ => True) p s) (hs : D.inv s)
    (hq : ∀ t, D.inv t → Safe D (fun _ _ => True) q t) :
    Safe D (fun _ _ => True) (p.ensuring q) s := by
  induction p generalizing s with
  | pure a => exact (hq s hs).bind hrefl hs fun _ _ _ _ => fun _ _ _ => trivial
  | fail => exact (hq s hs).bind hrefl hs fun _ _ _ _ => trivial
  | step e k ih =>
    intro t hst ht r u hdoes
    obtain ⟨hguar, hu, hk⟩ := hp t hst ht r u hdoes
    exact ⟨hguar, hu, ih r hk hu⟩

end Lolipay.Async.Process
