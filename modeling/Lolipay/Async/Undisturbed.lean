import Lolipay.Async.Process

namespace Lolipay.Async.Process

variable {E S T α β : Type} {R : E → Type} {F : Type} {G : F → Type}

section Ends

variable {effect : (e : E) → S → S × R e} {p : Program E R α} {s t u : S} {a : α}

/-- A process that nobody interrupts comes from one state to another, with a result. -/
def Ends (effect : (e : E) → S → S × R e) (p : Program E R α) (s t : S) (a : α) : Prop :=
  (complete effect p s).2 = (t, some a)

theorem Ends.pure (s : S) (a : α) : Ends effect (.pure a) s s a := rfl

theorem Ends.step {e : E} {k : R e → Program E R α} {r : R e} (he : effect e s = (u, r))
    (hk : Ends effect (k r) u t a) : Ends effect (.step e k) s t a := by
  simp only [Ends, complete, he]
  exact hk

theorem Ends.bind {f : α → Program E R β} {b : β} (hp : Ends effect p s u a)
    (hf : Ends effect (f a) u t b) : Ends effect (p >>= f) s t b := by
  rw [Ends, complete_bind (Prod.ext rfl hp)]
  exact hf

theorem Ends.attempt {e : E} {get : R e → Option α} {r : R e} (he : effect e s = (t, r))
    (hget : get r = some a) : Ends effect (attempt e get) s t a := by
  apply Ends.step he
  simp only [hget]
  exact .pure t a

theorem Ends.caught (hp : Ends effect p s t a) : Ends effect p.caught s t (some a) := by
  induction p generalizing s with
  | pure b =>
    obtain ⟨rfl, hb⟩ := Prod.mk.inj hp
    obtain rfl := Option.some.inj hb
    exact .pure s (some b)
  | fail => cases hp
  | step e k ih => exact .step rfl (ih _ hp)

theorem Ends.alone (hp : Ends effect p s t a) : alone effect p s = t := by
  induction p generalizing s with
  | pure b =>
    obtain ⟨rfl, -⟩ := Prod.mk.inj hp
    rfl
  | fail => cases hp
  | step e k ih => exact ih _ hp

theorem complete_caught (p : Program E R α) (s : S) :
    (complete effect p.caught s).1 = (complete effect p s).1 := by
  induction p generalizing s with
  | pure | fail => rfl
  | step e k ih => exact congrArg (e :: ·) (ih _ _)

theorem mem_complete_bind {f : α → Program E R β} {e : E}
    (he : e ∈ (complete effect (p >>= f) s).1) :
    e ∈ (complete effect p s).1 ∨ ∃ a t, e ∈ (complete effect (f a) t).1 := by
  induction p generalizing s with
  | pure a => exact .inr ⟨a, s, he⟩
  | fail => cases he
  | step e' k ih =>
    obtain rfl | he := List.mem_cons.mp he
    · exact .inl List.mem_cons_self
    · exact (ih _ he).imp_left (List.mem_cons_of_mem _)

theorem Ends.lift {effect' : (e : E) → T → T × R e} {f : S → T}
    (hf : ∀ e s, effect' e (f s) = (f (effect e s).1, (effect e s).2))
    (hp : Ends effect p s t a) : Ends effect' p (f s) (f t) a := by
  induction p generalizing s with
  | pure b =>
    obtain ⟨rfl, hb⟩ := Prod.mk.inj hp
    obtain rfl := Option.some.inj hb
    exact .pure (f s) b
  | fail => cases hp
  | step e k ih => exact .step (hf e s) (ih _ hp)

/-- A safe process that comes to its end by itself keeps the invariant, and its
result is as promised. -/
theorem Safe.ends {D : Discipline E R S} {Q : α → S → Prop} (hsafe : Safe D Q p s) (hs : D.inv s)
    (hrefl : ∀ s, D.rely s s)
    (hdoes : ∀ e ∈ (complete effect p s).1, ∀ s, D.does e s (effect e s).2 (effect e s).1)
    (hp : Ends effect p s t a) : D.inv t ∧ Q a t := by
  induction p generalizing s with
  | pure b =>
    obtain ⟨rfl, hb⟩ := Prod.mk.inj hp
    obtain rfl := Option.some.inj hb
    exact ⟨hs, hsafe s (hrefl s) hs⟩
  | fail => cases hp
  | step e k ih =>
    obtain ⟨-, hu, hk⟩ := hsafe s (hrefl s) hs _ _ (hdoes e List.mem_cons_self s)
    exact ih _ hk hu (fun e' he' => hdoes e' (List.mem_cons_of_mem _ he')) hp

theorem Safe.caught {D : Discipline E R S} (hsafe : Safe D (fun _ _ => True) p s) :
    Safe D (fun _ _ => True) p.caught s := by
  induction p generalizing s with
  | pure b => exact fun _ _ _ => trivial
  | fail => exact fun _ _ _ => trivial
  | step e k ih =>
    intro t hst ht r u hdoes
    obtain ⟨hguar, hu, hk⟩ := hsafe t hst ht r u hdoes
    exact ⟨hguar, hu, ih r hk⟩

end Ends

def Steady (good : (e : E) → R e → Prop) : Program E R α → Prop
  | .pure _ => True
  | .fail => False
  | .step e k => ∀ r, good e r → Steady good (k r)

variable {good : (e : E) → R e → Prop} {p : Program E R α}

theorem Steady.bind {f : α → Program E R β} (hp : Steady good p) (hf : ∀ a, Steady good (f a)) :
    Steady good (p >>= f) := by
  induction p with
  | pure a => exact hf a
  | fail => exact hp.elim
  | step e k ih =>
    intro r hr
    exact ih r (hp r hr)

theorem Steady.attempt {e : E} {get : R e → Option α} (h : ∀ r, good e r → (get r).isSome) :
    Steady good (attempt e get) := by
  intro r hr
  have hsome := h r hr
  cases hget : get r with
  | none => simp [hget] at hsome
  | some a =>
    simp only [hget]
    trivial

theorem Steady.embed {good' : (e : F) → G e → Prop} {f : E → F}
    {good : (e : E) → G (f e) → Prop} {p : Program E (fun e => G (f e)) α}
    (hp : Steady good p) (hgood : ∀ e r, good' (f e) r → good e r) :
    Steady good' (p.embed f) := by
  induction p with
  | pure a => trivial
  | fail => exact hp
  | step e k ih =>
    intro r hr
    exact ih _ (hp _ (hgood e r hr))

/-- Where all replies are good, a steady process comes to a result. -/
theorem Steady.ends (hp : Steady good p) (effect : (e : E) → S → S × R e)
    (heffect : ∀ e s, good e (effect e s).2) (s : S) : ∃ t a, Ends effect p s t a := by
  induction p generalizing s with
  | pure a => exact ⟨s, a, .pure s a⟩
  | fail => exact hp.elim
  | step e k ih =>
    obtain ⟨t, a, hk⟩ := ih _ (hp _ (heffect e s)) (effect e s).1
    exact ⟨t, a, .step rfl hk⟩

theorem Every.frame {P : E → Prop} {s t : S} {a : α} (hp : Every P p)
    (effect : (e : E) → S → S × R e) (f : S → T)
    (heffect : ∀ e, P e → ∀ s, f (effect e s).1 = f s) (h : Ends effect p s t a) : f t = f s := by
  induction p generalizing s with
  | pure b =>
    obtain ⟨rfl, -⟩ := Prod.mk.inj h
    rfl
  | fail => cases h
  | step e k ih => rw [ih _ (hp.2 _) h, heffect e hp.1]

end Lolipay.Async.Process
