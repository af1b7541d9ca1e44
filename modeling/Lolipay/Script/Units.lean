import Mathlib.Algebra.GroupWithZero.Nat
import Mathlib.Data.List.Basic
import Mathlib.Tactic.Common

namespace Lolipay.Script.Units

/-- A text as a sequence of 16-bit code units, the way a program of the web
counts and cuts it. A surrogate may stand alone. -/
abbrev Text := List UInt16

def unitsOf (c : Char) : Text :=
  let n := c.toNat
  if n < 0x10000 then [n.toUInt16]
  else [(0xd800 + (n - 0x10000) / 0x400).toUInt16, (0xdc00 + (n - 0x10000) % 0x400).toUInt16]

def units (s : String) : Text := s.toList.flatMap unitsOf

@[simp]
theorem units_empty : units "" = [] := by
  simp [units]

@[simp]
theorem units_append (s s' : String) : units (s ++ s') = units s ++ units s' := by
  simp [units]

theorem length_intercalate (sep : Text) {ts : List Text} (h : ts ≠ []) :
    (sep.intercalate ts).length + sep.length = (ts.map fun t => t.length + sep.length).sum := by
  induction ts with
  | nil => exact absurd rfl h
  | cons t ts ih =>
    cases ts with
    | nil => simp
    | cons t' ts =>
      have hrest := ih (List.cons_ne_nil t' ts)
      rw [List.intercalate_cons_cons, List.map_cons, List.sum_cons, ← hrest]
      simp only [List.length_append]
      omega

theorem length_intercalate_le (sep : Text) (ts : List Text) :
    (sep.intercalate ts).length ≤ (ts.map fun t => t.length + sep.length).sum := by
  by_cases h : ts = []
  · simp [h]
  · have hlen := length_intercalate sep h
    omega

theorem infix_intercalate {sep t : Text} {ts : List Text} (h : t ∈ ts) :
    t <:+: sep.intercalate ts := by
  induction ts with
  | nil => exact absurd h List.not_mem_nil
  | cons t' ts ih =>
    cases ts with
    | nil =>
      obtain rfl := List.mem_singleton.mp h
      simp
    | cons t'' ts =>
      rw [List.intercalate_cons_cons]
      obtain rfl | h := List.mem_cons.mp h
      · exact ((List.prefix_append t sep).trans (List.prefix_append _ _)).isInfix
      · exact (ih h).trans (List.suffix_append _ _).isInfix

section Reading

theorem valid_toNat (c : Char) : c.toNat < 0xd800 ∨ 0xdfff < c.toNat ∧ c.toNat < 0x110000 := by
  obtain h | h := c.valid
  · exact Or.inl h
  · exact Or.inr h

theorem toNat_toUInt16 (n : ℕ) : n.toUInt16.toNat = n % 0x10000 := UInt16.toNat_ofNat'

theorem unitsOf_ne_nil (c : Char) : unitsOf c ≠ [] := by
  intro h
  simp only [unitsOf] at h
  split_ifs at h

theorem unitsOf_append_inj {c c' : Char} {t t' : Text} (h : unitsOf c ++ t = unitsOf c' ++ t') :
    c = c' ∧ t = t' := by
  have hc := valid_toNat c
  have hc' := valid_toNat c'
  simp only [unitsOf] at h
  split_ifs at h with hn hn' hn' <;>
    simp only [List.cons_append, List.nil_append, List.cons.injEq, ← UInt16.toNat_inj,
      toNat_toUInt16] at h
  · exact ⟨Char.toNat_inj.mp (by omega), h.2⟩
  · omega
  · omega
  · exact ⟨Char.toNat_inj.mp (by omega), h.2.2⟩

theorem flatMap_unitsOf_injective : Function.Injective fun l : List Char => l.flatMap unitsOf := by
  intro l l' h
  simp only at h
  induction l generalizing l' with
  | nil =>
    cases l' with
    | nil => rfl
    | cons c' l' => exact absurd (List.append_eq_nil_iff.mp h.symm).1 (unitsOf_ne_nil c')
  | cons c l ih =>
    cases l' with
    | nil => exact absurd (List.append_eq_nil_iff.mp h).1 (unitsOf_ne_nil c)
    | cons c' l' =>
      rw [List.flatMap_cons, List.flatMap_cons] at h
      obtain ⟨rfl, hrest⟩ := unitsOf_append_inj h
      rw [ih hrest]

theorem units_injective : Function.Injective units := fun _ _ h =>
  String.toList_injective (flatMap_unitsOf_injective h)

end Reading

end Lolipay.Script.Units
