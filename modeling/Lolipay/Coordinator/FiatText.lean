import Lolipay.Script.Numerals

namespace Lolipay.Coordinator.FiatText

open Lolipay.Script.Units Lolipay.Script.Grammar Lolipay.Script.Numerals
open RegularExpression (char)

def isWord (u : UInt16) : Bool :=
  isDigit u || (65 ≤ u && u ≤ 90) || (97 ≤ u && u ≤ 122) || u == unit '_'

/-- `/^(Rp\.?\s*)?(\d+|[1-9]\d{0,2}(\.\d{3})+)$/i` -/
def fiatInputPattern : RegularExpression UInt16 :=
  let digit := oneOf digits
  optional (oneOf [unit 'R', unit 'r'] * (oneOf [unit 'P', unit 'p'] *
    (optional (char (unit '.')) * (oneOf blanks).star))) *
  (plus' digit + oneOf digits.tail * ((1 + digit + digit ^ 2) * plus' (char (unit '.') * digit ^ 3)))

def fiatInputAccepted (raw : Text) : Bool := fiatInputPattern.rmatch (trim raw)

def fiatDigits (raw : Text) : Text := raw.filter isDigit

/-- `(?=(\d{3})+(?!\d))` -/
def groupsAhead (rest : Text) : Bool :=
  rest.inits.any fun ahead =>
    (plus' (oneOf digits ^ 3)).rmatch ahead && !(rest.drop ahead.length).head?.any isDigit

/-- `\B` and the groups ahead, at the place between a unit and the rest. -/
def separatorHere (before : Option UInt16) (rest : Text) : Bool :=
  (before.any isWord == rest.head?.any isWord) && groupsAhead rest

/-- `replace`, with a point at every such place. -/
def insertSeparators (before : Option UInt16) : Text → Text
  | [] => if separatorHere before [] then [unit '.'] else []
  | u :: rest =>
    (if separatorHere before (u :: rest) then [unit '.'] else []) ++ u :: insertSeparators (some u) rest

def formatFiat (amount : Text) : Text := insertSeparators none (fiatDigits amount)

def fiatInputRefusal : String :=
  "write the amount in plain digits, for example 200000, or with dots as thousands separators, for example 200.000: commas, fractions and other symbols are refused because they could mean two different amounts, and this anchor will not guess which"

def amountOf (rawAmount : Text) : Except String ℕ :=
  if fiatInputAccepted rawAmount = false then .error fiatInputRefusal
  else
    let digits := fiatDigits rawAmount
    if digits.length = 0 ∨ digits.length > 18 ∨ numeral digits = 0 then
      .error "name an amount in rupiah"
    else .ok (numeral digits)

/-- `Rp` in either case, with or without a point, and blanks behind it. Or nothing. -/
inductive Sign : Text → Prop
  | none : Sign []
  | rupiah {r p : UInt16} {point gap : Text} (hr : r = unit 'R' ∨ r = unit 'r')
      (hp : p = unit 'P' ∨ p = unit 'p') (hpoint : point = [] ∨ point = [unit '.'])
      (hgap : ∀ u ∈ gap, u ∈ blanks) : Sign (r :: p :: (point ++ gap))

/-- The spelling of a number, with the digits it is spelled with: plain digits, or
groups of three that a point stands in front of. -/
inductive Spells : Text → Text → ℕ → Prop
  | plain {digits : Text} (hne : digits ≠ []) (hdigits : ∀ u ∈ digits, isDigit u = true) :
      Spells digits digits (numeral digits)
  | grouped {u : UInt16} {lead : Text} {groups : List Text} (hzero : u ≠ unit '0')
      (hlead : ∀ v ∈ u :: lead, isDigit v = true) (hshort : lead.length ≤ 2) (hne : groups ≠ [])
      (hgroups : ∀ g ∈ groups, g.length = 3 ∧ ∀ v ∈ g, isDigit v = true) :
      Spells (u :: lead ++ groups.flatMap (unit '.' :: ·)) (u :: lead ++ groups.flatten)
        (groups.foldl (fun n g => 1000 * n + numeral g) (numeral (u :: lead)))

/-- The text, read as an amount: blanks, the sign, the number and blanks. -/
inductive Reads : Text → Text → ℕ → Prop
  | of {left sign body right digits : Text} {value : ℕ} (hleft : ∀ u ∈ left, u ∈ blanks)
      (hsign : Sign sign) (hbody : Spells body digits value) (hright : ∀ u ∈ right, u ∈ blanks) :
      Reads (left ++ (sign ++ body) ++ right) digits value

variable {t raw body sign digits' rest lead left right : Text} {groups : List Text} {u d : UInt16} {n value : ℕ}

section Pattern

theorem mem_tail_digits : u ∈ digits.tail ↔ isDigit u = true ∧ u ≠ unit '0' := by
  have hzero : unit '0' ∉ digits.tail := by decide
  have hcons : u ∈ digits ↔ u = unit '0' ∨ u ∈ digits.tail := List.mem_cons
  rw [← mem_digits, hcons]
  constructor
  · intro h
    exact ⟨Or.inr h, fun heq => hzero (heq ▸ h)⟩
  · rintro ⟨rfl | h, hne⟩
    · exact absurd rfl hne
    · exact h

theorem matches_short : Matches (1 + oneOf digits + oneOf digits ^ 2) t ↔
    t.length ≤ 2 ∧ ∀ u ∈ t, isDigit u = true := by
  rw [matches_add, matches_add, matches_one, matches_oneOf, matches_digits]
  constructor
  · rintro ((rfl | ⟨u, hu, rfl⟩) | ⟨hlength, hdigits⟩)
    · simp
    · exact ⟨by simp, List.forall_mem_singleton.mpr (mem_digits.mp hu)⟩
    · exact ⟨hlength.le, hdigits⟩
  · rintro ⟨hlength, hdigits⟩
    obtain _ | ⟨u, _ | ⟨v, t⟩⟩ := t
    · exact Or.inl (Or.inl rfl)
    · exact Or.inl (Or.inr ⟨u, mem_digits.mpr (hdigits u List.mem_cons_self), rfl⟩)
    · refine Or.inr ⟨?_, hdigits⟩
      simp only [List.length_cons] at hlength ⊢
      omega

theorem matches_group : Matches (char (unit '.') * oneOf digits ^ 3) t ↔
    t = unit '.' :: t.tail ∧ t.tail.length = 3 ∧ ∀ u ∈ t.tail, isDigit u = true := by
  rw [matches_mul]
  constructor
  · rintro ⟨point, g, hpoint, hg, rfl⟩
    obtain rfl := matches_char.mp hpoint
    exact ⟨rfl, matches_digits.mp hg⟩
  · rintro ⟨ht, hg⟩
    exact ⟨[unit '.'], t.tail, matches_char.mpr rfl, matches_digits.mpr hg, ht⟩

theorem matches_groups : Matches (plus' (char (unit '.') * oneOf digits ^ 3)) t ↔
    ∃ groups : List Text, groups ≠ [] ∧ (∀ g ∈ groups, g.length = 3 ∧ ∀ u ∈ g, isDigit u = true) ∧
      t = groups.flatMap (unit '.' :: ·) := by
  rw [matches_plus]
  constructor
  · rintro ⟨words, hne, hwords, rfl⟩
    refine ⟨words.map List.tail, fun h => hne (List.map_eq_nil_iff.mp h), ?_, ?_⟩
    · intro g hg
      obtain ⟨word, hword, rfl⟩ := List.mem_map.mp hg
      exact (matches_group.mp (hwords word hword)).2
    · rw [List.flatMap_def, List.map_map]
      congr 1
      refine ((List.map_congr_left fun word hword => ?_).trans (List.map_id words)).symm
      exact (matches_group.mp (hwords word hword)).1.symm
  · rintro ⟨groups, hne, hgroups, rfl⟩
    refine ⟨groups.map (unit '.' :: ·), fun h => hne (List.map_eq_nil_iff.mp h), ?_, List.flatMap_def⟩
    intro word hword
    obtain ⟨g, hg, rfl⟩ := List.mem_map.mp hword
    exact matches_group.mpr ⟨rfl, hgroups g hg⟩

theorem matches_either {a b : UInt16} : Matches (oneOf [a, b]) t ↔ ∃ u, (u = a ∨ u = b) ∧ t = [u] := by
  rw [matches_oneOf]
  refine exists_congr fun u => and_congr_left fun _ => ?_
  simp

theorem matches_sign : Matches (optional (oneOf [unit 'R', unit 'r'] * (oneOf [unit 'P', unit 'p'] *
    (optional (char (unit '.')) * (oneOf blanks).star)))) t ↔ Sign t := by
  rw [matches_optional]
  constructor
  · rintro (rfl | h)
    · exact Sign.none
    · obtain ⟨_, _, hr, hrest, rfl⟩ := matches_mul.mp h
      obtain ⟨_, _, hp, htail, rfl⟩ := matches_mul.mp hrest
      obtain ⟨point, gap, hpoint, hgap, rfl⟩ := matches_mul.mp htail
      obtain ⟨r, hr', rfl⟩ := matches_either.mp hr
      obtain ⟨p, hp', rfl⟩ := matches_either.mp hp
      have hpoint' : point = [] ∨ point = [unit '.'] := matches_optional.mp hpoint
      change Sign (r :: p :: (point ++ gap))
      exact Sign.rupiah hr' hp' hpoint' (matches_star_oneOf.mp hgap)
  · intro h
    cases h with
    | none => exact Or.inl rfl
    | @rupiah r p point gap hr hp hpoint hgap =>
      refine Or.inr (matches_mul.mpr ⟨[r], _, matches_either.mpr ⟨r, hr, rfl⟩, ?_, rfl⟩)
      refine matches_mul.mpr ⟨[p], _, matches_either.mpr ⟨p, hp, rfl⟩, ?_, rfl⟩
      exact matches_mul.mpr ⟨point, gap, matches_optional.mpr hpoint, matches_star_oneOf.mpr hgap, rfl⟩

theorem matches_spelling : Matches (plus' (oneOf digits) + oneOf digits.tail *
    ((1 + oneOf digits + oneOf digits ^ 2) * plus' (char (unit '.') * oneOf digits ^ 3))) t ↔
    ∃ digits value, Spells t digits value := by
  rw [matches_add, matches_plus_digits]
  constructor
  · rintro (⟨hne, hdigits⟩ | h)
    · exact ⟨t, _, Spells.plain hne hdigits⟩
    · obtain ⟨_, _, hu, hrest, rfl⟩ := matches_mul.mp h
      obtain ⟨lead, _, hlead, hgroups, rfl⟩ := matches_mul.mp hrest
      obtain ⟨u, hmem, rfl⟩ := matches_oneOf.mp hu
      obtain ⟨hdigit, hzero⟩ := mem_tail_digits.mp hmem
      obtain ⟨hshort, hlead⟩ := matches_short.mp hlead
      obtain ⟨groups, hne, hthree, rfl⟩ := matches_groups.mp hgroups
      exact ⟨_, _, Spells.grouped hzero (List.forall_mem_cons.mpr ⟨hdigit, hlead⟩) hshort hne hthree⟩
  · rintro ⟨digits', value, h⟩
    cases h with
    | plain hne hdigits => exact Or.inl ⟨hne, hdigits⟩
    | @grouped u lead groups hzero hlead hshort hne hgroups =>
      obtain ⟨hdigit, hlead⟩ := List.forall_mem_cons.mp hlead
      refine Or.inr (matches_mul.mpr ⟨[u], lead ++ groups.flatMap (unit '.' :: ·), ?_, ?_, rfl⟩)
      · exact matches_oneOf.mpr ⟨u, mem_tail_digits.mpr ⟨hdigit, hzero⟩, rfl⟩
      · exact matches_mul.mpr ⟨lead, _, matches_short.mpr ⟨hshort, hlead⟩,
          matches_groups.mpr ⟨groups, hne, hgroups, rfl⟩, rfl⟩

theorem fiatInputPattern_iff : fiatInputPattern.rmatch t = true ↔
    ∃ sign body digits value, Sign sign ∧ Spells body digits value ∧ t = sign ++ body := by
  rw [matches_rmatch, fiatInputPattern, matches_mul]
  constructor
  · rintro ⟨sign, body, hsign, hbody, rfl⟩
    obtain ⟨digits, value, hbody⟩ := matches_spelling.mp hbody
    exact ⟨sign, body, digits, value, matches_sign.mp hsign, hbody, rfl⟩
  · rintro ⟨sign, body, digits, value, hsign, hbody, rfl⟩
    exact ⟨sign, body, matches_sign.mpr hsign, matches_spelling.mpr ⟨digits, value, hbody⟩, rfl⟩

end Pattern

section Reading

theorem filter_blanks (h : ∀ u ∈ t, u ∈ blanks) : t.filter isDigit = [] := by
  apply List.filter_eq_nil_iff.mpr
  intro u hu hdigit
  exact not_blank hdigit (h u hu)

theorem Sign.filter_eq (h : Sign sign) : sign.filter isDigit = [] := by
  cases h with
  | none => rfl
  | @rupiah r p point gap hr hp hpoint hgap =>
    have hr' : isDigit r = false := by
      obtain rfl | rfl := hr <;> rfl
    have hp' : isDigit p = false := by
      obtain rfl | rfl := hp <;> rfl
    have hpoint' : point.filter isDigit = [] := by
      obtain rfl | rfl := hpoint <;> rfl
    rw [List.filter_cons_of_neg (by simp [hr']), List.filter_cons_of_neg (by simp [hp']),
      List.filter_append, hpoint', filter_blanks hgap, List.nil_append]

theorem filter_digits (h : ∀ u ∈ t, isDigit u = true) : t.filter isDigit = t :=
  List.filter_eq_self.mpr h

theorem filter_groups (h : ∀ g ∈ groups, g.length = 3 ∧ ∀ v ∈ g, isDigit v = true) :
    (groups.flatMap (unit '.' :: ·)).filter isDigit = groups.flatten := by
  induction groups with
  | nil => rfl
  | cons g groups ih =>
    obtain ⟨⟨-, hg⟩, hrest⟩ := List.forall_mem_cons.mp h
    rw [List.flatMap_cons, List.filter_append, ih hrest, List.flatten_cons,
      List.filter_cons_of_neg (by decide), filter_digits hg]

theorem numeral_groups (h : ∀ g ∈ groups, g.length = 3 ∧ ∀ v ∈ g, isDigit v = true) (lead : Text) :
    numeral (lead ++ groups.flatten) =
      groups.foldl (fun n g => 1000 * n + numeral g) (numeral lead) := by
  induction groups generalizing lead with
  | nil => simp
  | cons g groups ih =>
    obtain ⟨⟨hlength, -⟩, hrest⟩ := List.forall_mem_cons.mp h
    have hgroup : numeral (lead ++ g) = 1000 * numeral lead + numeral g := by
      rw [numeral_append, hlength, Nat.mul_comm]
      rfl
    rw [List.flatten_cons, ← List.append_assoc, ih hrest, List.foldl_cons, hgroup]

theorem Spells.digits_eq (h : Spells body digits' value) : body.filter isDigit = digits' ∧
    numeral digits' = value ∧ digits' ≠ [] ∧ ∀ u ∈ digits', isDigit u = true := by
  cases h with
  | plain hne hdigits => exact ⟨filter_digits hdigits, rfl, hne, hdigits⟩
  | @grouped u lead groups hzero hlead hshort hne hgroups =>
    refine ⟨?_, numeral_groups hgroups _, List.append_ne_nil_of_left_ne_nil (List.cons_ne_nil u lead) _, ?_⟩
    · rw [List.filter_append, filter_digits hlead, filter_groups hgroups]
    · refine List.forall_mem_append.mpr ⟨hlead, fun v hv => ?_⟩
      obtain ⟨g, hg, hv⟩ := List.mem_flatten.mp hv
      exact (hgroups g hg).2 v hv

theorem Reads.digits_eq (h : Reads raw digits' value) : fiatDigits raw = digits' ∧
    numeral digits' = value ∧ ∃ k, digits' = List.replicate k (unit '0') ++ decimal value := by
  obtain ⟨hleft, hsign, hbody, hright⟩ := h
  obtain ⟨hfilter, rfl, hne, hdigits⟩ := hbody.digits_eq
  refine ⟨?_, rfl, zeros_decimal hne hdigits⟩
  rw [fiatDigits, List.filter_append, List.filter_append, List.filter_append, filter_blanks hleft,
    filter_blanks hright, hsign.filter_eq, hfilter]
  simp

end Reading

section Accepting

theorem Sign.head_not_blank (h : Sign (u :: t)) : u ∉ blanks := by
  cases h with
  | rupiah hr hp hpoint hgap => obtain rfl | rfl := hr <;> decide

theorem Spells.ends (h : Spells body digits' value) : ∃ hne : body ≠ [],
    isDigit (body.head hne) = true ∧ isDigit (body.getLast hne) = true := by
  cases h with
  | plain hne hdigits =>
    exact ⟨hne, hdigits _ (List.head_mem hne), hdigits _ (List.getLast_mem hne)⟩
  | @grouped u lead groups hzero hlead hshort hne hgroups =>
    refine ⟨List.append_ne_nil_of_left_ne_nil (List.cons_ne_nil u lead) _, ?_, ?_⟩
    · exact hlead u List.mem_cons_self
    · obtain rfl | ⟨front, g, rfl⟩ := List.eq_nil_or_concat groups
      · exact absurd rfl hne
      · obtain ⟨hlength, hg⟩ := hgroups g (by simp)
        have hgne : g ≠ [] := List.length_pos_iff.mp (by rw [hlength]; decide)
        have hend : u :: lead ++ (front.concat g).flatMap (unit '.' :: ·) =
            (u :: lead ++ front.flatMap (unit '.' :: ·) ++ [unit '.']) ++ g := by simp
        rw [List.getLast_congr _ (List.append_ne_nil_of_right_ne_nil _ hgne) hend,
          List.getLast_append_of_ne_nil _ hgne]
        exact hg _ (List.getLast_mem hgne)

theorem trim_reads (hleft : ∀ u ∈ left, u ∈ blanks) (hsign : Sign sign)
    (hbody : Spells body digits' value) (hright : ∀ u ∈ right, u ∈ blanks) :
    trim (left ++ (sign ++ body) ++ right) = sign ++ body := by
  obtain ⟨hne, hhead, hlast⟩ := hbody.ends
  have hne' : sign ++ body ≠ [] := List.append_ne_nil_of_right_ne_nil sign hne
  refine trim_append hleft hright hne' ?_ ?_
  · cases sign with
    | nil => exact not_blank hhead
    | cons u sign => exact hsign.head_not_blank
  · rw [List.getLast_append_of_ne_nil hne' hne]
    exact not_blank hlast

theorem fiatInputAccepted_iff :
    fiatInputAccepted raw = true ↔ ∃ digits value, Reads raw digits value := by
  rw [fiatInputAccepted, fiatInputPattern_iff]
  constructor
  · rintro ⟨sign, body, digits, value, hsign, hbody, htrim⟩
    obtain ⟨left, right, hraw, hleft, hright⟩ := trim_eq raw
    refine ⟨digits, value, ?_⟩
    rw [hraw, htrim]
    exact Reads.of hleft hsign hbody hright
  · rintro ⟨digits, value, hleft, hsign, hbody, hright⟩
    exact ⟨_, _, digits, value, hsign, hbody, trim_reads hleft hsign hbody hright⟩

end Accepting

section Formatting

theorem exists_groups {q : ℕ} (h : t.length = 3 * q) :
    ∃ groups : List Text, groups.length = q ∧ (∀ g ∈ groups, g.length = 3) ∧ t = groups.flatten := by
  induction q generalizing t with
  | zero => exact ⟨[], rfl, by simp, List.length_eq_zero_iff.mp h⟩
  | succ q ih =>
    obtain ⟨groups, hlength, hthree, hrest⟩ := ih (t := t.drop 3) (by rw [List.length_drop]; omega)
    refine ⟨t.take 3 :: groups, by rw [List.length_cons, hlength], ?_, ?_⟩
    · refine List.forall_mem_cons.mpr ⟨?_, hthree⟩
      rw [List.length_take]
      omega
    · rw [List.flatten_cons, ← hrest, List.take_append_drop]

theorem length_groups (h : ∀ g ∈ groups, g.length = 3) : groups.flatten.length = 3 * groups.length := by
  rw [List.length_flatten, List.map_congr_left h]
  simp [Nat.mul_comm]

theorem groupsAhead_iff (h : ∀ u ∈ rest, isDigit u = true) :
    groupsAhead rest = true ↔ rest ≠ [] ∧ 3 ∣ rest.length := by
  rw [groupsAhead, List.any_eq_true]
  constructor
  · rintro ⟨ahead, hahead, hmatch⟩
    obtain ⟨hgroups, hend⟩ := Bool.and_eq_true_iff.mp hmatch
    obtain ⟨tail, rfl⟩ := (List.mem_inits _ _).mp hahead
    have htail : tail = [] := by
      cases tail with
      | nil => rfl
      | cons u tail => simp [h u (by simp)] at hend
    subst htail
    obtain ⟨words, hne, hwords, rfl⟩ := matches_plus.mp (matches_rmatch.mp hgroups)
    have hlength := length_groups fun g hg => (matches_digits.mp (hwords g hg)).1
    rw [List.append_nil]
    refine ⟨?_, hlength ▸ Nat.dvd_mul_right 3 _⟩
    apply List.length_pos_iff.mp
    rw [hlength]
    exact Nat.mul_pos (by decide) (List.length_pos_iff.mpr hne)
  · rintro ⟨hne, q, hq⟩
    obtain ⟨words, hlength, hthree, hwords⟩ := exists_groups hq
    refine ⟨rest, (List.mem_inits _ _).mpr List.prefix_rfl, Bool.and_eq_true_iff.mpr ⟨?_, by simp⟩⟩
    refine matches_rmatch.mpr (matches_plus.mpr ⟨words, ?_, fun g hg => ?_, hwords⟩)
    · rintro rfl
      exact hne hwords
    · refine matches_digits.mpr ⟨hthree g hg, fun u hu => h u ?_⟩
      rw [hwords]
      exact List.mem_flatten.mpr ⟨g, hg, hu⟩

theorem isWord_of_isDigit (h : isDigit u = true) : isWord u = true := by
  simp [isWord, h]

theorem separatorHere_iff (hd : isDigit d = true) (h : ∀ v ∈ u :: rest, isDigit v = true) :
    separatorHere (some d) (u :: rest) = true ↔ 3 ∣ (u :: rest).length := by
  have hu := h u List.mem_cons_self
  simp only [separatorHere, Option.any_some, List.head?_cons, isWord_of_isDigit hd,
    isWord_of_isDigit hu, beq_self_eq_true, Bool.true_and, groupsAhead_iff h]
  exact and_iff_right (List.cons_ne_nil u rest)

theorem insertSeparators_first (h : isDigit u = true) :
    insertSeparators none (u :: rest) = u :: insertSeparators (some u) rest := by
  simp [insertSeparators, separatorHere, isWord_of_isDigit h]

theorem insertSeparators_nil (h : isDigit d = true) : insertSeparators (some d) [] = [] := by
  simp [insertSeparators, separatorHere, isWord_of_isDigit h]

theorem insertSeparators_cons (hd : isDigit d = true) (h : ∀ v ∈ u :: rest, isDigit v = true) :
    insertSeparators (some d) (u :: rest) =
      (if 3 ∣ (u :: rest).length then [unit '.'] else []) ++ u :: insertSeparators (some u) rest := by
  rw [insertSeparators]
  congr 1
  exact if_congr (separatorHere_iff hd h) rfl rfl

theorem flatten_digits (h : ∀ g ∈ groups, g.length = 3 ∧ ∀ v ∈ g, isDigit v = true) :
    3 ∣ groups.flatten.length ∧ ∀ v ∈ groups.flatten, isDigit v = true := by
  constructor
  · exact length_groups (fun g hg => (h g hg).1) ▸ Nat.dvd_mul_right 3 _
  · intro v hv
    obtain ⟨g, hg, hv⟩ := List.mem_flatten.mp hv
    exact (h g hg).2 v hv

theorem insertSeparators_groups (hd : isDigit d = true)
    (h : ∀ g ∈ groups, g.length = 3 ∧ ∀ v ∈ g, isDigit v = true) :
    insertSeparators (some d) groups.flatten = groups.flatMap (unit '.' :: ·) := by
  induction groups generalizing d with
  | nil => exact insertSeparators_nil hd
  | cons g groups ih =>
    obtain ⟨⟨hlength, hg⟩, hrest⟩ := List.forall_mem_cons.mp h
    obtain ⟨hdvd, hdigits⟩ := flatten_digits hrest
    obtain ⟨a, b, c, rfl⟩ := List.length_eq_three.mp hlength
    obtain ⟨ha, hb, hc⟩ : isDigit a = true ∧ isDigit b = true ∧ isDigit c = true := by simpa using hg
    have hthird : ∀ v ∈ c :: groups.flatten, isDigit v = true := List.forall_mem_cons.mpr ⟨hc, hdigits⟩
    have hsecond : ∀ v ∈ b :: c :: groups.flatten, isDigit v = true :=
      List.forall_mem_cons.mpr ⟨hb, hthird⟩
    have hfirst : ∀ v ∈ a :: b :: c :: groups.flatten, isDigit v = true :=
      List.forall_mem_cons.mpr ⟨ha, hsecond⟩
    rw [List.flatten_cons, List.flatMap_cons, ← ih hc hrest]
    simp only [List.cons_append, List.nil_append]
    rw [insertSeparators_cons hd hfirst, insertSeparators_cons ha hsecond, insertSeparators_cons hb hthird,
      if_pos, if_neg, if_neg]
    · rfl
    all_goals
      simp only [List.length_cons]
      omega

theorem insertSeparators_lead (hd : isDigit d = true) (hlead : ∀ v ∈ lead, isDigit v = true)
    (hshort : lead.length ≤ 2) (h : ∀ g ∈ groups, g.length = 3 ∧ ∀ v ∈ g, isDigit v = true) :
    insertSeparators (some d) (lead ++ groups.flatten) = lead ++ groups.flatMap (unit '.' :: ·) := by
  obtain ⟨hdvd, hdigits⟩ := flatten_digits h
  induction lead generalizing d with
  | nil => exact insertSeparators_groups hd h
  | cons u lead ih =>
    have hall : ∀ v ∈ u :: (lead ++ groups.flatten), isDigit v = true :=
      List.forall_mem_append.mpr ⟨hlead, hdigits⟩
    obtain ⟨hu, hlead⟩ := List.forall_mem_cons.mp hlead
    rw [List.length_cons] at hshort
    rw [List.cons_append, insertSeparators_cons hd hall, if_neg, ih hu hlead (by omega)]
    · rfl
    · rw [List.length_cons, List.length_append]
      omega

theorem exists_lead (hne : t ≠ []) (h : ∀ u ∈ t, isDigit u = true) :
    ∃ (u : UInt16) (lead : Text) (groups : List Text), lead.length ≤ 2 ∧
      (∀ g ∈ groups, g.length = 3 ∧ ∀ v ∈ g, isDigit v = true) ∧ t = u :: lead ++ groups.flatten := by
  obtain _ | ⟨u, t⟩ := t
  · exact absurd rfl hne
  · have hlength : (t.drop (t.length % 3)).length = 3 * (t.length / 3) := by
      rw [List.length_drop]
      omega
    obtain ⟨groups, -, hthree, hgroups⟩ := exists_groups hlength
    refine ⟨u, t.take (t.length % 3), groups, ?_, fun g hg => ⟨hthree g hg, fun v hv => ?_⟩, ?_⟩
    · rw [List.length_take]
      omega
    · have hdrop : v ∈ t.drop (t.length % 3) := by
        rw [hgroups]
        exact List.mem_flatten.mpr ⟨g, hg, hv⟩
      exact h v (List.mem_cons_of_mem u (List.mem_of_mem_drop hdrop))
    · rw [← hgroups, List.cons_append, List.take_append_drop]

/-- A formatted number spells the number. -/
theorem spells_formatFiat (n : ℕ) : Spells (formatFiat (decimal n)) (decimal n) n := by
  have hdecimal := isDigit_decimal n
  obtain ⟨u, lead, groups, hshort, hgroups, ht⟩ := exists_lead (decimal_ne_nil n) hdecimal
  rw [ht] at hdecimal
  obtain ⟨hlead, -⟩ := List.forall_mem_append.mp hdecimal
  obtain ⟨hu, hrest⟩ := List.forall_mem_cons.mp hlead
  have hformat : formatFiat (decimal n) = u :: lead ++ groups.flatMap (unit '.' :: ·) := by
    rw [formatFiat, fiatDigits, filter_digits (isDigit_decimal n), ht, List.cons_append,
      insertSeparators_first hu, insertSeparators_lead hu hrest hshort hgroups, List.cons_append]
  have hvalue : groups.foldl (fun n g => 1000 * n + numeral g) (numeral (u :: lead)) = n := by
    rw [← numeral_groups hgroups, ← ht, numeral_decimal]
  rw [hformat, ht, ← hvalue]
  by_cases hne : groups = []
  · subst hne
    simpa using Spells.plain (List.cons_ne_nil u lead) hlead
  · refine Spells.grouped ?_ hlead hshort hne hgroups
    rintro rfl
    refine decimal_ne_zero_cons (fun hnil => ?_) ht
    obtain ⟨g, hg⟩ := List.exists_mem_of_ne_nil groups hne
    have hempty := List.flatten_eq_nil_iff.mp (List.append_eq_nil_iff.mp hnil).2 g hg
    obtain ⟨hlength, -⟩ := hgroups g hg
    rw [hempty] at hlength
    cases hlength

end Formatting

theorem amountOf_eq_ok (h : amountOf raw = .ok n) : ∃ digits, Reads raw digits n := by
  rw [amountOf] at h
  split at h
  next => cases h
  next haccepted =>
    obtain ⟨digits, value, hreads⟩ := fiatInputAccepted_iff.mp (Bool.not_eq_false _ ▸ haccepted)
    obtain ⟨hdigits, rfl, -⟩ := hreads.digits_eq
    dsimp only at h
    split at h
    next => cases h
    next =>
      cases h
      rw [hdigits]
      exact ⟨digits, hreads⟩

/-- An amount in fiat reads back as it was written. -/
theorem fiat_amounts_read_back :
    (∀ n, fiatInputAccepted (formatFiat (decimal n)) = true ∧
      fiatDigits (formatFiat (decimal n)) = decimal n) ∧
    (∀ raw, fiatInputAccepted raw = true ↔ ∃ digits value, Reads raw digits value) ∧
    (∀ raw digits value, Reads raw digits value → fiatDigits raw = digits ∧ numeral digits = value ∧
      ∃ k, digits = List.replicate k (unit '0') ++ decimal value) ∧
    (∀ raw digits digits' value value', Reads raw digits value → Reads raw digits' value' →
      digits = digits' ∧ value = value') ∧
    ∀ raw n, amountOf raw = .ok n → ∃ digits, Reads raw digits n := by
  refine ⟨fun n => ?_, fun raw => fiatInputAccepted_iff, fun raw digits value => Reads.digits_eq, ?_,
    fun raw n => amountOf_eq_ok⟩
  · have hreads : Reads (formatFiat (decimal n)) (decimal n) n := by
      simpa using Reads.of (List.forall_mem_nil _) Sign.none (spells_formatFiat n) (List.forall_mem_nil _)
    exact ⟨fiatInputAccepted_iff.mpr ⟨_, n, hreads⟩, hreads.digits_eq.1⟩
  · intro raw digits digits' value value' h h'
    obtain ⟨hdigits, rfl, -⟩ := h.digits_eq
    obtain ⟨hdigits', rfl, -⟩ := h'.digits_eq
    obtain rfl := hdigits.symm.trans hdigits'
    exact ⟨rfl, rfl⟩

end Lolipay.Coordinator.FiatText
