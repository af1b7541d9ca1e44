import Lolipay.Script.Units

namespace Lolipay.Script.Values

open Lolipay.Script.Units

/-- What a parser of JSON may return, over any numbers. -/
inductive Json (N : Type) where
  | null
  | bool (b : Bool)
  | number (n : N)
  | string (text : Text)
  | array (items : List (Json N))
  | object (fields : List (Text × Json N))

/-- A value of the language; `none` is what is undefined. -/
abbrev Value (N : Type) := Option (Json N)

variable {N : Type}

/-- A property by optional chaining. What is no object has none of the names that
data uses. -/
def prop (value : Value N) (name : Text) : Value N :=
  match value with
  | some (.object fields) => (fields.find? fun field => field.1 == name).map (·.2)
  | _ => none

def isString (text : Text) : Value N → Bool
  | some (.string text') => text' == text
  | _ => false

def isFalsy [Zero N] [DecidableEq N] : Value N → Bool
  | none | some .null | some (.bool false) => true
  | some (.number n) => n = 0
  | some (.string text) => text.isEmpty
  | _ => false

/-- The first property of the name replaced, if there is one. -/
def replaceField (name : Text) (new : Json N) : List (Text × Json N) → List (Text × Json N)
  | [] => []
  | field :: fields =>
    if field.1 == name then (field.1, new) :: fields else field :: replaceField name new fields

def setProp (name : Text) (new : Json N) : Json N → Json N
  | .object fields => .object (replaceField name new fields)
  | other => other

/-- The value behind a path of properties. -/
def getIn (value : Value N) (path : List Text) : Value N := path.foldl prop value

/-- The same value with another one behind the path. -/
def setIn (new : Json N) : List Text → Json N → Json N
  | [], _ => new
  | name :: path, json =>
    match prop (some json) name with
    | none => json
    | some inner => setProp name (setIn new path inner) json

mutual

/-- Conversion to a text; `none` is an object that hides its `toString`, which is
refused. -/
def stringOf (show' : N → Text) : Json N → Option Text
  | .null => some (units "null")
  | .bool b => some (units (if b then "true" else "false"))
  | .number n => some (show' n)
  | .string text => some text
  | .array items => (partsOf show' items).map (units ",").intercalate
  | .object fields =>
    if fields.any fun field => field.1 == units "toString" then none
    else some (units "[object Object]")

def partsOf (show' : N → Text) : List (Json N) → Option (List Text)
  | [] => some []
  | item :: items => do
    let text ← match item with
      | .null => some []
      | item => stringOf show' item
    let texts ← partsOf show' items
    some (text :: texts)

end

theorem isString_iff {text : Text} {value : Value N} :
    isString text value = true ↔ value = some (.string text) := by
  cases value with
  | none => simp [isString]
  | some json =>
    cases json with
    | string text' => simp [isString]
    | null | bool | number | array | object => simp [isString]

variable {json inner new : Json N} {name name' : Text} {path : List Text}

theorem find_replaceField_self {fields : List (Text × Json N)}
    (h : (fields.find? fun field => field.1 == name).map (·.2) = some inner) :
    ((replaceField name new fields).find? fun field => field.1 == name).map (·.2) = some new := by
  induction fields with
  | nil => cases h
  | cons field fields ih =>
    unfold replaceField
    by_cases hname : (field.1 == name) = true
    · simp [hname]
    · rw [if_neg hname, List.find?_cons_of_neg (by simpa using hname)]
      rw [List.find?_cons_of_neg (by simpa using hname)] at h
      exact ih h

theorem find_replaceField_ne (h : name' ≠ name) (fields : List (Text × Json N)) :
    ((replaceField name new fields).find? fun field => field.1 == name').map (·.2) =
      (fields.find? fun field => field.1 == name').map (·.2) := by
  induction fields with
  | nil => rfl
  | cons field fields ih =>
    unfold replaceField
    by_cases hname : (field.1 == name) = true
    · have hother : ¬ (field.1 == name') = true := by
        rw [beq_iff_eq] at hname ⊢
        rw [hname]
        exact h.symm
      rw [if_pos hname, List.find?_cons_of_neg (by simpa using hother),
        List.find?_cons_of_neg (by simpa using hother)]
    · rw [if_neg hname, List.find?_cons, List.find?_cons]
      cases hother : field.1 == name' with
      | true => rfl
      | false => exact ih

theorem prop_setProp_self (h : prop (some json) name = some inner) :
    prop (some (setProp name new json)) name = some new := by
  cases json with
  | object fields => exact find_replaceField_self h
  | null | bool | number | string | array => cases h

theorem prop_setProp_ne (h : name' ≠ name) :
    prop (some (setProp name new json)) name' = prop (some json) name' := by
  cases json with
  | object fields => exact find_replaceField_ne h fields
  | null | bool | number | string | array => rfl

theorem getIn_cons (value : Value N) : getIn value (name :: path) = getIn (prop value name) path :=
  rfl

@[simp]
theorem getIn_none : getIn (none : Value N) path = none := by
  induction path with
  | nil => rfl
  | cons name path ih => exact ih

theorem getIn_setIn (h : getIn (some json) path = some inner) :
    getIn (some (setIn new path json)) path = some new := by
  induction path generalizing json with
  | nil => rfl
  | cons name path ih =>
    rw [getIn_cons] at h
    cases hprop : prop (some json) name with
    | none =>
      rw [hprop, getIn_none] at h
      cases h
    | some next =>
      rw [hprop] at h
      simp only [setIn, hprop]
      rw [getIn_cons, prop_setProp_self hprop]
      exact ih h

theorem getIn_setIn_ne (h : name' ≠ name) (shared path path' : List Text) :
    getIn (some (setIn new (shared ++ name :: path) json)) (shared ++ name' :: path') =
      getIn (some json) (shared ++ name' :: path') := by
  induction shared generalizing json with
  | nil =>
    rw [List.nil_append, List.nil_append, getIn_cons, getIn_cons]
    unfold setIn
    cases prop (some json) name with
    | none => rfl
    | some next => exact congrArg (getIn · path') (prop_setProp_ne h)
  | cons first shared ih =>
    rw [List.cons_append, List.cons_append, getIn_cons, getIn_cons]
    unfold setIn
    cases hprop : prop (some json) first with
    | none => simp only [hprop]
    | some next =>
      simp only
      rw [prop_setProp_self hprop]
      exact ih

end Lolipay.Script.Values
