import MesosPoc.Json
import Mathlib.Data.List.Forall2

namespace MesosPoc.Json

-- An object stands for a record of values when its fields do, whatever other
-- fields it has. A field that is absent stands for no value.
def HasField {α : Type} (j : Json) (key : Str) (stands : Json → α → Prop) : Option α → Prop
  | none => j.getItem key = .error (.keyError key)
  | some a => ∃ value, j.getItem key = .ok value ∧ stands value a

def IsArray {α : Type} (stands : Json → α → Prop) (j : Json) (values : List α) : Prop :=
  ∃ items, j = .arr items ∧ List.Forall₂ stands items values

theorem getItem_of_lookup {pairs : List (Str × Json)} {key : Str} {value : Json}
    (h : lookup key pairs = some value) : (Json.obj pairs).getItem key = .ok value := by
  simp only [getItem, h]

theorem hasKey_obj {pairs : List (Str × Json)} {key : Str} {found : Option Json}
    (h : lookup key pairs = found) : (Json.obj pairs).hasKey key = .ok found.isSome := by
  rw [hasKey, h]

theorem hasKey_of_getItem {j value : Json} {key : Str} (h : j.getItem key = .ok value) :
    j.hasKey key = .ok true := by
  cases j with
  | obj pairs =>
      cases hl : lookup key pairs with
      | none => simp [getItem, hl] at h
      | some found => simp [hasKey, hl]
  | _ => cases h

theorem hasKey_of_keyError {j : Json} {key : Str} (h : j.getItem key = .error (.keyError key)) :
    j.hasKey key = .ok false := by
  cases j with
  | obj pairs =>
      cases hl : lookup key pairs with
      | none => simp [hasKey, hl]
      | some found => simp [getItem, hl] at h
  | _ => cases h

theorem HasField.hasKey {α : Type} {j : Json} {key : Str} {stands : Json → α → Prop} {value : Option α}
    (h : HasField j key stands value) : j.hasKey key = .ok value.isSome := by
  cases value with
  | none => exact hasKey_of_keyError h
  | some a =>
      obtain ⟨value, hget, -⟩ := h
      exact hasKey_of_getItem hget

end MesosPoc.Json
