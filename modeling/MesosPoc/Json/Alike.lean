import MesosPoc.Json
import MesosPoc.SameOutcome

namespace MesosPoc.Json

-- Values that differ in the order of keys only: what one object has under a key is like
-- what the other has there.
inductive Alike : Json → Json → Prop
  | null : Alike .null .null
  | bool (value : Bool) : Alike (.bool value) (.bool value)
  | int (value : Int) : Alike (.int value) (.int value)
  | float (literal : Str) : Alike (.float literal) (.float literal)
  | str (value : Str) : Alike (.str value) (.str value)
  | arr {items items' : List Json} (h : List.Forall₂ Alike items items') : Alike (.arr items) (.arr items')
  | obj {pairs pairs' : List (Str × Json)} (h : ∀ key, Option.Rel Alike (lookup key pairs) (lookup key pairs')) :
      Alike (.obj pairs) (.obj pairs')

mutual

theorem Alike.refl : ∀ j, Alike j j
  | .null => .null
  | .bool value => .bool value
  | .int value => .int value
  | .float literal => .float literal
  | .str value => .str value
  | .arr items => .arr (forall₂_alike_refl items)
  | .obj pairs => .obj fun key => lookup_alike_refl key pairs

theorem forall₂_alike_refl : ∀ items, List.Forall₂ Alike items items
  | [] => .nil
  | item :: rest => .cons (Alike.refl item) (forall₂_alike_refl rest)

theorem lookup_alike_refl (key : Str) : ∀ pairs, Option.Rel Alike (lookup key pairs) (lookup key pairs)
  | [] => .none
  | (name, value) :: rest => by
      have hvalue := Alike.refl value
      have hrest := lookup_alike_refl key rest
      rw [lookup]
      generalize lookup key rest = found at hrest ⊢
      cases found with
      | some found =>
          rw [Option.some_or]
          exact hrest
      | none =>
          rw [Option.none_or]
          by_cases hname : name = key
          · rw [if_pos hname]
            exact .some hvalue
          · rw [if_neg hname]
            exact .none

end

mutual

-- Two values that are like a third are like each other.
theorem Alike.of_common : ∀ j {j' j''}, Alike j j' → Alike j j'' → Alike j' j''
  | .null, _, _, .null, .null => .null
  | .bool value, _, _, .bool _, .bool _ => .bool value
  | .int value, _, _, .int _, .int _ => .int value
  | .float literal, _, _, .float _, .float _ => .float literal
  | .str value, _, _, .str _, .str _ => .str value
  | .arr items, _, _, .arr h, .arr h' => .arr (forall₂_alike_of_common items h h')
  | .obj pairs, _, _, .obj h, .obj h' => .obj fun key => lookup_alike_of_common key pairs (h key) (h' key)

theorem forall₂_alike_of_common : ∀ items {items' items''},
    List.Forall₂ Alike items items' → List.Forall₂ Alike items items'' → List.Forall₂ Alike items' items''
  | [], _, _, .nil, .nil => .nil
  | item :: rest, _, _, .cons h hrest, .cons h' hrest' =>
      .cons (Alike.of_common item h h') (forall₂_alike_of_common rest hrest hrest')

theorem lookup_alike_of_common (key : Str) : ∀ pairs {found found'},
    Option.Rel Alike (lookup key pairs) found → Option.Rel Alike (lookup key pairs) found' →
      Option.Rel Alike found found'
  | [], _, _, .none, .none => .none
  | (name, value) :: rest, found, found', h, h' => by
      have hvalue : ∀ {j j'}, Alike value j → Alike value j' → Alike j j' := Alike.of_common value
      have hrest : ∀ {a b}, Option.Rel Alike (lookup key rest) a → Option.Rel Alike (lookup key rest) b →
          Option.Rel Alike a b := lookup_alike_of_common key rest
      rw [lookup] at h h'
      generalize lookup key rest = later at h h' hrest
      cases later with
      | some later =>
          rw [Option.some_or] at h h'
          exact hrest h h'
      | none =>
          rw [Option.none_or] at h h'
          by_cases hname : name = key
          · rw [if_pos hname] at h h'
            cases h with
            | some h =>
                cases h' with
                | some h' => exact .some (hvalue h h')
          · rw [if_neg hname] at h h'
            exact hrest h h'

end

section Fields

variable {j j' : Json}

theorem Alike.getItem (h : Alike j j') (key : Str) : SameOutcome Alike (j.getItem key) (j'.getItem key) := by
  cases h with
  | @obj pairs pairs' h =>
      have hkey := h key
      simp only [Json.getItem]
      generalize lookup key pairs = found at hkey ⊢
      generalize lookup key pairs' = found' at hkey ⊢
      cases hkey with
      | none => exact .error _
      | some hvalue => exact .ok hvalue
  | _ => exact .error _

theorem Alike.hasKey (h : Alike j j') (key : Str) : SameOutcome Eq (j.hasKey key) (j'.hasKey key) := by
  cases h with
  | @obj pairs pairs' h =>
      have hkey := h key
      simp only [Json.hasKey]
      generalize lookup key pairs = found at hkey ⊢
      generalize lookup key pairs' = found' at hkey ⊢
      cases hkey with
      | none => exact .ok rfl
      | some hvalue => exact .ok rfl
  | _ => exact .error _

-- An object without keys is like one without keys only.
theorem lookup_eq_none_iff_nil {pairs : List (Str × Json)} : (∀ key, lookup key pairs = none) ↔ pairs = [] := by
  constructor
  · intro h
    cases pairs with
    | nil => rfl
    | cons pair rest =>
        have hkey := h pair.1
        rw [lookup, if_pos rfl, Option.or_eq_none_iff] at hkey
        cases hkey.2
  · rintro rfl key
    rfl

theorem nil_iff_of_alike {pairs pairs' : List (Str × Json)}
    (h : ∀ key, Option.Rel Alike (lookup key pairs) (lookup key pairs')) : pairs = [] ↔ pairs' = [] := by
  rw [← lookup_eq_none_iff_nil, ← lookup_eq_none_iff_nil]
  apply forall_congr'
  intro key
  have hkey := h key
  generalize lookup key pairs = found at hkey ⊢
  generalize lookup key pairs' = found' at hkey ⊢
  cases hkey with
  | none => exact Iff.rfl
  | some hvalue => exact iff_of_false nofun nofun

theorem Alike.truthy (h : Alike j j') : j.truthy = j'.truthy := by
  cases h with
  | arr h =>
      unfold Json.truthy
      cases h with
      | nil => rfl
      | cons => rfl
  | obj h =>
      simp only [Json.truthy, ne_eq]
      exact decide_eq_decide.mpr (not_congr (nil_iff_of_alike h))
  | _ => rfl

-- What a loop goes over: values that are alike, or, in both cases, texts.
inductive AlikeItems : List Json → List Json → Prop
  | items {items items' : List Json} (h : List.Forall₂ Alike items items') : AlikeItems items items'
  | texts (text text' : Str) (rest rest' : List Json) : AlikeItems (.str text :: rest) (.str text' :: rest')

theorem Alike.iterate (h : Alike j j') : SameOutcome AlikeItems j.iterate j'.iterate := by
  cases h with
  | str value => exact .ok (.items (forall₂_alike_refl _))
  | arr h => exact .ok (.items h)
  | @obj pairs pairs' h =>
      have hnil := nil_iff_of_alike h
      unfold Json.iterate
      cases pairs with
      | nil =>
          rw [hnil.mp rfl]
          exact .ok (.items .nil)
      | cons pair rest =>
          cases pairs' with
          | nil => cases hnil.mpr rfl
          | cons pair' rest' => exact .ok (.texts _ _ _ _)
  | _ => exact .error _

end Fields

end MesosPoc.Json
