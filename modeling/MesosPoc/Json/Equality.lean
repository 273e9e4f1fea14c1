import MesosPoc.Json

namespace MesosPoc.Json

mutual

def same : Json → Json → Bool
  | .null, .null => true
  | .bool a, .bool b => a == b
  | .int a, .int b => a == b
  | .float a, .float b => a == b
  | .str a, .str b => a == b
  | .arr a, .arr b => sameItems a b
  | .obj a, .obj b => samePairs a b
  | _, _ => false

def sameItems : List Json → List Json → Bool
  | [], [] => true
  | a :: rest, b :: rest' => same a b && sameItems rest rest'
  | _, _ => false

def samePairs : List (Str × Json) → List (Str × Json) → Bool
  | [], [] => true
  | (key, a) :: rest, (key', b) :: rest' => key == key' && same a b && samePairs rest rest'
  | _, _ => false

end

mutual

theorem eq_of_same : ∀ (a b : Json), same a b = true → a = b
  | .null, b, h => by cases b <;> simp_all [same]
  | .bool a, b, h => by cases b <;> simp_all [same]
  | .int a, b, h => by cases b <;> simp_all [same]
  | .float a, b, h => by cases b <;> simp_all [same]
  | .str a, b, h => by cases b <;> simp_all [same]
  | .arr a, b, h => by
      cases b with
      | arr b => rw [eq_of_sameItems a b h]
      | _ => cases h
  | .obj a, b, h => by
      cases b with
      | obj b => rw [eq_of_samePairs a b h]
      | _ => cases h

theorem eq_of_sameItems : ∀ (a b : List Json), sameItems a b = true → a = b
  | [], b, h => by
      cases b with
      | nil => rfl
      | cons => cases h
  | a :: rest, b, h => by
      cases b with
      | nil => cases h
      | cons b rest' =>
          obtain ⟨hfirst, hrest⟩ := Bool.and_eq_true_iff.mp h
          rw [eq_of_same a b hfirst, eq_of_sameItems rest rest' hrest]

theorem eq_of_samePairs : ∀ (a b : List (Str × Json)), samePairs a b = true → a = b
  | [], b, h => by
      cases b with
      | nil => rfl
      | cons => cases h
  | (key, a) :: rest, b, h => by
      cases b with
      | nil => cases h
      | cons pair rest' =>
          obtain ⟨key', b⟩ := pair
          obtain ⟨hfirst, hrest⟩ := Bool.and_eq_true_iff.mp h
          obtain ⟨hkey, hvalue⟩ := Bool.and_eq_true_iff.mp hfirst
          rw [eq_of_beq hkey, eq_of_same a b hvalue, eq_of_samePairs rest rest' hrest]

end

-- The value of a text, found by evaluation.
def loadsTo (s : Str) (j : Json) : Bool :=
  match loads s with
  | .ok value => same value j
  | .error _ => false

theorem loads_of_loadsTo (s : Str) (j : Json) (h : loadsTo s j = true) : loads s = .ok j := by
  unfold loadsTo at h
  split at h
  · rename_i value hs
    rw [hs, eq_of_same value j h]
  · cases h

end MesosPoc.Json
