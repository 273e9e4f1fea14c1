import Mathlib.Data.List.Basic
import Mathlib.Data.List.Forall2

namespace MesosPoc

theorem bind_eq_ok {ε α β : Type} {x : Except ε α} {f : α → Except ε β} {b : β} :
    (x >>= f) = .ok b ↔ ∃ a, x = .ok a ∧ f a = .ok b := by
  cases x with
  | error e => simp [bind, Except.bind]
  | ok a => simp [bind, Except.bind]

-- A computation that gives a known value exactly when a condition holds, and
-- raises otherwise.
def Settles {ε α : Type} (result : Except ε α) (good : Prop) (value : α) : Prop :=
  (good → result = .ok value) ∧ (¬good → ∃ e, result = .error e)

-- A loop that appends what each of its iterations gives to one list.
def collect {ε α β : Type} (body : α → Except ε (List β)) : List α → Except ε (List β)
  | [] => .ok []
  | item :: rest => do
      let first ← body item
      let more ← collect body rest
      return first ++ more

namespace Settles

variable {ε α β γ : Type}

theorem ok (value : α) : Settles (.ok value : Except ε α) True value :=
  ⟨fun _ => rfl, fun h => absurd trivial h⟩

theorem error (e : ε) (value : α) : Settles (.error e : Except ε α) False value :=
  ⟨False.elim, fun _ => ⟨e, rfl⟩⟩

theorem congr {result : Except ε α} {good good' : Prop} {value : α} (h : Settles result good value)
    (hgood : good ↔ good') : Settles result good' value := by
  rw [← hgood]
  exact h

theorem ok_iff {result : Except ε α} {good : Prop} {value : α} (h : Settles result good value) :
    result = .ok value ↔ good := by
  constructor
  · intro hr
    by_contra hn
    obtain ⟨e, he⟩ := h.2 hn
    rw [hr] at he
    cases he
  · exact h.1

theorem after {first : Except ε α} {next : α → Except ε β} {a : α} {good : Prop} {value : β}
    (hfirst : first = .ok a) (h : Settles (next a) good value) : Settles (first >>= next) good value := by
  rw [hfirst]
  exact h

theorem raised {first : Except ε α} {next : α → Except ε β} {e : ε} {value : β}
    (hfirst : first = .error e) : Settles (first >>= next) False value := by
  rw [hfirst]
  exact error e value

theorem bind {first : Except ε α} {next : α → Except ε β} {good good' : Prop} {a : α} {value : β}
    (hfirst : Settles first good a) (hnext : Settles (next a) good' value) :
    Settles (first >>= next) (good ∧ good') value := by
  by_cases hg : good
  · rw [hfirst.1 hg]
    exact hnext.congr (and_iff_right hg).symm
  · obtain ⟨e, he⟩ := hfirst.2 hg
    exact (raised he).congr ⟨False.elim, fun h => hg h.1⟩

theorem map {first : Except ε α} {good : Prop} {a : α} (f : α → β) (h : Settles first good a) :
    Settles (first >>= fun a => pure (f a)) good (f a) := by
  have hlast : Settles (pure (f a) : Except ε β) True (f a) := ok (f a)
  exact (h.bind hlast).congr (and_iff_left trivial)

-- The items of a loop stand for values, and each iteration settles for its own.
theorem collect {body : α → Except ε (List β)} {stands : α → γ → Prop} {items : List α}
    {values : List γ} {good : γ → Prop} {f : γ → List β} (hitems : List.Forall₂ stands items values)
    (hbody : ∀ item value, value ∈ values → stands item value → Settles (body item) (good value) (f value)) :
    Settles (MesosPoc.collect body items) (∀ value ∈ values, good value) (values.flatMap f) := by
  induction hitems with
  | nil => exact (ok []).congr (by simp)
  | @cons item value items values hitem hrest ih =>
      have hfirst := hbody item value List.mem_cons_self hitem
      have hmore := ih fun item' value' hm hs => hbody item' value' (List.mem_cons_of_mem _ hm) hs
      rw [List.forall_mem_cons, List.flatMap_cons]
      exact hfirst.bind (hmore.map (f value ++ ·))

end Settles

end MesosPoc
