import MesosPoc.Outcome

namespace MesosPoc.Outcome

section ForEach

variable {ε σ α : Type}

-- A for loop. An exception of its body ends it.
def forEach (body : σ → α → Outcome ε σ) : σ → List α → Outcome ε σ
  | state, [] => done state
  | state, item :: rest => (body state item).andThen fun next => forEach body next rest

-- Every iteration that takes place meets a condition on the state before it and on
-- its item.
def Meets (body : σ → α → Outcome ε σ) (condition : σ → α → Prop) : σ → List α → Prop
  | _, [] => True
  | state, item :: rest =>
      condition state item ∧
        ((body state item).raised = none → Meets body condition (body state item).state rest)

variable {body : σ → α → Outcome ε σ}

theorem andThen_raised {first : Outcome ε σ} {e : ε} (next : σ → Outcome ε σ)
    (h : first.raised = some e) : first.andThen next = first := by
  unfold andThen
  rw [h]

theorem andThen_done {first : Outcome ε σ} (next : σ → Outcome ε σ) (h : first.raised = none) :
    first.andThen next = next first.state := by
  unfold andThen
  rw [h]

theorem meets_true (items : List α) (state : σ) : Meets body (fun _ _ => True) state items := by
  induction items generalizing state with
  | nil => trivial
  | cons item rest ih => exact ⟨trivial, fun _ => ih _⟩

theorem meets_congr {condition condition' : σ → α → Prop}
    (h : ∀ state item, condition state item ↔ condition' state item) (items : List α) (state : σ) :
    Meets body condition state items ↔ Meets body condition' state items := by
  induction items generalizing state with
  | nil => exact Iff.rfl
  | cons item rest ih =>
      unfold Meets
      rw [h, ih]

section Rules

variable (condition : σ → α → Prop) (inv : σ → Prop) (good : Outcome ε σ → Prop)

-- What the body keeps as long as it raises nothing, with what follows from it when the
-- loop ends.
theorem forEach_rule (hdone : ∀ state, inv state → good (done state))
    (hnext : ∀ state item, inv state → condition state item → (body state item).raised = none →
      inv (body state item).state)
    (hraise : ∀ state item e, inv state → condition state item → (body state item).raised = some e →
      good (body state item))
    (items : List α) (state : σ) (hs : inv state) (hm : Meets body condition state items) :
    good (forEach body state items) := by
  induction items generalizing state with
  | nil => exact hdone state hs
  | cons item rest ih =>
      obtain ⟨hitem, hrest⟩ := hm
      rw [forEach]
      cases hr : (body state item).raised with
      | none =>
          rw [andThen_done _ hr]
          exact ih _ (hnext state item hs hitem hr) (hrest hr)
      | some e =>
          rw [andThen_raised _ hr]
          exact hraise state item e hs hitem hr

-- Where one iteration that breaks the condition spoils the loop, the good runs are
-- exactly those whose iterations all meet it.
theorem forEach_iff (hdone : ∀ state, inv state → good (done state))
    (hnext : ∀ state item, inv state → condition state item → (body state item).raised = none →
      inv (body state item).state)
    (hraise : ∀ state item e, inv state → condition state item → (body state item).raised = some e →
      good (body state item))
    (hbreak : ∀ state item rest, inv state → ¬condition state item →
      ¬good ((body state item).andThen fun next => forEach body next rest))
    (items : List α) (state : σ) (hs : inv state) :
    good (forEach body state items) ↔ Meets body condition state items := by
  constructor
  · intro h
    induction items generalizing state with
    | nil => trivial
    | cons item rest ih =>
        by_cases hitem : condition state item
        · refine ⟨hitem, ?_⟩
          intro hr
          apply ih _ (hnext state item hs hitem hr)
          rw [forEach, andThen_done _ hr] at h
          exact h
        · exact absurd h (hbreak state item rest hs hitem)
  · exact forEach_rule condition inv good hdone hnext hraise items state hs

end Rules

end ForEach

end MesosPoc.Outcome
