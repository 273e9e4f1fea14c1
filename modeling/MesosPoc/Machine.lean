import Mathlib.Logic.Relation

namespace MesosPoc.Machine

section Runs

variable {σ α : Type*}

-- One enabled step of a labelled machine that meets a condition on the state
-- before it and on its label.
def Step (step : σ → α → Option σ) (allowed : σ → α → Prop) (before after : σ) : Prop :=
  ∃ label, allowed before label ∧ step before label = some after

def Reaches (step : σ → α → Option σ) (allowed : σ → α → Prop) : σ → σ → Prop :=
  Relation.ReflTransGen (Step step allowed)

-- The condition that every step meets: all interleavings are admitted.
def anyStep (_ : σ) (_ : α) : Prop := True

-- The state after a list of labels, none when one of them is not enabled.
def run (step : σ → α → Option σ) : σ → List α → Option σ
  | before, [] => some before
  | before, label :: rest => (step before label).bind fun after => run step after rest

-- Every step of a run meets the condition.
def Allowed (step : σ → α → Option σ) (allowed : σ → α → Prop) : σ → List α → Prop
  | _, [] => True
  | before, label :: rest =>
      ∀ after, step before label = some after → allowed before label ∧ Allowed step allowed after rest

-- Every state of a run is good, the first one included.
def Along (step : σ → α → Option σ) (good : σ → Prop) : σ → List α → Prop
  | before, [] => good before
  | before, label :: rest =>
      good before ∧ ∀ after, step before label = some after → Along step good after rest

variable {step : σ → α → Option σ} {allowed : σ → α → Prop}

instance decidableAllowed [∀ before label, Decidable (allowed before label)] :
    ∀ first labels, Decidable (Allowed step allowed first labels)
  | _, [] => inferInstanceAs (Decidable True)
  | before, label :: rest =>
      match h : step before label with
      | none => isTrue (fun after hs => by rw [h] at hs; cases hs)
      | some next =>
          have := decidableAllowed next rest
          decidable_of_iff (allowed before label ∧ Allowed step allowed next rest) <| by
            simp only [Allowed, h, Option.some.injEq, forall_eq']

-- A guarded command that took place.
theorem guarded_eq_some {guard : Prop} [Decidable guard] {after result : σ}
    (h : (if guard then some after else none) = some result) : guard ∧ after = result := by
  obtain ⟨hguard, hafter⟩ := Option.ite_none_right_eq_some.mp h
  exact ⟨hguard, Option.some.inj hafter⟩

theorem unguarded_eq_some {guard : Prop} [Decidable guard] {after result : σ}
    (h : (if guard then none else some after) = some result) : ¬guard ∧ after = result := by
  obtain ⟨hguard, hafter⟩ := Option.ite_none_left_eq_some.mp h
  exact ⟨hguard, Option.some.inj hafter⟩

theorem Reaches.refl (before : σ) : Reaches step allowed before before :=
  Relation.ReflTransGen.refl

theorem Reaches.tail {first before after : σ} (hr : Reaches step allowed first before) (label : α)
    (ha : allowed before label) (hs : step before label = some after) :
    Reaches step allowed first after :=
  Relation.ReflTransGen.tail hr ⟨label, ha, hs⟩

-- An invariant of every allowed step holds in every state reached.
theorem Reaches.invariant (inv : σ → Prop) {first last : σ} (hr : Reaches step allowed first last)
    (hfirst : inv first)
    (hstep : ∀ before label after, inv before → allowed before label →
      step before label = some after → inv after) : inv last := by
  induction hr with
  | refl => exact hfirst
  | tail _ hlast ih =>
      obtain ⟨label, ha, hs⟩ := hlast
      exact hstep _ label _ ih ha hs

theorem run_append (labels more : List α) {first last : σ} (hrun : run step first labels = some last) :
    run step first (labels ++ more) = run step last more := by
  induction labels generalizing first with
  | nil =>
      obtain rfl : first = last := Option.some.inj hrun
      rfl
  | cons label rest ih =>
      obtain ⟨next, hs, hrun⟩ := Option.bind_eq_some_iff.mp hrun
      rw [List.cons_append, run, hs, Option.bind_some, ih hrun]

-- An invariant of the labels so far and the state after them.
theorem run_invariant (inv : List α → σ → Prop)
    (hstep : ∀ past before label after, inv past before → step before label = some after →
      inv (past ++ [label]) after)
    (past labels : List α) {first last : σ} (hfirst : inv past first)
    (hrun : run step first labels = some last) : inv (past ++ labels) last := by
  induction labels generalizing past first with
  | nil =>
      obtain rfl : first = last := Option.some.inj hrun
      rw [List.append_nil]
      exact hfirst
  | cons label rest ih =>
      obtain ⟨next, hs, hrun⟩ := Option.bind_eq_some_iff.mp hrun
      have hnext := ih (past ++ [label]) (hstep past first label next hfirst hs) hrun
      rw [List.append_assoc] at hnext
      exact hnext

-- A run whose steps all meet the condition is a path of allowed steps.
theorem reaches_of_run (labels : List α) {first last : σ} (hrun : run step first labels = some last)
    (ha : Allowed step allowed first labels) : Reaches step allowed first last := by
  induction labels generalizing first with
  | nil =>
      obtain rfl : first = last := Option.some.inj hrun
      exact Reaches.refl first
  | cons label rest ih =>
      obtain ⟨next, hs, hrun⟩ := Option.bind_eq_some_iff.mp hrun
      obtain ⟨hlabel, hrest⟩ := ha next hs
      exact Relation.ReflTransGen.head ⟨label, hlabel, hs⟩ (ih hrun hrest)

theorem reaches_of_run_any (labels : List α) {first last : σ}
    (hrun : run step first labels = some last) : Reaches step anyStep first last := by
  apply reaches_of_run labels hrun
  clear hrun
  induction labels generalizing first with
  | nil => trivial
  | cons label rest ih => exact fun _ _ => ⟨trivial, ih⟩

theorem Along.first {good : σ → Prop} {labels : List α} {first : σ}
    (h : Along step good first labels) : good first := by
  cases labels with
  | nil => exact h
  | cons label rest => exact h.1

theorem Along.last {good : σ → Prop} {labels : List α} {first last : σ}
    (h : Along step good first labels) (hrun : run step first labels = some last) : good last := by
  induction labels generalizing first with
  | nil =>
      obtain rfl : first = last := Option.some.inj hrun
      exact h
  | cons label rest ih =>
      obtain ⟨next, hs, hrest⟩ := Option.bind_eq_some_iff.mp hrun
      exact ih (h.2 next hs) hrest

-- Where an invariant makes every state good and the first step that breaks the
-- condition leads to a bad state, the good runs are exactly the allowed ones.
theorem along_iff_allowed {good inv : σ → Prop} (hgood : ∀ s, inv s → good s)
    (hstep : ∀ before label after, inv before → allowed before label →
      step before label = some after → inv after)
    (hbreak : ∀ before label after, inv before → ¬allowed before label →
      step before label = some after → ¬good after)
    (labels : List α) (first : σ) (hfirst : inv first) :
    Along step good first labels ↔ Allowed step allowed first labels := by
  induction labels generalizing first with
  | nil => exact iff_of_true (hgood first hfirst) trivial
  | cons label rest ih =>
      constructor
      · rintro ⟨-, hrest⟩ after hs
        by_cases ha : allowed first label
        · exact ⟨ha, (ih after (hstep first label after hfirst ha hs)).mp (hrest after hs)⟩
        · exact absurd (hrest after hs).first (hbreak first label after hfirst ha hs)
      · intro h
        refine ⟨hgood first hfirst, ?_⟩
        intro after hs
        obtain ⟨ha, hrest⟩ := h after hs
        exact (ih after (hstep first label after hfirst ha hs)).mpr hrest

end Runs

section Simulation

variable {σ α τ β γ : Type*} {step : σ → α → Option σ} {allowed : σ → α → Prop}
  {step' : τ → β → Option τ} {allowed' : τ → β → Prop}

theorem Allowed.and {other : σ → α → Prop} {first : σ} {labels : List α} (ha : Allowed step allowed first labels)
    (ho : ∀ label ∈ labels, ∀ before, other before label) :
    Allowed step (fun before label => allowed before label ∧ other before label) first labels := by
  induction labels generalizing first with
  | nil => trivial
  | cons label rest ih =>
      obtain ⟨hlabel, hrest⟩ := List.forall_mem_cons.mp ho
      intro after hs
      obtain ⟨hfirst, hafter⟩ := ha after hs
      exact ⟨⟨hfirst, hlabel first⟩, ih hafter hrest⟩

-- A condition on the labels alone.
theorem allowed_of_forall {good : α → Prop} {first : σ} {labels : List α} (h : ∀ label ∈ labels, good label) :
    Allowed step (fun _ label => good label) first labels := by
  induction labels generalizing first with
  | nil => trivial
  | cons label rest ih =>
      obtain ⟨hlabel, hrest⟩ := List.forall_mem_cons.mp h
      exact fun _ _ => ⟨hlabel, ih hrest⟩

theorem forall_of_allowed {good : α → Prop} {first last : σ} {labels : List α}
    (ha : Allowed step (fun _ label => good label) first labels) (hrun : run step first labels = some last) :
    ∀ label ∈ labels, good label := by
  induction labels generalizing first with
  | nil => simp
  | cons label rest ih =>
      obtain ⟨next, hs, hrun⟩ := Option.bind_eq_some_iff.mp hrun
      obtain ⟨hlabel, hrest⟩ := ha next hs
      exact List.forall_mem_cons.mpr ⟨hlabel, ih hrest hrun⟩

theorem Allowed.append {first last : σ} {labels more : List α} (ha : Allowed step allowed first labels)
    (hrun : run step first labels = some last) (hmore : Allowed step allowed last more) :
    Allowed step allowed first (labels ++ more) := by
  induction labels generalizing first with
  | nil =>
      obtain rfl : first = last := Option.some.inj hrun
      exact hmore
  | cons label rest ih =>
      intro after hs
      obtain ⟨hlabel, hrest⟩ := ha after hs
      rw [run, hs, Option.bind_some] at hrun
      exact ⟨hlabel, ih hrest hrun⟩

-- Where every allowed step of one machine is a few allowed steps of another, with the same
-- trace, every allowed run is one of the other.
theorem run_of_simulation (related : σ → τ → Prop) (trace : α → List γ) (trace' : β → List γ)
    (hsim : ∀ s c label t, related s c → allowed s label → step s label = some t →
      ∃ labels c', run step' c labels = some c' ∧ Allowed step' allowed' c labels ∧
        labels.flatMap trace' = trace label ∧ related t c')
    (labels : List α) {s t : σ} {c : τ} (hrelated : related s c) (ha : Allowed step allowed s labels)
    (hrun : run step s labels = some t) :
    ∃ labels' c', run step' c labels' = some c' ∧ Allowed step' allowed' c labels' ∧
      labels'.flatMap trace' = labels.flatMap trace ∧ related t c' := by
  induction labels generalizing s c with
  | nil =>
      obtain rfl : s = t := Option.some.inj hrun
      exact ⟨[], c, rfl, trivial, rfl, hrelated⟩
  | cons label rest ih =>
      obtain ⟨next, hs, hrun⟩ := Option.bind_eq_some_iff.mp hrun
      obtain ⟨hlabel, hrest⟩ := ha next hs
      obtain ⟨labels', c', hrun', ha', htrace, hnext⟩ := hsim s c label next hrelated hlabel hs
      obtain ⟨more, last, hmore, hamore, htraces, hlast⟩ := ih hnext hrest hrun
      refine ⟨labels' ++ more, last, ?_, ha'.append hrun' hamore, ?_, hlast⟩
      · rw [run_append labels' more hrun', hmore]
      · rw [List.flatMap_append, htrace, htraces, List.flatMap_cons]

end Simulation

end MesosPoc.Machine
