namespace MesosPoc

-- What a method leaves behind: the object it has changed and the exception it
-- raised, if any. An exception does not undo the changes made before it.
structure Outcome (ε σ : Type) where
  state : σ
  raised : Option ε
deriving DecidableEq

namespace Outcome

variable {ε σ τ : Type}

def done (state : σ) : Outcome ε σ := ⟨state, none⟩

def raise (e : ε) (state : σ) : Outcome ε σ := ⟨state, some e⟩

def andThen (first : Outcome ε σ) (next : σ → Outcome ε σ) : Outcome ε σ :=
  match first.raised with
  | none => next first.state
  | some _ => first

-- The method of a part, run inside the whole.
def within (whole : σ → τ) (part : Outcome ε σ) : Outcome ε τ :=
  ⟨whole part.state, part.raised⟩

@[simp] theorem done_state (state : σ) : (done state : Outcome ε σ).state = state := rfl

@[simp] theorem done_raised (state : σ) : (done state : Outcome ε σ).raised = none := rfl

@[simp] theorem raise_state (e : ε) (state : σ) : (raise e state).state = state := rfl

@[simp] theorem raise_raised (e : ε) (state : σ) : (raise e state).raised = some e := rfl

@[simp] theorem done_andThen (state : σ) (next : σ → Outcome ε σ) :
    (done state).andThen next = next state := rfl

@[simp] theorem raise_andThen (e : ε) (state : σ) (next : σ → Outcome ε σ) :
    (raise e state).andThen next = raise e state := rfl

@[simp] theorem within_done (whole : σ → τ) (state : σ) :
    (done state : Outcome ε σ).within whole = done (whole state) := rfl

@[simp] theorem within_raise (whole : σ → τ) (e : ε) (state : σ) :
    (raise e state).within whole = raise e (whole state) := rfl

end Outcome

end MesosPoc
