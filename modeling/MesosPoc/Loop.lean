namespace MesosPoc.Loop

section Iterate

variable {σ ε : Type} {body : σ → Except ε σ}

-- The state of a loop with no exit of its own after a number of iterations of
-- its body, or the exception that ended it before.
def iterate (body : σ → Except ε σ) : Nat → σ → Except ε σ
  | 0, state => .ok state
  | count + 1, state =>
      match body state with
      | .ok next => iterate body count next
      | .error e => .error e

theorem iterate_succ_ok (count : Nat) (state next : σ) (h : body state = .ok next) :
    iterate body (count + 1) state = iterate body count next := by
  simp only [iterate, h]

theorem iterate_add_ok (first more : Nat) (state next : σ)
    (h : iterate body first state = .ok next) :
    iterate body (first + more) state = iterate body more next := by
  induction first generalizing state with
  | zero =>
      obtain rfl : state = next := Except.ok.inj h
      rw [Nat.zero_add]
  | succ count ih =>
      rw [Nat.add_right_comm]
      simp only [iterate] at h ⊢
      cases hb : body state with
      | ok after =>
          rw [hb] at h
          exact ih after h
      | error e => simp [hb] at h

-- A state that the body maps to itself is never left.
theorem iterate_fixed (count : Nat) (state : σ) (h : body state = .ok state) :
    iterate body count state = .ok state := by
  induction count with
  | zero => rfl
  | succ count ih => rw [iterate_succ_ok count state state h, ih]

-- A loop that keeps an invariant never raises.
theorem iterate_invariant {inv : σ → Prop}
    (hbody : ∀ state, inv state → ∃ next, body state = .ok next ∧ inv next)
    (count : Nat) (state : σ) (hs : inv state) :
    ∃ next, iterate body count state = .ok next ∧ inv next := by
  induction count generalizing state with
  | zero => exact ⟨state, rfl, hs⟩
  | succ count ih =>
      obtain ⟨after, hb, ha⟩ := hbody state hs
      rw [iterate_succ_ok count state after hb]
      exact ih after ha

end Iterate

end MesosPoc.Loop
