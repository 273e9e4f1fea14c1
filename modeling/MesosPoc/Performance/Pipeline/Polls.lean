import MesosPoc.Performance.Pipeline

namespace MesosPoc.Performance

-- What the try block gets from processEvents.
def Progress.ended : Progress → Option (Except PyError (Option DateTime))
  | .waiting _ _ => none
  | .raised e => some (.error e)
  | .returned endTime _ => some (.ok endTime)

section Polls

variable {check : Str → Except PyError (Option Record)}

-- A loop that has ended needs no more polls.
theorem pollWith_append (polls more : List (Option Str)) (target : Int) (endTime : DateTime)
    {result : Except PyError (Option DateTime)} (h : (pollWith check target endTime polls).ended = some result) :
    (pollWith check target endTime (polls ++ more)).ended = some result := by
  induction polls generalizing target endTime with
  | nil => cases h
  | cons poll rest ih =>
      cases poll with
      | none => exact ih target endTime h
      | some event =>
          rw [pollWith] at h
          rw [List.cons_append, pollWith]
          cases hcheck : check event with
          | error e =>
              rw [hcheck] at h
              exact h
          | ok record =>
              rw [hcheck] at h
              simp only at h ⊢
              split
              · rename_i hzero
                rw [if_pos hzero] at h
                exact h
              · rename_i hzero
                rw [if_neg hzero] at h
                split
                · rename_i hnegative
                  rw [if_pos hnegative] at h
                  exact h
                · rename_i hnegative
                  rw [if_neg hnegative] at h
                  exact ih _ _ h

-- An empty poll changes nothing.
theorem pollWith_taken (polls : List (Option Str)) (target : Int) (endTime : DateTime) :
    (pollWith check target endTime polls).ended =
      (pollWith check target endTime ((taken polls).map some)).ended := by
  induction polls generalizing target endTime with
  | nil => rfl
  | cons poll rest ih =>
      cases poll with
      | none => exact ih target endTime
      | some event =>
          have htaken : taken (some event :: rest) = event :: taken rest := rfl
          rw [htaken, List.map_cons, pollWith, pollWith]
          cases check event with
          | error e => rfl
          | ok record =>
              simp only
              split
              · rfl
              · split
                · rfl
                · exact ih _ _

theorem processWith_append (polls more : List (Option Str)) (target : Int)
    {result : Except PyError (Option DateTime)} (h : (processWith check target polls).ended = some result) :
    (processWith check target (polls ++ more)).ended = some result := by
  unfold processWith at h ⊢
  by_cases htarget : target ≤ 0
  · rw [if_pos htarget] at h ⊢
    exact h
  · rw [if_neg htarget] at h ⊢
    exact pollWith_append polls more target DateTime.min h

theorem processWith_taken (polls : List (Option Str)) (target : Int) :
    (processWith check target polls).ended = (processWith check target ((taken polls).map some)).ended := by
  unfold processWith
  split
  · rfl
  · exact pollWith_taken polls target DateTime.min

end Polls

section Mains

variable {w : World} {polls polls' : List (Option Str)}

-- The try block, once it is left, has been left with the result of processEvents.
theorem measureCase_ended (case : Json) (s : Settings) (polls polls' : List (Option Str))
    (h : ∀ check target result, (processWith check target polls).ended = some result →
      (processWith check target polls').ended = some result)
    (body : Outcome PyError (Option (Option DateTime))) (hbody : measureCase { w with polls := polls } case s = some body) :
    measureCase { w with polls := polls' } case s = some body := by
  have hstart : ∀ p, startCase { w with polls := p } case s.target = startCase w case s.target := fun _ => rfl
  unfold measureCase at hbody ⊢
  rw [hstart] at hbody ⊢
  cases hcommand : startCase w case s.target with
  | error e =>
      rw [hcommand] at hbody
      exact hbody
  | ok target =>
      rw [hcommand] at hbody
      simp only at hbody ⊢
      by_cases hchecker : s.checker.truthy = true
      · rw [if_pos hchecker] at hbody ⊢
        have hended := h (fun event => checkerOf w s.checker event w.beginTime) target
        have hcheck : ∀ p : List (Option Str), (fun event =>
            checkerOf { w with polls := p } s.checker event w.beginTime) =
              fun event => checkerOf w s.checker event w.beginTime := fun _ => rfl
        rw [hcheck] at hbody ⊢
        cases hresult : processWith (fun event => checkerOf w s.checker event w.beginTime) target polls with
        | waiting left latest =>
            rw [hresult] at hbody
            cases hbody
        | raised e =>
            rw [hresult] at hbody hended
            have hsame := hended _ rfl
            cases hother : processWith (fun event => checkerOf w s.checker event w.beginTime) target polls' with
            | waiting left latest =>
                rw [hother] at hsame
                cases hsame
            | raised e' =>
                rw [hother] at hsame
                obtain rfl : e' = e := Except.error.inj (Option.some.inj hsame)
                exact hbody
            | returned endTime rest =>
                rw [hother] at hsame
                cases hsame
        | returned endTime rest =>
            rw [hresult] at hbody hended
            have hsame := hended _ rfl
            cases hother : processWith (fun event => checkerOf w s.checker event w.beginTime) target polls' with
            | waiting left latest =>
                rw [hother] at hsame
                cases hsame
            | raised e' =>
                rw [hother] at hsame
                cases hsame
            | returned endTime' rest' =>
                rw [hother] at hsame
                obtain rfl : endTime' = endTime := Except.ok.inj (Option.some.inj hsame)
                exact hbody
      · rw [if_neg hchecker] at hbody ⊢
        exact hbody

theorem mainAfter_ended (polls polls' : List (Option Str))
    (h : ∀ check target result, (processWith check target polls).ended = some result →
      (processWith check target polls').ended = some result)
    (outcome : Outcome PyError (List Action)) (hmain : mainAfter w polls = some outcome) :
    mainAfter w polls' = some outcome := by
  unfold mainAfter main at hmain ⊢
  have hload : ∀ p, loadTestCase { w with polls := p } = loadTestCase w := fun _ => rfl
  have hread : ∀ p case, readSettings { w with polls := p } case = readSettings w case := fun _ _ => rfl
  simp only [hload, hread] at hmain ⊢
  cases hcase : loadTestCase w with
  | error e =>
      rw [hcase] at hmain
      exact hmain
  | ok case =>
      rw [hcase] at hmain
      simp only at hmain ⊢
      by_cases htruthy : case.truthy = true
      · rw [if_pos htruthy] at hmain ⊢
        cases hsettings : readSettings w case with
        | error e =>
            rw [hsettings] at hmain
            exact hmain
        | ok s =>
            rw [hsettings] at hmain
            simp only at hmain ⊢
            cases hprinted : w.beginTime.strftime with
            | error e =>
                rw [hprinted] at hmain
                exact hmain
            | ok _ =>
                rw [hprinted] at hmain
                obtain ⟨body, hbody, hclosed⟩ := Option.map_eq_some_iff.mp hmain
                simp only [measureCase_ended case s polls polls' h body hbody, Option.map_some, ← hclosed]
                rfl
      · rw [if_neg htruthy] at hmain ⊢
        exact hmain

-- A main that has ended needs no more polls, and empty ones never matter.

theorem mainAfter_append (polls more : List (Option Str)) (outcome : Outcome PyError (List Action))
    (h : mainAfter w polls = some outcome) : mainAfter w (polls ++ more) = some outcome :=
  mainAfter_ended polls (polls ++ more) (fun _ target _ => processWith_append polls more target) outcome h

theorem mainAfter_taken (polls : List (Option Str)) :
    mainAfter w polls = mainAfter w ((taken polls).map some) := by
  apply Option.ext
  intro outcome
  constructor
  · intro h
    refine mainAfter_ended polls _ ?_ outcome h
    intro check target result hresult
    rw [← processWith_taken]
    exact hresult
  · intro h
    refine mainAfter_ended _ polls ?_ outcome h
    intro check target result hresult
    rw [processWith_taken]
    exact hresult

end Mains

end MesosPoc.Performance
