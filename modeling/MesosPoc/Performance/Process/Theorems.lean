import MesosPoc.Performance.Pods

namespace MesosPoc.Performance

section Polls

variable {checker : Checker} {beginTime : DateTime}

-- More polls only matter to a processEvents that still waits.
def Progress.andThen (next : Int → DateTime → List (Option Str) → Progress) (more : List (Option Str)) :
    Progress → Progress
  | .waiting target endTime => next target endTime more
  | .returned endTime rest => .returned endTime (rest ++ more)
  | .raised e => .raised e

theorem pollEvents_append (polls more : List (Option Str)) (target : Int) (endTime : DateTime) :
    pollEvents checker beginTime target endTime (polls ++ more) =
      (pollEvents checker beginTime target endTime polls).andThen (pollEvents checker beginTime) more := by
  induction polls generalizing target endTime with
  | nil => rfl
  | cons poll rest ih =>
      cases poll with
      | none => exact ih target endTime
      | some event =>
          simp only [List.cons_append, pollEvents]
          split
          · rfl
          · split
            · rfl
            · split
              · rfl
              · exact ih _ _

theorem processEvents_append (polls more : List (Option Str)) (target : Int) (ht : 0 < target) :
    processEvents checker beginTime target (polls ++ more) =
      (processEvents checker beginTime target polls).andThen (pollEvents checker beginTime) more := by
  rw [processEvents, processEvents, if_neg (by omega), if_neg (by omega), pollEvents_append]

@[simp] theorem taken_append (polls more : List (Option Str)) :
    taken (polls ++ more) = taken polls ++ taken more :=
  List.filterMap_append

@[simp] theorem acceptedEvents_append (polls more : List (Option Str)) :
    acceptedEvents checker beginTime (polls ++ more) =
      acceptedEvents checker beginTime polls ++ acceptedEvents checker beginTime more := by
  simp [acceptedEvents]

theorem acceptedEvents_nil : acceptedEvents checker beginTime [] = [] := rfl

theorem acceptedEvents_nothing (rest : List (Option Str)) :
    acceptedEvents checker beginTime (none :: rest) = acceptedEvents checker beginTime rest := rfl

theorem acceptedEvents_accepted (event : Str) (rest : List (Option Str))
    (ha : accepts checker beginTime event = true) :
    acceptedEvents checker beginTime (some event :: rest) =
      event :: acceptedEvents checker beginTime rest := by
  simp [acceptedEvents, taken, ha]

theorem acceptedEvents_rejected (event : Str) (rest : List (Option Str))
    (ha : accepts checker beginTime event = false) :
    acceptedEvents checker beginTime (some event :: rest) = acceptedEvents checker beginTime rest := by
  simp [acceptedEvents, taken, ha]

theorem pollEvents_rejected (event : Str) (rest : List (Option Str)) (target : Int)
    (endTime : DateTime) (ht : 0 < target) (hc : checker.check event beginTime = .ok none) :
    pollEvents checker beginTime target endTime (some event :: rest) =
      pollEvents checker beginTime target endTime rest := by
  have hzero : (count none target endTime).1 ≠ 0 := by
    simp only [count]
    omega
  have hneg : ¬(count none target endTime).1 < 0 := by
    simp only [count]
    omega
  simp only [pollEvents, hc, if_neg hzero, if_neg hneg]
  rfl

-- The event that is accepted while others are still awaited.
theorem pollEvents_accepted (event : Str) (rest : List (Option Str)) (target : Int)
    (endTime : DateTime) (ht : 1 < target) (record : Record)
    (hc : checker.check event beginTime = .ok (some record)) :
    pollEvents checker beginTime target endTime (some event :: rest) =
      pollEvents checker beginTime (target - 1)
        (if endTime < record.last then record.last else endTime) rest := by
  have hzero : (count (some record) target endTime).1 ≠ 0 := by
    simp only [count]
    omega
  have hneg : ¬(count (some record) target endTime).1 < 0 := by
    simp only [count]
    omega
  simp only [pollEvents, hc, if_neg hzero, if_neg hneg]
  rfl

theorem pollEvents_last (event : Str) (rest : List (Option Str)) (endTime : DateTime)
    (record : Record) (hc : checker.check event beginTime = .ok (some record)) :
    pollEvents checker beginTime 1 endTime (some event :: rest) =
      .returned (some (if endTime < record.last then record.last else endTime)) rest := by
  simp [pollEvents, hc, count]

-- The three things that a check of an event can do.
theorem check_cases (checker : Checker) (beginTime : DateTime) (event : Str) :
    (∃ e, checker.check event beginTime = .error e) ∨
      (checker.check event beginTime = .ok none ∧ accepts checker beginTime event = false) ∨
      ∃ record, checker.check event beginTime = .ok (some record) ∧
        accepts checker beginTime event = true := by
  cases hc : checker.check event beginTime with
  | error e => exact Or.inl ⟨e, rfl⟩
  | ok record =>
      cases record with
      | none => exact Or.inr (Or.inl ⟨rfl, by simp [accepts, hc]⟩)
      | some record => exact Or.inr (Or.inr ⟨record, rfl, by simp [accepts, hc]⟩)

-- What the loop has done with a list of polls: it still waits for what is left of
-- the target, it has returned with the last event it needs, or the checker has
-- raised on an event.
def Progress.Counts (checker : Checker) (beginTime : DateTime) (target : Int)
    (polls : List (Option Str)) : Progress → Prop
  | .waiting left _ => 0 < left ∧ left + (acceptedEvents checker beginTime polls).length = target
  | .returned _ rest =>
      ∃ before event, polls = before ++ some event :: rest ∧ accepts checker beginTime event = true ∧
        (acceptedEvents checker beginTime before).length + 1 = target
  | .raised _ => ∃ event ∈ taken polls, ∃ e, checker.check event beginTime = .error e

theorem Progress.Counts.nothing {target : Int} {rest : List (Option Str)} {progress : Progress}
    (h : progress.Counts checker beginTime target rest) :
    progress.Counts checker beginTime target (none :: rest) := by
  cases progress with
  | waiting left latest => exact h
  | returned endTime more =>
      obtain ⟨before, event, hpolls, ha, hcount⟩ := h
      exact ⟨none :: before, event, by rw [hpolls, List.cons_append], ha, hcount⟩
  | raised e => exact h

theorem Progress.Counts.rejected {target : Int} {first : Str} {rest : List (Option Str)}
    {progress : Progress} (hr : accepts checker beginTime first = false)
    (h : progress.Counts checker beginTime target rest) :
    progress.Counts checker beginTime target (some first :: rest) := by
  cases progress with
  | waiting left latest =>
      obtain ⟨hleft, hcount⟩ := h
      refine ⟨hleft, ?_⟩
      rw [acceptedEvents_rejected first rest hr]
      exact hcount
  | returned endTime more =>
      obtain ⟨before, event, hpolls, ha, hcount⟩ := h
      refine ⟨some first :: before, event, by rw [hpolls, List.cons_append], ha, ?_⟩
      rw [acceptedEvents_rejected first before hr]
      exact hcount
  | raised e =>
      obtain ⟨event, hm, he⟩ := h
      exact ⟨event, List.mem_cons_of_mem first hm, he⟩

theorem Progress.Counts.accepted {target : Int} {first : Str} {rest : List (Option Str)}
    {progress : Progress} (ha : accepts checker beginTime first = true)
    (h : progress.Counts checker beginTime (target - 1) rest) :
    progress.Counts checker beginTime target (some first :: rest) := by
  cases progress with
  | waiting left latest =>
      obtain ⟨hleft, hcount⟩ := h
      refine ⟨hleft, ?_⟩
      rw [acceptedEvents_accepted first rest ha, List.length_cons]
      push_cast
      omega
  | returned endTime more =>
      obtain ⟨before, event, hpolls, hlast, hcount⟩ := h
      refine ⟨some first :: before, event, by rw [hpolls, List.cons_append], hlast, ?_⟩
      rw [acceptedEvents_accepted first before ha, List.length_cons]
      push_cast
      omega
  | raised e =>
      obtain ⟨event, hm, he⟩ := h
      exact ⟨event, List.mem_cons_of_mem first hm, he⟩

-- The loop counts the accepted events down from the target.
theorem pollEvents_counts (polls : List (Option Str)) (target : Int) (endTime : DateTime)
    (ht : 0 < target) :
    (pollEvents checker beginTime target endTime polls).Counts checker beginTime target polls := by
  induction polls generalizing target endTime with
  | nil => exact ⟨ht, by simp [acceptedEvents_nil]⟩
  | cons poll rest ih =>
      cases poll with
      | none => exact (ih target endTime ht).nothing
      | some first =>
          rcases check_cases checker beginTime first with ⟨e, hc⟩ | ⟨hc, hr⟩ | ⟨record, hc, ha⟩
          · simp only [pollEvents, hc]
            exact ⟨first, List.mem_cons_self, e, hc⟩
          · rw [pollEvents_rejected first rest target endTime ht hc]
            exact (ih target endTime ht).rejected hr
          · by_cases hone : target = 1
            · subst hone
              rw [pollEvents_last first rest endTime record hc]
              exact ⟨[], first, rfl, ha, by simp [acceptedEvents_nil]⟩
            · rw [pollEvents_accepted first rest target endTime (by omega) record hc]
              exact (ih (target - 1) _ (by omega)).accepted ha

theorem processEvents_counts {polls : List (Option Str)} {target : Int} {progress : Progress}
    (ht : 0 < target) (h : processEvents checker beginTime target polls = progress) :
    progress.Counts checker beginTime target polls := by
  rw [processEvents, if_neg (by omega)] at h
  rw [← h]
  exact pollEvents_counts polls target DateTime.min ht

end Polls

end MesosPoc.Performance
