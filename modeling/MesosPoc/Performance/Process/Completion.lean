import MesosPoc.Performance.Process.Counting
import MesosPoc.RunningMax

namespace MesosPoc.Performance

open RunningMax

-- The result of processEvents, without the polls that it has not needed.
def Progress.result : Progress → Progress
  | .returned endTime _ => .returned endTime []
  | progress => progress

section Times

variable (checker : Checker) (beginTime : DateTime)

-- record[3] of an event that the checker accepts.
def completionTime (event : Str) : Option DateTime :=
  match checker.check event beginTime with
  | .ok (some record) => some record.last
  | _ => none

def completionTimes (polls : List (Option Str)) : List DateTime :=
  (acceptedEvents checker beginTime polls).filterMap (completionTime checker beginTime)

-- The checker raises on no event that is taken before the target is reached.
def CheckerReturns (target : Int) (polls : List (Option Str)) : Prop :=
  ∀ before event after, polls = before ++ some event :: after →
    ((acceptedEvents checker beginTime before).length : Int) < target →
    ∃ record, checker.check event beginTime = .ok record

end Times

-- With n accepted events processEvents has returned the latest of their times at
-- the n-th of them, with fewer it waits, and no other event matters.
structure CompletesAt (checker : Checker) (beginTime : DateTime) (n : Nat)
    (polls : List (Option Str)) : Prop where
  waits : (∃ left latest, processEvents checker beginTime n polls = .waiting left latest) ↔
    (acceptedEvents checker beginTime polls).length < n
  returns : n ≤ (acceptedEvents checker beginTime polls).length →
    ∃ before event after endTime, polls = before ++ some event :: after ∧
      accepts checker beginTime event = true ∧
      (acceptedEvents checker beginTime before).length + 1 = n ∧
      processEvents checker beginTime n polls = .returned (some endTime) after ∧
      endTime ∈ ((acceptedEvents checker beginTime polls).take n).filterMap
        (completionTime checker beginTime) ∧
      (∀ t ∈ ((acceptedEvents checker beginTime polls).take n).filterMap
        (completionTime checker beginTime), t ≤ endTime) ∧
      beginTime ≤ endTime
  raises : ∀ e, processEvents checker beginTime n polls ≠ .raised e
  rejected : (processEvents checker beginTime n polls).result =
    (processEvents checker beginTime n ((acceptedEvents checker beginTime polls).map some)).result

section Completion

variable {checker : Checker} {beginTime : DateTime}

theorem completionTime_accepted (event : Str) (record : Record)
    (hc : checker.check event beginTime = .ok (some record)) :
    completionTime checker beginTime event = some record.last := by
  simp only [completionTime, hc]

theorem completionTimes_nil : completionTimes checker beginTime [] = [] := rfl

theorem completionTimes_nothing (rest : List (Option Str)) :
    completionTimes checker beginTime (none :: rest) = completionTimes checker beginTime rest := rfl

theorem completionTimes_rejected (event : Str) (rest : List (Option Str))
    (hr : accepts checker beginTime event = false) :
    completionTimes checker beginTime (some event :: rest) = completionTimes checker beginTime rest := by
  rw [completionTimes, acceptedEvents_rejected event rest hr, completionTimes]

theorem completionTimes_accepted (event : Str) (rest : List (Option Str)) (record : Record)
    (hc : checker.check event beginTime = .ok (some record))
    (ha : accepts checker beginTime event = true) :
    completionTimes checker beginTime (some event :: rest) =
      record.last :: completionTimes checker beginTime rest := by
  rw [completionTimes, acceptedEvents_accepted event rest ha,
    List.filterMap_cons_some (completionTime_accepted event record hc), completionTimes]

theorem CheckerReturns.first {target : Int} {event : Str} {rest : List (Option Str)}
    (h : CheckerReturns checker beginTime target (some event :: rest)) (ht : 0 < target) :
    ∃ record, checker.check event beginTime = .ok record :=
  h [] event rest rfl (by simpa [acceptedEvents, taken] using ht)

theorem CheckerReturns.nothing {target : Int} {rest : List (Option Str)}
    (h : CheckerReturns checker beginTime target (none :: rest)) :
    CheckerReturns checker beginTime target rest := by
  intro before event after hp hcount
  exact h (none :: before) event after (by rw [hp, List.cons_append]) hcount

theorem CheckerReturns.rejected {target : Int} {first : Str} {rest : List (Option Str)}
    (h : CheckerReturns checker beginTime target (some first :: rest))
    (hr : accepts checker beginTime first = false) : CheckerReturns checker beginTime target rest := by
  intro before event after hp hcount
  apply h (some first :: before) event after (by rw [hp, List.cons_append])
  rw [acceptedEvents_rejected first before hr]
  exact hcount

theorem CheckerReturns.accepted {target : Int} {first : Str} {rest : List (Option Str)}
    (h : CheckerReturns checker beginTime target (some first :: rest))
    (ha : accepts checker beginTime first = true) :
    CheckerReturns checker beginTime (target - 1) rest := by
  intro before event after hp hcount
  apply h (some first :: before) event after (by rw [hp, List.cons_append])
  rw [acceptedEvents_accepted first before ha, List.length_cons]
  push_cast
  omega

-- What the variable endTime, or the value returned, is after a list of polls.
def Progress.Reports (checker : Checker) (beginTime start : DateTime) (polls : List (Option Str)) :
    Progress → Prop
  | .waiting _ latest => latest = greatest start (completionTimes checker beginTime polls)
  | .returned result rest =>
      ∃ consumed, polls = consumed ++ rest ∧
        result = some (greatest start (completionTimes checker beginTime consumed))
  | .raised _ => False

theorem Progress.Reports.skip {start : DateTime} {poll : Option Str} {rest : List (Option Str)}
    {progress : Progress}
    (hskip : ∀ more, completionTimes checker beginTime (poll :: more) = completionTimes checker beginTime more)
    (h : progress.Reports checker beginTime start rest) :
    progress.Reports checker beginTime start (poll :: rest) := by
  cases progress with
  | waiting left latest =>
      rw [Progress.Reports, hskip rest]
      exact h
  | returned result more =>
      obtain ⟨consumed, hrest, hresult⟩ := h
      exact ⟨poll :: consumed, by rw [hrest, List.cons_append], by rw [hskip consumed, hresult]⟩
  | raised e => exact h

theorem Progress.Reports.accepted {start : DateTime} {event : Str} {rest : List (Option Str)}
    {progress : Progress} (record : Record) (hc : checker.check event beginTime = .ok (some record))
    (ha : accepts checker beginTime event = true)
    (h : progress.Reports checker beginTime (max start record.last) rest) :
    progress.Reports checker beginTime start (some event :: rest) := by
  cases progress with
  | waiting left latest =>
      rw [Progress.Reports, completionTimes_accepted event rest record hc ha, greatest_cons]
      exact h
  | returned result more =>
      obtain ⟨consumed, hrest, hresult⟩ := h
      refine ⟨some event :: consumed, by rw [hrest, List.cons_append], ?_⟩
      rw [completionTimes_accepted event consumed record hc ha, greatest_cons, hresult]
  | raised e => exact h

-- The running maximum of the loop, over any order of events and empty polls.
theorem pollEvents_reports (polls : List (Option Str)) (target : Int) (endTime : DateTime)
    (ht : 0 < target) (hreturns : CheckerReturns checker beginTime target polls) :
    (pollEvents checker beginTime target endTime polls).Reports checker beginTime endTime polls := by
  induction polls generalizing target endTime with
  | nil => rfl
  | cons poll rest ih =>
      cases poll with
      | none => exact (ih target endTime ht hreturns.nothing).skip completionTimes_nothing
      | some event =>
          rcases check_cases checker beginTime event with ⟨e, hc⟩ | ⟨hc, hr⟩ | ⟨record, hc, ha⟩
          · obtain ⟨record, hrecord⟩ := hreturns.first ht
            rw [hc] at hrecord
            cases hrecord
          · rw [pollEvents_rejected event rest target endTime ht hc]
            exact (ih target endTime ht (hreturns.rejected hr)).skip
              fun more => completionTimes_rejected event more hr
          · by_cases hone : target = 1
            · subst hone
              rw [pollEvents_last event rest endTime record hc, ite_lt_eq_max]
              refine ⟨[some event], rfl, ?_⟩
              rw [completionTimes_accepted event [] record hc ha, completionTimes_nil, greatest_cons,
                greatest_nil]
            · rw [pollEvents_accepted event rest target endTime (by omega) record hc, ite_lt_eq_max]
              exact (ih (target - 1) _ (by omega) (hreturns.accepted ha)).accepted record hc ha

-- Empty polls and rejected events can be left out.
theorem pollEvents_acceptedEvents (polls : List (Option Str)) (target : Int) (endTime : DateTime)
    (ht : 0 < target) (hreturns : CheckerReturns checker beginTime target polls) :
    (pollEvents checker beginTime target endTime polls).result =
      (pollEvents checker beginTime target endTime
        ((acceptedEvents checker beginTime polls).map some)).result := by
  induction polls generalizing target endTime with
  | nil => rfl
  | cons poll rest ih =>
      cases poll with
      | none => exact ih target endTime ht hreturns.nothing
      | some event =>
          rcases check_cases checker beginTime event with ⟨e, hc⟩ | ⟨hc, hr⟩ | ⟨record, hc, ha⟩
          · obtain ⟨record, hrecord⟩ := hreturns.first ht
            rw [hc] at hrecord
            cases hrecord
          · rw [pollEvents_rejected event rest target endTime ht hc, acceptedEvents_rejected event rest hr]
            exact ih target endTime ht (hreturns.rejected hr)
          · rw [acceptedEvents_accepted event rest ha, List.map_cons]
            by_cases hone : target = 1
            · subst hone
              rw [pollEvents_last event rest endTime record hc, pollEvents_last event _ endTime record hc]
              rfl
            · rw [pollEvents_accepted event rest target endTime (by omega) record hc,
                pollEvents_accepted event _ target endTime (by omega) record hc]
              exact ih (target - 1) _ (by omega) (hreturns.accepted ha)

-- No accepted event was completed before the begin time.
theorem beginTime_le_completionTime (event : Str) (t : DateTime)
    (h : completionTime checker beginTime event = some t) : beginTime ≤ t := by
  unfold completionTime at h
  split at h
  · rename_i record hc
    obtain rfl : record.last = t := Option.some.inj h
    obtain ⟨type, containerTime, firstTime, object, pod, hm⟩ :=
      exists_matches checker event beginTime record hc
    exact hm.since
  · cases h

theorem completionTimes_ne_nil (before : List (Option Str)) (event : Str)
    (ha : accepts checker beginTime event = true) :
    completionTimes checker beginTime (before ++ [some event]) ≠ [] := by
  obtain ⟨record, hc⟩ := (accepts_iff checker beginTime event).mp ha
  have hlast : completionTime checker beginTime event = some record.last :=
    completionTime_accepted event record hc
  rw [completionTimes, acceptedEvents_append, acceptedEvents_accepted event [] ha, List.filterMap_append,
    List.filterMap_cons_some hlast]
  simp

-- The events accepted up to the n-th are the first n of them all.
theorem acceptedEvents_take (before rest : List (Option Str)) (event : Str) (n : Nat)
    (ha : accepts checker beginTime event = true)
    (hcount : (acceptedEvents checker beginTime before).length + 1 = n) :
    (acceptedEvents checker beginTime ((before ++ [some event]) ++ rest)).take n =
      acceptedEvents checker beginTime (before ++ [some event]) := by
  rw [acceptedEvents_append (before ++ [some event])]
  apply List.take_left'
  rw [acceptedEvents_append, acceptedEvents_accepted event [] ha, acceptedEvents_nil, List.length_append]
  exact hcount

theorem processEvents_result (n : Nat) (hn : 1 ≤ n) (polls : List (Option Str))
    (hreturns : CheckerReturns checker beginTime n polls) :
    (processEvents checker beginTime n polls).result =
      (processEvents checker beginTime n ((acceptedEvents checker beginTime polls).map some)).result := by
  rw [processEvents, processEvents, if_neg (by omega), if_neg (by omega)]
  exact pollEvents_acceptedEvents polls n DateTime.min (by omega) hreturns

theorem processEvents_reports (n : Nat) (hn : 1 ≤ n) (polls : List (Option Str))
    (hreturns : CheckerReturns checker beginTime n polls) :
    (processEvents checker beginTime n polls).Reports checker beginTime DateTime.min polls := by
  rw [processEvents, if_neg (by omega)]
  exact pollEvents_reports polls n DateTime.min (by omega) hreturns

theorem completesAt_waiting (n : Nat) (hn : 1 ≤ n) (polls : List (Option Str))
    (hreturns : CheckerReturns checker beginTime n polls) (left : Int) (latest : DateTime)
    (hp : processEvents checker beginTime n polls = .waiting left latest) :
    CompletesAt checker beginTime n polls := by
  have ht : 0 < (n : Int) := by omega
  obtain ⟨hleft, hcount⟩ := processEvents_counts ht hp
  have hfew : (acceptedEvents checker beginTime polls).length < n := by omega
  refine ⟨⟨fun _ => hfew, fun _ => ⟨left, latest, hp⟩⟩, fun hmany => by omega, ?_,
    processEvents_result n hn polls hreturns⟩
  intro e he
  rw [hp] at he
  cases he

theorem completesAt_returned (n : Nat) (hn : 1 ≤ n) (polls rest : List (Option Str))
    (hreturns : CheckerReturns checker beginTime n polls) (result : Option DateTime)
    (hp : processEvents checker beginTime n polls = .returned result rest) :
    CompletesAt checker beginTime n polls := by
  have ht : 0 < (n : Int) := by omega
  have hreports := processEvents_reports n hn polls hreturns
  obtain ⟨before, event, hpolls, ha, hcount⟩ := processEvents_counts ht hp
  rw [hp] at hreports
  obtain ⟨consumed, hconsumed, hreport⟩ := hreports
  have hsplit : polls = (before ++ [some event]) ++ rest := by
    rw [hpolls, List.append_assoc]
    rfl
  obtain rfl : consumed = before ++ [some event] :=
    List.append_cancel_right (hconsumed.symm.trans hsplit)
  have hbefore : (acceptedEvents checker beginTime before).length + 1 = n := by omega
  have hfirst := acceptedEvents_take before rest event n ha hbefore
  rw [← hsplit] at hfirst
  have hmany : n ≤ (acceptedEvents checker beginTime polls).length := by
    rw [hpolls, acceptedEvents_append, acceptedEvents_accepted event rest ha, List.length_append,
      List.length_cons]
    omega
  have hmem := greatest_mem_of_ne_nil DateTime.min _ DateTime.min_le
    (completionTimes_ne_nil before event ha)
  refine ⟨⟨?_, fun hfew => by omega⟩, ?_, ?_, processEvents_result n hn polls hreturns⟩
  · rintro ⟨left, latest, hw⟩
    rw [hp] at hw
    cases hw
  · intro _
    refine ⟨before, event, rest, _, hpolls, ha, hbefore, by rw [hp, hreport], ?_, ?_, ?_⟩
    · rw [hfirst]
      exact hmem
    · rw [hfirst]
      exact fun t htime => le_greatest DateTime.min t _ htime
    · obtain ⟨accepted, -, htime⟩ := List.mem_filterMap.mp hmem
      exact beginTime_le_completionTime accepted _ htime
  · intro e he
    rw [hp] at he
    cases he

-- processEvents computes the completion time of the case.
theorem processEvents_completes (checker : Checker) (beginTime : DateTime) (n : Nat) (hn : 1 ≤ n)
    (polls : List (Option Str)) (hreturns : CheckerReturns checker beginTime n polls) :
    CompletesAt checker beginTime n polls := by
  cases hp : processEvents checker beginTime n polls with
  | waiting left latest => exact completesAt_waiting n hn polls hreturns left latest hp
  | returned result rest => exact completesAt_returned n hn polls rest hreturns result hp
  | raised e =>
      have hreports := processEvents_reports n hn polls hreturns
      rw [hp] at hreports
      exact hreports.elim

theorem checkerReturns_of_taken (target : Int) (polls : List (Option Str))
    (h : ((taken polls).all fun event => holds (checker.check event beginTime) fun _ => true) = true) :
    CheckerReturns checker beginTime target polls := by
  intro before event after hp _
  have hm : event ∈ taken polls := by
    rw [hp, taken_append]
    exact List.mem_append_right _ List.mem_cons_self
  obtain ⟨record, hrecord, -⟩ := (holds_iff _ _).mp (List.all_eq_true.mp h event hm)
  exact ⟨record, hrecord⟩

end Completion

theorem podReady_taken :
    ((taken [none, some "\n".toList, some podReady]).all fun event =>
      holds (Checker.check .creation event caseBegin) fun _ => true) = true := by
  decide +kernel

theorem podReady_completes :
    1 ≤ 1 ∧ CheckerReturns .creation caseBegin (1 : Nat) [none, some "\n".toList, some podReady] ∧
      CompletesAt .creation caseBegin 1 [none, some "\n".toList, some podReady] := by
  have hreturns : CheckerReturns .creation caseBegin (1 : Nat) [none, some "\n".toList, some podReady] :=
    checkerReturns_of_taken (1 : Nat) _ podReady_taken
  exact ⟨le_rfl, hreturns, processEvents_completes .creation caseBegin 1 le_rfl _ hreturns⟩

end MesosPoc.Performance
