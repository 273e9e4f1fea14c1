import MesosPoc.Performance.Process.Theorems
import MesosPoc.RunningMax

namespace MesosPoc.Performance

-- processEvents has counted pods: as many different pods as the target says are
-- running and ready (or deleted), and an event of a pod that it has counted
-- leaves what is left of the target as it is.
structure CountsPods (checker : Checker) (beginTime : DateTime) (target : Int)
    (consumed : List (Option Str)) : Prop where
  pods : ∃ pods : List PodId, pods.Nodup ∧ target ≤ pods.length ∧
    ∀ pod ∈ pods, ∃ event ∈ taken consumed, eventPod event = .ok pod ∧
      happenedSince beginTime event checker = true
  once : ∀ before event after, consumed = before ++ some event :: after →
    (∃ earlier ∈ acceptedEvents checker beginTime before, eventPod earlier = eventPod event) →
    ∀ left endTime, processEvents checker beginTime target before = .waiting left endTime →
      ∃ latest, processEvents checker beginTime target (before ++ [some event]) = .waiting left latest

-- No two of the accepted events are about the same pod.
def AcceptedOnce (checker : Checker) (beginTime : DateTime) (consumed : List (Option Str)) : Prop :=
  (acceptedEvents checker beginTime consumed).Pairwise fun a b => eventPod a ≠ eventPod b

-- Different results, one for each entry of a list.
theorem exists_values {ε α β : Type} (f : α → Except ε β) (entries : List α)
    (hdistinct : entries.Pairwise fun a b => f a ≠ f b) (hok : ∀ a ∈ entries, ∃ b, f a = .ok b) :
    ∃ values : List β, values.Nodup ∧ values.length = entries.length ∧
      ∀ b ∈ values, ∃ a ∈ entries, f a = .ok b := by
  induction entries with
  | nil => exact ⟨[], List.nodup_nil, rfl, by simp⟩
  | cons a rest ih =>
      obtain ⟨hfirst, hrest⟩ := List.pairwise_cons.mp hdistinct
      obtain ⟨values, hnodup, hlength, hvalues⟩ := ih hrest fun a' ha' => hok a' (List.mem_cons_of_mem a ha')
      obtain ⟨b, hb⟩ := hok a List.mem_cons_self
      refine ⟨b :: values, List.nodup_cons.mpr ⟨?_, hnodup⟩, by simp [hlength], ?_⟩
      · intro hm
        obtain ⟨a', ha', hb'⟩ := hvalues b hm
        exact hfirst a' ha' (hb.trans hb'.symm)
      · intro b' hb'
        rcases List.mem_cons.mp hb' with rfl | hb'
        · exact ⟨a, List.mem_cons_self, hb⟩
        · obtain ⟨a', ha', hvalue⟩ := hvalues b' hb'
          exact ⟨a', List.mem_cons_of_mem a ha', hvalue⟩

section Returned

variable {checker : Checker} {beginTime : DateTime} {target : Int} {consumed rest : List (Option Str)}
  {endTime : DateTime}

theorem target_pos (h : processEvents checker beginTime target (consumed ++ rest) =
    .returned (some endTime) rest) : 0 < target := by
  by_contra hn
  rw [processEvents, if_pos (by omega)] at h
  cases h

theorem acceptedEvents_length (h : processEvents checker beginTime target (consumed ++ rest) =
    .returned (some endTime) rest) :
    ((acceptedEvents checker beginTime consumed).length : Int) = target := by
  obtain ⟨before, event, hp, ha, hcount⟩ := processEvents_counts (target_pos h) h
  have hall : consumed ++ rest = (before ++ [some event]) ++ rest := by
    rw [hp, List.append_assoc]
    rfl
  rw [List.append_cancel_right hall, acceptedEvents_append, acceptedEvents_accepted event [] ha]
  simpa [acceptedEvents, taken] using hcount

-- processEvents waits until the last event it needs.
theorem waiting_before (h : processEvents checker beginTime target (consumed ++ rest) =
    .returned (some endTime) rest) (before after : List (Option Str)) (event : Str)
    (hc : consumed = before ++ some event :: after) :
    ∃ left latest, processEvents checker beginTime target before = .waiting left latest := by
  have ht := target_pos h
  rw [hc, List.append_assoc, processEvents_append before _ target ht] at h
  cases hp : processEvents checker beginTime target before with
  | waiting left latest => exact ⟨left, latest, rfl⟩
  | raised e =>
      rw [hp] at h
      cases h
  | returned final more =>
      rw [hp] at h
      simp only [Progress.andThen, Progress.returned.injEq] at h
      have hlength := congrArg List.length h.2
      simp only [List.length_append, List.length_cons] at hlength
      omega

-- A next event is taken without an exception, and counted when it is accepted.
theorem next_event (h : processEvents checker beginTime target (consumed ++ rest) =
    .returned (some endTime) rest) (before after : List (Option Str)) (event : Str)
    (hc : consumed = before ++ some event :: after) (left : Int) (latest : DateTime)
    (hw : processEvents checker beginTime target before = .waiting left latest) :
    (accepts checker beginTime event = false ∧
      processEvents checker beginTime target (before ++ [some event]) = .waiting left latest) ∨
    (accepts checker beginTime event = true ∧
      ∀ latest, processEvents checker beginTime target (before ++ [some event]) ≠
        .waiting left latest) := by
  have ht := target_pos h
  obtain ⟨hleft, -⟩ := processEvents_counts ht hw
  have hnext : processEvents checker beginTime target (before ++ [some event]) =
      pollEvents checker beginTime left latest [some event] := by
    rw [processEvents_append before _ target ht, hw]
    rfl
  rcases check_cases checker beginTime event with ⟨e, he⟩ | ⟨hnone, hr⟩ | ⟨record, hrecord, ha⟩
  · rw [hc, List.append_assoc, processEvents_append before _ target ht, hw] at h
    simp [Progress.andThen, pollEvents, he] at h
  · refine Or.inl ⟨hr, ?_⟩
    rw [hnext, pollEvents_rejected event [] left latest hleft hnone]
    rfl
  · refine Or.inr ⟨ha, ?_⟩
    intro other
    rw [hnext]
    by_cases hone : left = 1
    · subst hone
      rw [pollEvents_last event [] latest record hrecord]
      simp
    · rw [pollEvents_accepted event [] left latest (by omega) record hrecord]
      simp only [pollEvents, ne_eq, Progress.waiting.injEq, not_and]
      omega

theorem acceptedOnce_of_countsPods (h : processEvents checker beginTime target (consumed ++ rest) =
    .returned (some endTime) rest) (hcount : CountsPods checker beginTime target consumed) :
    AcceptedOnce checker beginTime consumed := by
  suffices hfront : ∀ before after, consumed = before ++ after → AcceptedOnce checker beginTime before from
    hfront consumed [] (List.append_nil _).symm
  intro before
  -- From the left: each event that is accepted is about a new pod.
  induction before using List.reverseRecOn with
  | nil => exact fun _ _ => List.Pairwise.nil
  | append_singleton before poll ih =>
      intro after hc
      rw [List.append_assoc] at hc
      have hbefore := ih ([poll] ++ after) hc
      unfold AcceptedOnce at hbefore ⊢
      rw [acceptedEvents_append]
      cases poll with
      | none => rwa [acceptedEvents_nothing, acceptedEvents_nil, List.append_nil]
      | some event =>
          obtain ⟨left, latest, hw⟩ := waiting_before h before after event hc
          rcases next_event h before after event hc left latest hw with ⟨hr, -⟩ | ⟨ha, hstep⟩
          · rwa [acceptedEvents_rejected event [] hr, acceptedEvents_nil, List.append_nil]
          · rw [acceptedEvents_accepted event [] ha, acceptedEvents_nil, List.pairwise_append]
            refine ⟨hbefore, List.pairwise_singleton _ event, ?_⟩
            intro earlier hearlier other hother heq
            obtain rfl := List.mem_singleton.mp hother
            obtain ⟨latest', hsame⟩ := hcount.once before other after hc ⟨earlier, hearlier, heq⟩ left latest hw
            exact hstep latest' hsame

theorem countsPods_of_acceptedOnce (h : processEvents checker beginTime target (consumed ++ rest) =
    .returned (some endTime) rest) (honce : AcceptedOnce checker beginTime consumed) :
    CountsPods checker beginTime target consumed where
  pods := by
    obtain ⟨pods, hnodup, hlength, hpods⟩ := exists_values eventPod _ honce fun event hm =>
      (happenedSince_of_accepts checker beginTime event (List.mem_filter.mp hm).2).2
    refine ⟨pods, hnodup, ?_, ?_⟩
    · rw [hlength]
      exact Int.le_of_eq (acceptedEvents_length h).symm
    · intro pod hpod
      obtain ⟨event, hm, hevent⟩ := hpods pod hpod
      obtain ⟨htaken, ha⟩ := List.mem_filter.mp hm
      exact ⟨event, htaken, hevent, (happenedSince_of_accepts checker beginTime event ha).1⟩
  once before event after hc hearlier left latest hw := by
    obtain ⟨earlier, hmem, heq⟩ := hearlier
    rcases next_event h before after event hc left latest hw with ⟨-, hsame⟩ | ⟨ha, -⟩
    · exact ⟨latest, hsame⟩
    · rw [AcceptedOnce, hc, acceptedEvents_append, acceptedEvents_accepted event after ha,
        List.pairwise_append] at honce
      exact absurd heq (honce.2.2 earlier hmem event List.mem_cons_self)

end Returned

-- When processEvents has returned, it has counted pods exactly when it has not
-- accepted two events of one pod.
theorem counts_pods_iff (checker : Checker) (beginTime : DateTime) (target : Int)
    (consumed rest : List (Option Str)) (endTime : DateTime)
    (h : processEvents checker beginTime target (consumed ++ rest) = .returned (some endTime) rest) :
    CountsPods checker beginTime target consumed ↔ AcceptedOnce checker beginTime consumed :=
  ⟨acceptedOnce_of_countsPods h, countsPods_of_acceptedOnce h⟩

def caseBegin : DateTime where
  year := 2016
  month := 3
  day := 1
  hour := 10
  minute := 20
  second := 30
  microsecond := 250000
  validYear := by decide
  validMonth := by decide
  validDay := by decide
  validTime := by decide

-- The object of a pod, with the status it has.
def objectOf (name uid status : Str) : Str :=
  "\x7b\"metadata\":\x7b\"name\":\"".toList ++ name ++ "\",".toList ++
    "\"namespace\":\"default\",\"uid\":\"".toList ++ uid ++ "\"\x7d,".toList ++
    "\"spec\":\x7b\"nodeName\":\"node-1\"\x7d,\"status\":".toList ++ status ++ "\x7d".toList

def podObject : Str → Str := objectOf "web-1".toList "7a1".toList

-- The one container started in this second of the minute in which the case began.
def readySince (second : Str) : Str :=
  "\x7b\"startTime\":\"2016-03-01T10:20:35Z\",".toList ++
    "\"containerStatuses\":[\x7b\"state\":\x7b\"running\":\x7b".toList ++
    "\"startedAt\":\"2016-03-01T10:20:".toList ++ second ++ "Z\"\x7d\x7d,".toList ++
    "\"ready\":true\x7d]\x7d".toList

def readyStatus : Str := readySince "40".toList

def podReady : Str := message modified (podObject readyStatus)

def podStarted : DateTime :=
  { caseBegin with second := 40, microsecond := 0, validTime := by decide }

theorem podReady_accepted :
    ∃ record, Checker.creation.check podReady caseBegin = .ok (some record) ∧ record.last = podStarted := by
  have hcheck : holds (Checker.creation.check podReady caseBegin)
      (fun result => result.map Record.last = some podStarted) = true := by
    decide +kernel
  obtain ⟨result, hresult, hlast⟩ := (holds_iff _ _).mp hcheck
  obtain ⟨record, rfl, hrecord⟩ := Option.map_eq_some_iff.mp (of_decide_eq_true hlast)
  exact ⟨record, hresult, hrecord⟩

theorem pollEvents_podReady (rest : List (Option Str)) (latest : DateTime) (hl : latest ≤ podStarted) :
    pollEvents .creation caseBegin 1 latest (some podReady :: rest) = .returned (some podStarted) rest := by
  obtain ⟨record, hc, hlast⟩ := podReady_accepted
  rw [pollEvents_last podReady rest latest record hc, hlast, RunningMax.ite_lt_eq_max, max_eq_right hl]

theorem processEvents_podReady (rest : List (Option Str)) :
    processEvents .creation caseBegin 1 (some podReady :: rest) = .returned (some podStarted) rest := by
  rw [processEvents, if_neg (by decide), pollEvents_podReady rest _ (DateTime.min_le _)]

-- A second pod, whose container first waits and is then ready before that of the first.
def otherObject : Str → Str := objectOf "web-2".toList "7a2".toList

def waitingStatus : Str :=
  "\x7b\"containerStatuses\":[\x7b\"state\":\x7b\"waiting\":\x7b\x7d\x7d,".toList ++
    "\"ready\":false\x7d]\x7d".toList

def otherWaiting : Str := message modified (otherObject waitingStatus)

def otherReady : Str := message modified (otherObject (readySince "36".toList))

def twoPods : List (Option Str) := [none, some otherWaiting, some otherReady, none, some podReady]

theorem otherWaiting_rejected : Checker.creation.check otherWaiting caseBegin = .ok none := by
  have hcheck : holds (Checker.creation.check otherWaiting caseBegin) Option.isNone = true := by
    decide +kernel
  obtain ⟨result, hresult, hnone⟩ := (holds_iff _ _).mp hcheck
  rw [hresult, Option.isNone_iff_eq_none.mp hnone]

theorem otherReady_accepted :
    ∃ record, Checker.creation.check otherReady caseBegin = .ok (some record) ∧ record.last ≤ podStarted := by
  have hcheck : holds (Checker.creation.check otherReady caseBegin)
      (fun result => result.any fun record => record.last ≤ podStarted) = true := by
    decide +kernel
  obtain ⟨result, hresult, hlast⟩ := (holds_iff _ _).mp hcheck
  obtain ⟨record, rfl, hrecord⟩ := (Option.any_eq_true _ _).mp hlast
  exact ⟨record, hresult, of_decide_eq_true hrecord⟩

theorem processEvents_twoPods :
    processEvents .creation caseBegin 2 (twoPods ++ []) = .returned (some podStarted) [] := by
  obtain ⟨record, hc, hlast⟩ := otherReady_accepted
  rw [processEvents, if_neg (by decide), List.append_nil, twoPods, pollEvents,
    pollEvents_rejected otherWaiting _ 2 _ (by decide) otherWaiting_rejected,
    pollEvents_accepted otherReady _ 2 _ (by decide) record hc, pollEvents, RunningMax.ite_lt_eq_max,
    max_eq_right (DateTime.min_le _)]
  exact pollEvents_podReady [] _ hlast

theorem acceptedOnce_twoPods : AcceptedOnce .creation caseBegin twoPods := by
  obtain ⟨first, hfirst, -⟩ := otherReady_accepted
  obtain ⟨second, hsecond, -⟩ := podReady_accepted
  have haccepted : acceptedEvents .creation caseBegin twoPods = [otherReady, podReady] := by
    simp [acceptedEvents, twoPods, taken, accepts, otherWaiting_rejected, hfirst, hsecond]
  have hother : holds (eventPod otherReady) (fun pod => isStr pod.name "web-2".toList) = true := by
    decide +kernel
  have hready : holds (eventPod podReady) (fun pod => isStr pod.name "web-2".toList) = false := by
    decide +kernel
  rw [AcceptedOnce, haccepted, List.pairwise_pair]
  intro hsame
  rw [hsame, hready] at hother
  cases hother

theorem counts_pods_two :
    processEvents .creation caseBegin 2 (twoPods ++ []) = .returned (some podStarted) [] ∧
      CountsPods .creation caseBegin 2 twoPods := by
  have hcounts := counts_pods_iff .creation caseBegin 2 twoPods [] podStarted processEvents_twoPods
  exact ⟨processEvents_twoPods, hcounts.mpr acceptedOnce_twoPods⟩

-- One event taken twice is about one pod at most.
theorem not_countsPods_twice (checker : Checker) (beginTime : DateTime) (event : Str) :
    ¬CountsPods checker beginTime 2 [some event, some event] := by
  rintro ⟨⟨pods, hnodup, hlength, hpods⟩, -⟩
  have hsame : ∀ pod ∈ pods, eventPod event = .ok pod := by
    intro pod hm
    obtain ⟨other, htaken, hpod, -⟩ := hpods pod hm
    obtain rfl : other = event := by simpa [taken] using htaken
    exact hpod
  rcases pods with _ | ⟨first, _ | ⟨second, more⟩⟩
  · simp at hlength
  · simp at hlength
  · have hfirst := hsame first List.mem_cons_self
    have hsecond := hsame second (List.mem_cons_of_mem first List.mem_cons_self)
    have heq : first = second := Except.ok.inj (hfirst.symm.trans hsecond)
    simp [heq] at hnodup

-- A status refresh of the only ready pod makes up a target of two.
theorem refresh_counted_again :
    processEvents .creation caseBegin 2 [some podReady, some podReady] = .returned (some podStarted) [] ∧
      ¬CountsPods .creation caseBegin 2 [some podReady, some podReady] := by
  refine ⟨?_, not_countsPods_twice .creation caseBegin podReady⟩
  obtain ⟨record, hc, hlast⟩ := podReady_accepted
  rw [processEvents, if_neg (by decide), pollEvents_accepted podReady _ 2 _ (by decide) record hc, hlast,
    RunningMax.ite_lt_eq_max, max_eq_right (DateTime.min_le _)]
  exact pollEvents_podReady [] podStarted le_rfl

end MesosPoc.Performance
