import MesosPoc.Performance.Startup.Theorems

namespace MesosPoc.Performance

open Machine

-- The messages sent so far, wherever they are now.
def System.sent (s : System) : List Str :=
  taken s.polls ++ s.queue ++ s.stream

-- No message makes the checker raise, and for each pod that has become running and
-- ready, or has been deleted, a message was sent that the checker accepts.
structure Tracked (checker : Checker) (beginTime : DateTime) (s : System) : Prop where
  raisesOnNone : ∀ event ∈ s.sent, harmless checker beginTime event = true
  accepted : s.happened.length ≤ (s.sent.filter (accepts checker beginTime)).length

section Step

variable {checker : Checker} {beginTime : DateTime} {target : Int}

theorem tracked_of_sent {before after : System} (hi : Tracked checker beginTime before)
    (hsent : after.sent = before.sent) (hhappened : after.happened = before.happened) :
    Tracked checker beginTime after := by
  refine ⟨?_, ?_⟩
  · rw [hsent]
    exact hi.raisesOnNone
  · rw [hsent, hhappened]
    exact hi.accepted

theorem sent_poll (polls : List (Option Str)) (queue stream : List Str) :
    taken (polls ++ [queue.head?]) ++ queue.tail ++ stream = taken polls ++ queue ++ stream := by
  cases queue with
  | nil => simp [taken]
  | cons event rest => simp [taken]

theorem harmless_added (object : Str) : harmless checker beginTime (message added object) = true :=
  (holds_iff _ _).mpr ⟨none, check_added checker beginTime object, rfl⟩

-- The snapshot that an opening watch sends.
theorem tracked_openWatch (s : System) (hi : Tracked checker beginTime s) :
    Tracked checker beginTime
      { s with watcher := .opened, stream := s.stream ++ s.pods.map fun pod => message added pod.object } := by
  have hsent : System.sent { s with
      watcher := .opened, stream := s.stream ++ s.pods.map fun pod => message added pod.object } =
      s.sent ++ s.pods.map fun pod => message added pod.object := by
    simp [System.sent]
  refine ⟨?_, ?_⟩
  · intro event hevent
    rw [hsent] at hevent
    rcases List.mem_append.mp hevent with hevent | hevent
    · exact hi.raisesOnNone event hevent
    · obtain ⟨pod, -, rfl⟩ := List.mem_map.mp hevent
      exact harmless_added pod.object
  · rw [hsent, List.filter_append, List.length_append]
    have haccepted := hi.accepted
    change s.happened.length ≤ _
    omega

-- A change that is not to be counted, or whose message is sent and accepted.
theorem tracked_change (s : System) (pods : List StoredPod) (uid event : Str) (occurs : Bool)
    (hi : Tracked checker beginTime s)
    (hharmless : s.watcher = .opened → harmless checker beginTime event = true)
    (hoccurs : occurs = true → s.watcher = .opened ∧ accepts checker beginTime event = true) :
    Tracked checker beginTime (s.change pods uid event occurs) := by
  have haccepted := hi.accepted
  by_cases hopened : s.watcher = .opened
  · have hsent : (s.change pods uid event occurs).sent = s.sent ++ [event] := by
      simp [System.sent, System.change, hopened]
    refine ⟨?_, ?_⟩
    · intro other hother
      rw [hsent] at hother
      rcases List.mem_append.mp hother with hother | hother
      · exact hi.raisesOnNone other hother
      · obtain rfl := List.mem_singleton.mp hother
        exact hharmless hopened
    · rw [hsent, List.filter_append, List.length_append]
      unfold System.change
      by_cases hnew : occurs = true
      · obtain ⟨-, ha⟩ := hoccurs hnew
        have hinsert : (s.happened.insert uid).length ≤ s.happened.length + 1 := by
          rw [List.length_insert]
          split <;> omega
        simp only [if_pos hnew, List.filter_cons, ha, if_true, List.filter_nil, List.length_singleton]
        omega
      · simp only [if_neg hnew]
        omega
  · have hnot : occurs = false := by
      by_contra hn
      exact hopened (hoccurs (eq_true_of_ne_false hn)).1
    apply tracked_of_sent hi
    · simp [System.sent, System.change, hopened]
    · simp [System.change, hnot]

-- Each step in time keeps track of what has happened.
theorem tracked_step (before : System) (label : Label) (after : System)
    (hi : Tracked checker beginTime before) (ht : inTime checker beginTime before label)
    (hs : step checker beginTime target before label = some after) : Tracked checker beginTime after := by
  cases label with
  | startWatcher =>
      obtain ⟨-, rfl⟩ := guarded_eq_some hs
      exact tracked_of_sent hi rfl rfl
  | openWatch =>
      obtain ⟨-, rfl⟩ := guarded_eq_some hs
      exact tracked_openWatch before hi
  | finishCommand =>
      obtain ⟨-, rfl⟩ := guarded_eq_some hs
      exact tracked_of_sent hi rfl rfl
  | create uid object =>
      obtain ⟨-, rfl⟩ := guarded_eq_some hs
      apply tracked_change before _ uid _ _ hi (fun _ => harmless_added object)
      intro hoccurs
      exact absurd (of_decide_eq_true hoccurs) ht
  | modify uid object =>
      obtain ⟨⟨-, hmessage⟩, rfl⟩ := guarded_eq_some hs
      obtain ⟨hharmless, ht⟩ := ht
      apply tracked_change before _ uid _ _ hi hharmless
      intro hoccurs
      have hbecomes := of_decide_eq_true hoccurs
      obtain ⟨hopened, hsince⟩ := ht hbecomes
      obtain ⟨rfl, hbecomes⟩ := hbecomes
      obtain ⟨hready, -⟩ := Bool.and_eq_true_iff.mp hbecomes
      exact ⟨hopened, accepts_modified beginTime uid object hmessage hready hsince (hharmless hopened)⟩
  | delete uid object =>
      obtain ⟨⟨-, hmessage⟩, rfl⟩ := guarded_eq_some hs
      obtain ⟨hharmless, ht⟩ := ht
      apply tracked_change before _ uid _ _ hi hharmless
      intro hoccurs
      have hdeletion := of_decide_eq_true hoccurs
      obtain ⟨hopened, hterminated, hsince⟩ := ht hdeletion
      obtain rfl := hdeletion
      exact ⟨hopened, accepts_deleted beginTime uid object hmessage hterminated hsince (hharmless hopened)⟩
  | receive =>
      cases hstream : before.stream with
      | nil => simp [step, hstream] at hs
      | cons event rest =>
          simp only [step, hstream, Option.some.injEq] at hs
          subst hs
          apply tracked_of_sent hi
          · simp [System.sent, hstream]
          · rfl
  | poll =>
      obtain ⟨-, rfl⟩ := guarded_eq_some hs
      exact tracked_of_sent hi (sent_poll before.polls before.queue before.stream) rfl

end Step

end MesosPoc.Performance
