import MesosPoc.Collectd.DockerPlugin

namespace MesosPoc.Collectd

open Machine

section Readings

-- What a request of this thread was answered with, if the step is its end.
def Label.readingOf (thread : Nat) : Label → Option (Option Json)
  | .answer other reading => if other = thread then some reading else none
  | _ => none

def readings (thread : Nat) (labels : List Label) : List (Option Json) :=
  labels.filterMap (Label.readingOf thread)

def newest (readings : List (Option Json)) : Option Json :=
  (readings.filterMap id).getLast?

-- The failures since the last success.
def failing (readings : List (Option Json)) : Nat :=
  (readings.reverse.takeWhile Option.isNone).length

-- Four requests in a row have failed.
def GaveUp (readings : List (Option Json)) : Prop :=
  List.replicate 4 none <:+: readings

theorem newest_append (rs : List (Option Json)) (reading : Option Json) :
    newest (rs ++ [reading]) = reading.or (newest rs) := by
  unfold newest
  rw [List.filterMap_append]
  cases reading with
  | none => simp
  | some value => simp

theorem failing_append (rs : List (Option Json)) (reading : Option Json) :
    failing (rs ++ [reading]) = if reading.isNone then failing rs + 1 else 0 := by
  unfold failing
  rw [List.reverse_append, List.reverse_singleton, List.singleton_append, List.takeWhile_cons]
  split
  · rw [List.length_cons]
  · rfl

theorem replicate_prefix_iff (n : Nat) (rs : List (Option Json)) :
    List.replicate n none <+: rs ↔ n ≤ (rs.takeWhile Option.isNone).length := by
  induction rs generalizing n with
  | nil => simp
  | cons reading rest ih =>
      cases n with
      | zero => simp
      | succ n =>
          rw [List.replicate_succ, List.cons_prefix_cons, ih]
          cases reading with
          | none => simp
          | some value => simp

theorem gaveUp_append (rs : List (Option Json)) (reading : Option Json) :
    GaveUp (rs ++ [reading]) ↔ 4 ≤ failing (rs ++ [reading]) ∨ GaveUp rs := by
  unfold GaveUp failing
  rw [List.infix_concat_iff, ← List.reverse_prefix, List.reverse_replicate, replicate_prefix_iff]

theorem not_gaveUp_nil : ¬GaveUp [] := by
  intro h
  have hlength := h.length_le
  simp at hlength

end Readings

-- What is known of a thread, and of its place among the stats, after these readings.
structure Gathers (rs : List (Option Json)) (registered : Prop) (thread : ContainerStats) : Prop where
  stats : thread.stats = newest rs
  failures : thread.failures = failing rs
  limit : GaveUp rs ↔ 4 ≤ thread.failures
  stop : thread.stop = true ↔ ¬registered ∨ GaveUp rs
  quiet : GaveUp rs → thread.position ≠ .reading
  ended : thread.position = .ended → thread.stop = true ∨ thread.container.name = none
  unnamed : thread.container.name = none → thread.position = .starting ∨ thread.position = .ended

section Threads

variable {rs : List (Option Json)} {registered : Prop} {thread next : ContainerStats}

theorem gathers_init (c : Container) (h : registered) : Gathers [] registered (.init c) where
  stats := rfl
  failures := rfl
  limit := iff_of_false not_gaveUp_nil (by simp [ContainerStats.init])
  stop := by
    refine iff_of_false ?_ ?_
    · exact Bool.false_ne_true
    · rintro (hn | hg)
      · exact hn h
      · exact not_gaveUp_nil hg
  quiet := fun hg => absurd hg not_gaveUp_nil
  ended := fun hp => by cases hp
  unnamed := fun _ => Or.inl rfl

theorem Gathers.stopped (h : Gathers rs registered thread) (hno : ¬registered) {registered' : Prop}
    (hno' : ¬registered') : Gathers rs registered' thread :=
  { h with stop := by rw [h.stop]; exact iff_of_true (Or.inl hno) (Or.inl hno') }

theorem Gathers.discard (h : Gathers rs registered thread) {registered' : Prop} (hno : ¬registered') :
    Gathers rs registered' { thread with stop := true } :=
  { h with
    stop := iff_of_true rfl (Or.inl hno)
    ended := fun _ => Or.inl rfl }

-- All that proceed does is to move on, to a request only while it is not told to stop.
theorem proceed_eq (h : thread.proceed = some next) : ∃ position, next = { thread with position := position } ∧
    (position = .reading → thread.stop = false ∧ thread.position = .testing) ∧
    (position = .testing → thread.container.name.isSome) ∧
    (position = .ended → thread.stop = true ∨ thread.container.name = none) := by
  unfold ContainerStats.proceed at h
  split at h
  · obtain rfl := Option.some.inj h
    refine ⟨_, rfl, ?_⟩
    cases thread.container.name with
    | none => simp
    | some name => simp
  · rename_i hposition
    obtain rfl := Option.some.inj h
    refine ⟨_, rfl, ?_⟩
    cases thread.stop with
    | false => simp [hposition]
    | true => simp
  · cases h

theorem Gathers.proceed (h : Gathers rs registered thread) (hnext : thread.proceed = some next) :
    Gathers rs registered next := by
  obtain ⟨position, rfl, hreading, htesting, hended⟩ := proceed_eq hnext
  refine { h with quiet := ?_, ended := hended, unnamed := ?_ }
  · intro hg hp
    have hstop := h.stop.mpr (Or.inr hg)
    rw [(hreading hp).1] at hstop
    cases hstop
  · intro hname
    have hname : thread.container.name = none := hname
    cases position with
    | starting => exact Or.inl rfl
    | testing =>
        have hsome := htesting rfl
        rw [hname] at hsome
        cases hsome
    | reading =>
        have htesting := (hreading rfl).2
        rcases h.unnamed hname with hp | hp
        · rw [htesting] at hp
          cases hp
        · rw [htesting] at hp
          cases hp
    | ended => exact Or.inr rfl

theorem answer_eq {reading : Option Json} (h : thread.answer reading = some next) :
    thread.position = .reading ∧ next =
      { thread with
        feed := reading.isSome
        stats := reading.or thread.stats
        failures := if reading.isNone then thread.failures + 1 else 0
        stop := thread.stop || reading.isNone && decide (thread.failures + 1 > 3)
        position := .testing } := by
  unfold ContainerStats.answer at h
  split at h
  · rename_i value hp
    refine ⟨hp, ?_⟩
    rw [← Option.some.inj h]
    simp
  · rename_i hp
    refine ⟨hp, ?_⟩
    rw [← Option.some.inj h]
    simp
  · cases h

theorem Gathers.answer (h : Gathers rs registered thread) {reading : Option Json}
    (hnext : thread.answer reading = some next) : Gathers (rs ++ [reading]) registered next := by
  obtain ⟨hreading, rfl⟩ := answer_eq hnext
  have hgoing : ¬GaveUp rs := fun hg => h.quiet hg hreading
  have hlimit : GaveUp (rs ++ [reading]) ↔ 4 ≤ failing (rs ++ [reading]) := by
    rw [gaveUp_append, or_iff_left hgoing]
  have hfailures : (if reading.isNone then thread.failures + 1 else 0) = failing (rs ++ [reading]) := by
    rw [failing_append, h.failures]
  refine ⟨?_, hfailures, ?_, ?_, ?_, ?_, ?_⟩
  · simp only [newest_append, h.stats]
  · rw [hlimit, hfailures]
  · have hstop := h.stop
    rw [or_iff_left hgoing] at hstop
    rw [hlimit, ← hfailures, Bool.or_eq_true, hstop]
    apply or_congr_right
    cases reading with
    | none =>
        simp only [Option.isNone_none, Bool.true_and, if_true, decide_eq_true_eq]
        omega
    | some value => simp
  · intro _ hp
    cases hp
  · intro hp
    cases hp
  · intro hname
    rcases h.unnamed hname with hp | hp
    · rw [hreading] at hp
      cases hp
    · rw [hreading] at hp
      cases hp

end Threads

end MesosPoc.Collectd
