import MesosPoc.Performance.Startup
import MesosPoc.Json.Fields
import MesosPoc.Performance.Process.Theorems

namespace MesosPoc.Performance

open Machine

section Check

variable {type : Str} {containerTime : PodStatus → Json → Except PyError (Option DateTime)}
  {firstTime : PodStatus → DateTime → Except PyError DateTime} {event : Str} {beginTime : DateTime}

theorem checkEvent_other (h : (pattern type).isPrefixOf event = false) :
    checkEvent type containerTime firstTime event beginTime = .ok none := by
  have hdecoded : decodeEvent type event = .ok none := by
    simp [decodeEvent, h, pure, Except.pure]
  exact bind_eq_ok.mpr ⟨none, hdecoded, rfl⟩

theorem readPod_ne_none {object status statuses : Json}
    (hstatus : object.getItem "status".toList = .ok status)
    (hstatuses : status.getItem "containerStatuses".toList = .ok statuses) :
    readPod object ≠ .ok none := by
  intro h
  unfold readPod at h
  simp only [Json.hasKey_of_getItem hstatus, hstatus, Json.hasKey_of_getItem hstatuses, bind_eq_ok,
    Except.ok.injEq, exists_eq_left', if_true] at h
  obtain ⟨metadata, -, name, -, value, -, bound, -, list, -, containers, -, h⟩ := h
  cases h

theorem newest_ne_none {time : Json → Except PyError (Option DateTime)} (containers : List Json)
    (latest : DateTime) (htimes : ∀ c ∈ containers, time c ≠ .ok none) :
    newest time containers latest ≠ .ok none := by
  induction containers generalizing latest with
  | nil => simp [newest]
  | cons c rest ih =>
      intro h
      simp only [newest] at h
      obtain ⟨_ | t, ht, h⟩ := bind_eq_ok.mp h
      · exact htimes c List.mem_cons_self ht
      · exact ih _ (fun c' hc' => htimes c' (List.mem_cons_of_mem c hc')) h

-- An event of the right type is accepted, unless it makes the checker raise, when
-- no container makes the checker return and one of them is late enough.
theorem checkEvent_accepts {data object : Json} {containers : List Json}
    (hdecoded : decodeEvent type event = .ok (some (data, object)))
    (hcontainers : eventContainers event = .ok containers)
    (htimes : ∀ pod, ReadsPod object pod → ∀ c ∈ containers, containerTime pod c ≠ .ok none)
    (hsince : ∀ pod, ReadsPod object pod →
      ∃ c ∈ containers, ∀ t, containerTime pod c = .ok (some t) → beginTime ≤ t)
    (result : Option Record)
    (hok : checkEvent type containerTime firstTime event beginTime = .ok result) :
    result.isSome = true := by
  obtain ⟨-, hdata, hobject, -⟩ := (decodeEvent_eq_some_iff _ _ _ _).mp hdecoded
  obtain ⟨object', hobject', hread⟩ := bind_eq_ok.mp hcontainers
  obtain rfl : object = object' := by
    have := (bind_eq_ok.mpr ⟨data, hdata, hobject⟩ : eventObject event = .ok object)
    exact Except.ok.inj (this.symm.trans hobject')
  obtain ⟨status, hstatus, hlist⟩ := bind_eq_ok.mp hread
  obtain ⟨statuses, hstatuses, hiterate⟩ := bind_eq_ok.mp hlist
  unfold checkEvent at hok
  obtain ⟨decoded, hd, hok⟩ := bind_eq_ok.mp hok
  obtain rfl : some (data, object) = decoded := Except.ok.inj (hdecoded.symm.trans hd)
  obtain ⟨_ | pod, hread, hok⟩ := bind_eq_ok.mp hok
  · exact absurd hread (readPod_ne_none hstatus hstatuses)
  · have hpod := readsPod_of_eq_some object pod hread
    have hsame : pod.containers = containers := by
      obtain ⟨statuses', hstatuses', hiterate'⟩ := hpod.containers
      obtain rfl : status = pod.status := Except.ok.inj (hstatus.symm.trans hpod.status)
      obtain rfl : statuses = statuses' := Except.ok.inj (hstatuses.symm.trans hstatuses')
      exact Except.ok.inj (hiterate'.symm.trans hiterate)
    obtain ⟨_ | last, hnewest, hok⟩ := bind_eq_ok.mp hok
    · rw [hsame] at hnewest
      exact absurd hnewest (newest_ne_none containers DateTime.min (htimes pod hpod))
    · obtain ⟨first, -, hok⟩ := bind_eq_ok.mp hok
      obtain ⟨c, hc, hlate⟩ := hsince pod hpod
      rw [hsame] at hnewest
      obtain ⟨t, ht, hle⟩ := (newest_eq_some containers _ last hnewest).1 c hc
      rw [if_neg (not_lt.mpr ((hlate t ht).trans hle))] at hok
      obtain ⟨⟨⟩, -, hok⟩ := bind_eq_ok.mp hok
      rw [← Except.ok.inj hok]
      rfl

end Check

theorem containerStartedTime_ne_none (pod : PodStatus) (c : Json) (hready : containerReady c = true) :
    containerStartedTime pod c ≠ .ok none := by
  intro h
  obtain ⟨⟨running, hrunning⟩, ready, hr, htruthy⟩ := (containerReady_iff c).mp hready
  obtain ⟨state, hstate, hrunning⟩ := bind_eq_ok.mp hrunning
  unfold containerStartedTime at h
  simp only [hstate, Json.hasKey_of_getItem hrunning, hr, htruthy, bind_eq_ok, Except.ok.injEq,
    exists_eq_left', if_true] at h
  obtain ⟨value, -, started, -, time, -, h⟩ := h
  cases h

theorem containersTerminated_iff (event : Str) :
    containersTerminated event = true ↔ ∃ containers, eventContainers event = .ok containers ∧
      containers ≠ [] ∧ ∀ c ∈ containers, ∃ state, c.getItem "state".toList = .ok state ∧
        state.hasKey "terminated".toList = .ok true := by
  simp [containersTerminated, holds_iff]

theorem containerDeletionTime_ne_none (pod : PodStatus) (c state : Json)
    (hstate : c.getItem "state".toList = .ok state)
    (hterminated : state.hasKey "terminated".toList = .ok true) :
    containerDeletionTime pod c ≠ .ok none := by
  intro h
  unfold containerDeletionTime at h
  simp only [hstate, hterminated, bind_eq_ok, Except.ok.injEq, exists_eq_left', if_true] at h
  obtain ⟨stamp, -, time, -, h⟩ := h
  cases h

theorem decodeEvent_message {type object : Str} {containers : List Json}
    (hfront : (pattern type).isPrefixOf (message type object) = true)
    (htype : hasType type (message type object) = true)
    (hcontainers : eventContainers (message type object) = .ok containers) :
    ∃ data value, decodeEvent type (message type object) = .ok (some (data, value)) ∧
      eventObject (message type object) = .ok value := by
  obtain ⟨data, hdata, kind, hkind, hs⟩ := (hasType_iff _ _).mp htype
  obtain ⟨value, hvalue, -⟩ := bind_eq_ok.mp hcontainers
  obtain ⟨data', hdata', hobject⟩ := bind_eq_ok.mp hvalue
  obtain rfl : data = data' := Except.ok.inj (hdata.symm.trans hdata')
  exact ⟨data, value, (decodeEvent_eq_some_iff _ _ _ _).mpr ⟨hfront, hdata, hobject, kind, hkind, hs⟩, hvalue⟩

theorem accepts_of_isSome (checker : Checker) (beginTime : DateTime) (event : Str)
    (hharmless : harmless checker beginTime event = true)
    (h : ∀ result, checker.check event beginTime = .ok result → result.isSome = true) :
    accepts checker beginTime event = true := by
  obtain ⟨result, hresult, -⟩ := (holds_iff _ _).mp hharmless
  obtain ⟨record, rfl⟩ := Option.isSome_iff_exists.mp (h result hresult)
  exact (accepts_iff checker beginTime event).mpr ⟨record, hresult⟩

-- The message of a pod that becomes running and ready in time is accepted.
theorem accepts_modified (beginTime : DateTime) (uid object : Str)
    (hmessage : isMessage modified uid object = true) (hready : isReady object = true)
    (hsince : startedSince beginTime (message modified object) = true)
    (hharmless : harmless .creation beginTime (message modified object) = true) :
    accepts .creation beginTime (message modified object) = true := by
  apply accepts_of_isSome .creation beginTime _ hharmless
  intro result hresult
  obtain ⟨containers, hcontainers, -, hall⟩ := (runningAndReady_iff _).mp hready
  obtain ⟨containers', hcontainers', c, hc, t, ht, hle⟩ := (startedSince_iff _ _).mp hsince
  obtain rfl : containers = containers' := Except.ok.inj (hcontainers.symm.trans hcontainers')
  obtain ⟨data, value, hdecoded, -⟩ :=
    decodeEvent_message rfl (Bool.and_eq_true_iff.mp hmessage).1 hcontainers
  refine checkEvent_accepts hdecoded hcontainers ?_ ?_ result hresult
  · intro pod _ c' hc'
    exact containerStartedTime_ne_none pod c' (hall c' hc')
  · intro pod _
    refine ⟨c, hc, ?_⟩
    intro t' ht'
    obtain rfl : t = t' := Except.ok.inj (ht.symm.trans (containerStartedTime_eq_some pod c t' ht').2)
    exact hle

-- The message of a pod that is deleted in time is accepted.
theorem accepts_deleted (beginTime : DateTime) (uid object : Str)
    (hmessage : isMessage deleted uid object = true)
    (hterminated : containersTerminated (message deleted object) = true)
    (hsince : deletedSince beginTime (message deleted object) = true)
    (hharmless : harmless .deletion beginTime (message deleted object) = true) :
    accepts .deletion beginTime (message deleted object) = true := by
  apply accepts_of_isSome .deletion beginTime _ hharmless
  intro result hresult
  obtain ⟨containers, hcontainers, hne, hall⟩ := (containersTerminated_iff _).mp hterminated
  obtain ⟨t, ht, hle⟩ := (deletedSince_iff _ _).mp hsince
  obtain ⟨data, value, hdecoded, hvalue⟩ :=
    decodeEvent_message rfl (Bool.and_eq_true_iff.mp hmessage).1 hcontainers
  refine checkEvent_accepts hdecoded hcontainers ?_ ?_ result hresult
  · intro pod _ c hc
    obtain ⟨state, hstate, hkey⟩ := hall c hc
    exact containerDeletionTime_ne_none pod c state hstate hkey
  · intro pod hpod
    obtain ⟨c, hc⟩ := List.exists_mem_of_ne_nil containers hne
    refine ⟨c, hc, ?_⟩
    intro t' ht'
    obtain ⟨stamp, hstamp, htime⟩ := containerDeletionTime_eq_some pod c t' ht'
    have hdeleted : deletedAt (message deleted object) = .ok t' :=
      bind_eq_ok.mpr ⟨value, hvalue, bind_eq_ok.mpr ⟨pod.metadata, hpod.metadata,
        bind_eq_ok.mpr ⟨stamp, hstamp, htime⟩⟩⟩
    obtain rfl : t = t' := Except.ok.inj (ht.symm.trans hdeleted)
    exact hle

-- The messages of the other types pass the checker by.
theorem check_added (checker : Checker) (beginTime : DateTime) (object : Str) :
    checker.check (message added object) beginTime = .ok none := by
  cases checker with
  | creation => exact checkEvent_other rfl
  | deletion => exact checkEvent_other rfl

end MesosPoc.Performance
