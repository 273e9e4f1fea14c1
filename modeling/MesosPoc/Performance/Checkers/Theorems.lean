import MesosPoc.Performance.Checkers
import MesosPoc.Settles

namespace MesosPoc.Performance

theorem decodeEvent_eq_some_iff (type event : Str) (data object : Json) :
    decodeEvent type event = .ok (some (data, object)) ↔
      (pattern type).isPrefixOf event = true ∧ Json.loads event = .ok data ∧
        data.getItem "object".toList = .ok object ∧
        ∃ kind, data.getItem "type".toList = .ok kind ∧ isStr kind type = true := by
  unfold decodeEvent
  cases hp : (pattern type).isPrefixOf event with
  | false => simp [pure, Except.pure]
  | true =>
      simp only [if_true, bind_eq_ok, true_and]
      constructor
      · rintro ⟨data', hdata, object', hobject, kind, hkind, hif⟩
        cases hs : isStr kind type with
        | false => simp [hs, pure, Except.pure] at hif
        | true =>
            simp only [hs, if_true, pure, Except.pure, Except.ok.injEq, Option.some.injEq,
              Prod.mk.injEq] at hif
            obtain ⟨rfl, rfl⟩ := hif
            exact ⟨hdata, hobject, kind, hkind, hs⟩
      · rintro ⟨hdata, hobject, kind, hkind, hs⟩
        exact ⟨data, hdata, object, hobject, kind, hkind, by simp [hs, pure, Except.pure]⟩

-- What a checker has read when it comes to the containers.
structure ReadsPod (object : Json) (pod : PodStatus) : Prop where
  status : object.getItem "status".toList = .ok pod.status
  metadata : object.getItem "metadata".toList = .ok pod.metadata
  name : ∃ name, pod.metadata.getItem "name".toList = .ok name
  namespaceName : ∃ value, pod.metadata.getItem "namespace".toList = .ok value
  nodeName : readNodeName object = .ok pod.nodeBound
  containers : ∃ statuses, pod.status.getItem "containerStatuses".toList = .ok statuses ∧
    statuses.iterate = .ok pod.containers

theorem readsPod_of_eq_some (object : Json) (pod : PodStatus)
    (h : readPod object = .ok (some pod)) : ReadsPod object pod := by
  unfold readPod at h
  obtain ⟨present, -, h⟩ := bind_eq_ok.mp h
  cases present with
  | false => cases h
  | true =>
      simp only [if_true, bind_eq_ok] at h
      obtain ⟨status, hstatus, listed, -, h⟩ := h
      cases listed with
      | false => cases h
      | true =>
          simp only [if_true, bind_eq_ok] at h
          obtain ⟨metadata, hmetadata, name, hname, value, hvalue, bound, hbound, statuses, hstatuses,
            containers, hcontainers, h⟩ := h
          obtain rfl : _ = pod := Option.some.inj (Except.ok.inj h)
          exact ⟨hstatus, hmetadata, ⟨name, hname⟩, ⟨value, hvalue⟩, hbound, ⟨statuses, hstatuses, hcontainers⟩⟩

theorem strftime_settles (t : DateTime) : Settles t.strftime (1900 ≤ t.year) () := by
  unfold DateTime.strftime
  constructor
  · intro h
    rw [if_neg (by omega)]
  · intro h
    exact ⟨.valueError, if_pos (by omega)⟩

theorem report_eq_ok_iff (pod : PodStatus) (first last : DateTime) :
    report pod first last = .ok () ↔ pod.nodeBound = true ∧ 1900 ≤ first.year ∧ 1900 ≤ last.year := by
  unfold report
  cases pod.nodeBound with
  | false => simp [throw, throwThe, MonadExceptOf.throw]
  | true =>
      have hlog : Settles (first.strftime >>= fun _ => last.strftime) _ () :=
        Settles.bind (strftime_settles first) (strftime_settles last)
      rw [if_pos rfl, and_iff_right rfl]
      exact hlog.ok_iff

section CheckEvent

variable {type : Str} {containerTime : PodStatus → Json → Except PyError (Option DateTime)}
  {firstTime : PodStatus → DateTime → Except PyError DateTime} {event : Str} {beginTime : DateTime}

-- All that makes a checker return a record.
structure Matches (type : Str) (containerTime : PodStatus → Json → Except PyError (Option DateTime))
    (firstTime : PodStatus → DateTime → Except PyError DateTime) (event : Str) (beginTime : DateTime)
    (record : Record) (object : Json) (pod : PodStatus) : Prop where
  decoded : decodeEvent type event = .ok (some (record.data, object))
  read : readPod object = .ok (some pod)
  newest : newest (containerTime pod) pod.containers DateTime.min = .ok (some record.last)
  first : firstTime pod beginTime = .ok record.first
  since : beginTime ≤ record.last
  reported : report pod record.first record.last = .ok ()

theorem checkEvent_eq_some_iff (record : Record) :
    checkEvent type containerTime firstTime event beginTime = .ok (some record) ↔
      ∃ object pod, Matches type containerTime firstTime event beginTime record object pod := by
  unfold checkEvent
  constructor
  · intro h
    obtain ⟨_ | ⟨data, object⟩, hdecoded, h⟩ := bind_eq_ok.mp h
    · cases h
    · obtain ⟨_ | pod, hread, h⟩ := bind_eq_ok.mp h
      · cases h
      · obtain ⟨_ | last, hnewest, h⟩ := bind_eq_ok.mp h
        · cases h
        · obtain ⟨first, hfirst, h⟩ := bind_eq_ok.mp h
          by_cases hlast : last < beginTime
          · rw [if_pos hlast] at h
            cases h
          · rw [if_neg hlast] at h
            obtain ⟨⟨⟩, hreport, h⟩ := bind_eq_ok.mp h
            obtain rfl : _ = record := Option.some.inj (Except.ok.inj h)
            exact ⟨object, pod, hdecoded, hread, hnewest, hfirst, not_lt.mp hlast, hreport⟩
  · rintro ⟨object, pod, h⟩
    refine bind_eq_ok.mpr ⟨_, h.decoded, bind_eq_ok.mpr ⟨_, h.read, bind_eq_ok.mpr ⟨_, h.newest,
      bind_eq_ok.mpr ⟨_, h.first, ?_⟩⟩⟩⟩
    rw [if_neg (not_lt.mpr h.since)]
    exact bind_eq_ok.mpr ⟨(), h.reported, rfl⟩

end CheckEvent

-- What does not depend on which of the two checkers has returned the record.
theorem exists_matches (checker : Checker) (event : Str) (beginTime : DateTime) (record : Record)
    (h : checker.check event beginTime = .ok (some record)) :
    ∃ type containerTime firstTime object pod,
      Matches type containerTime firstTime event beginTime record object pod := by
  cases checker with
  | creation => exact ⟨_, _, _, (checkEvent_eq_some_iff record).mp h⟩
  | deletion => exact ⟨_, _, _, (checkEvent_eq_some_iff record).mp h⟩

section Newest

variable {time : Json → Except PyError (Option DateTime)}

theorem newest_eq_some (containers : List Json) (latest last : DateTime)
    (h : newest time containers latest = .ok (some last)) :
    (∀ c ∈ containers, ∃ t, time c = .ok (some t) ∧ t ≤ last) ∧ latest ≤ last ∧
      (last = latest ∨ ∃ c ∈ containers, time c = .ok (some last)) := by
  induction containers generalizing latest with
  | nil =>
      obtain rfl : latest = last := Option.some.inj (Except.ok.inj h)
      simp
  | cons c rest ih =>
      simp only [newest] at h
      obtain ⟨_ | t, ht, h⟩ := bind_eq_ok.mp h
      · cases h
      · obtain ⟨hrest, hle, hlast⟩ := ih _ h
        have hmax : latest ≤ (if latest < t then t else latest) ∧ t ≤ (if latest < t then t else latest) := by
          by_cases hlt : latest < t
          · simp [hlt, le_of_lt hlt]
          · simp [hlt, not_lt.mp hlt]
        refine ⟨?_, hmax.1.trans hle, ?_⟩
        · intro c' hc'
          rcases List.mem_cons.mp hc' with rfl | hc'
          · exact ⟨t, ht, hmax.2.trans hle⟩
          · exact hrest c' hc'
        · rcases hlast with hlast | ⟨c', hc', hlast⟩
          · by_cases hlt : latest < t
            · rw [if_pos hlt] at hlast
              exact Or.inr ⟨c, List.mem_cons_self, hlast ▸ ht⟩
            · rw [if_neg hlt] at hlast
              exact Or.inl hlast
          · exact Or.inr ⟨c', List.mem_cons_of_mem c hc', hlast⟩

end Newest

-- A record is never about a pod without containers: its time would be the
-- datetime.min that strftime refuses.
theorem Matches.container {type : Str}
    {containerTime : PodStatus → Json → Except PyError (Option DateTime)}
    {firstTime : PodStatus → DateTime → Except PyError DateTime} {event : Str} {beginTime : DateTime}
    {record : Record} {object : Json} {pod : PodStatus}
    (h : Matches type containerTime firstTime event beginTime record object pod) :
    ∃ c ∈ pod.containers, containerTime pod c = .ok (some record.last) := by
  obtain ⟨-, -, hlast | hlast⟩ := newest_eq_some _ _ _ h.newest
  · obtain ⟨-, -, hyear⟩ := (report_eq_ok_iff pod record.first record.last).mp h.reported
    rw [hlast] at hyear
    simp [DateTime.min] at hyear
  · exact hlast

end MesosPoc.Performance
