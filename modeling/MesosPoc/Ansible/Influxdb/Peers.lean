import MesosPoc.Ansible.Influxdb
import Mathlib.Data.List.Nodup

namespace MesosPoc.Ansible

open Jinja

section Runs

variable (stops : Bool) (groups : InfluxdbGroups)

def influxdbRuns : List RoleRun :=
  runPlays stops (influxdbPlays groups)

-- The role runs once on each host of the group, and joins the hosts that were started
-- before it, up to three of them.
def JoinsPeers : Prop :=
  ∀ i host, groups.influxdb.hosts[i]? = some host →
    ∃ peers, (∀ peer ∈ peers, ∃ j, j < i ∧ groups.influxdb.hosts[j]? = some peer) ∧
      peers = groups.influxdb.hosts.take (min i 3) ∧
      (influxdbRuns stops groups).filter (fun run => run.host = host) =
        [{ host, join := some (join [','] (peers.map address)) }]

-- The runs of a play.
def runsOn (hosts : List Str) (join : Option Str) : List RoleRun :=
  hosts.map fun host => { host, join }

theorem filter_runsOn {hosts : List Str} (hdistinct : hosts.Nodup) (value : Option Str) (host : Str) :
    (runsOn hosts value).filter (fun run => run.host = host) =
      if host ∈ hosts then [{ host, join := value }] else [] := by
  have hruns : (runsOn hosts value).filter (fun run => run.host = host) =
      runsOn (hosts.filter (· = host)) value := by
    unfold runsOn
    rw [List.filter_map]
    rfl
  rw [hruns, List.filter_eq]
  split
  next hmem =>
    rw [List.count_eq_one_of_mem hdistinct hmem]
    rfl
  next hmem =>
    rw [List.count_eq_zero_of_not_mem hmem]
    rfl

-- Whether the last play is reached.
def reached : Bool :=
  groups.influxdb.hosts = [] ∨ 3 ≤ groups.influxdb.hosts.length ∨ stops = false

theorem reached_iff :
    reached stops groups = true ↔
      groups.influxdb.hosts = [] ∨ 3 ≤ groups.influxdb.hosts.length ∨ stops = false := by
  unfold reached
  exact decide_eq_true_iff

theorem influxdbRuns_eq :
    influxdbRuns stops groups =
      runsOn groups.influxdb.hosts[0]?.toList (some []) ++
        (runsOn groups.influxdb.hosts[1]?.toList (influxdbJoined1 groups) ++
          (runsOn groups.influxdb.hosts[2]?.toList (some (influxdbJoined groups 2)) ++
            if reached stops groups then
              runsOn (groups.influxdbData.hosts.drop 3) (some (influxdbJoined groups 3))
            else [])) := by
  unfold influxdbRuns influxdbPlays reached
  match hhosts : groups.influxdb.hosts with
  | [] => simp [runPlays, Pattern.select, hhosts, runsOn]
  | [_] => cases stops <;> simp [runPlays, Pattern.select, hhosts, runsOn]
  | [_, _] => cases stops <;> simp [runPlays, Pattern.select, hhosts, runsOn]
  | _ :: _ :: _ :: _ => cases stops <;> simp [runPlays, Pattern.select, hhosts, runsOn]

theorem mem_at_iff {hosts : List Str} (hdistinct : hosts.Nodup) {i : Nat} {host : Str} (hi : hosts[i]? = some host)
    (k : Nat) : host ∈ hosts[k]?.toList ↔ i = k := by
  rw [Option.mem_toList]
  constructor
  · intro hk
    obtain ⟨hlt, -⟩ := List.getElem?_eq_some_iff.mp hi
    exact (List.getElem?_inj hlt hdistinct).mp (hi.trans hk.symm)
  · rintro rfl
    exact hi

theorem filter_at (groups : InfluxdbGroups) {i : Nat} {host : Str} (hi : groups.influxdb.hosts[i]? = some host)
    (k : Nat) (value : Option Str) :
    (runsOn groups.influxdb.hosts[k]?.toList value).filter (fun run => run.host = host) =
      if i = k then [{ host, join := value }] else [] := by
  have hdistinct : groups.influxdb.hosts[k]?.toList.Nodup := by
    cases groups.influxdb.hosts[k]? with
    | none => exact List.nodup_nil
    | some other => exact List.nodup_singleton other
  rw [filter_runsOn hdistinct]
  exact if_congr (mem_at_iff groups.influxdb.distinct hi k) rfl rfl

-- The peers of a host, as the text of JOIN.
def peersOf (i : Nat) : Str :=
  join [','] ((groups.influxdb.hosts.take (min i 3)).map address)

theorem influxdbJoined_eq {count : Nat} (hcount : 1 ≤ count) (hhosts : count ≤ groups.influxdb.hosts.length) :
    influxdbJoined groups count = join [','] ((groups.influxdb.hosts.take count).map address) := by
  rw [influxdbJoined, forIndexed_eq address ',' count 1 _ hcount (by omega), Nat.add_sub_cancel]
  rfl

theorem influxdbJoined1_eq (hhosts : groups.influxdb.hosts ≠ []) :
    influxdbJoined1 groups = some (peersOf groups 1) := by
  obtain ⟨first, rest, hcons⟩ := List.exists_cons_of_ne_nil hhosts
  rw [influxdbJoined1, peersOf, hcons]
  simp [join]

theorem filter_runs {i : Nat} {host : Str} (hi : groups.influxdb.hosts[i]? = some host) :
    (influxdbRuns stops groups).filter (fun run => run.host = host) =
      (if i < 3 then [{ host, join := some (peersOf groups i) }] else []) ++
        if reached stops groups = true ∧ host ∈ groups.influxdbData.hosts.drop 3 then
          [{ host, join := some (influxdbJoined groups 3) }] else [] := by
  obtain ⟨hlt, -⟩ := List.getElem?_eq_some_iff.mp hi
  have hdata : (groups.influxdbData.hosts.drop 3).Nodup :=
    groups.influxdbData.distinct.sublist (List.drop_sublist _ _)
  rw [influxdbRuns_eq, List.filter_append, List.filter_append, List.filter_append, filter_at groups hi,
    filter_at groups hi, filter_at groups hi]
  have hlast : (if reached stops groups = true then
        runsOn (groups.influxdbData.hosts.drop 3) (some (influxdbJoined groups 3)) else []).filter
        (fun run => run.host = host) =
      if reached stops groups = true ∧ host ∈ groups.influxdbData.hosts.drop 3 then
        [{ host, join := some (influxdbJoined groups 3) }] else [] := by
    by_cases hreached : reached stops groups = true
    · rw [if_pos hreached, filter_runsOn hdata]
      exact if_congr (and_iff_right hreached).symm rfl rfl
    · rw [if_neg hreached, if_neg (fun h => hreached h.1)]
      rfl
  rw [hlast]
  match i, hlt with
  | 0, _ => rfl
  | 1, hlt =>
      rw [influxdbJoined1_eq groups (List.ne_nil_of_length_pos (by omega))]
      rfl
  | 2, hlt =>
      rw [influxdbJoined_eq groups (by omega) (by omega)]
      rfl
  | n + 3, _ =>
      have hfirst : ¬n + 3 = 0 := by omega
      have hsecond : ¬n + 3 = 1 := by omega
      have hthird : ¬n + 3 = 2 := by omega
      have hlate : ¬n + 3 < 3 := by omega
      rw [if_neg hfirst, if_neg hsecond, if_neg hthird, if_neg hlate]
      rfl

theorem before_of_mem_take {hosts : List Str} {i : Nat} {peer : Str} (h : peer ∈ hosts.take (min i 3)) :
    ∃ j, j < i ∧ hosts[j]? = some peer := by
  obtain ⟨j, hj⟩ := List.mem_iff_getElem?.mp h
  rw [List.getElem?_take] at hj
  split at hj
  next hlt => exact ⟨j, by omega, hj⟩
  next => cases hj

theorem joinsPeers_iff_filter :
    JoinsPeers stops groups ↔ ∀ i host, groups.influxdb.hosts[i]? = some host →
      (influxdbRuns stops groups).filter (fun run => run.host = host) =
        [{ host, join := some (peersOf groups i) }] := by
  constructor
  · intro h i host hi
    obtain ⟨peers, -, rfl, hruns⟩ := h i host hi
    exact hruns
  · intro h i host hi
    exact ⟨_, fun _ => before_of_mem_take, rfl, h i host hi⟩

-- The first three hosts are left to their plays, and the others to the last one, where it
-- is reached.
theorem joinsPeers_iff :
    JoinsPeers stops groups ↔ stops = true ∧ groups.influxdb.hosts.length < 3 ∨
      ∀ i host, groups.influxdb.hosts[i]? = some host →
        (3 ≤ i ↔ host ∈ groups.influxdbData.hosts.drop 3) := by
  have hhost : ∀ i host, groups.influxdb.hosts[i]? = some host →
      ((influxdbRuns stops groups).filter (fun run => run.host = host) =
          [{ host, join := some (peersOf groups i) }] ↔
        (3 ≤ i ↔ reached stops groups = true ∧ host ∈ groups.influxdbData.hosts.drop 3)) := by
    intro i host hi
    obtain ⟨hlt, -⟩ := List.getElem?_eq_some_iff.mp hi
    rw [filter_runs stops groups hi]
    by_cases hlast : reached stops groups = true ∧ host ∈ groups.influxdbData.hosts.drop 3
    · rw [if_pos hlast]
      by_cases hearly : i < 3
      · rw [if_pos hearly]
        apply iff_of_false (fun h => by simp at h)
        exact fun h => absurd (h.mpr hlast) (by omega)
      · rw [if_neg hearly, influxdbJoined_eq groups (by omega) (by omega), peersOf, min_eq_right (by omega)]
        exact iff_of_true rfl (iff_of_true (by omega) hlast)
    · rw [if_neg hlast, List.append_nil]
      by_cases hearly : i < 3
      · rw [if_pos hearly]
        exact iff_of_true rfl (iff_of_false (by omega) hlast)
      · rw [if_neg hearly]
        apply iff_of_false nofun
        exact fun h => hlast (h.mp (by omega))
  have hall : JoinsPeers stops groups ↔ ∀ i host, groups.influxdb.hosts[i]? = some host →
      (3 ≤ i ↔ reached stops groups = true ∧ host ∈ groups.influxdbData.hosts.drop 3) := by
    rw [joinsPeers_iff_filter]
    exact forall_congr' fun i => forall_congr' fun host => forall_congr' fun hi => hhost i host hi
  rw [hall]
  by_cases hshort : stops = true ∧ groups.influxdb.hosts.length < 3
  · refine iff_of_true ?_ (.inl hshort)
    intro i host hi
    obtain ⟨hlt, -⟩ := List.getElem?_eq_some_iff.mp hi
    refine iff_of_false (by omega) ?_
    rintro ⟨hreached, -⟩
    rcases (reached_iff stops groups).mp hreached with hempty | hlong | hskips
    · rw [hempty] at hlt
      exact Nat.not_lt_zero _ hlt
    · omega
    · rw [hshort.1] at hskips
      cases hskips
  · have hreached : reached stops groups = true := by
      apply (reached_iff stops groups).mpr
      by_cases hlong : 3 ≤ groups.influxdb.hosts.length
      · exact .inr (.inl hlong)
      · exact .inr (.inr (Bool.eq_false_iff.mpr fun hstops => hshort ⟨hstops, by omega⟩))
    simp only [hreached, true_and, or_iff_right hshort]

end Runs

section Samples

-- Hosts without a group influxdb_data.
def influxdbOn (group : Group) : InfluxdbGroups where
  influxdb := group
  influxdbData := { hosts := [], distinct := List.nodup_nil }

def fourHosts : Group where
  hosts := ["mk1".toList, "mk2".toList, "mk3".toList, "mk4".toList]
  distinct := by decide

example : influxdbRuns true (influxdbOn fourHosts) =
    [{ host := "mk1".toList, join := some [] }, { host := "mk2".toList, join := some "mk1:8088".toList },
      { host := "mk3".toList, join := some "mk1:8088,mk2:8088".toList }] := by decide

theorem fourth_host_not_started :
    (influxdbRuns true (influxdbOn fourHosts)).filter (fun run => run.host = "mk4".toList) = [] ∧
      (influxdbRuns false (influxdbOn fourHosts)).filter (fun run => run.host = "mk4".toList) = [] ∧
      ¬JoinsPeers true (influxdbOn fourHosts) ∧ ¬JoinsPeers false (influxdbOn fourHosts) := by
  have hstops : (influxdbRuns true (influxdbOn fourHosts)).filter (fun run => run.host = "mk4".toList) = [] := by
    decide
  have hskips : (influxdbRuns false (influxdbOn fourHosts)).filter (fun run => run.host = "mk4".toList) = [] := by
    decide
  refine ⟨hstops, hskips, ?_, ?_⟩
  · intro h
    obtain ⟨peers, -, -, hruns⟩ := h 3 "mk4".toList rfl
    rw [hstops] at hruns
    cases hruns
  · intro h
    obtain ⟨peers, -, -, hruns⟩ := h 3 "mk4".toList rfl
    rw [hskips] at hruns
    cases hruns

end Samples

end MesosPoc.Ansible
