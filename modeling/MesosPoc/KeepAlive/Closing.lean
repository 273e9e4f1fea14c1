import MesosPoc.KeepAlive.Consistency
import MesosPoc.ForEach
import Mathlib.Algebra.Order.Ring.Nat

namespace MesosPoc.KeepAlive

-- A thread that closes connections, and those it has closed so far.
structure Closer where
  cm : ConnectionManager
  closed : List Connection
deriving DecidableEq

namespace Closer

-- remove, then close. A close that ends a response enters the connection in _readymap
-- again; no list and no other connection has to do with that, and it is left out here.
def discard (s : Closer) (h : Connection) : Outcome Fault Closer :=
  ((s.cm.remove h).within fun cm => { s with cm := cm }).andThen fun next =>
    .done { next with closed := next.closed ++ [h] }

-- The lists that close_all iterates over are those of the manager itself: only the
-- dictionary is copied. An iteration takes the next index of the list as it is by then.
def closeListed (host : Str) : Nat → Nat → Closer → Outcome Fault Closer
  | 0, _, s => .done s
  | fuel + 1, index, s =>
      match (s.cm.connections host)[index]? with
      | none => .done s
      | some h => (s.discard h).andThen (closeListed host fuel (index + 1))

def closeAll (fuel : Nat) (s : Closer) : Outcome Fault Closer :=
  Outcome.forEach (fun s host => closeListed host fuel 0 s) s s.cm.hostmap.keys

end Closer

-- What is left of a list from which each element an iteration reaches is removed, and
-- what has been removed.

def skipped : List Connection → List Connection
  | [] => []
  | [_] => []
  | _ :: c :: rest => c :: skipped rest

def reached : List Connection → List Connection
  | [] => []
  | [c] => [c]
  | c :: _ :: rest => c :: reached rest

theorem skipped_length (list : List Connection) : (skipped list).length = list.length / 2 := by
  induction list using skipped.induct with
  | case1 => rfl
  | case2 c => simp [skipped]
  | case3 c d rest ih =>
      rw [skipped, List.length_cons, ih, List.length_cons, List.length_cons]
      omega

namespace Closer

theorem discard_consistent {s : Closer} (hs : s.cm.Consistent) (h : Connection) :
    s.discard h = .done ⟨s.cm.without h, s.closed ++ [h]⟩ := by
  simp [discard, ConnectionManager.remove_consistent hs]

-- Removing the connection an iteration has reached moves the others up by one.
theorem connections_reached {cm : ConnectionManager} (hs : cm.Consistent) {host : Str} {c : Connection}
    {front rest : List Connection} (hlist : cm.connections host = front ++ c :: rest) :
    (cm.without c).connections host = front ++ rest ∧
      ∀ other, other ≠ host → (cm.without c).connections other = cm.connections other := by
  have hnodup := hs.nodup host
  rw [hlist, List.nodup_append] at hnodup
  have hfront : c ∉ front := fun hm => hnodup.2.2 c hm c List.mem_cons_self rfl
  have hmapped : cm.connmap.lookup c = some host := by
    rw [← hs.mapped, hlist]
    exact List.mem_append_right _ List.mem_cons_self
  constructor
  · rw [ConnectionManager.connections_without hs, hlist, List.erase_append_right _ hfront,
      List.erase_cons_head]
  · intro other ho
    rw [ConnectionManager.connections_without hs, List.erase_of_not_mem]
    intro hm
    rw [hs.mapped, hmapped] at hm
    exact ho (Option.some.inj hm).symm

-- One host's part of close_all. The iteration has passed the connections in front.
theorem closeListed_eq (host : Str) (rest front : List Connection) (fuel : Nat) (s : Closer)
    (hs : s.cm.Consistent) (hlist : s.cm.connections host = front ++ rest) (hfuel : rest.length ≤ fuel) :
    ∃ cm, closeListed host fuel front.length s = .done ⟨cm, s.closed ++ reached rest⟩ ∧ cm.Consistent ∧
      cm.connections host = front ++ skipped rest ∧
      ∀ other, other ≠ host → cm.connections other = s.cm.connections other := by
  induction rest using skipped.induct generalizing fuel front s with
  | case1 =>
      rw [List.append_nil] at hlist
      have hend : closeListed host fuel front.length s = .done s := by
        cases fuel with
        | zero => rfl
        | succ fuel => simp [closeListed, hlist]
      exact ⟨s.cm, by simpa [reached] using hend, hs, by simpa [skipped] using hlist, fun _ _ => rfl⟩
  | case2 c =>
      obtain ⟨fuel, rfl⟩ := Nat.exists_eq_add_of_le hfuel
      obtain ⟨hgone, hother⟩ := connections_reached hs hlist
      have hget : (s.cm.connections host)[front.length]? = some c := by simp [hlist]
      have hend : closeListed host fuel (front.length + 1) ⟨s.cm.without c, s.closed ++ [c]⟩ =
          .done ⟨s.cm.without c, s.closed ++ [c]⟩ := by
        cases fuel with
        | zero => rfl
        | succ fuel => simp [closeListed, hgone]
      refine ⟨s.cm.without c, ?_, ConnectionManager.consistent_without hs c, hgone, hother⟩
      rw [List.length_singleton, Nat.add_comm, closeListed, hget]
      simp only [discard_consistent hs, Outcome.done_andThen, hend, reached]
  | case3 c d rest ih =>
      obtain ⟨fuel, rfl⟩ : ∃ less, fuel = less + 1 := by
        rw [List.length_cons] at hfuel
        exact ⟨fuel - 1, by omega⟩
      obtain ⟨hgone, hother⟩ := connections_reached hs hlist
      have hget : (s.cm.connections host)[front.length]? = some c := by simp [hlist]
      have hnext : (s.cm.without c).connections host = (front ++ [d]) ++ rest := by simp [hgone]
      have hless : rest.length ≤ fuel := by
        simp only [List.length_cons] at hfuel
        omega
      obtain ⟨cm, hrun, hcm, hhost, hothers⟩ := ih (front ++ [d]) fuel ⟨s.cm.without c, s.closed ++ [c]⟩
        (ConnectionManager.consistent_without hs c) hnext hless
      refine ⟨cm, ?_, hcm, by simpa [skipped] using hhost, ?_⟩
      · rw [closeListed, hget]
        simp only [discard_consistent hs, Outcome.done_andThen, reached]
        simpa using hrun
      · intro other ho
        rw [hothers other ho]
        exact hother other ho

-- close_all after some of the hosts.
theorem forEach_closeListed (hosts : List Str) (fuel : Nat) (s : Closer) (hs : s.cm.Consistent)
    (hdistinct : hosts.Nodup) (hfuel : ∀ host, (s.cm.connections host).length ≤ fuel) :
    ∃ cm, Outcome.forEach (fun s host => closeListed host fuel 0 s) s hosts =
        .done ⟨cm, s.closed ++ hosts.flatMap fun host => reached (s.cm.connections host)⟩ ∧ cm.Consistent ∧
      ∀ host, cm.connections host =
        if host ∈ hosts then skipped (s.cm.connections host) else s.cm.connections host := by
  induction hosts generalizing s with
  | nil => exact ⟨s.cm, by simp [Outcome.forEach], hs, by simp⟩
  | cons first rest ih =>
      obtain ⟨hfirst, hrest⟩ := List.nodup_cons.mp hdistinct
      obtain ⟨cm, hrun, hcm, hhost, hothers⟩ := closeListed_eq first (s.cm.connections first) [] fuel s hs rfl
        (hfuel first)
      have hless : ∀ host, (cm.connections host).length ≤ fuel := by
        intro host
        have hle := hfuel host
        by_cases heq : host = first
        · rw [heq] at hle
          rw [heq, hhost, List.nil_append, skipped_length]
          omega
        · rw [hothers host heq]
          exact hle
      obtain ⟨last, hmore, hlast, hlists⟩ := ih ⟨cm, s.closed ++ reached (s.cm.connections first)⟩ hcm hrest hless
      have hsame : ∀ host ∈ rest, cm.connections host = s.cm.connections host := by
        rintro host hm
        exact hothers host fun heq => hfirst (heq ▸ hm)
      have hclosed : (rest.flatMap fun host => reached (cm.connections host)) =
          rest.flatMap fun host => reached (s.cm.connections host) := by
        apply List.flatMap_congr
        intro host hm
        rw [hsame host hm]
      refine ⟨last, ?_, hlast, ?_⟩
      · rw [Outcome.forEach]
        rw [List.length_nil] at hrun
        rw [hrun, Outcome.done_andThen, hmore]
        simp only [hclosed, List.flatMap_cons, List.append_assoc]
      · intro host
        rw [hlists]
        by_cases heq : host = first
        · subst host
          simp [hfirst, hhost]
        · by_cases hm : host ∈ rest
          · simp [heq, hm, hsame host hm]
          · simp [heq, hm, hothers host heq]

theorem closeAll_eq (fuel : Nat) (s : Closer) (hs : s.cm.Consistent)
    (hfuel : ∀ host, (s.cm.connections host).length ≤ fuel) :
    ∃ cm, closeAll fuel s =
        .done ⟨cm, s.closed ++ s.cm.hostmap.keys.flatMap fun host => reached (s.cm.connections host)⟩ ∧
      cm.Consistent ∧ ∀ host, cm.connections host = skipped (s.cm.connections host) := by
  obtain ⟨cm, hrun, hcm, hlists⟩ := forEach_closeListed s.cm.hostmap.keys fuel s hs s.cm.hostmap.keys_nodup hfuel
  refine ⟨cm, hrun, hcm, ?_⟩
  intro host
  rw [hlists]
  split
  · rfl
  · rename_i hm
    have hnone : s.cm.hostmap.lookup host = none := AList.lookup_eq_none.mpr fun h => hm (AList.mem_keys.mp h)
    simp [ConnectionManager.connections, hnone, skipped]

theorem connections_eq_nil {cm : ConnectionManager} (hcm : cm.Consistent) :
    cm.openConnections = [] ↔ ∀ host, cm.connections host = [] := by
  rw [ConnectionManager.openConnections, List.map_eq_nil_iff]
  constructor
  · intro h host
    have hempty : cm.hostmap = ∅ := AList.ext h
    simp [ConnectionManager.connections, hempty]
  · intro h
    cases hentries : cm.hostmap.entries with
    | nil => rfl
    | cons entry rest =>
        have hlookup : cm.hostmap.lookup entry.1 = some entry.2 := by
          rw [← Option.mem_def, AList.mem_lookup_iff, hentries]
          exact List.mem_cons_self
        have hlist := h entry.1
        rw [ConnectionManager.connections, hlookup, Option.getD_some] at hlist
        exact absurd (hlist ▸ hlookup) (hcm.nonempty entry.1)

-- The connections left after several calls of close_all.
def leftAfter (fuel count : Nat) (cm : ConnectionManager) : ConnectionManager :=
  (fun left => (closeAll fuel ⟨left, []⟩).state.cm)^[count] cm

theorem leftAfter_length (fuel count : Nat) (cm : ConnectionManager) (hcm : cm.Consistent)
    (hfuel : ∀ host, (cm.connections host).length ≤ fuel) :
    (leftAfter fuel count cm).Consistent ∧
      ∀ host, ((leftAfter fuel count cm).connections host).length = (cm.connections host).length / 2 ^ count := by
  induction count generalizing cm with
  | zero => exact ⟨hcm, fun host => by simp [leftAfter]⟩
  | succ count ih =>
      obtain ⟨last, hrun, hlast, hlists⟩ := closeAll_eq fuel ⟨cm, []⟩ hcm hfuel
      have hless : ∀ host, (last.connections host).length ≤ fuel := by
        intro host
        have hle := hfuel host
        rw [hlists, skipped_length]
        simp only
        omega
      have hnext : leftAfter fuel (count + 1) cm = leftAfter fuel count last := by
        rw [leftAfter, Function.iterate_succ_apply, hrun]
        rfl
      obtain ⟨hconsistent, hlength⟩ := ih last hlast hless
      rw [hnext]
      refine ⟨hconsistent, ?_⟩
      intro host
      rw [hlength, hlists, skipped_length, Nat.div_div_eq_div_mul, Nat.pow_succ']

-- close_all closes every second connection of each host. A number of calls of it closes
-- them all exactly when no host has as many as that power of two.
theorem closeAll_skips (fuel : Nat) (cm : ConnectionManager) (hcm : cm.Consistent)
    (hfuel : ∀ host, (cm.connections host).length ≤ fuel) :
    (∃ last, closeAll fuel ⟨cm, []⟩ =
        .done ⟨last, cm.hostmap.keys.flatMap fun host => reached (cm.connections host)⟩ ∧
      ∀ host, last.connections host = skipped (cm.connections host)) ∧
    ∀ count, (leftAfter fuel count cm).openConnections = [] ↔
      ∀ host, (cm.connections host).length < 2 ^ count := by
  obtain ⟨last, hrun, -, hlists⟩ := closeAll_eq fuel ⟨cm, []⟩ hcm hfuel
  refine ⟨⟨last, hrun, hlists⟩, ?_⟩
  intro count
  obtain ⟨hconsistent, hlength⟩ := leftAfter_length fuel count cm hcm hfuel
  rw [connections_eq_nil hconsistent]
  apply forall_congr'
  intro host
  rw [← List.length_eq_zero_iff, hlength, Nat.div_eq_zero_iff_lt (Nat.two_pow_pos count)]

def threeConnections : ConnectionManager :=
  ((ConnectionManager.empty.add "api".toList 0 true).add "api".toList 1 true).add "api".toList 2 false

theorem consistent_threeConnections : threeConnections.Consistent := by
  have hone := ConnectionManager.consistent_add ConnectionManager.consistent_empty "api".toList 0 true rfl
  have htwo := ConnectionManager.consistent_add hone "api".toList 1 true (by decide)
  exact ConnectionManager.consistent_add htwo "api".toList 2 false (by decide)

theorem length_threeConnections (host : Str) : (threeConnections.connections host).length ≤ 3 := by
  simp only [threeConnections, ConnectionManager.connections_add]
  split
  · simp [ConnectionManager.connections, ConnectionManager.empty]
  · simp [ConnectionManager.connections, ConnectionManager.empty]

theorem threeConnections_skipped :
    (∃ last, closeAll 3 ⟨threeConnections, []⟩ =
        .done ⟨last, threeConnections.hostmap.keys.flatMap fun host => reached (threeConnections.connections host)⟩ ∧
      ∀ host, last.connections host = skipped (threeConnections.connections host)) ∧
    ∀ count, (leftAfter 3 count threeConnections).openConnections = [] ↔
      ∀ host, (threeConnections.connections host).length < 2 ^ count :=
  closeAll_skips 3 threeConnections consistent_threeConnections length_threeConnections

example : (closeAll 3 ⟨threeConnections, []⟩).state.closed = [0, 2] := by decide

end Closer

end MesosPoc.KeepAlive
