import MesosPoc.KeepAlive.Closing
import MesosPoc.KeepAlive.Handler

namespace MesosPoc.KeepAlive

-- How the while loop of do_open ends: with a response on a connection that was used
-- before, without one, or by an exception that _reuse_connection lets through.
inductive Opened
  | reused (h : Connection) (willClose : Bool)
  | fresh
  | raised (h : Connection)
deriving DecidableEq

-- The connection that the loop hands out.
def Opened.taken : Opened → Option Connection
  | .reused h _ => some h
  | _ => none

namespace Closer

-- A bad connection is closed before it is removed, a surprising one after. It was
-- ready, so that its close has no response to end.
def giveUp (h : Connection) (s : Closer) : Outcome Fault Closer :=
  (s.cm.remove h).within fun cm => ⟨cm, s.closed ++ [h]⟩

def openLoop (attempt : Connection → Attempt) (host : Str) : Nat → Closer → Option (Except Fault (Opened × Closer))
  | 0, _ => none
  | fuel + 1, s =>
      match s.cm.getReadyConn host with
      | .error e => some (.error e)
      | .ok (none, _) => some (.ok (.fresh, s))
      | .ok (some h, cm) =>
          let taken := { s with cm := cm }
          match attempt h with
          | .answer willClose => some (.ok (.reused h willClose, taken))
          | .bad =>
              match (taken.giveUp h).raised with
              | some e => some (.error e)
              | none => openLoop attempt host fuel (taken.giveUp h).state
          | .unexpected =>
              match (taken.giveUp h).raised with
              | some e => some (.error e)
              | none => some (.ok (.raised h, (taken.giveUp h).state))

-- The connections of a host that get_ready_conn can hand out, in its order.
def ready (cm : ConnectionManager) (host : Str) : List Connection :=
  (cm.connections host).filter fun c => cm.readymap.lookup c = some true

-- What do_open is to make of the ready connections: how the loop ends, and the
-- connections it gives up on the way.
def outcomeOf (attempt : Connection → Attempt) : List Connection → Opened × List Connection
  | [] => (.fresh, [])
  | h :: rest =>
      match attempt h with
      | .answer willClose => (.reused h willClose, [])
      | .bad => ((outcomeOf attempt rest).1, h :: (outcomeOf attempt rest).2)
      | .unexpected => (.raised h, [h])

theorem getReadyConn_ready {cm : ConnectionManager} (hcm : cm.Consistent) (host : Str) :
    cm.getReadyConn host = .ok
      (match ready cm host with
        | [] => (none, cm)
        | h :: _ => (some h, cm.setReady h false)) := by
  rw [ConnectionManager.getReadyConn_consistent hcm, ← List.head?_filter, ← ready]
  cases ready cm host with
  | nil => rfl
  | cons h rest => rfl

theorem giveUp_consistent {s : Closer} (hs : s.cm.Consistent) (h : Connection) :
    s.giveUp h = .done ⟨s.cm.without h, s.closed ++ [h]⟩ := by
  simp [giveUp, ConnectionManager.remove_consistent hs]

-- After the first ready connection is gone the others are ready as before.
theorem ready_without {cm : ConnectionManager} (hcm : cm.Consistent) {host : Str} {h : Connection}
    {rest : List Connection} (hready : ready cm host = h :: rest) :
    ready ((cm.setReady h false).without h) host = rest := by
  have hset := ConnectionManager.consistent_setReady hcm h false
  have hnodup := (hcm.nodup host).filter fun c => cm.readymap.lookup c = some true
  have hsame : ∀ c ∈ (cm.connections host).erase h,
      ((cm.setReady h false).without h).readymap.lookup c = cm.readymap.lookup c := by
    intro c hm
    have hne : c ≠ h := ((hcm.nodup host).mem_erase_iff.mp hm).1
    rw [ConnectionManager.readymap_without _ _ _ hne]
    exact AList.lookup_insert_ne hne
  have herase : ((cm.connections host).erase h).filter (fun c => cm.readymap.lookup c = some true) =
      (ready cm host).erase h := by
    rw [(hcm.nodup host).erase_eq_filter, List.filter_filter, ready, hnodup.erase_eq_filter, List.filter_filter]
    apply List.filter_congr
    intro c _
    rw [Bool.and_comm]
  rw [ready, ConnectionManager.connections_without hset, ConnectionManager.connections_setReady]
  rw [List.filter_congr fun c hm => by rw [hsame c hm], herase, hready, List.erase_cons_head]

theorem connections_given {cm : ConnectionManager} (hcm : cm.Consistent) (h : Connection) (other : Str) :
    ((cm.setReady h false).without h).connections other = (cm.connections other).filter (· ≠ h) := by
  rw [ConnectionManager.connections_without (ConnectionManager.consistent_setReady hcm h false),
    ConnectionManager.connections_setReady, (hcm.nodup other).erase_eq_filter]
  apply List.filter_congr
  intro c _
  by_cases hc : c = h <;> simp [hc]

theorem readymap_given (cm : ConnectionManager) {h c : Connection} (hc : c ≠ h) :
    ((cm.setReady h false).without h).readymap.lookup c = cm.readymap.lookup c := by
  rw [ConnectionManager.readymap_without _ _ _ hc]
  exact AList.lookup_insert_ne hc

-- What the loop leaves: the lists without the connections given up, the connection
-- handed out not ready, and all others ready or not as they were.
structure Leaves (before cm : ConnectionManager) (taken : Option Connection) (givenUp : List Connection) : Prop where
  consistent : cm.Consistent
  lists : ∀ host, cm.connections host = (before.connections host).filter (· ∉ givenUp)
  busy : ∀ c, taken = some c → cm.readymap.lookup c = some false
  others : ∀ c, c ∉ givenUp → taken ≠ some c → cm.readymap.lookup c = before.readymap.lookup c

theorem Leaves.cons {before cm : ConnectionManager} {taken : Option Connection} {givenUp : List Connection}
    {h : Connection} (hbefore : before.Consistent)
    (hleaves : Leaves ((before.setReady h false).without h) cm taken givenUp) :
    Leaves before cm taken (h :: givenUp) where
  consistent := hleaves.consistent
  lists := by
    intro host
    rw [hleaves.lists, connections_given hbefore, List.filter_filter]
    apply List.filter_congr
    intro c _
    by_cases hc : c = h <;> simp [hc]
  busy := hleaves.busy
  others := by
    intro c hm htaken
    rw [List.mem_cons, not_or] at hm
    rw [hleaves.others c hm.2 htaken, readymap_given before hm.1]

theorem leaves_nothing {cm : ConnectionManager} (hcm : cm.Consistent) : Leaves cm cm none [] where
  consistent := hcm
  lists := fun host => by simp
  busy := nofun
  others := fun _ _ _ => rfl

theorem leaves_taken {cm : ConnectionManager} (hcm : cm.Consistent) (h : Connection) :
    Leaves cm (cm.setReady h false) (some h) [] where
  consistent := ConnectionManager.consistent_setReady hcm h false
  lists := fun host => by simp
  busy := by
    rintro c ⟨⟩
    exact AList.lookup_insert _
  others := by
    intro c _ htaken
    exact AList.lookup_insert_ne fun hc => htaken (congrArg some hc.symm)

-- The loop tries the ready connections of the host one after the other until one of them
-- works, gives up exactly those before it, and ends with all other connections as they were.
theorem openLoop_eq (attempt : Connection → Attempt) (host : Str) (fuel : Nat) (s : Closer)
    (hs : s.cm.Consistent) (hfuel : (ready s.cm host).length < fuel) :
    ∃ cm, openLoop attempt host fuel s = some (.ok ((outcomeOf attempt (ready s.cm host)).1,
        ⟨cm, s.closed ++ (outcomeOf attempt (ready s.cm host)).2⟩)) ∧
      Leaves s.cm cm (outcomeOf attempt (ready s.cm host)).1.taken (outcomeOf attempt (ready s.cm host)).2 := by
  generalize hready : ready s.cm host = list at hfuel ⊢
  induction list generalizing fuel s with
  | nil =>
      obtain ⟨less, rfl⟩ : ∃ less, fuel = less + 1 := ⟨fuel - 1, by omega⟩
      have hget := getReadyConn_ready hs host
      rw [hready] at hget
      refine ⟨s.cm, ?_, leaves_nothing hs⟩
      simp only [openLoop, hget, outcomeOf, List.append_nil]
  | cons h rest ih =>
      obtain ⟨less, rfl⟩ : ∃ less, fuel = less + 1 := ⟨fuel - 1, by omega⟩
      have hget := getReadyConn_ready hs host
      rw [hready] at hget
      have hset := ConnectionManager.consistent_setReady hs h false
      have hgone := giveUp_consistent (s := { s with cm := s.cm.setReady h false }) hset h
      have hwithout := ConnectionManager.consistent_without hset h
      cases hattempt : attempt h with
      | answer willClose =>
          simp only [outcomeOf, hattempt]
          refine ⟨s.cm.setReady h false, ?_, leaves_taken hs h⟩
          simp only [openLoop, hget, hattempt, List.append_nil]
      | unexpected =>
          simp only [outcomeOf, hattempt]
          refine ⟨(s.cm.setReady h false).without h, ?_, (leaves_nothing hwithout).cons hs⟩
          simp only [openLoop, hget, hattempt, hgone, Outcome.done_raised, Outcome.done_state]
      | bad =>
          have hlength : rest.length < less := by simpa using hfuel
          obtain ⟨cm, hrun, hleaves⟩ := ih less ⟨(s.cm.setReady h false).without h, s.closed ++ [h]⟩ hwithout
            (ready_without hs hready) hlength
          simp only [outcomeOf, hattempt]
          refine ⟨cm, ?_, hleaves.cons hs⟩
          simp only [openLoop, hget, hattempt, hgone, Outcome.done_raised, Outcome.done_state, hrun,
            List.append_assoc, List.singleton_append]

-- The first connection was closed by the server, the second one still works.
def firstBad : Connection → Attempt
  | 0 => .bad
  | _ => .answer false

theorem threeConnections_opened :
    ∃ cm, openLoop firstBad "api".toList 3 ⟨threeConnections, []⟩ =
        some (.ok ((outcomeOf firstBad (ready threeConnections "api".toList)).1,
          ⟨cm, [] ++ (outcomeOf firstBad (ready threeConnections "api".toList)).2⟩)) ∧
      Leaves threeConnections cm (outcomeOf firstBad (ready threeConnections "api".toList)).1.taken
        (outcomeOf firstBad (ready threeConnections "api".toList)).2 :=
  openLoop_eq firstBad "api".toList 3 ⟨threeConnections, []⟩ consistent_threeConnections (by decide)

example : outcomeOf firstBad (ready threeConnections "api".toList) = (.reused 1 false, [0]) := by decide

end Closer

end MesosPoc.KeepAlive
