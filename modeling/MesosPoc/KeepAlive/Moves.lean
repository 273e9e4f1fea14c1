import MesosPoc.KeepAlive.Handler

namespace MesosPoc.KeepAlive

-- The host and the connection of a call that has one.
def Phase.serves : Phase → Option (Str × Connection)
  | .trying host h => some (host, h)
  | .bad host h => some (host, h)
  | .closed host h => some (host, h)
  | .starting host h => some (host, h)
  | .answered host h _ _ => some (host, h)
  | _ => none

namespace Handler

-- All that one step can do.
inductive Moves (s : Handler) : Label → Handler → Prop
  | requested (host : Str) :
      Moves s (.request host)
        { s with calls := s.calls ++ [if host = [] then .failed none else .asking host] }
  | refused (call : Nat) (host : Str) (e : Fault) (hcall : s.calls[call]? = some (.asking host))
      (hget : s.cm.getReadyConn host = .error e) : Moves s (.ask call) (s.setCall call (.failed none))
  | missed (call : Nat) (host : Str) (cm : ConnectionManager) (hcall : s.calls[call]? = some (.asking host))
      (hget : s.cm.getReadyConn host = .ok (none, cm)) : Moves s (.ask call) (s.setCall call (.creating host))
  | found (call : Nat) (host : Str) (h : Connection) (cm : ConnectionManager)
      (hcall : s.calls[call]? = some (.asking host)) (hget : s.cm.getReadyConn host = .ok (some h, cm)) :
      Moves s (.ask call) ({ s with cm := cm }.setCall call (.trying host h))
  | reused (call : Nat) (host : Str) (h : Connection) (willClose : Bool)
      (hcall : s.calls[call]? = some (.trying host h)) :
      Moves s (.reuse call (.answer willClose)) (s.setCall call (.answered host h willClose true))
  | spoiled (call : Nat) (host : Str) (h : Connection) (hcall : s.calls[call]? = some (.trying host h)) :
      Moves s (.reuse call .bad) (s.setCall call (.bad host h))
  | surprised (call : Nat) (host : Str) (h : Connection) (hcall : s.calls[call]? = some (.trying host h)) :
      Moves s (.reuse call .unexpected) (s.setCall call (.aborting h))
  | created (call : Nat) (host : Str) (hcall : s.calls[call]? = some (.creating host)) :
      Moves s (.create call) ((s.addConnection host).setCall call (.starting host s.connections.length))
  | started (call : Nat) (host : Str) (h : Connection) (willClose : Bool)
      (hcall : s.calls[call]? = some (.starting host h)) :
      Moves s (.start call (some willClose)) (s.setCall call (.answered host h willClose true))
  | failed (call : Nat) (host : Str) (h : Connection) (hcall : s.calls[call]? = some (.starting host h)) :
      Moves s (.start call none) (s.setCall call (.failed (some h)))
  | closed (call : Nat) (host : Str) (h : Connection) (hcall : s.calls[call]? = some (.bad host h)) :
      Moves s (.proceed call) ((s.closeConnection h).setCall call (.closed host h))
  | discarded (call : Nat) (host : Str) (h : Connection) (hcall : s.calls[call]? = some (.closed host h)) :
      Moves s (.proceed call) ((s.removeConnection h).setCall call (.asking host))
  | aborted (call : Nat) (h : Connection) (hcall : s.calls[call]? = some (.aborting h)) :
      Moves s (.proceed call) ((s.removeConnection h).setCall call (.aborted h))
  | reraised (call : Nat) (h : Connection) (hcall : s.calls[call]? = some (.aborted h)) :
      Moves s (.proceed call) ((s.closeConnection h).setCall call (.failed none))
  | returned (call : Nat) (host : Str) (h : Connection) (willClose reading : Bool)
      (hcall : s.calls[call]? = some (.answered host h willClose reading)) :
      Moves s (.proceed call) (((if willClose then s.removeConnection h else s).respond
        ⟨host, h, willClose, reading⟩).setCall call .returned)
  | finished (response : Nat) (r : Response) (hresponse : s.responses[response]? = some r)
      (hreading : r.reading = true) :
      Moves s (.finish response) ((s.endResponse response r).requestClosed r.connection)
  | finishedAgain (response : Nat) : Moves s (.finish response) s
  | removed (c : Connection) : Moves s (.remove c) (s.removeConnection c)
  | cut (c : Connection) : Moves s (.close c) (s.closeConnection c)

theorem moves_of_step {s t : Handler} {label : Label} (h : s.step label = some t) : s.Moves label t := by
  cases label with
  | request host =>
      obtain rfl := Option.some.inj h
      exact .requested host
  | ask call =>
      simp only [step] at h
      split at h
      · rename_i host hcall
        split at h
        · rename_i e hget
          obtain rfl := Option.some.inj h
          exact .refused call host e hcall hget
        · rename_i cm hget
          obtain rfl := Option.some.inj h
          exact .missed call host cm hcall hget
        · rename_i c cm hget
          obtain rfl := Option.some.inj h
          exact .found call host c cm hcall hget
      · cases h
  | reuse call attempt =>
      simp only [step] at h
      split at h
      · rename_i host c hcall
        cases attempt with
        | answer willClose =>
            obtain rfl := Option.some.inj h
            exact .reused call host c willClose hcall
        | bad =>
            obtain rfl := Option.some.inj h
            exact .spoiled call host c hcall
        | unexpected =>
            obtain rfl := Option.some.inj h
            exact .surprised call host c hcall
      · cases h
  | create call =>
      simp only [step] at h
      split at h
      · rename_i host hcall
        obtain rfl := Option.some.inj h
        exact .created call host hcall
      · cases h
  | start call answer =>
      simp only [step] at h
      split at h
      · rename_i host c hcall
        cases answer with
        | some willClose =>
            obtain rfl := Option.some.inj h
            exact .started call host c willClose hcall
        | none =>
            obtain rfl := Option.some.inj h
            exact .failed call host c hcall
      · cases h
  | proceed call =>
      simp only [step] at h
      split at h
      · rename_i host c hcall
        obtain rfl := Option.some.inj h
        exact .closed call host c hcall
      · rename_i host c hcall
        obtain rfl := Option.some.inj h
        exact .discarded call host c hcall
      · rename_i c hcall
        obtain rfl := Option.some.inj h
        exact .aborted call c hcall
      · rename_i c hcall
        obtain rfl := Option.some.inj h
        exact .reraised call c hcall
      · rename_i host c willClose reading hcall
        obtain rfl := Option.some.inj h
        exact .returned call host c willClose reading hcall
      · cases h
  | finish response =>
      simp only [step] at h
      split at h
      · rename_i r hresponse
        split at h
        · rename_i hreading
          obtain rfl := Option.some.inj h
          exact .finished response r hresponse hreading
        · obtain rfl := Option.some.inj h
          exact .finishedAgain response
      · cases h
  | remove c =>
      obtain rfl := Option.some.inj h
      exact .removed c
  | close c =>
      obtain rfl := Option.some.inj h
      exact .cut c

theorem uses_setCall {s : Handler} {call : Nat} {phase : Phase} (h : s.calls[call]? = some phase)
    (next : Phase) (c : Connection) :
    (s.setCall call next).uses c + (if phase.held = some c then 1 else 0) =
      s.uses c + (if next.held = some c then 1 else 0) := by
  obtain ⟨hi, rfl⟩ := List.getElem?_eq_some_iff.mp h
  have hpos : s.calls[call].held = some c → 0 < s.calls.countP fun phase => phase.held = some c := by
    intro hheld
    exact List.countP_pos_iff.mpr ⟨_, List.getElem_mem hi, by simpa using hheld⟩
  simp only [uses, setCall, List.countP_set hi, decide_eq_true_eq]
  by_cases hheld : s.calls[call].held = some c
  · have := hpos hheld
    simp only [hheld, if_true]
    omega
  · simp only [hheld, if_false]
    omega

theorem uses_setCall_le {s : Handler} {call : Nat} {phase next : Phase} (h : s.calls[call]? = some phase)
    (hheld : next.held = none ∨ next.held = phase.held) (c : Connection) :
    (s.setCall call next).uses c ≤ s.uses c := by
  have huses := uses_setCall h next c
  rcases hheld with hnone | hsame
  · simp only [hnone, reduceCtorEq, if_false] at huses
    omega
  · rw [hsame] at huses
    omega

theorem uses_endResponse {s : Handler} {response : Nat} {r : Response}
    (h : s.responses[response]? = some r) (c : Connection) :
    (s.endResponse response r).uses c + (if r.held = some c then 1 else 0) = s.uses c := by
  obtain ⟨hi, rfl⟩ := List.getElem?_eq_some_iff.mp h
  have hpos : s.responses[response].held = some c →
      0 < s.responses.countP fun r => r.held = some c := by
    intro hheld
    exact List.countP_pos_iff.mpr ⟨_, List.getElem_mem hi, by simpa using hheld⟩
  have hended : ({ s.responses[response] with reading := false } : Response).held ≠ some c := by
    simp [Response.held]
  simp only [uses, endResponse, List.countP_set hi, decide_eq_true_eq, if_neg hended]
  by_cases hheld : s.responses[response].held = some c
  · have := hpos hheld
    simp only [hheld, if_true]
    omega
  · simp only [hheld, if_false]
    omega

theorem uses_respond (s : Handler) (r : Response) (c : Connection) :
    (s.respond r).uses c = s.uses c + (if r.held = some c then 1 else 0) := by
  simp only [uses, respond, List.countP_append, List.countP_singleton, decide_eq_true_eq]
  omega

@[simp] theorem uses_requestClosed (s : Handler) (c d : Connection) : (s.requestClosed c).uses d = s.uses d := rfl

@[simp] theorem uses_addConnection (s : Handler) (host : Str) (d : Connection) :
    (s.addConnection host).uses d = s.uses d := rfl

end Handler

theorem Phase.held_closedBy (c : Connection) (phase : Phase) : (phase.closedBy c).held = phase.held := by
  cases phase with
  | answered host h willClose reading => cases willClose <;> rfl
  | _ => rfl

theorem Phase.serves_closedBy (c : Connection) (phase : Phase) : (phase.closedBy c).serves = phase.serves := by
  cases phase with
  | answered host h willClose reading => cases willClose <;> rfl
  | _ => rfl

theorem Response.held_closedBy (c : Connection) (r : Response) :
    (r.closedBy c).held = if r.readFrom c then none else r.held := by
  unfold Response.closedBy
  split
  · rfl
  · rfl

theorem Response.held_of_readFrom {c : Connection} {r : Response} (h : r.readFrom c = true) :
    r.held = some c := by
  simp only [Response.readFrom, Bool.and_eq_true, decide_eq_true_eq] at h
  obtain ⟨⟨rfl, -⟩, hreading⟩ := h
  simp [Response.held, hreading]

namespace Handler

theorem uses_closeConnection (s : Handler) (c d : Connection) :
    (s.closeConnection c).uses d + (s.responses.filter (Response.readFrom c)).countP (fun r => r.held = some d) =
      s.uses d := by
  have hcalls : (s.calls.map (Phase.closedBy c)).countP (fun phase => phase.held = some d) =
      s.calls.countP fun phase => phase.held = some d := by
    rw [List.countP_map]
    simp only [Function.comp_def, Phase.held_closedBy]
  have hresponses : (s.responses.map (Response.closedBy c)).countP (fun r => r.held = some d) =
      (s.responses.filter fun r => !r.readFrom c).countP fun r => r.held = some d := by
    rw [List.countP_map, List.countP_filter]
    congr 1
    funext r
    simp only [Function.comp_apply, Response.held_closedBy]
    cases r.readFrom c with
    | true => simp
    | false => simp
  have hsplit := List.countP_eq_countP_filter_add s.responses (fun r => decide (r.held = some d))
    (Response.readFrom c)
  simp only [uses, closeConnection, hcalls, hresponses]
  omega

theorem uses_closeConnection_le (s : Handler) (c d : Connection) : (s.closeConnection c).uses d ≤ s.uses d := by
  have h := uses_closeConnection s c d
  omega

-- A response that is closed was the only user.
theorem uses_closeConnection_self (s : Handler) (c : Connection) (hs : s.uses c ≤ 1)
    (hread : s.responses.any (Response.readFrom c) = true) : (s.closeConnection c).uses c = 0 := by
  obtain ⟨r, hm, hr⟩ := List.any_eq_true.mp hread
  have hpos : 0 < (s.responses.filter (Response.readFrom c)).countP fun r => r.held = some c :=
    List.countP_pos_iff.mpr ⟨r, List.mem_filter.mpr ⟨hm, hr⟩, by simp [Response.held_of_readFrom hr]⟩
  have h := uses_closeConnection s c c
  omega

theorem calls_closeConnection {s : Handler} {call : Nat} {phase : Phase} (hcall : s.calls[call]? = some phase)
    (c : Connection) : (s.closeConnection c).calls[call]? = some (phase.closedBy c) := by
  simp [closeConnection, hcall]

end Handler

end MesosPoc.KeepAlive
