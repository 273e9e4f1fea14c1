import MesosPoc.KeepAlive.Consistency
import MesosPoc.KeepAlive.Moves

namespace MesosPoc.KeepAlive.Handler

-- Each connection has one user at most, none while it is ready, and is used for the
-- host it was made for.
structure Safe (s : Handler) : Prop where
  manager : s.cm.Consistent
  origin : ∀ c host, s.cm.connmap.lookup c = some host → s.connections[c]? = some host
  exclusive : ∀ c, s.uses c ≤ 1
  idle : ∀ c host, s.cm.connmap.lookup c = some host → s.cm.readymap.lookup c = some true → s.uses c = 0
  known : ∀ c : Nat, 0 < s.uses c → c < s.connections.length
  hosts : ∀ phase ∈ s.calls, ∀ host h, phase.serves = some (host, h) → s.connections[h]? = some host
  responses : ∀ r ∈ s.responses, s.connections[r.connection]? = some r.host

theorem safe_empty : empty.Safe := by
  constructor
  · exact ConnectionManager.consistent_empty
  all_goals simp [empty, ConnectionManager.empty, uses]

-- A step that adds no user and no connection.
theorem Safe.of_le {s t : Handler} (hs : s.Safe) (hmanager : t.cm.Consistent)
    (hconnections : t.connections = s.connections)
    (hmap : ∀ c host, t.cm.connmap.lookup c = some host → s.cm.connmap.lookup c = some host)
    (hready : ∀ c host, t.cm.connmap.lookup c = some host → t.cm.readymap.lookup c = some true →
      s.cm.readymap.lookup c = some true ∨ t.uses c = 0)
    (huses : ∀ c, t.uses c ≤ s.uses c)
    (hhosts : ∀ phase ∈ t.calls, ∀ host h, phase.serves = some (host, h) → s.connections[h]? = some host)
    (hresponses : ∀ r ∈ t.responses, s.connections[r.connection]? = some r.host) : t.Safe where
  manager := hmanager
  origin c host hc := hconnections ▸ hs.origin c host (hmap c host hc)
  exclusive c := (huses c).trans (hs.exclusive c)
  idle c host hc hr := by
    rcases hready c host hc hr with hr | hzero
    · have hidle := hs.idle c host (hmap c host hc) hr
      have hle := huses c
      omega
    · exact hzero
  known c hc := by
    rw [hconnections]
    exact hs.known c (hc.trans_le (huses c))
  hosts phase hm host h hp := hconnections ▸ hhosts phase hm host h hp
  responses r hm := hconnections ▸ hresponses r hm

theorem serves_setCall {s : Handler} (hs : s.Safe) (call : Nat) {next : Phase}
    (hnext : ∀ host h, next.serves = some (host, h) → s.connections[h]? = some host) :
    ∀ phase ∈ (s.setCall call next).calls, ∀ host h, phase.serves = some (host, h) →
      s.connections[h]? = some host := by
  intro phase hm
  rcases List.mem_or_eq_of_mem_set hm with hm | rfl
  · exact hs.hosts phase hm
  · exact hnext

theorem safe_removeConnection {s : Handler} (hs : s.Safe) (c : Connection) : (s.removeConnection c).Safe := by
  have hcm : (s.removeConnection c).cm = s.cm.without c := by
    simp [removeConnection, ConnectionManager.remove_consistent hs.manager]
  have hlookup : ∀ d host, (s.cm.without c).connmap.lookup d = some host →
      d ≠ c ∧ s.cm.connmap.lookup d = some host := by
    intro d host hd
    rw [ConnectionManager.connmap_without] at hd
    exact Option.ite_none_left_eq_some.mp hd
  apply hs.of_le
  · rw [hcm]
    exact ConnectionManager.consistent_without hs.manager c
  · rfl
  · intro d host hd
    rw [hcm] at hd
    exact (hlookup d host hd).2
  · intro d host hd hr
    rw [hcm] at hd hr
    rw [ConnectionManager.readymap_without _ _ _ (hlookup d host hd).1] at hr
    exact Or.inl hr
  · intro d
    exact le_rfl
  · exact hs.hosts
  · exact hs.responses

theorem safe_requestClosed {s : Handler} (hs : s.Safe) (c : Connection) (hc : s.uses c = 0) :
    (s.requestClosed c).Safe := by
  apply hs.of_le
  · exact ConnectionManager.consistent_setReady hs.manager c true
  · rfl
  · exact fun d host hd => hd
  · intro d host hd hr
    by_cases hdc : d = c
    · exact Or.inr (hdc ▸ hc)
    · simp only [requestClosed, ConnectionManager.setReady, AList.lookup_insert_ne hdc] at hr
      exact Or.inl hr
  · exact fun d => le_rfl
  · exact hs.hosts
  · exact hs.responses

theorem safe_closeConnection {s : Handler} (hs : s.Safe) (c : Connection) : (s.closeConnection c).Safe := by
  have hcalls : ∀ phase ∈ (s.closeConnection c).calls, ∀ host h, phase.serves = some (host, h) →
      s.connections[h]? = some host := by
    intro phase hm host h hp
    obtain ⟨before, hbefore, rfl⟩ := List.mem_map.mp hm
    rw [Phase.serves_closedBy] at hp
    exact hs.hosts before hbefore host h hp
  have hresponses : ∀ r ∈ (s.closeConnection c).responses, s.connections[r.connection]? = some r.host := by
    intro r hm
    obtain ⟨before, hbefore, rfl⟩ := List.mem_map.mp hm
    have hr := hs.responses before hbefore
    unfold Response.closedBy
    split
    · exact hr
    · exact hr
  cases hread : s.responses.any (Response.readFrom c) with
  | false =>
      have hcm : (s.closeConnection c).cm = s.cm := by simp [closeConnection, hread]
      have hconnections : (s.closeConnection c).connections = s.connections := by simp [closeConnection, hread]
      refine hs.of_le (hcm ▸ hs.manager) hconnections ?_ ?_ (uses_closeConnection_le s c) hcalls hresponses
      · intro d host hd
        rw [hcm] at hd
        exact hd
      · intro d host hd hr
        rw [hcm] at hr
        exact Or.inl hr
  | true =>
      have hcm : (s.closeConnection c).cm = s.cm.setReady c true := by
        simp [closeConnection, hread, requestClosed]
      have hconnections : (s.closeConnection c).connections = s.connections := by
        simp [closeConnection, hread, requestClosed]
      have hmanager := ConnectionManager.consistent_setReady hs.manager c true
      refine hs.of_le (hcm ▸ hmanager) hconnections ?_ ?_ (uses_closeConnection_le s c) hcalls hresponses
      · intro d host hd
        rw [hcm] at hd
        exact hd
      · intro d host hd hr
        by_cases hdc : d = c
        · rw [hdc]
          exact Or.inr (uses_closeConnection_self s c (hs.exclusive c) hread)
        · rw [hcm, ConnectionManager.setReady, AList.lookup_insert_ne hdc] at hr
          exact Or.inl hr

-- A call that goes on with the connection it has, or lets go of it.
theorem safe_setCall {s : Handler} (hs : s.Safe) {call : Nat} {phase next : Phase}
    (hcall : s.calls[call]? = some phase) (hheld : next.held = none ∨ next.held = phase.held)
    (hserves : next.serves = none ∨ next.serves = phase.serves) : (s.setCall call next).Safe := by
  apply hs.of_le
  · exact hs.manager
  · rfl
  · exact fun c host hc => hc
  · exact fun c host _ hr => Or.inl hr
  · exact uses_setCall_le hcall hheld
  · apply serves_setCall hs call
    intro host h hn
    rcases hserves with hnone | hsame
    · rw [hnone] at hn
      cases hn
    · exact hs.hosts phase (List.mem_of_getElem? hcall) host h (hsame ▸ hn)
  · exact hs.responses

theorem found_of_getReadyConn {s : Handler} (hs : s.Safe) {host : Str} {h : Connection}
    {cm : ConnectionManager} (hget : s.cm.getReadyConn host = .ok (some h, cm)) :
    s.cm.connmap.lookup h = some host ∧ s.cm.readymap.lookup h = some true ∧ cm = s.cm.setReady h false := by
  rw [ConnectionManager.getReadyConn_consistent hs.manager] at hget
  cases hf : (s.cm.connections host).find? fun c => s.cm.readymap.lookup c = some true with
  | none => simp [hf] at hget
  | some found =>
      simp only [hf, Except.ok.injEq, Prod.mk.injEq, Option.some.injEq] at hget
      obtain ⟨rfl, rfl⟩ := hget
      refine ⟨(hs.manager.mapped host found).mp (List.mem_of_find?_eq_some hf), ?_, rfl⟩
      simpa using List.find?_some hf

theorem uses_found {s : Handler} {call : Nat} {host : Str} (hcall : s.calls[call]? = some (.asking host))
    (cm : ConnectionManager) (h c : Connection) :
    ({ s with cm := cm }.setCall call (.trying host h)).uses c = s.uses c + (if h = c then 1 else 0) := by
  have hcall' : ({ s with cm := cm } : Handler).calls[call]? = some (.asking host) := hcall
  have huses := uses_setCall hcall' (.trying host h) c
  simp only [Phase.held, Option.some.injEq, reduceCtorEq, if_false, Nat.add_zero] at huses
  exact huses

-- The connection that was handed out had no user.
theorem safe_found {s : Handler} (hs : s.Safe) {call : Nat} {host : Str} {h : Connection}
    {cm : ConnectionManager} (hcall : s.calls[call]? = some (.asking host))
    (hget : s.cm.getReadyConn host = .ok (some h, cm)) :
    ({ s with cm := cm }.setCall call (.trying host h)).Safe := by
  obtain ⟨hmapped, hready, rfl⟩ := found_of_getReadyConn hs hget
  have hzero := hs.idle h host hmapped hready
  have huses := uses_found hcall (s.cm.setReady h false) h
  constructor
  · exact ConnectionManager.consistent_setReady hs.manager h false
  · exact hs.origin
  · intro c
    rw [huses]
    split
    · rename_i heq
      rw [← heq, hzero]
    · exact hs.exclusive c
  · intro c host' hc hr
    rw [huses]
    by_cases heq : h = c
    · simp [setCall, ConnectionManager.setReady, heq] at hr
    · simp only [setCall, ConnectionManager.setReady, AList.lookup_insert_ne (Ne.symm heq)] at hr
      rw [if_neg heq]
      exact hs.idle c host' hc hr
  · intro c hc
    rw [huses] at hc
    by_cases heq : h = c
    · have horigin := hs.origin h host hmapped
      rw [← heq]
      exact (List.getElem?_eq_some_iff.mp horigin).1
    · rw [if_neg heq] at hc
      exact hs.known c hc
  · apply serves_setCall hs call
    intro host' h' hn
    obtain ⟨rfl, rfl⟩ : host = host' ∧ h = h' := by simpa [Phase.serves] using hn
    exact hs.origin h host hmapped
  · exact hs.responses

theorem uses_created {s : Handler} {call : Nat} {host : Str} (hcall : s.calls[call]? = some (.creating host))
    (c : Connection) :
    ((s.addConnection host).setCall call (.starting host s.connections.length)).uses c =
      s.uses c + (if s.connections.length = c then 1 else 0) := by
  have hcall' : (s.addConnection host).calls[call]? = some (.creating host) := hcall
  have huses := uses_setCall hcall' (.starting host s.connections.length) c
  simp only [Phase.held, Option.some.injEq, reduceCtorEq, if_false, Nat.add_zero, uses_addConnection] at huses
  exact huses

theorem connmap_new {s : Handler} (hs : s.Safe) : s.cm.connmap.lookup s.connections.length = none := by
  cases hl : s.cm.connmap.lookup s.connections.length with
  | none => rfl
  | some other =>
      have horigin := hs.origin _ other hl
      simp at horigin

theorem uses_new {s : Handler} (hs : s.Safe) : s.uses s.connections.length = 0 := by
  by_contra hne
  have hlt := hs.known _ (Nat.pos_of_ne_zero hne)
  omega

theorem safe_created {s : Handler} (hs : s.Safe) {call : Nat} {host : Str}
    (hcall : s.calls[call]? = some (.creating host)) :
    ((s.addConnection host).setCall call (.starting host s.connections.length)).Safe := by
  have hnew := connmap_new hs
  have hunused := uses_new hs
  have huses := uses_created hcall
  have hold : ∀ (c : Nat) (other : Str), s.connections[c]? = some other →
      (s.connections ++ [host])[c]? = some other := by
    intro c other hc
    rw [List.getElem?_append_left (List.getElem?_eq_some_iff.mp hc).1]
    exact hc
  constructor
  · exact ConnectionManager.consistent_add hs.manager host _ false hnew
  · intro c other hc
    by_cases heq : c = s.connections.length
    · subst c
      simp only [setCall, addConnection, ConnectionManager.add, AList.lookup_insert,
        Option.some.injEq] at hc
      simp [setCall, addConnection, hc]
    · simp only [setCall, addConnection, ConnectionManager.add, AList.lookup_insert_ne heq] at hc
      exact hold c other (hs.origin c other hc)
  · intro c
    rw [huses]
    split
    · rename_i heq
      rw [← heq, hunused]
    · exact hs.exclusive c
  · intro c other hc hr
    rw [huses]
    by_cases heq : c = s.connections.length
    · subst c
      simp [setCall, addConnection, ConnectionManager.add] at hr
    · simp only [setCall, addConnection, ConnectionManager.add, AList.lookup_insert_ne heq] at hc hr
      rw [if_neg (Ne.symm heq)]
      exact hs.idle c other hc hr
  · intro c hc
    rw [huses] at hc
    have hlength : ((s.addConnection host).setCall call (.starting host s.connections.length)).connections.length =
        s.connections.length + 1 := by simp [setCall, addConnection]
    by_cases heq : s.connections.length = c
    · omega
    · rw [if_neg heq] at hc
      have hlt := hs.known c hc
      omega
  · intro phase hm other h hp
    rcases List.mem_or_eq_of_mem_set hm with hm | rfl
    · exact hold h other (hs.hosts phase hm other h hp)
    · obtain ⟨rfl, rfl⟩ : host = other ∧ s.connections.length = h := by simpa [Phase.serves] using hp
      simp [setCall, addConnection]
  · intro r hm
    exact hold r.connection r.host (hs.responses r hm)

theorem safe_respond {s : Handler} (hs : s.Safe) {call : Nat} {host : Str} {h : Connection}
    {willClose reading : Bool} (hcall : s.calls[call]? = some (.answered host h willClose reading)) :
    ((s.respond ⟨host, h, willClose, reading⟩).setCall call .returned).Safe := by
  apply hs.of_le
  · exact hs.manager
  · rfl
  · exact fun c other hc => hc
  · exact fun c other _ hr => Or.inl hr
  · intro c
    have hcall' : (s.respond ⟨host, h, willClose, reading⟩).calls[call]? =
        some (.answered host h willClose reading) := hcall
    have huses := uses_setCall hcall' .returned c
    have hheld : Response.held ⟨host, h, willClose, reading⟩ = some c → h = c := by
      simp only [Response.held]
      split
      · exact Option.some.inj
      · intro hnone
        cases hnone
    simp only [uses_respond, Phase.held, Option.some.injEq, reduceCtorEq, if_false] at huses
    by_cases heq : h = c
    · rw [if_pos heq] at huses
      split at huses
      · omega
      · omega
    · rw [if_neg heq, if_neg fun hr => heq (hheld hr)] at huses
      omega
  · intro phase hm other d hp
    rcases List.mem_or_eq_of_mem_set hm with hm | rfl
    · exact hs.hosts phase hm other d hp
    · cases hp
  · intro r hm
    rcases List.mem_append.mp hm with hm | hm
    · exact hs.responses r hm
    · obtain rfl := List.mem_singleton.mp hm
      exact hs.hosts _ (List.mem_of_getElem? hcall) host h rfl

theorem safe_endResponse {s : Handler} (hs : s.Safe) {response : Nat} {r : Response}
    (hr : s.responses[response]? = some r) : (s.endResponse response r).Safe := by
  apply hs.of_le
  · exact hs.manager
  · rfl
  · exact fun c host hc => hc
  · exact fun c host _ hready => Or.inl hready
  · intro c
    have huses := uses_endResponse hr c
    omega
  · exact hs.hosts
  · intro other hm
    rcases List.mem_or_eq_of_mem_set hm with hm | rfl
    · exact hs.responses other hm
    · exact hs.responses r (List.mem_of_getElem? hr)

theorem safe_step {s t : Handler} {label : Label} (hs : s.Safe) (hstep : s.step label = some t) : t.Safe := by
  cases moves_of_step hstep with
  | requested host =>
      have hphase : ∀ phase : Phase, (phase = if host = [] then .failed none else .asking host) →
          phase.held = none ∧ phase.serves = none := by
        rintro phase rfl
        split <;> exact ⟨rfl, rfl⟩
      obtain ⟨hheld, hserves⟩ := hphase _ rfl
      apply hs.of_le
      · exact hs.manager
      · rfl
      · exact fun c other hc => hc
      · exact fun c other _ hr => Or.inl hr
      · intro c
        simp [uses, List.countP_append, hheld]
      · intro phase hm other h hp
        rcases List.mem_append.mp hm with hm | hm
        · exact hs.hosts phase hm other h hp
        · rw [List.mem_singleton.mp hm, hserves] at hp
          cases hp
      · exact hs.responses
  | refused call host e hcall hget => exact safe_setCall hs hcall (Or.inl rfl) (Or.inl rfl)
  | missed call host cm hcall hget => exact safe_setCall hs hcall (Or.inl rfl) (Or.inl rfl)
  | found call host h cm hcall hget => exact safe_found hs hcall hget
  | reused call host h willClose hcall => exact safe_setCall hs hcall (Or.inr rfl) (Or.inr rfl)
  | spoiled call host h hcall => exact safe_setCall hs hcall (Or.inr rfl) (Or.inr rfl)
  | surprised call host h hcall => exact safe_setCall hs hcall (Or.inr rfl) (Or.inl rfl)
  | created call host hcall => exact safe_created hs hcall
  | started call host h willClose hcall => exact safe_setCall hs hcall (Or.inr rfl) (Or.inr rfl)
  | failed call host h hcall => exact safe_setCall hs hcall (Or.inl rfl) (Or.inl rfl)
  | closed call host h hcall =>
      exact safe_setCall (safe_closeConnection hs h) (calls_closeConnection hcall h) (Or.inr rfl) (Or.inr rfl)
  | discarded call host h hcall =>
      exact safe_setCall (safe_removeConnection hs h) hcall (Or.inl rfl) (Or.inl rfl)
  | aborted call h hcall => exact safe_setCall (safe_removeConnection hs h) hcall (Or.inr rfl) (Or.inl rfl)
  | reraised call h hcall =>
      exact safe_setCall (safe_closeConnection hs h) (calls_closeConnection hcall h) (Or.inl rfl) (Or.inl rfl)
  | returned call host h willClose reading hcall =>
      cases willClose with
      | true => exact safe_respond (safe_removeConnection hs h) hcall
      | false => exact safe_respond hs hcall
  | finished response r hresponse hreading =>
      have huses := uses_endResponse hresponse r.connection
      have hone := hs.exclusive r.connection
      simp only [Response.held, hreading, if_true] at huses
      exact safe_requestClosed (safe_endResponse hs hresponse) r.connection (by omega)
  | finishedAgain response => exact hs
  | removed c => exact safe_removeConnection hs c
  | cut c => exact safe_closeConnection hs c

theorem safe_run (labels : List Label) {s t : Handler} (hs : s.Safe) (hrun : Machine.run step s labels = some t) :
    t.Safe :=
  (Machine.reaches_of_run_any labels hrun).invariant Safe hs fun _ _ _ hbefore _ hstep =>
    safe_step hbefore hstep

-- No connection is used by two requests at once, none is handed out while it is used or
-- used for another host than its own, and the methods of the manager raise nothing.
structure Exclusive (s : Handler) : Prop where
  single : ∀ c, s.uses c ≤ 1
  idle : ∀ host c, c ∈ s.cm.connections host → s.cm.readymap.lookup c = some true → s.uses c = 0
  hosts : ∀ phase ∈ s.calls, ∀ host h, phase.serves = some (host, h) → s.connections[h]? = some host
  responses : ∀ r ∈ s.responses, s.connections[r.connection]? = some r.host
  remove : ∀ c, (s.cm.remove c).raised = none
  getReadyConn : ∀ host, ∃ found cm, s.cm.getReadyConn host = .ok (found, cm)

-- In every order of the steps of any number of threads.
theorem connections_exclusive (labels : List Label) (s : Handler)
    (hrun : Machine.run step empty labels = some s) : s.Exclusive := by
  have hs := safe_run labels safe_empty hrun
  refine ⟨hs.exclusive, ?_, hs.hosts, hs.responses, ?_, ?_⟩
  · intro host c hm hr
    exact hs.idle c host ((hs.manager.mapped host c).mp hm) hr
  · intro c
    rw [ConnectionManager.remove_consistent hs.manager]
    rfl
  · intro host
    rw [ConnectionManager.getReadyConn_consistent hs.manager]
    exact ⟨_, _, rfl⟩

-- A connection that is used a second time after its first response was read.
def twoRequests : List Label :=
  [.request "api".toList, .ask 0, .create 0, .start 0 (some false), .proceed 0, .finish 0,
    .request "api".toList, .ask 1, .reuse 1 (.answer false)]

theorem twoRequests_exclusive : ∃ s, Machine.run step empty twoRequests = some s ∧ s.Exclusive :=
  ⟨_, rfl, connections_exclusive twoRequests _ rfl⟩

end MesosPoc.KeepAlive.Handler
