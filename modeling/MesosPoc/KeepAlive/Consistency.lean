import MesosPoc.KeepAlive

namespace MesosPoc.KeepAlive.ConnectionManager

theorem consistent_empty : empty.Consistent := by
  constructor <;> simp [empty, connections]

@[simp] theorem connections_setReady (c : Connection) (ready : Bool) (cm : ConnectionManager) :
    (cm.setReady c ready).connections = cm.connections := rfl

@[simp] theorem connmap_setConnections (host : Str) (rest : List Connection) (cm : ConnectionManager) :
    (cm.setConnections host rest).connmap = cm.connmap := rfl

@[simp] theorem readymap_setConnections (host : Str) (rest : List Connection) (cm : ConnectionManager) :
    (cm.setConnections host rest).readymap = cm.readymap := rfl

theorem lookup_setConnections (host other : Str) (rest : List Connection) (cm : ConnectionManager) :
    (cm.setConnections host rest).hostmap.lookup other =
      if other = host then (if rest = [] then none else some rest) else cm.hostmap.lookup other := by
  by_cases ho : other = host
  · subst other
    by_cases hr : rest = []
    · simp [setConnections, hr]
    · simp [setConnections, hr]
  · by_cases hr : rest = []
    · simp [setConnections, hr, ho, AList.lookup_erase_ne ho]
    · simp [setConnections, hr, ho, AList.lookup_insert_ne ho]

theorem connections_setConnections (host other : Str) (rest : List Connection) (cm : ConnectionManager) :
    (cm.setConnections host rest).connections other = if other = host then rest else cm.connections other := by
  rw [connections, lookup_setConnections]
  by_cases ho : other = host
  · by_cases hr : rest = []
    · simp [ho, hr]
    · simp [ho, hr]
  · simp [ho, connections]

theorem connections_add (host other : Str) (c : Connection) (ready : Bool) (cm : ConnectionManager) :
    (cm.add host c ready).connections other =
      if other = host then cm.connections host ++ [c] else cm.connections other := by
  by_cases ho : other = host
  · subst other
    simp [connections, add]
  · simp [connections, add, ho, AList.lookup_insert_ne ho]

theorem Consistent.of_connections {cm : ConnectionManager} (h : cm.Consistent) {host : Str} {c : Connection}
    (hc : cm.connmap.lookup c = some host) : cm.hostmap.lookup host = some (cm.connections host) := by
  have hm := (h.mapped host c).mpr hc
  cases hl : cm.hostmap.lookup host with
  | none => simp [connections, hl] at hm
  | some list => simp [connections, hl]

theorem consistent_setReady {cm : ConnectionManager} (h : cm.Consistent) (c : Connection) (ready : Bool) :
    (cm.setReady c ready).Consistent where
  mapped := h.mapped
  nodup := h.nodup
  nonempty := h.nonempty
  ready other host ho := (AList.mem_insert _).mpr (Or.inr (h.ready other host ho))

theorem consistent_add {cm : ConnectionManager} (h : cm.Consistent) (host : Str) (c : Connection)
    (ready : Bool) (hnew : cm.connmap.lookup c = none) : (cm.add host c ready).Consistent where
  mapped other d := by
    rw [connections_add]
    by_cases hd : d = c
    · subst d
      have hnot : ∀ host', c ∉ cm.connections host' := by
        intro host' hm
        rw [h.mapped, hnew] at hm
        cases hm
      by_cases ho : other = host
      · simp [ho, add]
      · simp [ho, add, hnot, Ne.symm ho]
    · have hlookup : (cm.add host c ready).connmap.lookup d = cm.connmap.lookup d :=
        AList.lookup_insert_ne hd
      rw [hlookup, ← h.mapped]
      by_cases ho : other = host
      · simp [ho, hd]
      · simp [ho]
  nodup other := by
    rw [connections_add]
    by_cases ho : other = host
    · rw [if_pos ho, List.nodup_append]
      refine ⟨h.nodup host, List.nodup_singleton c, ?_⟩
      intro d hd e he heq
      obtain rfl : e = c := List.mem_singleton.mp he
      rw [heq, h.mapped, hnew] at hd
      cases hd
    · rw [if_neg ho]
      exact h.nodup other
  nonempty other := by
    by_cases ho : other = host
    · subst other
      simp [add]
    · simp only [add, AList.lookup_insert_ne ho]
      exact h.nonempty other
  ready d other hd := by
    rw [add, AList.mem_insert]
    by_cases hdc : d = c
    · exact Or.inl hdc
    · simp only [add, AList.lookup_insert_ne hdc] at hd
      exact Or.inr (h.ready d other hd)

-- What remove leaves of a consistent manager.
def without (c : Connection) (cm : ConnectionManager) : ConnectionManager :=
  match cm.connmap.lookup c with
  | none => cm
  | some host =>
      { cm with connmap := cm.connmap.erase c, readymap := cm.readymap.erase c }.setConnections host
        ((cm.connections host).erase c)

theorem remove_consistent {cm : ConnectionManager} (h : cm.Consistent) (c : Connection) :
    cm.remove c = .done (cm.without c) := by
  unfold remove without
  cases hc : cm.connmap.lookup c with
  | none => rfl
  | some host =>
      obtain ⟨ready, hr⟩ := Option.isSome_iff_exists.mp (AList.lookup_isSome.mpr (h.ready c host hc))
      have hm : c ∈ cm.connections host := (h.mapped host c).mpr hc
      simp only [hr, h.of_connections hc, if_pos hm]

theorem connmap_without (cm : ConnectionManager) (c d : Connection) :
    (cm.without c).connmap.lookup d = if d = c then none else cm.connmap.lookup d := by
  by_cases hd : d = c
  · subst d
    cases hc : cm.connmap.lookup c with
    | none => simp [without, hc]
    | some host => simp [without, hc]
  · cases hc : cm.connmap.lookup c with
    | none => simp [without, hc, hd]
    | some host => simp [without, hc, hd, AList.lookup_erase_ne hd]

theorem readymap_without (cm : ConnectionManager) (c d : Connection) (hd : d ≠ c) :
    (cm.without c).readymap.lookup d = cm.readymap.lookup d := by
  cases hc : cm.connmap.lookup c with
  | none => simp [without, hc]
  | some host => simp [without, hc, AList.lookup_erase_ne hd]

theorem connections_without {cm : ConnectionManager} (h : cm.Consistent) (c : Connection) (host : Str) :
    (cm.without c).connections host = (cm.connections host).erase c := by
  have hother : cm.connmap.lookup c ≠ some host → (cm.connections host).erase c = cm.connections host :=
    fun hne => List.erase_of_not_mem fun hm => hne ((h.mapped host c).mp hm)
  cases hc : cm.connmap.lookup c with
  | none =>
      rw [hother (by simp [hc])]
      simp [without, hc]
  | some own =>
      have hlist : (cm.without c).connections host =
          if host = own then (cm.connections own).erase c else cm.connections host := by
        simp only [without, hc]
        exact connections_setConnections own host _ _
      by_cases ho : host = own
      · rw [hlist, if_pos ho, ho]
      · have hne : cm.connmap.lookup c ≠ some host := by
          rw [hc]
          exact fun heq => ho (Option.some.inj heq).symm
        rw [hlist, if_neg ho, hother hne]

theorem consistent_without {cm : ConnectionManager} (h : cm.Consistent) (c : Connection) :
    (cm.without c).Consistent where
  mapped host d := by
    rw [connections_without h, (h.nodup host).mem_erase_iff, connmap_without, h.mapped]
    by_cases hd : d = c
    · simp [hd]
    · simp [hd]
  nodup host := by
    rw [connections_without h]
    exact (h.nodup host).erase c
  nonempty host := by
    cases hc : cm.connmap.lookup c with
    | none =>
        simp only [without, hc]
        exact h.nonempty host
    | some own =>
        simp only [without, hc, lookup_setConnections]
        split
        · split
          · simp
          · rename_i hne
            exact fun heq => hne (Option.some.inj heq)
        · exact h.nonempty host
  ready d host hd := by
    rw [connmap_without] at hd
    by_cases hdc : d = c
    · simp [hdc] at hd
    · rw [if_neg hdc] at hd
      rw [← AList.lookup_isSome, readymap_without cm c d hdc, AList.lookup_isSome]
      exact h.ready d host hd

-- The first ready connection of a list whose connections all have a ready state.
theorem firstReady_eq (readymap : AList fun _ : Connection => Bool) (list : List Connection)
    (h : ∀ c ∈ list, c ∈ readymap) :
    firstReady readymap list = .ok (list.find? fun c => readymap.lookup c = some true) := by
  induction list with
  | nil => rfl
  | cons c rest ih =>
      obtain ⟨hc, hrest⟩ := List.forall_mem_cons.mp h
      obtain ⟨ready, hr⟩ := Option.isSome_iff_exists.mp (AList.lookup_isSome.mpr hc)
      rw [firstReady, List.find?_cons, hr]
      cases ready with
      | true => simp
      | false => simpa using ih hrest

-- get_ready_conn hands out the first ready connection of the host, and says that it is
-- not ready any more.
theorem getReadyConn_consistent {cm : ConnectionManager} (h : cm.Consistent) (host : Str) :
    cm.getReadyConn host = .ok
      (match (cm.connections host).find? fun c => cm.readymap.lookup c = some true with
        | none => (none, cm)
        | some c => (some c, cm.setReady c false)) := by
  have hready : ∀ c ∈ cm.connections host, c ∈ cm.readymap := by
    intro c hm
    exact h.ready c host ((h.mapped host c).mp hm)
  unfold getReadyConn
  cases hl : cm.hostmap.lookup host with
  | none => simp [connections, hl]
  | some list =>
      have hlist : cm.connections host = list := by simp [connections, hl]
      rw [hlist] at hready ⊢
      simp only [firstReady_eq cm.readymap list hready]
      cases list.find? fun c => cm.readymap.lookup c = some true with
      | none => rfl
      | some c => rfl

end MesosPoc.KeepAlive.ConnectionManager
