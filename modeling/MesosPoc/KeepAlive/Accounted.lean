import MesosPoc.KeepAlive.Exclusive

namespace MesosPoc.KeepAlive.Handler

-- A run in which nobody closes connections but do_open itself.
def Quiet : Label → Prop
  | .remove _ => False
  | .close _ => False
  | _ => True

instance decidableQuiet (label : Label) : Decidable (Quiet label) := by
  cases label <;> unfold Quiet <;> infer_instance

-- A connection that is listed, not ready, and used by nobody who could make it ready.
def Stranded (s : Handler) (c : Connection) : Prop :=
  (∃ host, s.cm.connmap.lookup c = some host) ∧ s.cm.readymap.lookup c = some false ∧ s.uses c = 0

theorem uses_pos_of_call {s : Handler} {phase : Phase} {c : Connection} (hm : phase ∈ s.calls)
    (hh : phase.held = some c) : 0 < s.uses c := by
  have hpos : 0 < s.calls.countP fun phase => phase.held = some c :=
    List.countP_pos_iff.mpr ⟨phase, hm, by simpa using hh⟩
  simp only [uses]
  omega

theorem uses_pos_of_response {s : Handler} {r : Response} {c : Connection} (hm : r ∈ s.responses)
    (hh : r.held = some c) : 0 < s.uses c := by
  have hpos : 0 < s.responses.countP fun r => r.held = some c :=
    List.countP_pos_iff.mpr ⟨r, hm, by simpa using hh⟩
  simp only [uses]
  omega

theorem call_ne_response {s : Handler} (hs : s.Safe) {phase : Phase} {r : Response} {c : Connection}
    (hm : phase ∈ s.calls) (hh : phase.held = some c) (hr : r ∈ s.responses) : r.held ≠ some c := by
  intro hrh
  have hcalls : 0 < s.calls.countP fun phase => phase.held = some c :=
    List.countP_pos_iff.mpr ⟨phase, hm, by simpa using hh⟩
  have hresponses : 0 < s.responses.countP fun r => r.held = some c :=
    List.countP_pos_iff.mpr ⟨r, hr, by simpa using hrh⟩
  have hone := hs.exclusive c
  simp only [uses] at hone
  omega

-- The connection of a call is not read from by a response.
theorem any_readFrom_of_call {s : Handler} (hs : s.Safe) {phase : Phase} {c : Connection}
    (hm : phase ∈ s.calls) (hh : phase.held = some c) : s.responses.any (Response.readFrom c) = false := by
  by_contra hany
  rw [Bool.not_eq_false, List.any_eq_true] at hany
  obtain ⟨r, hr, hread⟩ := hany
  exact call_ne_response hs hm hh hr (Response.held_of_readFrom hread)

-- Two calls do not have the same connection.
theorem call_unique {s : Handler} (hs : s.Safe) {phase other : Phase} {c : Connection} (hp : phase ∈ s.calls)
    (ho : other ∈ s.calls) (hph : phase.held = some c) (hoh : other.held = some c) : phase = other := by
  by_contra hne
  have hperm := (List.perm_cons_erase hp).countP_eq fun phase => decide (phase.held = some c)
  have hrest : 0 < (s.calls.erase phase).countP fun phase => phase.held = some c := by
    apply List.countP_pos_iff.mpr
    exact ⟨other, (List.mem_erase_of_ne (Ne.symm hne)).mpr ho, by simpa using hoh⟩
  rw [List.countP_cons_of_pos (by simpa using hph)] at hperm
  have hone := hs.exclusive c
  simp only [uses] at hone
  omega

-- The connection that do_open gives up has no response that closing it would end.
theorem closeConnection_eq_self {s : Handler} (hs : s.Safe) {phase : Phase} {c : Connection}
    (hm : phase ∈ s.calls) (hh : phase.held = some c)
    (hphase : ∀ host willClose reading, phase ≠ .answered host c willClose reading) :
    s.closeConnection c = s := by
  have hcalls : s.calls.map (Phase.closedBy c) = s.calls := by
    refine (List.map_congr_left ?_).trans (List.map_id _)
    intro other ho
    cases other with
    | answered host h willClose reading =>
        cases willClose with
        | true => rfl
        | false =>
            have hne : h ≠ c := by
              rintro rfl
              exact hphase host false reading (call_unique hs hm ho hh rfl)
            simp [Phase.closedBy, hne]
    | _ => rfl
  have hread := any_readFrom_of_call hs hm hh
  have hresponses : s.responses.map (Response.closedBy c) = s.responses := by
    refine (List.map_congr_left ?_).trans (List.map_id _)
    intro r hr
    have hno := List.any_eq_false.mp hread r hr
    rw [Response.closedBy, if_neg hno]
    rfl
  simp only [closeConnection, hread, Bool.false_eq_true, if_false, hcalls, hresponses]

theorem cm_removeConnection {s : Handler} (hs : s.Safe) (c : Connection) :
    (s.removeConnection c).cm = s.cm.without c := by
  simp [removeConnection, ConnectionManager.remove_consistent hs.manager]

-- What a run keeps true of the connections that are not ready.
structure Accounted (s : Handler) : Prop where
  unused : ∀ c host, s.cm.connmap.lookup c = some host → s.uses c = 0 →
    s.cm.readymap.lookup c = some true ∨ Phase.failed (some c) ∈ s.calls
  failed : ∀ c, Phase.failed (some c) ∈ s.calls → s.Stranded c
  starting : ∀ host c, Phase.starting host c ∈ s.calls →
    s.cm.connmap.lookup c = some host ∧ s.cm.readymap.lookup c = some false
  answered : ∀ host c willClose reading, Phase.answered host c willClose reading ∈ s.calls → reading = true
  aborted : ∀ c, Phase.aborted c ∈ s.calls → s.cm.connmap.lookup c = none

theorem accounted_empty : empty.Accounted := by
  constructor <;> simp [empty, ConnectionManager.empty]

theorem mem_setCall {s : Handler} {call : Nat} {phase other : Phase} (hcall : s.calls[call]? = some phase)
    (hm : other ∈ s.calls) (hne : phase ≠ other) (next : Phase) : other ∈ (s.setCall call next).calls := by
  obtain ⟨j, hj⟩ := List.mem_iff_getElem?.mp hm
  have hij : call ≠ j := by
    rintro rfl
    exact hne (Option.some.inj (hcall.symm.trans hj))
  refine List.mem_iff_getElem?.mpr ⟨j, ?_⟩
  rw [setCall, List.getElem?_set_ne hij]
  exact hj

-- A call goes on with its connection, or lets go of it when it is not listed any more or
-- its first transaction has failed.
theorem accounted_setCall {s : Handler} (ha : s.Accounted) (hs : s.Safe) {call : Nat} {phase next : Phase}
    (hcall : s.calls[call]? = some phase) (hactive : ∀ c, phase ≠ .failed c)
    (hheld : next.held = none ∨ next.held = phase.held)
    (hrelease : ∀ c, phase.held = some c →
      next.held = some c ∨ s.cm.connmap.lookup c = none ∨ next = .failed (some c))
    (hfailed : ∀ c, next = .failed (some c) → ∃ host, phase = .starting host c)
    (hstarting : ∀ host c, next ≠ .starting host c)
    (hanswered : ∀ host c willClose reading, next = .answered host c willClose reading → reading = true)
    (haborted : ∀ c, next = .aborted c → s.cm.connmap.lookup c = none) : (s.setCall call next).Accounted := by
  have hi : call < s.calls.length := (List.getElem?_eq_some_iff.mp hcall).1
  have hold : ∀ {other : Phase}, other ∈ (s.setCall call next).calls → other ∈ s.calls ∨ other = next :=
    fun hm => List.mem_or_eq_of_mem_set hm
  have hle := uses_setCall_le hcall hheld
  constructor
  · intro c host hc hzero
    by_cases hpc : phase.held = some c
    · rcases hrelease c hpc with hnext | hnone | heq
      · have hpos : 0 < (s.setCall call next).uses c :=
          uses_pos_of_call (List.mem_set hi next) hnext
        omega
      · have hc' : s.cm.connmap.lookup c = some host := hc
        rw [hnone] at hc'
        cases hc'
      · exact Or.inr (heq ▸ List.mem_set hi next)
    · have huses := uses_setCall hcall next c
      rw [if_neg hpc] at huses
      rcases ha.unused c host hc (by omega) with hready | hm
      · exact Or.inl hready
      · exact Or.inr (mem_setCall hcall hm (hactive (some c)) next)
  · intro c hm
    rcases hold hm with hm | heq
    · obtain ⟨hmap, hready, hzero⟩ := ha.failed c hm
      exact ⟨hmap, hready, Nat.le_zero.mp (hzero ▸ hle c)⟩
    · subst next
      obtain ⟨host, rfl⟩ := hfailed c rfl
      obtain ⟨hmap, hready⟩ := ha.starting host c (List.mem_of_getElem? hcall)
      have huses := uses_setCall hcall (.failed (some c)) c
      have hone := hs.exclusive c
      simp only [Phase.held, if_true, reduceCtorEq, if_false] at huses
      exact ⟨⟨host, hmap⟩, hready, by omega⟩
  · intro host c hm
    rcases hold hm with hm | heq
    · exact ha.starting host c hm
    · exact absurd heq.symm (hstarting host c)
  · intro host c willClose reading hm
    rcases hold hm with hm | heq
    · exact ha.answered host c willClose reading hm
    · exact hanswered host c willClose reading heq.symm
  · intro c hm
    rcases hold hm with hm | heq
    · exact ha.aborted c hm
    · exact haborted c heq.symm

theorem accounted_removeConnection {s : Handler} (ha : s.Accounted) (hs : s.Safe) {phase : Phase} {c : Connection}
    (hm : phase ∈ s.calls) (hh : phase.held = some c) (hphase : ∀ host, phase ≠ .starting host c) :
    (s.removeConnection c).Accounted := by
  have hcm := cm_removeConnection hs c
  have hpos := uses_pos_of_call hm hh
  have hkept : ∀ d host, d ≠ c → s.cm.connmap.lookup d = some host →
      (s.cm.without c).connmap.lookup d = some host := by
    intro d host hd hl
    rw [ConnectionManager.connmap_without, if_neg hd, hl]
  constructor
  · intro d host hd hzero
    rw [hcm, ConnectionManager.connmap_without] at hd
    obtain ⟨hdc, hd⟩ := Option.ite_none_left_eq_some.mp hd
    rw [hcm, ConnectionManager.readymap_without _ _ _ hdc]
    exact ha.unused d host hd hzero
  · intro d hd
    obtain ⟨⟨host, hmap⟩, hready, hzero⟩ := ha.failed d hd
    have hdc : d ≠ c := by
      rintro rfl
      omega
    refine ⟨⟨host, ?_⟩, ?_, hzero⟩
    · rw [hcm]
      exact hkept d host hdc hmap
    · rw [hcm, ConnectionManager.readymap_without _ _ _ hdc, hready]
  · intro host d hd
    obtain ⟨hmap, hready⟩ := ha.starting host d hd
    have hdc : d ≠ c := by
      rintro rfl
      exact hphase host (call_unique hs hm hd hh rfl)
    rw [hcm, ConnectionManager.readymap_without _ _ _ hdc]
    exact ⟨hkept d host hdc hmap, hready⟩
  · exact ha.answered
  · intro d hd
    rw [hcm, ConnectionManager.connmap_without]
    split
    · rfl
    · exact ha.aborted d hd

theorem accounted_found {s : Handler} (ha : s.Accounted) (hs : s.Safe) {call : Nat} {host : Str} {h : Connection}
    {cm : ConnectionManager} (hcall : s.calls[call]? = some (.asking host))
    (hget : s.cm.getReadyConn host = .ok (some h, cm)) :
    ({ s with cm := cm }.setCall call (.trying host h)).Accounted := by
  obtain ⟨-, hready, rfl⟩ := found_of_getReadyConn hs hget
  have huses := uses_found hcall (s.cm.setReady h false) h
  have hold : ∀ {other : Phase}, other ∈ ({ s with cm := s.cm.setReady h false }.setCall call (.trying host h)).calls →
      other ∈ s.calls ∨ other = .trying host h := fun hm => List.mem_or_eq_of_mem_set hm
  have hlookup : ∀ c, c ≠ h → (s.cm.setReady h false).readymap.lookup c = s.cm.readymap.lookup c :=
    fun c hc => AList.lookup_insert_ne hc
  have hother : ∀ c, s.cm.readymap.lookup c = some false → c ≠ h := by
    rintro c hc rfl
    rw [hready] at hc
    cases hc
  constructor
  · intro c other hc hzero
    rw [huses] at hzero
    by_cases heq : h = c
    · rw [if_pos heq] at hzero
      omega
    · rw [if_neg heq] at hzero
      rcases ha.unused c other hc hzero with hr | hm
      · exact Or.inl ((hlookup c (Ne.symm heq)).trans hr)
      · exact Or.inr (mem_setCall hcall hm (by simp) _)
  · intro c hm
    rcases hold hm with hm | heq
    · obtain ⟨hmap, hr, hzero⟩ := ha.failed c hm
      have hne := hother c hr
      refine ⟨hmap, (hlookup c hne).trans hr, ?_⟩
      rw [huses, hzero, if_neg (Ne.symm hne)]
    · cases heq
  · intro other c hm
    rcases hold hm with hm | heq
    · obtain ⟨hmap, hr⟩ := ha.starting other c hm
      exact ⟨hmap, (hlookup c (hother c hr)).trans hr⟩
    · cases heq
  · intro other c willClose reading hm
    rcases hold hm with hm | heq
    · exact ha.answered other c willClose reading hm
    · cases heq
  · intro c hm
    rcases hold hm with hm | heq
    · exact ha.aborted c hm
    · cases heq

theorem accounted_created {s : Handler} (ha : s.Accounted) (hs : s.Safe) {call : Nat} {host : Str}
    (hcall : s.calls[call]? = some (.creating host)) :
    ((s.addConnection host).setCall call (.starting host s.connections.length)).Accounted := by
  have huses := uses_created hcall
  have hnew := connmap_new hs
  have hold : ∀ {other : Phase},
      other ∈ ((s.addConnection host).setCall call (.starting host s.connections.length)).calls →
      other ∈ s.calls ∨ other = .starting host s.connections.length := fun hm => List.mem_or_eq_of_mem_set hm
  have hother : ∀ c other, s.cm.connmap.lookup c = some other → c ≠ s.connections.length := by
    rintro c other hc rfl
    rw [hnew] at hc
    cases hc
  have hmapped : ∀ c, c ≠ s.connections.length →
      (s.addConnection host).cm.connmap.lookup c = s.cm.connmap.lookup c := fun c hc => AList.lookup_insert_ne hc
  have hready : ∀ c, c ≠ s.connections.length →
      (s.addConnection host).cm.readymap.lookup c = s.cm.readymap.lookup c := fun c hc => AList.lookup_insert_ne hc
  constructor
  · intro c other hc hzero
    rw [huses] at hzero
    by_cases heq : s.connections.length = c
    · rw [if_pos heq] at hzero
      omega
    · rw [if_neg heq] at hzero
      have hne := Ne.symm heq
      rcases ha.unused c other ((hmapped c hne).symm.trans hc) hzero with hr | hm
      · exact Or.inl ((hready c hne).trans hr)
      · have hcall' : (s.addConnection host).calls[call]? = some (.creating host) := hcall
        exact Or.inr (mem_setCall hcall' hm (by simp) _)
  · intro c hm
    rcases hold hm with hm | heq
    · obtain ⟨⟨other, hmap⟩, hr, hzero⟩ := ha.failed c hm
      have hne := hother c other hmap
      refine ⟨⟨other, (hmapped c hne).trans hmap⟩, (hready c hne).trans hr, ?_⟩
      rw [huses, hzero, if_neg (Ne.symm hne)]
    · cases heq
  · intro other c hm
    rcases hold hm with hm | heq
    · obtain ⟨hmap, hr⟩ := ha.starting other c hm
      have hne := hother c other hmap
      exact ⟨(hmapped c hne).trans hmap, (hready c hne).trans hr⟩
    · obtain ⟨rfl, rfl⟩ := Phase.starting.inj heq
      exact ⟨AList.lookup_insert _, AList.lookup_insert _⟩
  · intro other c willClose reading hm
    rcases hold hm with hm | heq
    · exact ha.answered other c willClose reading hm
    · cases heq
  · intro c hm
    rcases hold hm with hm | heq
    · have hne : c ≠ s.connections.length := by
        rintro rfl
        have hpos := uses_pos_of_call hm rfl
        rw [uses_new hs] at hpos
        omega
      exact (hmapped c hne).trans (ha.aborted c hm)
    · cases heq

-- Reading a response to its end gives its connection back.
theorem accounted_finished {s : Handler} (ha : s.Accounted) (hs : s.Safe) {response : Nat} {r : Response}
    (hr : s.responses[response]? = some r) (hreading : r.reading = true) :
    ((s.endResponse response r).requestClosed r.connection).Accounted := by
  have hheld : r.held = some r.connection := by simp [Response.held, hreading]
  have huses := uses_endResponse hr
  have hpos := uses_pos_of_response (List.mem_of_getElem? hr) hheld
  have hlookup : ∀ c, c ≠ r.connection →
      (s.cm.setReady r.connection true).readymap.lookup c = s.cm.readymap.lookup c :=
    fun c hc => AList.lookup_insert_ne hc
  constructor
  · intro c host hc hzero
    by_cases heq : c = r.connection
    · rw [heq]
      exact Or.inl (AList.lookup_insert _)
    · have hsame := huses c
      rw [hheld, if_neg fun h => heq (Option.some.inj h).symm] at hsame
      rcases ha.unused c host hc (hsame.symm.trans hzero) with hready | hm
      · exact Or.inl ((hlookup c heq).trans hready)
      · exact Or.inr hm
  · intro c hm
    obtain ⟨hmap, hready, hzero⟩ := ha.failed c hm
    have hne : c ≠ r.connection := by
      rintro rfl
      omega
    have hle := huses c
    exact ⟨hmap, (hlookup c hne).trans hready, by simp only [uses_requestClosed]; omega⟩
  · intro host c hm
    obtain ⟨hmap, hready⟩ := ha.starting host c hm
    have hne : c ≠ r.connection := by
      rintro rfl
      exact call_ne_response hs hm rfl (List.mem_of_getElem? hr) hheld
    exact ⟨hmap, (hlookup c hne).trans hready⟩
  · exact ha.answered
  · exact ha.aborted

theorem uses_returned {s : Handler} {call : Nat} {host : Str} {h : Connection} {willClose : Bool}
    (hcall : s.calls[call]? = some (.answered host h willClose true)) (c : Connection) :
    ((s.respond ⟨host, h, willClose, true⟩).setCall call .returned).uses c = s.uses c := by
  have hcall' : (s.respond ⟨host, h, willClose, true⟩).calls[call]? = some (.answered host h willClose true) :=
    hcall
  have huses := uses_setCall hcall' .returned c
  simp only [uses_respond, Response.held, Phase.held, if_true, reduceCtorEq, if_false, Nat.add_zero] at huses
  exact Nat.add_right_cancel huses

theorem accounted_returned {s : Handler} (ha : s.Accounted) {call : Nat} {host : Str} {h : Connection}
    {willClose : Bool} (hcall : s.calls[call]? = some (.answered host h willClose true)) :
    ((s.respond ⟨host, h, willClose, true⟩).setCall call .returned).Accounted := by
  have huses := uses_returned hcall
  have hold : ∀ {other : Phase},
      other ∈ ((s.respond ⟨host, h, willClose, true⟩).setCall call .returned).calls →
      other ∈ s.calls ∨ other = .returned := fun hm => List.mem_or_eq_of_mem_set hm
  constructor
  · intro c other hc hzero
    rw [huses] at hzero
    rcases ha.unused c other hc hzero with hready | hm
    · exact Or.inl hready
    · have hcall' : (s.respond ⟨host, h, willClose, true⟩).calls[call]? =
          some (.answered host h willClose true) := hcall
      exact Or.inr (mem_setCall hcall' hm (by simp) _)
  · intro c hm
    rcases hold hm with hm | heq
    · obtain ⟨hmap, hready, hzero⟩ := ha.failed c hm
      exact ⟨hmap, hready, (huses c).trans hzero⟩
    · cases heq
  · intro other c hm
    rcases hold hm with hm | heq
    · exact ha.starting other c hm
    · cases heq
  · intro other c closing reading hm
    rcases hold hm with hm | heq
    · exact ha.answered other c closing reading hm
    · cases heq
  · intro c hm
    rcases hold hm with hm | heq
    · exact ha.aborted c hm
    · cases heq

theorem accounted_requested {s : Handler} (ha : s.Accounted) {phase : Phase} (hheld : phase.held = none)
    (hfailed : ∀ c, phase ≠ .failed (some c)) : ({ s with calls := s.calls ++ [phase] } : Handler).Accounted := by
  have huses : ∀ c, ({ s with calls := s.calls ++ [phase] } : Handler).uses c = s.uses c := by
    intro c
    simp [uses, hheld]
  have hold : ∀ {other : Phase}, other ∈ s.calls ++ [phase] → other ∈ s.calls ∨ other = phase := by
    intro other hm
    exact (List.mem_append.mp hm).imp_right List.mem_singleton.mp
  constructor
  · intro c host hc hzero
    rw [huses] at hzero
    exact (ha.unused c host hc hzero).imp_right (List.mem_append_left _)
  · intro c hm
    rcases hold hm with hm | heq
    · obtain ⟨hmap, hready, hzero⟩ := ha.failed c hm
      exact ⟨hmap, hready, (huses c).trans hzero⟩
    · exact absurd heq.symm (hfailed c)
  · intro host c hm
    rcases hold hm with hm | rfl
    · exact ha.starting host c hm
    · cases hheld
  · intro host c willClose reading hm
    rcases hold hm with hm | rfl
    · exact ha.answered host c willClose reading hm
    · cases hheld
  · intro c hm
    rcases hold hm with hm | rfl
    · exact ha.aborted c hm
    · cases hheld

theorem accounted_step {s t : Handler} {label : Label} (ha : s.Accounted) (hs : s.Safe) (hq : Quiet label)
    (hstep : s.step label = some t) : t.Accounted := by
  cases moves_of_step hstep with
  | requested host =>
      by_cases hhost : host = []
      · rw [if_pos hhost]
        exact accounted_requested ha rfl (by simp)
      · rw [if_neg hhost]
        exact accounted_requested ha rfl (by simp)
  | refused call host e hcall hget =>
      apply accounted_setCall ha hs hcall <;> simp [Phase.held]
  | missed call host cm hcall hget =>
      apply accounted_setCall ha hs hcall <;> simp [Phase.held]
  | found call host h cm hcall hget => exact accounted_found ha hs hcall hget
  | reused call host h willClose hcall =>
      apply accounted_setCall ha hs hcall <;> simp [Phase.held]
  | spoiled call host h hcall =>
      apply accounted_setCall ha hs hcall <;> simp [Phase.held]
  | surprised call host h hcall =>
      apply accounted_setCall ha hs hcall <;> simp [Phase.held]
  | created call host hcall => exact accounted_created ha hs hcall
  | started call host h willClose hcall =>
      apply accounted_setCall ha hs hcall <;> simp [Phase.held]
  | failed call host h hcall =>
      apply accounted_setCall ha hs hcall <;> simp [Phase.held]
  | closed call host h hcall =>
      rw [closeConnection_eq_self hs (List.mem_of_getElem? hcall) rfl (by simp)]
      apply accounted_setCall ha hs hcall <;> simp [Phase.held]
  | discarded call host h hcall =>
      have hgone := accounted_removeConnection ha hs (List.mem_of_getElem? hcall) rfl (by simp)
      have hnone : (s.removeConnection h).cm.connmap.lookup h = none := by
        rw [cm_removeConnection hs, ConnectionManager.connmap_without, if_pos rfl]
      have hcall' : (s.removeConnection h).calls[call]? = some (.closed host h) := hcall
      apply accounted_setCall hgone (safe_removeConnection hs h) hcall' <;> simp [Phase.held, hnone]
  | aborted call h hcall =>
      have hgone := accounted_removeConnection ha hs (List.mem_of_getElem? hcall) rfl (by simp)
      have hnone : (s.removeConnection h).cm.connmap.lookup h = none := by
        rw [cm_removeConnection hs, ConnectionManager.connmap_without, if_pos rfl]
      have hcall' : (s.removeConnection h).calls[call]? = some (.aborting h) := hcall
      apply accounted_setCall hgone (safe_removeConnection hs h) hcall' <;> simp [Phase.held, hnone]
  | reraised call h hcall =>
      have hnone := ha.aborted h (List.mem_of_getElem? hcall)
      rw [closeConnection_eq_self hs (List.mem_of_getElem? hcall) rfl (by simp)]
      apply accounted_setCall ha hs hcall <;> simp [Phase.held, hnone]
  | returned call host h willClose reading hcall =>
      obtain rfl := ha.answered host h willClose reading (List.mem_of_getElem? hcall)
      cases willClose with
      | true =>
          have hgone := accounted_removeConnection ha hs (List.mem_of_getElem? hcall) rfl (by simp)
          exact accounted_returned hgone hcall
      | false => exact accounted_returned ha hcall
  | finished response r hresponse hreading => exact accounted_finished ha hs hresponse hreading
  | finishedAgain response => exact ha
  | removed c => exact hq.elim
  | cut c => exact hq.elim

theorem accounted_run (labels : List Label) {s t : Handler} (ha : s.Accounted) (hs : s.Safe)
    (hq : ∀ label ∈ labels, Quiet label) (hrun : Machine.run step s labels = some t) : t.Accounted := by
  induction labels generalizing s with
  | nil =>
      obtain rfl : s = t := Option.some.inj hrun
      exact ha
  | cons label rest ih =>
      obtain ⟨next, hstep, hrun⟩ := Option.bind_eq_some_iff.mp hrun
      obtain ⟨hlabel, hrest⟩ := List.forall_mem_cons.mp hq
      exact ih (accounted_step ha hs hlabel hstep) (safe_step hs hstep) hrest hrun

end MesosPoc.KeepAlive.Handler
