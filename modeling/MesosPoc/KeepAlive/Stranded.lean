import MesosPoc.KeepAlive.Accounted

namespace MesosPoc.KeepAlive.Handler

theorem Stranded.of_same {s t : Handler} {c : Connection} (hc : s.Stranded c)
    (hmap : t.cm.connmap.lookup c = s.cm.connmap.lookup c)
    (hready : t.cm.readymap.lookup c = s.cm.readymap.lookup c) (huses : t.uses c ≤ s.uses c) : t.Stranded c := by
  obtain ⟨⟨host, hlookup⟩, hfalse, hzero⟩ := hc
  exact ⟨⟨host, hmap.trans hlookup⟩, hready.trans hfalse, Nat.le_zero.mp (hzero ▸ huses)⟩

theorem stranded_setCall {s : Handler} {c : Connection} (hc : s.Stranded c) {call : Nat} {phase next : Phase}
    (hcall : s.calls[call]? = some phase) (hheld : next.held = none ∨ next.held = phase.held) :
    (s.setCall call next).Stranded c :=
  hc.of_same rfl rfl (uses_setCall_le hcall hheld c)

theorem Stranded.ne_of_call {s : Handler} {c d : Connection} (hc : s.Stranded c) {call : Nat} {phase : Phase}
    (hcall : s.calls[call]? = some phase) (hh : phase.held = some d) : c ≠ d := by
  rintro rfl
  have hpos := uses_pos_of_call (List.mem_of_getElem? hcall) hh
  rw [hc.2.2] at hpos
  omega

theorem stranded_removeConnection {s : Handler} (hs : s.Safe) {c d : Connection} (hc : s.Stranded c)
    (hne : c ≠ d) : (s.removeConnection d).Stranded c := by
  apply hc.of_same
  · rw [cm_removeConnection hs, ConnectionManager.connmap_without, if_neg hne]
  · rw [cm_removeConnection hs, ConnectionManager.readymap_without _ _ _ hne]
  · exact le_rfl

theorem stranded_closeConnection {s : Handler} {c : Connection} (hc : s.Stranded c) (d : Connection) :
    (s.closeConnection d).Stranded c := by
  cases hread : s.responses.any (Response.readFrom d) with
  | false =>
      have hcm : (s.closeConnection d).cm = s.cm := by simp [closeConnection, hread]
      exact hc.of_same (by rw [hcm]) (by rw [hcm]) (uses_closeConnection_le s d c)
  | true =>
      have hcm : (s.closeConnection d).cm = s.cm.setReady d true := by
        simp [closeConnection, hread, requestClosed]
      obtain ⟨r, hm, hr⟩ := List.any_eq_true.mp hread
      have hne : c ≠ d := by
        rintro rfl
        have hpos := uses_pos_of_response hm (Response.held_of_readFrom hr)
        rw [hc.2.2] at hpos
        omega
      refine hc.of_same (by rw [hcm]; rfl) ?_ (uses_closeConnection_le s d c)
      rw [hcm]
      exact AList.lookup_insert_ne hne

-- Only remove takes a stranded connection from the lists, and nothing makes it ready.
theorem stranded_step {s t : Handler} {label : Label} {c : Connection} (hs : s.Safe) (hc : s.Stranded c)
    (hlabel : label ≠ .remove c) (hstep : s.step label = some t) : t.Stranded c := by
  cases moves_of_step hstep with
  | requested host =>
      have hheld : (if host = [] then Phase.failed none else .asking host).held = none := by
        split <;> rfl
      exact hc.of_same rfl rfl (by simp [uses, hheld])
  | refused call host e hcall hget => exact stranded_setCall hc hcall (Or.inl rfl)
  | missed call host cm hcall hget => exact stranded_setCall hc hcall (Or.inl rfl)
  | found call host h cm hcall hget =>
      obtain ⟨-, hready, rfl⟩ := found_of_getReadyConn hs hget
      have hne : c ≠ h := by
        rintro rfl
        rw [hc.2.1] at hready
        cases hready
      refine hc.of_same rfl (AList.lookup_insert_ne hne) ?_
      rw [uses_found hcall, if_neg (Ne.symm hne)]
      exact le_rfl
  | reused call host h willClose hcall => exact stranded_setCall hc hcall (Or.inr rfl)
  | spoiled call host h hcall => exact stranded_setCall hc hcall (Or.inr rfl)
  | surprised call host h hcall => exact stranded_setCall hc hcall (Or.inr rfl)
  | created call host hcall =>
      have hne : c ≠ s.connections.length := by
        rintro rfl
        obtain ⟨⟨other, hmap⟩, -⟩ := hc
        rw [connmap_new hs] at hmap
        cases hmap
      refine hc.of_same (AList.lookup_insert_ne hne) (AList.lookup_insert_ne hne) ?_
      rw [uses_created hcall, if_neg (Ne.symm hne)]
      exact le_rfl
  | started call host h willClose hcall => exact stranded_setCall hc hcall (Or.inr rfl)
  | failed call host h hcall => exact stranded_setCall hc hcall (Or.inl rfl)
  | closed call host h hcall =>
      exact stranded_setCall (stranded_closeConnection hc h) (calls_closeConnection hcall h) (Or.inr rfl)
  | discarded call host h hcall =>
      have hgone := stranded_removeConnection hs hc (hc.ne_of_call hcall rfl)
      exact stranded_setCall hgone hcall (Or.inl rfl)
  | aborted call h hcall =>
      have hgone := stranded_removeConnection hs hc (hc.ne_of_call hcall rfl)
      exact stranded_setCall hgone hcall (Or.inr rfl)
  | reraised call h hcall =>
      exact stranded_setCall (stranded_closeConnection hc h) (calls_closeConnection hcall h) (Or.inl rfl)
  | returned call host h willClose reading hcall =>
      have hlast : ∀ kept : Handler, kept.Stranded c → kept.calls[call]? = s.calls[call]? →
          ((kept.respond ⟨host, h, willClose, reading⟩).setCall call .returned).Stranded c := by
        intro kept hkept hsame
        have hne := hc.ne_of_call hcall rfl
        have hcall' : (kept.respond ⟨host, h, willClose, reading⟩).calls[call]? =
            some (.answered host h willClose reading) := hsame.trans hcall
        have hheld : Response.held ⟨host, h, willClose, reading⟩ ≠ some c := by
          simp only [Response.held]
          split
          · exact fun heq => hne (Option.some.inj heq).symm
          · simp
        have huses : (kept.respond ⟨host, h, willClose, reading⟩).uses c ≤ kept.uses c := by
          rw [uses_respond, if_neg hheld]
          exact le_rfl
        have hresponded : (kept.respond ⟨host, h, willClose, reading⟩).Stranded c := hkept.of_same rfl rfl huses
        exact stranded_setCall hresponded hcall' (Or.inl rfl)
      cases willClose with
      | true => exact hlast _ (stranded_removeConnection hs hc (hc.ne_of_call hcall rfl)) rfl
      | false => exact hlast s hc rfl
  | finished response r hresponse hreading =>
      have hne : c ≠ r.connection := by
        rintro rfl
        have hpos := uses_pos_of_response (List.mem_of_getElem? hresponse)
          (show r.held = some r.connection by simp [Response.held, hreading])
        rw [hc.2.2] at hpos
        omega
      refine hc.of_same rfl (AList.lookup_insert_ne hne) ?_
      have huses := uses_endResponse hresponse c
      simp only [uses_requestClosed]
      omega
  | finishedAgain response => exact hc
  | removed d =>
      apply stranded_removeConnection hs hc
      rintro rfl
      exact hlabel rfl
  | cut d => exact stranded_closeConnection hc d

theorem stranded_run (labels : List Label) {s t : Handler} {c : Connection} (hc : s.Stranded c) (hs : s.Safe)
    (hno : Label.remove c ∉ labels) (hrun : Machine.run step s labels = some t) : t.Stranded c := by
  induction labels generalizing s with
  | nil =>
      obtain rfl : s = t := Option.some.inj hrun
      exact hc
  | cons label rest ih =>
      obtain ⟨next, hstep, hrun⟩ := Option.bind_eq_some_iff.mp hrun
      rw [List.mem_cons, not_or] at hno
      exact ih (stranded_step hs hc (Ne.symm hno.1) hstep) (safe_step hs hstep) hno.2 hrun

-- While nobody else closes connections, the connections that are listed but lost are
-- exactly those whose first transaction failed, and only remove takes one away again.
theorem stranded_iff_failed (labels : List Label) (s : Handler) (hq : ∀ label ∈ labels, Quiet label)
    (hrun : Machine.run step empty labels = some s) (c : Connection) :
    (s.Stranded c ↔ Phase.failed (some c) ∈ s.calls) ∧
      ∀ more t, Label.remove c ∉ more → Machine.run step s more = some t → s.Stranded c → t.Stranded c := by
  have hs := safe_run labels safe_empty hrun
  have ha := accounted_run labels accounted_empty safe_empty hq hrun
  refine ⟨⟨?_, ha.failed c⟩, fun more t hno hmore hc => stranded_run more hc hs hno hmore⟩
  rintro ⟨⟨host, hmap⟩, hready, hzero⟩
  rcases ha.unused c host hmap hzero with htrue | hfailed
  · rw [hready] at htrue
    cases htrue
  · exact hfailed

-- A server that refuses the first connection and answers on the second.
def refusedOnce : List Label :=
  [.request "api".toList, .ask 0, .create 0, .start 0 none, .request "api".toList, .ask 1, .create 1,
    .start 1 (some false), .proceed 1, .finish 0]

theorem refusedOnce_stranded :
    ∃ s, Machine.run step empty refusedOnce = some s ∧ s.cm.openConnections = [("api".toList, 2)] ∧
      (s.Stranded 0 ↔ Phase.failed (some 0) ∈ s.calls) ∧
      ∀ more t, Label.remove 0 ∉ more → Machine.run step s more = some t → s.Stranded 0 → t.Stranded 0 :=
  ⟨_, rfl, by decide, stranded_iff_failed refusedOnce _ (by decide) rfl 0⟩

end MesosPoc.KeepAlive.Handler
