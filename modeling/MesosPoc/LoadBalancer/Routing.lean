import MesosPoc.LoadBalancer.Template
import MesosPoc.FirstMatch

namespace MesosPoc.LoadBalancer

open FirstMatch

theorem IsDnsLabel.slash_notMem {name : Str} (h : IsDnsLabel name) : '/' ∉ name := by
  intro hm
  have hc := h.2.2.1 '/' hm
  revert hc
  decide

-- A name without a slash starts a path exactly when it starts its first segment.
theorem aclPattern_prefix_iff (name rest : Str) (hn : '/' ∉ name) :
    aclPattern name <+: '/' :: rest ↔ name <+: rest.takeWhile (· != '/') := by
  rw [aclPattern, List.cons_prefix_cons]
  simp only [true_and]
  constructor
  · rintro ⟨more, rfl⟩
    rw [List.takeWhile_append_of_pos]
    · exact List.prefix_append name _
    · intro c hc
      have hne : c ≠ '/' := by rintro rfl; exact hn hc
      simpa using hne
  · intro h
    exact h.trans (List.takeWhile_prefix _)

theorem aclPattern_isPrefixOf_false (name path : Str) (h : firstSegment path = none) :
    (aclPattern name).isPrefixOf path = false := by
  cases path with
  | nil => rfl
  | cons c rest =>
      have hc : c ≠ '/' := by
        rintro rfl
        simp [firstSegment] at h
      simp only [aclPattern, List.isPrefixOf_cons_cons, Bool.and_eq_false_iff, beq_eq_false_iff_ne]
      exact Or.inl (Ne.symm hc)

theorem aclPattern_isPrefixOf (name path segment : Str) (hn : '/' ∉ name)
    (hs : firstSegment path = some segment) :
    (aclPattern name).isPrefixOf path = name.isPrefixOf segment := by
  cases path with
  | nil => simp [firstSegment] at hs
  | cons c rest =>
      by_cases hc : c = '/'
      · subst c
        obtain rfl : rest.takeWhile (· != '/') = segment := by simpa [firstSegment] using hs
        rw [Bool.eq_iff_iff, List.isPrefixOf_iff_prefix, List.isPrefixOf_iff_prefix]
        exact aclPattern_prefix_iff name rest hn
      · simp [firstSegment, hc] at hs

-- Every ACL of the frontend is declared by the item of its own name.
theorem aclHolds_frontend (items : List Service) (name path : Str)
    (hm : name ∈ items.map Service.name) :
    aclHolds (items.map frontendLines).flatten name path = (aclPattern name).isPrefixOf path := by
  obtain ⟨item, hitem, rfl⟩ := List.mem_map.mp hm
  rw [Bool.eq_iff_iff]
  simp only [aclHolds, List.any_eq_true, List.mem_flatten, List.mem_map]
  constructor
  · rintro ⟨line, ⟨lines, ⟨other, -, rfl⟩, hline⟩, hholds⟩
    simp only [frontendLines, List.mem_cons, List.not_mem_nil, or_false] at hline
    rcases hline with rfl | rfl
    · simp only [Bool.and_eq_true, beq_iff_eq] at hholds
      rw [← hholds.1]
      exact hholds.2
    · simp at hholds
  · intro h
    exact ⟨.acl item.name (aclPattern item.name),
      ⟨frontendLines item, ⟨item, hitem, rfl⟩, by simp [frontendLines]⟩, by simpa using h⟩

-- The switching rules of the rendered frontend try the names in list order.
theorem switchingRule_frontend (items rest : List Service) (path : Str) (hsub : rest ⊆ items) :
    switchingRule (items.map frontendLines).flatten path (rest.map frontendLines).flatten =
      (rest.map Service.name).find? fun name => (aclPattern name).isPrefixOf path := by
  induction rest with
  | nil => rfl
  | cons item rest ih =>
      have hitem : item.name ∈ items.map Service.name :=
        List.mem_map.mpr ⟨item, hsub (List.mem_cons_self), rfl⟩
      have hrest := ih (fun other ho => hsub (List.mem_cons_of_mem _ ho))
      simp only [List.map_cons, List.flatten_cons, frontendLines, List.cons_append,
        List.nil_append, switchingRule, aclHolds_frontend items item.name path hitem,
        List.find?_cons]
      cases (aclPattern item.name).isPrefixOf path with
      | true => rfl
      | false => exact hrest

theorem defaultRule_frontend (items : List Service) :
    defaultRule (items.map frontendLines).flatten = none := by
  induction items with
  | nil => rfl
  | cons item rest ih => simpa [frontendLines, defaultRule] using ih

theorem proxyLines_frontend (items : List Service) :
    proxyLines (render items) .frontend frontendName = (items.map frontendLines).flatten := rfl

theorem proxyLines_defaults (items : List Service) :
    proxyLines (render items) .defaults [] = [.defaultBackend defaultBackendName] := rfl

theorem route_render (items : List Service) (path : Str) :
    route (render items) path =
      (((items.map Service.name).find? fun name => (aclPattern name).isPrefixOf path).or
        (some defaultBackendName)) := by
  simp only [route, proxyLines_frontend, proxyLines_defaults, defaultRule_frontend,
    switchingRule_frontend items items path (List.Subset.refl items)]
  rfl

-- The services tried before the one named like the first segment whose ACL
-- holds as well, because their name starts that segment.
def shadowingNames (services : ServiceList) (segment : Str) : List Str :=
  shadowing (fun name => name.isPrefixOf segment) segment services.names

theorem find?_names (services : ServiceList) (path segment : Str)
    (hs : firstSegment path = some segment) :
    (services.names.find? fun name => (aclPattern name).isPrefixOf path) =
      services.names.find? fun name => name.isPrefixOf segment := by
  rw [← List.head?_filter, ← List.head?_filter]
  congr 1
  apply List.filter_congr
  intro name hm
  obtain ⟨item, hitem, rfl⟩ := List.mem_map.mp hm
  exact aclPattern_isPrefixOf item.name path segment (services.labels item hitem).slash_notMem hs

theorem route_of_notMem (services : ServiceList) (path segment : Str)
    (hs : firstSegment path = some segment) (hn : segment ∉ services.names) :
    route (render services.items) path =
      some ((shadowingNames services segment).head?.getD defaultBackendName) := by
  have hf := find?_names services path segment hs
  have hk := find?_of_notMem (fun name => name.isPrefixOf segment) segment services.names hn
  rw [route_render, ← ServiceList.names, hf, hk, ← shadowingNames]
  cases (shadowingNames services segment).head? <;> rfl

theorem route_eq_segment_iff (services : ServiceList) (path segment : Str)
    (hs : firstSegment path = some segment) (hm : segment ∈ services.names) :
    route (render services.items) path = some segment ↔ shadowingNames services segment = [] := by
  have hf := find?_names services path segment hs
  have hself : segment.isPrefixOf segment = true := by simp
  have hk := find?_of_mem (fun name => name.isPrefixOf segment) segment services.names hself hm
  have hiff := find?_eq_key_iff (fun name => name.isPrefixOf segment) segment services.names hself hm
  rw [shadowingNames, ← hiff, route_render, ← ServiceList.names, hf, hk, Option.or_assoc]
  rfl

-- A path outside the grammar of absolute paths meets no ACL.
theorem route_of_no_segment (services : ServiceList) (path : Str) (hs : firstSegment path = none) :
    route (render services.items) path = some defaultBackendName := by
  have hf : (services.names.find? fun name => (aclPattern name).isPrefixOf path) = none := by
    rw [List.find?_eq_none]
    intro name _
    simp [aclPattern_isPrefixOf_false name path hs]
  rw [route_render, ← ServiceList.names, hf]
  rfl

-- A request goes to the service its first path segment names, and to the
-- default backend when that segment names no service.
def RoutesByFirstSegment (services : ServiceList) (path : Str) : Prop :=
  (∀ name ∈ services.names, firstSegment path = some name →
    route (render services.items) path = some name) ∧
  ((∀ name ∈ services.names, firstSegment path ≠ some name) →
    route (render services.items) path = some defaultBackendName)

-- No service tried earlier has a name that starts the first segment. A service
-- that is itself called default-backend may come first for a segment that
-- names no service.
def Unshadowed (services : ServiceList) (path : Str) : Prop :=
  ∀ segment, firstSegment path = some segment →
    shadowingNames services segment = [] ∨
      (segment ∉ services.names ∧
        (shadowingNames services segment).head? = some defaultBackendName)

theorem routesByFirstSegment_of_mem (services : ServiceList) (path segment : Str)
    (hs : firstSegment path = some segment) (hm : segment ∈ services.names) :
    RoutesByFirstSegment services path ↔ shadowingNames services segment = [] := by
  rw [← route_eq_segment_iff services path segment hs hm]
  constructor
  · rintro ⟨hnamed, -⟩
    exact hnamed segment hm hs
  · intro hr
    refine ⟨?_, fun hnone => absurd hs (hnone segment hm)⟩
    intro name _ he
    rw [← he, hs]
    exact hr

theorem routesByFirstSegment_of_notMem (services : ServiceList) (path segment : Str)
    (hs : firstSegment path = some segment) (hn : segment ∉ services.names) :
    RoutesByFirstSegment services path ↔
      (shadowingNames services segment).head?.getD defaultBackendName = defaultBackendName := by
  have hr := route_of_notMem services path segment hs hn
  have hnone : ∀ name ∈ services.names, firstSegment path ≠ some name := by
    intro name hm he
    rw [hs] at he
    exact hn (Option.some.inj he ▸ hm)
  constructor
  · rintro ⟨-, hdefault⟩
    exact Option.some.inj (hr.symm.trans (hdefault hnone))
  · intro hd
    refine ⟨fun name hm he => absurd he (hnone name hm), fun _ => ?_⟩
    rw [hr, hd]

theorem unshadowed_iff (services : ServiceList) (path segment : Str)
    (hs : firstSegment path = some segment) :
    Unshadowed services path ↔ shadowingNames services segment = [] ∨
      (segment ∉ services.names ∧
        (shadowingNames services segment).head? = some defaultBackendName) := by
  simp only [Unshadowed, hs, Option.some.injEq, forall_eq']

theorem routesByFirstSegment_iff (services : ServiceList) (path : Str) :
    RoutesByFirstSegment services path ↔ Unshadowed services path := by
  cases hs : firstSegment path with
  | none =>
      have hr := route_of_no_segment services path hs
      simp [RoutesByFirstSegment, Unshadowed, hs, hr]
  | some segment =>
      rw [unshadowed_iff services path segment hs]
      by_cases hm : segment ∈ services.names
      · rw [routesByFirstSegment_of_mem services path segment hs hm]
        simp [hm]
      · rw [routesByFirstSegment_of_notMem services path segment hs hm]
        cases hsh : shadowingNames services segment with
        | nil => simp
        | cons first more => simp [hm]

def webServices : ServiceList where
  items := [⟨"web".toList, [⟨"10.0.0.1".toList, 80⟩]⟩, ⟨"web-admin".toList, [⟨"10.0.0.2".toList, 80⟩]⟩]
  labels := by decide
  distinct := by decide

-- The service listed first takes the requests of every service whose name
-- extends its own.
theorem webAdmin_routed_to_web :
    route (render webServices.items) "/web-admin/login".toList = some "web".toList ∧
      ¬RoutesByFirstSegment webServices "/web-admin/login".toList := by
  refine ⟨by decide, ?_⟩
  rintro ⟨hnamed, -⟩
  have hr := hnamed "web-admin".toList (by decide) (by decide)
  revert hr
  decide

end MesosPoc.LoadBalancer
