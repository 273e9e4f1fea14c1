import MesosPoc.LoadBalancer.Template
import Mathlib.Data.List.Nodup

namespace MesosPoc.LoadBalancer

-- The sections with a name of their own. HAProxy has one defaults section
-- without a name.
def namedSections (config : List Proxy) : List Proxy :=
  config.filter fun proxy => proxy.kind != .defaults

def Line.usedBackend : Line → Option Str
  | .useBackend backend _ => some backend
  | .defaultBackend backend => some backend
  | _ => none

def Line.serverName : Line → Option Str
  | .server name _ => some name
  | _ => none

def usedBackends (config : List Proxy) : List Str :=
  config.flatMap fun proxy => proxy.lines.filterMap Line.usedBackend

def backendsNamed (config : List Proxy) (name : Str) : List Proxy :=
  config.filter fun proxy => proxy.kind == .backend && proxy.name == name

-- What HAProxy asks of the names in its file.
structure WellFormed (config : List Proxy) : Prop where
  names : ((namedSections config).map Proxy.name).Nodup
  backends : ∀ name ∈ usedBackends config, (backendsNamed config name).length = 1
  servers : ∀ proxy ∈ config, proxy.kind = .backend → (proxy.lines.filterMap Line.serverName).Nodup

-- The names that are fixed in the template.
def templateNames : List Str :=
  [defaultBackendName, "stats".toList, frontendName]

theorem decimal_injective : Function.Injective decimal := by
  intro m n h
  have hvalue := congrArg (fun digits => Nat.ofDigitChars 10 digits 0) h
  simpa only [decimal, Nat.ofDigitChars_ten_toDigits] using hvalue

theorem namedSections_render (items : List Service) :
    namedSections (render items) =
      [defaultBackendSection, statsSection, frontendSection items] ++ items.map backendSection := by
  have hitems : (items.map backendSection).filter (fun proxy => proxy.kind != .defaults) =
      items.map backendSection := by
    rw [List.filter_eq_self]
    intro proxy hm
    obtain ⟨item, -, rfl⟩ := List.mem_map.mp hm
    rfl
  rw [namedSections, render, List.filter_append, hitems]
  rfl

theorem names_render (items : List Service) :
    (namedSections (render items)).map Proxy.name = templateNames ++ items.map Service.name := by
  rw [namedSections_render, List.map_append, List.map_map]
  rfl

theorem names_nodup_iff (services : ServiceList) :
    ((namedSections (render services.items)).map Proxy.name).Nodup ↔
      ∀ name ∈ services.names, name ∉ templateNames := by
  have hfixed : templateNames.Nodup := by decide
  rw [names_render, List.nodup_append]
  constructor
  · intro h name hm ht
    exact h.2.2 name ht name hm rfl
  · intro h
    refine ⟨hfixed, services.distinct, ?_⟩
    intro a ha b hb heq
    exact h b hb (heq ▸ ha)

-- With distinct names there is no second backend of one name.
theorem backendsNamed_length_le (config : List Proxy) (name : Str)
    (hn : ((namedSections config).map Proxy.name).Nodup) : (backendsNamed config name).length ≤ 1 := by
  have hsub : (backendsNamed config name).Sublist (namedSections config) := by
    have hnamed : backendsNamed config name = backendsNamed (namedSections config) name := by
      rw [backendsNamed, backendsNamed, namedSections, List.filter_filter]
      apply List.filter_congr
      intro proxy _
      cases proxy.kind <;> simp
    rw [hnamed]
    exact List.filter_sublist
  have hnodup := (hsub.map Proxy.name).nodup hn
  have hall : (backendsNamed config name).map Proxy.name =
      List.replicate (backendsNamed config name).length name := by
    rw [← List.length_map (f := Proxy.name)]
    apply List.eq_replicate_of_mem
    intro other hm
    obtain ⟨proxy, hproxy, rfl⟩ := List.mem_map.mp hm
    have hname := (List.mem_filter.mp hproxy).2
    simp only [Bool.and_eq_true, beq_iff_eq] at hname
    exact hname.2
  rw [hall, List.nodup_replicate] at hnodup
  exact hnodup

theorem usedBackend_endpointLines (name : Str) (endpoint : EndPoint) (index : Nat) :
    (endpointLines name endpoint index).filterMap Line.usedBackend = [] := rfl

theorem serverName_endpointLines (name : Str) (endpoint : EndPoint) (index : Nat) :
    (endpointLines name endpoint index).filterMap Line.serverName = [name ++ decimal index] := rfl

theorem usedBackends_backendSection (item : Service) :
    (backendSection item).lines.filterMap Line.usedBackend = [] := by
  simp [backendSection, List.filterMap_flatten, usedBackend_endpointLines]

-- The servers of a backend are numbered in the order of its endpoints.
theorem serverNames_backendSection (item : Service) :
    (backendSection item).lines.filterMap Line.serverName =
      (List.range' 0 item.endpoints.length).map fun index => item.name ++ decimal index := by
  rw [← List.zipIdx_map_snd 0 item.endpoints, List.map_map, backendSection]
  induction item.endpoints.zipIdx with
  | nil => rfl
  | cons entry rest ih =>
      rw [List.map_cons, List.flatten_cons, List.filterMap_append, ih, serverName_endpointLines,
        List.map_cons, List.singleton_append]
      rfl

theorem usedBackends_frontendSection (items : List Service) :
    (frontendSection items).lines.filterMap Line.usedBackend = items.map Service.name := by
  simp only [frontendSection]
  induction items with
  | nil => rfl
  | cons item rest ih =>
      have hitem : (frontendLines item).filterMap Line.usedBackend = [item.name] := rfl
      rw [List.map_cons, List.flatten_cons, List.filterMap_append, ih, hitem, List.map_cons,
        List.singleton_append]

-- Both loops of the template run over the same items.
theorem usedBackends_render (items : List Service) :
    usedBackends (render items) = defaultBackendName :: items.map Service.name := by
  have hbackends : ∀ rest : List Service, usedBackends (rest.map backendSection) = [] := by
    intro rest
    rw [usedBackends, List.flatMap_eq_nil_iff]
    intro proxy hm
    obtain ⟨item, -, rfl⟩ := List.mem_map.mp hm
    exact usedBackends_backendSection item
  have hfixed : usedBackends [defaultsSection, defaultBackendSection, statsSection, frontendSection items] =
      defaultBackendName :: items.map Service.name := by
    rw [← usedBackends_frontendSection items]
    simp [usedBackends, defaultsSection, defaultBackendSection, statsSection, Line.usedBackend]
  rw [render, usedBackends, List.flatMap_append, ← usedBackends, ← usedBackends, hfixed, hbackends,
    List.append_nil]

theorem backendsNamed_used (items : List Service) (name : Str) (hu : name ∈ usedBackends (render items)) :
    backendsNamed (render items) name ≠ [] := by
  rw [usedBackends_render] at hu
  rcases List.mem_cons.mp hu with rfl | hm
  · have hmem : defaultBackendSection ∈ backendsNamed (render items) defaultBackendName :=
      List.mem_filter.mpr ⟨by simp [render], by decide⟩
    exact List.ne_nil_of_mem hmem
  · obtain ⟨item, hitem, rfl⟩ := List.mem_map.mp hm
    have hmem : backendSection item ∈ backendsNamed (render items) item.name := by
      refine List.mem_filter.mpr ⟨List.mem_append_right _ (List.mem_map.mpr ⟨item, hitem, rfl⟩), ?_⟩
      simp [backendSection]
    exact List.ne_nil_of_mem hmem

theorem serverNames_nodup (items : List Service) (proxy : Proxy) (hm : proxy ∈ render items)
    (hk : proxy.kind = .backend) : (proxy.lines.filterMap Line.serverName).Nodup := by
  rcases List.mem_append.mp hm with hm | hm
  · have hdefault : proxy = defaultBackendSection := by
      simp only [List.mem_cons, List.not_mem_nil, or_false] at hm
      rcases hm with rfl | rfl | rfl | rfl
      · cases hk
      · rfl
      · cases hk
      · cases hk
    rw [hdefault]
    decide
  · obtain ⟨item, -, rfl⟩ := List.mem_map.mp hm
    rw [serverNames_backendSection]
    apply List.Nodup.map
    · intro i j h
      exact decimal_injective (List.append_cancel_left h)
    · exact List.nodup_range' 1

-- The rendered file is well formed exactly when no service has a name that the
-- template has given to a section of its own.
theorem render_wellFormed_iff (services : ServiceList) :
    WellFormed (render services.items) ↔ ∀ name ∈ services.names, name ∉ templateNames := by
  constructor
  · intro h
    exact (names_nodup_iff services).mp h.names
  · intro h
    have hnames := (names_nodup_iff services).mpr h
    refine ⟨hnames, ?_, serverNames_nodup services.items⟩
    intro name hu
    have hle := backendsNamed_length_le (render services.items) name hnames
    have hpos := List.length_pos_iff.mpr (backendsNamed_used services.items name hu)
    omega

def statsServices : ServiceList where
  items := [⟨"stats".toList, [⟨"10.0.0.1".toList, 80⟩]⟩]
  labels := by decide
  distinct := by decide

-- A service may be named like the statistics page.
theorem stats_defined_twice : ¬WellFormed (render statsServices.items) := by
  intro h
  have hnames : ¬((namedSections (render statsServices.items)).map Proxy.name).Nodup := by decide
  exact hnames h.names

end MesosPoc.LoadBalancer
