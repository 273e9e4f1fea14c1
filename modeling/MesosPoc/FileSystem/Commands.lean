import MesosPoc.FileSystem.Walking

namespace MesosPoc.FileSystem

variable {ν κ : Type} [DecidableEq ν] {fs : FileSystem ν κ}

section Entries

omit [DecidableEq ν] in
theorem locate_eq {place parent : List ν} {path : List (Component ν)} (name : ν)
    (h : resolve fs place path = some parent) (hdir : fs.isDir parent = true) :
    locate fs place (path ++ [.name name]) = some (parent, name) := by
  simp only [locate, List.getLast?_concat, List.dropLast_concat, h, hdir, if_true]

theorem put_node {place : List ν} {name : ν} (node : Node ν κ) (hdir : fs.isDir place = true)
    (hnode : fs.node (place ++ [name]) = none) (place' : List ν) :
    (fs.put place name node).node place' = if place' = place ++ [name] then some node else fs.node place' := by
  have h : fs.isDir place = true ∧ (fs.node (place ++ [name])).isNone = true :=
    ⟨hdir, Option.isNone_iff_eq_none.mpr hnode⟩
  rw [put, dif_pos h]

theorem extends_put (place : List ν) (name : ν) (node : Node ν κ) : Extends fs (fs.put place name node) := by
  intro place' hnode
  unfold put
  split
  next h =>
    have hne : place' ≠ place ++ [name] := by
      rintro rfl
      exact hnode (Option.isNone_iff_eq_none.mp h.2)
    exact if_neg hne
  next => rfl

theorem put_other (place : List ν) (name : ν) (node : Node ν κ) {place' : List ν} (hne : place' ≠ place ++ [name]) :
    (fs.put place name node).node place' = fs.node place' := by
  unfold put
  split
  · exact if_neg hne
  · rfl

theorem remove_below {place place' : List ν} {name : ν} (h : place ++ [name] <+: place') :
    (fs.remove place name).node place' = none :=
  if_pos h

theorem remove_other {place place' : List ν} {name : ν} (h : ¬place ++ [name] <+: place') :
    (fs.remove place name).node place' = fs.node place' :=
  if_neg h

theorem remove_extends (place : List ν) (name : ν) : Extends (fs.remove place name) fs := by
  intro place' hnode
  have hapart : ¬place ++ [name] <+: place' := fun h => hnode (remove_below h)
  exact (remove_other hapart).symm

-- What is left does not depend on the entry that is taken away.
theorem remove_congr {fs' : FileSystem ν κ} {place : List ν} {name : ν}
    (h : ∀ place', ¬place ++ [name] <+: place' → fs'.node place' = fs.node place') :
    fs'.remove place name = fs.remove place name := by
  ext1
  funext place'
  by_cases hentry : place ++ [name] <+: place'
  · rw [remove_below hentry, remove_below hentry]
  · rw [remove_other hentry, remove_other hentry, h place' hentry]

omit [DecidableEq ν] in
theorem ne_of_not_below {entry place : List ν} (h : ¬entry <+: place) : place ≠ entry := by
  rintro rfl
  exact h List.prefix_rfl

omit [DecidableEq ν] in
theorem entry_not_above (place : List ν) (name : ν) : ¬place ++ [name] <+: place := by
  intro h
  have hlength := h.length_le
  rw [List.length_append, List.length_singleton] at hlength
  omega

-- Below what is not there, nothing is there.
omit [DecidableEq ν] in
theorem node_append_none {place names : List ν} (h : fs.node place = none) : fs.node (place ++ names) = none := by
  induction names using List.reverseRecOn with
  | nil => rwa [List.append_nil]
  | append_singleton names name ih =>
      by_contra hne
      rw [← List.append_assoc] at hne
      rw [fs.parents _ name hne] at ih
      cases ih

-- Nor below what is no directory.
omit [DecidableEq ν] in
theorem node_below_none {place names : List ν} (hplace : fs.node place ≠ some .dir) (hnames : names ≠ []) :
    fs.node (place ++ names) = none := by
  obtain ⟨first, rest, rfl⟩ := List.exists_cons_of_ne_nil hnames
  have hfirst : fs.node (place ++ [first]) = none := by
    by_contra hne
    exact hplace (fs.parents place first hne)
  rw [List.append_cons]
  exact node_append_none hfirst

end Entries

section Mkdirs

omit [DecidableEq ν] in
theorem isDir_of_walks {links left : Nat} {place last : List ν} {names : List ν}
    (h : Walks fs links place (names.map .name) last left) (hlast : fs.isDir last = true) :
    fs.isDir place = true := by
  cases names with
  | nil =>
      cases h
      exact hlast
  | cons name names =>
      cases h with
      | down hdir => exact hdir
      | follow hdir => exact hdir

theorem mkdirs_name {place : List ν} {name : ν} {node : Node ν κ} (rest : List (Component ν))
    (hdir : fs.isDir place = true) (hnode : fs.node (place ++ [name]) = some node)
    (hlink : ∀ target, node ≠ .link target) :
    mkdirs fs place (.name name :: rest) = mkdirs fs (place ++ [name]) rest := by
  cases node with
  | link target => exact absurd rfl (hlink target)
  | dir => simp only [mkdirs, hdir, hnode, if_true]
  | file content => simp only [mkdirs, hdir, hnode, if_true]

theorem mkdirs_link {place next : List ν} {name : ν} {target : Target ν} (rest : List (Component ν))
    (hdir : fs.isDir place = true) (hnode : fs.node (place ++ [name]) = some (.link target))
    (hnext : resolve fs place [.name name] = some next) (hnextDir : fs.isDir next = true) :
    mkdirs fs place (.name name :: rest) = mkdirs fs next rest := by
  simp only [mkdirs, hdir, hnode, hnext, hnextDir, if_true]

theorem mkdirs_new {place : List ν} {name : ν} (rest : List (Component ν)) (hdir : fs.isDir place = true)
    (hnode : fs.node (place ++ [name]) = none) :
    mkdirs fs place (.name name :: rest) = mkdirs (fs.put place name .dir) (place ++ [name]) rest := by
  simp only [mkdirs, hdir, hnode, if_true]

-- Where the path leads through what is there, mkdir -p only follows it.
theorem mkdirs_walks {links left : Nat} {place last : List ν} {names : List ν} (rest : List (Component ν))
    (h : Walks fs links place (names.map .name) last left) (hlinks : links ≤ maxLinks)
    (hlast : fs.isDir last = true) :
    mkdirs fs place (names.map .name ++ rest) = mkdirs fs last rest := by
  induction names generalizing place links with
  | nil =>
      cases h
      rfl
  | cons name names ih =>
      rw [List.map_cons, List.cons_append]
      cases h with
      | down hdir hnode hlink hrest =>
          rw [mkdirs_name _ hdir hnode hlink]
          exact ih hrest hlinks
      | @follow fewer _ _ _ _ _ target hdir hnode hrest =>
          obtain ⟨next, most, htarget, hrest⟩ := hrest.split
          have hfirst : Walks fs (fewer + 1) place [.name name] next most := by
            apply Walks.follow hdir hnode
            rwa [List.append_nil]
          have hresolve : resolve fs place [.name name] = some next := by
            apply resolve_of_walks (hfirst.more (maxLinks - (fewer + 1)))
            omega
          rw [mkdirs_link _ hdir hnode hresolve (isDir_of_walks hrest hlast)]
          have hmost := htarget.left_le
          exact ih hrest (by omega)

-- The places from an entry on, along the names below it.
omit [DecidableEq ν] in
theorem between_cons (place place' : List ν) (first second : ν) (names : List ν) :
    place ++ [first] <+: place' ∧ place' <+: place ++ first :: second :: names ↔
      place' = place ++ [first] ∨
        place ++ [first] ++ [second] <+: place' ∧ place' <+: place ++ [first] ++ second :: names := by
  rw [List.append_cons place first (second :: names)]
  constructor
  · rintro ⟨⟨below, rfl⟩, hlast⟩
    cases below with
    | nil => exact .inl (List.append_nil _)
    | cons next below =>
        right
        refine ⟨?_, hlast⟩
        rw [List.prefix_append_right_inj, List.cons_prefix_cons] at hlast
        rw [List.prefix_append_right_inj, List.cons_prefix_cons]
        exact ⟨hlast.1.symm, List.nil_prefix⟩
  · rintro (rfl | ⟨hsecond, hlast⟩)
    · exact ⟨List.prefix_rfl, List.prefix_append _ _⟩
    · exact ⟨(List.prefix_append _ _).trans hsecond, hlast⟩

-- From where nothing is there, mkdir -p makes a directory at each name.
theorem mkdirs_node {place : List ν} {first : ν} (names : List ν) (hdir : fs.isDir place = true)
    (hfree : fs.node (place ++ [first]) = none) (place' : List ν) :
    (mkdirs fs place ((first :: names).map .name)).node place' =
      if place ++ [first] <+: place' ∧ place' <+: place ++ first :: names then some .dir else fs.node place' := by
  induction names generalizing place first fs with
  | nil =>
      rw [List.map_cons, List.map_nil, mkdirs_new _ hdir hfree, mkdirs, put_node .dir hdir hfree]
      apply if_congr _ rfl rfl
      constructor
      · rintro rfl
        exact ⟨List.prefix_rfl, List.prefix_rfl⟩
      · rintro ⟨hfirst, hlast⟩
        exact (hfirst.eq_of_length_le hlast.length_le).symm
  | cons second names ih =>
      have hput := put_node (.dir : Node ν κ) hdir hfree
      have hdir' : (fs.put place first .dir).isDir (place ++ [first]) = true := by
        rw [isDir_iff, hput, if_pos rfl]
      have hfree' : (fs.put place first .dir).node (place ++ [first] ++ [second]) = none := by
        rw [hput, if_neg (by simp)]
        exact node_append_none hfree
      rw [List.map_cons, mkdirs_new _ hdir hfree, ih hdir' hfree', hput]
      by_cases hsecond : place ++ [first] ++ [second] <+: place' ∧ place' <+: place ++ [first] ++ second :: names
      · rw [if_pos hsecond, if_pos ((between_cons ..).mpr (.inr hsecond))]
      · rw [if_neg hsecond]
        apply if_congr _ rfl rfl
        rw [between_cons]
        exact (or_iff_left hsecond).symm

section New

variable {place : List ν} {first : ν} (names : List ν) (hdir : fs.isDir place = true)
  (hfree : fs.node (place ++ [first]) = none)
include hdir hfree

theorem mkdirs_last : (mkdirs fs place ((first :: names).map .name)).node (place ++ first :: names) = some .dir := by
  rw [mkdirs_node names hdir hfree, if_pos]
  refine ⟨?_, List.prefix_rfl⟩
  rw [List.prefix_append_right_inj, List.cons_prefix_cons]
  exact ⟨rfl, List.nil_prefix⟩

theorem mkdirs_below (below : ν) :
    (mkdirs fs place ((first :: names).map .name)).node (place ++ first :: names ++ [below]) = none := by
  rw [mkdirs_node names hdir hfree, if_neg]
  · rw [List.append_cons place first names, List.append_assoc]
    exact node_append_none hfree
  · rintro ⟨-, hlong⟩
    exact entry_not_above _ below hlong

-- What mkdir -p changes is what was not there.
theorem mkdirs_frame {place' : List ν}
    (hchanged : (mkdirs fs place ((first :: names).map .name)).node place' ≠ fs.node place') :
    place' <+: place ++ first :: names ∧ fs.node place' = none := by
  rw [mkdirs_node names hdir hfree] at hchanged
  by_cases hnew : place ++ [first] <+: place' ∧ place' <+: place ++ first :: names
  · refine ⟨hnew.2, ?_⟩
    obtain ⟨⟨below, rfl⟩, -⟩ := hnew
    exact node_append_none hfree
  · rw [if_neg hnew] at hchanged
    exact absurd rfl hchanged

theorem extends_mkdirs : Extends fs (mkdirs fs place ((first :: names).map .name)) := by
  intro place' hthere
  by_contra hchanged
  exact hthere (mkdirs_frame names hdir hfree hchanged).2

end New

-- In a directory that is there, mkdir -p makes one entry at most.
theorem mkdirs_single {place : List ν} (name : ν) (hdir : fs.isDir place = true) :
    mkdirs fs place [.name name] = fs ∨ mkdirs fs place [.name name] = fs.put place name .dir := by
  cases hnode : fs.node (place ++ [name]) with
  | none =>
      right
      rw [mkdirs_new [] hdir hnode, mkdirs]
  | some node =>
      left
      cases node with
      | dir => exact mkdirs_name [] hdir hnode (fun _ => nofun)
      | file content => exact mkdirs_name [] hdir hnode (fun _ => nofun)
      | link target =>
          simp only [mkdirs, hdir, hnode, if_true]
          split
          · split <;> rfl
          · rfl

-- Where mkdir -p makes a path, or finds it there as an empty directory.
inductive Makes (fs : FileSystem ν κ) (names : List ν) : List ν → ν → Prop
  | missing (existing missing : List ν) (name : ν) (place : List ν) (hnames : names = existing ++ (missing ++ [name]))
      (hresolve : resolve fs [] (existing.map .name) = some place) (hdir : fs.isDir place = true)
      (hfree : ∀ first ∈ (missing ++ [name]).head?, fs.node (place ++ [first]) = none) :
      Makes fs names (place ++ missing) name
  | empty (existing : List ν) (name : ν) (parent : List ν) (hnames : names = existing ++ [name])
      (hresolve : resolve fs [] (existing.map .name) = some parent) (hdir : fs.isDir (parent ++ [name]) = true)
      (hempty : ∀ below, fs.node (parent ++ [name] ++ [below]) = none) : Makes fs names parent name

-- A path that is an empty directory of its own, and what had to be made for it.
structure Made (fs fs' : FileSystem ν κ) (names parent : List ν) (name : ν) : Prop where
  located : locate fs' [] (names.map .name) = some (parent, name)
  resolved : resolve fs' [] (names.map .name) = some (parent ++ [name])
  dir : fs'.node (parent ++ [name]) = some .dir
  empty : ∀ below, fs'.node (parent ++ [name] ++ [below]) = none
  frame : ∀ place, fs'.node place ≠ fs.node place → place <+: parent ++ [name] ∧ fs.node place = none

omit [DecidableEq ν] in
theorem made_of_walks {fs' : FileSystem ν κ} (between : List ν) {names existing place : List ν} {name : ν} {left : Nat}
    (hnames : names = existing ++ (between ++ [name]))
    (hwalk : Walks fs' maxLinks [] (existing.map .name) place left)
    (hdir : fs'.isDir (place ++ (between ++ [name])) = true) :
    locate fs' [] (names.map .name) = some (place ++ between, name) ∧
      resolve fs' [] (names.map .name) = some (place ++ between ++ [name]) := by
  have hparent : fs'.isDir (place ++ between) = true := by
    rw [← List.append_assoc] at hdir
    exact isDir_of_append hdir
  have hbetween := hwalk.append (walks_dirs left hparent)
  have hall := hwalk.append (walks_dirs left hdir)
  refine ⟨?_, ?_⟩
  · rw [hnames, ← List.append_assoc, List.map_append, List.map_append]
    exact locate_eq _ (resolve_of_walks hbetween rfl) hparent
  · rw [hnames, List.map_append, List.append_assoc]
    exact resolve_of_walks hall rfl

theorem made_missing {existing missing place : List ν} (name : ν)
    (hresolve : resolve fs [] (existing.map .name) = some place) (hdir : fs.isDir place = true)
    (hfree : ∀ first ∈ (missing ++ [name]).head?, fs.node (place ++ [first]) = none) :
    Made fs (mkdirs fs [] ((existing ++ (missing ++ [name])).map .name)) (existing ++ (missing ++ [name]))
      (place ++ missing) name := by
  obtain ⟨left, hwalk⟩ := walks_of_resolve hresolve
  obtain ⟨first, rest, hmissing⟩ := List.exists_cons_of_ne_nil (List.concat_ne_nil name missing)
  have hfirst : fs.node (place ++ [first]) = none := by
    apply hfree
    rw [hmissing]
    exact rfl
  have hplace : place ++ missing ++ [name] = place ++ first :: rest := by rw [List.append_assoc, hmissing]
  have hmkdirs : mkdirs fs [] ((existing ++ (missing ++ [name])).map .name) =
      mkdirs fs place ((first :: rest).map .name) := by
    rw [hmissing, List.map_append, mkdirs_walks _ hwalk (le_refl _) hdir]
  rw [hmkdirs]
  have hlast := mkdirs_last rest hdir hfirst
  obtain ⟨hlocated, hresolved⟩ :=
    made_of_walks missing rfl (hwalk.extends (extends_mkdirs rest hdir hfirst)) (by
      rw [isDir_iff, hmissing]
      exact hlast)
  refine ⟨hlocated, hresolved, ?_, ?_, ?_⟩
  · rw [hplace, hlast]
  · intro below
    rw [hplace, mkdirs_below rest hdir hfirst]
  · intro place' hchanged
    rw [hplace]
    exact mkdirs_frame rest hdir hfirst hchanged

theorem made_empty {existing parent : List ν} (name : ν) (hresolve : resolve fs [] (existing.map .name) = some parent)
    (hdir : fs.isDir (parent ++ [name]) = true) (hempty : ∀ below, fs.node (parent ++ [name] ++ [below]) = none) :
    Made fs (mkdirs fs [] ((existing ++ [name]).map .name)) (existing ++ [name]) parent name := by
  obtain ⟨left, hwalk⟩ := walks_of_resolve hresolve
  have hparent := isDir_of_append hdir
  have hnode := fs.isDir_iff.mp hdir
  have hmkdirs : mkdirs fs [] ((existing ++ [name]).map .name) = fs := by
    rw [List.map_append, mkdirs_walks _ hwalk (le_refl _) hparent]
    exact mkdirs_name [] hparent hnode (fun _ => nofun)
  rw [hmkdirs]
  obtain ⟨hlocated, hresolved⟩ := made_of_walks [] rfl hwalk hdir
  rw [List.append_nil] at hlocated hresolved
  exact ⟨hlocated, hresolved, hnode, hempty, fun _ hchanged => absurd rfl hchanged⟩

theorem Makes.made {names parent : List ν} {name : ν} (h : Makes fs names parent name) :
    Made fs (mkdirs fs [] (names.map .name)) names parent name := by
  cases h with
  | missing existing missing _ place hnames hresolve hdir hfree =>
      rw [hnames]
      exact made_missing name hresolve hdir hfree
  | empty existing _ _ hnames hresolve hdir hempty =>
      rw [hnames]
      exact made_empty name hresolve hdir hempty

end Mkdirs

section Rm

-- A path does not lead on through what is not there.
omit [DecidableEq ν] in
theorem resolve_missing {existing place : List ν} {first : ν} (rest : List ν)
    (hresolve : resolve fs [] (existing.map .name) = some place) (hfree : fs.node (place ++ [first]) = none) :
    resolve fs [] ((existing ++ first :: rest).map .name) = none := by
  obtain ⟨left, hwalk⟩ := walks_of_resolve hresolve
  rw [Option.eq_none_iff_forall_ne_some, List.map_append]
  intro last hlast
  obtain ⟨_, hall⟩ := walks_of_resolve hlast
  obtain ⟨between, most, hbefore, hafter⟩ := hall.split
  obtain ⟨rfl, rfl⟩ : place = between ∧ left = most := by
    have hsame := (walk_of_walks hwalk).symm.trans (walk_of_walks hbefore)
    exact Prod.mk.inj (Option.some.inj hsame)
  cases hafter with
  | down _ hnode =>
      rw [hfree] at hnode
      cases hnode
  | follow _ hnode =>
      rw [hfree] at hnode
      cases hnode

-- What is missing, or is a directory, is not taken away by rm.
theorem Makes.rm {names parent : List ν} {name : ν} (h : Makes fs names parent name) :
    rm fs [] (names.map .name) = fs := by
  cases h with
  | missing existing missing _ place hnames hresolve hdir hfree =>
      cases missing with
      | nil =>
          have hlocated := locate_eq name hresolve hdir
          have hnone : fs.node (place ++ [name]) = none := hfree name rfl
          rw [hnames, List.nil_append, List.map_append, List.map_singleton]
          simp only [FileSystem.rm, hlocated, hnone]
      | cons first rest =>
          have hparent := resolve_missing rest hresolve (hfree first rfl)
          have hlocated : locate fs [] ((existing ++ first :: rest).map .name ++ [.name name]) = none := by
            simp only [locate, List.getLast?_concat, List.dropLast_concat, hparent]
          rw [hnames, ← List.append_assoc, List.map_append, List.map_singleton]
          simp only [FileSystem.rm, hlocated]
  | empty existing _ _ hnames hresolve hdir hempty =>
      have hlocated := locate_eq name hresolve (isDir_of_append hdir)
      have hnode := fs.isDir_iff.mp hdir
      rw [hnames, List.map_append, List.map_singleton]
      simp only [FileSystem.rm, hlocated, hnode]

-- A path that mkdir -p makes or finds empty, or that is a file or a link, and leads to
-- its directory without that entry too.
inductive Remakes (fs : FileSystem ν κ) (names : List ν) : List ν → ν → Prop
  | kept {parent : List ν} {name : ν} (h : Makes fs names parent name) : Remakes fs names parent name
  | entry (existing : List ν) (name : ν) (parent : List ν) (node : Node ν κ) (hnames : names = existing ++ [name])
      (hnode : fs.node (parent ++ [name]) = some node) (hfile : node ≠ .dir)
      (hreach : resolve (fs.remove parent name) [] (existing.map .name) = some parent) :
      Remakes fs names parent name

section Entry

variable {existing parent : List ν} {name : ν} {node : Node ν κ} (hnode : fs.node (parent ++ [name]) = some node)
include hnode

omit [DecidableEq ν] in
theorem isDir_of_entry : fs.isDir parent = true := by
  rw [isDir_iff]
  apply fs.parents parent name
  rw [hnode]
  exact Option.some_ne_none node

-- A file or a link is taken away by rm.
theorem rm_entry (hfile : node ≠ .dir)
    (hreach : resolve (fs.remove parent name) [] (existing.map .name) = some parent) :
    rm fs [] ((existing ++ [name]).map .name) = fs.remove parent name := by
  obtain ⟨left, hwalk⟩ := walks_of_resolve hreach
  have hresolve := resolve_of_walks (hwalk.extends (remove_extends parent name)) rfl
  have hlocated := locate_eq name hresolve (isDir_of_entry hnode)
  rw [List.map_append, List.map_singleton]
  cases node with
  | dir => exact absurd rfl hfile
  | file content => simp only [rm, hlocated, hnode]
  | link target => simp only [rm, hlocated, hnode]

end Entry

-- What rm leaves is the same but for the entry, and mkdir -p makes the path there.
theorem Remakes.rm_frame {names parent : List ν} {name : ν} (h : Remakes fs names parent name) {place : List ν}
    (hplace : place ≠ parent ++ [name]) : (rm fs [] (names.map .name)).node place = fs.node place := by
  cases h with
  | kept h => rw [h.rm]
  | entry existing _ _ node hnames hnode hfile hreach =>
      rw [hnames, rm_entry hnode hfile hreach]
      by_cases hbelow : parent ++ [name] <+: place
      · obtain ⟨below, rfl⟩ := hbelow
        rw [remove_below (List.prefix_append _ _), node_below_none]
        · rw [hnode]
          exact fun hdir => hfile (Option.some.inj hdir)
        · rintro rfl
          exact hplace (List.append_nil _)
      · exact remove_other hbelow

theorem Remakes.makes {names parent : List ν} {name : ν} (h : Remakes fs names parent name) :
    Makes (rm fs [] (names.map .name)) names parent name := by
  cases h with
  | kept h =>
      rw [h.rm]
      exact h
  | entry existing _ _ node hnames hnode hfile hreach =>
      have hdir : (fs.remove parent name).isDir parent = true := by
        rw [isDir_iff, remove_other (entry_not_above parent name)]
        exact fs.isDir_iff.mp (isDir_of_entry hnode)
      have hfree : ∀ first ∈ ([] ++ [name]).head?, (fs.remove parent name).node (parent ++ [first]) = none := by
        intro first hfirst
        cases hfirst
        exact remove_below List.prefix_rfl
      have hmakes := Makes.missing existing [] name parent hnames hreach hdir hfree
      rw [List.append_nil] at hmakes
      rw [hnames, rm_entry hnode hfile hreach, ← hnames]
      exact hmakes

end Rm

end MesosPoc.FileSystem
