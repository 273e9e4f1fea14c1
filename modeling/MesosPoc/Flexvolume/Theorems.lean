import MesosPoc.Flexvolume.Paths
import MesosPoc.FileSystem.Commands
import MesosPoc.Machine

namespace MesosPoc.Flexvolume

open FileSystem

variable {κ : Type} {fs : FileSystem Str κ}

-- The name of the link that ln makes.
def test : Str := "test".toList

theorem fields_args (path : MountPath) (params : List Str) :
    (path.text :: params).flatMap Shell.fields = path.text :: params.flatMap Shell.fields := by
  rw [List.flatMap_cons, fields_text]
  rfl

theorem main_mount (fs : FileSystem Str κ) (cwd : List Str) (path : MountPath) (params : List Str) :
    main fs cwd ("mount".toList :: path.text :: params) =
      ⟨0, success, (rmFr (mkdirs fs [] path.components) [] path.components).put cwd test
        (.link { absolute := true, components := volume.map .name })⟩ := by
  have hmain : main fs cwd ("mount".toList :: path.text :: params) =
      domount fs cwd ((path.text :: params).flatMap Shell.fields) := rfl
  rw [hmain, fields_args, domount, List.headD_cons, onPath_text, onPath_text]
  rfl

theorem main_unmount (fs : FileSystem Str κ) (cwd : List Str) (path : MountPath) (params : List Str) :
    main fs cwd ("unmount".toList :: path.text :: params) =
      ⟨0, success, mkdirs (rm fs [] path.components) [] path.components⟩ := by
  have hmain : main fs cwd ("unmount".toList :: path.text :: params) =
      unmount fs cwd ((path.text :: params).flatMap Shell.fields) := rfl
  rw [hmain, fields_args, unmount, List.headD_cons, onPath_text, onPath_text]

section Promises

-- Nothing but an entry of a directory, and parents that it had not, has been made or
-- taken away, and nothing of the volume.
structure Untouched (fs fs' : FileSystem Str κ) (entry : List Str) : Prop where
  others : ∀ place, fs'.node place ≠ fs.node place → place <+: entry ∨ entry <+: place
  parents : ∀ place, place <+: entry → place ≠ entry → fs.node place ≠ none → fs'.node place = fs.node place
  volume : ∀ place, volume <+: place → fs'.node place = fs.node place

-- The path leads to the volume.
structure Mounted (fs fs' : FileSystem Str κ) (cwd : List Str) (path : Str) (parent : List Str) (name : Str) :
    Prop where
  located : locate fs' (start cwd path) (components path) = some (parent, name)
  resolved : resolve fs' (start cwd path) (components path) = some volume
  untouched : Untouched fs fs' (parent ++ [name])

-- The path is an empty directory of its own, and none of the volume.
structure Unmounted (fs fs' : FileSystem Str κ) (cwd : List Str) (path : Str) (parent : List Str) (name : Str) :
    Prop where
  located : locate fs' (start cwd path) (components path) = some (parent, name)
  resolved : resolve fs' (start cwd path) (components path) = some (parent ++ [name])
  dir : fs'.node (parent ++ [name]) = some .dir
  empty : ∀ below, fs'.node (parent ++ [name] ++ [below]) = none
  apart : ¬volume <+: parent ++ [name]
  untouched : Untouched fs fs' (parent ++ [name])

inductive Call
  | mount (cwd : List Str) (path : Str) (params : List Str)
  | unmount (cwd : List Str) (path : Str) (params : List Str)

def Call.run (fs : FileSystem Str κ) : Call → Result κ
  | .mount cwd path params => main fs cwd ("mount".toList :: path :: params)
  | .unmount cwd path params => main fs cwd ("unmount".toList :: path :: params)

-- What a call that prints its success promises.
def Call.Kept (fs : FileSystem Str κ) (call : Call) : Prop :=
  (call.run fs).stdout = success →
    match call with
    | .mount cwd path _ => ∃ parent name, Mounted fs (call.run fs).after cwd path parent name
    | .unmount cwd path _ => ∃ parent name, Unmounted fs (call.run fs).after cwd path parent name

-- The entry test of the working directory, outside of the volume and not needed to
-- get there.
structure MeetsMount (fs : FileSystem Str κ) (cwd : List Str) (names parent : List Str) (left : Nat) : Prop where
  dir : fs.isDir cwd = true
  apart : ¬volume <+: cwd ++ [test]
  names : names = parent ++ [test]
  walk : walk (fs.remove cwd test) (maxLinks - 1) [] (parent.map .name) = some (cwd, left)

-- A path that is missing below a directory, or that is a file, a link or an empty
-- directory, outside of the volume.
structure MeetsUnmount (fs : FileSystem Str κ) (names parent : List Str) (name : Str) : Prop where
  remakes : Remakes fs names parent name
  apart : ¬volume <+: parent ++ [name]

def Call.Meets (fs : FileSystem Str κ) : Call → Prop
  | .mount cwd path _ => ∃ plain : MountPath, path = plain.text ∧
      ∃ parent left, MeetsMount fs cwd plain.names parent left
  | .unmount _ path _ => ∃ plain : MountPath, path = plain.text ∧
      ∃ parent name, MeetsUnmount fs plain.names parent name

end Promises

section Mount

-- An entry with the volume's name that the volume is below is the volume.
theorem volume_of_entry {cwd : List Str} (h : cwd ++ [test] <+: volume) : volume <+: cwd ++ [test] := by
  have hlength := h.length_le
  match cwd, h, hlength with
  | [], h, _ => cases (List.cons_prefix_cons.mp h).1
  | [first], h, _ => cases (List.cons_prefix_cons.mp (List.cons_prefix_cons.mp h).2).1
  | [first, second], h, _ => exact (h.eq_of_length rfl) ▸ List.prefix_rfl
  | _ :: _ :: _ :: _, _, hlength =>
      simp only [volume, List.length_append, List.length_cons, List.length_nil] at hlength
      omega

variable {cwd names parent : List Str} {left : Nat}

theorem MeetsMount.walks (h : MeetsMount fs cwd names parent left) :
    Walks (fs.remove cwd test) (maxLinks - 1) [] (parent.map .name) cwd left :=
  walks_of_walk h.walk

theorem mkdirs_mount (h : MeetsMount fs cwd names parent left) :
    Extends fs (mkdirs fs [] (names.map .name)) ∧
      ∀ place, place ≠ cwd ++ [test] → (mkdirs fs [] (names.map .name)).node place = fs.node place := by
  have hwalk := h.walks.extends (remove_extends cwd test)
  rw [h.names, List.map_append, mkdirs_walks _ hwalk (Nat.sub_le _ _) h.dir]
  rcases mkdirs_single test h.dir with hmkdirs | hmkdirs
  · rw [List.map_cons, List.map_nil, hmkdirs]
    exact ⟨fun _ _ => rfl, fun _ _ => rfl⟩
  · rw [List.map_cons, List.map_nil, hmkdirs]
    exact ⟨extends_put cwd test .dir, fun place hne => put_other cwd test .dir hne⟩

theorem locate_mkdirs (h : MeetsMount fs cwd names parent left) :
    locate (mkdirs fs [] (names.map .name)) [] (names.map .name) = some (cwd, test) := by
  obtain ⟨hextends, -⟩ := mkdirs_mount h
  have hwalk := h.walks.extends (remove_extends cwd test)
  have hresolve := resolve_of_walks ((hwalk.extends hextends).more 1) rfl
  rw [h.names, List.map_append] at hresolve hextends ⊢
  exact locate_eq _ hresolve (hextends.isDir h.dir)

-- After mkdir -p and rm -fr the entry is away, and everything else as it was.
theorem rmFr_mount (h : MeetsMount fs cwd names parent left) :
    rmFr (mkdirs fs [] (names.map .name)) [] (names.map .name) = fs.remove cwd test := by
  obtain ⟨-, hothers⟩ := mkdirs_mount h
  rw [rmFr, locate_mkdirs h]
  apply remove_congr
  intro place hentry
  exact hothers place (ne_of_not_below hentry)

theorem isDir_removed (hcwd : fs.isDir cwd = true) : (fs.remove cwd test).isDir cwd = true := by
  rw [isDir_iff] at hcwd ⊢
  rw [remove_other (entry_not_above cwd test), hcwd]

-- The entry replaced by a link to the volume.
def linked (fs : FileSystem Str κ) (cwd : List Str) : FileSystem Str κ :=
  (fs.remove cwd test).put cwd test (.link { absolute := true, components := volume.map .name })

theorem linked_node (hcwd : fs.isDir cwd = true) (place : List Str) :
    (linked fs cwd).node place =
      if place = cwd ++ [test] then some (.link { absolute := true, components := volume.map .name })
      else if cwd ++ [test] <+: place then none else fs.node place := by
  have hfree : (fs.remove cwd test).node (cwd ++ [test]) = none := remove_below List.prefix_rfl
  rw [linked, put_node _ (isDir_removed hcwd) hfree]
  rfl

theorem linked_link (hcwd : fs.isDir cwd = true) :
    (linked fs cwd).node (cwd ++ [test]) = some (.link { absolute := true, components := volume.map .name }) := by
  rw [linked_node hcwd, if_pos rfl]

theorem linked_other (hcwd : fs.isDir cwd = true) {place : List Str} (hapart : ¬cwd ++ [test] <+: place) :
    (linked fs cwd).node place = fs.node place := by
  rw [linked_node hcwd, if_neg (ne_of_not_below hapart), if_neg hapart]

theorem isDir_linked (hcwd : fs.isDir cwd = true) : (linked fs cwd).isDir cwd = true := by
  have hnode := (isDir_iff fs).mp hcwd
  rw [isDir_iff, linked_other hcwd (entry_not_above cwd test), hnode]

theorem entry_apart (hapart : ¬volume <+: cwd ++ [test]) {place : List Str} (hplace : volume <+: place) :
    ¬cwd ++ [test] <+: place := by
  intro h
  rcases List.prefix_or_prefix_of_prefix h hplace with hbelow | hbelow
  · exact hapart (volume_of_entry hbelow)
  · exact hapart hbelow

theorem untouched_linked (hcwd : fs.isDir cwd = true) (hapart : ¬volume <+: cwd ++ [test]) :
    Untouched fs (linked fs cwd) (cwd ++ [test]) where
  others := by
    intro place hchanged
    right
    by_contra hnot
    exact hchanged (linked_other hcwd hnot)
  parents := by
    intro place hparent hne _
    apply linked_other hcwd
    intro h
    exact hne (hparent.eq_of_length_le h.length_le)
  volume := fun place hplace => linked_other hcwd (entry_apart hapart hplace)

theorem walks_linked (h : MeetsMount fs cwd names parent left) :
    Walks (linked fs cwd) maxLinks [] (parent.map .name) cwd (left + 1) :=
  (h.walks.extends (extends_put cwd test _)).more 1

theorem locate_linked (h : MeetsMount fs cwd names parent left) :
    locate (linked fs cwd) [] (names.map .name) = some (cwd, test) := by
  rw [h.names, List.map_append]
  exact locate_eq _ (resolve_of_walks (walks_linked h) rfl) (isDir_linked h.dir)

theorem resolve_linked (h : MeetsMount fs cwd names parent left) (hvolume : fs.isDir volume = true) :
    resolve (linked fs cwd) [] (names.map .name) = some volume := by
  have hvolume' : (linked fs cwd).isDir ([] ++ volume) = true := by
    rw [isDir_iff] at hvolume ⊢
    rw [List.nil_append, linked_other h.dir (entry_apart h.apart List.prefix_rfl), hvolume]
  have hentry : Walks (linked fs cwd) (left + 1) cwd [.name test] volume left := by
    apply Walks.follow (isDir_linked h.dir) (linked_link h.dir)
    rw [List.append_nil]
    exact walks_dirs left hvolume'
  rw [h.names, List.map_append]
  exact resolve_of_walks ((walks_linked h).append hentry) rfl

theorem run_mount {path : MountPath} (params : List Str) (h : MeetsMount fs cwd path.names parent left) :
    (Call.run fs (.mount cwd path.text params)).after = linked fs cwd := by
  rw [Call.run, main_mount, MountPath.components, rmFr_mount h]
  rfl

theorem mounted {path : MountPath} (hvolume : fs.isDir volume = true)
    (h : MeetsMount fs cwd path.names parent left) : Mounted fs (linked fs cwd) cwd path.text cwd test where
  located := by
    rw [start_text, components_text]
    exact locate_linked h
  resolved := by
    rw [start_text, components_text]
    exact resolve_linked h hvolume
  untouched := untouched_linked h.dir h.apart

-- The link without the entry is what the mount had taken away.
theorem remove_linked (hcwd : fs.isDir cwd = true) : (linked fs cwd).remove cwd test = fs.remove cwd test := by
  apply remove_congr
  intro place hentry
  exact linked_other hcwd hentry

-- What has been mounted can be unmounted.
theorem meetsUnmount_linked (h : MeetsMount fs cwd names parent left) :
    MeetsUnmount (linked fs cwd) names cwd test where
  remakes := by
    apply Remakes.entry parent test cwd _ h.names (linked_link h.dir) nofun
    rw [remove_linked h.dir]
    exact resolve_of_walks (h.walks.more 1) rfl
  apart := h.apart

end Mount

section Unmount

variable {names parent : List Str} {name : Str}

theorem untouched_mkdirs (h : MeetsUnmount fs names parent name) :
    Untouched fs (mkdirs (rm fs [] (names.map .name)) [] (names.map .name)) (parent ++ [name]) where
  others := by
    intro place hchanged
    left
    by_cases hentry : place = parent ++ [name]
    · rw [hentry]
    · rw [← h.remakes.rm_frame hentry] at hchanged
      exact (h.remakes.makes.made.frame place hchanged).1
  parents := by
    intro place _ hne hthere
    by_contra hchanged
    rw [← h.remakes.rm_frame hne] at hchanged hthere
    exact hthere (h.remakes.makes.made.frame place hchanged).2
  volume := by
    intro place hplace
    have hne : place ≠ parent ++ [name] := by
      rintro rfl
      exact h.apart hplace
    by_contra hchanged
    rw [← h.remakes.rm_frame hne] at hchanged
    exact h.apart (hplace.trans (h.remakes.makes.made.frame place hchanged).1)

theorem run_unmount (fs : FileSystem Str κ) (cwd : List Str) (path : MountPath) (params : List Str) :
    (Call.run fs (.unmount cwd path.text params)).after = mkdirs (rm fs [] path.components) [] path.components := by
  rw [Call.run, main_unmount]

theorem unmounted {path : MountPath} (cwd : List Str) (h : MeetsUnmount fs path.names parent name) :
    Unmounted fs (mkdirs (rm fs [] path.components) [] path.components) cwd path.text parent name where
  located := by
    rw [start_text, components_text]
    exact h.remakes.makes.made.located
  resolved := by
    rw [start_text, components_text]
    exact h.remakes.makes.made.resolved
  dir := h.remakes.makes.made.dir
  empty := h.remakes.makes.made.empty
  apart := h.apart
  untouched := untouched_mkdirs h

end Unmount

section Runs

theorem isDir_volume {fs' : FileSystem Str κ} {entry : List Str} (h : Untouched fs fs' entry)
    (hvolume : fs.isDir volume = true) : fs'.isDir volume = true := by
  rw [isDir_iff] at hvolume ⊢
  rw [h.volume volume List.prefix_rfl, hvolume]

-- One call, from a state with the volume.
theorem run_meets {call : Call} (hvolume : fs.isDir volume = true) (hmeets : call.Meets fs) :
    call.Kept fs ∧ (call.run fs).after.isDir volume = true := by
  cases call with
  | mount cwd path params =>
      obtain ⟨plain, rfl, parent, left, hmount⟩ := hmeets
      have hmounted := mounted hvolume hmount
      rw [← run_mount params hmount] at hmounted
      exact ⟨fun _ => ⟨cwd, test, hmounted⟩, isDir_volume hmounted.untouched hvolume⟩
  | unmount cwd path params =>
      obtain ⟨plain, rfl, parent, name, hunmount⟩ := hmeets
      have hunmounted := unmounted cwd hunmount
      rw [← run_unmount fs cwd plain params] at hunmounted
      exact ⟨fun _ => ⟨parent, name, hunmounted⟩, isDir_volume hunmounted.untouched hvolume⟩

def step (fs : FileSystem Str κ) (call : Call) : Option (FileSystem Str κ) :=
  some (call.run fs).after

theorem kept_of_reaches {first before : FileSystem Str κ} (hfirst : first.isDir volume = true)
    (hreaches : Machine.Reaches step (fun fs call => call.Meets fs) first before) {call : Call}
    (hmeets : call.Meets before) : call.Kept before := by
  have hvolume : before.isDir volume = true := by
    apply hreaches.invariant (fun fs => fs.isDir volume = true) hfirst
    intro fs call after hvolume hmeets hstep
    rw [← Option.some.inj hstep]
    exact (run_meets hvolume hmeets).2
  exact (run_meets hvolume hmeets).1

-- A host with the volume.
def host : FileSystem Str Unit :=
  mkdirs bare [] (volume.map .name)

def testPath : MountPath where
  names := [test]
  plain := by
    intro name hname
    rw [List.mem_singleton.mp hname]
    decide

theorem meetsMount_host : MeetsMount host [] testPath.names [] 39 :=
  ⟨by decide, by decide, rfl, rfl⟩

-- Mounted and unmounted again.
theorem test_unmounted :
    host.isDir volume = true ∧
      (Call.unmount [] testPath.text []).Kept (Call.run host (.mount [] testPath.text [])).after := by
  have hvolume : host.isDir volume = true := by decide
  have hmeets : Call.Meets host (.mount [] testPath.text []) := ⟨testPath, rfl, [], 39, meetsMount_host⟩
  refine ⟨hvolume, ?_⟩
  apply kept_of_reaches hvolume ((Machine.Reaches.refl host).tail _ hmeets rfl)
  rw [run_mount [] meetsMount_host]
  exact ⟨testPath, rfl, [], test, meetsUnmount_linked meetsMount_host⟩

def podPath : MountPath where
  names := ["pod".toList]
  plain := by
    intro name hname
    rw [List.mem_singleton.mp hname]
    decide

-- The link is made in the working directory, and the path is away.
theorem pod_not_mounted :
    host.isDir volume = true ∧ (Call.run host (.mount [] podPath.text [])).stdout = success ∧
      (Call.run host (.mount [] podPath.text [])).after.node podPath.names = none ∧
      (Call.run host (.mount [] podPath.text [])).after.node [test] =
        some (.link { absolute := true, components := volume.map .name }) ∧
      ¬(Call.mount [] podPath.text []).Kept host := by
  rw [Call.run, main_mount]
  refine ⟨by decide, rfl, rfl, rfl, ?_⟩
  intro hkept
  obtain ⟨parent, name, hmounted⟩ := hkept (by rw [Call.run, main_mount])
  have hresolved := hmounted.resolved
  rw [Call.run, main_mount, start_text, components_text] at hresolved
  cases hresolved

end Runs

end MesosPoc.Flexvolume
