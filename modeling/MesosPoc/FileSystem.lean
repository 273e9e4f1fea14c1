import Mathlib.Data.List.Infix

namespace MesosPoc

-- A component of a path, or of the target of a link.
inductive Component (ν : Type)
  | parent
  | name (name : ν)
deriving DecidableEq

structure Target (ν : Type) where
  absolute : Bool
  components : List (Component ν)
deriving DecidableEq

inductive Node (ν κ : Type)
  | dir
  | file (content : κ)
  | link (target : Target ν)

-- What there is at each place. A place is the list of the names that lead to it from
-- the root, through directories only.
@[ext] structure FileSystem (ν κ : Type) where
  node : List ν → Option (Node ν κ)
  root : node [] = some .dir
  parents : ∀ place name, node (place ++ [name]) ≠ none → node place = some .dir

namespace FileSystem

variable {ν κ : Type} [DecidableEq ν] (fs : FileSystem ν κ)

def isDir (place : List ν) : Bool :=
  match fs.node place with
  | some .dir => true
  | _ => false

omit [DecidableEq ν] in
theorem isDir_iff {place : List ν} : fs.isDir place = true ↔ fs.node place = some .dir := by
  unfold isDir
  split <;> simp_all

-- Nothing but the root.
def bare : FileSystem ν κ where
  node place := if place = [] then some .dir else none
  root := if_pos rfl
  parents := by
    intro place name h
    rw [if_neg (by simp)] at h
    exact absurd rfl h

section Changes

variable (place : List ν) (name : ν)

-- A new entry of a directory.
def put (node : Node ν κ) : FileSystem ν κ :=
  if h : fs.isDir place = true ∧ (fs.node (place ++ [name])).isNone = true then
    { node := fun place' => if place' = place ++ [name] then some node else fs.node place'
      root := by
        rw [if_neg (by simp)]
        exact fs.root
      parents := by
        intro place' name' hnode
        have hplace : place' ≠ place ++ [name] := by
          rintro rfl
          rw [if_neg (by simp)] at hnode
          rw [Option.isNone_iff_eq_none] at h
          have hdir := fs.parents _ name' hnode
          rw [h.2] at hdir
          cases hdir
        rw [if_neg hplace]
        by_cases hsame : place' ++ [name'] = place ++ [name]
        · rw [(List.append_inj' hsame rfl).1]
          exact fs.isDir_iff.mp h.1
        · rw [if_neg hsame] at hnode
          exact fs.parents place' name' hnode }
  else fs

-- An entry of a directory is taken away, with all that is below it.
def remove : FileSystem ν κ where
  node place' := if place ++ [name] <+: place' then none else fs.node place'
  root := by
    rw [if_neg (by simp)]
    exact fs.root
  parents := by
    intro place' name' h
    have hnot : ¬place ++ [name] <+: place' ++ [name'] := fun hbelow => h (if_pos hbelow)
    have hnot' : ¬place ++ [name] <+: place' := fun hbelow => hnot (hbelow.trans (List.prefix_append _ _))
    rw [if_neg hnot] at h
    rw [if_neg hnot']
    exact fs.parents place' name' h

end Changes

section Paths

-- The place that a path leads to from a place, and how many links may still be
-- followed. What a link leads to is left to follow.
def walkWith (follow : List ν → List (Component ν) → Option (List ν × Nat)) (links : Nat) :
    List ν → List (Component ν) → Option (List ν × Nat)
  | place, [] => some (place, links)
  | place, .parent :: rest =>
      if fs.isDir place then walkWith follow links place.dropLast rest else none
  | place, .name name :: rest =>
      if fs.isDir place then
        match fs.node (place ++ [name]) with
        | none => none
        | some (.link target) => follow (if target.absolute then [] else place) (target.components ++ rest)
        | some _ => walkWith follow links (place ++ [name]) rest
      else none

def walk : Nat → List ν → List (Component ν) → Option (List ν × Nat)
  | 0 => walkWith fs (fun _ _ => none) 0
  | links + 1 => walkWith fs (walk links) (links + 1)

-- How many links the system follows before it gives up.
def maxLinks : Nat := 40

def resolve (place : List ν) (path : List (Component ν)) : Option (List ν) :=
  (walk fs maxLinks place path).map Prod.fst

-- The directory and the name of the entry that a path is about.
def locate (place : List ν) (path : List (Component ν)) : Option (List ν × ν) :=
  match path.getLast? with
  | some (.name name) =>
      match resolve fs place path.dropLast with
      | some parent => if fs.isDir parent then some (parent, name) else none
      | none => none
  | _ => none

end Paths

section Commands

-- mkdir -p
def mkdirs (fs : FileSystem ν κ) (place : List ν) : List (Component ν) → FileSystem ν κ
  | [] => fs
  | .parent :: rest => if fs.isDir place then mkdirs fs place.dropLast rest else fs
  | .name name :: rest =>
      if fs.isDir place then
        match fs.node (place ++ [name]) with
        | none => mkdirs (fs.put place name .dir) (place ++ [name]) rest
        | some (.link _) =>
            match resolve fs place [.name name] with
            | some next => if fs.isDir next then mkdirs fs next rest else fs
            | none => fs
        | some _ => mkdirs fs (place ++ [name]) rest
      else fs

-- rm
def rm (place : List ν) (path : List (Component ν)) : FileSystem ν κ :=
  match locate fs place path with
  | some (parent, name) =>
      match fs.node (parent ++ [name]) with
      | some (.file _) => fs.remove parent name
      | some (.link _) => fs.remove parent name
      | _ => fs
  | none => fs

-- rm -fr
def rmFr (place : List ν) (path : List (Component ν)) : FileSystem ν κ :=
  match locate fs place path with
  | some (parent, name) => fs.remove parent name
  | none => fs

end Commands

end FileSystem

end MesosPoc
