import MesosPoc.FileSystem

namespace MesosPoc.FileSystem

variable {ν κ : Type} {fs fs' : FileSystem ν κ}

def linkStart (target : Target ν) (place : List ν) : List ν :=
  if target.absolute then [] else place

-- A walk of a path that ends somewhere, step by step.
inductive Walks (fs : FileSystem ν κ) : Nat → List ν → List (Component ν) → List ν → Nat → Prop
  | here (links : Nat) (place : List ν) : Walks fs links place [] place links
  | up {links left : Nat} {place last : List ν} {rest : List (Component ν)} (hdir : fs.isDir place = true)
      (h : Walks fs links place.dropLast rest last left) : Walks fs links place (.parent :: rest) last left
  | down {links left : Nat} {place last : List ν} {name : ν} {rest : List (Component ν)} {node : Node ν κ}
      (hdir : fs.isDir place = true) (hnode : fs.node (place ++ [name]) = some node)
      (hlink : ∀ target, node ≠ .link target) (h : Walks fs links (place ++ [name]) rest last left) :
      Walks fs links place (.name name :: rest) last left
  | follow {links left : Nat} {place last : List ν} {name : ν} {rest : List (Component ν)} {target : Target ν}
      (hdir : fs.isDir place = true) (hnode : fs.node (place ++ [name]) = some (.link target))
      (h : Walks fs links (linkStart target place) (target.components ++ rest) last left) :
      Walks fs (links + 1) place (.name name :: rest) last left

section Walk

theorem walk_nil (links : Nat) (place : List ν) : walk fs links place [] = some (place, links) := by
  cases links <;> rfl

theorem walk_parent (links : Nat) (place : List ν) (rest : List (Component ν)) :
    walk fs links place (.parent :: rest) = if fs.isDir place then walk fs links place.dropLast rest else none := by
  cases links <;> rfl

theorem walk_name {links : Nat} {place : List ν} {name : ν} {node : Node ν κ} (rest : List (Component ν))
    (hdir : fs.isDir place = true) (hnode : fs.node (place ++ [name]) = some node)
    (hlink : ∀ target, node ≠ .link target) :
    walk fs links place (.name name :: rest) = walk fs links (place ++ [name]) rest := by
  cases node with
  | link target => exact absurd rfl (hlink target)
  | dir => cases links <;> simp only [walk, walkWith, hdir, hnode, if_true]
  | file content => cases links <;> simp only [walk, walkWith, hdir, hnode, if_true]

theorem walk_link {links : Nat} {place : List ν} {name : ν} {target : Target ν} (rest : List (Component ν))
    (hdir : fs.isDir place = true) (hnode : fs.node (place ++ [name]) = some (.link target)) :
    walk fs (links + 1) place (.name name :: rest) =
      walk fs links (linkStart target place) (target.components ++ rest) := by
  simp only [walk, walkWith, hdir, hnode, if_true]
  rfl

theorem walk_of_walks {links left : Nat} {place last : List ν} {path : List (Component ν)}
    (h : Walks fs links place path last left) : walk fs links place path = some (last, left) := by
  induction h with
  | here links place => exact walk_nil links place
  | up hdir _ ih => rw [walk_parent, if_pos hdir, ih]
  | down hdir hnode hlink _ ih => rw [walk_name _ hdir hnode hlink, ih]
  | follow hdir hnode _ ih => rw [walk_link _ hdir hnode, ih]

theorem resolve_of_walks {links left : Nat} {place last : List ν} {path : List (Component ν)}
    (h : Walks fs links place path last left) (hlinks : links = maxLinks) : resolve fs place path = some last := by
  rw [resolve, ← hlinks, walk_of_walks h]
  rfl

-- What the first step of a walk that ends somewhere has been.
theorem walk_name_cases {links : Nat} {place : List ν} {name : ν} {rest : List (Component ν)} {result : List ν × Nat}
    (h : walk fs links place (.name name :: rest) = some result) :
    fs.isDir place = true ∧ ∃ node, fs.node (place ++ [name]) = some node ∧
      ((∀ target, node ≠ .link target) ∧ walk fs links (place ++ [name]) rest = some result ∨
        ∃ target fewer, node = .link target ∧ links = fewer + 1 ∧
          walk fs fewer (linkStart target place) (target.components ++ rest) = some result) := by
  by_cases hdir : fs.isDir place = true
  · refine ⟨hdir, ?_⟩
    cases hnode : fs.node (place ++ [name]) with
    | none => cases links <;> simp [walk, walkWith, hdir, hnode] at h
    | some node =>
        refine ⟨node, rfl, ?_⟩
        cases node with
        | link target =>
            cases links with
            | zero => simp [walk, walkWith, hdir, hnode] at h
            | succ fewer =>
                rw [walk_link rest hdir hnode] at h
                exact .inr ⟨target, fewer, rfl, rfl, h⟩
        | dir =>
            rw [walk_name rest hdir hnode nofun] at h
            exact .inl ⟨nofun, h⟩
        | file content =>
            rw [walk_name rest hdir hnode nofun] at h
            exact .inl ⟨nofun, h⟩
  · cases links <;> simp [walk, walkWith, hdir] at h

theorem walks_of_walk {links left : Nat} {place last : List ν} {path : List (Component ν)}
    (h : walk fs links place path = some (last, left)) : Walks fs links place path last left := by
  induction links using Nat.strongRecOn generalizing place path with
  | ind links ihlinks =>
      induction path generalizing place with
      | nil =>
          rw [walk_nil] at h
          cases h
          exact .here _ _
      | cons component rest ih =>
          cases component with
          | parent =>
              rw [walk_parent] at h
              split at h
              next hdir => exact .up hdir (ih h)
              next => cases h
          | name name =>
              obtain ⟨hdir, node, hnode, hstep⟩ := walk_name_cases h
              rcases hstep with ⟨hlink, hrest⟩ | ⟨target, fewer, rfl, rfl, hrest⟩
              · exact .down hdir hnode hlink (ih hrest)
              · exact .follow hdir hnode (ihlinks fewer (Nat.lt_succ_self fewer) hrest)

theorem walks_of_resolve {place last : List ν} {path : List (Component ν)} (h : resolve fs place path = some last) :
    ∃ left, Walks fs maxLinks place path last left := by
  obtain ⟨⟨last', left⟩, hwalk, rfl⟩ := Option.map_eq_some_iff.mp h
  exact ⟨left, walks_of_walk hwalk⟩

end Walk

section Walks

theorem Walks.append {links left left' : Nat} {place last last' : List ν} {first second : List (Component ν)}
    (hfirst : Walks fs links place first last left) (hsecond : Walks fs left last second last' left') :
    Walks fs links place (first ++ second) last' left' := by
  induction hfirst with
  | here => exact hsecond
  | up hdir _ ih => exact .up hdir (ih hsecond)
  | down hdir hnode hlink _ ih => exact .down hdir hnode hlink (ih hsecond)
  | follow hdir hnode _ ih =>
      have hrest := ih hsecond
      rw [List.append_assoc] at hrest
      exact .follow hdir hnode hrest

theorem Walks.split {links left : Nat} {place last : List ν} {first second : List (Component ν)}
    (h : Walks fs links place (first ++ second) last left) :
    ∃ between most, Walks fs links place first between most ∧ Walks fs most between second last left := by
  generalize hpath : first ++ second = path at h
  induction h generalizing first with
  | here links place =>
      obtain ⟨rfl, rfl⟩ := List.append_eq_nil_iff.mp hpath
      exact ⟨place, links, .here _ _, .here _ _⟩
  | up hdir hrest ih =>
      cases first with
      | nil =>
          rw [List.nil_append] at hpath
          exact ⟨_, _, .here _ _, hpath ▸ .up hdir hrest⟩
      | cons component first =>
          obtain ⟨rfl, hrest'⟩ := List.cons.inj hpath
          obtain ⟨between, most, hbefore, hafter⟩ := ih hrest'
          exact ⟨between, most, .up hdir hbefore, hafter⟩
  | down hdir hnode hlink hrest ih =>
      cases first with
      | nil =>
          rw [List.nil_append] at hpath
          exact ⟨_, _, .here _ _, hpath ▸ .down hdir hnode hlink hrest⟩
      | cons component first =>
          obtain ⟨rfl, hrest'⟩ := List.cons.inj hpath
          obtain ⟨between, most, hbefore, hafter⟩ := ih hrest'
          exact ⟨between, most, .down hdir hnode hlink hbefore, hafter⟩
  | follow hdir hnode hrest ih =>
      cases first with
      | nil =>
          rw [List.nil_append] at hpath
          exact ⟨_, _, .here _ _, hpath ▸ .follow hdir hnode hrest⟩
      | cons component first =>
          obtain ⟨rfl, rfl⟩ := List.cons.inj hpath
          obtain ⟨between, most, hbefore, hafter⟩ := ih (List.append_assoc _ _ _)
          exact ⟨between, most, .follow hdir hnode hbefore, hafter⟩

theorem Walks.left_le {links left : Nat} {place last : List ν} {path : List (Component ν)}
    (h : Walks fs links place path last left) : left ≤ links := by
  induction h with
  | here => exact le_refl _
  | up _ _ ih => exact ih
  | down _ _ _ _ ih => exact ih
  | follow _ _ _ ih => exact Nat.le_succ_of_le ih

theorem Walks.more {links left : Nat} {place last : List ν} {path : List (Component ν)}
    (h : Walks fs links place path last left) (extra : Nat) :
    Walks fs (links + extra) place path last (left + extra) := by
  induction h with
  | here => exact .here _ _
  | up hdir _ ih => exact .up hdir ih
  | down hdir hnode hlink _ ih => exact .down hdir hnode hlink ih
  | follow hdir hnode _ ih =>
      rw [Nat.add_right_comm]
      exact .follow hdir hnode ih

-- What has been there is still there.
def Extends (fs fs' : FileSystem ν κ) : Prop :=
  ∀ place, fs.node place ≠ none → fs'.node place = fs.node place

theorem Extends.isDir (h : Extends fs fs') {place : List ν} (hdir : fs.isDir place = true) :
    fs'.isDir place = true := by
  rw [isDir_iff] at hdir ⊢
  rw [h place (by rw [hdir]; exact Option.some_ne_none _), hdir]

theorem Extends.node (h : Extends fs fs') {place : List ν} {node : Node ν κ} (hnode : fs.node place = some node) :
    fs'.node place = some node := by
  rw [h place (by rw [hnode]; exact Option.some_ne_none _), hnode]

theorem Walks.extends (h : Extends fs fs') {links left : Nat} {place last : List ν} {path : List (Component ν)}
    (hwalk : Walks fs links place path last left) : Walks fs' links place path last left := by
  induction hwalk with
  | here => exact .here _ _
  | up hdir _ ih => exact .up (h.isDir hdir) ih
  | down hdir hnode hlink _ ih => exact .down (h.isDir hdir) (h.node hnode) hlink ih
  | follow hdir hnode _ ih => exact .follow (h.isDir hdir) (h.node hnode) ih

-- The names of a directory lead to it through directories.
theorem isDir_of_append {place names : List ν} (h : fs.isDir (place ++ names) = true) : fs.isDir place = true := by
  induction names using List.reverseRecOn with
  | nil => rwa [List.append_nil] at h
  | append_singleton names name ih =>
      rw [← List.append_assoc, isDir_iff] at h
      apply ih
      rw [isDir_iff]
      exact fs.parents _ name (by rw [h]; exact Option.some_ne_none _)

theorem walks_dirs (links : Nat) {place names : List ν} (h : fs.isDir (place ++ names) = true) :
    Walks fs links place (names.map .name) (place ++ names) links := by
  induction names generalizing place with
  | nil =>
      rw [List.append_nil]
      exact .here links place
  | cons name names ih =>
      have hsplit : place ++ name :: names = place ++ [name] ++ names := by
        rw [List.append_assoc, List.singleton_append]
      rw [hsplit] at h ⊢
      have hnode := fs.isDir_iff.mp (isDir_of_append h)
      exact .down (isDir_of_append (isDir_of_append h)) hnode (fun _ => nofun) (ih h)

end Walks

end MesosPoc.FileSystem
