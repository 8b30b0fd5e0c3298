/-
**Paths and file trees with symbolic links.**

Absolute paths as lists of names, path texts cut at slashes, and how a system follows a path: from the
root, name by name, with the target of a link in the place of its name.

* `walk_append` — a path is followed by following its front, and then the rest from where that leads.

A tree is any assignment of entries to places in which what is above an entry is a directory. Following
gives up after `limit` links. Rights are not in the model.
-/

import Mathlib.Data.List.Infix

namespace FileTree

abbrev PathText := List Char

def Nameable (chars : PathText) : Prop :=
  chars ≠ [] ∧ chars ≠ ['.'] ∧ chars ≠ ['.', '.'] ∧ '/' ∉ chars

instance (chars : PathText) : Decidable (Nameable chars) :=
  inferInstanceAs (Decidable (_ ∧ _ ∧ _ ∧ _))

structure Name where
  chars : PathText
  valid : Nameable chars
  deriving DecidableEq

/-- An absolute path without `.` and `..`, from the root. -/
abbrev Path := List Name

/-- What stands between slashes. -/
inductive Segment where
  | here
  | up
  | name (entry : Name)
  deriving DecidableEq

def segment (chars : PathText) : Segment :=
  if valid : Nameable chars then .name ⟨chars, valid⟩
  else if chars = ['.', '.'] then .up
  else .here

def segments (text : PathText) : List Segment := (text.splitOn '/').map segment

def isAbsolute (text : PathText) : Bool := text.head? == some '/'

def Segment.apply (path : Path) : Segment → Path
  | .here => path
  | .up => path.dropLast
  | .name entry => path ++ [entry]

/-- **Resolve a path text** from a directory, without a look at the tree. -/
def resolve (directory : Path) (text : PathText) : Path :=
  (segments text).foldl Segment.apply (if isAbsolute text then [] else directory)

def pathText (path : Path) : PathText := '/' :: List.intercalate ['/'] (path.map Name.chars)

inductive Entry where
  | directory
  | file
  | link (target : PathText)
  deriving DecidableEq

/-- **A file tree**: the entries, each in a directory. -/
structure Tree where
  entry : Path → Option Entry
  root : entry [] = some .directory
  parent : ∀ place name, (entry (place ++ [name])).isSome → entry place = some .directory

/-- Where a path leads. A missing entry has its place, in a directory. -/
inductive Outcome where
  | found (place : Path) (links : Nat)
  | missing (place : Path)
  | failed
  deriving DecidableEq

/-- Follow segments from a directory, with what is done at a link. -/
def walkWith (tree : Tree) (links : Nat) (follow : Path → PathText → List Segment → Outcome)
    (place : Path) : List Segment → Outcome
  | [] => .found place links
  | .here :: rest => walkWith tree links follow place rest
  | .up :: rest => walkWith tree links follow place.dropLast rest
  | .name name :: rest =>
    match tree.entry (place ++ [name]) with
    | none => if rest = [] then .missing (place ++ [name]) else .failed
    | some .directory => walkWith tree links follow (place ++ [name]) rest
    | some .file => if rest = [] then .found (place ++ [name]) links else .failed
    | some (.link target) => follow place target rest

/-- **Follow segments from a directory**, over at most `links` links. -/
def walk (tree : Tree) : Nat → Path → List Segment → Outcome
  | 0 => walkWith tree 0 fun _ _ _ => .failed
  | links + 1 => walkWith tree (links + 1) fun place target rest =>
    walk tree links (if isAbsolute target then [] else place) (segments target ++ rest)

/-- Go on from where a path leads. -/
def Outcome.andThen (tree : Tree) (rest : List Segment) : Outcome → Outcome
  | .found place links =>
    if rest = [] then .found place links
    else if tree.entry place = some .directory then walk tree links place rest
    else .failed
  | .missing place => if rest = [] then .missing place else .failed
  | .failed => .failed

def follow (tree : Tree) (limit : Nat) (path : Path) : Outcome :=
  walk tree limit [] (path.map .name)

/-- **The place that opening or creating a path reaches.** -/
def reaches (tree : Tree) (limit : Nat) (path : Path) : Option Path :=
  match follow tree limit path with
  | .found place _ => some place
  | .missing place => some place
  | .failed => none

def realpath (tree : Tree) (limit : Nat) (path : Path) : Option Path :=
  match follow tree limit path with
  | .found place _ => some place
  | _ => none

section

variable {tree : Tree}

theorem andThen_nil (outcome : Outcome) : outcome.andThen tree [] = outcome := by
  cases outcome <;> rfl

section

variable {links : Nat} {go : Path → PathText → List Segment → Outcome} {place : Path} {name : Name}
  {rest : List Segment}

theorem walkWith_missing (entry : tree.entry (place ++ [name]) = none) :
    walkWith tree links go place (.name name :: rest)
      = if rest = [] then .missing (place ++ [name]) else .failed := by
  rw [walkWith.eq_def]
  simp only [entry]

theorem walkWith_directory (entry : tree.entry (place ++ [name]) = some .directory) :
    walkWith tree links go place (.name name :: rest)
      = walkWith tree links go (place ++ [name]) rest := by
  rw [walkWith.eq_def]
  simp only [entry]

theorem walkWith_file (entry : tree.entry (place ++ [name]) = some .file) :
    walkWith tree links go place (.name name :: rest)
      = if rest = [] then .found (place ++ [name]) links else .failed := by
  rw [walkWith.eq_def]
  simp only [entry]

theorem walkWith_link {target : PathText} (entry : tree.entry (place ++ [name]) = some (.link target)) :
    walkWith tree links go place (.name name :: rest) = go place target rest := by
  rw [walkWith.eq_def]
  simp only [entry]

end

theorem andThen_end {outcome : Outcome}
    (ends : ∀ rest : List Segment, rest ≠ [] → outcome.andThen tree rest = .failed)
    (front rest : List Segment) :
    (if front ++ rest = [] then outcome else .failed)
      = Outcome.andThen tree rest (if front = [] then outcome else .failed) := by
  by_cases empty : rest = []
  · rw [empty, List.append_nil, andThen_nil]
  · have some : front ++ rest ≠ [] := fun none => empty (List.append_eq_nil_iff.mp none).2
    rw [if_neg some]
    split
    · exact (ends rest empty).symm
    · rfl

theorem directory_dropLast {place : Path} (directory : tree.entry place = some .directory) :
    tree.entry place.dropLast = some .directory := by
  rcases List.eq_nil_or_concat place with empty | ⟨above, name, whole⟩
  · rw [empty]
    exact tree.root
  · rw [whole] at directory ⊢
    rw [List.concat_eq_append] at directory ⊢
    rw [List.dropLast_concat]
    exact tree.parent above name (directory ▸ rfl)

theorem walkWith_append {links : Nat} {go : Path → PathText → List Segment → Outcome}
    (same : walk tree links = walkWith tree links go)
    (later : ∀ {place : Path}, tree.entry place = some .directory → ∀ target front rest,
      go place target (front ++ rest) = (go place target front).andThen tree rest)
    (front rest : List Segment) : ∀ {place : Path}, tree.entry place = some .directory →
      walkWith tree links go place (front ++ rest)
        = (walkWith tree links go place front).andThen tree rest := by
  induction front with
  | nil =>
    intro place directory
    by_cases empty : rest = []
    · subst empty
      exact (andThen_nil _).symm
    · rw [List.nil_append, ← same, show walk tree links place [] = .found place links from
        congrFun (congrFun same place) [], Outcome.andThen, if_neg empty, if_pos directory]
  | cons segment front ih =>
    intro place directory
    cases segment with
    | here => exact ih directory
    | up => exact ih (directory_dropLast directory)
    | name name =>
      rw [List.cons_append]
      cases entry : tree.entry (place ++ [name]) with
      | none =>
        rw [walkWith_missing entry, walkWith_missing entry]
        refine andThen_end (fun rest some => ?_) front rest
        rw [Outcome.andThen, if_neg some]
      | some found =>
        cases found with
        | directory =>
          rw [walkWith_directory entry, walkWith_directory entry]
          exact ih entry
        | file =>
          rw [walkWith_file entry, walkWith_file entry]
          have plain : tree.entry (place ++ [name]) ≠ some .directory := by
            rw [entry]
            exact nofun
          refine andThen_end (fun rest some => ?_) front rest
          rw [Outcome.andThen, if_neg some, if_neg plain]
        | link target =>
          rw [walkWith_link entry, walkWith_link entry]
          exact later directory target front rest

/-- **Following a path** is following its front, and then the rest from where that leads. -/
theorem walk_append (links : Nat) : ∀ {place : Path}, tree.entry place = some .directory →
    ∀ front rest : List Segment,
      walk tree links place (front ++ rest) = (walk tree links place front).andThen tree rest := by
  induction links with
  | zero =>
    intro place directory front rest
    exact walkWith_append rfl (fun _ _ _ _ => rfl) front rest directory
  | succ links ih =>
    intro place directory front rest
    refine walkWith_append rfl (fun {place} directory target front rest => ?_) front rest directory
    have start : tree.entry (if isAbsolute target then [] else place) = some .directory := by
      split
      · exact tree.root
      · exact directory
    rw [← List.append_assoc]
    exact ih start (segments target ++ front) rest

theorem follow_concat (limit : Nat) (above : Path) (name : Name) :
    follow tree limit (above ++ [name]) = (follow tree limit above).andThen tree [.name name] := by
  rw [follow, List.map_append]
  exact walk_append limit tree.root _ _

theorem walk_name (links : Nat) (place : Path) (name : Name) :
    (tree.entry (place ++ [name]) = none ∧
        walk tree links place [.name name] = .missing (place ++ [name])) ∨
      (∃ target, tree.entry (place ++ [name]) = some (.link target)) ∨
      walk tree links place [.name name] = .found (place ++ [name]) links := by
  have step : ∀ go, walkWith tree links go place [.name name]
      = match tree.entry (place ++ [name]) with
        | none => .missing (place ++ [name])
        | some .directory | some .file => .found (place ++ [name]) links
        | some (.link target) => go place target [] := fun go => rfl
  have one : ∃ go, walk tree links = walkWith tree links go := by
    cases links with
    | zero | succ links => exact ⟨_, rfl⟩
  obtain ⟨go, same⟩ := one
  rw [same, step]
  cases tree.entry (place ++ [name]) with
  | none => exact Or.inl ⟨rfl, rfl⟩
  | some found =>
    cases found with
    | directory | file => exact Or.inr (Or.inr rfl)
    | link target => exact Or.inr (Or.inl ⟨target, rfl⟩)

theorem realpath_eq_some {limit : Nat} {path place : Path} :
    realpath tree limit path = some place ↔ ∃ links, follow tree limit path = .found place links := by
  rw [realpath]
  split
  · rename_i other links led
    rw [led]
    exact ⟨fun same => ⟨links, congrArg (Outcome.found · links) (Option.some.inj same)⟩,
      fun ⟨_, same⟩ => congrArg some (Outcome.found.inj same).1⟩
  · rename_i apart
    exact ⟨nofun, fun ⟨links, led⟩ => absurd led (apart place links)⟩

theorem reaches_eq_some {limit : Nat} {path place : Path} : reaches tree limit path = some place ↔
      realpath tree limit path = some place ∨ follow tree limit path = .missing place := by
  rw [reaches, realpath]
  split
  · rename_i other links led
    rw [led]
    exact ⟨Or.inl, fun either => either.elim id nofun⟩
  · rename_i other led
    rw [led]
    exact ⟨fun same => Or.inr (congrArg Outcome.missing (Option.some.inj same)),
      fun either => either.elim nofun fun same => congrArg some (Outcome.missing.inj same)⟩
  · rename_i led
    rw [led]
    exact ⟨nofun, fun either => either.elim id nofun⟩

end

end FileTree
