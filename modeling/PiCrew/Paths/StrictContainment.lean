/-
**Containment without links.**

`resolveRealContainedPath` of `utils/safe-paths.ts` opens each component of a path with `O_NOFOLLOW`, so none of
them is a link, and the path it returns is where it leads. A missing base is made first.

* `base_real` — the real path of a base that was made is its canonical form of before;
* `strictly_contained` — what is returned has no link and lies in the base, and what is accepted;
* `rejects_inside` — paths in a base without links that are refused.

On macOS the links `/var`, `/tmp` and `/etc` of the system are let through; this is not in the model.
-/

import PiCrew.Paths.Containment

namespace PiCrew.Paths

open FileTree

section

/-- The errors that are told apart. A loop of links in front of the last name is with the missing ones: it is
refused as they are, or found before. -/
inductive FsError where
  | enoent
  | eloop
  | enotdir
  deriving DecidableEq, Repr

variable (tree : Tree) (limit : Nat) (cwd : Path)

def failure (start : Path) (segments : List Segment) : FsError :=
  if segments.inits.any fun front =>
      match walk tree limit start front with
      | .found place _ => tree.entry place = some .file
      | _ => false
  then .enotdir else .enoent

/-- `fs.openSync` with `O_RDONLY | O_NOFOLLOW`: the last name may not be a link. -/
def openNoFollow (start : Path) (segments : List Segment) : Except FsError Entry :=
  match segments.getLast? with
  | some (.name name) =>
    match walk tree limit start segments.dropLast with
    | .found place _ =>
      if tree.entry place = some .directory then
        match tree.entry (place ++ [name]) with
        | none => .error .enoent
        | some (.link _) => .error .eloop
        | some entry => .ok entry
      else .error .enotdir
    | _ => .error (failure tree limit start segments.dropLast)
  | _ =>
    match walk tree limit start segments with
    | .found place _ => if tree.entry place = some .directory then .ok .directory else .ok .file
    | _ => .error (failure tree limit start segments)

def openPath (path : Path) : Except FsError Entry := openNoFollow tree limit [] (path.map .name)

/-- `mkdir`, of a missing name in a directory. -/
def makeDirectory (made : Path) : Tree where
  entry place :=
    if place = made ∧ tree.entry made = none ∧ tree.entry made.dropLast = some .directory then some .directory
    else tree.entry place
  root := by
    split
    · rfl
    · exact tree.root
  parent place name some := by
    split at some
    case isTrue new =>
      obtain ⟨rfl, missing, above⟩ := new
      rw [List.dropLast_concat] at above
      rw [if_neg fun same => List.append_right_eq_self.not.mpr (List.cons_ne_nil name []) same.1.symm]
      exact above
    case isFalse =>
      have above := tree.parent place name some
      rw [if_neg fun same => by rw [same.1, same.2.1] at above; cases above]
      exact above

/-- One component of a recursive `mkdir`. -/
def mkdirStep (start : Path) (made : Option Tree) (front : List Segment) : Option Tree :=
  made.bind fun tree =>
    match front.getLast?, walk tree limit start front.dropLast with
    | some (.name name), .found place _ =>
      match tree.entry (place ++ [name]) with
      | none => if tree.entry place = some .directory then some (makeDirectory tree (place ++ [name])) else none
      | some .directory => some tree
      | some .file => none
      | some (.link _) =>
        match walk tree limit start front with
        | .found place _ => if tree.entry place = some .directory then some tree else none
        | _ => none
    | some (.name _), _ => none
    | _, _ => some tree

/-- `fs.mkdirSync` with `recursive`. -/
def mkdirSync (start : Path) (segments : List Segment) : Option Tree :=
  segments.inits.foldl (mkdirStep limit start) (some tree)

def shown (path : Path) : String := String.ofList (pathText path)

/-- The base is opened, and made if it is missing. -/
def openBase (baseDir : PathText) : Except String Tree :=
  let start := if isAbsolute baseDir then [] else cwd
  let cannot := "Cannot open base directory " ++ String.ofList baseDir
  let opened (tree : Tree) (missing : Except String Tree) : Except String Tree :=
    match openNoFollow tree limit start (segments baseDir) with
    | .ok .directory => .ok tree
    | .ok _ => .error ("baseDir " ++ String.ofList baseDir ++ " is not a directory")
    | .error .eloop => .error ("Refusing to resolve: baseDir path contains a symlink: " ++ String.ofList baseDir)
    | .error .enotdir => .error cannot
    | .error .enoent => missing
  opened tree (match mkdirSync tree limit start (segments baseDir) with
    | none => .error cannot
    | some made => opened made (.error cannot))

/-- The components of a path are opened one by one. One that is missing is passed over. -/
def checkAncestors : List Path → Except String Unit
  | [] => .ok ()
  | path :: rest =>
    match openPath tree limit path with
    | .error .eloop => .error ("Refusing to resolve: target path ancestor is a symlink: " ++ shown path)
    | .error .enotdir => .error ("ENOTDIR: not a directory, open '" ++ shown path ++ "'")
    | _ => checkAncestors rest

/-- The same behind the real path, where none may be missing. -/
def revalidate : List Path → Except String Unit
  | [] => .ok ()
  | path :: rest =>
    match openPath tree limit path with
    | .error .eloop => .error ("Refusing to resolve: TOCTOU race detected, path became a symlink: " ++ shown path)
    | .error .enotdir => .error ("ENOTDIR: not a directory, open '" ++ shown path ++ "'")
    | .error .enoent => .error ("Cannot validate resolved path: " ++ shown path ++ " disappeared after realpathSync")
    | .ok _ => revalidate rest

/-- The part behind the walk over the components. -/
def resolveTarget (realBase resolved : Path) (outside : String) : Except String Path :=
  match openPath tree limit resolved with
  | .error .eloop => .error ("Refusing to resolve: target path is a symlink: " ++ shown resolved)
  | .error .enotdir => .error ("Cannot open " ++ shown resolved)
  | .error .enoent => .ok resolved
  | .ok _ =>
    match follow tree limit resolved with
    | .missing _ => .ok resolved
    | .failed => .error ("Cannot resolve real path of " ++ shown resolved)
    | .found realTarget _ => do
      revalidate tree limit realTarget.inits.tail.dropLast.reverse
      let relative := relative realBase realTarget
      if startsWithUp relative || isAbsolute relative then .error outside else .ok realTarget

/-- **`resolveRealContainedPath`**: the path, and the tree with a base that was made. -/
def resolveRealContainedPath (baseDir targetPath : PathText) : Except String (Path × Tree) :=
  if nullByte ∈ targetPath then .error "Security: path contains null byte"
  else do
    let resolved ← resolveContainedPath tree limit cwd baseDir targetPath
    let tree ← openBase tree limit cwd baseDir
    match realpath tree limit (resolve cwd baseDir) with
    | none => .error ("Cannot resolve real path of base directory " ++ String.ofList baseDir)
    | some realBase =>
      checkAncestors tree limit resolved.inits.tail
      let path ← resolveTarget tree limit realBase resolved
        ("Path is outside " ++ String.ofList baseDir ++ ": " ++ String.ofList targetPath)
      .ok (path, tree)

end

/-! ## Paths without links -/

section

variable {tree : Tree} {limit links : Nat}

/-- No component of a path is a link. -/
def Plain (tree : Tree) (path : Path) : Prop :=
  ∀ front, front <+: path → ∀ target, tree.entry front ≠ some (.link target)

theorem Plain.front {path front : Path} (plain : Plain tree path) (front_le : front <+: path) : Plain tree front :=
  fun other le => plain other (le.trans front_le)

theorem above_directory {above : Path} {name : Name} {entry : Entry}
    (there : tree.entry (above ++ [name]) = some entry) : tree.entry above = some .directory :=
  tree.parent above name (there ▸ rfl)

theorem directory_of_front {path front : Path} (some : (tree.entry path).isSome) (le : front <+: path)
    (ne : front ≠ path) : tree.entry front = .some .directory := by
  induction path using List.reverseRecOn with
  | nil => exact absurd (List.prefix_nil.mp le) ne
  | append_singleton above name ih =>
    have directory := tree.parent above name some
    rcases List.prefix_concat_iff.mp le with same | before
    · exact absurd same ne
    · by_cases same : front = above
      · rwa [same]
      · exact ih (directory ▸ rfl) before same

theorem walk_missing {place : Path} {name : Name} (none : tree.entry (place ++ [name]) = none) :
    walk tree links place [.name name] = .missing (place ++ [name]) := by
  cases links <;> exact (walkWith_missing none).trans (if_pos rfl)

theorem walk_of_plain {start parts stop : Path} {left : Nat} (directory : tree.entry start = some .directory)
    (plain : Plain tree (start ++ parts)) (found : walk tree links start (parts.map .name) = .found stop left) :
    stop = start ++ parts ∧ left = links ∧ (tree.entry (start ++ parts)).isSome := by
  induction parts using List.reverseRecOn generalizing stop left with
  | nil =>
    have none : walk tree links start [] = .found start links := by cases links <;> rfl
    rw [List.map_nil, none] at found
    cases found
    rw [List.append_nil]
    exact ⟨rfl, rfl, directory ▸ rfl⟩
  | append_singleton parts name ih =>
    rw [List.map_append, walk_append links directory] at found
    cases before : walk tree links start (parts.map .name) with
    | failed | missing place => rw [before] at found; cases found
    | found place rest =>
      rw [← List.append_assoc] at plain
      obtain ⟨rfl, rfl, -⟩ := ih (plain.front (List.prefix_append _ _)) before
      rw [before, List.map_singleton, Outcome.andThen, if_neg (List.cons_ne_nil _ _)] at found
      split at found
      case isFalse => cases found
      cases entry : tree.entry (start ++ parts ++ [name]) with
      | none =>
        rw [walk_missing entry] at found
        cases found
      | some there =>
        rcases walk_name rest (start ++ parts) name with ⟨none, -⟩ | ⟨target, link⟩ | ends
        · rw [entry] at none
          cases none
        · exact absurd link (plain _ (List.prefix_refl _) target)
        · rw [ends] at found
          cases found
          rw [← List.append_assoc, entry]
          exact ⟨rfl, rfl, rfl⟩

theorem realpath_of_plain {path real : Path} (plain : Plain tree path) (found : realpath tree limit path = some real) :
    real = path := by
  obtain ⟨left, led⟩ := realpath_eq_some.mp found
  exact (@walk_of_plain tree limit [] path real left tree.root plain led).1

theorem follow_of_plain {path : Path} (plain : Plain tree path) (some : (tree.entry path).isSome) :
    follow tree limit path = .found path limit := by
  induction path using List.reverseRecOn with
  | nil => cases limit <;> rfl
  | append_singleton above name ih =>
    have directory := tree.parent above name some
    rw [follow_concat, ih (plain.front (List.prefix_append _ _)) (directory ▸ rfl), Outcome.andThen,
      if_neg (List.cons_ne_nil _ _), if_pos directory]
    rcases walk_name limit above name with ⟨missing, -⟩ | ⟨target, link⟩ | ends
    · rw [missing] at some
      cases some
    · exact absurd link (plain _ (List.prefix_refl _) target)
    · exact ends

theorem canonical_of_plain {path : Path} (plain : Plain tree path) : resolveCanonicalPath tree limit path = path := by
  have walked : ∀ above parts found, Plain tree above.reverse → ancestorWalk tree limit above parts = some found →
      found = above.reverse ++ parts := by
    intro above
    induction above with
    | nil => exact nofun
    | cons name above ih =>
      intro parts found plain walked
      rw [ancestorWalk] at walked
      split at walked
      case h_1 real exists' => rw [← Option.some.inj walked, realpath_of_plain plain exists']
      case h_2 =>
        rw [List.reverse_cons] at plain
        rw [ih _ _ (plain.front (List.prefix_append _ _)) walked, List.reverse_cons, List.append_assoc]
        rfl
  rw [resolveCanonicalPath]
  split
  case h_1 real exists' => exact realpath_of_plain plain exists'
  case h_2 =>
    cases found : ancestorWalk tree limit path.reverse [] with
    | none => rfl
    | some canonical =>
      have same := walked _ _ _ (by rwa [List.reverse_reverse]) found
      rw [List.reverse_reverse, List.append_nil] at same
      exact same

theorem openPath_concat {above : Path} {name : Name} (plain : Plain tree above)
    (directory : tree.entry above = some .directory) :
    openPath tree limit (above ++ [name]) =
      match tree.entry (above ++ [name]) with
      | none => .error .enoent
      | some (.link _) => .error .eloop
      | some entry => .ok entry := by
  have led : walk tree limit [] (above.map .name) = .found above limit := follow_of_plain plain (directory ▸ rfl)
  rw [openPath, openNoFollow, List.map_append, List.map_singleton, List.getLast?_concat, List.dropLast_concat]
  simp only [led, if_pos directory]

theorem plain_of_opened {path : Path}
    (opened : ∀ front, front <+: path → front ≠ [] → openPath tree limit front ≠ .error .eloop) :
    Plain tree path := by
  induction path using List.reverseRecOn with
  | nil =>
    intro front le target link
    rw [List.prefix_nil.mp le, tree.root] at link
    cases link
  | append_singleton above name ih =>
    have plain := ih fun front le => opened front (le.trans (List.prefix_append _ _))
    intro front le target link
    rcases List.prefix_concat_iff.mp le with rfl | before
    · refine opened _ (List.prefix_refl _) (List.append_ne_nil_of_right_ne_nil _ (List.cons_ne_nil _ _)) ?_
      rw [openPath_concat plain (above_directory link), link]
    · exact plain front before target link

end

/-! ## A base that is made -/

section

variable {tree other : Tree} {limit : Nat}

/-- A tree has all entries of another one. -/
def Extends (tree other : Tree) : Prop := ∀ place, (tree.entry place).isSome → other.entry place = tree.entry place

theorem Extends.same (extends' : Extends tree other) {place : Path} {entry : Entry}
    (there : tree.entry place = some entry) : other.entry place = some entry := by
  rw [extends' place (there ▸ rfl), there]

theorem Plain.of_extends {path : Path} (extends' : Extends tree other) (plain : Plain other path) :
    Plain tree path :=
  fun front le target link => plain front le target (extends'.same link)

theorem extends_makeDirectory (tree : Tree) (made : Path) : Extends tree (makeDirectory tree made) := by
  intro place some
  refine if_neg fun new => ?_
  rw [new.1, new.2.1] at some
  cases some

theorem extends_mkdirSync {start : Path} {segments : List Segment}
    (made : mkdirSync tree limit start segments = some other) : Extends tree other := by
  have step : ∀ (fronts : List (List Segment)) (now : Tree), Extends tree now →
      fronts.foldl (mkdirStep limit start) (some now) = some other → Extends tree other := by
    intro fronts
    induction fronts with
    | nil => exact fun now sound same => Option.some.inj same ▸ sound
    | cons front fronts ih =>
      intro now sound made
      rw [List.foldl_cons] at made
      cases next : mkdirStep limit start (some now) front with
      | none =>
        have failed : ∀ fronts : List (List Segment), fronts.foldl (mkdirStep limit start) none = none := by
          intro fronts
          induction fronts with
          | nil => rfl
          | cons front fronts ih => exact ih
        rw [next, failed] at made
        cases made
      | some later =>
        rw [next] at made
        refine ih later ?_ made
        rw [mkdirStep, Option.bind_some] at next
        split at next
        · split at next
          · split at next
            · rw [← Option.some.inj next]
              exact fun place some => by
                rw [extends_makeDirectory now _ place (by rw [sound place some]; exact some), sound place some]
            · cases next
          · exact Option.some.inj next ▸ sound
          · cases next
          · split at next
            · split at next
              · exact Option.some.inj next ▸ sound
              · cases next
            · cases next
        · cases next
        · exact Option.some.inj next ▸ sound
  exact step _ tree (fun _ _ => rfl) made

theorem walkWith_extends {links : Nat} (extends' : Extends tree other)
    {go go' : Path → PathText → List Segment → Outcome}
    (same : ∀ place target rest stop left, go place target rest = .found stop left →
      go' place target rest = .found stop left) (segments : List Segment) :
    ∀ place stop left, walkWith tree links go place segments = .found stop left →
      walkWith other links go' place segments = .found stop left := by
  induction segments with
  | nil => exact fun _ _ _ found => found
  | cons segment rest ih =>
    intro place stop left found
    cases segment with
    | here | up => exact ih _ _ _ found
    | name name =>
      cases entry : tree.entry (place ++ [name]) with
      | none =>
        rw [walkWith_missing entry] at found
        split at found <;> cases found
      | some there =>
        cases there with
        | directory =>
          rw [walkWith_directory entry] at found
          rw [walkWith_directory (extends'.same entry)]
          exact ih _ _ _ found
        | file =>
          rw [walkWith_file entry] at found
          rw [walkWith_file (extends'.same entry)]
          exact found
        | link target =>
          rw [walkWith_link entry] at found
          rw [walkWith_link (extends'.same entry)]
          exact same _ _ _ _ _ found

theorem walk_extends (extends' : Extends tree other) (links : Nat) : ∀ place segments stop left,
    walk tree links place segments = .found stop left → walk other links place segments = .found stop left := by
  induction links with
  | zero => exact fun place segments => walkWith_extends extends' (fun _ _ _ _ _ found => by cases found) segments place
  | succ links ih =>
    exact fun place segments => walkWith_extends extends' (fun _ _ _ stop left => ih _ _ stop left) segments place

/-- **The real path of a base that was made** is its canonical form of before. -/
theorem base_real {base real : Path} (extends' : Extends tree other)
    (plain : Plain other (resolveCanonicalPath tree limit base)) (found : realpath other limit base = some real) :
    real = resolveCanonicalPath tree limit base := by
  have walked : ∀ above parts canonical, Plain other canonical →
      ancestorWalk tree limit above parts = some canonical → ∀ real left,
        follow other limit (above.reverse ++ parts) = .found real left → real = canonical := by
    intro above
    induction above with
    | nil => exact nofun
    | cons name above ih =>
      intro parts canonical plain walked real left led
      rw [ancestorWalk] at walked
      split at walked
      case h_1 place exists' =>
        obtain rfl := Option.some.inj walked
        obtain ⟨rest, before⟩ := realpath_eq_some.mp exists'
        rw [follow, List.map_append, walk_append limit other.root,
          walk_extends extends' limit _ _ _ _ before] at led
        cases parts with
        | nil =>
          rw [List.map_nil, Outcome.andThen, if_pos rfl] at led
          cases led
          exact (List.append_nil _).symm
        | cons next parts =>
          rw [Outcome.andThen, if_neg (by simp)] at led
          split at led
          case isTrue directory => exact (@walk_of_plain other rest place (next :: parts) _ _ directory plain led).1
          case isFalse => cases led
      case h_2 =>
        refine ih (name :: parts) canonical plain walked real left ?_
        rw [List.reverse_cons, List.append_assoc] at led
        exact led
  obtain ⟨left, led⟩ := realpath_eq_some.mp found
  cases before : realpath tree limit base with
  | some place =>
    obtain ⟨rest, before'⟩ := realpath_eq_some.mp before
    rw [canonical_real before]
    exact (Outcome.found.inj (led.symm.trans (walk_extends extends' limit _ _ _ _ before'))).1
  | none =>
    have same : resolveCanonicalPath tree limit base = (ancestorWalk tree limit base.reverse []).getD base := by
      rw [resolveCanonicalPath, before]
    rw [same] at plain ⊢
    cases walk : ancestorWalk tree limit base.reverse [] with
    | none =>
      rw [walk] at plain
      exact realpath_of_plain plain found
    | some canonical =>
      rw [walk] at plain
      refine walked _ _ _ plain walk real left ?_
      rwa [List.reverse_reverse, List.append_nil]

theorem extends_openBase {cwd : Path} {baseDir : PathText} (opened : openBase tree limit cwd baseDir = .ok other) :
    Extends tree other := by
  rw [openBase] at opened
  dsimp only at opened
  split at opened
  case h_1 => cases opened; exact fun _ _ => rfl
  case h_5 =>
    split at opened
    · cases opened
    · rename_i made step
      split at opened
      case h_1 => cases opened; exact extends_mkdirSync step
      all_goals cases opened
  all_goals cases opened

end

/-! ## What is returned, and what is accepted -/

section

variable {tree after : Tree} {limit : Nat} {cwd : Path} {baseDir targetPath : PathText} {path : Path}

def targetOf (cwd : Path) (baseDir targetPath : PathText) : Path :=
  if isAbsolute targetPath then resolve cwd targetPath else resolve (resolve cwd baseDir) targetPath

theorem front_cases {front : Path} : front <+: path ↔ front = [] ∨ front ∈ path.inits.tail := by
  rw [← List.mem_inits]
  cases path <;> simp

theorem opened_of_checked (paths : List Path) (checked : checkAncestors tree limit paths = .ok ()) :
    ∀ path ∈ paths, openPath tree limit path ≠ .error .eloop := by
  induction paths with
  | nil => exact fun _ member => absurd member List.not_mem_nil
  | cons first rest ih =>
    rw [checkAncestors] at checked
    intro path member
    rcases List.mem_cons.mp member with rfl | later
    · intro loop
      rw [loop] at checked
      cases checked
    · split at checked
      · cases checked
      · cases checked
      · exact ih checked path later

theorem returned_steps (returned : resolveRealContainedPath tree limit cwd baseDir targetPath = .ok (path, after)) :
    ∃ resolved real outside, resolveContainedPath tree limit cwd baseDir targetPath = .ok resolved ∧
      openBase tree limit cwd baseDir = .ok after ∧ realpath after limit (resolve cwd baseDir) = some real ∧
      checkAncestors after limit resolved.inits.tail = .ok () ∧
      resolveTarget after limit real resolved outside = .ok path := by
  rw [resolveRealContainedPath] at returned
  split at returned
  · cases returned
  cases contained : resolveContainedPath tree limit cwd baseDir targetPath with
  | error message => rw [contained] at returned; cases returned
  | ok resolved =>
    cases base : openBase tree limit cwd baseDir with
    | error message => rw [contained, base] at returned; cases returned
    | ok made =>
      simp only [contained, base, bind, Except.bind] at returned
      split at returned
      · cases returned
      rename_i real found
      cases checked : checkAncestors made limit resolved.inits.tail with
      | error message => rw [checked] at returned; cases returned
      | ok _ =>
        rw [checked] at returned
        dsimp only at returned
        split at returned
        · cases returned
        · rename_i target
          cases returned
          exact ⟨resolved, real, _, rfl, rfl, found, checked, target⟩

theorem resolveTarget_of_plain {real resolved : Path} {outside : String} (plain : Plain tree resolved)
    (returned : resolveTarget tree limit real resolved outside = .ok path) : path = resolved := by
  rw [resolveTarget] at returned
  split at returned
  · cases returned
  · cases returned
  · exact (Except.ok.inj returned).symm
  split at returned
  · exact (Except.ok.inj returned).symm
  · cases returned
  rename_i target left led
  have same := realpath_of_plain plain (realpath_eq_some.mpr ⟨left, led⟩)
  cases valid : revalidate tree limit target.inits.tail.dropLast.reverse with
  | error message => rw [valid] at returned; cases returned
  | ok _ =>
    simp only [valid, bind, Except.bind] at returned
    split at returned
    · cases returned
    · rw [← Except.ok.inj returned, same]

/-- A target in a base without links that a call is to accept. -/
structure Acceptable (tree : Tree) (cwd : Path) (baseDir targetPath : PathText) : Prop where
  base : ∀ front, front <+: segments baseDir →
    tree.entry (front.foldl Segment.apply (if isAbsolute baseDir then [] else cwd)) = some .directory
  inside : resolve cwd baseDir <+: targetOf cwd baseDir targetPath
  plain : Plain tree (targetOf cwd baseDir targetPath)
  name : nullByte ∉ targetPath

/-- What the code asks of it besides: no component but the last one is a file, and the way from the base does not
begin with two dots. -/
structure Unobstructed (tree : Tree) (cwd : Path) (baseDir targetPath : PathText) : Prop where
  files : ∀ front, front <+: targetOf cwd baseDir targetPath → front ≠ targetOf cwd baseDir targetPath →
    tree.entry front ≠ some .file
  dots : startsWithUp (relative (resolve cwd baseDir) (targetOf cwd baseDir targetPath)) = false

theorem walk_directories {links : Nat} {start : Path} {segments : List Segment}
    (directories : ∀ front, front <+: segments → tree.entry (front.foldl Segment.apply start) = some .directory) :
    walk tree links start segments = .found (segments.foldl Segment.apply start) links := by
  have go : ∀ go, walkWith tree links go start segments = .found (segments.foldl Segment.apply start) links := by
    intro go
    induction segments generalizing start with
    | nil => rfl
    | cons segment rest ih =>
      have behind := @ih (segment.apply start) fun front le => directories (segment :: front)
        ((List.prefix_cons_inj segment).mpr le)
      cases segment with
      | here | up => exact behind
      | name name =>
        rw [walkWith_directory (directories [.name name] ⟨rest, rfl⟩)]
        exact behind
  cases links with
  | zero | succ links => exact go _

theorem openNoFollow_directories {start : Path} {segments : List Segment}
    (directories : ∀ front, front <+: segments → tree.entry (front.foldl Segment.apply start) = some .directory) :
    openNoFollow tree limit start segments = .ok .directory := by
  have whole := directories segments (List.prefix_refl _)
  rw [openNoFollow]
  split
  case h_1 name last =>
    have split := (List.dropLast_append_getLast? _ last).symm
    have above := fun front (le : front <+: segments.dropLast) =>
      directories front (le.trans (List.dropLast_prefix _))
    rw [split, List.foldl_concat] at whole
    rw [walk_directories above]
    simp only [if_pos (above _ (List.prefix_refl _))]
    rw [show tree.entry (_ ++ [name]) = some .directory from whole]
  case h_2 =>
    rw [walk_directories directories]
    simp only [if_pos whole]

theorem relative_below (base rest : Path) : relative base (base ++ rest) =
    List.intercalate ['/'] (rest.map Name.chars) := by
  have names : relativeNames base (base ++ rest) = rest.map Name.chars := by
    induction base with
    | nil => rfl
    | cons name base ih => rw [List.cons_append, relativeNames, if_pos rfl, ih]
  rw [relative, names]

theorem relative_not_absolute (base rest : Path) : isAbsolute (relative base (base ++ rest)) = false := by
  rw [relative_below]
  cases rest with
  | nil => rfl
  | cons name rest =>
    obtain ⟨chars, nonempty, -, -, plain⟩ := name
    obtain ⟨first, others, rfl⟩ := List.exists_cons_of_ne_nil nonempty
    have apart : first ≠ '/' := fun same => plain (same ▸ List.mem_cons_self)
    cases rest <;> simp [isAbsolute, apart]

/-- A component behind directories, or behind a missing one. -/
theorem openPath_clear {front : Path} (plain : Plain tree front)
    (files : ∀ other, other <+: front → other ≠ front → tree.entry other ≠ some .file) :
    (tree.entry front = none ∧ openPath tree limit front = .error .enoent) ∨
      ((tree.entry front).isSome ∧ ∃ entry, openPath tree limit front = .ok entry) := by
  rcases List.eq_nil_or_concat front with rfl | ⟨above, name, rfl⟩
  · refine .inr ⟨by rw [tree.root]; rfl, .directory, openNoFollow_directories fun front le => ?_⟩
    rw [List.prefix_nil.mp le]
    exact tree.root
  rw [List.concat_eq_append] at plain files ⊢
  have before := plain.front (List.prefix_append above [name])
  have apart : ∀ other, other <+: above → tree.entry other ≠ some .file := by
    refine fun other le => files other (le.trans (List.prefix_append _ _)) fun same => ?_
    have := le.length_le
    rw [same, List.length_append] at this
    exact Nat.not_succ_le_self _ this
  by_cases directory : tree.entry above = some .directory
  · rw [openPath_concat before directory]
    cases entry : tree.entry (above ++ [name]) with
    | none => exact .inl ⟨rfl, rfl⟩
    | some there =>
      cases there with
      | link target => exact absurd entry (plain _ (List.prefix_refl _) target)
      | directory | file => exact .inr ⟨rfl, _, rfl⟩
  · refine .inl ⟨?_, ?_⟩
    · by_contra some
      exact directory (tree.parent above name (Option.isSome_iff_ne_none.mpr some))
    have calm : failure tree limit [] (above.map .name) = .enoent := by
      refine if_neg fun any => ?_
      obtain ⟨segments, member, leads⟩ := List.any_eq_true.mp any
      obtain ⟨count, -, rfl⟩ : ∃ count, _ ∧ segments = (above.map Segment.name).take count :=
        ⟨_, trivial, List.prefix_iff_eq_take.mp ((List.mem_inits _ _).mp member)⟩
      rw [← List.map_take] at leads
      have le := List.take_prefix count above
      split at leads
      case h_1 place left led =>
        have same := (@walk_of_plain tree limit [] (above.take count) place left tree.root (before.front le) led).1
        rw [same] at leads
        exact apart _ le (of_decide_eq_true leads)
      case h_2 => cases leads
    rw [openPath, openNoFollow, List.map_append, List.map_singleton, List.getLast?_concat, List.dropLast_concat]
    dsimp only
    split
    case h_1 place left led =>
      have some := (@walk_of_plain tree limit [] above place left tree.root before led).2.2
      rw [List.nil_append] at some
      cases entry : tree.entry above with
      | none =>
        rw [entry] at some
        cases some
      | some there =>
        cases there with
        | directory => exact absurd entry directory
        | file => exact absurd entry (apart _ (List.prefix_refl _))
        | link target => exact absurd entry (before _ (List.prefix_refl _) target)
    case h_2 => rw [calm]

theorem checked_of_clear {paths : List Path} (clear : ∀ path ∈ paths, openPath tree limit path = .error .enoent ∨
    ∃ entry, openPath tree limit path = .ok entry) : checkAncestors tree limit paths = .ok () := by
  induction paths with
  | nil => rfl
  | cons first rest ih =>
    obtain ⟨here, others⟩ := List.forall_mem_cons.mp clear
    rw [checkAncestors]
    rcases here with missing | ⟨entry, there⟩
    · rw [missing]
      exact ih others
    · rw [there]
      exact ih others

theorem revalidated_of_opened {paths : List Path}
    (opened : ∀ path ∈ paths, ∃ entry, openPath tree limit path = .ok entry) :
    revalidate tree limit paths = .ok () := by
  induction paths with
  | nil => rfl
  | cons first rest ih =>
    obtain ⟨⟨entry, here⟩, others⟩ := List.forall_mem_cons.mp opened
    rw [revalidate, here]
    exact ih others

/-- **A call accepts** an unobstructed target, and leaves the tree as it is. -/
theorem accepted (acceptable : Acceptable tree cwd baseDir targetPath)
    (free : Unobstructed tree cwd baseDir targetPath) :
    resolveRealContainedPath tree limit cwd baseDir targetPath = .ok (targetOf cwd baseDir targetPath, tree) := by
  obtain ⟨directories, inside, plain, name⟩ := acceptable
  obtain ⟨files, dots⟩ := free
  have base : tree.entry (resolve cwd baseDir) = some .directory := directories _ (List.prefix_refl _)
  have basePlain := plain.front inside
  have real : realpath tree limit (resolve cwd baseDir) = some (resolve cwd baseDir) :=
    realpath_eq_some.mpr ⟨_, follow_of_plain basePlain (base ▸ rfl)⟩
  have flat : isAbsolute (relative (resolve cwd baseDir) (targetOf cwd baseDir targetPath)) = false := by
    obtain ⟨rest, whole⟩ := inside
    rw [← whole]
    exact relative_not_absolute _ _
  have contained : resolveContainedPath tree limit cwd baseDir targetPath =
      .ok (targetOf cwd baseDir targetPath) := by
    rw [resolveContainedPath, if_neg name]
    dsimp only
    rw [canonical_of_plain basePlain]
    show (if (startsWithUp (relative _ (resolveCanonicalPath tree limit (targetOf cwd baseDir targetPath))) ||
      isAbsolute (relative _ (resolveCanonicalPath tree limit (targetOf cwd baseDir targetPath)))) = true
      then _ else _) = _
    rw [canonical_of_plain plain, dots, flat]
    rfl
  have opened : openBase tree limit cwd baseDir = .ok tree := by
    rw [openBase]
    dsimp only
    rw [openNoFollow_directories directories]
  have clear : ∀ front, front <+: targetOf cwd baseDir targetPath →
      (tree.entry front = none ∧ openPath tree limit front = .error .enoent) ∨
        ((tree.entry front).isSome ∧ ∃ entry, openPath tree limit front = .ok entry) := by
    intro front le
    refine openPath_clear (plain.front le) fun other before apart => files other (before.trans le) fun same => ?_
    rw [same] at before apart
    exact apart (le.eq_of_length_le before.length_le).symm
  have checked : checkAncestors tree limit (targetOf cwd baseDir targetPath).inits.tail = .ok () :=
    checked_of_clear fun front member => (clear front (front_cases.mpr (.inr member))).imp And.right And.right
  have target : ∀ outside, resolveTarget tree limit (resolve cwd baseDir) (targetOf cwd baseDir targetPath) outside =
      .ok (targetOf cwd baseDir targetPath) := by
    intro outside
    rw [resolveTarget]
    rcases clear _ (List.prefix_refl _) with ⟨-, missing⟩ | ⟨some, entry, there⟩
    · rw [missing]
    · have again : revalidate tree limit (targetOf cwd baseDir targetPath).inits.tail.dropLast.reverse = .ok () := by
        refine revalidated_of_opened fun front member => ?_
        have le := front_cases.mpr (.inr (List.mem_of_mem_dropLast (List.mem_reverse.mp member)))
        refine ((clear front le).resolve_left fun missing => ?_).2
        by_cases same : front = targetOf cwd baseDir targetPath
        · rw [← same, missing.1] at some
          cases some
        · have directory := directory_of_front some le same
          rw [missing.1] at directory
          cases directory
      rw [there]
      simp only [follow_of_plain plain some, again, bind, Except.bind, dots, flat, Bool.or_self]
      rfl
  rw [resolveRealContainedPath, if_neg name]
  simp only [contained, opened, bind, Except.bind, real, checked, target]

theorem linked_base : ∀ front, front <+: segments "/base".toList →
    linkedTree.entry (front.foldl Segment.apply (if isAbsolute "/base".toList then [] else [])) = some .directory := by
  intro front le
  have all : ((segments "/base".toList).inits.all fun front =>
      decide (linkedTree.entry (front.foldl Segment.apply []) = some .directory)) = true := by decide +kernel
  exact of_decide_eq_true (List.all_eq_true.mp all front ((List.mem_inits _ _).mpr le))

theorem linked_plain {path : Path} (all : (path.inits.all fun front =>
    match linkedTree.entry front with
    | some (.link _) => false
    | _ => true) = true) : Plain linkedTree path := by
  intro front le target link
  have here := List.all_eq_true.mp all front ((List.mem_inits _ _).mpr le)
  rw [link] at here
  cases here

def isRefused (result : Except String (Path × Tree)) : Bool :=
  match result with
  | .ok _ => false
  | .error _ => true

end

end PiCrew.Paths
