/-
**Values with objects, up to keys that hold `undefined`.**

Records that are merged key by key: a value is `undefined`, a scalar, an array or an object of own keys. An
object may own a key that holds `undefined`; a spread lets such a key win, while a reader does not tell it
from a key that is not there.

* `Populated.same` — values that are objects only when a key of theirs is defined are the same when they are
  under every key.

Members are read by key: where a key stands twice in the list, the first one is the object's.
-/

import Mathlib.Data.List.Basic
import Mathlib.Data.Rat.Init

namespace PiCrew.JsObjects

/-- **A value.** A number is the rational that it denotes. -/
inductive JsValue where
  | undefined
  | null
  | bool (value : Bool)
  | number (value : Rat)
  | string (text : String)
  | array (items : List JsValue)
  | object (members : List (String × JsValue))

namespace JsValue

section

variable (value base override : JsValue) (key : String)

def isUndefined : JsValue → Bool
  | undefined => true
  | _ => false

def isObject : JsValue → Bool
  | object _ => true
  | _ => false

/-- Neither `undefined`, `null`, `false`, zero nor the empty string. -/
def truthy : JsValue → Bool
  | undefined | null => false
  | bool value => value
  | number value => value != 0
  | string text => text != ""
  | array _ | object _ => true

/-- `Object.entries` -/
def members : JsValue → List (String × JsValue)
  | object members => members
  | _ => []

/-- `Object.keys` -/
def keys : List String := value.members.map (·.1)

def hasOwn : Bool := value.members.any (·.1 == key)

def get : JsValue := ((value.members.find? (·.1 == key)).map (·.2)).getD undefined

def set (held : JsValue) : JsValue := object (if value.hasOwn key then
    value.members.map fun member => (member.1, if member.1 = key then held else member.2)
  else value.members ++ [(key, held)])

def erase : JsValue := object (value.members.filter (·.1 != key))

/-- `{ ...base, ...override }` -/
def spread : JsValue := object ((base.members.map fun member =>
      (member.1, if override.hasOwn member.1 then override.get member.1 else member.2))
    ++ override.members.filter fun member => !base.hasOwn member.1)

def withoutUndefined : JsValue :=
  object (value.members.filter fun member => !(value.get member.1).isUndefined)

/-- `{ ...base, ...withoutUndefined(override) }` -/
def overlay : JsValue := base.spread override.withoutUndefined

/-- `value ?? {}` -/
def orEmpty : JsValue → JsValue
  | undefined | null => object []
  | value => value

def anyDefined : Bool := value.members.any fun member => !(value.get member.1).isUndefined

/-- A key is there and holds `undefined`. -/
def ownsUndefined : Bool := value.hasOwn key && (value.get key).isUndefined

def descend : JsValue → List String → JsValue
  | value, [] => value
  | value, key :: path => (value.get key).descend path

def shape : JsValue → JsValue
  | object _ => object []
  | value => value

def leaf : JsValue → Option JsValue
  | undefined | object _ => none
  | value => some value

end

section

variable {value base override held : JsValue} {key other : String}

@[simp] theorem isUndefined_iff : value.isUndefined = true ↔ value = undefined := by
  cases value <;> simp [isUndefined]

@[simp] theorem isUndefined_undefined : undefined.isUndefined = true := rfl

@[simp] theorem isUndefined_eq_false_iff : value.isUndefined = false ↔ value ≠ undefined := by
  rw [← Bool.not_eq_true, isUndefined_iff]

@[simp] theorem members_object (members : List (String × JsValue)) : (object members).members = members := rfl

@[simp] theorem get_empty : (object []).get key = undefined := rfl

@[simp] theorem get_undefined : undefined.get key = undefined := rfl

theorem isObject_iff : value.isObject = true ↔ ∃ members, value = object members := by
  cases value <;> simp [isObject]

theorem get_of_not_isObject (plain : value.isObject = false) : value.get key = undefined := by
  cases value <;> first | rfl | simp [isObject] at plain

theorem get_of_hasOwn_false (absent : value.hasOwn key = false) : value.get key = undefined := by
  have missing : value.members.find? (·.1 == key) = none := by
    rw [List.find?_eq_none]
    simpa [hasOwn] using absent
  simp [get, missing]

theorem hasOwn_of_get (held : value.get key ≠ undefined) : value.hasOwn key = true := by
  by_contra absent
  exact held (get_of_hasOwn_false (by simpa using absent))

theorem isObject_of_get (held : value.get key ≠ undefined) : value.isObject = true := by
  by_contra plain
  exact held (get_of_not_isObject (by simpa using plain))

section

variable (key) (members others : List (String × JsValue))

@[simp] theorem hasOwn_append :
    (object (members ++ others)).hasOwn key = ((object members).hasOwn key || (object others).hasOwn key) := by
  simp [hasOwn]

theorem get_append : (object (members ++ others)).get key
      = if (object members).hasOwn key then (object members).get key else (object others).get key := by
  have own : (object members).hasOwn key = (members.find? (·.1 == key)).isSome := by
    rw [List.isSome_find?]
    rfl
  rw [own]
  cases found : members.find? (·.1 == key) <;> simp [get, found]

theorem get_filter (keep : String → Bool) :
    (object (members.filter fun member => keep member.1)).get key
      = if keep key then (object members).get key else undefined := by
  induction members with
  | nil => simp
  | cons member rest hyp =>
    simp only [get, members_object] at hyp
    by_cases same : member.1 = key
    · subst same
      cases kept : keep member.1 with
      | false => simpa [get, List.filter_cons, kept] using hyp
      | true => simp [get, kept]
    · cases kept : keep member.1 <;> simpa [get, List.filter_cons, kept, same] using hyp

theorem hasOwn_filter (keep : String → Bool) :
    (object (members.filter fun member => keep member.1)).hasOwn key
      = (keep key && (object members).hasOwn key) := by
  rw [Bool.eq_iff_iff]
  simp only [hasOwn, members_object, List.any_eq_true, List.mem_filter, Bool.and_eq_true, beq_iff_eq]
  constructor
  · rintro ⟨member, ⟨held, kept⟩, rfl⟩
    exact ⟨kept, member, held, rfl⟩
  · rintro ⟨kept, member, held, rfl⟩
    exact ⟨member, ⟨held, kept⟩, rfl⟩

theorem get_map (f : String → JsValue → JsValue) :
    (object (members.map fun member => (member.1, f member.1 member.2))).get key
      = if (object members).hasOwn key then f key ((object members).get key) else undefined := by
  have own : (object members).hasOwn key = (members.find? (·.1 == key)).isSome := by
    rw [List.isSome_find?]
    rfl
  rw [own]
  cases found : members.find? (·.1 == key) with
  | none => simp [get, List.find?_map, Function.comp_def, found]
  | some member =>
    have named : member.1 = key := by simpa using List.find?_some found
    simp [get, List.find?_map, Function.comp_def, found, named]

@[simp] theorem hasOwn_map (f : String × JsValue → JsValue) :
    (object (members.map fun member => (member.1, f member))).hasOwn key = (object members).hasOwn key := by
  simp [hasOwn, Function.comp_def]

end

@[simp] theorem get_object_members : (object value.members).get key = value.get key := rfl

@[simp] theorem hasOwn_object_members : (object value.members).hasOwn key = value.hasOwn key := rfl

@[simp] theorem get_set : (value.set key held).get other = if other = key then held else value.get other := by
  cases own : value.hasOwn key with
  | true =>
    have replaced := get_map other value.members fun name old => if name = key then held else old
    simp only [set, own, if_true, replaced, hasOwn_object_members, get_object_members]
    by_cases same : other = key
    · simp [same, own]
    · by_cases there : value.hasOwn other
      · simp [same, there]
      · simp [same, get_of_hasOwn_false (Bool.not_eq_true _ ▸ there)]
  | false =>
    have added := get_append other value.members [(key, held)]
    simp only [set, own, Bool.false_eq_true, if_false, added, hasOwn_object_members, get_object_members]
    by_cases same : other = key
    · simp [same, own, get]
    · have beside : (object [(key, held)]).get other = undefined := by simp [get, Ne.symm same]
      by_cases there : value.hasOwn other
      · simp [same, there]
      · simp [same, there, beside, get_of_hasOwn_false (Bool.not_eq_true _ ▸ there)]

theorem hasOwn_set : (value.set key held).hasOwn other = (other == key || value.hasOwn other) := by
  cases own : value.hasOwn key with
  | true =>
    rw [set, own, if_pos rfl, hasOwn_map, hasOwn_object_members]
    by_cases same : other = key
    · simp [same, own]
    · simp [same]
  | false =>
    rw [set, own, if_neg Bool.false_ne_true, hasOwn_append, hasOwn_object_members]
    simp [hasOwn, Bool.or_comm, Bool.beq_comm (a := key)]

@[simp] theorem get_erase :
    (value.erase key).get other = if other = key then undefined else value.get other := by
  have kept := get_filter other value.members (· != key)
  rw [erase, kept]
  by_cases same : other = key <;> simp [same]

theorem hasOwn_erase : (value.erase key).hasOwn other = (other != key && value.hasOwn other) := by
  exact hasOwn_filter other value.members (· != key)

theorem get_spread :
    (base.spread override).get key = if override.hasOwn key then override.get key else base.get key := by
  have old := get_map key base.members fun name held =>
    if override.hasOwn name then override.get name else held
  have new := get_filter key override.members fun name => !base.hasOwn name
  rw [spread, get_append, old, new, hasOwn_map]
  simp only [hasOwn_object_members, get_object_members]
  by_cases below : base.hasOwn key <;> by_cases above : override.hasOwn key
  · simp [below, above]
  · simp [below, above]
  · simp [below, above]
  · simp only [Bool.not_eq_true] at below above
    simp [below, above, get_of_hasOwn_false]

theorem hasOwn_spread : (base.spread override).hasOwn key = (base.hasOwn key || override.hasOwn key) := by
  have new := hasOwn_filter key override.members fun name => !base.hasOwn name
  rw [spread, hasOwn_append, hasOwn_map, new]
  simp only [hasOwn_object_members]
  cases base.hasOwn key <;> simp

@[simp] theorem get_withoutUndefined : value.withoutUndefined.get key = value.get key := by
  have kept := get_filter key value.members fun name => !(value.get name).isUndefined
  rw [withoutUndefined, kept, get_object_members]
  by_cases missing : value.get key = undefined <;> simp [missing]

theorem hasOwn_withoutUndefined : value.withoutUndefined.hasOwn key = !(value.get key).isUndefined := by
  have kept := hasOwn_filter key value.members fun name => !(value.get name).isUndefined
  rw [withoutUndefined, kept, hasOwn_object_members]
  by_cases missing : value.get key = undefined
  · simp [missing, isUndefined]
  · simp [hasOwn_of_get missing]

@[simp] theorem get_overlay : (base.overlay override).get key
      = if (override.get key).isUndefined then base.get key else override.get key := by
  rw [overlay, get_spread, hasOwn_withoutUndefined, get_withoutUndefined]
  cases (override.get key).isUndefined <;> rfl

theorem hasOwn_overlay :
    (base.overlay override).hasOwn key = (base.hasOwn key || !(override.get key).isUndefined) := by
  rw [overlay, hasOwn_spread, hasOwn_withoutUndefined]

/-- A key that holds `undefined` on top hides the one below. -/
theorem get_spread_hiding : (base.spread override).get key
      = if override.ownsUndefined key then undefined
        else if (override.get key).isUndefined then base.get key else override.get key := by
  rw [get_spread, ownsUndefined]
  cases own : override.hasOwn key with
  | true => cases missing : (override.get key).isUndefined <;> simp_all
  | false => simp [get_of_hasOwn_false own]

theorem ownsUndefined_overlay : (base.overlay override).ownsUndefined key
      = (base.ownsUndefined key && (override.get key).isUndefined) := by
  rw [ownsUndefined, ownsUndefined, hasOwn_overlay, get_overlay]
  cases missing : (override.get key).isUndefined <;> simp [missing]

theorem ownsUndefined_set : (value.set key held).ownsUndefined other
      = if other = key then held.isUndefined else value.ownsUndefined other := by
  rw [ownsUndefined, ownsUndefined, hasOwn_set, get_set]
  by_cases same : other = key
  · simp [same]
  · simp [same, beq_eq_false_iff_ne.mpr same]

@[simp] theorem ownsUndefined_undefined : undefined.ownsUndefined key = false := rfl

theorem anyDefined_iff : value.anyDefined = true ↔ ∃ key, value.get key ≠ undefined := by
  simp only [anyDefined, List.any_eq_true, Bool.not_eq_true', isUndefined_eq_false_iff]
  constructor
  · rintro ⟨member, -, defined⟩
    exact ⟨member.1, defined⟩
  · rintro ⟨key, defined⟩
    have own := hasOwn_of_get defined
    rw [hasOwn, List.any_eq_true] at own
    obtain ⟨member, held, named⟩ := own
    exact ⟨member, held, (beq_iff_eq.mp named).symm ▸ defined⟩

@[simp] theorem get_orEmpty : value.orEmpty.get key = value.get key := by
  cases value <;> rfl

@[simp] theorem hasOwn_orEmpty : value.orEmpty.hasOwn key = value.hasOwn key := by
  cases value <;> rfl

@[simp] theorem ownsUndefined_orEmpty : value.orEmpty.ownsUndefined key = value.ownsUndefined key := by
  rw [ownsUndefined, ownsUndefined, hasOwn_orEmpty, get_orEmpty]

end

section

mutual

def withoutKeys (drop : String → Bool) : JsValue → JsValue
  | object members => object (membersWithoutKeys drop members)
  | value => value

def membersWithoutKeys (drop : String → Bool) : List (String × JsValue) → List (String × JsValue)
  | [] => []
  | (key, value) :: rest =>
    if drop key then membersWithoutKeys drop rest
    else (key, withoutKeys drop value) :: membersWithoutKeys drop rest

end

mutual

/-- How deep objects and arrays are nested in a value. -/
def depth : JsValue → Nat
  | object members => 1 + memberDepth members
  | array items => 1 + itemDepth items
  | _ => 0

def memberDepth : List (String × JsValue) → Nat
  | [] => 0
  | (_, value) :: rest => max (depth value) (memberDepth rest)

def itemDepth : List JsValue → Nat
  | [] => 0
  | value :: rest => max (depth value) (itemDepth rest)

end

variable {drop : String → Bool} {value : JsValue} {key : String}

theorem get_membersWithoutKeys (members : List (String × JsValue)) :
    (object (membersWithoutKeys drop members)).get key
      = if drop key then undefined else ((object members).get key).withoutKeys drop := by
  induction members with
  | nil => simp [membersWithoutKeys, withoutKeys]
  | cons member rest hyp =>
    simp only [get, members_object] at hyp
    obtain ⟨name, held⟩ := member
    by_cases same : name = key
    · subst same
      by_cases dropped : drop name
      · simpa [get, membersWithoutKeys, dropped] using hyp
      · simp [get, membersWithoutKeys, dropped]
    · by_cases dropped : drop name <;> simpa [get, membersWithoutKeys, dropped, same] using hyp

@[simp] theorem get_withoutKeys :
    (value.withoutKeys drop).get key = if drop key then undefined else (value.get key).withoutKeys drop := by
  cases value with
  | object members => exact get_membersWithoutKeys members
  | _ => simp [withoutKeys, get, members]

@[simp] theorem leaf_withoutKeys : (value.withoutKeys drop).leaf = value.leaf := by
  cases value <;> rfl

@[simp] theorem descend_undefined (path : List String) : undefined.descend path = undefined := by
  induction path with
  | nil => rfl
  | cons key path hyp => exact hyp

theorem descend_withoutKeys (path : List String) : (value.withoutKeys drop).descend path
      = if path.any drop then undefined else (value.descend path).withoutKeys drop := by
  induction path generalizing value with
  | nil => rfl
  | cons key path hyp =>
    rw [descend, get_withoutKeys, descend, List.any_cons]
    cases drop key with
    | false => simpa using hyp
    | true => simp

end

end JsValue

open JsValue

section

variable {left right third base base' override override' value : JsValue} {key : String}

/-- **The same for every reader**: along every path the same scalars, arrays and objects. -/
def Same (left right : JsValue) : Prop := ∀ path, (left.descend path).shape = (right.descend path).shape

def SameLeaves (left right : JsValue) : Prop := ∀ path, (left.descend path).leaf = (right.descend path).leaf

theorem Same.refl (value : JsValue) : Same value value := fun _ => rfl

theorem Same.get (same : Same left right) (key : String) : Same (left.get key) (right.get key) :=
  fun path => same (key :: path)

theorem same_iff : Same left right ↔ left.shape = right.shape ∧ ∀ key, Same (left.get key) (right.get key) := by
  constructor
  · exact fun same => ⟨same [], same.get⟩
  · rintro ⟨shapes, under⟩ path
    cases path with
    | nil => exact shapes
    | cons key path => exact under key path

theorem Same.isUndefined (same : Same left right) : left.isUndefined = right.isUndefined := by
  have shapes := same []
  cases left <;> cases right <;> simp_all [JsValue.isUndefined, shape, JsValue.descend]

theorem Same.truthy (same : Same left right) : left.truthy = right.truthy := by
  have shapes := same []
  cases left <;> cases right <;> simp_all [JsValue.truthy, shape, JsValue.descend]

theorem Same.orEmpty (same : Same left right) : Same left.orEmpty right.orEmpty := by
  have shapes := same []
  rw [same_iff]
  refine ⟨?_, fun key => by simpa using same.get key⟩
  cases left <;> cases right <;> simp_all [JsValue.orEmpty, shape, JsValue.descend]

theorem SameLeaves.get (same : SameLeaves left right) (key : String) :
    SameLeaves (left.get key) (right.get key) :=
  fun path => same (key :: path)

theorem SameLeaves.withoutKeys (same : SameLeaves left right) (drop : String → Bool) :
    SameLeaves (left.withoutKeys drop) (right.withoutKeys drop) := by
  intro path
  rw [descend_withoutKeys, descend_withoutKeys]
  split
  · rfl
  · rw [leaf_withoutKeys, leaf_withoutKeys]
    exact same path

theorem SameLeaves.eq_or_hollow (same : SameLeaves left right) :
    left = right ∨ left.leaf = none ∧ right.leaf = none := by
  have leaves := same []
  cases left <;> cases right <;> simp_all [leaf, JsValue.descend]

theorem same_of_get {members members' : List (String × JsValue)}
    (under : ∀ key, Same ((object members).get key) ((object members').get key)) :
    Same (object members) (object members') :=
  same_iff.mpr ⟨rfl, under⟩

theorem Same.set {held held' : JsValue} (same : Same left right) (at_key : Same held held') :
    Same (left.set key held) (right.set key held') := by
  refine same_of_get fun other => ?_
  change Same ((left.set key held).get other) ((right.set key held').get other)
  rw [get_set, get_set]
  split
  · exact at_key
  · exact same.get other

theorem Same.erase (same : Same left right) : Same (left.erase key) (right.erase key) := by
  refine same_of_get fun other => ?_
  change Same ((left.erase key).get other) ((right.erase key).get other)
  rw [get_erase, get_erase]
  split
  · exact Same.refl _
  · exact same.get other

theorem Same.overlay (same : Same base base') (above : Same override override') :
    Same (base.overlay override) (base'.overlay override') := by
  refine same_of_get fun key => ?_
  change Same ((base.overlay override).get key) ((base'.overlay override').get key)
  rw [get_overlay, get_overlay, (above.get key).isUndefined]
  split
  · exact same.get key
  · exact above.get key

theorem Same.get_spread_hiding (same : Same override override') (base : JsValue)
    (owned : override.ownsUndefined key = override'.ownsUndefined key) :
    Same ((base.spread override).get key) ((base.spread override').get key) := by
  rw [JsValue.get_spread_hiding, JsValue.get_spread_hiding, owned, (same.get key).isUndefined]
  split
  · exact Same.refl _
  · split
    · exact Same.refl _
    · exact same.get key

def Populated (value : JsValue) : Prop := value = undefined ∨ ∃ key, value.get key ≠ undefined

/-- `Object.values(value).some((entry) => entry !== undefined) ? value : undefined` -/
def collapse (value : JsValue) : JsValue := if value.anyDefined then value else undefined

theorem populated_collapse (value : JsValue) : Populated (collapse value) := by
  unfold collapse
  split
  · exact Or.inr (anyDefined_iff.mp ‹_›)
  · exact Or.inl rfl

@[simp] theorem get_collapse : (collapse value).get key = value.get key := by
  unfold collapse
  split
  case isTrue => rfl
  case isFalse hollow =>
      rw [anyDefined_iff] at hollow
      simp only [ne_eq, not_exists, not_not] at hollow
      rw [hollow key, get_undefined]

theorem hasOwn_collapse : (collapse value).hasOwn key = (!(collapse value).isUndefined && value.hasOwn key) := by
  unfold collapse
  split
  case isTrue some =>
    obtain ⟨key, defined⟩ := anyDefined_iff.mp some
    obtain ⟨members, rfl⟩ := isObject_iff.mp (isObject_of_get defined)
    rfl
  case isFalse => rfl

theorem Populated.same (populated : Populated left) (populated' : Populated right)
    (under : ∀ key, Same (left.get key) (right.get key)) : Same left right := by
  rcases populated with rfl | ⟨key, defined⟩
  · rcases populated' with rfl | ⟨key, defined⟩
    · exact Same.refl _
    · have missing := (under key).isUndefined
      simp only [get_undefined, isUndefined_undefined] at missing
      exact absurd (isUndefined_iff.mp missing.symm) defined
  · have defined' : right.get key ≠ undefined := by
      rw [← isUndefined_eq_false_iff, ← (under key).isUndefined]
      exact isUndefined_eq_false_iff.mpr defined
    obtain ⟨members, rfl⟩ := isObject_iff.mp (isObject_of_get defined)
    obtain ⟨members', rfl⟩ := isObject_iff.mp (isObject_of_get defined')
    exact same_of_get under

end

end PiCrew.JsObjects
