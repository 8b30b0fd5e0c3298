/-
**Files that are told apart by their stamps.**

A file has a content and a stamp, the time of its last change and its size. A write gives it a `Fresh` stamp:
one that it never had, and whose time, if it is not the present one, is not one that has passed.

* `Seen.spent` — this holds even of a stamp that has the time of an earlier look and the size of a later one.
-/

import Mathlib.Data.List.Basic

/-- What a stat call says about a file. -/
structure Stamp where
  mtimeMs : Nat
  size : Nat
  deriving DecidableEq, Repr

def Stamp.zero : Stamp := ⟨0, 0⟩

/-- **A file**, with the stamps it had before the present one. -/
structure StampedFile (α : Type*) where
  content : α
  stamp : Stamp
  past : List Stamp := [Stamp.zero]

namespace StampedFile

variable {α : Type*} (file : StampedFile α)

def write (content : α) (stamp : Stamp) : StampedFile α where
  content := content
  stamp := stamp
  past := file.stamp :: file.past

/-- **A stamp that the next write may give**: it is new, and its time has not passed. -/
structure Fresh (stamp : Stamp) : Prop where
  now : stamp ≠ file.stamp
  past : stamp ∉ file.past
  time : ∀ old ∈ file.past, old.mtimeMs ≠ file.stamp.mtimeMs → stamp.mtimeMs ≠ old.mtimeMs

instance decidableFresh (stamp : Stamp) : Decidable (file.Fresh stamp) :=
  decidable_of_iff (stamp ≠ file.stamp ∧ stamp ∉ file.past ∧
      ∀ old ∈ file.past, old.mtimeMs ≠ file.stamp.mtimeMs → stamp.mtimeMs ≠ old.mtimeMs)
    ⟨fun ⟨now, past, time⟩ => ⟨now, past, time⟩, fun fresh => ⟨fresh.now, fresh.past, fresh.time⟩⟩

def Passed (mtimeMs : Nat) : Prop :=
  mtimeMs ≠ file.stamp.mtimeMs ∧ ∃ old ∈ file.past, old.mtimeMs = mtimeMs

def Seen (mtimeMs : Nat) : Prop := mtimeMs = file.stamp.mtimeMs ∨ ∃ old ∈ file.past, old.mtimeMs = mtimeMs

def Spent (stamp : Stamp) : Prop := stamp = file.stamp ∨ stamp ∈ file.past ∨ file.Passed stamp.mtimeMs

/-- **A stamp describes a content**: while the file has that stamp, it has that content. -/
def Describes (stamp : Stamp) (content : α) : Prop :=
  file.Spent stamp ∧ (stamp = file.stamp → content = file.content)

section

variable {file : StampedFile α} {stamp : Stamp} {content : α}

theorem spent_stamp : file.Spent file.stamp := Or.inl rfl

theorem describes_now : file.Describes file.stamp file.content := ⟨spent_stamp, fun _ => rfl⟩

theorem describes_read (spent : file.Spent stamp) : file.Describes stamp file.content := ⟨spent, fun _ => rfl⟩

theorem seen_stamp : file.Seen file.stamp.mtimeMs := Or.inl rfl

theorem Seen.spent {mtimeMs : Nat} (seen : file.Seen mtimeMs) : file.Spent ⟨mtimeMs, file.stamp.size⟩ := by
  by_cases same : mtimeMs = file.stamp.mtimeMs
  · subst same
    exact spent_stamp
  · exact Or.inr (Or.inr ⟨same, seen.resolve_left same⟩)

end

section

variable {file : StampedFile α} {stamp next : Stamp} (fresh : file.Fresh next)
include fresh

theorem Fresh.unspent (spent : file.Spent stamp) : stamp ≠ next := by
  rintro rfl
  rcases spent with now | past | ⟨other, old, member, same⟩
  · exact fresh.now now
  · exact fresh.past past
  · exact fresh.time old member (same ▸ other) same.symm

theorem Spent.write (spent : file.Spent stamp) (content : α) : (file.write content next).Spent stamp := by
  rcases spent with rfl | past | ⟨other, old, member, same⟩
  · exact Or.inr (Or.inl List.mem_cons_self)
  · exact Or.inr (Or.inl (List.mem_cons_of_mem _ past))
  · exact Or.inr (Or.inr ⟨fun now => fresh.time old member (same ▸ other) (same ▸ now.symm),
      old, List.mem_cons_of_mem _ member, same⟩)

theorem Describes.write {content : α} (describes : file.Describes stamp content) (written : α) :
    (file.write written next).Describes stamp content :=
  ⟨describes.1.write fresh written, fun same => absurd same (fresh.unspent describes.1)⟩

omit fresh in
theorem Seen.write {mtimeMs : Nat} (seen : file.Seen mtimeMs) (content : α) :
    (file.write content next).Seen mtimeMs := by
  rcases seen with now | ⟨old, member, same⟩
  · exact Or.inr ⟨file.stamp, List.mem_cons_self, now.symm⟩
  · exact Or.inr ⟨old, List.mem_cons_of_mem _ member, same⟩

end

section

/-- **The stamp of no file** is in the past of the file, and not its present stamp. -/
structure Exists (file : StampedFile α) : Prop where
  now : Stamp.zero ≠ file.stamp
  past : Stamp.zero ∈ file.past

variable {file : StampedFile α}

theorem Exists.describes (there : file.Exists) (content : α) : file.Describes Stamp.zero content :=
  ⟨Or.inr (Or.inl there.past), fun same => absurd same there.now⟩

theorem Exists.write {next : Stamp} (there : file.Exists) (fresh : file.Fresh next) (content : α) :
    (file.write content next).Exists :=
  ⟨fun same => fresh.past ((show Stamp.zero = next from same) ▸ there.past), List.mem_cons_of_mem _ there.past⟩

end

end StampedFile
