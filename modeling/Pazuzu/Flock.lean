import Mathlib.Data.List.Nodup
import Mathlib.Data.List.Perm.Subperm

/-! Advisory locks on whole files, as `flock` keeps them: a lock belongs to one
open file description and excludes every other one. Files and holders are
arbitrary. -/
namespace Flock

variable {File Holder : Type}

/-- The locks that are held, newest first. -/
abbrev Table (File Holder : Type) := List (File × Holder)

namespace Table

/-- A lock attempt that does not wait. -/
def tryLock [DecidableEq File] (table : Table File Holder) (file : File) (holder : Holder) :
    Option (Table File Holder) :=
  if file ∈ table.map Prod.fst then none else some ((file, holder) :: table)

/-- Drop the locks of the holders that are gone. -/
def drop (table : Table File Holder) (gone : Holder → Bool) : Table File Holder :=
  table.filter fun entry => !gone entry.2

/-- The locks of the holders with a property. -/
def heldBy (table : Table File Holder) (kind : Holder → Bool) : Table File Holder :=
  table.filter fun entry => kind entry.2

/-- No file is locked twice. -/
def Exclusive (table : Table File Holder) : Prop := (table.map Prod.fst).Nodup

theorem exclusive_nil : Exclusive ([] : Table File Holder) := List.nodup_nil

theorem Exclusive.sublist {table part : Table File Holder} (h : table.Exclusive)
    (hPart : part.Sublist table) : part.Exclusive :=
  List.Nodup.sublist (hPart.map Prod.fst) h

theorem Exclusive.heldBy {table : Table File Holder} (h : table.Exclusive) (kind : Holder → Bool) :
    (table.heldBy kind).Exclusive :=
  h.sublist List.filter_sublist

theorem tryLock_eq_some [DecidableEq File] {table after : Table File Holder} {file : File}
    {holder : Holder} (h : table.tryLock file holder = some after) :
    file ∉ table.map Prod.fst ∧ after = (file, holder) :: table := by
  unfold Table.tryLock at h
  split at h
  · cases h
  · next hFree => exact ⟨hFree, (Option.some.inj h).symm⟩

theorem Exclusive.tryLock [DecidableEq File] {table after : Table File Holder} {file : File}
    {holder : Holder} (h : table.Exclusive) (hLock : table.tryLock file holder = some after) :
    after.Exclusive := by
  obtain ⟨hFree, rfl⟩ := tryLock_eq_some hLock
  exact List.nodup_cons.mpr ⟨hFree, h⟩

/-- Two locks on one file are the same lock. -/
theorem Exclusive.eq_of_file {table : Table File Holder} (h : table.Exclusive)
    {entry other : File × Holder} (hEntry : entry ∈ table) (hOther : other ∈ table)
    (hFile : entry.1 = other.1) : entry = other :=
  List.inj_on_of_nodup_map h hEntry hOther hFile

/-- There are no more locks than files to lock. -/
theorem Exclusive.length_le {table : Table File Holder} (h : table.Exclusive) {files : List File}
    (hFiles : ∀ entry ∈ table, entry.1 ∈ files) : table.length ≤ files.length := by
  have hSubset : table.map Prod.fst ⊆ files := by
    intro file hFile
    obtain ⟨entry, hEntry, rfl⟩ := List.mem_map.mp hFile
    exact hFiles entry hEntry
  have hLength := (List.subperm_of_subset h hSubset).length_le
  rwa [List.length_map] at hLength

theorem mem_heldBy {table : Table File Holder} {kind : Holder → Bool} {entry : File × Holder} :
    entry ∈ table.heldBy kind ↔ entry ∈ table ∧ kind entry.2 = true :=
  List.mem_filter

end Table
end Flock
