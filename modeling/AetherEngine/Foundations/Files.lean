import AetherEngine.Foundations.Frames
import AetherEngine.Foundations.Tables

/-!
# A directory of files

Written bytes reach the disk when the file is synced.  A rename and an unlink
are atomic and durable.  After a crash a synced file holds its bytes; of any
other file the crash leaves whatever it likes, or nothing.
-/

namespace AetherEngine.Files

open AetherEngine.Frames

structure File where
  bytes : Bytes
  synced : Bool
deriving DecidableEq, Repr

/-- The files of a directory by name. -/
abbrev Folder := Std.ExtTreeMap String File

/-- Replace the content of a file. -/
def write (files : Folder) (name : String) (bytes : Bytes) : Folder :=
  files.insert name ⟨bytes, false⟩

/-- Flush the content of a file to the disk. -/
def sync (files : Folder) (name : String) : Folder :=
  files.alter name fun file => file.map fun file => { file with synced := true }

/-- Move a file over another one. -/
def rename (files : Folder) (source target : String) : Folder :=
  match files[source]? with
  | some file => (files.erase source).insert target file
  | none => files

def unlink (files : Folder) (name : String) : Folder :=
  files.erase name

/-- What a crash leaves.  `torn` gives the content of the files that were not
synced. -/
def crash (torn : String → Option Bytes) (files : Folder) : Folder :=
  files.filterMap fun name file =>
    if file.synced then some file else (torn name).map fun bytes => ⟨bytes, true⟩

theorem getElem?_write (files : Folder) (name other : String) (bytes : Bytes) :
    (write files name bytes)[other]? =
      if name = other then some ⟨bytes, false⟩ else files[other]? :=
  Tables.getElem?_insert files name other _

theorem getElem?_sync (files : Folder) (name other : String) :
    (sync files name)[other]? =
      if name = other then
        files[name]?.map fun file => { file with synced := true }
      else
        files[other]? :=
  Tables.getElem?_alter files name other _

theorem getElem?_unlink (files : Folder) (name other : String) :
    (unlink files name)[other]? =
      if name = other then none else files[other]? :=
  Tables.getElem?_erase files name other

theorem getElem?_rename {files : Folder} {source target : String} {file : File}
    (found : files[source]? = some file) (other : String) :
    (rename files source target)[other]? =
      if target = other then some file
      else if source = other then none
      else files[other]? := by
  simp only [rename, found]
  rw [Tables.getElem?_insert, Tables.getElem?_erase]

theorem getElem?_crash (torn : String → Option Bytes) (files : Folder)
    (name : String) :
    (crash torn files)[name]? =
      files[name]?.bind fun file =>
        if file.synced then some file
        else (torn name).map fun bytes => ⟨bytes, true⟩ := by
  rw [crash, Std.ExtTreeMap.getElem?_filterMap']

/-- A synced file is not touched by a crash. -/
theorem getElem?_crash_of_synced {files : Folder} {name : String} {file : File}
    (found : files[name]? = some file) (synced : file.synced = true)
    (torn : String → Option Bytes) :
    (crash torn files)[name]? = some file := by
  rw [getElem?_crash, found, Option.bind_some, if_pos synced]

/-- A crash creates no file. -/
theorem getElem?_of_crash {files : Folder} {name : String} {left : File}
    {torn : String → Option Bytes}
    (found : (crash torn files)[name]? = some left) :
    ∃ file, files[name]? = some file := by
  rw [getElem?_crash] at found
  obtain ⟨file, before, -⟩ := Option.bind_eq_some_iff.mp found
  exact ⟨file, before⟩

end AetherEngine.Files
