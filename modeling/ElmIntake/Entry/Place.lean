import ElmIntake.Entry
import ElmIntake.FileSystem

/-! # Places for entries

    Entries are kept in a folder, one file for each content digest, and the
    folder is made when the first one is stored. An entry is written to a
    temporary file first, which is then renamed: a file under the name of an
    entry is there as a whole or not at all. What the folder has to offer for
    that is a class; each step of storing is a function of its own, so that
    those of several writers can be mixed. -/

namespace ElmIntake

/-- What is asked of a folder of entries. Its files go by their names. -/
class EntryPlace (σ : Type) where
  /-- The content of a file. -/
  read : String → σ → Except IoFault Bytes
  /-- How many entries there are, going by the names in the folder. -/
  size : σ → Nat
  /-- Makes the folder if it is not there. -/
  make : σ → Except IoFault σ
  /-- Writes a file in the place of the one that is there, if any. -/
  write : String → Bytes → σ → Except IoFault σ
  /-- Gives a file another name, in the place of the file that has it. -/
  rename : String → String → σ → Except IoFault σ
  /-- Takes a file away, if it is there. -/
  discard : String → σ → σ
  /-- Takes away the folder and all that is in it. -/
  clear : σ → Except IoFault σ

namespace EntryPlace

/-! ## Names -/

/-- The extension of the files of entries. -/
def entryExtension : String := "bin"

/-- The name of the file for a digest. -/
def entryName (hash : String) : String := s!"{hash}.{entryExtension}"

/-- The name of the temporary file of one act of writing, which `writer` tells
    from all others. -/
def tempName (hash : String) (writer : Nat) : String := s!".{hash}.{writer}.tmp"

/-- Does something of this name in the folder count as an entry? -/
def isEntryName (name : String) : Bool := (Path.mk name).extension == some entryExtension

/-! ## The steps of storing -/

variable {σ : Type} [EntryPlace σ]

/-- Writes the temporary file of an entry. -/
def writeTemp (writer : Nat) (e : Entry) (place : σ) : Except IoFault σ :=
  write (tempName e.contentHash writer) e.toBytes place

/-- Makes the temporary file of an entry the entry's file. -/
def publish (writer : Nat) (e : Entry) (place : σ) : Except IoFault σ :=
  rename (tempName e.contentHash writer) (entryName e.contentHash) place

/-- Takes away the temporary file of an entry. -/
def withdraw (writer : Nat) (e : Entry) (place : σ) : σ :=
  discard (tempName e.contentHash writer) place

/-- Stores an entry: the fault that stood in the way, if any, and what is in the
    folder afterwards. A temporary file that could not be made the entry's file
    is taken away again. -/
def put (writer : Nat) (e : Entry) (place : σ) : Option IoFault × σ :=
  match make place with
  | .error fault => (some fault, place)
  | .ok made =>
    match writeTemp writer e made with
    | .error fault => (some fault, withdraw writer e made)
    | .ok written =>
      match publish writer e written with
      | .error fault => (some fault, withdraw writer e written)
      | .ok published => (none, published)

end EntryPlace

end ElmIntake
