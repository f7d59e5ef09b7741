import ElmIntake.Error
import ElmIntake.Json.Record

/-! # Manifests

    The file that describes a project, as far as it says where the sources
    are. -/

namespace ElmIntake

/-- A project's manifest. -/
structure Manifest where
  /-- What kind of project it is. -/
  type : String
  /-- Where the sources are, if the manifest says so. -/
  declared : Option (List Path)
  deriving Repr, DecidableEq

namespace Manifest

/-- Is the project a package? -/
def isPackage (m : Manifest) : Bool := m.type == "package"

/-- Where the sources are, seen from the manifest: in a package always in the
    same place. -/
def sourceDirectories (m : Manifest) : List Path :=
  if m.isPackage then [⟨"src"⟩] else m.declared.getD []

/-! ## Manifest files -/

open Json (Reader)

/-- How manifests are written. -/
def record : Reader.Record (Option String × Option (List Path)) where
  name := "ProjectManifest"
  initial := (none, none)
  fields :=
    [{ name := "type", required := true,
       read := do
        let type ← Reader.text "a string"
        return fun m => (some type, m.2) },
     { name := "source-directories", required := false,
       read := do
        let declared ← Reader.optional (.list do return ⟨← Reader.text "path string"⟩)
        return fun m => (m.1, declared) }]

/-- Why a manifest cannot be used. -/
inductive Fault where
  | json (fault : Json.Fault)
  /-- A project that is no package has to say where its sources are. -/
  | noDirectories
  deriving Repr

/-- The wording of a fault. -/
def Fault.message : Fault → String
  | json fault => toString fault
  | noDirectories => "an application must declare \"source-directories\""

/-- The manifest that a document gives. -/
def ofJson (document : Bytes) : Except Fault Manifest :=
  match (Reader.whole (Reader.record record)).onDocument document with
  | .error fault => .error (.json fault)
  | .ok (type, declared) =>
    let m : Manifest := ⟨type.getD "", declared⟩
    if !m.isPackage && declared.isNone then .error .noDirectories else .ok m

/-- The manifest in a file. -/
def load (fs : FileSystem) (path : Path) : Except IngestError Manifest :=
  if !fs.contains path then .error (.manifestNotFound path)
  else
    match fs.read path with
    | .error fault =>
      if fault.isNotFound then .error (.manifestNotFound path)
      else .error (.manifestInvalid path fault.message)
    | .ok content => (ofJson content).mapError fun fault => .manifestInvalid path fault.message

end Manifest

end ElmIntake
