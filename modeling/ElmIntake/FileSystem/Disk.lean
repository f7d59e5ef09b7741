import ElmIntake.FileSystem
import ElmIntake.Listing

/-! # Disks

    A tree of directories with files and symbolic links in it. A path leads to
    a **spot** of the tree: from the root or the current directory it goes down
    by names and up by two dots, and where it meets a link it goes on from
    there. On its way it may meet at most 40 links. -/

namespace ElmIntake

/-! ## Nodes -/

/-- What can be in a directory. -/
inductive Node where
  | file (content : Bytes) (modified : FileTime)
  | directory (entries : List (String × Node))
  | link (target : Path)
  deriving Repr, Inhabited

namespace Node

/-- The entries of a directory; what is no directory has none. -/
def entries : Node → Listing Node
  | directory es => es
  | _ => []

/-- Is the node a directory? -/
def isDirectory : Node → Bool
  | directory _ => true
  | _ => false

/-- What lies below a node under some names, without going through links. -/
def find? (node : Node) : List String → Option Node
  | [] => some node
  | name :: names =>
    match Listing.get? node.entries name with
    | some child => child.find? names
    | none => none

/-- Changes the entries of the directory below a node under some names. Where
    there is no such directory nothing changes. -/
def editEntries (f : Listing Node → Listing Node) : List String → Node → Node
  | [], directory es => directory (f es)
  | name :: names, directory es =>
    match Listing.get? es name with
    | some child => directory (Listing.put name (editEntries f names child) es)
    | none => directory es
  | _, node => node

end Node

/-! ## Disks -/

/-- A tree and the names that lead from its root to the current directory. -/
structure Disk where
  root : Node := .directory []
  cwd : List String := []
  deriving Repr, Inhabited

namespace Disk

/-- The names that lead from the root to a place in the tree, or to where a
    place could be made; and how many links may still be met. -/
structure Spot where
  names : List String
  links : Nat
  deriving Repr, DecidableEq

/-- The longest name that a directory can hold, in bytes. -/
def maxNameBytes : Nat := 255

/-- The longest path that can be followed, in bytes. -/
def maxPathBytes : Nat := 4095

/-- How many links can be met on the way. -/
def maxLinks : Nat := 40

/-- The steps of a path: the stretches between its slashes that are not empty.
    A slash at the end asks for a directory, as a dot does. -/
def steps (p : Path) : List String :=
  let segments := Path.segments p.text.toList
  let steps := (segments.filter (· != [])).map String.ofList
  if segments.getLast? == some [] ∧ steps ≠ [] then steps ++ ["."] else steps

/-- Where the steps lead from the directory `here`. The last step may lead to
    nothing. A link in the last step is met only if `follow` is set. -/
def go (d : Disk) (follow : Bool) (links : Nat) (here : List String) :
    List String → Except IoFault Spot
  | [] => .ok ⟨here, links⟩
  | "." :: rest => go d follow links here rest
  -- Above the root there is the root.
  | ".." :: rest => go d follow links here.dropLast rest
  | name :: rest =>
    if maxNameBytes < name.utf8ByteSize then .error .nameTooLong
    else
      let there := here ++ [name]
      match d.root.find? there with
      | none => if rest = [] then .ok ⟨there, links⟩ else .error .notFound
      | some (.file ..) => if rest = [] then .ok ⟨there, links⟩ else .error .notDirectory
      | some (.directory _) => go d follow links there rest
      | some (.link target) =>
        if rest = [] ∧ !follow then .ok ⟨there, links⟩
        else
          match links with
          | 0 => .error .tooManyLinks
          | links + 1 =>
            -- A link is seen from the directory that it is in.
            go d follow links (if target.isAbsolute then [] else here) (steps target ++ rest)
termination_by rest => (links, rest.length)

/-- A way never leaves more links than it was given. -/
theorem go_links {d : Disk} {follow : Bool} {links : Nat} {here rest : List String} {spot : Spot}
    (h : d.go follow links here rest = .ok spot) : spot.links ≤ links := by
  fun_induction go d follow links here rest with
  | case1 => cases h; exact Nat.le_refl _
  | case2 _ _ _ ih => exact ih h
  | case3 _ _ _ ih => exact ih h
  | case4 => cases h
  | case5 => cases h; exact Nat.le_refl _
  | case6 => cases h
  | case7 => cases h; exact Nat.le_refl _
  | case8 => cases h
  | case9 => next ih => exact ih h
  | case10 => cases h; exact Nat.le_refl _
  | case11 => cases h
  | case12 => next ih => exact Nat.le_succ_of_le (ih h)

/-- Where a path leads. -/
def locate (d : Disk) (follow : Bool) (p : Path) : Except IoFault Spot :=
  if p.text.contains '\x00' then .error .badName
  else if p.text = "" then .error .notFound
  else if maxPathBytes < p.text.utf8ByteSize then .error .nameTooLong
  else d.go follow maxLinks (if p.isAbsolute then [] else d.cwd) (steps p)

/-! ## Questions -/

/-- What a path leads to. -/
def node (d : Disk) (p : Path) : Except IoFault Node :=
  match d.locate true p with
  | .error fault => .error fault
  | .ok spot =>
    match d.root.find? spot.names with
    | some node => .ok node
    | none => .error .notFound

/-- The content of a file. -/
def read (d : Disk) (p : Path) : Except IoFault Bytes :=
  match d.node p with
  | .error fault => .error fault
  | .ok (.file content _) => .ok content
  | .ok _ => .error .isDirectory

/-- The text of a file. -/
def readText (d : Disk) (p : Path) : Except IoFault String :=
  match d.read p with
  | .error fault => .error fault
  | .ok content => (Text.ofUtf8 content).mapError fun _ => .notText

/-- The time of a file; directories have none. -/
def modified (d : Disk) (p : Path) : Except IoFault FileTime :=
  match d.node p with
  | .error fault => .error fault
  | .ok (.file _ time) => .ok time
  | .ok _ => .ok none

/-- Does the path lead to anything? -/
def contains (d : Disk) (p : Path) : Bool := (d.node p).toOption.isSome

/-- Does the path lead to a directory? -/
def isDirectory (d : Disk) (p : Path) : Bool :=
  match d.node p with
  | .ok node => node.isDirectory
  | .error _ => false

/-- The absolute path without links and dots that leads to the same place. -/
def canonical (d : Disk) (p : Path) : Except IoFault Path :=
  match d.locate true p with
  | .error fault => .error fault
  | .ok spot =>
    if (d.root.find? spot.names).isSome then
      .ok (.ofParts (.root :: spot.names.map PathPart.name))
    else .error .notFound

/-! ## Walks -/

/-- What was found under each name, by name. -/
def inOrder (found : List (String × List Path)) : List Path :=
  (found.mergeSort fun a b => a.1 ≤ b.1).flatMap (·.2)

/-- The files below each of some entries of the directory at `here`, which the
    walk knows as `path`. Links are followed, but not to a directory that the
    walk is inside of: `inside` are the places of these. -/
def walkEntries (d : Disk) (skip : Path → Bool) (links : Nat) (inside : List (List String))
    (here : List String) (path : Path) : Listing Node → List (String × List Path)
  | [] => []
  | (name, node) :: entries =>
    let p := path.child name
    let below : List Path :=
      match node with
      | .file .. => [p]
      | .directory es =>
        if skip p then []
        else
          let there := here ++ [name]
          inOrder (walkEntries d skip links (there :: inside) there p es)
      | .link target =>
        -- A link that leads nowhere, or in a circle, has no files below it.
        match links with
        | 0 => []
        | links + 1 =>
          match _h : d.go true links (if target.isAbsolute then [] else here) (steps target) with
          | .error _ => []
          | .ok spot =>
            match d.root.find? spot.names with
            | some (.file ..) => [p]
            | some (.directory es) =>
              if spot.names ∈ inside ∨ skip p then []
              else inOrder (walkEntries d skip spot.links (spot.names :: inside) spot.names p es)
            | _ => []
    (name, below) :: walkEntries d skip links inside here path entries
termination_by entries => (links, sizeOf entries)
decreasing_by
  · exact .right _ (by simp only [List.cons.sizeOf_spec, Prod.mk.sizeOf_spec,
      Node.directory.sizeOf_spec]; omega)
  · exact .left _ _ (Nat.lt_succ_of_le (go_links ‹_›))
  · exact .right _ (by simp only [List.cons.sizeOf_spec, Prod.mk.sizeOf_spec]; omega)

/-- The files below one entry of the directory at `here`; its path is `p`. -/
def filesBelow (d : Disk) (skip : Path → Bool) (links : Nat) (inside : List (List String))
    (here : List String) (p : Path) (name : String) : Node → List Path
  | .file .. => [p]
  | .directory es =>
    if skip p then []
    else inOrder (d.walkEntries skip links ((here ++ [name]) :: inside) (here ++ [name]) p es)
  | .link target =>
    match links with
    | 0 => []
    | links + 1 =>
      match d.go true links (if target.isAbsolute then [] else here) (steps target) with
      | .error _ => []
      | .ok spot =>
        match d.root.find? spot.names with
        | some (.file ..) => [p]
        | some (.directory es) =>
          if spot.names ∈ inside ∨ skip p then []
          else inOrder (d.walkEntries skip spot.links (spot.names :: inside) spot.names p es)
        | _ => []

theorem walkEntries_cons (d : Disk) (skip : Path → Bool) (links : Nat)
    (inside : List (List String)) (here : List String) (path : Path) (name : String)
    (node : Node) (entries : Listing Node) :
    d.walkEntries skip links inside here path ((name, node) :: entries) =
      (name, d.filesBelow skip links inside here (path.child name) name node) ::
        d.walkEntries skip links inside here path entries := by
  rw [walkEntries.eq_def]
  dsimp only
  congr 2
  cases node with
  | file => rfl
  | directory => rfl
  | link target =>
    cases links with
    | zero => rfl
    | succ links =>
      dsimp only [filesBelow]
      split
      · next heq => simp only [heq]
      · next spot heq =>
        generalize d.go true links _ (steps target) = found at heq ⊢
        subst heq
        rfl

/-- The files below a directory, depth first and by name, without those in
    directories that are to be skipped. -/
def walk (d : Disk) (root : Path) (skip : Path → Bool) : List Path :=
  match d.locate true root with
  | .error _ => []
  | .ok spot =>
    match d.root.find? spot.names with
    | some (.directory es) =>
      inOrder (walkEntries d skip spot.links [spot.names] spot.names root es)
    | some (.file ..) => [root]
    | _ => []

/-- The disk as a file system. -/
def fileSystem (d : Disk) : FileSystem where
  read := d.read
  modified := d.modified
  contains := d.contains
  isDirectory := d.isDirectory
  walk := d.walk

/-! ## Changes -/

/-- Puts a node at a spot. -/
def putAt (d : Disk) (names : List String) (node : Node) : Disk :=
  match names.getLast? with
  | none => d
  | some name => { d with root := d.root.editEntries (Listing.put name node) names.dropLast }

/-- Takes away what is at a spot. -/
def eraseAt (d : Disk) (names : List String) : Disk :=
  match names.getLast? with
  | none => d
  | some name => { d with root := d.root.editEntries (Listing.erase name) names.dropLast }

/-- The path without slashes at its end. -/
def withoutSlashes (p : Path) : Path :=
  match p.text.toList.reverse.dropWhile (· == '/') with
  | [] => p
  | cs => ⟨String.ofList cs.reverse⟩

/-- Makes a directory where there is nothing. -/
def makeDirectory (d : Disk) (p : Path) : Except IoFault Disk :=
  match d.locate false (withoutSlashes p) with
  | .error fault => .error fault
  | .ok spot =>
    if (d.root.find? spot.names).isSome then .error .alreadyExists
    else .ok (d.putAt spot.names (.directory []))

/-- Makes a directory and those above it as far as they are missing. `depth` is
    how far up this may go. -/
def makeDirectoriesUpTo (d : Disk) : Nat → Path → Except IoFault Disk
  | 0, p => if p.text = "" then .ok d else .error .notFound
  | depth + 1, p =>
    if p.text = "" then .ok d
    else
      match d.makeDirectory p with
      | .ok d => .ok d
      | .error fault =>
        -- What could not be made may be there already.
        if !fault.isNotFound then if d.isDirectory p then .ok d else .error fault
        else
          match p.parent with
          | none => .error fault
          | some above =>
            match makeDirectoriesUpTo d depth above with
            | .error fault => .error fault
            | .ok d =>
              match d.makeDirectory p with
              | .ok d => .ok d
              | .error fault => if d.isDirectory p then .ok d else .error fault

/-- Makes a directory and all those above it that are missing. -/
def makeDirectories (d : Disk) (p : Path) : Except IoFault Disk :=
  d.makeDirectoriesUpTo (p.parts.length + 1) p

/-- Writes a file in the place of the one that is there, if any. -/
def write (d : Disk) (p : Path) (content : Bytes) (time : FileTime) : Except IoFault Disk :=
  match d.locate true p with
  | .error fault => .error fault
  | .ok spot =>
    match d.root.find? spot.names with
    | some (.directory _) => .error .isDirectory
    | _ => .ok (d.putAt spot.names (.file content time))

/-- Makes a link where there is nothing. -/
def makeLink (d : Disk) (p target : Path) : Except IoFault Disk :=
  match d.locate false p with
  | .error fault => .error fault
  | .ok spot =>
    if (d.root.find? spot.names).isSome then .error .alreadyExists
    else .ok (d.putAt spot.names (.link target))

/-- Takes away a file or link. -/
def removeFile (d : Disk) (p : Path) : Except IoFault Disk :=
  match d.locate false p with
  | .error fault => .error fault
  | .ok spot =>
    match d.root.find? spot.names with
    | none => .error .notFound
    | some (.directory _) => .error .isDirectory
    | some _ => .ok (d.eraseAt spot.names)

/-- Takes away a directory with everything in it, or a link. -/
def removeTree (d : Disk) (p : Path) : Except IoFault Disk :=
  match d.locate false p with
  | .error fault => .error fault
  | .ok spot =>
    match d.root.find? spot.names with
    | none => .error .notFound
    | some (.file ..) => .error .notDirectory
    | some _ => .ok (d.eraseAt spot.names)

/-- Gives a file or directory another path, in the place of what is there: a file
    gives way to a file, and an empty directory to a directory. -/
def rename (d : Disk) (source target : Path) : Except IoFault Disk :=
  match d.locate false source, d.locate false target with
  | .error fault, _ | .ok _, .error fault => .error fault
  | .ok old, .ok new =>
    let moved (node : Node) : Disk := (d.eraseAt old.names).putAt new.names node
    match d.root.find? old.names, d.root.find? new.names with
    | none, _ => .error .notFound
    | some node, there =>
      if old.names = new.names then .ok d
      -- Neither of the two may lie within the other one.
      else if old.names.isPrefixOf new.names then .error .invalid
      else if new.names.isPrefixOf old.names then .error .notEmpty
      else
        match node.isDirectory, there with
        | true, some (.directory (_ :: _)) => .error .notEmpty
        | true, some (.file ..) | true, some (.link _) => .error .notDirectory
        | false, some (.directory _) => .error .isDirectory
        | _, _ => .ok (moved node)

/-- Changes the time of a file. -/
def touch (d : Disk) (p : Path) (time : FileTime) : Except IoFault Disk :=
  match d.read p with
  | .error fault => .error fault
  | .ok content => d.write p content time

end Disk

end ElmIntake
