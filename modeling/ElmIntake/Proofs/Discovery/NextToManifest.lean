import ElmIntake.CommandLine.Run
import ElmIntake.Proofs.CommandLine.Watching
import ElmIntake.Proofs.Discovery.Overlap
import ElmIntake.Proofs.Discovery.Walks
import ElmIntake.Proofs.Path.Parent

/-! # Where the sources of a manifest are looked for

    A manifest names its source directories as seen from itself. Two directories play a
    part in finding them. The manifest is read where its path leads from the current
    directory; its path without the name of the file is then seen from the project root.
    Where that path is absolute, as it is by default, both mean the same directory. Where
    it is relative they do so only if the project root is the current directory.

    The parts of all places are put together from those of the two directories, of the
    path and of the source directory (`Intake.parts_sourcePlace`, `Intake.exists_home`), so
    it is enough to compare these. That the path has a last part to leave out follows from
    its having been read: what ends in no name leads to a directory
    (`Disk.exists_fileName_of_read`).

    Main statement: `Intake.looksFor_of_load`. -/

namespace ElmIntake

/-! ## Paths that end in no name -/

namespace Disk

variable {d : Disk} {es : Listing Node} {links : Nat} {here ss : List String} {p : Path}

/-- On the way to a directory there are directories. -/
theorem exists_directory_of_find?_append {node : Node} {names more : List String}
    (h : node.find? (names ++ more) = some (.directory es)) :
    ∃ es, node.find? names = some (.directory es) := by
  rw [Node.find?_append] at h
  obtain ⟨found, hfound, hmore⟩ := Option.bind_eq_some_iff.1 h
  cases more with
  | nil => exact ⟨es, hfound.trans hmore⟩
  | cons name more =>
    cases found with
    | directory es' => exact ⟨es', hfound⟩
    | _ => cases hmore

/-- A way starts in a directory, at the root or where one is. -/
theorem exists_directory_start (absolute : Bool) (h : d.root.find? here = some (.directory es)) :
    ∃ es, d.root.find? (if absolute then [] else here) = some (.directory es) := by
  cases absolute with
  | true => exact exists_directory_of_find?_append h
  | false => exact ⟨es, h⟩

/-- Do steps end in no name? -/
def EndNameless (ss : List String) : Prop := ∀ s ∈ ss.getLast?, s = "." ∨ s = ".."

theorem EndNameless.of_cons {step : String} {rest : List String}
    (h : EndNameless (step :: rest)) : EndNameless rest := by
  intro s hs
  cases rest with
  | nil => cases hs
  | cons => exact h s hs

/-- Behind a name there are more steps then. -/
theorem EndNameless.ne_nil {name : String} {rest : List String} (hdot : name ≠ ".")
    (hup : name ≠ "..") (h : EndNameless (name :: rest)) : rest ≠ [] := by
  rintro rfl
  rcases h name rfl with heq | heq
  · exact hdot heq
  · exact hup heq

/-- Steps that end in no name lead to a directory. -/
theorem exists_directory_of_go {spot : Spot} (hhere : d.root.find? here = some (.directory es))
    (hsteps : EndNameless ss) (h : d.go true links here ss = .ok spot) :
    ∃ es, d.root.find? spot.names = some (.directory es) := by
  fun_induction d.go true links here ss generalizing es with
  | case1 =>
    cases h
    exact ⟨es, hhere⟩
  | case2 links here rest ih => exact ih hhere hsteps.of_cons h
  | case3 links here rest ih =>
    obtain ⟨last, hlast⟩ := here.dropLast_prefix
    obtain ⟨es, habove⟩ := exists_directory_of_find?_append (hlast.symm ▸ hhere)
    exact ih habove hsteps.of_cons h
  | case4 => cases h
  | case5 links here name hdot hup => exact absurd rfl (hsteps.ne_nil hdot hup)
  | case6 => cases h
  | case7 links here name hdot hup => exact absurd rfl (hsteps.ne_nil hdot hup)
  | case8 => cases h
  | case9 links here name rest hdot hup hlong =>
    next there es hthere ih => exact ih hthere hsteps.of_cons h
  | case10 =>
    next hnever => cases hnever.2
  | case11 => cases h
  | case12 here name rest hdot hup hlong =>
    next there target hthere hmet links ih =>
    have hmore : EndNameless (steps target ++ rest) := by
      unfold EndNameless
      rw [List.getLast?_append_of_ne_nil _ (hsteps.ne_nil hdot hup)]
      exact hsteps.of_cons
    -- A link leads on from where it is, or from the root.
    obtain ⟨es, hstart⟩ := exists_directory_start target.isAbsolute hhere
    exact ih hstart hmore h

/-- Behind other parts each one asks for a step. -/
theorem exists_step_of_isInner {part : PathPart} (h : part.IsInner) :
    ∃ s, part.step? = some s := by
  cases part with
  | root => exact absurd rfl h.ne_root
  | here => exact absurd rfl h.text_ne.2
  | up => exact ⟨_, rfl⟩
  | name name => exact ⟨_, rfl⟩

/-- A path that ends in no name has steps that do not either. -/
theorem endNameless_steps (h : p.fileName = none) : EndNameless (steps p) := by
  intro s hs
  by_contra hname
  obtain ⟨hdot, hup⟩ := not_or.1 hname
  obtain ⟨front, hfront⟩ := List.getLast?_eq_some_iff.1 hs
  have hreal : p.parts.filterMap PathPart.step? = realSteps front ++ [s] := by
    rw [← realSteps_steps, hfront, realSteps_append, realSteps_cons hdot]
    rfl
  have hinner := p.isPathParts_parts.inner
  rcases List.eq_nil_or_concat' p.parts with hnil | ⟨inner, last, hparts⟩
  · simp [hnil] at hreal
  · rw [hparts] at hreal hinner
    have hasks : ∃ t, last.step? = some t := by
      cases inner with
      | nil =>
        apply Option.ne_none_iff_exists'.1
        intro hnone
        simp [hnone] at hreal
      | cons first inner => exact exists_step_of_isInner (hinner last (by simp))
    -- So the last step comes from the last part, which is then a name.
    obtain ⟨t, hlast⟩ := hasks
    rw [List.filterMap_append, List.filterMap_cons_some hlast, List.filterMap_nil] at hreal
    obtain rfl : t = s := by simpa using List.append_inj_right' hreal rfl
    unfold Path.fileName at h
    rw [hparts, List.getLast?_concat] at h
    cases last with
    | name name => cases h
    | up => exact hup (Option.some.inj hlast).symm
    | root => cases hlast
    | here => cases hlast

/-- **What can be read as a file has a name.** -/
theorem exists_fileName_of_read {content : Bytes} (hcwd : d.root.find? d.cwd = some (.directory es))
    (h : d.read p = .ok content) : ∃ name, p.fileName = some name := by
  by_contra hnone
  have hnameless := endNameless_steps (Option.eq_none_iff_forall_ne_some.2 (not_exists.1 hnone))
  unfold read at h
  cases hnode : d.node p with
  | error fault =>
    rw [hnode] at h
    cases h
  | ok node =>
    obtain ⟨spot, hspot, hfind⟩ := exists_spot_of_node hnode
    obtain ⟨es, hstart⟩ := exists_directory_start p.isAbsolute hcwd
    obtain ⟨es, hdirectory⟩ := exists_directory_of_go hstart hnameless (go_of_locate hspot)
    rw [hdirectory] at hfind
    cases hfind
    rw [hnode] at h
    cases h

end Disk

/-! ## Places of source directories -/

namespace Intake

variable {i : Intake} {cwd home : Path} {fs : FileSystem} {m : Manifest}

/-- The directory that the path of the manifest names, as it is written. -/
def manifestDirectory (i : Intake) : Path := i.options.manifest.parent.getD ⟨""⟩

/-- The place where the files of a source directory are looked for. -/
def sourcePlace (i : Intake) (dir : Path) : Path :=
  i.options.projectRoot.join (i.manifestBase.join dir)

/-- **It does not matter whether the manifest's directory is cut at the root** before it is
    seen from there. -/
theorem parts_sourcePlace (hroot : i.options.projectRoot.isAbsolute = true) (dir : Path) :
    (i.sourcePlace dir).parts =
      (i.options.projectRoot.join (i.manifestDirectory.join dir)).parts := by
  unfold sourcePlace manifestBase
  show (i.options.projectRoot.join
    (((i.manifestDirectory.below? i.options.projectRoot).getD i.manifestDirectory).join dir)).parts
      = _
  cases hdir : dir.isAbsolute with
  | true => simp only [Path.join_of_isAbsolute hdir]
  | false =>
    -- What is cut off at the root comes back when the path is joined to it.
    cases hbelow : i.manifestDirectory.below? i.options.projectRoot with
    | none => rfl
    | some rest =>
      obtain ⟨hstart, hrest⟩ := Path.parts_of_below? hbelow
      have hinner : ∀ part ∈ rest.parts, part.IsInner := by
        rw [hrest]
        exact fun part hpart => SourceFilter.isInner_of_mem_drop (f := i.filter) hroot hpart
      have hrelative : rest.isAbsolute = false := by
        rw [Path.isAbsolute_eq_contains, ← Bool.not_eq_true, List.contains_iff_mem]
        exact fun hmem => (hinner _ hmem).ne_root rfl
      have habove : i.manifestDirectory.isAbsolute = true := by
        rw [Path.isAbsolute_eq_contains, List.contains_iff_mem] at hroot ⊢
        exact hstart.subset hroot
      have hsplit : i.manifestDirectory.parts = i.options.projectRoot.parts ++ rest.parts := by
        rw [hrest]
        exact (List.prefix_iff_eq_append.1 hstart).symm
      rw [Option.getD_some, Path.join_of_isAbsolute (Path.isAbsolute_join habove dir),
        Path.parts_join (Path.text_ne_of_isAbsolute habove) hdir,
        Path.parts_join (Path.text_ne_of_isAbsolute hroot)
          (Path.isAbsolute_join_eq_false hrelative hdir),
        Path.filter_parts_join hdir, PathPart.filter_of_isInner hinner, hsplit, List.append_assoc]

/-- A manifest with a name lies in a directory, which is where the path without the name
    leads. -/
theorem exists_home {name : String} (hcwd : cwd.isAbsolute = true)
    (hname : i.options.manifest.fileName = some name) :
    ∃ home, (cwd.join i.options.manifest).parent = some home ∧
      home.parts = (cwd.join i.manifestDirectory).parts ∧
      i.manifestDirectory.isAbsolute = i.options.manifest.isAbsolute := by
  obtain ⟨above, habove, hparts⟩ := Path.exists_parent_of_fileName hname
  have hdirectory : i.manifestDirectory = above := by
    unfold manifestDirectory
    rw [habove]
    rfl
  have hsame : above.isAbsolute = i.options.manifest.isAbsolute := by
    rw [Path.isAbsolute_eq_contains, Path.isAbsolute_eq_contains, hparts]
    simp
  rw [hdirectory]
  cases hmanifest : i.options.manifest.isAbsolute with
  | true =>
    rw [hmanifest] at hsame
    rw [Path.join_of_isAbsolute hmanifest, Path.join_of_isAbsolute hsame]
    exact ⟨above, habove, rfl, hsame⟩
  | false =>
    rw [hmanifest] at hsame
    -- Joined to the current directory, the path keeps its name and loses no part but dots.
    have hseen : (cwd.join i.options.manifest).fileName = some name :=
      Path.fileName_join hmanifest hname
    obtain ⟨home, hhome, hjoined⟩ := Path.exists_parent_of_fileName hseen
    refine ⟨home, hhome, ?_, hsame⟩
    have hne := Path.text_ne_of_isAbsolute hcwd
    rw [Path.parts_join hne hmanifest, hparts, List.filter_append, ← List.append_assoc] at hjoined
    rw [Path.parts_join hne hsame]
    exact (List.append_inj_left' hjoined rfl).symm

/-- **Next to the manifest** lies what is seen from the same directory. -/
theorem sourcePlace_same_iff (hroot : i.options.projectRoot.isAbsolute = true)
    (hcwd : cwd.isAbsolute = true) (hhome : home.parts = (cwd.join i.manifestDirectory).parts)
    (habove : i.manifestDirectory.isAbsolute = i.options.manifest.isAbsolute) (dir : Path) :
    (i.sourcePlace dir).same (home.join dir) = true ↔
      i.options.manifest.isAbsolute = true ∨ i.options.projectRoot.same cwd = true ∨
        dir.isAbsolute = true := by
  rw [Path.same_iff, parts_sourcePlace hroot, Path.same_iff,
    Path.parts_join_congr_left dir hhome, ← habove]
  cases hdir : dir.isAbsolute with
  | true => simp [Path.join_of_isAbsolute hdir]
  | false =>
    cases hwritten : i.manifestDirectory.isAbsolute with
    | true =>
      simp [Path.join_of_isAbsolute (Path.isAbsolute_join hwritten dir),
        Path.join_of_isAbsolute hwritten]
    | false =>
      have hnext := Path.text_ne_of_isAbsolute (Path.isAbsolute_join hcwd i.manifestDirectory)
      rw [Path.parts_join_join hroot hwritten hdir, Path.parts_join hnext hdir,
        Path.parts_join (Path.text_ne_of_isAbsolute hroot) hwritten,
        Path.parts_join (Path.text_ne_of_isAbsolute hcwd) hwritten]
      -- What stands behind the two directories is the same.
      simp only [List.append_left_inj, Bool.false_eq_true, false_or, or_false]

/-- A place that is seen from the project root is scanned like the entry. -/
theorem files_place (hroot : i.options.projectRoot.isAbsolute = true) (fs : FileSystem)
    (entry : Path) : (Scan.ofEntry i.filter fs (i.options.projectRoot.join entry)).files =
      (Scan.ofEntry i.filter fs entry).files := by
  have hplace : i.filter.projectRoot.join (i.options.projectRoot.join entry) =
      i.filter.projectRoot.join entry := Path.join_of_isAbsolute (Path.isAbsolute_join hroot entry)
  unfold Scan.ofEntry
  rw [hplace]

/-- If the user names no directories, the places of a manifest are scanned. -/
theorem sources_of_load (hroot : i.options.projectRoot.isAbsolute = true)
    (hnone : i.options.directories = []) (hload : Manifest.load fs i.options.manifest = .ok m) :
    i.sources fs = .ok (Scan.dedupe
      ((m.sourceDirectories.map i.sourcePlace ++
        [i.options.projectRoot.join testsDirectory]).map (Scan.ofEntry i.filter fs))) := by
  have hentries : i.entries fs =
      .ok (m.sourceDirectories.map i.manifestBase.join ++ [testsDirectory]) := by
    unfold entries
    rw [if_neg (not_not.2 hnone), hload]
    rfl
  have hplaces : m.sourceDirectories.map i.sourcePlace ++
      [i.options.projectRoot.join testsDirectory] =
      (m.sourceDirectories.map i.manifestBase.join ++ [testsDirectory]).map
        i.options.projectRoot.join := by
    rw [List.map_append, List.map_map]
    rfl
  unfold sources
  simp only [hentries, hnone, ne_eq, not_true_eq_false, false_and, if_false]
  rw [hplaces]
  unfold Scan.dedupe
  simp only [List.flatMap_map, files_place hroot]

/-- **Where the sources of a manifest are looked for**, which is read where its path leads
    from the directory `cwd`. -/
structure LooksFor (i : Intake) (cwd : Path) (fs : FileSystem) (m : Manifest) (home : Path) :
    Prop where
  /-- The directory that the manifest lies in. -/
  home_eq : (cwd.join i.options.manifest).parent = some home
  /-- The sources are those of one place for each source directory, and the tests. -/
  sources : i.sources fs = .ok (Scan.dedupe
    ((m.sourceDirectories.map i.sourcePlace ++ [i.options.projectRoot.join testsDirectory]).map
      (Scan.ofEntry i.filter fs)))
  /-- Each place is seen from the project root, behind the manifest's directory as it is
      written. -/
  place : ∀ dir, (i.sourcePlace dir).same
    (i.options.projectRoot.join (i.manifestDirectory.join dir)) = true
  /-- It lies next to the manifest only if both are seen from the same directory. -/
  nextTo : ∀ dir, (i.sourcePlace dir).same (home.join dir) = true ↔
    i.options.manifest.isAbsolute = true ∨ i.options.projectRoot.same cwd = true ∨
      dir.isAbsolute = true

end Intake

theorem CommandLine.isAbsolute_currentDirectory (d : Disk) :
    (currentDirectory d).isAbsolute = true := by
  rw [Path.isAbsolute_iff]
  unfold currentDirectory
  rw [Path.ofParts, String.toList_append]
  exact ⟨_, rfl⟩

/-- A manifest is loaded from what can be read. -/
theorem Manifest.exists_read_of_load {fs : FileSystem} {path : Path} {m : Manifest}
    (h : load fs path = .ok m) : ∃ content, fs.read path = .ok content := by
  unfold load at h
  split at h
  · cases h
  · split at h
    · split at h <;> cases h
    · next content hread => exact ⟨content, hread⟩

/-- **The sources of a manifest are looked for** next to where it was read if its path is
    absolute, or if the project root is the current directory. -/
theorem Intake.looksFor_of_load {d : Disk} {o : Options} {m : Manifest} {es : Listing Node}
    (hcwd : d.root.find? d.cwd = some (.directory es)) (hnone : o.directories = [])
    (hload : Manifest.load d.fileSystem
      (ofOptions (CommandLine.currentDirectory d) o).options.manifest = .ok m) :
    ∃ home, (ofOptions (CommandLine.currentDirectory d) o).LooksFor
      (CommandLine.currentDirectory d) d.fileSystem m home := by
  have habsolute := CommandLine.isAbsolute_currentDirectory d
  have hroot : (ofOptions (CommandLine.currentDirectory d) o).options.projectRoot.isAbsolute :=
    Path.isAbsolute_absolute habsolute o.projectRoot
  obtain ⟨content, hread⟩ := Manifest.exists_read_of_load hload
  obtain ⟨name, hname⟩ := Disk.exists_fileName_of_read hcwd hread
  obtain ⟨home, hhome, hparts, habove⟩ := exists_home habsolute hname
  refine ⟨home, hhome, sources_of_load hroot hnone hload, ?_, ?_⟩
  · intro dir
    exact Path.same_iff.2 (parts_sourcePlace hroot dir)
  · intro dir
    exact sourcePlace_same_iff hroot habsolute hparts habove dir

/-! ### A manifest that is not next to its sources -/

namespace Apart

open Disk

/-- The text of a manifest. -/
def manifest : Bytes :=
  Text.toUtf8 "\x7b\"type\": \"application\", \"source-directories\": [\"src\"]\x7d"

/-- A project in a directory of the current one. -/
def disk : Disk where
  root := .directory [("work", .directory [("app", .directory
    [("elm.json", .file manifest none), ("src", .directory [("A.elm", .file [] none)])])])]
  cwd := ["work"]

/-- Names the project and its manifest as they are seen from the current directory. -/
def options : Options := { projectRoot := ⟨"app"⟩, manifestPath := some ⟨"app/elm.json"⟩ }

/-- Takes in the project. -/
def intake : Intake := .ofOptions (CommandLine.currentDirectory disk) options

/-- What the manifest says. -/
def declared : Manifest := ⟨"application", some [⟨"src"⟩]⟩

theorem locate_manifest :
    disk.locate true ⟨"app/elm.json"⟩ = .ok ⟨["work", "app", "elm.json"], maxLinks⟩ := by
  have hsteps : steps ⟨"app/elm.json"⟩ = ["app", "elm.json"] := by decide +kernel
  rw [locate_eq_go (by decide) (by decide) (by decide +kernel), hsteps,
    go_into (by decide) (by decide) (by decide) rfl, go_name (by decide) (by decide)]
  decide +kernel

theorem load_manifest :
    Manifest.load disk.fileSystem intake.options.manifest = .ok declared := by
  have hpath : intake.options.manifest = ⟨"app/elm.json"⟩ := rfl
  have hnode : disk.node ⟨"app/elm.json"⟩ = .ok (.file manifest none) := by
    unfold node
    rw [locate_manifest]
    rfl
  unfold Manifest.load Disk.fileSystem Disk.contains Disk.read
  rw [hpath]
  simp only [hnode]
  decide +kernel

theorem locate_source :
    disk.locate true ⟨"/work/app/src/A.elm"⟩ = .ok ⟨["work", "app", "src", "A.elm"], maxLinks⟩ := by
  have hsteps : steps ⟨"/work/app/src/A.elm"⟩ = ["work", "app", "src", "A.elm"] := by
    decide +kernel
  rw [locate_eq_go (by decide) (by decide) (by decide +kernel), hsteps,
    go_into (by decide) (by decide) (by decide) rfl,
    go_into (by decide) (by decide) (by decide) rfl,
    go_into (by decide) (by decide) (by decide) rfl, go_name (by decide) (by decide)]
  decide +kernel

/-- The manifest is next to a source. -/
theorem contains_source : disk.contains ⟨"/work/app/src/A.elm"⟩ = true := by
  unfold Disk.contains node
  rw [locate_source]
  rfl

theorem files_src :
    (Scan.ofEntry intake.filter disk.fileSystem (intake.sourcePlace ⟨"src"⟩)).files = [] := by
  have hplace : intake.filter.projectRoot.join (intake.sourcePlace ⟨"src"⟩) =
      ⟨"/work/app/app/src"⟩ := by decide +kernel
  have hsteps : steps ⟨"/work/app/app/src"⟩ = ["work", "app", "app", "src"] := by decide +kernel
  have hlocate : disk.locate true ⟨"/work/app/app/src"⟩ = .error .notFound := by
    rw [locate_eq_go (by decide) (by decide) (by decide +kernel), hsteps,
      go_into (by decide) (by decide) (by decide) rfl,
      go_into (by decide) (by decide) (by decide) rfl, go_name (by decide) (by decide)]
    decide +kernel
  exact Scan.files_of_error (hplace ▸ hlocate)

theorem files_tests : (Scan.ofEntry intake.filter disk.fileSystem
    (intake.options.projectRoot.join Intake.testsDirectory)).files = [] := by
  have hplace : intake.filter.projectRoot.join
      (intake.options.projectRoot.join Intake.testsDirectory) = ⟨"/work/app/tests"⟩ := by
    decide +kernel
  have hsteps : steps ⟨"/work/app/tests"⟩ = ["work", "app", "tests"] := by decide +kernel
  have hlocate : disk.locate true ⟨"/work/app/tests"⟩ =
      .ok ⟨["work", "app", "tests"], maxLinks⟩ := by
    rw [locate_eq_go (by decide) (by decide) (by decide +kernel), hsteps,
      go_into (by decide) (by decide) (by decide) rfl,
      go_into (by decide) (by decide) (by decide) rfl, go_name (by decide) (by decide)]
    decide +kernel
  have hnode : disk.node ⟨"/work/app/tests"⟩ = .error .notFound := by
    unfold node
    rw [hlocate]
    rfl
  exact Scan.files_of_node_error (hplace ▸ hnode)

/-- The source next to the manifest is not found: it is looked for in `/work/app/app/src`. -/
theorem looksFor_apart :
    (∃ home, intake.LooksFor (CommandLine.currentDirectory disk) disk.fileSystem declared home) ∧
      intake.sources disk.fileSystem = .ok [] ∧
      disk.contains ⟨"/work/app/src/A.elm"⟩ = true := by
  have hlooks : ∃ home, intake.LooksFor (CommandLine.currentDirectory disk) disk.fileSystem
      declared home := Intake.looksFor_of_load rfl rfl load_manifest
  refine ⟨hlooks, ?_, contains_source⟩
  obtain ⟨home, hlooks⟩ := hlooks
  have hdirectories : declared.sourceDirectories = [⟨"src"⟩] := by decide
  rw [hlooks.sources, hdirectories]
  unfold Scan.dedupe
  simp [files_src, files_tests, Scan.distinct]

/-- **Sources may be looked for elsewhere** than next to the manifest that was read. -/
theorem looks_elsewhere :
    ¬ ∀ (d : Disk) (o : Options) (m : Manifest) (es : Listing Node) (home : Path),
      d.root.find? d.cwd = some (.directory es) → o.directories = [] →
      Manifest.load d.fileSystem
        (Intake.ofOptions (CommandLine.currentDirectory d) o).options.manifest = .ok m →
      ((CommandLine.currentDirectory d).join
        (Intake.ofOptions (CommandLine.currentDirectory d) o).options.manifest).parent =
          some home →
      ∀ dir ∈ m.sourceDirectories,
        ((Intake.ofOptions (CommandLine.currentDirectory d) o).sourcePlace dir).same
          (home.join dir) = true := by
  intro hnext
  have hhome : ((CommandLine.currentDirectory disk).join intake.options.manifest).parent =
      some ⟨"/work/app"⟩ := by decide +kernel
  have hsame := hnext disk options declared _ ⟨"/work/app"⟩ rfl rfl load_manifest hhome ⟨"src"⟩
    (by decide)
  revert hsame
  decide +kernel

end Apart

end ElmIntake
