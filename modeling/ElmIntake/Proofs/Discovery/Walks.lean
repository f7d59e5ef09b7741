import ElmIntake.Proofs.Discovery.SeenAlike
import Mathlib.Data.List.Sort

/-! # Walks on disk and in memory

    A walk on a disk goes down the tree: it takes the entries of a directory by name and
    leaves out directories that are to be skipped, with all that is in them. A walk in
    memory has no tree: it goes through all paths in their order, and looks at the
    directories on the way to each of them.

    Where the tree has no links (`Node.IsPlain`) and both hold the same files
    (`Memory.Holds`), they find the same ones in the same order. Both lists are in the
    order of the parts of paths, so it is enough that they have the same members. On disk
    these are the files that can be reached without a step into a skipped directory
    (`Node.Reaches`), by induction on the tree.

    Main statement: `walksAlike`. -/

namespace ElmIntake

/-! ## Plain trees -/

namespace Node

/-- **Are there no links in the tree**, and only names that a directory can hold, each one
    once? -/
inductive IsPlain : Node → Prop
  | file (content : Bytes) (modified : FileTime) : IsPlain (.file content modified)
  | directory {es : Listing Node} (hnodup : (es.map (·.1)).Nodup)
      (hnames : ∀ e ∈ es, (PathPart.name e.1).IsInner) (hes : ∀ e ∈ es, IsPlain e.2) :
      IsPlain (.directory es)

/-- Is there a file below the node under some names? -/
def IsFileAt (node : Node) (names : List String) : Prop :=
  ∃ content modified, node.find? names = some (.file content modified)

variable {node found : Node} {es : Listing Node} {name : String} {names : List String}

theorem find?_cons (node : Node) (name : String) (names : List String) :
    node.find? (name :: names) = (Listing.get? node.entries name).bind (·.find? names) := by
  rw [find?]
  cases Listing.get? node.entries name <;> rfl

theorem find?_append (node : Node) (names more : List String) :
    node.find? (names ++ more) = (node.find? names).bind (·.find? more) := by
  induction names generalizing node with
  | nil => rfl
  | cons name names ih =>
    rw [List.cons_append, find?_cons, find?_cons, Option.bind_assoc]
    exact Option.bind_congr fun child _ => ih child

theorem not_isFileAt_nil : ¬ (directory es).IsFileAt [] := by
  rintro ⟨content, modified, h⟩
  cases h

/-- What lies below a node lies in a directory. -/
theorem IsFileAt.isDirectory (h : node.IsFileAt (name :: names)) : node.isDirectory = true := by
  obtain ⟨content, modified, h⟩ := h
  cases node with
  | directory es => rfl
  | _ => cases h

theorem isFileAt_cons_iff (hnodup : (es.map (·.1)).Nodup) :
    (directory es).IsFileAt (name :: names) ↔
      ∃ child, (name, child) ∈ es ∧ child.IsFileAt names := by
  unfold IsFileAt
  rw [find?_cons]
  constructor
  · rintro ⟨content, modified, h⟩
    obtain ⟨child, hget, hfile⟩ := Option.bind_eq_some_iff.1 h
    exact ⟨child, (Listing.get?_eq_some_iff hnodup).1 hget, content, modified, hfile⟩
  · rintro ⟨child, hchild, content, modified, hfile⟩
    have hget := (Listing.get?_eq_some_iff hnodup).2 hchild
    exact ⟨content, modified, Option.bind_eq_some_iff.2 ⟨child, hget, hfile⟩⟩

theorem isFileAt_file_iff {content : Bytes} {modified : FileTime} :
    (file content modified).IsFileAt names ↔ names = [] := by
  constructor
  · intro h
    cases names with
    | nil => rfl
    | cons name names => cases h.isDirectory
  · rintro rfl
    exact ⟨content, modified, rfl⟩

theorem isFileAt_directory_iff (hnodup : (es.map (·.1)).Nodup) :
    (directory es).IsFileAt names ↔
      ∃ e ∈ es, ∃ rest, names = e.1 :: rest ∧ e.2.IsFileAt rest := by
  cases names with
  | nil => simp [not_isFileAt_nil]
  | cons name names =>
    rw [isFileAt_cons_iff hnodup]
    constructor
    · rintro ⟨child, hchild, h⟩
      exact ⟨_, hchild, names, rfl, h⟩
    · rintro ⟨⟨name', child⟩, hchild, rest, heq, h⟩
      cases heq
      exact ⟨child, hchild, h⟩

/-- A tree below a plain one is plain, and the names on the way are good ones. -/
theorem IsPlain.of_find? (h : node.IsPlain) (hfind : node.find? names = some found) :
    found.IsPlain ∧ ∀ name ∈ names, (PathPart.name name).IsInner := by
  induction names generalizing node with
  | nil =>
    cases hfind
    exact ⟨h, by simp⟩
  | cons name names ih =>
    rw [find?_cons] at hfind
    obtain ⟨child, hget, hrest⟩ := Option.bind_eq_some_iff.1 hfind
    cases h with
    | file => cases hget
    | directory hnodup hnames hes =>
      have hchild := (Listing.get?_eq_some_iff hnodup).1 hget
      obtain ⟨hfound, hinner⟩ := ih (hes _ hchild) hrest
      exact ⟨hfound, List.forall_mem_cons.2 ⟨hnames _ hchild, hinner⟩⟩

end Node

/-! ## Going down by names -/

/-- Dots are no names. -/
theorem PathPart.IsInner.name_ne {name : String} (h : (PathPart.name name).IsInner) :
    name ≠ "." ∧ name ≠ ".." := by
  constructor
  · rintro rfl
    exact absurd h.ofSegment (by decide)
  · rintro rfl
    exact absurd h.ofSegment (by decide)

namespace Path

/-- The path that leads down from `p` by some names. -/
def down (p : Path) (names : List String) : Path := names.foldl child p

@[simp] theorem down_nil (p : Path) : p.down [] = p := rfl

@[simp] theorem down_cons (p : Path) (name : String) (names : List String) :
    p.down (name :: names) = (p.child name).down names := rfl

theorem parts_child {name : String} (h : (PathPart.name name).IsInner) (p : Path) :
    (p.child name).parts = p.parts ++ [.name name] := by
  have hname : (Path.mk name).parts = [.name name] := by
    have hone : ofParts [.name name] = ⟨name⟩ := by simp [ofParts, PathPart.text]
    rw [← hone]
    exact parts_ofParts_inner (by simpa using h)
  have hrelative : (Path.mk name).isAbsolute = false := by
    rw [isAbsolute_eq_contains, hname]
    rfl
  unfold child
  by_cases hempty : p.text = ""
  · have hjoin : p.join ⟨name⟩ = ⟨name⟩ := by simp [join, hrelative, hempty]
    rw [hjoin, hname, text_eq_empty_iff.1 hempty]
    rfl
  · rw [parts_join hempty hrelative, hname]
    rfl

theorem parts_down {names : List String} (h : ∀ name ∈ names, (PathPart.name name).IsInner)
    (p : Path) : (p.down names).parts = p.parts ++ names.map .name := by
  induction names generalizing p with
  | nil => simp
  | cons name names ih =>
    obtain ⟨hname, hnames⟩ := List.forall_mem_cons.1 h
    rw [down_cons, ih hnames, parts_child hname, List.append_assoc]
    rfl

end Path

/-- A name among the parts of a path is one that a directory can hold. -/
theorem Path.isInner_of_name_mem {name : String} (p : Path) (h : .name name ∈ p.parts) :
    (PathPart.name name).IsInner := by
  have hparts := p.isPathParts_parts
  cases heq : p.parts with
  | nil => simp [heq] at h
  | cons first rest =>
    rw [heq] at h hparts
    rcases List.mem_cons.1 h with rfl | h
    · simpa using hparts.first _ rfl
    · exact hparts.inner _ h

/-! ## Walks on disk -/

namespace Node

variable {skip : Path → Bool} {node : Node} {es : Listing Node} {p q : Path}

/-- **Does the path `q` lead down from `p` to a file of the tree**, through no directory
    that is to be skipped? -/
def Reaches (skip : Path → Bool) (node : Node) (p q : Path) : Prop :=
  ∃ names, node.IsFileAt names ∧ q = p.down names ∧
    ∀ front, front ≠ [] → front <+: names → front ≠ names → skip (p.down front) = false

theorem reaches_file_iff {content : Bytes} {modified : FileTime} :
    (file content modified).Reaches skip p q ↔ q = p := by
  constructor
  · rintro ⟨names, hfile, rfl, -⟩
    rw [isFileAt_file_iff.1 hfile]
    rfl
  · rintro rfl
    refine ⟨[], ⟨content, modified, rfl⟩, rfl, ?_⟩
    intro front hne hfront
    exact absurd (List.prefix_nil.1 hfront) hne

/-- From a directory the first step leads to one of its entries, which must not be a
    directory to be skipped. -/
theorem reaches_directory_iff (hnodup : (es.map (·.1)).Nodup) :
    (directory es).Reaches skip p q ↔
      ∃ name child, (name, child) ∈ es ∧
        (child.isDirectory = true → skip (p.child name) = false) ∧
        child.Reaches skip (p.child name) q := by
  constructor
  · rintro ⟨names, hfile, rfl, hskip⟩
    cases names with
    | nil => exact absurd hfile not_isFileAt_nil
    | cons name names =>
      obtain ⟨child, hchild, hbelow⟩ := (isFileAt_cons_iff hnodup).1 hfile
      refine ⟨name, child, hchild, ?_, names, hbelow, rfl, ?_⟩
      · intro hdirectory
        refine hskip [name] (by simp) (by simp) ?_
        rintro hone
        obtain rfl := (List.cons.inj hone).2
        obtain ⟨content, modified, hfind⟩ := hbelow
        cases hfind
        cases hdirectory
      · intro front hne hfront hproper
        refine hskip (name :: front) (by simp) (List.cons_prefix_cons.2 ⟨rfl, hfront⟩) ?_
        exact fun heq => hproper (List.cons.inj heq).2
  · rintro ⟨name, child, hchild, hskip, names, hbelow, rfl, hrest⟩
    refine ⟨name :: names, (isFileAt_cons_iff hnodup).2 ⟨child, hchild, hbelow⟩, rfl, ?_⟩
    intro front hne hfront hproper
    cases front with
    | nil => exact absurd rfl hne
    | cons first front =>
      obtain ⟨rfl, hprefix⟩ := List.cons_prefix_cons.1 hfront
      have hfront' : front ≠ names := fun heq => hproper (congrArg (first :: ·) heq)
      by_cases hnil : front = []
      · subst hnil
        -- There is more to come, so the entry is a directory.
        cases names with
        | nil => exact absurd rfl hfront'
        | cons second names => exact hskip hbelow.isDirectory
      · exact hrest front hnil hprefix hfront'

/-- Where a plain tree is reached, the path has the names on the way as its last parts. -/
theorem Reaches.parts (h : node.Reaches skip p q) (hplain : node.IsPlain) :
    ∃ names, node.IsFileAt names ∧ q.parts = p.parts ++ names.map .name := by
  obtain ⟨names, hfile, rfl, -⟩ := h
  obtain ⟨content, modified, hfind⟩ := hfile
  refine ⟨names, ⟨content, modified, hfind⟩, Path.parts_down (hplain.of_find? hfind).2 p⟩

end Node

namespace Disk

variable {d : Disk} {skip : Path → Bool} {links : Nat} {inside : List (List String)}
  {here : List String} {p q : Path} {name : String} {node : Node} {es : Listing Node}

/-- A walk does with each entry of a directory the same. -/
theorem walkEntries_eq_map (es : Listing Node) :
    d.walkEntries skip links inside here p es =
      es.map fun e => (e.1, d.filesBelow skip links inside here (p.child e.1) e.1 e.2) := by
  induction es with
  | nil => rw [walkEntries.eq_def]; rfl
  | cons e es ih =>
    rw [walkEntries_cons, ih]
    rfl

theorem mem_inOrder {found : List (String × List Path)} :
    q ∈ inOrder found ↔ ∃ e ∈ found, q ∈ e.2 := by
  unfold inOrder
  simp only [List.mem_flatMap, List.mem_mergeSort]

theorem mem_walkEntries_iff :
    q ∈ inOrder (d.walkEntries skip links inside here p es) ↔
      ∃ name child, (name, child) ∈ es ∧
        q ∈ d.filesBelow skip links inside here (p.child name) name child := by
  rw [mem_inOrder, walkEntries_eq_map]
  constructor
  · rintro ⟨found, hfound, hq⟩
    obtain ⟨⟨name, child⟩, hchild, rfl⟩ := List.mem_map.1 hfound
    exact ⟨name, child, hchild, hq⟩
  · rintro ⟨name, child, hchild, hq⟩
    exact ⟨_, List.mem_map_of_mem hchild, hq⟩

theorem filesBelow_directory :
    d.filesBelow skip links inside here p name (.directory es) =
      if skip p then []
      else inOrder
        (d.walkEntries skip links ((here ++ [name]) :: inside) (here ++ [name]) p es) := rfl

/-- **What a walk finds in a plain tree** is what can be reached. -/
theorem mem_filesBelow_iff (h : node.IsPlain) :
    q ∈ d.filesBelow skip links inside here p name node ↔
      (node.isDirectory = true → skip p = false) ∧ node.Reaches skip p q := by
  induction h generalizing inside here p name with
  | file content modified =>
    rw [Node.reaches_file_iff]
    simp [filesBelow, Node.isDirectory]
  | directory hnodup _ _ ih =>
    rw [Node.reaches_directory_iff hnodup, filesBelow_directory]
    cases hskip : skip p with
    | true => simp [Node.isDirectory]
    | false =>
      rw [if_neg Bool.false_ne_true, mem_walkEntries_iff]
      constructor
      · rintro ⟨name, child, hchild, hq⟩
        exact ⟨fun _ => rfl, name, child, hchild, (ih _ hchild).1 hq⟩
      · rintro ⟨-, name, child, hchild, hq⟩
        exact ⟨name, child, hchild, (ih _ hchild).2 hq⟩

theorem mem_inOrder_walkEntries_iff (h : (Node.directory es).IsPlain) :
    q ∈ inOrder (d.walkEntries skip links inside here p es) ↔
      (Node.directory es).Reaches skip p q := by
  cases h with
  | directory hnodup _ hes =>
    rw [mem_walkEntries_iff, Node.reaches_directory_iff hnodup]
    refine exists_congr fun name => exists_congr fun child => and_congr_right fun hchild => ?_
    exact mem_filesBelow_iff (hes _ hchild)

/-! ### Order -/

/-- Sorted by different names, what is found under a smaller name comes first. -/
theorem pairwise_inOrder {found : List (String × List Path)} (hnodup : (found.map (·.1)).Nodup)
    (hbelow : ∀ e ∈ found, e.2.Pairwise (· < ·))
    (hlt : ∀ e ∈ found, ∀ e' ∈ found, e.1 < e'.1 → ∀ q ∈ e.2, ∀ q' ∈ e'.2, q < q') :
    (inOrder found).Pairwise (· < ·) := by
  unfold inOrder
  have hsorted : (found.mergeSort fun a b => a.1 ≤ b.1).Pairwise (fun a b => a.1 ≤ b.1) := by
    have h : (found.mergeSort fun a b => a.1 ≤ b.1).Pairwise (fun a b => decide (a.1 ≤ b.1)) :=
      List.pairwise_mergeSort (by simpa using fun a b c => String.le_trans)
        (by simpa using fun a b => String.le_total a b) found
    simpa using h
  have hdistinct : (found.mergeSort fun a b => a.1 ≤ b.1).Pairwise (fun a b => a.1 ≠ b.1) := by
    rw [← List.pairwise_map]
    exact ((List.mergeSort_perm found _).map (·.1)).nodup_iff.2 hnodup
  rw [List.pairwise_flatMap]
  constructor
  · intro e he
    exact hbelow e (List.mem_mergeSort.1 he)
  · refine (hsorted.and hdistinct).imp_of_mem ?_
    rintro e e' he he' ⟨hle, hne⟩
    refine hlt e (List.mem_mergeSort.1 he) e' (List.mem_mergeSort.1 he') ?_
    exact String.not_le.1 fun hge => hne (String.le_antisymm hle hge)

/-- Below a smaller name there are smaller paths. -/
theorem lt_of_reaches {child child' : Node} {name' : String} {q' : Path}
    (hname : (PathPart.name name).IsInner) (hname' : (PathPart.name name').IsInner)
    (hlt : name < name') (hplain : child.IsPlain) (hplain' : child'.IsPlain)
    (hq : child.Reaches skip (p.child name) q) (hq' : child'.Reaches skip (p.child name') q') :
    q < q' := by
  obtain ⟨names, -, hparts⟩ := hq.parts hplain
  obtain ⟨names', -, hparts'⟩ := hq'.parts hplain'
  show q.parts < q'.parts
  rw [hparts, hparts', Path.parts_child hname, Path.parts_child hname', List.append_assoc,
    List.append_assoc]
  exact List.append_left_lt (List.Lex.rel (.inr ⟨rfl, hlt⟩))

theorem pairwise_walkEntries (h : (Node.directory es).IsPlain)
    (hbelow : ∀ e ∈ es, (d.filesBelow skip links inside here (p.child e.1) e.1 e.2).Pairwise
      (· < ·)) :
    (inOrder (d.walkEntries skip links inside here p es)).Pairwise (· < ·) := by
  cases h with
  | directory hnodup hnames hes =>
    rw [walkEntries_eq_map]
    apply pairwise_inOrder
    · rw [List.map_map]
      exact hnodup
    · intro found hfound
      obtain ⟨e, he, rfl⟩ := List.mem_map.1 hfound
      exact hbelow e he
    · intro found hfound found' hfound' hlt q hq q' hq'
      obtain ⟨e, he, rfl⟩ := List.mem_map.1 hfound
      obtain ⟨e', he', rfl⟩ := List.mem_map.1 hfound'
      exact lt_of_reaches (hnames e he) (hnames e' he') hlt (hes e he) (hes e' he')
        ((mem_filesBelow_iff (hes e he)).1 hq).2 ((mem_filesBelow_iff (hes e' he')).1 hq').2

/-- **A walk in a plain tree goes by the order of paths.** -/
theorem pairwise_filesBelow (h : node.IsPlain) :
    (d.filesBelow skip links inside here p name node).Pairwise (· < ·) := by
  induction h generalizing inside here p name with
  | file => simp [filesBelow]
  | directory hnodup hnames hes ih =>
    rw [filesBelow_directory]
    split
    · exact .nil
    · exact pairwise_walkEntries (.directory hnodup hnames hes) fun e he => ih e he

/-! ### Directories of a tree -/

@[simp] theorem go_nil : d.go true links here [] = .ok ⟨here, links⟩ := by rw [go]

/-- A step into a directory. -/
theorem go_into {name : String} {rest : List String} (hdot : name ≠ ".") (hup : name ≠ "..")
    (hshort : name.utf8ByteSize ≤ maxNameBytes)
    (hfind : d.root.find? (here ++ [name]) = some (.directory es)) :
    d.go true links here (name :: rest) = d.go true links (here ++ [name]) rest := by
  rw [go_name hdot hup, if_neg (Nat.not_lt.2 hshort), hfind]

/-- Behind a way to a directory one goes on from there. -/
theorem go_append {steps more : List String} {spot : Spot}
    (h : d.go true links here steps = .ok spot)
    (hdirectory : d.root.find? spot.names = some (.directory es)) :
    d.go true links here (steps ++ more) = d.go true spot.links spot.names more := by
  -- The way ends in a directory, so it does not end at nothing or at a file.
  fun_induction d.go true links here steps with
  | case1 =>
    cases h
    rfl
  | case2 links here rest ih =>
    rw [List.cons_append, go_dot]
    exact ih h
  | case3 links here rest ih =>
    rw [List.cons_append, go_up]
    exact ih h
  | case4 => cases h
  | case5 =>
    next there hthere =>
    cases h
    rw [hthere] at hdirectory
    cases hdirectory
  | case6 => cases h
  | case7 =>
    next there content modified hthere =>
    cases h
    rw [hthere] at hdirectory
    cases hdirectory
  | case8 => cases h
  | case9 links here name rest hdot hup hlong =>
    next there es hthere ih =>
    rw [List.cons_append, go_name hdot hup, if_neg hlong, hthere]
    exact ih h
  | case10 =>
    next hnever => cases hnever.2
  | case11 => cases h
  | case12 here name rest hdot hup hlong =>
    next there target hthere hmet links ih =>
    rw [List.cons_append, go_name hdot hup, if_neg hlong, hthere]
    dsimp only
    rw [← List.append_assoc]
    exact ih h

/-- Names lead down a plain tree, one after the other. -/
theorem names_of_go {names : List String} {spot : Spot}
    (hnode : d.root.find? here = some node) (hplain : node.IsPlain)
    (hnames : ∀ name ∈ names, (PathPart.name name).IsInner)
    (h : d.go true links here names = .ok spot) : spot.names = here ++ names := by
  induction names generalizing here node with
  | nil =>
    rw [go] at h
    cases h
    rw [List.append_nil]
  | cons name names ih =>
    obtain ⟨hname, hrest⟩ := List.forall_mem_cons.1 hnames
    obtain ⟨hdot, hup⟩ := hname.name_ne
    have hthere : d.root.find? (here ++ [name]) = node.find? [name] := by
      rw [Node.find?_append, hnode, Option.bind_some]
    rw [go_name hdot hup] at h
    split at h
    · cases h
    · cases hchild : d.root.find? (here ++ [name]) with
      | none =>
        simp only [hchild] at h
        split at h
        · next hnil =>
          cases h
          rw [hnil]
        · cases h
      | some child =>
        have hchild' := (hplain.of_find? (hthere.symm.trans hchild)).1
        -- Nothing and files end the way; a plain tree has no links, so only a directory leads on.
        cases hchild' with
        | file =>
          simp only [hchild] at h
          split at h
          · next hnil =>
            cases h
            rw [hnil]
          · cases h
        | directory hnodup hinner hes =>
          simp only [hchild] at h
          have hspot := ih hchild (.directory hnodup hinner hes) hrest h
          rw [hspot, List.append_assoc]
          rfl

theorem exists_spot_of_node (h : d.node p = .ok node) :
    ∃ spot, d.locate true p = .ok spot ∧ d.root.find? spot.names = some node := by
  unfold Disk.node at h
  cases hspot : d.locate true p with
  | error fault => simp [hspot] at h
  | ok spot =>
    cases hfind : d.root.find? spot.names with
    | none => simp [hspot, hfind] at h
    | some found =>
      simp only [hspot, hfind, Except.ok.injEq] at h
      exact ⟨spot, rfl, h ▸ hfind⟩

theorem go_of_locate {spot : Spot} (h : d.locate true p = .ok spot) :
    d.go true maxLinks (if p.isAbsolute then [] else d.cwd) (steps p) = .ok spot := by
  unfold locate at h
  split at h
  · cases h
  · split at h
    · cases h
    · split at h
      · cases h
      · exact h

/-- **A directory below a plain tree** is found under the names that lead to it. -/
theorem exists_directory_of_names {top root : Path} {tree : Listing Node} {names : List String}
    (htop : d.node top = .ok (.directory tree)) (htree : (Node.directory tree).IsPlain)
    (hroot : root.parts = top.parts ++ names.map .name) (hdir : d.isDirectory root = true) :
    ∃ spot es, d.locate true root = .ok spot ∧ d.root.find? spot.names = some (.directory es) ∧
      (Node.directory tree).find? names = some (.directory es) := by
  obtain ⟨spot, es, hspot, hes⟩ := isDirectory_eq_true_iff.1 hdir
  refine ⟨spot, es, hspot, hes, ?_⟩
  have hnames : ∀ name ∈ names, (PathPart.name name).IsInner := by
    intro name hname
    apply root.isInner_of_name_mem
    rw [hroot]
    exact List.mem_append_right _ (List.mem_map_of_mem hname)
  obtain ⟨start, hstart, hfind⟩ := exists_spot_of_node htop
  have hgo := go_of_locate hspot
  have habsolute : root.isAbsolute = top.isAbsolute := by
    rw [Path.isAbsolute_eq_contains, Path.isAbsolute_eq_contains, hroot]
    simp
  have hreal : realSteps (steps root) = realSteps (steps top ++ names) := by
    have hself : realSteps names = names := by
      unfold realSteps
      rw [List.filter_eq_self]
      intro name hname
      rw [bne_iff_ne]
      exact (hnames name hname).name_ne.1
    rw [realSteps_append, realSteps_steps, realSteps_steps, hself, hroot, List.filterMap_append,
      List.filterMap_map]
    congr 1
    exact List.filterMap_some
  -- The root is found behind the tree, by the names alone.
  rw [habsolute, go_congr hreal (.inr ⟨spot, es, hgo, hes⟩),
    go_append (go_of_locate hstart) hfind] at hgo
  rw [names_of_go hfind htree hnames hgo, Node.find?_append, hfind] at hes
  exact hes

end Disk

/-! ## Walks in memory -/

namespace Memory

variable {m : Memory} {skip : Path → Bool} {top root p dir : Path}

/-- **Does a file system in memory hold the files of a tree**, under the path `top`, and no
    others? -/
def Holds (m : Memory) (top : Path) (tree : Node) : Prop :=
  ∀ parts, (∃ p ∈ m.paths, p.parts = parts) ↔
    ∃ names, tree.IsFileAt names ∧ parts = top.parts ++ names.map .name

/-- The directories on the way are those strictly between. -/
theorem any_between_iff (hskip : ∀ a b : Path, a.parts = b.parts → skip a = skip b)
    (hstart : root.parts <+: p.parts) :
    (between root p).any skip = true ↔
      ∃ dir : Path, dir.IsBelow root ∧ p.IsBelow dir ∧ skip dir = true := by
  rw [List.any_eq_true]
  constructor
  · rintro ⟨dir, hmem, hdir⟩
    unfold between at hmem
    obtain ⟨n, hn, rfl⟩ := List.mem_map.1 hmem
    obtain ⟨hlower, hupper⟩ := List.mem_range'_1.1 hn
    have hparts : (Path.ofParts (p.parts.take n)).parts = p.parts.take n :=
      Path.parts_ofParts (p.isPathParts_parts.take n)
    refine ⟨_, ⟨?_, ?_⟩, ⟨?_, ?_⟩, hdir⟩
    · rw [hparts, List.prefix_take_iff]
      exact ⟨hstart, by omega⟩
    · intro heq
      have hlength := congrArg List.length heq
      rw [hparts, List.length_take] at hlength
      omega
    · rw [hparts]
      exact List.take_prefix n p.parts
    · intro heq
      have hlength := congrArg List.length heq
      rw [hparts, List.length_take] at hlength
      omega
  · -- A directory strictly between has a part of the path as its parts.
    rintro ⟨dir, ⟨habove, hne⟩, ⟨hbelow, hne'⟩, hdir⟩
    have hlower : root.parts.length < dir.parts.length :=
      lt_of_le_of_ne habove.length_le fun heq => hne (habove.eq_of_length heq)
    have hupper : dir.parts.length < p.parts.length :=
      lt_of_le_of_ne hbelow.length_le fun heq => hne' (hbelow.eq_of_length heq)
    have htake : p.parts.take dir.parts.length = dir.parts :=
      (List.prefix_iff_eq_take.1 hbelow).symm
    refine ⟨.ofParts (p.parts.take dir.parts.length), ?_, ?_⟩
    · unfold between
      exact List.mem_map_of_mem (List.mem_range'_1.2 (by omega))
    · rw [← hdir]
      apply hskip
      rw [htake]
      exact Path.parts_ofParts dir.isPathParts_parts

/-- **What a walk finds in memory.** -/
theorem mem_walk_iff (hskip : ∀ a b : Path, a.parts = b.parts → skip a = skip b) :
    p ∈ m.walk root skip ↔ p ∈ m.paths ∧ root.parts <+: p.parts ∧
      ∀ dir : Path, dir.IsBelow root → p.IsBelow dir → skip dir = false := by
  unfold walk
  rw [List.mem_filter, Bool.and_eq_true, Path.startsWith_iff, Bool.not_eq_true']
  refine and_congr_right fun _ => and_congr_right fun hstart => ?_
  rw [← Bool.not_eq_true, any_between_iff hskip hstart]
  simp only [not_exists, not_and, Bool.not_eq_true]

theorem pairwise_walk (m : Memory) (root : Path) (skip : Path → Bool) :
    (m.walk root skip).Pairwise (· < ·) := m.pairwise_paths.filter _

end Memory

/-! ## Both walks -/

section

variable {d : Disk} {m : Memory} {skip : Path → Bool} {top root p dir : Path}
  {tree es : Listing Node} {names rest : List String}

/-- A directory strictly between is reached by some, but not all, of the names that lead to
    the file. -/
theorem exists_front_of_isBelow (hparts : p.parts = root.parts ++ names.map .name)
    (hdir : dir.IsBelow root) (hp : p.IsBelow dir) :
    ∃ front, front ≠ [] ∧ front <+: names ∧ front ≠ names ∧
      dir.parts = root.parts ++ front.map .name := by
  obtain ⟨⟨inner, hinner⟩, hne⟩ := hdir
  obtain ⟨hbelow, hne'⟩ := hp
  rw [← hinner, hparts, List.prefix_append_right_inj] at hbelow
  have hfront : inner = (names.take inner.length).map .name := by
    rw [List.map_take]
    exact List.prefix_iff_eq_take.1 hbelow
  have hdir : dir.parts = root.parts ++ (names.take inner.length).map .name := by
    rw [← hfront, hinner]
  refine ⟨names.take inner.length, ?_, List.take_prefix _ _, ?_, hdir⟩
  · intro hnil
    rw [hnil, List.map_nil, List.append_nil] at hdir
    exact hne hdir.symm
  · intro hall
    rw [hall, ← hparts] at hdir
    exact hne' hdir

theorem isBelow_down {front : List String} (hfront : ∀ name ∈ front, (PathPart.name name).IsInner)
    (hne : front ≠ []) (root : Path) : (root.down front).IsBelow root := by
  unfold Path.IsBelow
  rw [Path.parts_down hfront]
  exact ⟨List.prefix_append _ _, by simpa using hne⟩

theorem isBelow_of_front {front : List String}
    (hnames : ∀ name ∈ names, (PathPart.name name).IsInner)
    (hparts : p.parts = root.parts ++ names.map .name) (hfront : front <+: names)
    (hne : front ≠ names) : p.IsBelow (root.down front) := by
  unfold Path.IsBelow
  rw [Path.parts_down fun name hname => hnames name (hfront.subset hname), hparts,
    List.prefix_append_right_inj, Ne, List.append_right_inj]
  refine ⟨hfront.map _, fun heq => hne (hfront.eq_of_length ?_)⟩
  simpa using congrArg List.length heq

/-- **Reached on disk, found in memory.** Both go by the same directories on the way. -/
theorem reaches_iff_mem_walk (hskip : ∀ a b : Path, a.parts = b.parts → skip a = skip b)
    (htree : (Node.directory tree).IsPlain) (hsame : m.Holds top (.directory tree))
    (hroot : root.parts = top.parts ++ names.map .name)
    (hfind : (Node.directory tree).find? names = some (.directory es)) (parts : List PathPart) :
    (∃ q, (Node.directory es).Reaches skip root q ∧ q.parts = parts) ↔
      ∃ p ∈ m.walk root skip, p.parts = parts := by
  have hes := (htree.of_find? hfind).1
  have hinner {rest : List String} (h : (Node.directory es).IsFileAt rest) :
      ∀ name ∈ rest, (PathPart.name name).IsInner := by
    obtain ⟨content, modified, h⟩ := h
    exact (hes.of_find? h).2
  have hbelow (rest : List String) :
      (Node.directory tree).find? (names ++ rest) = (Node.directory es).find? rest := by
    rw [Node.find?_append, hfind, Option.bind_some]
  constructor
  · rintro ⟨q, ⟨rest, hfile, rfl, hway⟩, rfl⟩
    have hfile' : (Node.directory tree).IsFileAt (names ++ rest) := by
      unfold Node.IsFileAt
      rw [hbelow]
      exact hfile
    obtain ⟨p, hp, hparts⟩ := (hsame _).2 ⟨_, hfile', rfl⟩
    have hparts' : p.parts = root.parts ++ rest.map .name := by
      rw [hparts, hroot, List.map_append, List.append_assoc]
    refine ⟨p, (Memory.mem_walk_iff hskip).2 ⟨hp, ?_, ?_⟩, ?_⟩
    · rw [hparts']
      exact List.prefix_append _ _
    · intro dir hdir hpdir
      obtain ⟨front, hne, hfront, hproper, hparts⟩ := exists_front_of_isBelow hparts' hdir hpdir
      rw [← hway front hne hfront hproper]
      apply hskip
      rw [Path.parts_down fun name hname => hinner hfile name (hfront.subset hname), hparts]
    · rw [hparts', Path.parts_down (hinner hfile)]
  · rintro ⟨p, hp, rfl⟩
    obtain ⟨hp, hstart, hway⟩ := (Memory.mem_walk_iff hskip).1 hp
    obtain ⟨all, hfile, hparts⟩ := (hsame _).1 ⟨p, hp, rfl⟩
    -- The file lies below the root, so the names that lead to it begin with those of the root.
    rw [hparts, hroot, List.prefix_append_right_inj] at hstart
    have hall : all = names ++ all.drop names.length := by
      have htake : names = all.take names.length := by
        have heq := List.prefix_iff_eq_take.1 hstart
        rw [List.length_map, ← List.map_take] at heq
        exact List.map_injective_iff.2 (fun _ _ h => PathPart.name.inj h) heq
      rw [← congrArg (· ++ all.drop names.length) htake.symm, List.take_append_drop]
    generalize all.drop names.length = rest at hall
    subst hall
    have hfile' : (Node.directory es).IsFileAt rest := by
      unfold Node.IsFileAt at hfile ⊢
      rwa [hbelow] at hfile
    have hparts' : p.parts = root.parts ++ rest.map .name := by
      rw [hparts, hroot, List.map_append, List.append_assoc]
    refine ⟨root.down rest, ⟨rest, hfile', rfl, ?_⟩, ?_⟩
    · intro front hne hfront hproper
      apply hway
      · exact isBelow_down (fun name hname => hinner hfile' name (hfront.subset hname)) hne root
      · exact isBelow_of_front (hinner hfile') hparts' hfront hproper
    · rw [Path.parts_down (hinner hfile'), hparts']

/-- **Do a disk and a file system in memory walk alike** from the directory `root`? -/
structure WalksAlike (d : Disk) (m : Memory) (root : Path) (skip : Path → Bool) : Prop where
  /-- They find the same paths in the same order. -/
  same : (d.walk root skip).map Path.parts = (m.walk root skip).map Path.parts
  /-- It is the order of paths, part by part. -/
  ordered : (d.walk root skip).Pairwise (· < ·) ∧ (m.walk root skip).Pairwise (· < ·)
  /-- They find the files below the root with no skipped directory strictly between. -/
  found : ∀ p, p ∈ m.walk root skip ↔ p ∈ m.paths ∧ p.IsBelow root ∧
    ∀ dir : Path, dir.IsBelow root → p.IsBelow dir → skip dir = false

/-- **A disk and a file system in memory walk the same tree alike.** -/
theorem walksAlike (htop : d.node top = .ok (.directory tree))
    (htree : (Node.directory tree).IsPlain) (hsame : m.Holds top (.directory tree))
    (hroot : root.parts = top.parts ++ names.map .name) (hdir : d.isDirectory root = true)
    (hskip : ∀ a b : Path, a.parts = b.parts → skip a = skip b) : WalksAlike d m root skip := by
  obtain ⟨spot, es, hspot, hes, hfind⟩ := Disk.exists_directory_of_names htop htree hroot hdir
  have hplain := (htree.of_find? hfind).1
  have hwalk : d.walk root skip =
      Disk.inOrder (d.walkEntries skip spot.links [spot.names] spot.names root es) := by
    unfold Disk.walk
    simp only [hspot, hes]
  have hordered : (d.walk root skip).Pairwise (· < ·) := by
    rw [hwalk]
    apply Disk.pairwise_walkEntries hplain
    cases hplain with
    | directory _ _ hes => exact fun e he => Disk.pairwise_filesBelow (hes e he)
  constructor
  case ordered => exact ⟨hordered, m.pairwise_walk root skip⟩
  case same =>
    have hparts {ps : List Path} (h : ps.Pairwise (· < ·)) :
        (ps.map Path.parts).Pairwise (· < ·) := List.pairwise_map.2 h
    refine (hparts hordered).eq_of_mem_iff (hparts (m.pairwise_walk root skip)) ?_
    intro parts
    rw [List.mem_map, List.mem_map, hwalk,
      ← reaches_iff_mem_walk hskip htree hsame hroot hfind parts]
    simp only [Disk.mem_inOrder_walkEntries_iff hplain]
  case found =>
    intro p
    rw [Memory.mem_walk_iff hskip]
    refine and_congr_right fun hp => and_congr_left fun _ => ?_
    refine ⟨fun hstart => ⟨hstart, fun heq => ?_⟩, fun hbelow => hbelow.1⟩
    -- No file has the path of the root, which is a directory.
    obtain ⟨all, ⟨content, modified, hfile⟩, hparts⟩ := (hsame _).1 ⟨p, hp, rfl⟩
    rw [← heq, hroot, List.append_right_inj] at hparts
    obtain rfl := List.map_injective_iff.2 (fun _ _ h => PathPart.name.inj h) hparts
    rw [hfind] at hfile
    cases hfile

end

/-! ## A directory next to a file -/

namespace Neighbours

/-- A directory with a file, and a directory that is to be skipped. -/
def inner : Listing Node :=
  [("skip", .directory [("X.elm", .file [] none)]), ("B.elm", .file [] none)]

/-- A file `a.elm`, and next to it the directory `a`. -/
def tree : Listing Node :=
  [("src", .directory [("a.elm", .file [] none), ("a", .directory inner)])]

/-- The tree, in a directory of the disk. -/
def disk : Disk where
  root := .directory [("p", .directory tree)]

/-- The same files in memory. -/
def memory : Memory :=
  Memory.empty.add ⟨"/p/src/a.elm"⟩ [] none |>.add ⟨"/p/src/a/skip/X.elm"⟩ [] none
    |>.add ⟨"/p/src/a/B.elm"⟩ [] none

/-- Directories of this name are skipped. -/
def skip (dir : Path) : Bool := dir.endsWith ⟨"skip"⟩

theorem isFileAt_tree_iff {names : List String} :
    (Node.directory tree).IsFileAt names ↔
      names = ["src", "a.elm"] ∨ names = ["src", "a", "skip", "X.elm"] ∨
        names = ["src", "a", "B.elm"] := by
  simp [tree, inner, Node.isFileAt_directory_iff, Node.isFileAt_file_iff, and_or_left, exists_or]

theorem isPlain_tree : (Node.directory tree).IsPlain := by
  have hempty : (Node.file [] none).IsPlain := .file [] none
  have hskip : (Node.directory [("X.elm", .file [] none)]).IsPlain :=
    .directory (by decide) (by simpa using ⟨by decide, by decide⟩) (by simpa using hempty)
  have hinner : (Node.directory inner).IsPlain :=
    .directory (by decide) (by simpa [inner] using ⟨⟨by decide, by decide⟩, by decide, by decide⟩)
      (by simpa [inner] using ⟨hskip, hempty⟩)
  have hsrc : (Node.directory [("a.elm", .file [] none), ("a", .directory inner)]).IsPlain :=
    .directory (by decide) (by simpa using ⟨⟨by decide, by decide⟩, by decide, by decide⟩)
      (by simpa using ⟨hempty, hinner⟩)
  exact .directory (by decide) (by simpa [tree] using ⟨by decide, by decide⟩)
    (by simpa [tree] using hsrc)

theorem holds_memory : memory.Holds ⟨"/p"⟩ (.directory tree) := by
  intro parts
  have hparts : memory.paths.map Path.parts =
      [["src", "a", "B.elm"], ["src", "a", "skip", "X.elm"], ["src", "a.elm"]].map
        fun names => (⟨"/p"⟩ : Path).parts ++ names.map .name := by
    decide +kernel
  rw [← List.mem_map, hparts, List.mem_map]
  refine exists_congr fun names => and_congr ?_ eq_comm
  simp only [isFileAt_tree_iff, List.mem_cons, List.not_mem_nil, or_false]
  tauto

theorem node_top : disk.node ⟨"/p"⟩ = .ok (.directory tree) := by
  have hsteps : Disk.steps ⟨"/p"⟩ = ["p"] := by decide +kernel
  have hlocate : disk.locate true ⟨"/p"⟩ = .ok ⟨["p"], Disk.maxLinks⟩ := by
    rw [Disk.locate_eq_go (by decide) (by decide) (by decide +kernel), hsteps,
      Disk.go_into (by decide) (by decide) (by decide) rfl, Disk.go_nil]
    rfl
  unfold Disk.node
  rw [hlocate]
  rfl

theorem isDirectory_src : disk.isDirectory ⟨"/p/src"⟩ = true := by
  have hsteps : Disk.steps ⟨"/p/src"⟩ = ["p", "src"] := by decide +kernel
  have hlocate : disk.locate true ⟨"/p/src"⟩ = .ok ⟨["p", "src"], Disk.maxLinks⟩ := by
    rw [Disk.locate_eq_go (by decide) (by decide) (by decide +kernel), hsteps,
      Disk.go_into (by decide) (by decide) (by decide) rfl,
      Disk.go_into (by decide) (by decide) (by decide) rfl, Disk.go_nil]
    rfl
  exact Disk.isDirectory_eq_true_iff.2 ⟨_, _, hlocate, rfl⟩

/-- **Both walks find the directory before the file next to it**, as a part of a path that
    ends comes before one that goes on. -/
theorem walksAlike_neighbours :
    WalksAlike disk memory ⟨"/p/src"⟩ skip ∧
      memory.walk ⟨"/p/src"⟩ skip = [⟨"/p/src/a/B.elm"⟩, ⟨"/p/src/a.elm"⟩] := by
  have hroot : (⟨"/p/src"⟩ : Path).parts = (⟨"/p"⟩ : Path).parts ++ ["src"].map .name := by
    decide +kernel
  have hskip (a b : Path) (h : a.parts = b.parts) : skip a = skip b := by
    unfold skip Path.endsWith
    rw [h]
  exact ⟨walksAlike node_top isPlain_tree holds_memory hroot isDirectory_src hskip,
    by decide +kernel⟩

end Neighbours

end ElmIntake
