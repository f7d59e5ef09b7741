import ElmIntake.Proofs.Path.Spelling
import Mathlib.Data.List.DropRight

/-! # The directory that a path lies in

    A path is cut at its last stretch that stands for a part, so the directory
    that it lies in has all of its parts but the last one, however the path is
    spelled. Only where there is no such part, in the empty path and in the root,
    is there no such directory. Seen from an absolute path, the parts of relative
    ones stand one behind the other.

    Main statement: `parent_cases`. -/

namespace ElmIntake.Path

open PathPart (ofSegment)

/-! ## Stretches that add nothing -/

theorem isBlankSegment_iff {segment : List Char} :
    isBlankSegment segment = true ↔ ofSegment segment = none := by
  unfold isBlankSegment PathPart.ofSegment
  rw [Bool.or_eq_true, beq_iff_eq, beq_iff_eq]
  split
  · next hblank => simp [hblank]
  · next hblank => split <;> simp [hblank]

theorem filterMap_trimSegments (ss : List (List Char)) :
    (trimSegments ss).filterMap ofSegment = ss.filterMap ofSegment := by
  show (ss.rdropWhile isBlankSegment).filterMap ofSegment = _
  induction ss using List.reverseRecOn with
  | nil => rfl
  | append_singleton ss s ih =>
    by_cases hblank : isBlankSegment s = true
    · rw [List.rdropWhile_concat_pos _ _ _ hblank, ih, List.filterMap_append,
        List.filterMap_cons_none (isBlankSegment_iff.1 hblank), List.filterMap_nil, List.append_nil]
    · rw [List.rdropWhile_concat_neg _ _ _ hblank]

theorem trimSegments_isPrefix (ss : List (List Char)) : trimSegments ss <+: ss :=
  List.rdropWhile_prefix isBlankSegment ss

/-- Either no stretch stands for a part, or without the last one that does all parts but
    the last one are left. -/
theorem trimSegments_cases (ss : List (List Char)) :
    trimSegments ss = [] ∧ ss.filterMap ofSegment = [] ∨
      trimSegments ss ≠ [] ∧ ∃ part, ss.filterMap ofSegment =
        (trimSegments (trimSegments ss).dropLast).filterMap ofSegment ++ [part] := by
  rw [filterMap_trimSegments, ← filterMap_trimSegments ss]
  by_cases hne : trimSegments ss = []
  · left
    rw [hne]
    exact ⟨rfl, rfl⟩
  · right
    have hlast : ¬ isBlankSegment ((trimSegments ss).getLast hne) = true :=
      List.rdropWhile_last_not isBlankSegment ss hne
    rw [isBlankSegment_iff] at hlast
    obtain ⟨part, hpart⟩ := Option.ne_none_iff_exists'.1 hlast
    refine ⟨hne, part, ?_⟩
    conv_lhs => rw [← List.dropLast_append_getLast hne]
    rw [List.filterMap_append, List.filterMap_cons_some hpart, List.filterMap_nil]

/-! ## Parts of what is left -/

variable {p : Path} {ss : List (List Char)}

/-- Behind a slash all stretches stand for what they stand for. -/
theorem parts_ofSegments_root (h : ∀ s ∈ ss, '/' ∉ s) :
    (ofSegments ['/'] ss).parts = .root :: ss.filterMap ofSegment := by
  have htext : (ofSegments ['/'] ss).text.toList = '/' :: List.intercalate ['/'] ss :=
    String.toList_ofList
  rw [parts_of_slash htext, tailParts]
  by_cases hne : ss = []
  · rw [hne]
    rfl
  · rw [segments_intercalate hne h]

/-- At the beginning a dot counts, and nothing else is special. -/
theorem parts_ofSegments_relative (h : ∀ s ∈ ss, '/' ∉ s) (hfirst : ss.head? ≠ some []) :
    (ofSegments [] ss).parts = relativeParts ss := by
  have htext : (ofSegments [] ss).text.toList = List.intercalate ['/'] ss := String.toList_ofList
  cases ss with
  | nil => rfl
  | cons first rest =>
    have hsegments := segments_intercalate (List.cons_ne_nil first rest) h
    have habsolute : (ofSegments [] (first :: rest)).isAbsolute = false := by
      rw [← Bool.not_eq_true, isAbsolute_iff, htext]
      rintro ⟨tail, htail⟩
      -- A slash at the beginning would have an empty stretch before it.
      rw [htail] at hsegments
      have hempty : first = [] := by simpa [segments] using (List.cons.inj hsegments).1.symm
      exact hfirst (congrArg some hempty)
    rw [parts_of_relative habsolute, htext, hsegments]

/-- If nothing special stands at the beginning, all stretches stand for what they stand
    for. -/
theorem parts_ofSegments_plain (h : ∀ s ∈ ss, '/' ∉ s)
    (hfirst : ∀ s ∈ ss.head?, s ≠ [] ∧ s ≠ ['.']) :
    (ofSegments [] ss).parts = ss.filterMap ofSegment := by
  rw [parts_ofSegments_relative h fun hempty => (hfirst [] hempty).1 rfl]
  cases ss with
  | nil => rfl
  | cons first rest => exact relativeParts_cons_of_ne (hfirst first rfl).2 rest

/-- Nothing special stands at the beginning of a path without a slash or a dot there. -/
theorem head_of_prefix {cs : List Char} (hroot : ∀ first rest, segments cs ≠ [] :: first :: rest)
    (hhere : ∀ rest, segments cs ≠ ['.'] :: rest) (hnone : (segments cs).filterMap ofSegment ≠ [])
    (hfront : ss <+: segments cs) : ∀ s ∈ ss.head?, s ≠ [] ∧ s ≠ ['.'] := by
  intro s hs
  obtain ⟨tail, rfl⟩ := List.head?_eq_some_iff.1 hs
  obtain ⟨rest, hrest⟩ := hfront
  rw [List.cons_append] at hrest
  constructor
  · rintro rfl
    cases hbehind : tail ++ rest with
    | nil =>
      rw [← hrest, hbehind] at hnone
      exact hnone rfl
    | cons first rest => exact hroot first rest (hbehind ▸ hrest.symm)
  · rintro rfl
    exact hhere _ hrest.symm

/-- **The directory that a path lies in has the parts before the last one**, and only the
    empty path and the root lie in none. -/
theorem parent_cases (p : Path) :
    p.parent = none ∧ (p.parts = [] ∨ p.parts = [.root]) ∨
      ∃ dir part, p.parent = some dir ∧ p.parts = dir.parts ++ [part] := by
  have hslashless : ∀ s ∈ segments p.text.toList, '/' ∉ s :=
    fun s hs => slash_notMem_of_mem_segments hs
  have hcut (ss : List (List Char)) : trimSegments (trimSegments ss).dropLast <+: ss := by
    have hdrop := List.dropLast_prefix (trimSegments ss)
    exact (trimSegments_isPrefix _).trans (hdrop.trans (trimSegments_isPrefix ss))
  unfold parent
  -- The cases are those of the parts: a slash at the beginning, a dot, or neither.
  split
  · next first rest heq =>
    have hparts : p.parts = .root :: (first :: rest).filterMap ofSegment := by
      unfold parts
      rw [heq]
    rw [heq] at hslashless
    rcases trimSegments_cases (first :: rest) with ⟨hnil, hnone⟩ | ⟨hne, part, hpart⟩
    · rw [hnil, hparts, hnone]
      exact .inl ⟨rfl, .inr rfl⟩
    · split
      · next hnil => exact absurd hnil hne
      · refine .inr ⟨_, part, rfl, ?_⟩
        rw [hparts, hpart, parts_ofSegments_root, List.cons_append]
        exact fun s hs => hslashless s (List.mem_cons_of_mem _ ((hcut _).subset hs))
  · next rest heq =>
    have hparts : p.parts = .here :: rest.filterMap ofSegment := by
      unfold parts
      rw [heq]
      rfl
    rw [heq] at hslashless
    rcases trimSegments_cases rest with ⟨hnil, hnone⟩ | ⟨hne, part, hpart⟩
    · rw [hnil, hparts, hnone]
      exact .inr ⟨⟨""⟩, .here, rfl, rfl⟩
    · split
      · next hnil => exact absurd hnil hne
      · refine .inr ⟨_, part, rfl, ?_⟩
        rw [hparts, hpart, parts_ofSegments_relative _ (by simp), relativeParts, List.cons_append]
        refine List.forall_mem_cons.2 ⟨by decide, fun s hs => ?_⟩
        exact hslashless s (List.mem_cons_of_mem _ ((hcut _).subset hs))
  · next hroot hhere =>
    have hparts : p.parts = (segments p.text.toList).filterMap ofSegment := by
      unfold parts
      split
      · next heq => exact absurd heq (hroot _ _)
      · next heq => exact absurd heq (hhere _)
      · rfl
    rcases trimSegments_cases (segments p.text.toList) with ⟨hnil, hnone⟩ | ⟨hne, part, hpart⟩
    · rw [hnil, hparts, hnone]
      exact .inl ⟨rfl, .inl rfl⟩
    · split
      · next hnil => exact absurd hnil hne
      · refine .inr ⟨_, part, rfl, ?_⟩
        have hfirst := head_of_prefix hroot hhere (by simp [hpart]) (hcut _)
        rw [hparts, hpart, parts_ofSegments_plain _ hfirst]
        exact fun s hs => hslashless s ((hcut _).subset hs)

/-- What bears a name lies in a directory. -/
theorem exists_parent_of_fileName {name : String} (h : p.fileName = some name) :
    ∃ dir, p.parent = some dir ∧ p.parts = dir.parts ++ [.name name] := by
  unfold fileName at h
  split at h
  case h_2 => cases h
  next name' hlast =>
  cases h
  rcases parent_cases p with ⟨-, hnil | hroot⟩ | ⟨dir, part, hdir, hparts⟩
  · rw [hnil] at hlast
    cases hlast
  · rw [hroot] at hlast
    cases hlast
  · rw [hparts, List.getLast?_concat] at hlast
    exact ⟨dir, hdir, Option.some.inj hlast ▸ hparts⟩

/-! ## Paths seen from absolute ones -/

variable {q root cwd : Path}

/-- Up to dots, the parts of a joined path are those of the two paths. -/
theorem filter_parts_join (h : q.isAbsolute = false) :
    (p.join q).parts.filter (· != .here) =
      p.parts.filter (· != .here) ++ q.parts.filter (· != .here) := by
  by_cases hempty : p.text = ""
  · have hjoin : p.join q = q := by
      unfold join
      rw [h, if_neg Bool.false_ne_true, if_pos hempty]
    have hnil : p.parts = [] := text_eq_empty_iff.1 hempty
    rw [hjoin, hnil, List.filter_nil, List.nil_append]
  · rw [parts_join hempty h, List.filter_append, List.filter_filter]
    simp only [Bool.and_self]

theorem isAbsolute_join_eq_false (hp : p.isAbsolute = false) (hq : q.isAbsolute = false) :
    (p.join q).isAbsolute = false := by
  have hparts := filter_parts_join (p := p) hq
  rw [isAbsolute_eq_contains, ← Bool.not_eq_true, List.contains_iff_mem] at hp hq ⊢
  intro hjoin
  have hmem : .root ∈ (p.join q).parts.filter (· != .here) := by simpa using hjoin
  rw [hparts, List.mem_append] at hmem
  rcases hmem with hmem | hmem
  · exact hp (List.mem_of_mem_filter hmem)
  · exact hq (List.mem_of_mem_filter hmem)

/-- Below an absolute path the parts of two relative ones stand one behind the other. -/
theorem parts_join_join (hroot : root.isAbsolute = true) (hp : p.isAbsolute = false)
    (hq : q.isAbsolute = false) :
    (root.join (p.join q)).parts = (root.join p).parts ++ q.parts.filter (· != .here) := by
  have hne := text_ne_of_isAbsolute hroot
  rw [parts_join hne (isAbsolute_join_eq_false hp hq), filter_parts_join hq, parts_join hne hp,
    List.append_assoc]

theorem isAbsolute_absolute (hcwd : cwd.isAbsolute = true) (p : Path) :
    (p.absolute cwd).isAbsolute = true := by
  have hjoined := isAbsolute_join hcwd p
  rw [isAbsolute_eq_contains, List.contains_iff_mem] at hjoined ⊢
  unfold absolute
  rw [parts_normalize, List.mem_filter]
  exact ⟨hjoined, rfl⟩

end ElmIntake.Path
