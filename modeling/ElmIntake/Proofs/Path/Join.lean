import ElmIntake.Path

/-! # Joined paths

    What the parts of a joined path are. They are made of the parts of the two
    paths, so that paths with the same parts stay the same below any root. -/

namespace ElmIntake

/-! ## Segments and parts -/

namespace Path

theorem segments_append_slash (xs ys : List Char) :
    segments (xs ++ '/' :: ys) = segments xs ++ segments ys := by
  induction xs with
  | nil => simp [segments]
  | cons c cs ih =>
    rw [List.cons_append]
    by_cases hc : c = '/'
    · simp [segments, hc, ih]
    · cases hcs : segments cs with
      | nil => exact absurd hcs (segments_ne_nil cs)
      | cons s ss =>
        rw [hcs] at ih
        simp [segments, hc, ih, hcs]

theorem segments_eq_nil_cons_iff {cs : List Char} {ss : List (List Char)} :
    segments cs = [] :: ss ↔ cs = [] ∧ ss = [] ∨ ∃ rest, cs = '/' :: rest ∧ ss = segments rest := by
  cases cs with
  | nil => simp [segments, eq_comm]
  | cons c cs =>
    by_cases hc : c = '/'
    · simp [segments, hc, eq_comm]
    · cases hcs : segments cs <;> simp [segments, hc, hcs]

theorem isAbsolute_iff {p : Path} : p.isAbsolute = true ↔ ∃ rest, p.text.toList = '/' :: rest := by
  unfold isAbsolute
  cases p.text.toList <;> simp

theorem text_ne_of_isAbsolute {p : Path} (h : p.isAbsolute = true) : p.text ≠ "" := by
  obtain ⟨rest, hrest⟩ := isAbsolute_iff.1 h
  intro hempty
  rw [hempty] at hrest
  cases hrest

/-- The parts after a slash. -/
def tailParts (cs : List Char) : List PathPart := (segments cs).filterMap PathPart.ofSegment

/-- The parts of the stretches of a path without a slash at its beginning. -/
def relativeParts : List (List Char) → List PathPart
  | ['.'] :: ss => .here :: ss.filterMap PathPart.ofSegment
  | ss => ss.filterMap PathPart.ofSegment

theorem parts_of_slash {p : Path} {rest : List Char} (h : p.text.toList = '/' :: rest) :
    p.parts = .root :: tailParts rest := by
  have hsegments : segments ('/' :: rest) = [] :: segments rest := by simp [segments]
  unfold parts
  rw [h, hsegments]
  cases hrest : segments rest with
  | nil => exact absurd hrest (segments_ne_nil rest)
  | cons s ss => simp only [tailParts, hrest]

theorem parts_of_relative {p : Path} (h : p.isAbsolute = false) :
    p.parts = relativeParts (segments p.text.toList) := by
  unfold parts
  split
  · next s ss hsegments =>
    rcases segments_eq_nil_cons_iff.1 hsegments with ⟨-, hnil⟩ | ⟨rest, hrest, -⟩
    · cases hnil
    · rw [isAbsolute_iff.2 ⟨rest, hrest⟩] at h
      cases h
  · next ss hsegments => rw [hsegments, relativeParts]
  · next hnot =>
    rw [relativeParts]
    exact hnot

theorem relativeParts_cons_of_ne {s : List Char} (h : s ≠ ['.']) (ss : List (List Char)) :
    relativeParts (s :: ss) = (s :: ss).filterMap PathPart.ofSegment := by
  unfold relativeParts
  split
  · next heq => exact absurd (List.cons.inj heq).1 h
  · rfl

theorem relativeParts_append {ss : List (List Char)} (hne : ss ≠ []) (tt : List (List Char)) :
    relativeParts (ss ++ tt) = relativeParts ss ++ tt.filterMap PathPart.ofSegment := by
  cases ss with
  | nil => exact absurd rfl hne
  | cons s ss =>
    by_cases hdot : s = ['.']
    · simp [hdot, relativeParts]
    · rw [List.cons_append, relativeParts_cons_of_ne hdot, relativeParts_cons_of_ne hdot,
        ← List.cons_append, List.filterMap_append]

end Path

theorem PathPart.ofSegment_ne {segment : List Char} {part : PathPart}
    (h : ofSegment segment = some part) : part ≠ .here ∧ part ≠ .root := by
  unfold ofSegment at h
  split at h
  · cases h
  · split at h <;> cases h <;> exact ⟨nofun, nofun⟩

namespace Path

theorem mem_tailParts_ne {cs : List Char} {part : PathPart} (h : part ∈ tailParts cs) :
    part ≠ .here ∧ part ≠ .root := by
  obtain ⟨segment, -, hpart⟩ := List.mem_filterMap.1 h
  exact PathPart.ofSegment_ne hpart

theorem filter_relativeParts (ss : List (List Char)) :
    (relativeParts ss).filter (· != .here) = ss.filterMap PathPart.ofSegment := by
  have hall : ∀ ss : List (List Char), (ss.filterMap PathPart.ofSegment).filter (· != .here) =
      ss.filterMap PathPart.ofSegment := fun ss =>
    List.filter_eq_self.2 fun part hpart => by
      obtain ⟨segment, -, hsegment⟩ := List.mem_filterMap.1 hpart
      simpa using (PathPart.ofSegment_ne hsegment).1
  unfold relativeParts
  split
  · next ss => simpa [PathPart.ofSegment] using hall ss
  · exact hall _

/-- Behind a slash the parts of a relative path are the same, but for a dot at
    its beginning. -/
theorem tailParts_eq {p : Path} (h : p.isAbsolute = false) :
    tailParts p.text.toList = p.parts.filter (· != .here) := by
  rw [parts_of_relative h, filter_relativeParts]
  rfl

/-- A path is absolute if the root is one of its parts. -/
theorem isAbsolute_eq_contains (p : Path) : p.isAbsolute = p.parts.contains .root := by
  cases h : p.isAbsolute with
  | true =>
    obtain ⟨rest, hrest⟩ := isAbsolute_iff.1 h
    rw [parts_of_slash hrest]
    rfl
  | false =>
    have hfilter : PathPart.root ∉ p.parts.filter (· != .here) := fun hmem =>
      (mem_tailParts_ne (tailParts_eq h ▸ hmem)).2 rfl
    have hmem : PathPart.root ∉ p.parts := by simpa using hfilter
    simpa using hmem

/-- Only the empty path has no parts. -/
theorem text_of_parts_nil {p : Path} (h : p.parts = []) : p.text = "" := by
  cases habsolute : p.isAbsolute with
  | true =>
    obtain ⟨rest, hrest⟩ := isAbsolute_iff.1 habsolute
    rw [parts_of_slash hrest] at h
    cases h
  | false =>
    rw [parts_of_relative habsolute] at h
    cases hsegments : segments p.text.toList with
    | nil => exact absurd hsegments (segments_ne_nil _)
    | cons first rest =>
      rw [hsegments] at h
      by_cases hdot : first = ['.']
      · rw [hdot, relativeParts] at h
        cases h
      · rw [relativeParts_cons_of_ne hdot, List.filterMap_eq_nil_iff] at h
        have hnone := h first List.mem_cons_self
        have hfirst : first = [] := by
          unfold PathPart.ofSegment at hnone
          split at hnone
          · next hblank => exact hblank.resolve_right hdot
          · split at hnone <;> cases hnone
        rw [hfirst] at hsegments
        -- Behind an empty first stretch there is a slash, or nothing at all.
        rcases segments_eq_nil_cons_iff.1 hsegments with ⟨hnil, -⟩ | ⟨tail, htail, -⟩
        · exact String.toList_inj.1 hnil
        · rw [isAbsolute_iff.2 ⟨tail, htail⟩] at habsolute
          cases habsolute

/-! ## Joining -/

theorem join_of_isAbsolute {root p : Path} (h : p.isAbsolute = true) : root.join p = p := by
  unfold join
  rw [if_pos h]

/-- What follows a slash adds its parts to a path. -/
theorem parts_append_slash {p q : Path} {ys : List Char} (hne : p.text ≠ "")
    (h : q.text.toList = p.text.toList ++ '/' :: ys) : q.parts = p.parts ++ tailParts ys := by
  have hnil : p.text.toList ≠ [] := by simpa using hne
  cases habsolute : p.isAbsolute with
  | true =>
    obtain ⟨rest, hrest⟩ := isAbsolute_iff.1 habsolute
    rw [hrest] at h
    rw [parts_of_slash hrest, parts_of_slash h]
    simp [tailParts, segments_append_slash]
  | false =>
    have hjoined : q.isAbsolute = false := by
      unfold isAbsolute at habsolute ⊢
      rw [h]
      cases htext : p.text.toList with
      | nil => exact absurd htext hnil
      | cons c cs => simpa [htext] using habsolute
    rw [parts_of_relative habsolute, parts_of_relative hjoined, h, segments_append_slash]
    exact relativeParts_append (segments_ne_nil _) _

/-- The parts of a joined path are those of the root, and then those of the
    path. -/
theorem parts_join {root path : Path} (hroot : root.text ≠ "") (h : path.isAbsolute = false) :
    (root.join path).parts = root.parts ++ path.parts.filter (· != .here) := by
  rw [← tailParts_eq h]
  unfold join
  rw [h, if_neg Bool.false_ne_true, if_neg hroot]
  split
  · next hlast =>
    -- The root ends in a slash, behind which there is nothing yet.
    obtain ⟨start, hstart⟩ := List.getLast?_eq_some_iff.1 hlast
    have hjoined : (root.text ++ path.text).toList = start ++ '/' :: path.text.toList := by
      simp [hstart]
    by_cases hempty : start = []
    · subst hempty
      have hparts : root.parts = .root :: tailParts [] := parts_of_slash hstart
      rw [hparts]
      exact parts_of_slash hjoined
    · have hne : (Path.mk (String.ofList start)).text ≠ "" := by
        simpa [← String.toList_inj] using hempty
      have hstart' : root.text.toList =
          (Path.mk (String.ofList start)).text.toList ++ '/' :: [] := by
        simpa using hstart
      have hjoined' : (Path.mk (root.text ++ path.text)).text.toList =
          (Path.mk (String.ofList start)).text.toList ++ '/' :: path.text.toList := by
        simpa using hjoined
      rw [parts_append_slash hne hstart', parts_append_slash hne hjoined']
      simp [tailParts, segments, PathPart.ofSegment]
  · exact parts_append_slash hroot (by simp)

/-- What is seen from an absolute path is absolute. -/
theorem isAbsolute_join {root : Path} (h : root.isAbsolute = true) (path : Path) :
    (root.join path).isAbsolute = true := by
  unfold join
  split
  · next habsolute => exact habsolute
  · obtain ⟨rest, hrest⟩ := isAbsolute_iff.1 h
    rw [if_neg (text_ne_of_isAbsolute h)]
    split
    · apply isAbsolute_iff.2
      exact ⟨rest ++ path.text.toList, by rw [String.toList_append, hrest]; rfl⟩
    · apply isAbsolute_iff.2
      exact ⟨rest ++ '/' :: path.text.toList, by simp [hrest]⟩

/-- Below any root, paths with the same parts have the same parts. -/
theorem parts_join_congr {p q : Path} (root : Path) (h : p.parts = q.parts) :
    (root.join p).parts = (root.join q).parts := by
  have habsolute : p.isAbsolute = q.isAbsolute := by
    rw [isAbsolute_eq_contains, isAbsolute_eq_contains, h]
  by_cases hroot : root.text = ""
  · simp only [join, hroot, if_true, ite_self, h]
  · cases hq : q.isAbsolute with
    | true =>
      rw [hq] at habsolute
      simp only [join, hq, habsolute, if_true, h]
    | false => rw [parts_join hroot hq, parts_join hroot (habsolute.trans hq), h]

end Path

end ElmIntake
