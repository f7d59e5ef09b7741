import ElmIntake.Proofs.Path.Parts

/-! # Spellings of a path

    A path can be written in many ways that have the same parts. Whatever hangs on the
    parts alone is the same for all of them: the characters that stand in it, whether it
    is empty, and what lies below it. The ways in which an entry of a project can be
    respelled (`Path.Respells`) are of this kind, once they are seen from the project
    root.

    Main statement: `Path.Respells.parts_join`. -/

namespace ElmIntake

/-- Is the second path another spelling of the first one, for a project at `root`? -/
inductive Path.Respells (root : Path) : Path → Path → Prop
  /-- A dot before the path. -/
  | before (p : Path) : p.isAbsolute = false → Respells root p ⟨"./" ++ p.text⟩
  /-- A dot between two slashes. -/
  | inside (s t : String) : Respells root ⟨s ++ "/" ++ t⟩ ⟨s ++ "/./" ++ t⟩
  /-- A slash behind the path, and any slashes and dots behind that. -/
  | behind (p : Path) (blank : String) :
      p.text ≠ "" → (∀ segment ∈ segments blank.toList, isBlankSegment segment) →
        Respells root p ⟨p.text ++ "/" ++ blank⟩
  /-- The path as seen from the root. -/
  | absolute (p : Path) : Respells root p (root.join p)

namespace Path

variable {p q root : Path}

/-! ## What hangs on the parts -/

/-- The empty path is the one without parts. -/
theorem text_eq_empty_iff : p.text = "" ↔ p.parts = [] := by
  refine ⟨fun h => ?_, text_of_parts_nil⟩
  unfold parts
  rw [h]
  rfl

/-- Seen from two paths with the same parts, a path has the same parts. -/
theorem parts_join_congr_left (path : Path) (h : p.parts = q.parts) :
    (p.join path).parts = (q.join path).parts := by
  cases habsolute : path.isAbsolute with
  | true => rw [join_of_isAbsolute habsolute, join_of_isAbsolute habsolute]
  | false =>
    by_cases hempty : p.text = ""
    · have hempty' : q.text = "" := by rwa [text_eq_empty_iff, ← h, ← text_eq_empty_iff]
      unfold join
      rw [hempty, hempty']
    · have hempty' : q.text ≠ "" := by rwa [Ne, text_eq_empty_iff, ← h, ← text_eq_empty_iff]
      rw [parts_join hempty habsolute, parts_join hempty' habsolute, h]

theorem tailParts_dot (cs : List Char) : tailParts ('.' :: '/' :: cs) = tailParts cs := by
  unfold tailParts
  rw [show '.' :: '/' :: cs = ['.'] ++ '/' :: cs from rfl, segments_append_slash]
  rfl

/-- Slashes and dots behind a path add nothing to it. -/
theorem parts_blankBehind {blank : String} (hne : p.text ≠ "")
    (hblank : ∀ segment ∈ segments blank.toList, isBlankSegment segment) :
    (Path.mk (p.text ++ "/" ++ blank)).parts = p.parts := by
  have htail : tailParts blank.toList = [] := by
    unfold tailParts
    rw [List.filterMap_eq_nil_iff]
    intro segment hsegment
    have h := hblank segment hsegment
    unfold isBlankSegment at h
    unfold PathPart.ofSegment
    exact if_pos (by simpa using h)
  have htext : (Path.mk (p.text ++ "/" ++ blank)).text.toList =
      p.text.toList ++ '/' :: blank.toList := by simp
  rw [parts_append_slash hne htext, htail, List.append_nil]

theorem parts_dotInside (s t : String) :
    (Path.mk (s ++ "/./" ++ t)).parts = (Path.mk (s ++ "/" ++ t)).parts := by
  have hdotted : (Path.mk (s ++ "/./" ++ t)).text.toList =
      s.toList ++ '/' :: '.' :: '/' :: t.toList := by simp
  have hplain : (Path.mk (s ++ "/" ++ t)).text.toList = s.toList ++ '/' :: t.toList := by simp
  by_cases hs : s = ""
  · subst hs
    rw [parts_of_slash hdotted, parts_of_slash hplain, tailParts_dot]
  · have hne : (Path.mk s).text ≠ "" := hs
    rw [parts_append_slash hne hdotted, parts_append_slash hne hplain, tailParts_dot]

theorem parts_dotBefore (h : p.isAbsolute = false) :
    (Path.mk ("./" ++ p.text)).parts = .here :: p.parts.filter (· != .here) := by
  have htext : (Path.mk ("./" ++ p.text)).text.toList =
      (Path.mk ".").text.toList ++ '/' :: p.text.toList := by simp
  rw [parts_append_slash (by decide) htext, tailParts_eq h]
  rfl

/-- **Another spelling leads to the same parts**, once it is seen from the root. -/
theorem Respells.parts_join (hroot : root.isAbsolute = true) (h : Respells root p q) :
    (root.join q).parts = (root.join p).parts := by
  have hne := text_ne_of_isAbsolute hroot
  cases h with
  | before _ hp =>
    have hdotted : (Path.mk ("./" ++ p.text)).isAbsolute = false := by simp [isAbsolute]
    rw [Path.parts_join hne hdotted, Path.parts_join hne hp, parts_dotBefore hp]
    simp
  | inside s t => exact parts_join_congr root (parts_dotInside s t)
  | behind _ blank hp hblank => exact parts_join_congr root (parts_blankBehind hp hblank)
  | absolute => rw [join_of_isAbsolute (isAbsolute_join hroot p)]

end Path

end ElmIntake
