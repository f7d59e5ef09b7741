import ElmIntake.Proofs.Path.Join
import Mathlib.Data.List.Infix

/-! # Paths made of parts

    Paths are taken apart into parts and put together again. Nothing is lost on
    the way as long as the parts are those that a path can have: a root or a dot
    at the beginning, and behind it names and steps up.

    Main statement: `parts_ofParts`. From it follow the parts of what is left of
    a path below another one, and of a path without dots. -/

namespace ElmIntake

/-! ## Parts that a path can have -/

namespace PathPart

/-- Can the part stand behind other parts? Then it is what its own text stands
    for between two slashes. -/
structure IsInner (part : PathPart) : Prop where
  slashless : '/' ∉ part.text.toList
  ofSegment : ofSegment part.text.toList = some part

theorem toList_text_of_ofSegment {segment : List Char} {part : PathPart}
    (h : PathPart.ofSegment segment = some part) : part.text.toList = segment := by
  unfold PathPart.ofSegment at h
  split at h
  · cases h
  · split at h
    · next hup =>
      cases h
      exact hup.symm
    · cases h
      exact String.toList_ofList

theorem isInner_of_ofSegment {segment : List Char} {part : PathPart} (hslash : '/' ∉ segment)
    (h : PathPart.ofSegment segment = some part) : part.IsInner := by
  have htext := toList_text_of_ofSegment h
  exact ⟨htext ▸ hslash, htext ▸ h⟩

theorem IsInner.ne_root {part : PathPart} (h : part.IsInner) : part ≠ .root := by
  rintro rfl
  exact h.slashless (by decide)

theorem IsInner.text_ne {part : PathPart} (h : part.IsInner) :
    part.text.toList ≠ [] ∧ part.text.toList ≠ ['.'] := by
  have hsegment := h.ofSegment
  constructor
  · intro hnil
    rw [hnil] at hsegment
    cases hsegment
  · intro hdot
    rw [hdot] at hsegment
    cases hsegment

/-- Among parts that stand behind others there is no dot. -/
theorem filter_of_isInner {parts : List PathPart} (h : ∀ part ∈ parts, part.IsInner) :
    parts.filter (· != .here) = parts := by
  rw [List.filter_eq_self]
  intro part hpart
  rw [bne_iff_ne]
  rintro rfl
  exact (h _ hpart).text_ne.2 rfl

end PathPart

/-- Can a path have these parts? -/
structure IsPathParts (parts : List PathPart) : Prop where
  first : ∀ part ∈ parts.head?, part.IsInner ∨ part = .root ∨ part = .here
  inner : ∀ part ∈ parts.tail, part.IsInner

namespace IsPathParts

variable {parts : List PathPart}

theorem of_inner (h : ∀ part ∈ parts, part.IsInner) : IsPathParts parts := by
  constructor
  · intro part hpart
    exact .inl (h part (List.mem_of_mem_head? hpart))
  · intro part hpart
    exact h part (List.mem_of_mem_tail hpart)

theorem take (h : IsPathParts parts) (n : Nat) : IsPathParts (parts.take n) := by
  cases parts with
  | nil => simpa using h
  | cons first rest =>
    cases n with
    | zero => exact of_inner (by simp)
    | succ n =>
      refine ⟨h.first, ?_⟩
      intro part hpart
      exact h.inner part (List.mem_of_mem_take hpart)

theorem drop (h : IsPathParts parts) (n : Nat) : IsPathParts (parts.drop n) := by
  cases n with
  | zero => exact h
  | succ n =>
    apply of_inner
    intro part hpart
    apply h.inner part
    rw [← List.drop_one]
    rw [Nat.add_comm, ← List.drop_drop] at hpart
    exact List.mem_of_mem_drop hpart

/-- Dots stand at the beginning only, so without them a root stays there. -/
theorem withoutDots (h : IsPathParts parts) : IsPathParts (parts.filter (· != .here)) := by
  cases parts with
  | nil => exact h
  | cons first rest =>
    have hrest : ∀ part ∈ rest.filter (· != .here), part.IsInner := by
      intro part hpart
      exact h.inner part (List.mem_of_mem_filter hpart)
    by_cases hdot : first = .here
    · rw [hdot]
      exact of_inner hrest
    · rw [List.filter_cons_of_pos (by simpa using hdot)]
      exact ⟨h.first, hrest⟩

end IsPathParts

namespace Path

/-! ## Stretches between slashes -/

theorem slash_notMem_of_mem_segments {cs segment : List Char} (h : segment ∈ segments cs) :
    '/' ∉ segment := by
  induction cs generalizing segment with
  | nil =>
    rw [segments, List.mem_singleton] at h
    simp [h]
  | cons c cs ih =>
    unfold segments at h
    by_cases hc : c = '/'
    · rw [if_pos hc] at h
      rcases List.mem_cons.1 h with rfl | h
      · simp
      · exact ih h
    · rw [if_neg hc] at h
      cases hcs : segments cs with
      | nil => exact absurd hcs (segments_ne_nil cs)
      | cons first rest =>
        rw [hcs] at h ih
        rcases List.mem_cons.1 h with rfl | h
        · have hfirst := ih List.mem_cons_self
          simp [hfirst, Ne.symm hc]
        · exact ih (List.mem_cons_of_mem _ h)

theorem segments_of_slash_notMem {cs : List Char} (h : '/' ∉ cs) : segments cs = [cs] := by
  induction cs with
  | nil => rfl
  | cons c cs ih =>
    obtain ⟨hc, hcs⟩ : '/' ≠ c ∧ '/' ∉ cs := by simpa using h
    rw [segments, if_neg hc.symm, ih hcs]

/-- Stretches joined by slashes are found again. -/
theorem segments_intercalate {ss : List (List Char)} (hne : ss ≠ [])
    (h : ∀ segment ∈ ss, '/' ∉ segment) : segments (List.intercalate ['/'] ss) = ss := by
  induction ss with
  | nil => exact absurd rfl hne
  | cons first rest ih =>
    have hfirst := segments_of_slash_notMem (h first List.mem_cons_self)
    cases rest with
    | nil => simpa [List.intercalate] using hfirst
    | cons second rest =>
      have hrest := ih (by simp) fun segment hsegment => h segment (List.mem_cons_of_mem _ hsegment)
      rw [List.intercalate_cons_cons, List.append_assoc, List.singleton_append,
        segments_append_slash, hfirst, hrest]
      rfl

/-! ## Putting parts together -/

/-- The text of parts, one behind the other. -/
def joinedText (parts : List PathPart) : List Char :=
  List.intercalate ['/'] (parts.map (·.text.toList))

theorem toList_intercalate_text (parts : List PathPart) :
    ("/".intercalate (parts.map PathPart.text)).toList = joinedText parts := by
  rw [String.toList_intercalate, List.map_map]
  rfl

theorem segments_joinedText {parts : List PathPart} (hne : parts ≠ [])
    (h : ∀ part ∈ parts, '/' ∉ part.text.toList) :
    segments (joinedText parts) = parts.map (·.text.toList) := by
  apply segments_intercalate
  · simpa using hne
  · intro segment hsegment
    obtain ⟨part, hpart, rfl⟩ := List.mem_map.1 hsegment
    exact h part hpart

theorem filterMap_ofSegment_text {parts : List PathPart} (h : ∀ part ∈ parts, part.IsInner) :
    (parts.map (·.text.toList)).filterMap PathPart.ofSegment = parts := by
  induction parts with
  | nil => rfl
  | cons first rest ih =>
    rw [List.map_cons, List.filterMap_cons, (h first List.mem_cons_self).ofSegment]
    rw [ih fun part hpart => h part (List.mem_cons_of_mem _ hpart)]

theorem tailParts_joinedText {parts : List PathPart} (h : ∀ part ∈ parts, part.IsInner) :
    tailParts (joinedText parts) = parts := by
  by_cases hne : parts = []
  · rw [hne]
    rfl
  · unfold tailParts
    rw [segments_joinedText hne fun part hpart => (h part hpart).slashless]
    exact filterMap_ofSegment_text h

theorem text_ofParts {parts : List PathPart} (h : ∀ rest, parts ≠ .root :: rest) :
    (ofParts parts).text.toList = joinedText parts := by
  rw [ofParts]
  · exact toList_intercalate_text parts
  · intro rest heq
    exact h rest heq

/-- Behind a slash the parts are those of a path below the root. -/
theorem parts_ofParts_root {inner : List PathPart} (h : ∀ part ∈ inner, part.IsInner) :
    (ofParts (.root :: inner)).parts = .root :: inner := by
  have htext : (ofParts (.root :: inner)).text.toList = '/' :: joinedText inner := by
    rw [ofParts, String.toList_append, toList_intercalate_text]
    rfl
  rw [parts_of_slash htext, tailParts_joinedText h]

theorem parts_ofParts_here {inner : List PathPart} (h : ∀ part ∈ inner, part.IsInner) :
    (ofParts (.here :: inner)).parts = .here :: inner := by
  have hslashless : ∀ part ∈ PathPart.here :: inner, '/' ∉ part.text.toList := by
    intro part hpart
    rcases List.mem_cons.1 hpart with rfl | hpart
    · decide
    · exact (h part hpart).slashless
  unfold parts
  rw [text_ofParts (by simp), segments_joinedText (by simp) hslashless]
  exact congrArg (PathPart.here :: ·) (filterMap_ofSegment_text h)

theorem parts_ofParts_inner {inner : List PathPart} (h : ∀ part ∈ inner, part.IsInner) :
    (ofParts inner).parts = inner := by
  cases inner with
  | nil => decide
  | cons first rest =>
    have hfirst := h first List.mem_cons_self
    obtain ⟨hnil, hdot⟩ := hfirst.text_ne
    have htext : (ofParts (first :: rest)).text.toList = joinedText (first :: rest) := by
      apply text_ofParts
      intro others heq
      exact hfirst.ne_root (List.cons.inj heq).1
    have hsegments := segments_joinedText (List.cons_ne_nil first rest)
      fun part hpart => (h part hpart).slashless
    have hrelative : (ofParts (first :: rest)).isAbsolute = false := by
      rw [Bool.eq_false_iff]
      intro habsolute
      -- A slash at the beginning would leave an empty first part.
      obtain ⟨tail, htail⟩ := isAbsolute_iff.1 habsolute
      rw [← htext, htail, segments, if_pos rfl] at hsegments
      exact hnil (List.cons.inj hsegments).1.symm
    rw [parts_of_relative hrelative, htext, hsegments, List.map_cons,
      relativeParts_cons_of_ne hdot, ← List.map_cons (f := fun part : PathPart => part.text.toList)]
    exact filterMap_ofSegment_text h

/-- **Parts that a path can have are the parts of the path made of them.** -/
theorem parts_ofParts {parts : List PathPart} (h : IsPathParts parts) :
    (ofParts parts).parts = parts := by
  obtain ⟨hfirst, hinner⟩ := h
  cases parts with
  | nil => decide
  | cons first rest =>
    rcases hfirst first rfl with hfirst | rfl | rfl
    · exact parts_ofParts_inner (List.forall_mem_cons.2 ⟨hfirst, hinner⟩)
    · exact parts_ofParts_root hinner
    · exact parts_ofParts_here hinner

/-! ## The parts of a path -/

theorem isInner_of_mem_filterMap {cs : List Char} {ss : List (List Char)} {part : PathPart}
    (hss : ss ⊆ segments cs) (h : part ∈ ss.filterMap PathPart.ofSegment) : part.IsInner := by
  obtain ⟨segment, hsegment, hpart⟩ := List.mem_filterMap.1 h
  exact PathPart.isInner_of_ofSegment (slash_notMem_of_mem_segments (hss hsegment)) hpart

/-- A path has parts that a path can have. -/
theorem isPathParts_parts (p : Path) : IsPathParts p.parts := by
  cases habsolute : p.isAbsolute with
  | true =>
    obtain ⟨rest, hrest⟩ := isAbsolute_iff.1 habsolute
    rw [parts_of_slash hrest]
    refine ⟨fun part hpart => .inr (.inl (Option.some.inj hpart).symm), ?_⟩
    intro part hpart
    exact isInner_of_mem_filterMap (List.Subset.refl _) hpart
  | false =>
    rw [parts_of_relative habsolute]
    have hall : segments p.text.toList ⊆ segments p.text.toList := List.Subset.refl _
    generalize hsegments : segments p.text.toList = ss at hall ⊢
    rw [← hsegments] at hall
    unfold relativeParts
    split
    · next rest =>
      refine ⟨fun part hpart => .inr (.inr (Option.some.inj hpart).symm), ?_⟩
      intro part hpart
      exact isInner_of_mem_filterMap (fun s hs => hsegments ▸ List.mem_cons_of_mem _ hs) hpart
    · apply IsPathParts.of_inner
      intro part hpart
      exact isInner_of_mem_filterMap (fun s hs => hsegments ▸ hs) hpart

theorem parts_normalize (p : Path) : p.normalize.parts = p.parts.filter (· != .here) :=
  parts_ofParts p.isPathParts_parts.withoutDots

theorem parts_of_below? {p base rest : Path} (h : p.below? base = some rest) :
    base.parts <+: p.parts ∧ rest.parts = p.parts.drop base.parts.length := by
  unfold below? at h
  split at h
  · next hbase =>
    cases h
    exact ⟨startsWith_iff.1 hbase, parts_ofParts (p.isPathParts_parts.drop _)⟩
  · cases h

end Path

end ElmIntake
