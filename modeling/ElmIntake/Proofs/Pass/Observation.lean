import ElmIntake.FileSystem.Memory
import ElmIntake.Pass
import Mathlib.Data.List.Forall2

/-! # What a look at a source can give

    Everything that `Oracle.observe` does, as lemmas that need not be looked
    behind: a source is either taken from the session because of its time, or it
    is read, and then the caches are asked for its content. Looking at several
    sources is looking at each of them. -/

namespace ElmIntake

/-! ## A file by itself -/

/-- The file system in memory that holds one file. -/
def Memory.single (path : Path) (content : Bytes) (modified : FileTime) : Memory :=
  ⟨[(path, ⟨content, modified, true⟩)], List.pairwise_singleton _ _⟩

theorem Memory.file?_single (path other : Path) (content : Bytes) (modified : FileTime) :
    (single path content modified).file? other =
      if other.same path then some ⟨content, modified, true⟩ else none := by
  unfold single file?
  by_cases hsame : other.same path = true <;> simp [hsame]

/-- Only the one file has a time. -/
theorem Memory.modified_single {path other : Path} {content : Bytes} {modified found : FileTime}
    (h : (single path content modified).fileSystem.modified other = .ok found) :
    other.same path = true ∧ found = modified := by
  have hmodified : (single path content modified).modified other = .ok found := h
  unfold Memory.modified at hmodified
  rw [file?_single] at hmodified
  by_cases hsame : other.same path = true
  · rw [if_pos hsame] at hmodified
    cases hmodified
    exact ⟨hsame, rfl⟩
  · rw [if_neg hsame] at hmodified
    cases hmodified

/-- Only the one file can be read. -/
theorem Memory.read_single {path other : Path} {content found : Bytes} {modified : FileTime}
    (h : (single path content modified).fileSystem.read other = .ok found) :
    other.same path = true ∧ found = content := by
  have hread : (single path content modified).read other = .ok found := h
  unfold Memory.read at hread
  rw [file?_single] at hread
  by_cases hsame : other.same path = true
  · rw [if_pos hsame] at hread
    cases hread
    exact ⟨hsame, rfl⟩
  · rw [if_neg hsame] at hread
    cases hread

/-! ## Sessions -/

namespace Session

variable {s : Session} {path : Path} {e : SessionEntry}

theorem mem_of_get? (h : s.get? path = some e) : e ∈ s.entries ∧ path.same e.path = true :=
  ⟨List.mem_of_find?_eq_some h, by simpa using List.find?_some h⟩

end Session

/-! ## Verdicts -/

/-- Where the outcome of a content of the digest `hash` comes from after a
    verdict. -/
def Verdict.resolution (hash : String) : Verdict → Resolution
  | sessionHit e => .session e.outcome
  | durableHit tree => .durable tree
  | miss => .parse hash

namespace Oracle

variable {oracle : Oracle} {fs : FileSystem} {root path : Path}

/-- Times decide in watch mode only, if they are trusted, and if both are known
    and the file is not the newer one. -/
theorem byTime_eq_some_iff {modified : FileTime} {e : SessionEntry} :
    oracle.byTime path modified = some e ↔
      (oracle.watch = true ∧ oracle.freshness = .trustTime) ∧ oracle.session.get? path = some e ∧
        ∃ known seen, e.modified = some known ∧ modified = some seen ∧ seen ≤ known := by
  unfold byTime
  by_cases hmode : oracle.watch = true ∧ oracle.freshness = .trustTime
  · rw [if_pos hmode]
    cases hget : oracle.session.get? path with
    | none => simp
    | some found =>
      dsimp only
      split
      · next known seen hknown =>
        by_cases hle : seen ≤ known
        · simp only [if_pos hle, Option.some.injEq]
          constructor
          · rintro rfl
            exact ⟨hmode, rfl, known, seen, hknown, rfl, hle⟩
          · exact fun h => h.2.1
        · simp only [if_neg hle]
          constructor
          · intro h
            cases h
          · rintro ⟨-, h, known', seen', hk, hs, hle'⟩
            cases h
            rw [hknown, Option.some.injEq] at hk
            rw [Option.some.injEq] at hs
            exact absurd (hk ▸ hs ▸ hle') hle
      · next hunknown =>
        constructor
        · intro h
          cases h
        · rintro ⟨-, h, known, seen, hk, rfl, -⟩
          cases h
          exact absurd rfl (hunknown known seen hk)
  · rw [if_neg hmode]
    simp [hmode]

/-- Without trust in times they never decide. -/
theorem byTime_eq_none (h : ¬ (oracle.watch = true ∧ oracle.freshness = .trustTime))
    (path : Path) (modified : FileTime) : oracle.byTime path modified = none := by
  unfold byTime
  rw [if_neg h]

/-- The session decides if it knows the content. -/
theorem byContent_of_get? {content : Bytes} {e : SessionEntry}
    (hget : oracle.session.get? path = some e) (hcontent : e.content = content) (hash : String) :
    oracle.byContent path content hash = .sessionHit e := by
  unfold byContent
  rw [hget]
  exact if_pos hcontent

/-- The durable cache decides if the session does not. -/
theorem byContent_of_ne {content : Bytes}
    (hne : ∀ e, oracle.session.get? path = some e → e.content ≠ content) (hash : String) :
    oracle.byContent path content hash =
      (oracle.durable.bind (·.get? hash)).elim .miss .durableHit := by
  unfold byContent
  cases hget : oracle.session.get? path with
  | none => cases oracle.durable.bind (·.get? hash) <;> rfl
  | some e =>
    dsimp only
    rw [if_neg (hne e hget)]
    cases oracle.durable.bind (·.get? hash) <;> rfl

/-- The session decides before the durable cache, and both by the content. -/
theorem byContent_cases (oracle : Oracle) (path : Path) (content : Bytes) (hash : String) :
    (∃ e, oracle.session.get? path = some e ∧ e.content = content ∧
      oracle.byContent path content hash = .sessionHit e) ∨
    (∀ e, oracle.session.get? path = some e → e.content ≠ content) ∧
      ((∃ cache tree, oracle.durable = some cache ∧ cache.get? hash = some tree ∧
        oracle.byContent path content hash = .durableHit tree) ∨
      (∀ cache, oracle.durable = some cache → cache.get? hash = none) ∧
        oracle.byContent path content hash = .miss) := by
  by_cases hsession : ∃ e, oracle.session.get? path = some e ∧ e.content = content
  · obtain ⟨e, hget, hcontent⟩ := hsession
    exact .inl ⟨e, hget, hcontent, byContent_of_get? hget hcontent hash⟩
  · have hne : ∀ e, oracle.session.get? path = some e → e.content ≠ content := fun e hget heq =>
      hsession ⟨e, hget, heq⟩
    refine .inr ⟨hne, ?_⟩
    rw [byContent_of_ne hne hash]
    cases hdurable : oracle.durable with
    | none => exact .inr ⟨by simp, rfl⟩
    | some cache =>
      cases hget : cache.get? hash with
      | none => exact .inr ⟨fun _ h => by cases h; exact hget, by simp [hget]⟩
      | some tree => exact .inl ⟨cache, tree, rfl, hget, by simp [hget]⟩

/-! ## One source -/

/-- A source that its time decides is taken from the session, time and all. -/
theorem observe_of_byTime {modified : FileTime} {e : SessionEntry}
    (hmodified : fs.modified (root.join path) = .ok modified)
    (htime : oracle.byTime path modified = some e) :
    oracle.observe fs root path = .ok ⟨⟨path, e.content, e.modified⟩, .session e.outcome⟩ := by
  simp only [observe, hmodified, htime]

/-- Any other source is read. -/
theorem observe_of_read {modified : FileTime} {content : Bytes}
    (hmodified : fs.modified (root.join path) = .ok modified)
    (htime : oracle.byTime path modified = none)
    (hread : fs.read (root.join path) = .ok content) :
    oracle.observe fs root path =
      .ok ⟨⟨path, content, modified⟩,
        (oracle.byContent path content (Digest.hex content)).resolution (Digest.hex content)⟩ := by
  simp only [observe, hmodified, htime, hread]
  cases oracle.byContent path content (Digest.hex content) <;> rfl

/-- There is no third way to look at a source. -/
theorem observe_cases {o : Observed} (h : oracle.observe fs root path = .ok o) :
    ∃ modified, fs.modified (root.join path) = .ok modified ∧
      ((∃ e, oracle.byTime path modified = some e ∧
        o = ⟨⟨path, e.content, e.modified⟩, .session e.outcome⟩) ∨
      oracle.byTime path modified = none ∧ ∃ content, fs.read (root.join path) = .ok content ∧
        o = ⟨⟨path, content, modified⟩, (oracle.byContent path content
          (Digest.hex content)).resolution (Digest.hex content)⟩) := by
  cases hmodified : fs.modified (root.join path) with
  | error fault => simp [observe, hmodified] at h
  | ok modified =>
    refine ⟨modified, rfl, ?_⟩
    cases htime : oracle.byTime path modified with
    | some e =>
      rw [observe_of_byTime hmodified htime, Except.ok.injEq] at h
      exact .inl ⟨e, rfl, h.symm⟩
    | none =>
      cases hread : fs.read (root.join path) with
      | error fault => simp [observe, hmodified, htime, hread] at h
      | ok content =>
        rw [observe_of_read hmodified htime hread, Except.ok.injEq] at h
        exact .inr ⟨rfl, content, rfl, h.symm⟩

/-- Where times are not trusted, a source is seen as the file system holds it. -/
theorem file_of_observe {o : Observed}
    (hmode : ¬ (oracle.watch = true ∧ oracle.freshness = .trustTime))
    (h : oracle.observe fs root path = .ok o) :
    o.file.path = path ∧ fs.modified (root.join path) = .ok o.file.modified ∧
      fs.read (root.join path) = .ok o.file.content := by
  obtain ⟨modified, hmodified, ⟨e, htime, -⟩ | ⟨-, content, hread, rfl⟩⟩ := observe_cases h
  · rw [byTime_eq_none hmode] at htime
    cases htime
  · exact ⟨rfl, hmodified, hread⟩

/-- Oracles that do not trust times see the same file, wherever they take its
    outcome from. -/
theorem exists_observe_of_file {oracle' : Oracle} {o : Observed}
    (hmode : ¬ (oracle.watch = true ∧ oracle.freshness = .trustTime))
    (hmode' : ¬ (oracle'.watch = true ∧ oracle'.freshness = .trustTime))
    (h : oracle.observe fs root path = .ok o) :
    ∃ o', oracle'.observe fs root path = .ok o' ∧ o'.file = o.file := by
  obtain ⟨hpath, hmodified, hread⟩ := file_of_observe hmode h
  refine ⟨_, observe_of_read hmodified (byTime_eq_none hmode' _ _) hread, ?_⟩
  rw [← hpath]

/-! ## Several sources -/

theorem observeAll_eq_ok_iff {paths : List Path} {os : List Observed} :
    oracle.observeAll fs root paths = .ok os ↔
      List.Forall₂ (fun path o => oracle.observe fs root path = .ok o) paths os := by
  induction paths generalizing os with
  | nil =>
    rw [observeAll, List.forall₂_nil_left_iff, Except.ok.injEq]
    exact eq_comm
  | cons path paths ih =>
    rw [observeAll, List.forall₂_cons_left_iff]
    cases hpath : oracle.observe fs root path with
    | error e => simp
    | ok o =>
      cases hrest : oracle.observeAll fs root paths with
      | error e =>
        have hnone : ∀ os, ¬ List.Forall₂ (fun p o => oracle.observe fs root p = .ok o) paths os :=
          fun os h => by simp [ih.2 h] at hrest
        simp [Except.map, hnone]
      | ok rest =>
        have hforall := ih.1 hrest
        simp only [Except.map, Except.ok.injEq]
        constructor
        · rintro rfl
          exact ⟨o, rest, rfl, hforall, rfl⟩
        · rintro ⟨o', rest', ho, hrest', rfl⟩
          rw [ih.2 hrest', Except.ok.injEq] at hrest
          rw [ho, hrest]

theorem exists_of_mem_observeAll {paths : List Path} {os : List Observed} {o : Observed}
    (h : oracle.observeAll fs root paths = .ok os) (ho : o ∈ os) :
    ∃ path ∈ paths, oracle.observe fs root path = .ok o := by
  rw [observeAll_eq_ok_iff] at h
  induction h with
  | nil => cases ho
  | cons hfirst _ ih =>
    rcases List.mem_cons.1 ho with rfl | ho
    · exact ⟨_, List.mem_cons_self, hfirst⟩
    · obtain ⟨path, hpath, hobserve⟩ := ih ho
      exact ⟨path, List.mem_cons_of_mem _ hpath, hobserve⟩

theorem exists_observeAll_of_files {oracle' : Oracle} {paths : List Path} {os : List Observed}
    (hmode : ¬ (oracle.watch = true ∧ oracle.freshness = .trustTime))
    (hmode' : ¬ (oracle'.watch = true ∧ oracle'.freshness = .trustTime))
    (h : oracle.observeAll fs root paths = .ok os) :
    ∃ os', oracle'.observeAll fs root paths = .ok os' ∧
      os'.map (·.file) = os.map (·.file) := by
  simp only [observeAll_eq_ok_iff] at h ⊢
  induction h with
  | nil => exact ⟨[], .nil, rfl⟩
  | cons hfirst _ ih =>
    obtain ⟨o', ho', hfile⟩ := exists_observe_of_file hmode hmode' hfirst
    obtain ⟨os', hos', hfiles⟩ := ih
    exact ⟨o' :: os', .cons ho' hos', by simp only [List.map_cons, hfile, hfiles]⟩

/-- Oracles that see every one of some sources alike see all of them alike. -/
theorem observeAll_congr {oracle' : Oracle} {paths : List Path} {os : List Observed}
    (h : oracle.observeAll fs root paths = .ok os)
    (hsame : ∀ path o, oracle.observe fs root path = .ok o → oracle'.observe fs root path = .ok o) :
    oracle'.observeAll fs root paths = .ok os :=
  observeAll_eq_ok_iff.2 ((observeAll_eq_ok_iff.1 h).imp hsame)

end Oracle

end ElmIntake
