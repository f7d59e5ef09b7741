import ElmIntake.Proofs.Pass.Incremental
import Mathlib.Data.List.Nodup

/-! # Contents are sent once

    A content that was read with success is never sent to the workers again, as
    long as results are kept on disk: not in a later pass, not under another path,
    and not by another program. Passes may have any options and sessions, and the
    files may change between them as they like.

    What is sent is what the entries on disk do not know, and it is stored as soon
    as it was read. So the invariant is that the entries know all good contents
    that were ever sent. A content that cannot be read is not stored, and is sent
    once in every pass that meets it. -/

namespace ElmIntake

/-! ## What a pass sends -/

theorem Batch.length_requests (id : Nat) (ps : List Pending) :
    (requests id ps).length = ps.length := by
  induction ps generalizing id with
  | nil => rfl
  | cons p ps ih => rw [requests, List.length_cons, List.length_cons, ih]

namespace Intake

/-- What a pass sends to the workers: nothing if it fails. -/
def batch (i : Intake) (fs : FileSystem) (s : IntakeState) : List Pending :=
  match i.sources fs with
  | .error _ => []
  | .ok paths =>
    match (i.oracle s).observeAll fs i.options.projectRoot paths with
    | .error _ => []
    | .ok observed => Batch.pending [] observed

/-- The contents that a pass sends to the workers, in order. -/
def sent (i : Intake) (fs : FileSystem) (s : IntakeState) : List Bytes :=
  (i.batch fs s).map (·.content)

variable {i : Intake} {fs : FileSystem} {parser : SourceParser} {s : IntakeState}

/-- A pass stores what came of its batch. -/
theorem run_durable (i : Intake) (fs : FileSystem) (parser : SourceParser) (s : IntakeState) :
    (i.run fs parser s).2.durable = s.durable.map fun cache =>
      Batch.storeAll 0 cache (Batch.stores (Batch.answers parser (i.batch fs s))) := by
  unfold batch
  rw [run_eq]
  cases i.sources fs with
  | error e => exact Option.map_id'.symm
  | ok paths =>
    dsimp only
    cases (i.oracle s).observeAll fs i.options.projectRoot paths with
    | error e => exact Option.map_id'.symm
    | ok observed => rfl

/-- The pool counts what is sent. -/
theorem run_dispatched (i : Intake) (fs : FileSystem) (parser : SourceParser) (s : IntakeState) :
    (i.run fs parser s).2.pool.dispatched = s.pool.dispatched + (i.sent fs s).length := by
  unfold sent batch
  rw [run_eq]
  cases i.sources fs with
  | error e => rfl
  | ok paths =>
    dsimp only
    cases (i.oracle s).observeAll fs i.options.projectRoot paths with
    | error e => rfl
    | ok observed =>
      simp only [finish, Pool.afterBatch, Batch.length_requests, List.length_map]

end Intake

/-! ## What is pending -/

/-- A source has to be read only if its content is not known on disk. -/
theorem Oracle.hash?_of_observe {oracle : Oracle} {fs : FileSystem} {root path : Path}
    {o : Observed} {hash : String} (h : oracle.observe fs root path = .ok o)
    (hhash : o.hash? = some hash) :
    hash = Digest.hex o.file.content ∧
      ∀ cache, oracle.durable = some cache → cache.get? hash = none := by
  obtain ⟨modified, -, ⟨e, -, rfl⟩ | ⟨-, content, -, rfl⟩⟩ := observe_cases h
  · cases hhash
  · generalize Digest.hex content = digest at hhash ⊢
    rcases oracle.byContent_cases path content digest with
      ⟨e, -, -, hverdict⟩ | ⟨-, ⟨cache, tree, -, -, hverdict⟩ | ⟨hnone, hverdict⟩⟩
    · rw [hverdict] at hhash
      cases hhash
    · rw [hverdict] at hhash
      cases hhash
    · rw [hverdict] at hhash
      cases hhash
      exact ⟨rfl, hnone⟩

/-- No digest is pending twice, and none that was seen before. -/
theorem Batch.nodup_pending (seen : List String) (os : List Observed) :
    ((pending seen os).map (·.hash)).Nodup ∧ ∀ p ∈ pending seen os, p.hash ∉ seen := by
  induction os generalizing seen with
  | nil => exact ⟨List.nodup_nil, nofun⟩
  | cons o os ih =>
    unfold pending
    split
    · exact ih seen
    · next hash hhash =>
      split
      · exact ih seen
      · next hseen =>
        obtain ⟨hnodup, hfresh⟩ := ih (hash :: seen)
        refine ⟨List.nodup_cons.2 ⟨fun hmem => ?_, hnodup⟩, fun p hp => ?_⟩
        · obtain ⟨p, hp, heq⟩ := List.mem_map.1 hmem
          exact hfresh p hp (heq ▸ List.mem_cons_self)
        · rcases List.mem_cons.1 hp with rfl | hp
          · simpa using hseen
          · exact fun hmem => hfresh p hp (List.mem_cons_of_mem _ hmem)

namespace Intake

variable {i : Intake} {fs : FileSystem} {s : IntakeState}

/-- What is sent goes by the digest of its content, which the entries on disk do
    not know. -/
theorem of_mem_batch {p : Pending} (hp : p ∈ i.batch fs s) :
    p.hash = Digest.hex p.content ∧
      ∀ cache, s.durable = some cache → cache.get? p.hash = none := by
  unfold batch at hp
  split at hp
  · cases hp
  · split at hp
    · cases hp
    · next observed hobserved =>
      obtain ⟨o, ho, hhash, hcontent⟩ := Batch.exists_of_mem_pending hp
      obtain ⟨path, -, hobserve⟩ := Oracle.exists_of_mem_observeAll hobserved ho
      rw [← hcontent]
      exact Oracle.hash?_of_observe hobserve hhash

/-- What is sent has the digests of the batch. -/
theorem map_hex_sent (i : Intake) (fs : FileSystem) (s : IntakeState) :
    (i.sent fs s).map Digest.hex = (i.batch fs s).map (·.hash) := by
  rw [sent, List.map_map]
  exact List.map_congr_left fun p hp => (of_mem_batch hp).1.symm

/-- No content is sent twice in a pass. -/
theorem nodup_sent (i : Intake) (fs : FileSystem) (s : IntakeState) : (i.sent fs s).Nodup := by
  have hhashes : ((i.batch fs s).map (·.hash)).Nodup := by
    unfold batch
    split
    · exact List.nodup_nil
    · split
      · exact List.nodup_nil
      · exact (Batch.nodup_pending [] _).1
  -- Contents that were the same would have the same digest.
  rw [← map_hex_sent] at hhashes
  exact hhashes.of_map

end Intake

/-! ## What is stored -/

namespace Batch

/-- Does every act of writing of `storeAll` succeed? An entry of 2 ^ 64 bytes or
    more cannot be written at all. -/
def AllWritten (writer : Nat) (cache : DurableCache EntryFolder) :
    List (String × Module) → Prop
  | [] => True
  | (hash, tree) :: rest =>
    (Entry.of hash tree).toBytes.length < 2 ^ 64 ∧ (cache.put writer hash tree).1 = .ok () ∧
      AllWritten (writer + 1) (cache.store writer hash tree) rest

/-- What was known stays known, and what is stored becomes known. -/
theorem isSome_get?_storeAll {writer : Nat} {cache : DurableCache EntryFolder}
    {modules : List (String × Module)} {hash : String} (h : AllWritten writer cache modules)
    (hknown : (cache.get? hash).isSome ∨ ∃ m ∈ modules, m.1 = hash) :
    ((storeAll writer cache modules).get? hash).isSome := by
  induction modules generalizing writer cache with
  | nil =>
    rcases hknown with hknown | ⟨m, hm, -⟩
    · exact hknown
    · cases hm
  | cons m modules ih =>
    obtain ⟨hsize, hput, hrest⟩ := h
    have hstore : cache.put writer m.1 m.2 = (.ok (), cache.store writer m.1 m.2) :=
      Prod.ext hput rfl
    obtain ⟨hself, hothers⟩ := DurableCache.get?_of_put hsize hstore
    refine ih hrest ?_
    rcases hknown with hknown | ⟨m', hm', rfl⟩
    · by_cases heq : hash = m.1
      · exact .inl (by rw [heq, hself]; rfl)
      · exact .inl (by rw [hothers hash heq]; exact hknown)
    · rcases List.mem_cons.1 hm' with rfl | hm'
      · exact .inl (by rw [hself]; rfl)
      · exact .inr ⟨m', hm', rfl⟩

/-- A good content that is sent is stored. -/
theorem mem_stores_answers {parser : SourceParser} {ps : List Pending} {p : Pending}
    {tree : Module} (hp : p ∈ ps) (houtcome : parser.outcome p.content = .parsed tree) :
    (p.hash, tree) ∈ stores (answers parser ps) := by
  refine List.mem_filterMap.2 ⟨(p.hash, parser.outcome p.content), List.mem_map_of_mem hp, ?_⟩
  rw [houtcome]
  rfl

end Batch

/-! ## Histories -/

/-- The state that a pass starts in when results are kept on disk. -/
def DurableCache.stateWith (cache : DurableCache EntryFolder) (session : Session) (pool : Pool) :
    IntakeState :=
  { session, durable := some cache, pool }

/-- **Histories** of the entries on disk, with the contents that each pass sent, those
    of the last pass first. A pass may have any options, may find any files, and may
    fail. It may be made by a program that has just started, or go on in any session:
    that of the pass before, or of another program that uses the same entries. Nobody
    but the passes changes the entries, and all that is stored is written. -/
inductive PassHistory (parser : SourceParser) :
    DurableCache EntryFolder → List (List Bytes) → Prop where
  | start (cache : DurableCache EntryFolder) : PassHistory parser cache []
  | pass {cache cache' : DurableCache EntryFolder} {batches : List (List Bytes)} (i : Intake)
      (fs : FileSystem) (session : Session) (pool : Pool) :
      PassHistory parser cache batches →
      Batch.AllWritten 0 cache
        (Batch.stores (Batch.answers parser (i.batch fs (cache.stateWith session pool)))) →
      (i.run fs parser (cache.stateWith session pool)).2.durable = some cache' →
      PassHistory parser cache' (i.sent fs (cache.stateWith session pool) :: batches)

/-- The invariant of histories. -/
structure PassHistory.IsThrifty (parser : SourceParser) (cache : DurableCache EntryFolder)
    (batches : List (List Bytes)) : Prop where
  /-- The entries know every good content that was sent. -/
  known : ∀ content tree, content ∈ batches.flatten →
    parser.outcome content = .parsed tree → (cache.get? (Digest.hex content)).isSome
  /-- Good contents were sent once. -/
  once : ∀ content tree, parser.outcome content = .parsed tree →
    batches.flatten.count content ≤ 1

namespace PassHistory

variable {parser : SourceParser} {cache cache' : DurableCache EntryFolder}
  {batches : List (List Bytes)} {i : Intake} {fs : FileSystem} {session : Session} {pool : Pool}

/-- **The step.** -/
theorem IsThrifty.pass (h : IsThrifty parser cache batches)
    (hwritten : Batch.AllWritten 0 cache
      (Batch.stores (Batch.answers parser (i.batch fs (cache.stateWith session pool)))))
    (hcache : (i.run fs parser (cache.stateWith session pool)).2.durable = some cache') :
    IsThrifty parser cache' (i.sent fs (cache.stateWith session pool) :: batches) := by
  rw [Intake.run_durable] at hcache
  cases hcache
  constructor
  case known =>
    intro content tree hcontent houtcome
    refine Batch.isSome_get?_storeAll hwritten ?_
    rw [List.flatten_cons, List.mem_append] at hcontent
    rcases hcontent with hnew | hold
    · obtain ⟨p, hp, rfl⟩ := List.mem_map.1 hnew
      exact .inr ⟨_, Batch.mem_stores_answers hp houtcome, (Intake.of_mem_batch hp).1⟩
    · exact .inl (h.known content tree hold houtcome)
  case once =>
    intro content tree houtcome
    have hbatch := List.nodup_iff_count_le_one.1
      (i.nodup_sent fs (cache.stateWith session pool)) content
    have hbefore := h.once content tree houtcome
    rw [List.flatten_cons, List.count_append]
    by_cases hnew : content ∈ i.sent fs (cache.stateWith session pool)
    · -- What is sent now is not known, so it was not sent before.
      obtain ⟨p, hp, rfl⟩ := List.mem_map.1 hnew
      obtain ⟨hhash, hnone⟩ := Intake.of_mem_batch hp
      have hold : p.content ∉ batches.flatten := by
        intro hold
        have hknown := h.known p.content tree hold houtcome
        rw [← hhash, hnone cache rfl] at hknown
        cases hknown
      rw [List.count_eq_zero_of_not_mem hold]
      omega
    · rw [List.count_eq_zero_of_not_mem hnew]
      omega

/-- **The run.** The induction is on the history. -/
theorem isThrifty (h : PassHistory parser cache batches) : IsThrifty parser cache batches := by
  induction h with
  | start cache => exact ⟨nofun, fun _ _ _ => Nat.zero_le 1⟩
  | pass i fs session pool _ hwritten hcache ih => exact ih.pass hwritten hcache

/-- **No good content is read twice** while results are kept on disk: in a whole
    history it is sent to the workers at most once. Any other content is sent at most
    once in each pass. -/
theorem sent_at_most_once (h : PassHistory parser cache batches) :
    (∀ content tree, parser.outcome content = .parsed tree →
      batches.flatten.count content ≤ 1) ∧
    ∀ batch ∈ batches, ∀ content, batch.count content ≤ 1 := by
  refine ⟨h.isThrifty.once, fun batch hbatch content => ?_⟩
  refine List.nodup_iff_count_le_one.1 ?_ content
  induction h with
  | start cache => cases hbatch
  | pass i fs session pool _ _ _ ih =>
    rcases List.mem_cons.1 hbatch with rfl | hold
    · exact i.nodup_sent fs _
    · exact ih hold

end PassHistory

/-! ### A history -/

instance Batch.decidableAllWritten (writer : Nat) (cache : DurableCache EntryFolder) :
    (modules : List (String × Module)) → Decidable (AllWritten writer cache modules)
  | [] => inferInstanceAs (Decidable True)
  | (hash, tree) :: rest =>
    have := decidableAllWritten (writer + 1) (cache.store writer hash tree) rest
    inferInstanceAs (Decidable (_ ∧ _ ∧ _))

namespace Rerun

/-- The one source under another name. -/
def renamed : FileSystem := (Memory.single ⟨"/p/src/B.elm"⟩ before none).fileSystem

def noEntries : DurableCache EntryFolder := ⟨⟨"/c"⟩, .absent⟩

/-- The entries that a first pass leaves. -/
def entries : DurableCache EntryFolder :=
  Batch.storeAll 0 noEntries (Batch.stores (Batch.answers .elm
    (intake.batch (project before) (noEntries.stateWith {} {}))))

/-- A program that starts after the file was renamed sends nothing. -/
theorem sent_at_most_once_renamed :
    ∃ cache, PassHistory .elm cache [[], [before]] ∧
      (SourceParser.elm.outcome before).module?.isSome ∧
      [[], [before]].flatten.count before ≤ 1 := by
  have hfirst : intake.sent (project before) (noEntries.stateWith {} {}) = [before] := by
    decide +kernel
  have hsecond : intake.batch renamed (entries.stateWith {} {}) = [] := by decide +kernel
  have hgood : (SourceParser.elm.outcome before).module?.isSome := by decide +kernel
  have h1 : PassHistory .elm entries [[before]] := by
    rw [← hfirst]
    exact .pass intake (project before) {} {} (.start noEntries) (by decide +kernel)
      (Intake.run_durable ..)
  have h2 : PassHistory .elm entries [[], [before]] := by
    have hsent : intake.sent renamed (entries.stateWith {} {}) = [] := by
      rw [Intake.sent, hsecond]
      rfl
    have hpass : PassHistory .elm entries
        (intake.sent renamed (entries.stateWith {} {}) :: [[before]]) := by
      refine .pass intake renamed {} {} h1 ?_ ?_
      · rw [hsecond]
        trivial
      · rw [Intake.run_durable, hsecond]
        rfl
    rwa [hsent] at hpass
  obtain ⟨tree, htree⟩ := Option.isSome_iff_exists.1 hgood
  have houtcome : SourceParser.elm.outcome before = .parsed tree := by
    generalize SourceParser.elm.outcome before = outcome at htree
    cases outcome with
    | parsed tree' => exact congrArg Outcome.parsed (Option.some.inj htree)
    | failed ds => cases htree
  exact ⟨entries, h2, hgood, h2.sent_at_most_once.1 before tree houtcome⟩

end Rerun

end ElmIntake
