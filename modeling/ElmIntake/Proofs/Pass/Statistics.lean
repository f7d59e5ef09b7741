import ElmIntake.Proofs.Pass.Schedule
import ElmIntake.Proofs.Pass.Settled
import ElmIntake.Proofs.Text.Canonical
import ElmIntake.Proofs.Text.Utf8
import Mathlib.Data.List.Dedup

/-! # The statistics of a pass balance

    The numbers of a pass are all that a user sees of its caches. Here they are
    counted again over the files of the output: each file has a verdict
    (`Oracle.verdict`), which says where its outcome comes from, and every number is a
    number of files, of digests or of errors (`Intake.Balances`).

    How often the parser is called with a text is not in the state of a shift, which
    only counts all calls. So shifts are run once more with a log of the texts
    (`Shift.Logged`). The invariant is that the log and the texts among the requests
    that are waiting are together the texts of the batch. -/

namespace ElmIntake

/-! ## The log of the parser -/

/-- The text that the parser gets to see of a request, if its content is one. -/
def ParseRequest.text? (r : ParseRequest) : Option String := (Text.ofUtf8 r.content).toOption

namespace Shift

/-- **Shifts with a log** of the texts that the parser was called with. The steps are
    those of `Step`. -/
inductive Logged (parser : SourceParser) (workers : Nat) (requests : List ParseRequest) :
    Shift → List String → Prop where
  | start : Logged parser workers requests (Shift.start requests) []
  | take {before after running : List ParseRequest} {sent : List ParseResponse} {calls : Nat}
      {log : List String} (r : ParseRequest) (idle : running.length < workers) :
      Logged parser workers requests ⟨before ++ r :: after, running, sent, calls⟩ log →
      Logged parser workers requests
        ⟨before ++ after, r :: running, sent, calls + if r.isText then 1 else 0⟩
        (log ++ r.text?.toList)
  | send {waiting before after : List ParseRequest} {sent : List ParseResponse} {calls : Nat}
      {log : List String} (r : ParseRequest) :
      Logged parser workers requests ⟨waiting, before ++ r :: after, sent, calls⟩ log →
      Logged parser workers requests
        ⟨waiting, before ++ after, sent ++ [r.answer parser], calls⟩ log

variable {parser : SourceParser} {workers : Nat} {requests : List ParseRequest} {s : Shift}
  {log : List String}

/-- Every run has a log, and every log is that of a run. -/
theorem exists_logged_iff :
    (∃ log, Logged parser workers requests s log) ↔
      Relation.ReflTransGen (Step parser workers) (start requests) s := by
  constructor
  · rintro ⟨log, hlogged⟩
    induction hlogged with
    | start => exact .refl
    | take r idle _ ih => exact ih.tail (.take r idle)
    | send r _ ih => exact ih.tail (.send r)
  · intro hrun
    induction hrun with
    | refl => exact ⟨[], .start⟩
    | tail _ hstep ih =>
      obtain ⟨log, hlogged⟩ := ih
      cases hstep with
      | take r idle => exact ⟨_, hlogged.take r idle⟩
      | send r => exact ⟨log, hlogged.send r⟩

/-- The invariant of logs. -/
theorem Logged.perm (h : Logged parser workers requests s log) :
    (log ++ s.waiting.filterMap (·.text?)).Perm (requests.filterMap (·.text?)) := by
  induction h with
  | start => exact List.Perm.refl _
  | @take before after running sent calls log r _ _ ih =>
    refine List.Perm.trans ?_ ih
    -- The text has moved from the middle of what is waiting to the end of the log.
    have hmoved : (r :: (before ++ after)).Perm (before ++ r :: after) := List.perm_middle.symm
    have htexts := (hmoved.filterMap (·.text?)).append_left log
    rw [List.append_assoc]
    cases htext : r.text? with
    | none =>
      rw [List.filterMap_cons_none htext] at htexts
      exact htexts
    | some text =>
      rw [List.filterMap_cons_some htext] at htexts
      exact htexts
  | send _ _ ih => exact ih

end Shift

/-! ## Verdicts on files -/

namespace Verdict

/-- Is the outcome in the session? -/
def isSessionHit : Verdict → Bool
  | sessionHit _ => true
  | _ => false

/-- Is the outcome on disk? -/
def isDurableHit : Verdict → Bool
  | durableHit _ => true
  | _ => false

/-- No verdict is of two kinds, and each is of one. -/
theorem length_eq_countP {α : Type} (verdict : α → Verdict) (xs : List α) :
    xs.countP (fun x => (verdict x).isSessionHit) +
      xs.countP (fun x => (verdict x).isDurableHit) +
      (xs.filter fun x => !(verdict x).isHit).length = xs.length := by
  rw [← List.countP_eq_length_filter]
  induction xs with
  | nil => rfl
  | cons x xs ih =>
    have hone : (if (verdict x).isSessionHit = true then 1 else 0) +
        (if (verdict x).isDurableHit = true then 1 else 0) +
        (if (!(verdict x).isHit) = true then 1 else 0) = 1 := by
      cases verdict x <;> rfl
    rw [List.countP_cons, List.countP_cons, List.countP_cons, List.length_cons]
    omega

end Verdict

/-- Where the outcome of a source that was seen as `file` comes from: its time is asked
    first, and then its content. -/
def Oracle.verdict (oracle : Oracle) (fs : FileSystem) (root : Path) (file : SourceFile) :
    Verdict :=
  match (fs.modified (root.join file.path)).toOption.bind (oracle.byTime file.path) with
  | some e => .sessionHit e
  | none => oracle.byContent file.path file.content (Digest.hex file.content)

theorem Oracle.resolution_of_observe {oracle : Oracle} {fs : FileSystem} {root path : Path}
    {o : Observed} (h : oracle.observe fs root path = .ok o) :
    o.resolution = (oracle.verdict fs root o.file).resolution (Digest.hex o.file.content) := by
  obtain ⟨modified, hmodified, ⟨e, htime, rfl⟩ | ⟨htime, content, -, rfl⟩⟩ := observe_cases h
  · simp only [verdict, hmodified, Except.toOption, Option.bind_some, htime]
    rfl
  · simp only [verdict, hmodified, Except.toOption, Option.bind_some, htime]

namespace Observed

variable {o : Observed} {v : Verdict} {hash : String}

theorem isSessionHit_eq (h : o.resolution = v.resolution hash) :
    o.isSessionHit = v.isSessionHit := by
  unfold isSessionHit
  rw [h]
  cases v <;> rfl

theorem isDurableHit_eq (h : o.resolution = v.resolution hash) :
    o.isDurableHit = v.isDurableHit := by
  unfold isDurableHit
  rw [h]
  cases v <;> rfl

theorem hash?_eq (h : o.resolution = v.resolution hash) :
    o.hash? = if v.isHit then none else some hash := by
  unfold hash?
  rw [h]
  cases v <;> rfl

end Observed

/-! ## The numbers of a pass -/

/-- The files of an output whose contents had to be read. -/
def Output.unread (verdict : SourceFile → Verdict) (o : Output) : List IngestedFile :=
  o.files.filter fun file => !(verdict file.toSourceFile).isHit

/-- The texts of a batch are those of its contents. -/
theorem Batch.map_content_requests (id : Nat) (ps : List Pending) :
    (requests id ps).map (·.content) = ps.map (·.content) := by
  induction ps generalizing id with
  | nil => rfl
  | cons p ps ih => rw [requests, List.map_cons, List.map_cons, ih]

/-- Parsers that agree on the texts of some contents answer them alike. -/
theorem Batch.answers_congr {parser parser' : SourceParser} {ps : List Pending}
    (h : ∀ text, Text.toUtf8 text ∈ ps.map (·.content) → parser' text = parser text) :
    answers parser' ps = answers parser ps := by
  refine List.map_congr_left fun p hp => ?_
  have houtcome : parser'.outcome p.content = parser.outcome p.content := by
    unfold SourceParser.outcome
    cases htext : Text.ofUtf8 p.content with
    | error fault => rfl
    | ok text =>
      have hsent : Text.toUtf8 text ∈ ps.map (·.content) := by
        rw [Text.toUtf8_of_ofUtf8 htext]
        exact List.mem_map_of_mem hp
      dsimp only
      rw [h text hsent]
  rw [houtcome]

/-- There is an error for each file that failed. -/
theorem IngestedFile.forall₂_error? (files : List IngestedFile) :
    List.Forall₂ (fun file e =>
        ∃ diagnostics, file.outcome = .failed diagnostics ∧ e = .parse file.path diagnostics)
      (files.filter fun file => file.outcome.module?.isNone) (files.filterMap (·.error?)) := by
  induction files with
  | nil => exact .nil
  | cons file files ih =>
    cases houtcome : file.outcome with
    | parsed tree =>
      have hnone : file.error? = none := by rw [error?, houtcome]
      rw [List.filterMap_cons_none hnone,
        List.filter_cons_of_neg (by simp [houtcome, Outcome.module?])]
      exact ih
    | failed diagnostics =>
      have hsome : file.error? = some (.parse file.path diagnostics) := by rw [error?, houtcome]
      rw [List.filterMap_cons_some hsome, List.filter_cons_of_pos (by rw [houtcome]; rfl)]
      exact .cons ⟨diagnostics, houtcome, rfl⟩ ih

namespace Intake

/-- Where a pass that starts in the state `s` takes the outcome of a file from. -/
def verdict (i : Intake) (fs : FileSystem) (s : IntakeState) (file : SourceFile) : Verdict :=
  (i.oracle s).verdict fs i.options.projectRoot file

/-- **What the statistics of a pass say** that starts in the state `s`, gives the output `o`
    and leaves the state `s'`. -/
structure Balances (i : Intake) (fs : FileSystem) (parser : SourceParser) (s : IntakeState)
    (o : Output) (s' : IntakeState) : Prop where
  files : o.stats.files = o.files.length
  sessionHits : o.stats.sessionHits =
    o.files.countP fun file => (i.verdict fs s file.toSourceFile).isSessionHit
  durableHits : o.stats.durableHits =
    o.files.countP fun file => (i.verdict fs s file.toSourceFile).isDurableHit
  /-- Every file is a hit of one kind, or had to be read. -/
  total : o.stats.sessionHits + o.stats.durableHits + (o.unread (i.verdict fs s)).length =
    o.stats.files
  /-- Contents are sent by their digests, each digest once. -/
  dispatched : o.stats.dispatched =
    ((o.unread (i.verdict fs s)).map fun file => Digest.hex file.content).dedup.length
  sent : ((i.sent fs s).map Digest.hex).Perm
    ((o.unread (i.verdict fs s)).map fun file => Digest.hex file.content).dedup
  contents : ∀ content ∈ i.sent fs s, ∃ file ∈ o.unread (i.verdict fs s), file.content = content
  /-- The pool counts the same requests. -/
  pool : s'.pool.dispatched = s.pool.dispatched + o.stats.dispatched
  /-- The parser is called for each content that is sent and is a text. -/
  calls : s'.pool.calls =
    s.pool.calls + (i.sent fs s).countP fun content => (Text.ofUtf8 content).toOption.isSome
  /-- In whatever order the workers take the contents: once all are taken, the parser was
      called once with each text that was sent, and with nothing else. -/
  parsed : ∀ workers shift log,
    Shift.Logged parser workers (Batch.requests 0 (i.batch fs s)) shift log →
    shift.waiting = [] →
    ∀ text, log.count text = if Text.toUtf8 text ∈ i.sent fs s then 1 else 0
  /-- What the parser would give for other texts does not matter. -/
  others : ∀ parser' : SourceParser,
    (∀ text, Text.toUtf8 text ∈ i.sent fs s → parser' text = parser text) →
    i.run fs parser' s = (.ok o, s')
  failures : o.stats.failures = o.errors.length
  failed : o.stats.failures = o.files.countP fun file => file.outcome.module?.isNone
  /-- There is one error for each file that failed, in the order of the files, with the path
      and the diagnostics of the file. -/
  errors : List.Forall₂ (fun file e =>
      ∃ diagnostics, file.outcome = .failed diagnostics ∧ e = .parse file.path diagnostics)
    (o.files.filter fun file => file.outcome.module?.isNone) o.errors

variable {i : Intake} {fs : FileSystem} {parser : SourceParser} {s s' : IntakeState}
  {observed : List Observed}

/-- What was seen of the sources of a pass agrees with the verdicts. -/
theorem resolution_of_mem {paths : List Path}
    (h : (i.oracle s).observeAll fs i.options.projectRoot paths = .ok observed) :
    ∀ o ∈ observed,
      o.resolution = (i.verdict fs s o.file).resolution (Digest.hex o.file.content) := by
  intro o ho
  obtain ⟨path, -, hobserve⟩ := Oracle.exists_of_mem_observeAll h ho
  exact Oracle.resolution_of_observe hobserve

/-- A pass whose sources were looked at sends what is pending of them. -/
theorem batch_of_observed {paths : List Path} (hsources : i.sources fs = .ok paths)
    (hobserved : (i.oracle s).observeAll fs i.options.projectRoot paths = .ok observed) :
    i.batch fs s = Batch.pending [] observed := by
  unfold batch
  rw [hsources]
  simp only [hobserved]

/-- The digests that had to be read, over the sources and over the files. -/
theorem map_hex_unread {outcomes : List (String × Outcome)} {dispatched : Nat}
    {verdict : SourceFile → Verdict}
    (h : ∀ o ∈ observed,
      o.resolution = (verdict o.file).resolution (Digest.hex o.file.content)) :
    ((Output.ofObserved observed outcomes dispatched).unread verdict).map
      (fun file => Digest.hex file.content) = observed.filterMap (·.hash?) := by
  show ((observed.map (·.ingested outcomes)).filter _).map _ = _
  induction observed with
  | nil => rfl
  | cons o os ih =>
    have hos := ih fun o' ho' => h o' (List.mem_cons_of_mem _ ho')
    have hhash := Observed.hash?_eq (h o List.mem_cons_self)
    rw [List.map_cons]
    cases hhit : (verdict o.file).isHit with
    | true =>
      rw [hhit] at hhash
      rw [List.filterMap_cons_none hhash, List.filter_cons_of_neg (by simpa [Observed.ingested]),
        hos]
    | false =>
      rw [hhit] at hhash
      rw [List.filterMap_cons_some hhash, List.filter_cons_of_pos (by simpa [Observed.ingested]),
        List.map_cons, hos]
      rfl

/-- The digests of a batch are those that had to be read, each one once. -/
theorem perm_hash_pending (observed : List Observed) :
    ((Batch.pending [] observed).map (·.hash)).Perm (observed.filterMap (·.hash?)).dedup := by
  refine (List.perm_ext_iff_of_nodup (Batch.nodup_pending [] observed).1
    (List.nodup_dedup _)).2 fun hash => ?_
  rw [List.mem_dedup, List.mem_map, List.mem_filterMap]
  constructor
  · rintro ⟨p, hp, rfl⟩
    obtain ⟨o, ho, hhash, -⟩ := Batch.exists_of_mem_pending hp
    exact ⟨o, ho, hhash⟩
  · rintro ⟨o, ho, hhash⟩
    exact Batch.exists_mem_pending ho hhash List.not_mem_nil

/-- Once all contents are taken, the log has each of their texts once. -/
theorem count_log {workers : Nat} {shift : Shift} {log : List String}
    (hlog : Shift.Logged parser workers (Batch.requests 0 (i.batch fs s)) shift log)
    (hwaiting : shift.waiting = []) (text : String) :
    log.count text = if Text.toUtf8 text ∈ i.sent fs s then 1 else 0 := by
  have htexts : (Batch.requests 0 (i.batch fs s)).filterMap (·.text?) =
      (i.sent fs s).filterMap fun content => (Text.ofUtf8 content).toOption := by
    rw [sent, ← Batch.map_content_requests 0, List.filterMap_map]
    rfl
  have hread : ∀ {content text}, (Text.ofUtf8 content).toOption = some text →
      Text.toUtf8 text = content := by
    intro content text h
    cases hof : Text.ofUtf8 content with
    | error fault => simp [hof, Except.toOption] at h
    | ok found =>
      simp only [hof, Except.toOption, Option.some.injEq] at h
      rw [← h, Text.toUtf8_of_ofUtf8 hof]
  have hperm := hlog.perm
  rw [hwaiting, List.filterMap_nil, List.append_nil, htexts] at hperm
  -- Contents with the same text are the same, so no text is among them twice.
  have hnodup : ((i.sent fs s).filterMap fun content => (Text.ofUtf8 content).toOption).Nodup :=
    (i.nodup_sent fs s).filterMap fun _ _ _ h h' => (hread h).symm.trans (hread h')
  rw [hperm.count_eq, hnodup.count]
  refine if_congr ?_ rfl rfl
  rw [List.mem_filterMap]
  constructor
  · rintro ⟨content, hcontent, htext⟩
    rwa [hread htext]
  · exact fun hsent => ⟨_, hsent, by rw [Text.ofUtf8_toUtf8]; rfl⟩

/-- The parser is called for the contents that are texts. -/
theorem run_calls (i : Intake) (fs : FileSystem) (parser : SourceParser) (s : IntakeState) :
    (i.run fs parser s).2.pool.calls =
      s.pool.calls + (i.sent fs s).countP fun content => (Text.ofUtf8 content).toOption.isSome := by
  have htexts : ∀ ps : List Pending, ((Batch.requests 0 ps).filter (·.isText)).length =
      (ps.map (·.content)).countP fun content => (Text.ofUtf8 content).toOption.isSome := by
    intro ps
    rw [← List.countP_eq_length_filter, ← Batch.map_content_requests 0, List.countP_map]
    rfl
  unfold sent batch
  rw [run_eq]
  cases i.sources fs with
  | error e => rfl
  | ok paths =>
    dsimp only
    cases (i.oracle s).observeAll fs i.options.projectRoot paths with
    | error e => rfl
    | ok observed =>
      dsimp only
      rw [← htexts]
      rfl

/-- Parsers that agree on the texts that are sent make the same pass. -/
theorem run_congr {parser' : SourceParser}
    (h : ∀ text, Text.toUtf8 text ∈ i.sent fs s → parser' text = parser text) :
    i.run fs parser' s = i.run fs parser s := by
  unfold sent batch at h
  rw [run_eq, run_eq]
  cases hsources : i.sources fs with
  | error e => rfl
  | ok paths =>
    dsimp only
    cases hobserved : (i.oracle s).observeAll fs i.options.projectRoot paths with
    | error e => rfl
    | ok observed =>
      simp only [hsources, hobserved] at h
      simp only [Batch.answers_congr h]

/-- **The statistics of a pass balance.** -/
theorem run_balances {o : Output} (h : i.run fs parser s = (.ok o, s')) :
    i.Balances fs parser s o s' := by
  obtain ⟨paths, observed, hsources, hobserved, ho, -, -⟩ := run_cases h
  have hresolution := resolution_of_mem hobserved
  have hbatch := batch_of_observed hsources hobserved
  -- The files are the sources that were observed, in the same order.
  have hcount : ∀ p : Verdict → Bool,
      o.files.countP (fun file => p (i.verdict fs s file.toSourceFile)) =
        observed.countP fun seen => p (i.verdict fs s seen.file) := by
    intro p
    rw [ho]
    exact List.countP_map
  have hsession : o.stats.sessionHits =
      o.files.countP fun file => (i.verdict fs s file.toSourceFile).isSessionHit := by
    rw [hcount Verdict.isSessionHit, ho]
    show (observed.filter (·.isSessionHit)).length = _
    rw [← List.countP_eq_length_filter]
    exact List.countP_congr fun seen hseen => by
      rw [Observed.isSessionHit_eq (hresolution seen hseen)]
  have hdurable : o.stats.durableHits =
      o.files.countP fun file => (i.verdict fs s file.toSourceFile).isDurableHit := by
    rw [hcount Verdict.isDurableHit, ho]
    show (observed.filter (·.isDurableHit)).length = _
    rw [← List.countP_eq_length_filter]
    exact List.countP_congr fun seen hseen => by
      rw [Observed.isDurableHit_eq (hresolution seen hseen)]
  have hfiles : o.stats.files = o.files.length := by rw [ho]; rfl
  have hlength : o.stats.dispatched = (i.sent fs s).length := by
    rw [ho, sent, List.length_map, hbatch]
    rfl
  have hsent : ((i.sent fs s).map Digest.hex).Perm
      ((o.unread (i.verdict fs s)).map fun file => Digest.hex file.content).dedup := by
    rw [map_hex_sent, hbatch, ho, map_hex_unread hresolution]
    exact perm_hash_pending observed
  constructor
  case files => exact hfiles
  case sessionHits => exact hsession
  case durableHits => exact hdurable
  case total =>
    rw [hsession, hdurable, hfiles]
    exact Verdict.length_eq_countP (fun file : IngestedFile => i.verdict fs s file.toSourceFile) _
  case dispatched => rw [hlength, ← hsent.length_eq, List.length_map]
  case sent => exact hsent
  case contents =>
    intro content hcontent
    -- What is sent was seen in some source, and a source with a digest is no hit.
    obtain ⟨p, hp, rfl⟩ := List.mem_map.1 hcontent
    rw [hbatch] at hp
    obtain ⟨seen, hseen, hhash, hcontent⟩ := Batch.exists_of_mem_pending hp
    refine ⟨seen.ingested (Batch.answers parser (Batch.pending [] observed)),
      List.mem_filter.2 ⟨?_, ?_⟩, hcontent⟩
    · rw [ho]
      exact List.mem_map_of_mem hseen
    · rw [Observed.hash?_eq (hresolution seen hseen)] at hhash
      split at hhash
      · cases hhash
      · next hmiss => simpa [Observed.ingested] using hmiss
  case pool =>
    have hpool := i.run_dispatched fs parser s
    rwa [h, ← hlength] at hpool
  case calls =>
    have hcalls := i.run_calls fs parser s
    rwa [h] at hcalls
  case parsed => exact fun _ _ _ hlog hwaiting => count_log hlog hwaiting
  case others => exact fun _ hagree => (run_congr hagree).trans h
  case failures => rw [ho]; rfl
  case failed =>
    rw [ho]
    show (List.filterMap _ _).length = _
    rw [List.length_filterMap_eq_countP]
    refine List.countP_congr fun file _ => ?_
    unfold IngestedFile.error?
    cases file.outcome <;> rfl
  case errors =>
    rw [ho]
    exact IngestedFile.forall₂_error? _

end Intake

/-! ### Sources of all kinds -/

namespace Tallied

open Settling

/-- One source is known to the session and one on disk. Of the others two hold the same, one
    is no text, and one is good. -/
def sources : Memory :=
  project.add ⟨"/p/src/D.elm"⟩ (Text.toUtf8 "c =\n") (some 4)
    |>.add ⟨"/p/src/E.elm"⟩ [0xff] none |>.add ⟨"/p/src/F.elm"⟩ (Text.toUtf8 "f = 1\n") none

/-- Four files have to be read, and three contents are sent. -/
theorem run_balances_tallied :
    ∃ o s', intake.run sources.fileSystem .elm state = (.ok o, s') ∧
      o.stats = ⟨6, 1, 1, 3, 4⟩ ∧
      intake.Balances sources.fileSystem .elm state o s' := by
  have hstats : (intake.run sources.fileSystem .elm state).1.map (·.stats) =
      .ok ⟨6, 1, 1, 3, 4⟩ := by decide +kernel
  cases hrun : intake.run sources.fileSystem .elm state with
  | mk result s' =>
    rw [hrun] at hstats
    cases result with
    | error e => cases hstats
    | ok o => exact ⟨o, s', rfl, Except.ok.inj hstats, Intake.run_balances hrun⟩

end Tallied

end ElmIntake
