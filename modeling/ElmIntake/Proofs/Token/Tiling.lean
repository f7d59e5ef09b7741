import ElmIntake.Proofs.Token.Blank
import ElmIntake.Proofs.Token.Pieces
import ElmIntake.Text.Utf8
import Mathlib.Algebra.Group.Nat.Defs
import Mathlib.Data.List.Induction

/-! # Tokens tile the source

    The places of tokens, in terms of the source alone. A source of fewer than
    2 ^ 32 - 1 bytes is cut without a remainder: tokens cover stretches of it
    that do not overlap, and what they leave uncovered is blanks and comments. -/

namespace ElmIntake

/-! ## Sizes and positions -/

/-- How many bytes a text takes. -/
def byteSize (text : List Char) : Nat := (text.flatMap String.utf8EncodeChar).length

@[simp] theorem byteSize_append (s t : List Char) :
    byteSize (s ++ t) = byteSize s + byteSize t := by
  simp [byteSize]

theorem byteSize_singleton (c : Char) : byteSize [c] = c.utf8Size := by
  simp [byteSize]

theorem length_le_byteSize (text : List Char) : text.length ≤ byteSize text := by
  induction text with
  | nil => exact Nat.le_refl 0
  | cons c cs ih =>
    have hpos := c.utf8Size_pos
    rw [← List.singleton_append, byteSize_append, byteSize_singleton, List.length_append,
      List.length_singleton]
    omega

theorem byteSize_pos {text : List Char} (h : text ≠ []) : 0 < byteSize text :=
  Nat.lt_of_lt_of_le (List.length_pos_iff.2 h) (length_le_byteSize text)

/-- The line that follows a text: one more than there are line feeds. -/
def lineAfter (text : List Char) : Nat := 1 + text.count '\n'

/-- The column that follows a text: one more than there are characters since the
    last line feed, or in all. -/
def columnAfter (text : List Char) : Nat := 1 + (text.reverse.takeWhile (· != '\n')).length

theorem Position.past_start (text : List Char) :
    start.past text = ⟨byteSize text, lineAfter text, columnAfter text⟩ := by
  induction text using List.reverseRecOn with
  | nil => rfl
  | append_singleton text c ih =>
    rw [past_append, ih, past_cons, past_nil]
    unfold advance
    by_cases hc : c = '\n'
    · simp [hc, lineAfter, columnAfter, byteSize_singleton, Nat.add_assoc]
    · simp [hc, lineAfter, columnAfter, byteSize_singleton, Nat.add_assoc]

theorem lineAfter_le (text : List Char) : lineAfter text ≤ byteSize text + 1 := by
  have hcount : text.count '\n' ≤ text.length := List.count_le_length
  have hlength := length_le_byteSize text
  unfold lineAfter
  omega

theorem columnAfter_le (text : List Char) : columnAfter text ≤ byteSize text + 1 := by
  have htake := (List.takeWhile_prefix (l := text.reverse) (· != '\n')).length_le
  have hlength := length_le_byteSize text
  rw [List.length_reverse] at htake
  unfold columnAfter
  omega

/-- Is a span that of `text` where `before` stands before it? -/
structure Span.IsAt (s : Span) (before text : List Char) : Prop where
  start : s.start.toNat = byteSize before
  stop : s.stop.toNat = byteSize (before ++ text)
  line : s.line.toNat = lineAfter before
  column : s.column.toNat = columnAfter before

/-- In sources that are not too long no number overflows. -/
theorem Position.spanTo_isAt {before text : List Char}
    (hsize : byteSize (before ++ text) < 2 ^ 32 - 1) :
    ((start.past before).spanTo (start.past (before ++ text))).IsAt before text := by
  have hbefore : byteSize before ≤ byteSize (before ++ text) := by simp
  have hline := lineAfter_le before
  have hcolumn := columnAfter_le before
  have hexact : ∀ n < 2 ^ 32, n.toUInt32.toNat = n := fun n hn => Nat.mod_eq_of_lt hn
  rw [past_start, past_start]
  exact ⟨hexact (byteSize before) (by omega), hexact (byteSize (before ++ text)) (by omega),
    hexact (lineAfter before) (by omega), hexact (columnAfter before) (by omega)⟩

/-! ## Tilings -/

/-- Tokens that tile `unread`, which follows `before`: each one behind a gap, and
    the end of the source behind the last gap. -/
inductive Tiling : (before unread : List Char) → List Token → Prop where
  | done {before gap : List Char} {last : Token} :
      Blank [] gap → last.kind = .eof → last.span.IsAt (before ++ gap) [] →
      Tiling before gap [last]
  | token {before gap text rest : List Char} {t : Token} {ts : List Token} :
      Blank (text ++ rest) gap → text ≠ [] → t.kind ≠ .eof → t.span.IsAt (before ++ gap) text →
      Tiling (before ++ gap ++ text) rest ts → Tiling before (gap ++ text ++ rest) (t :: ts)

/-- A tiling behind something that makes gaps longer. -/
theorem Tiling.skip {before text rest : List Char} {ts : List Token}
    (hlonger : ∀ gap following, rest = gap ++ following → Blank following gap →
      Blank following (text ++ gap))
    (h : Tiling (before ++ text) rest ts) : Tiling before (text ++ rest) ts := by
  cases h with
  | done hgap hlast hat =>
    rw [List.append_assoc] at hat
    exact .done (hlonger rest [] (by simp) hgap) hlast hat
  | @token _ gap word rest t ts hgap hne hkind hat hrest =>
    have hgap' := hlonger gap (word ++ rest) (by simp) hgap
    rw [List.append_assoc] at hat
    rw [List.append_assoc before text gap] at hrest
    have htiling := Tiling.token hgap' hne hkind hat hrest
    simpa using htiling

theorem Tiling.of_cuts {cs : List Char} {pieces : List Piece} (h : Cuts cs pieces)
    (before : List Char) (hsize : byteSize (before ++ cs) < 2 ^ 32 - 1) :
    Tiling before cs (placePieces (Position.start.past before) pieces) := by
  induction h generalizing before with
  | done =>
    have hat : ((Position.start.past before).spanTo
        (Position.start.past (before ++ []))).IsAt before [] := Position.spanTo_isAt hsize
    rw [List.append_nil] at hat
    exact .done .done rfl (by simpa using hat)
  | @piece c cs cut pieces hpiece _ ih =>
    obtain ⟨hsource, hne⟩ := readPiece_takes hpiece
    rw [Cut.source] at hsource
    rw [← hsource, ← List.append_assoc] at hsize
    have hrest := ih (before ++ cut.text) hsize
    rw [Position.past_append] at hrest
    rw [← hsource]
    cases hvalue : cut.value with
    | none =>
      rw [show placePieces (Position.start.past before) (⟨none, cut.text⟩ :: pieces) =
        placePieces ((Position.start.past before).past cut.text) pieces from rfl]
      -- No token: the gap before the next one gets longer.
      exact .skip (fun _ _ => Blank.of_readPiece hpiece hvalue) hrest
    | some kind =>
      have hkind : kind ≠ .eof := fun heof =>
        readPiece_ne_eof hpiece (hvalue.trans (congrArg some heof))
      have hsize' : byteSize (before ++ cut.text) < 2 ^ 32 - 1 := by
        rw [byteSize_append] at hsize
        omega
      have hat := Position.spanTo_isAt hsize'
      rw [Position.past_append] at hat
      have hgap : Blank (cut.text ++ cut.rest) [] := .done
      have htiling : Tiling before ([] ++ cut.text ++ cut.rest)
          (placePieces (Position.start.past before) (⟨some kind, cut.text⟩ :: pieces)) :=
        .token hgap hne hkind (by simpa using hat) (by simpa using hrest)
      exact htiling

/-- Each token but the end was read somewhere, and stands where it was read. -/
theorem Cuts.exists_readPiece {cs : List Char} {pieces : List Piece} (h : Cuts cs pieces)
    (before : List Char) (hsize : byteSize (before ++ cs) < 2 ^ 32 - 1) {t : Token}
    (ht : t ∈ placePieces (Position.start.past before) pieces) (hkind : t.kind ≠ .eof) :
    ∃ front c rest cut, readPiece c rest = .ok cut ∧ cut.value = some t.kind ∧
      cs = front ++ cut.text ++ cut.rest ∧ t.span.IsAt (before ++ front) cut.text := by
  induction h generalizing before with
  | done =>
    rw [List.mem_singleton.1 ht] at hkind
    exact absurd rfl hkind
  | @piece c cs cut pieces hpiece _ ih =>
    obtain ⟨hsource, -⟩ := readPiece_takes hpiece
    rw [Cut.source] at hsource
    rw [← hsource, ← List.append_assoc] at hsize
    have hrest := ih (before ++ cut.text) hsize
    rw [Position.past_append] at hrest
    -- A token behind this piece was read behind it.
    have hlater : t ∈ placePieces ((Position.start.past before).past cut.text) pieces →
        ∃ front c' rest cut', readPiece c' rest = .ok cut' ∧ cut'.value = some t.kind ∧
          c :: cs = front ++ cut'.text ++ cut'.rest ∧
          t.span.IsAt (before ++ front) cut'.text := by
      intro hmem
      obtain ⟨front, c', rest, cut', hread, hvalue, hsplit, hat⟩ := hrest hmem
      refine ⟨cut.text ++ front, c', rest, cut', hread, hvalue, ?_, ?_⟩
      · rw [← hsource, hsplit]
        simp
      · rwa [← List.append_assoc]
    cases hvalue : cut.value with
    | none =>
      rw [hvalue] at ht
      exact hlater ht
    | some kind =>
      rw [hvalue] at ht
      rcases List.mem_cons.1 ht with rfl | ht
      · have hsize' : byteSize (before ++ cut.text) < 2 ^ 32 - 1 := by
          rw [byteSize_append] at hsize
          omega
        have hat := Position.spanTo_isAt hsize'
        rw [Position.past_append] at hat
        exact ⟨[], c, cs, cut, hpiece, hvalue, hsource.symm, by simpa using hat⟩
      · exact hlater ht

/-! ## What tilings are like -/

/-- Do tokens leave blanks and comments only? The first gap starts at the byte
    `start`, and every other one where a token ends. -/
def Gaps (source : List Char) : (start : Nat) → List Token → Prop
  | _, [] => True
  | start, t :: ts =>
    (∃ before gap after, source = before ++ gap ++ after ∧ byteSize before = start ∧
      byteSize (before ++ gap) = t.span.start.toNat ∧ Blank after gap) ∧
    Gaps source t.span.stop.toNat ts

/-- What the places of all the tokens of a source are like. -/
structure IsTiledBy (source : List Char) (tokens : List Token) : Prop where
  /-- The last token, and no other one, is the end of the source, and stands
      there. -/
  ends : ∃ stream last, tokens = stream ++ [last] ∧ (∀ t ∈ stream, t.kind ≠ .eof) ∧
    last.kind = .eof ∧ last.span.start.toNat = byteSize source ∧
    last.span.stop.toNat = byteSize source
  /-- Every other token covers whole characters, and at least one. -/
  covers : ∀ t ∈ tokens, t.kind ≠ .eof → t.span.start < t.span.stop ∧
    ∃ before text after, source = before ++ text ++ after ∧
      t.span.start.toNat = byteSize before ∧ t.span.stop.toNat = byteSize (before ++ text)
  /-- The tokens are in order and do not overlap. -/
  ordered : tokens.Pairwise fun a b => a.span.stop ≤ b.span.start
  /-- Lines and columns count the line feeds before a token, and the characters
      since the last of these. -/
  placed : ∀ t ∈ tokens, ∃ before after, source = before ++ after ∧
    t.span.start.toNat = byteSize before ∧ t.span.line.toNat = lineAfter before ∧
    t.span.column.toNat = columnAfter before
  gaps : Gaps source 0 tokens

namespace Tiling

variable {before unread source : List Char} {tokens : List Token}

theorem exists_stream (h : Tiling before unread tokens) :
    ∃ stream last, tokens = stream ++ [last] ∧ (∀ t ∈ stream, t.kind ≠ .eof) ∧
      last.kind = .eof ∧ last.span.IsAt (before ++ unread) [] := by
  induction h with
  | done _ hlast hat => exact ⟨[], _, rfl, by simp, hlast, hat⟩
  | @token before gap text rest t ts _ _ hkind _ _ ih =>
    obtain ⟨stream, last, rfl, hstream, hlast, hat⟩ := ih
    refine ⟨t :: stream, last, rfl, fun s hs => ?_, hlast, by simpa using hat⟩
    rcases List.mem_cons.1 hs with rfl | hs
    · exact hkind
    · exact hstream s hs

/-- Every token stands behind some of the source, and before the rest of it. -/
theorem exists_isAt (h : Tiling before unread tokens) {t : Token} (ht : t ∈ tokens) :
    ∃ front text after, unread = front ++ text ++ after ∧ t.span.IsAt (before ++ front) text ∧
      (t.kind ≠ .eof → text ≠ []) := by
  induction h with
  | @done before gap last _ hlast hat =>
    obtain rfl := List.mem_singleton.1 ht
    exact ⟨gap, [], [], by simp, hat, fun hne => absurd hlast hne⟩
  | @token before gap text rest first ts _ hne _ hat _ ih =>
    rcases List.mem_cons.1 ht with rfl | ht
    · exact ⟨gap, text, rest, rfl, hat, fun _ => hne⟩
    · obtain ⟨front, text', after, rfl, hat', hne'⟩ := ih ht
      exact ⟨gap ++ text ++ front, text', after, by simp, by simpa using hat', hne'⟩

theorem ordered (h : Tiling before unread tokens) :
    tokens.Pairwise fun a b => a.span.stop ≤ b.span.start := by
  induction h with
  | done => exact List.pairwise_singleton _ _
  | @token before gap text rest t ts _ _ _ hat hrest ih =>
    refine List.pairwise_cons.2 ⟨fun b hb => ?_, ih⟩
    -- A later token has all of this one before it.
    obtain ⟨front, text', after, -, hat', -⟩ := hrest.exists_isAt hb
    rw [UInt32.le_iff_toNat_le, hat.stop, hat'.start, byteSize_append _ front]
    exact Nat.le_add_right _ _

theorem gaps (h : Tiling before unread tokens) (hsource : source = before ++ unread) :
    Gaps source (byteSize before) tokens := by
  induction h with
  | @done before gap last hgap _ hat =>
    exact ⟨⟨before, gap, [], by simpa using hsource, rfl, hat.start.symm, hgap⟩, trivial⟩
  | @token before gap text rest t ts hgap _ _ hat _ ih =>
    refine ⟨⟨before, gap, text ++ rest, by simpa using hsource, rfl, hat.start.symm, hgap⟩, ?_⟩
    rw [hat.stop]
    exact ih (by simpa using hsource)

end Tiling

/-- **Tokens tile the source.** -/
theorem Token.ofSource_isTiledBy {source : String} {tokens : List Token}
    (hsize : (Text.toUtf8 source).length < 2 ^ 32 - 1) (h : ofSource source = .ok tokens) :
    IsTiledBy source.toList tokens := by
  obtain ⟨pieces, hcuts, rfl⟩ := exists_cuts h
  have htiling : Tiling [] source.toList (placePieces .start pieces) := .of_cuts hcuts [] hsize
  constructor
  case ends =>
    obtain ⟨stream, last, htokens, hstream, hlast, hat⟩ := htiling.exists_stream
    exact ⟨stream, last, htokens, hstream, hlast, hat.start, by simpa using hat.stop⟩
  case covers =>
    intro t ht hkind
    obtain ⟨front, text, after, hsource, hat, hne⟩ := htiling.exists_isAt ht
    refine ⟨?_, front, text, after, hsource, hat.start, hat.stop⟩
    have hpos := byteSize_pos (hne hkind)
    rw [UInt32.lt_iff_toNat_lt, hat.start, hat.stop, byteSize_append ([] ++ front)]
    omega
  case ordered => exact htiling.ordered
  case placed =>
    intro t ht
    obtain ⟨front, text, after, hsource, hat, -⟩ := htiling.exists_isAt ht
    exact ⟨front, text ++ after, by simpa using hsource, hat.start, hat.line, hat.column⟩
  case gaps => exact htiling.gaps rfl

/-- Comments, long characters and a second line. -/
theorem Token.ofSource_isTiledBy_commented :
    ∃ tokens, ofSource "\x7b- ü \x7b- -\x7d -\x7d x = -- a\n  \"é\"" = .ok tokens ∧
      tokens.map (·.kind) = [.lowerName "x", .equals, .string "é", .eof] ∧
      IsTiledBy "\x7b- ü \x7b- -\x7d -\x7d x = -- a\n  \"é\"".toList tokens := by
  have hkinds : (ofSource "\x7b- ü \x7b- -\x7d -\x7d x = -- a\n  \"é\"").toOption.map
      (·.map (·.kind)) = some [.lowerName "x", .equals, .string "é", .eof] := by decide +kernel
  cases htokens : ofSource "\x7b- ü \x7b- -\x7d -\x7d x = -- a\n  \"é\"" with
  | error e =>
    rw [htokens] at hkinds
    cases hkinds
  | ok tokens =>
    rw [htokens] at hkinds
    exact ⟨tokens, rfl, Option.some.inj hkinds, ofSource_isTiledBy (by decide +kernel) htokens⟩

end ElmIntake
