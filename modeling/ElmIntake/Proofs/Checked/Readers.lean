import ElmIntake.Proofs.Checked.Walking

/-! # The readers of the grammar by index

    Each walker follows the reader of its name. Most are put together as their
    readers are. Those that are loops are compared round by round, by induction on
    the tokens ahead: where a reader looks for the end of what it takes and then
    skips to there, the walker takes the same tokens one by one.

    Main statements: `header_follows`, `import_follows`, `signature_follows` and
    `declaration_follows`. -/

namespace ElmIntake

open Machine (check loop run_check run_bind_ok loop_done loop_again loop_halt)

namespace Walker

open Reader (isDotted leadingLowerNames closingBrace?)

variable {α : Type} {tokens rest : List Token} {index n : Nat} {t : Token}

/-! ## Looking and then reading -/

/-- Does a walk do what a reader does wherever a token is ahead? -/
def FollowsThere {α : Type} (n k : Nat) (walk : Walk α) (reader : Reader α) : Prop :=
  ∀ (tokens : List Token) (index : Nat) (t : Token) (rest : List Token),
    tokens.length < 2 ^ 63 → n ≤ index → tokens.drop index = t :: rest →
    Agrees tokens (index + k) (walk.run ⟨tokens, index⟩)
      (reader.run (.behindFirst tokens index))

theorem FollowsThere.bind {β : Type} {k : Nat} {walk : Walk α} {reader : Reader α}
    {next : α → Walk β} {next' : α → Reader β} (h : FollowsThere n k walk reader)
    (hnext : ∀ a, Follows (n + k) 0 (next a) (next' a)) :
    FollowsThere n 0 (walk >>= next) (reader >>= next') := by
  intro tokens index t rest hlength hn hahead
  refine (h tokens index t rest hlength hn hahead).bind fun a mid hlow hle => ?_
  exact (hnext a tokens mid hlength (by omega) hle).from (by omega)

/-- A choice by whether `..` is ahead. -/
theorem Follows.bind_atDots {k : Nat} {walk : Bool → Walk α} {reader : Bool → Reader α}
    (htrue : FollowsThere n k (walk true) (reader true))
    (hfalse : Follows n k (walk false) (reader false)) :
    Follows n k (atDots >>= walk) (Reader.atDots >>= reader) := by
  intro tokens index hlength hn hindex
  have hwalk : atDots.run ⟨tokens, index⟩ =
      .ok ((tokens.drop index).head?.map (·.kind) == some (.operator ".."),
        ⟨tokens, index⟩) := by
    unfold atDots
    rw [run_bind_ok (run_peek? hlength hindex (by decide)), ← List.head?_eq_getElem?]
    rfl
  have hreader : Reader.atDots.run (.behindFirst tokens index) =
      .ok ((tokens.drop index).head?.map (·.kind) == some (.operator ".."),
        .behindFirst tokens index) := rfl
  rw [run_bind_ok hwalk, StateT.run_bind, hreader]
  change Agrees _ _ _ ((reader _).run _)
  by_cases h : (tokens.drop index).head?.map (·.kind) = some (.operator "..")
  · obtain ⟨t, rest, hahead, -⟩ := exists_of_head? h
    rw [beq_iff_eq.2 h]
    exact htrue tokens index t rest hlength hn hahead
  · rw [beq_eq_false_iff_ne.2 h]
    exact hfalse tokens index hlength hn hindex

/-! ## Names -/

theorem upperName_follows (what : Expected) :
    Follows n 1 (upperName what) (Reader.upperName what) := by
  intro tokens index hlength hn hindex
  have hmissing := missing_follows (α := Name) (k := 1) what tokens index hlength hn hindex
  unfold upperName Reader.upperName
  rw [run_bind_ok (run_current? tokens index), reader_peek?]
  cases hahead : tokens.drop index with
  | nil => exact hmissing
  | cons t rest =>
    obtain ⟨kind, span⟩ := t
    cases kind with
    | upperName name =>
      dsimp only [List.head?_cons, Option.map_some]
      rw [run_bind_ok (run_advance hlength hahead), reader_next hahead]
      exact .value (Nat.le_refl _) (lt_of_drop hahead)
    | _ => exact hmissing

theorem moduleName_follows (what : Expected) :
    Follows n 1 (moduleName what) (Reader.moduleName what) :=
  (upperName_follows what).bind fun _ => .pure _

theorem typeName_follows : Follows n 1 typeName Reader.typeName := by
  refine (upperName_follows .typeName).bind fun name => ?_
  split
  · exact .failAt _ _
  · exact .pure _

theorem declarationName_follows : Follows n 1 declarationName Reader.declarationName := by
  intro tokens index hlength hn hindex
  have hmissing := missing_follows (α := Name) (k := 1) .name tokens index hlength hn hindex
  unfold declarationName Reader.declarationName
  rw [run_bind_ok (run_current? tokens index), reader_peek?]
  cases hahead : tokens.drop index with
  | nil => exact hmissing
  | cons t rest =>
    obtain ⟨kind, span⟩ := t
    cases kind with
    | lowerName name =>
      dsimp only [List.head?_cons, Option.map_some]
      by_cases hdotted : isDotted name = true
      · rw [if_pos hdotted, if_pos hdotted]
        have hspan : (Cursor.behindFirst tokens index).span = span := by
          unfold Cursor.span Cursor.behindFirst
          rw [hahead]
          rfl
        change Agrees _ _ _ (.error ⟨_, (Cursor.behindFirst tokens index).span⟩)
        rw [hspan]
        exact .report
      · rw [if_neg hdotted, if_neg hdotted, run_bind_ok (run_advance hlength hahead),
          reader_next hahead]
        exact .value (Nat.le_refl _) (lt_of_drop hahead)
    | _ => exact hmissing

/-- Without a name ahead the parameters are complete. -/
theorem run_parameterRound_end (h : leadingLowerNames (tokens.drop index) = [])
    (names : List Name) :
    (parameterRound names).run ⟨tokens, index⟩ = .ok (.done names, ⟨tokens, index⟩) := by
  unfold parameterRound
  rw [run_bind_ok (run_current? tokens index)]
  cases hahead : tokens.drop index with
  | nil => rfl
  | cons t rest =>
    obtain ⟨kind, span⟩ := t
    rw [hahead] at h
    cases kind with
    | lowerName name => cases h
    | _ => rfl

/-- The rounds go as far as the names do, unless one of them is dotted. -/
theorem run_parameterRounds (hlength : tokens.length < 2 ^ 63) (names : List Name) :
    (loop left parameterRound names).run ⟨tokens, index⟩ =
      match (leadingLowerNames (tokens.drop index)).find? (isDotted ·.node) with
      | some name => .error (.report ⟨.dottedVariable name.node, name.span⟩)
      | none => .ok (names ++ leadingLowerNames (tokens.drop index),
          ⟨tokens, index + (leadingLowerNames (tokens.drop index)).length⟩) := by
  generalize hahead : tokens.drop index = rest
  -- The induction is on the names ahead; a dotted one halts the loop at once.
  fun_induction leadingLowerNames rest generalizing index names with
  | case1 name span rest ih =>
    have hcurrent := run_current? tokens index
    rw [hahead] at hcurrent
    rw [List.find?_cons]
    dsimp only
    cases hdotted : isDotted name with
    | true =>
      have hround : (parameterRound names).run ⟨tokens, index⟩ =
          .error (.report ⟨.dottedVariable name, span⟩) := by
        unfold parameterRound
        rw [run_bind_ok hcurrent]
        dsimp only [List.head?_cons]
        rw [if_pos hdotted]
        rfl
      rw [loop_halt hround]
    | false =>
      have hround : (parameterRound names).run ⟨tokens, index⟩ =
          .ok (.again (names ++ [⟨name, span⟩]), ⟨tokens, index + 1⟩) := by
        unfold parameterRound
        rw [run_bind_ok hcurrent]
        dsimp only [List.head?_cons]
        rw [if_neg (Bool.eq_false_iff.1 hdotted), run_bind_ok (run_advance hlength hahead)]
        rfl
      rw [loop_again hround (left_succ hahead), ih _ (drop_succ hahead)]
      dsimp only
      cases (leadingLowerNames rest).find? (isDotted ·.node) with
      | some name => rfl
      | none =>
        dsimp only
        rw [List.append_assoc, List.singleton_append, List.length_cons, Nat.add_assoc,
          Nat.add_comm 1]
  | case2 rest hother =>
    have hnames : leadingLowerNames (tokens.drop index) = [] := by
      rw [hahead]
      unfold leadingLowerNames
      split
      · next name span rest => exact absurd rfl (hother name span rest)
      · rfl
    rw [loop_done (run_parameterRound_end hnames names), List.find?_nil, List.append_nil]
    rfl

theorem length_leadingLowerNames_le (tokens : List Token) :
    (leadingLowerNames tokens).length ≤ tokens.length := by
  fun_induction leadingLowerNames tokens with
  | case1 name span tokens ih => exact Nat.succ_le_succ ih
  | case2 => exact Nat.zero_le _

theorem typeParameters_follows : Follows n 0 typeParameters Reader.typeParameters := by
  intro tokens index hlength _ hindex
  unfold typeParameters
  rw [run_parameterRounds hlength, List.nil_append]
  change Agrees _ _ _ (StateT.run (match (leadingLowerNames (tokens.drop index)).find?
      (isDotted ·.node) with
    | some name => Reader.failAt (.dottedVariable name.node) name.span
    | none => modifyGet fun c => (leadingLowerNames (tokens.drop index),
        c.skip (leadingLowerNames (tokens.drop index)).length)) _)
  have hcount := length_leadingLowerNames_le (tokens.drop index)
  rw [List.length_drop] at hcount
  cases (leadingLowerNames (tokens.drop index)).find? (isDotted ·.node) with
  | some name => exact .report
  | none =>
    change Agrees _ _ _ (.ok (_, Cursor.skip _ _))
    rw [skip_behindFirst]
    exact .value (by omega) (by omega)

/-! ## Exposing lists -/

theorem dotsAndClose_follows : FollowsThere n 2 dotsAndClose Reader.dotsAndClose := by
  intro tokens index t rest hlength hn hahead
  unfold dotsAndClose Reader.dotsAndClose
  rw [run_bind_ok (run_advance hlength hahead), reader_next hahead]
  exact expect_follows (n := n) _ _ tokens (index + 1) hlength (by omega) (lt_of_drop hahead)

theorem exposedItem_follows : Follows n 1 exposedItem Reader.exposedItem := by
  refine (next_follows _).bind fun t => ?_
  obtain ⟨kind, span⟩ := t
  -- Once a token was read there is one behind the walker.
  have hsince {m : Nat} (hm : n + 1 ≤ m) : Follows m 0 (since span) (Reader.since span) :=
    since_follows (by omega) span
  cases kind with
  | lowerName name =>
    dsimp only
    split
    · exact .failAt _ _
    · exact .pure _
  | upperName name =>
    dsimp only
    split
    · exact .failAt _ _
    · refine (accept_follows _).bind fun accepted => ?_
      split
      · refine .bind_atDots (dotsAndClose_follows.bind fun _ => ?_) (missing_follows _)
        exact (hsince (by omega)).bind fun _ => .pure _
      · exact (hsince (by omega)).bind fun _ => .pure _
  | opening bracket =>
    cases bracket with
    | paren =>
      refine (next_follows _).andThen fun symbol => ?_
      obtain ⟨kind, span'⟩ := symbol
      cases kind with
      | operator symbols =>
        refine (expect_follows _ _).andThen fun _ => ?_
        exact (hsince (by omega)).bind fun _ => .pure _
      | _ => exact .failAt _ _
    | _ => exact .failAt _ _
  | closing bracket =>
    cases bracket with
    | paren => exact .failAt _ _
    | _ => exact .failAt _ _
  | _ => exact .failAt _ _

/-- One more item of an exposing list, and what is after it. -/
def exposedRoundReader (items : List (Located ExposedItem)) :
    Reader (Round (List (Located ExposedItem)) (List (Located ExposedItem))) := do
  let item ← Reader.exposedItem
  if ← Reader.accept .comma then return .again (items ++ [item])
  else
    let _ ← Reader.expect (.closing .paren) .commaOrClose
    return .done (items ++ [item])

theorem exposedRound_follows (items : List (Located ExposedItem)) :
    Follows n 1 (exposedRound items) (exposedRoundReader items) := by
  refine exposedItem_follows.bind fun item => (accept_follows _).bind fun accepted => ?_
  split
  · exact .pure _
  · exact (expect_follows _ _).andThen fun _ => .pure _

/-- A list is one round, and another list if there is a comma. -/
theorem exposedItems_succ (fuel : Nat) (items : List (Located ExposedItem)) :
    (items ++ ·) <$> Reader.exposedItems (fuel + 1) =
      exposedRoundReader items >>= fun
        | .again items => (items ++ ·) <$> Reader.exposedItems fuel
        | .done items => pure items := by
  unfold exposedRoundReader
  rw [Reader.exposedItems]
  simp only [bind_assoc, map_bind]
  congr
  funext item
  congr
  funext accepted
  cases accepted with
  | true => simp
  | false => simp

/-- The rounds are the items, if there is fuel for as many as there are tokens ahead. -/
theorem exposedRounds_follow (hlength : tokens.length < 2 ^ 63) (fuel : Nat) :
    ∀ (index : Nat) (items : List (Located ExposedItem)), index ≤ tokens.length →
      tokens.length ≤ index + fuel →
      Agrees tokens index ((loop left exposedRound items).run ⟨tokens, index⟩)
        (((items ++ ·) <$> Reader.exposedItems fuel).run (.behindFirst tokens index)) := by
  induction fuel with
  | zero =>
    intro index items hindex hfuel
    -- Nothing is ahead, and a round fails for want of an item.
    have hahead : tokens.drop index = [] := List.drop_eq_nil_of_le hfuel
    have hround : (exposedRound items).run ⟨tokens, index⟩ =
        .error (.report ⟨.expected .exposedName, (Cursor.behindFirst tokens index).span⟩) := by
      unfold exposedRound exposedItem next
      rw [bind_assoc, bind_assoc, run_bind_ok (run_here hindex), bind_assoc,
        run_bind_ok (run_advance_end hahead)]
      rfl
    rw [loop_halt hround]
    exact .report
  | succ fuel ih =>
    intro index items hindex hfuel
    have hround := exposedRound_follows (n := 0) items tokens index hlength (Nat.zero_le _) hindex
    rw [exposedItems_succ, StateT.run_bind]
    generalize hwalk : (exposedRound items).run _ = x at hround
    generalize (exposedRoundReader items).run _ = y at hround
    cases hround with
    | report =>
      rw [loop_halt hwalk]
      exact .report
    | @value round mid hlow hend =>
      cases round with
      | done items' =>
        rw [loop_done hwalk]
        exact .value (by omega) hend
      | again items' =>
        have hlt : index < tokens.length := by omega
        have hleft : left ⟨tokens, mid⟩ < left ⟨tokens, index⟩ := Nat.sub_lt_sub_left hlt hlow
        rw [loop_again hwalk hleft]
        exact (ih mid items' hend (by omega)).from (by omega)

theorem exposing_follows : Follows n 1 exposing Reader.exposing := by
  refine (expect_follows _ _).bind fun first => .bind_atDots ?_ ?_
  · exact dotsAndClose_follows.bind fun _ => .pure _
  · intro tokens index hlength _ hindex
    have hrounds := exposedRounds_follow hlength (tokens.drop index).length index [] hindex
      (by rw [List.length_drop]; omega)
    simp only [List.nil_append, id_map'] at hrounds
    change Agrees _ _ _ ((Reader.exposedItems (tokens.drop index).length >>= fun items =>
      pure (Exposing.listed items)).run _)
    refine hrounds.bind fun items mid hlow hend => ?_
    exact .value hlow hend

/-! ## Headers and imports -/

/-- The number of braces open after a token. -/
def bracesAfter (depth : Nat) : TokenKind → Nat
  | .opening .brace => depth + 1
  | .closing .brace => depth - 1
  | _ => depth

theorem bracesAfter_le (depth : Nat) (kind : TokenKind) : bracesAfter depth kind ≤ depth + 1 := by
  unfold bracesAfter
  split <;> omega

/-- Where no brace is open any more, the search has come to its end. -/
theorem closingBrace?_cons (depth : Nat) (t : Token) (tokens : List Token) :
    closingBrace? depth (t :: tokens) =
      match bracesAfter (depth + 1) t.kind with
      | 0 => some 1
      | depth + 1 => (closingBrace? depth tokens).map (· + 1) := by
  obtain ⟨kind, span⟩ := t
  cases kind with
  | opening bracket => cases bracket <;> rfl
  | closing bracket => cases bracket <;> cases depth <;> rfl
  | _ => rfl

theorem closingBrace?_le {depth count : Nat} (h : closingBrace? depth tokens = some count) :
    count ≤ tokens.length := by
  induction tokens generalizing depth count with
  | nil => cases h
  | cons t tokens ih =>
    rw [closingBrace?_cons] at h
    cases hopen : bracesAfter (depth + 1) t.kind with
    | zero =>
      rw [hopen] at h
      cases h
      exact Nat.le_add_left 1 _
    | succ depth' =>
      rw [hopen] at h
      obtain ⟨before, hbefore, rfl⟩ := Option.map_eq_some_iff.1 h
      exact Nat.succ_le_succ (ih hbefore)

theorem run_settingRound (hlength : tokens.length < 2 ^ 63) (h : tokens.drop index = t :: rest)
    (opener : Span) {depth : Nat} (hdepth : depth + 2 < 2 ^ 64) :
    (settingRound opener (depth + 1)).run ⟨tokens, index⟩ =
      .ok (.again (bracesAfter (depth + 1) t.kind), ⟨tokens, index + 1⟩) := by
  unfold settingRound
  rw [if_pos (Nat.succ_pos depth), run_bind_ok (run_advance hlength h)]
  obtain ⟨kind, span⟩ := t
  dsimp only
  cases kind with
  | opening bracket =>
    cases bracket with
    | brace =>
      dsimp only
      rw [run_bind_ok (run_check (Checked.word_eq hdepth))]
      rfl
    | _ => rfl
  | closing bracket =>
    cases bracket with
    | brace =>
      dsimp only
      rw [run_bind_ok (run_check (Checked.minus_eq (Nat.le_add_left 1 depth)))]
      rfl
    | _ => rfl
  | _ => rfl

/-- The rounds go as far as the brace that closes the first one. No more braces can be open
    than there were tokens. -/
theorem run_settingRounds (hlength : tokens.length < 2 ^ 63) (opener : Span) {depth : Nat}
    (hdepth : depth + (tokens.drop index).length < 2 ^ 63) :
    (loop left (settingRound opener) (depth + 1)).run ⟨tokens, index⟩ =
      match closingBrace? depth (tokens.drop index) with
      | some count => .ok ((), ⟨tokens, index + count⟩)
      | none => .error (.report ⟨.unclosed Bracket.brace.openText, opener⟩) := by
  generalize hahead : tokens.drop index = rest at hdepth
  induction rest generalizing index depth with
  | nil =>
    have hround : (settingRound opener (depth + 1)).run ⟨tokens, index⟩ =
        .error (.report ⟨.unclosed Bracket.brace.openText, opener⟩) := by
      unfold settingRound
      rw [if_pos (Nat.succ_pos depth), run_bind_ok (run_advance_end hahead)]
      rfl
    rw [loop_halt hround]
    rfl
  | cons t rest ih =>
    rw [List.length_cons] at hdepth
    have hle := bracesAfter_le (depth + 1) t.kind
    have hround := run_settingRound hlength hahead opener (show depth + 2 < 2 ^ 64 by omega)
    rw [loop_again hround (left_succ hahead), closingBrace?_cons]
    -- Either this token closes the first brace, or some brace is still open behind it.
    cases hopen : bracesAfter (depth + 1) t.kind with
    | zero => exact loop_done rfl
    | succ depth' =>
      dsimp only
      rw [ih (drop_succ hahead) (by omega)]
      cases closingBrace? depth' rest with
      | none => rfl
      | some count =>
        rw [Option.map_some]
        dsimp only
        rw [Nat.add_assoc, Nat.add_comm 1]

theorem settings_follows (opener : Span) :
    Follows n 0 (settings opener) (Reader.settings opener) := by
  intro tokens index hlength _ hindex
  have hdepth : 0 + (tokens.drop index).length < 2 ^ 63 := by
    rw [List.length_drop]
    omega
  unfold settings
  rw [run_settingRounds hlength opener hdepth]
  change Agrees _ _ _ (StateT.run (match closingBrace? 0 (tokens.drop index) with
    | some n => modify (·.skip n)
    | none => Reader.failAt (.unclosed Bracket.brace.openText) opener) _)
  cases hclosing : closingBrace? 0 (tokens.drop index) with
  | none => exact .report
  | some count =>
    have hle := closingBrace?_le hclosing
    rw [List.length_drop] at hle
    change Agrees _ _ _ (.ok ((), Cursor.skip _ count))
    rw [skip_behindFirst]
    exact .value (by omega) (by omega)

theorem moduleKind_follows : Follows n 0 moduleKind Reader.moduleKind := by
  refine (accept_follows _).bind fun isPort => ?_
  split
  · exact .pure _
  · refine (accept_follows _).bind fun isEffect => ?_
    split
    · exact .pure _
    · exact .pure _

theorem header_follows : Follows n 1 header Reader.header := by
  refine here_follows.bind_look fun first => moduleKind_follows.bind_look fun kind => ?_
  refine (expectKeyword_follows _ _).bind fun _ => (moduleName_follows _).andThen fun name => ?_
  have hrest {m : Nat} (hm : 0 < m) :
      Follows (α := ModuleHeader) m 0
        (do
          expectKeyword .exposingWord (.exposingAfter name.node.dotted)
          let exposed ← exposing
          expectEnd .header
          return ⟨kind, name, exposed, false, ← since first⟩)
        (do
          Reader.expectKeyword .exposingWord (.exposingAfter name.node.dotted)
          let exposed ← Reader.exposing
          Reader.expectEnd .header
          return ⟨kind, name, exposed, false, ← Reader.since first⟩) := by
    refine (expectKeyword_follows _ _).andThen fun _ => exposing_follows.andThen fun exposed => ?_
    refine (expectEnd_follows _).bind fun _ => (since_follows (by omega) _).bind fun _ => .pure _
  split
  · refine (expectKeyword_follows _ _).andThen fun _ => ?_
    refine (expect_follows _ _).andThen fun opener => ?_
    exact (settings_follows opener).bind fun _ => hrest (by omega)
  · exact hrest (by omega)

theorem importAlias_follows : Follows n 0 importAlias Reader.importAlias := by
  refine (accept_follows _).bind fun accepted => ?_
  split
  · refine (upperName_follows _).andThen fun name => ?_
    split
    · exact .failAt _ _
    · exact .pure _
  · exact .pure _

theorem importExposing_follows : Follows n 0 importExposing Reader.importExposing := by
  refine (accept_follows _).bind fun accepted => ?_
  split
  · exact exposing_follows.andThen fun _ => .pure _
  · exact .pure _

theorem import_follows : Follows n 1 import_ Reader.import_ := by
  refine here_follows.bind_look fun first => (expectKeyword_follows _ _).bind fun _ => ?_
  refine (moduleName_follows _).andThen fun name => importAlias_follows.bind fun asName => ?_
  refine importExposing_follows.bind fun exposed => (expectEnd_follows _).bind fun _ => ?_
  exact (since_follows (by omega) _).bind fun _ => .pure _

/-! ## Types -/

theorem typeAnnotation_follows (hn : 0 < n) (owner : String) :
    Follows n 0 ( typeAnnotation owner) ( Reader.typeAnnotation owner) := by
  refine (behind_follows hn).bind fun before => .bind_remaining fun tokens _ => ?_
  exact (Follows.answer _).bind fun _ => .pure _

theorem signature_follows : Follows n 1 signature Reader.signature := by
  refine here_follows.bind_look fun first => declarationName_follows.bind fun name => ?_
  refine (expect_follows _ _).andThen fun _ => ?_
  refine (typeAnnotation_follows (by omega) _).bind fun annotation => ?_
  exact (since_follows (by omega) _).bind fun _ => .pure _

theorem aliasDeclaration_follows (doc : Option (Located String)) :
    Follows n 1 (aliasDeclaration doc) (Reader.aliasDeclaration doc) := by
  refine here_follows.bind_look fun first => (expectKeyword_follows _ _).bind fun _ => ?_
  refine (expectKeyword_follows _ _).andThen fun _ => typeName_follows.andThen fun name => ?_
  refine typeParameters_follows.bind fun parameters => (expect_follows _ _).andThen fun _ => ?_
  refine (typeAnnotation_follows (by omega) _).bind fun annotation => ?_
  exact (since_follows (by omega) _).bind fun _ => .pure _

/-- The place of an atom, by its last token. -/
theorem span_atom (t : Token) (tokens : List Token) :
    (Atom.mk t tokens).span =
      t.span.combine ((t :: tokens).getLast (List.cons_ne_nil _ _)).span := by
  unfold Atom.span
  dsimp only
  cases tokens with
  | nil => rfl
  | cons u rest =>
    rw [List.getLast_cons (List.cons_ne_nil _ _), List.getLast?_eq_some_getLast
      (List.cons_ne_nil _ _)]
    rfl

theorem constructor_eq (before : Span) (hlength : tokens.length < 2 ^ 63) :
    constructor before tokens = (Reader.constructor before tokens).mapError .report := by
  cases tokens with
  | nil => rfl
  | cons t tokens =>
    obtain ⟨kind, span⟩ := t
    cases kind with
    | upperName name =>
      rw [List.length_cons] at hlength
      unfold constructor Reader.constructor
      dsimp only
      split
      · rfl
      · rw [Checked.bind_ok (Checked.atomsOf_eq (by omega)), List.map_map, span_atom]
        rfl
    | _ => rfl

/-- A step for each element of a list. -/
theorem Follows.mapM {β : Type} {walk : α → Walk β} {reader : α → Reader β} {xs : List α}
    (h : ∀ x ∈ xs, Follows n 0 (walk x) (reader x)) :
    Follows n 0 (xs.mapM walk) (xs.mapM reader) := by
  induction xs with
  | nil => exact .pure []
  | cons x xs ih =>
    obtain ⟨hx, hxs⟩ := List.forall_mem_cons.1 h
    rw [List.mapM_cons, List.mapM_cons]
    exact hx.bind fun y => (ih hxs).bind fun ys => .pure (y :: ys)

theorem typeDeclaration_follows (doc : Option (Located String)) :
    Follows n 1 (typeDeclaration doc) (Reader.typeDeclaration doc) := by
  refine here_follows.bind_look fun first => (expectKeyword_follows _ _).bind fun _ => ?_
  refine typeName_follows.andThen fun name => typeParameters_follows.bind fun parameters => ?_
  refine (expect_follows _ _).andThen fun equals => .bind_remaining fun tokens hlength => ?_
  refine (Follows.answer _).bind fun _ => ?_
  rw [Checked.partsOf_eq rfl rfl hlength]
  have hconstructors {m : Nat} :
      Follows m 0 ((partsAtTop .pipe 0 tokens).mapM fun part => check (constructor equals part))
        ((partsAtTop .pipe 0 tokens).mapM fun part =>
          (Reader.constructor equals part : Reader Constructor)) := by
    refine .mapM fun part hpart => .check (constructor_eq equals ?_)
    exact Nat.lt_of_le_of_lt (infix_of_mem_partsAtTop hpart).length_le hlength
  exact hconstructors.bind fun cs => (since_follows (by omega) _).bind fun _ => .pure _

/-! ## Ports and operators -/

theorem portDeclaration_follows : Follows n 1 portDeclaration Reader.portDeclaration := by
  refine here_follows.bind_look fun first => (expectKeyword_follows _ _).bind fun _ => ?_
  refine declarationName_follows.andThen fun name => (expect_follows _ _).andThen fun _ => ?_
  refine (typeAnnotation_follows (by omega) _).bind fun annotation => ?_
  exact (since_follows (by omega) _).bind fun _ => .pure _

theorem reading_follows (what : Expected) (meaning : TokenKind → Option α) (blame : Expected) :
    Follows n 1 (reading what meaning blame) (Reader.reading what meaning blame) := by
  refine (next_follows what).bind fun t => ?_
  cases meaning t.kind with
  | some value => exact .pure _
  | none => exact .failAt _ _

theorem operatorDeclaration_follows :
    Follows n 1 operatorDeclaration Reader.operatorDeclaration := by
  refine here_follows.bind_look fun first => (expectKeyword_follows _ _).bind fun _ => ?_
  refine (reading_follows _ _ _).andThen fun associativity => ?_
  refine (reading_follows _ _ _).andThen fun precedence => (expect_follows _ _).andThen fun _ => ?_
  refine (reading_follows _ _ _).andThen fun operator => (expect_follows _ _).andThen fun _ => ?_
  refine (expect_follows _ _).andThen fun _ => declarationName_follows.andThen fun function => ?_
  refine (expectEnd_follows _).bind fun _ => ?_
  exact (since_follows (by omega) _).bind fun _ => .pure _

/-! ## Definitions -/

/-- Tokens of which there is a first one have a place. -/
theorem spanOf_cons (t : Token) (tokens : List Token) :
    spanOf (t :: tokens) = .ok (Atom.mk t tokens).span := by
  have hlast : (t :: tokens)[(t :: tokens).length - 1]? =
      some ((t :: tokens).getLast (List.cons_ne_nil _ _)) := by
    rw [← List.getLast?_eq_getElem?, List.getLast?_eq_some_getLast (List.cons_ne_nil _ _)]
  have hpos : 1 ≤ (t :: tokens).length := Nat.succ_pos _
  unfold spanOf
  rw [Checked.bind_ok (Checked.fetch_eq rfl), Checked.bind_ok (Checked.minus_eq hpos),
    Checked.bind_ok (Checked.fetch_eq hlast), span_atom]
  rfl

/-- Atoms are arguments; none is without tokens. -/
theorem mapM_argument (xs : List Atom) :
    (xs.map Atom.tokens).mapM argument =
      .ok (xs.map fun a => (⟨render a.tokens, a.span⟩ : Located String)) := by
  induction xs with
  | nil => rfl
  | cons a xs ih =>
    have hargument : argument a.tokens = .ok ⟨render a.tokens, a.span⟩ := by
      unfold argument
      rw [Atom.tokens, Checked.bind_ok (spanOf_cons a.first a.rest)]
      rfl
    rw [List.map_cons, List.mapM_cons, Checked.bind_ok hargument, Checked.bind_ok ih]
    rfl

theorem mapError_ok (a : α) :
    (Except.ok a : Except SyntaxError α).mapError Halt.report = .ok a := rfl

/-- The sign `=` is at the index that is found, so that there are tokens up to it and behind
    it, and a body that passes its check has a first and a last token. -/
theorem argumentsAndBody_eq (owner : Name) (hlength : tokens.length < 2 ^ 63) :
    argumentsAndBody owner tokens =
      (Reader.argumentsAndBody owner tokens).mapError .report := by
  unfold argumentsAndBody Reader.argumentsAndBody
  cases balanced tokens with
  | error e => rfl
  | ok u =>
    have hindex : Checked.indexAtTop? .equals 0 0 tokens = _ :=
      Checked.indexAtTop?_eq rfl rfl (by omega) (by omega)
    rw [Checked.bind_ok (mapError_ok u), Checked.bind_ok hindex]
    cases hsplit : splitAtTop? .equals 0 tokens with
    | none => rfl
    | some found =>
      obtain ⟨before, equals, body⟩ := found
      have htokens := splitAtTop?_eq hsplit
      have hcount := congrArg List.length htokens
      rw [List.length_append, List.length_cons] at hcount
      -- The index splits the tokens where the reader does.
      have hbefore : Checked.slice (ε := SyntaxError) tokens 0 before.length = .ok before :=
        htokens ▸ Checked.slice_before before equals body
      have hequals : Checked.fetch (ε := SyntaxError) tokens before.length = .ok equals :=
        htokens ▸ Checked.fetch_behind before equals body
      have hbody : Checked.sliceFrom (ε := SyntaxError) tokens (before.length + 1) = .ok body :=
        htokens ▸ Checked.sliceFrom_behind before equals body
      rw [Option.map_some, Nat.zero_add]
      dsimp only
      rw [Checked.bind_ok hbefore, Checked.bind_ok (Checked.atomsOf_eq (by omega)),
        Checked.bind_ok (mapM_argument _), Checked.bind_ok (Checked.word_eq (by omega)),
        Checked.bind_ok hbody, Checked.bind_ok hequals]
      cases hcheck : Reader.checkBody owner.node equals.span body with
      | error e => rfl
      | ok u =>
        cases body with
        -- An empty body has failed its check.
        | nil => cases hcheck
        | cons t rest =>
          rw [Checked.bind_ok (mapError_ok u), Checked.bind_ok (spanOf_cons t rest)]
          rfl

theorem valueDeclaration_follows (doc : Option (Located String)) (sig : Option Signature) :
    Follows n 1 (valueDeclaration doc sig) (Reader.valueDeclaration doc sig) := by
  refine here_follows.bind_look fun first => declarationName_follows.bind fun name => ?_
  refine .bind_remaining fun tokens hlength => ?_
  refine (Follows.check (argumentsAndBody_eq name hlength)).bind fun parts => ?_
  exact (since_follows (by omega) _).bind fun _ => .pure _

theorem declaration_follows (kind : ModuleKind) (doc : Option (Located String))
    (sig : Option Signature) :
    Follows n 1 (declaration kind doc sig) (Reader.declaration kind doc sig) := by
  intro tokens index hlength hn hindex
  have hfollows {walk : Walk Declaration} {reader : Reader Declaration}
      (h : Follows n 1 walk reader) :
      Agrees tokens (index + 1) (walk.run ⟨tokens, index⟩)
        (reader.run (.behindFirst tokens index)) := h tokens index hlength hn hindex
  -- Both look at the first token only, and go on with the same reader.
  unfold declaration Reader.declaration
  rw [run_bind_ok (run_current? tokens index), reader_get, ahead_behindFirst]
  cases (tokens.drop index).head? with
  | none => exact .report
  | some t =>
    obtain ⟨first, span⟩ := t
    cases first with
    | keyword word =>
      cases word with
      | typeWord =>
        refine hfollows (peekSecond?_follows.bind_look fun second => ?_)
        split
        · exact (aliasDeclaration_follows doc).bind fun _ => .pure _
        · exact (typeDeclaration_follows doc).bind fun _ => .pure _
      | portWord =>
        dsimp only
        split
        · exact hfollows (portDeclaration_follows.bind fun _ => .pure _)
        · exact .report
      | infixWord => exact hfollows (operatorDeclaration_follows.bind fun _ => .pure _)
      | _ => exact .report
    | lowerName name => exact hfollows ((valueDeclaration_follows doc sig).bind fun _ => .pure _)
    | opening bracket =>
      cases bracket with
      | paren => exact .report
      | _ => exact .report
    | _ => exact .report

end Walker

end ElmIntake
