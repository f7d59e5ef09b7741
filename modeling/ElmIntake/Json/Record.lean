import ElmIntake.Json.Skip

/-! # Reading values of a known kind

    Readers of texts, switches, counts, lists and records. A value of another
    kind is named in the fault, which says what was expected instead. Records
    are objects with fields, of which unknown ones are gone over; the fields of
    a record can also be given by a list, in their order. -/

namespace ElmIntake.Json.Reader

/-! ## Values of the wrong kind -/

/-- Fails because of a value that is not what was expected; unless it is a list
    or an object, it is read as far as its end. -/
def failOn {α : Type} (b : UInt8) (expected : String) : Reader α := do
  let wrong (found : Unexpected) : Reader α := failHere (.wrongType found expected)
  if b = byte 'n' then
    skip
    expectWord ['u', 'l', 'l']
    wrong .null
  else if b = byte 't' then
    skip
    expectWord ['r', 'u', 'e']
    wrong (.bool true)
  else if b = byte 'f' then
    skip
    expectWord ['a', 'l', 's', 'e']
    wrong (.bool false)
  else if b = byte '-' || isDigit b then wrong (.number (← number))
  else if b = byte '"' then
    skip
    wrong (.text (← stringText))
  else if b = byte '[' then wrong .list
  else if b = byte '{' then wrong .object
  else failAhead .expectedValue

/-- The first byte of a value. -/
def firstByte : Reader UInt8 := do
  match ← peekToken? with
  | some b => return b
  | none => failAhead .endInValue

/-! ## Plain values -/

/-- Reads a text that is called `expected`. -/
def text (expected : String) : Reader String := do
  let b ← firstByte
  if b = byte '"' then
    skip
    stringText
  else failOn b expected

/-- Reads a switch. -/
def switch : Reader Bool := do
  let b ← firstByte
  if b = byte 't' then
    skip
    expectWord ['r', 'u', 'e']
    return true
  else if b = byte 'f' then
    skip
    expectWord ['a', 'l', 's', 'e']
    return false
  else failOn b "a boolean"

/-- Reads a count. -/
def count : Reader Nat := do
  let b ← firstByte
  if b = byte '-' || isDigit b then
    match ← number with
    | .natural n => return n
    | .negative n => failHere (.wrongValue (.number (.negative n)) "usize")
    | .float x => failHere (.wrongType (.number (.float x)) "usize")
  else failOn b "usize"

/-- Reads `null`. -/
def null : Reader Unit := do
  let b ← firstByte
  if b = byte 'n' then
    skip
    expectWord ['u', 'l', 'l']
  else failOn b "unit"

/-- Reads a value that may be `null`. -/
def optional {α : Type} (r : Reader α) : Reader (Option α) := do
  match ← peekToken? with
  | some b =>
    if b = byte 'n' then
      skip
      expectWord ['u', 'l', 'l']
      return none
    else return some (← r)
  | none => return some (← r)

/-! ## Choices -/

/-- What can be chosen from, for a message. -/
def choices {α : Type} (variants : List (String × α)) : String :=
  " or ".intercalate (variants.map fun v => s!"`{v.1}`")

/-- Reads the name of one of some variants. -/
def variantName {α : Type} (variants : List (String × α)) : Reader α := do
  let name ← text "variant identifier"
  match variants.find? (·.1 == name) with
  | some (_, a) => return a
  | none => failHere (.unknownVariant name (choices variants))

/-- Goes over the colon after a key. -/
def colon : Reader Unit := do
  match ← peekToken? with
  | none => failAhead .endInObject
  | some b => if b = byte ':' then skip else failAhead .expectedColon

/-- Reads the name of one of some variants as the only key of an object. -/
def variantKey {α : Type} (variants : List (String × α)) : Reader α := do
  match ← peekToken? with
  | none => failAhead .endInObject
  | some b =>
    if b = byte '"' then variantName variants
    else if b = byte '}' then failAhead .expectedValue
    else failAhead .keyIsNoString

/-- Reads one of some variants: its name, or an object with the name as its only
    key and `null` under it. -/
def variant {α : Type} (variants : List (String × α)) : Reader α := do
  let b ← firstByte
  if b = byte '"' then variantName variants
  else if b = byte '{' then
    skip
    let a ← variantKey variants
    colon
    null
    match ← peekToken? with
    | none => failHere .endInObject
    | some b =>
      if b = byte '}' then
        skip
        return a
      else failHere .expectedValue
  else failAhead .expectedValue

/-! ## Lists -/

/-- Does another element follow in a list? -/
def hasElement (isFirst : Bool) : Reader Bool := do
  match ← peekToken? with
  | none => failAhead .endInList
  | some b =>
    if b = byte ']' then return false
    else if isFirst then return true
    else if b = byte ',' then
      skip
      match ← peekToken? with
      | none => failAhead .endInValue
      | some b => if b = byte ']' then failAhead .trailingComma else return true
    else failAhead .expectedListEnd

/-- Goes over the end of a list. -/
def endList : Reader Unit := do
  match ← peekToken? with
  | none => failAhead .endInList
  | some b =>
    if b = byte ']' then skip
    else if b = byte ',' then
      skip
      if (← peekToken?) == some (byte ']') then failAhead .trailingComma
      else failAhead .trailingCharacters
    else failAhead .trailingCharacters

/-- Reads the elements of a list, at most `fuel` of them; `found` are those
    already read, last one first. -/
def elements {α : Type} (r : Reader α) (found : List α) : Nat → Reader (List α)
  | 0 => return found.reverse
  | fuel + 1 => do
    if ← hasElement found.isEmpty then elements r ((← r) :: found) fuel
    else return found.reverse

/-- Reads a list. -/
def list {α : Type} (r : Reader α) : Reader (List α) := do
  let b ← firstByte
  if b = byte '[' then
    skip
    let found ← elements r [] (← bound)
    endList
    return found
  else failOn b "a sequence"

/-! ## Records -/

/-- A field of a record. -/
structure Field (α : Type) where
  name : String
  /-- Must the field be there? -/
  required : Bool
  /-- Reads the value of the field, and says how it changes the record. -/
  read : Reader (α → α)

/-- The name and the fields of a record; a field that is not given leaves the
    record as it is at first. -/
structure Record (α : Type) where
  name : String
  fields : List (Field α)
  initial : α

/-- Does another key follow in an object? -/
def hasKey (isFirst : Bool) : Reader Bool := do
  match ← peekToken? with
  | none => failAhead .endInObject
  | some b =>
    if b = byte '}' then return false
    else if isFirst then
      if b = byte '"' then return true else failAhead .keyIsNoString
    else if b = byte ',' then
      skip
      match ← peekToken? with
      | none => failAhead .endInValue
      | some b =>
        if b = byte '"' then return true
        else if b = byte '}' then failAhead .trailingComma
        else failAhead .keyIsNoString
    else failAhead .expectedObjectEnd

/-- Goes over the end of an object. -/
def endObject : Reader Unit := do
  match ← peekToken? with
  | none => failAhead .endInObject
  | some b =>
    if b = byte '}' then skip
    else if b = byte ',' then failAhead .trailingComma
    else failAhead .trailingCharacters

/-- Reads the fields of an object, at most `fuel` of them, into the record `a`;
    `seen` are the names of those already read. The problem of the record as a
    whole is returned, if there is one. -/
def keyedFields {α : Type} (record : Record α) (a : α) (seen : List String) (isFirst : Bool) :
    Nat → Reader (Except Problem α)
  | 0 => return .ok a
  | fuel + 1 => do
    if ← hasKey isFirst then
      skip
      let key ← stringText
      match record.fields.find? (·.name == key) with
      | none =>
        colon
        skipValue
        keyedFields record a seen false fuel
      | some field =>
        if seen.contains key then return .error (.duplicateField key)
        else
          colon
          let change ← field.read
          keyedFields record (change a) (key :: seen) false fuel
    else
      match record.fields.find? fun field => field.required && !seen.contains field.name with
      | some field => return .error (.missingField field.name)
      | none => return .ok a

/-- Reads the fields of a record from the elements of a list; `index` is the
    number of those before. -/
def listedFields {α : Type} (record : Record α) (a : α) (index : Nat) :
    List (Field α) → Reader (Except Problem α)
  | [] => return .ok a
  | field :: fields => do
    if ← hasElement (index == 0) then
      let change ← field.read
      listedFields record (change a) (index + 1) fields
    else if field.required then
      return .error (.wrongLength index
        s!"struct {record.name} with {record.fields.length} elements")
    else listedFields record a (index + 1) fields

/-- The record, or its problem as a fault. Before the problem is placed, the end
    of the record is looked for. -/
def settle {α : Type} (stop : Reader Unit) : Except Problem α → Reader α
  | .ok a => do
    stop
    return a
  | .error problem => do
    try stop catch _ => pure ()
    failHere problem

/-- Reads a record. -/
def record {α : Type} (r : Record α) : Reader α := do
  let b ← firstByte
  if b = byte '[' then
    skip
    settle endList (← listedFields r r.initial 0 r.fields)
  else if b = byte '{' then
    skip
    settle endObject (← keyedFields r r.initial [] true (← bound))
  else failOn b s!"struct {r.name}"

/-- Reads a value after which nothing but blanks may follow. -/
def whole {α : Type} (r : Reader α) : Reader α := do
  let a ← r
  match ← peekToken? with
  | some _ => failAhead .trailingCharacters
  | none => return a

end ElmIntake.Json.Reader
