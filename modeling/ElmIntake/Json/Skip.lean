import ElmIntake.Json.Numeral

/-! # Going over JSON values

    Values that nobody asks for are gone over without being built. Such a value
    is checked for its form alone: its numbers may be of any size, its strings
    need not be UTF-8, and it may be nested to any depth. -/

namespace ElmIntake.Json.Reader

/-- A list or object that is still open. -/
inductive Enclosure where
  | list
  | object
  deriving Repr, DecidableEq

namespace Enclosure

/-- The byte that ends it. -/
def stop : Enclosure → UInt8
  | list => byte ']'
  | object => byte '}'

/-- What is wrong if the document ends within it. -/
def endInside : Enclosure → Problem
  | list => .endInList
  | object => .endInObject

/-- What is wrong if neither its end nor a comma follows one of its values. -/
def notContinued : Enclosure → Problem
  | list => .expectedListEnd
  | object => .expectedObjectEnd

end Enclosure

/-- Goes over a key with its colon. -/
def skipKey : Reader Unit := do
  match ← peekToken? with
  | none => failAhead .endInObject
  | some b =>
    if b = byte '"' then
      skip
      skipString
      match ← peekToken? with
      | none => failAhead .endInObject
      | some b => if b = byte ':' then skip else failAhead .expectedColon
    else failAhead .keyIsNoString

/-- Goes over what stands before a value of an enclosure. -/
def enter : Enclosure → Reader Unit
  | .list => return ()
  | .object => skipKey

/-- Goes over a value of which only the first byte, the given one, was looked at;
    if it opens a list or object, only over that byte. -/
def skipStart (b : UInt8) : Reader (Option Enclosure) := do
  if b = byte '[' then
    skip
    return some .list
  else if b = byte '{' then
    skip
    return some .object
  else
    if b = byte 'n' then
      skip
      expectWord ['u', 'l', 'l']
    else if b = byte 't' then
      skip
      expectWord ['r', 'u', 'e']
    else if b = byte 'f' then
      skip
      expectWord ['a', 'l', 's', 'e']
    else if b = byte '-' || isDigit b then skipNumber
    else if b = byte '"' then
      skip
      skipString
    else failAhead .expectedValue
    return none

/-- Closes all enclosures that end here, the innermost first, and goes on to the
    next value, if any. `afterValue` tells whether the innermost has a value
    already. Those that stay open are returned. -/
def leave (afterValue : Bool) : List Enclosure → Reader (List Enclosure)
  | [] => return []
  | inner :: outer => do
    match ← peekToken? with
    | none => failAhead inner.endInside
    | some b =>
      if b = inner.stop then
        skip
        leave true outer
      -- The first value needs no comma before it.
      else if !afterValue then
        enter inner
        return inner :: outer
      else if b = byte ',' then
        skip
        enter inner
        return inner :: outer
      else failAhead inner.notContinued

/-- Goes over a value that lies in some enclosures, and over all that follows it
    in them. A document has at most as many values as bytes: `fuel` is their
    number. -/
def skipWithin : Nat → List Enclosure → Reader Unit
  | 0, _ => failAhead .endInValue
  | fuel + 1, outer => do
    match ← peekToken? with
    | none => failAhead .endInValue
    | some b =>
      let still ← match ← skipStart b with
        | some inner => leave false (inner :: outer)
        | none => leave true outer
      match still with
      | [] => return ()
      | still => skipWithin fuel still

/-- Goes over a value. -/
def skipValue : Reader Unit := do skipWithin (← bound) []

end ElmIntake.Json.Reader
