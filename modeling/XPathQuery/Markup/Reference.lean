import XPathQuery.Markup.Basic
import XPathQuery.Text.Search

/-!
References and line ends. A reference stands for one character, which counts as
written out: it is neither a line end nor the space a tab or line end would
become in an attribute value. All other line ends become line feeds in text.
-/
namespace XPathQuery.Markup

def hexDigitValue? (c : Char) : Option Nat :=
  if c.isDigit then some (c.toNat - '0'.toNat)
  else if 'a' ≤ c && c ≤ 'f' then some (c.toNat - 'a'.toNat + 10)
  else if 'A' ≤ c && c ≤ 'F' then some (c.toNat - 'A'.toNat + 10)
  else none

def hexValue (cs : List Char) : Nat :=
  cs.foldl (fun value c => 16 * value + (hexDigitValue? c).getD 0) 0

def decimalValue (cs : List Char) : Nat :=
  cs.foldl (fun value c => 10 * value + (c.toNat - '0'.toNat)) 0

/-- The character of a numeric reference. Numbers of 32 bits that are no code
point stand for the replacement character, larger numbers for nothing. -/
def referencedChar? (value : Nat) : Option Char :=
  let c := if value.isValidChar then Char.ofNat value else '\uFFFD'
  if value < 0x100000000 && isAllowed c then some c else none

def namedChar? (name : List Char) : Option Char :=
  [("quot", '"'), ("amp", '&'), ("apos", '\''), ("lt", '<'), ("gt", '>')].lookup
    (String.ofList name)

/-- Reads what follows an ampersand, up to the semicolon. -/
def reference (cs : List Char) : Option (Char × List Char) :=
  let numeric (isDigit : Char → Bool) (value : List Char → Nat) (cs : List Char) :=
    match cs.takeWhile isDigit, cs.dropWhile isDigit with
    | [], _ => none
    | digits, ';' :: rest => (referencedChar? (value digits)).map fun c => (c, rest)
    | _, _ => none
  match cs with
  | '#' :: 'x' :: cs => numeric (fun c => (hexDigitValue? c).isSome) hexValue cs
  | '#' :: cs => numeric Char.isDigit decimalValue cs
  | cs =>
      match cs.takeWhile isNameChar, cs.dropWhile isNameChar with
      | name, ';' :: rest => (namedChar? name).map fun c => (c, rest)
      | _, _ => none

/-- One character of a text, written as itself or by a reference. -/
inductive Piece
  | plain (c : Char)
  | referenced (c : Char)
deriving DecidableEq, Repr

/-- The pieces of a text, of which there are no more than `bound` has elements. -/
def piecesWithin : List Char → List Char → Option (List Piece)
  | _, [] => some []
  | [], _ :: _ => none
  | _ :: bound, '&' :: cs =>
      match reference cs with
      | some (c, rest) => (piecesWithin bound rest).map (Piece.referenced c :: ·)
      | none => none
  | _ :: bound, c :: cs => (piecesWithin bound cs).map (Piece.plain c :: ·)

def pieces (cs : List Char) : Option (List Piece) := piecesWithin cs cs

/-- Adds a plain character to a text given last character first. A carriage
return waits for the next character, which may be the line feed that belongs to
it; as the last character of its text it becomes a line feed at once. -/
def addPlain (before : List Char) (c : Char) (isLast : Bool) : List Char :=
  match before with
  | '\r' :: older =>
      if isLast && c == '\r' then '\n' :: '\n' :: older
      else if c == '\n' then '\n' :: older
      else c :: '\n' :: older
  | _ => if isLast && c == '\r' then '\n' :: before else c :: before

/-- Replaces the line ends of a text that follows `before`, given last character
first. The character after a reference is taken as it is. -/
def lineEndsAfter (before : List Char) (afterReference : Bool) : List Piece → List Char
  | [] => before.reverse
  | .referenced c :: rest => lineEndsAfter (c :: before) true rest
  | .plain c :: rest =>
      lineEndsAfter (if afterReference then c :: before else addPlain before c rest.isEmpty)
        false rest

def lineEnds (ps : List Piece) : List Char := lineEndsAfter [] false ps

/-- Attribute values hold a space for every tab and line end. -/
def attributeText : List Piece → List Char
  | [] => []
  | .referenced c :: rest => c :: attributeText rest
  | .plain c :: rest =>
      if c == '\r' && rest.head? == some (.plain '\n') then attributeText rest
      else (if c == '\n' || c == '\r' || c == '\t' then ' ' else c) :: attributeText rest

end XPathQuery.Markup
