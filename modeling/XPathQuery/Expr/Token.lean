import XPathQuery.Character.Letter
import XPathQuery.Character.Space
import XPathQuery.Expr.Basic
import XPathQuery.Number.Decimal

/-!
Tokens of expressions. A reader takes a text and gives what it read together
with the rest, or nothing when the text does not begin with what it reads; it
then reads no part of it. Names are as long as possible, and a word that ends
where a name character follows is no keyword.
-/
namespace XPathQuery

abbrev Reader (α : Type) := List Char → Option (α × List Char)

namespace Token

open Character

def skipBlanks (cs : List Char) : List Char := cs.dropWhile isBlank

def isNameStart (c : Char) : Bool := isLetter c || c == '_'

def isNameChar (c : Char) : Bool :=
  isLetter c || isNumeral c || c == '_' || c == '-' || c == '.'

/-- The rest after a fixed text. -/
def symbol (word : String) (cs : List Char) : Option (List Char) :=
  word.toList.isPrefixOf? cs

/-- The rest after a fixed text and the blanks around it. -/
def spaced (word : String) (cs : List Char) : Option (List Char) :=
  (symbol word (skipBlanks cs)).map skipBlanks

/-- The rest after a word that is not the beginning of a longer name. -/
def keyword (word : String) (cs : List Char) : Option (List Char) :=
  match symbol word cs with
  | some (c :: rest) => if isNameChar c then none else some (c :: rest)
  | other => other

/-- Reads the one operator that a text begins with, of several spellings. -/
def firstOf {α : Type} (spellings : List (α × (List Char → Option (List Char)))) : Reader α :=
  fun cs => spellings.findSome? fun (meaning, spelling) =>
    (spelling cs).map fun rest => (meaning, rest)

def name : Reader (List Char)
  | [] => none
  | c :: cs =>
      if isNameStart c then some (c :: cs.takeWhile isNameChar, cs.dropWhile isNameChar)
      else none

/-- A name with an optional prefix. A colon that no name follows is not read. -/
def qualifiedName : Reader (Option (List Char) × List Char) := fun cs =>
  match name cs with
  | none => none
  | some (first, rest) =>
      match (symbol ":" rest).bind name with
      | some (second, rest) => some ((some first, second), rest)
      | none => some ((none, first), rest)

/-- The characters of a literal between two equal quotes, either of two kinds. -/
def literal : Reader (List Char)
  | [] => none
  | quote :: cs =>
      if quote == '\'' || quote == '"' then
        match cs.dropWhile (· != quote) with
        | [] => none
        | _ :: rest => some (cs.takeWhile (· != quote), rest)
      else none

/-- Digits with an optional point and fraction, or a point and a fraction. The
fraction after other digits counts only when something follows it: at the very
end of the text it is read, but the number is the whole one before the point. -/
def digits : Reader (List Char) := fun cs =>
  let whole := cs.takeWhile Char.isDigit
  let rest := cs.dropWhile Char.isDigit
  match whole, rest with
  | [], '.' :: rest =>
      match rest.takeWhile Char.isDigit with
      | [] => none
      | fraction => some ('.' :: fraction, rest.dropWhile Char.isDigit)
  | [], _ => none
  | whole, '.' :: rest =>
      match rest.dropWhile Char.isDigit with
      | [] => some (whole, [])
      | after => some (whole ++ '.' :: rest.takeWhile Char.isDigit, after)
  | whole, rest => some (whole, rest)

def number : Reader Double := fun cs =>
  (digits cs).map fun (numeral, rest) => (Double.ofDigits false numeral, rest)

/-- Reads as often as possible, but not more often than `bound` has elements. -/
def manyWithin {α : Type} (reader : Reader α) : List Char → List Char → List α × List Char
  | [], cs => ([], cs)
  | _ :: bound, cs =>
      match reader cs with
      | none => ([], cs)
      | some (a, rest) =>
          let (as, rest) := manyWithin reader bound rest
          (a :: as, rest)

/-- Reads as often as possible. Every reading takes at least one character, so
the text itself bounds their number. -/
def many {α : Type} (reader : Reader α) (cs : List Char) : List α × List Char :=
  manyWithin reader cs cs

end Token

end XPathQuery
