import XPathQuery.Character.Space

/-!
Texts are lists of characters here. Trimming and splitting into words use space
in the wide sense, a search finds the leftmost occurrence, and translating
replaces or drops characters one by one.
-/
namespace XPathQuery.Text

open Character

def trimStart (cs : List Char) : List Char := cs.dropWhile isSpace

def trimEnd (cs : List Char) : List Char := (cs.reverse.dropWhile isSpace).reverse

def trim (cs : List Char) : List Char := trimEnd (trimStart cs)

/-- The pieces between spaces, empty ones included, so there is always one. -/
def pieces : List Char → List (List Char)
  | [] => [[]]
  | c :: cs =>
      if isSpace c then [] :: pieces cs
      else
        match pieces cs with
        | [] => [[c]]
        | piece :: rest => (c :: piece) :: rest

/-- The maximal runs of other characters than spaces. -/
def words (cs : List Char) : List (List Char) := (pieces cs).filter (!·.isEmpty)

def joinWords : List (List Char) → List Char
  | [] => []
  | [word] => word
  | word :: rest => word ++ ' ' :: joinWords rest

def normalizeSpace (cs : List Char) : List Char := joinWords (words cs)

/-- The text before and after the leftmost occurrence of `needle`. -/
def splitAt? (needle : List Char) : List Char → Option (List Char × List Char)
  | [] => if needle.isEmpty then some ([], []) else none
  | c :: cs =>
      if needle.isPrefixOf (c :: cs) then some ([], (c :: cs).drop needle.length)
      else (splitAt? needle cs).map fun (before, after) => (c :: before, after)

def contains (needle cs : List Char) : Bool := (splitAt? needle cs).isSome

/-- The place of the first occurrence of a character. -/
def place? (c : Char) : List Char → Option Nat
  | [] => none
  | d :: ds => if c = d then some 0 else (place? c ds).map (· + 1)

/-- Each character of `source` becomes the one at the same place of `target`, or
vanishes where `target` is too short. The first place counts. -/
def translate (source target cs : List Char) : List Char :=
  cs.filterMap fun c =>
    match place? c source with
    | some i => target[i]?
    | none => some c

end XPathQuery.Text
