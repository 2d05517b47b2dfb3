import XPathQuery.Markup.Reference

/-!
Names, attributes and tags. Every reader gives what it read and the rest of the
text, or nothing when the text is not well-formed.
-/
namespace XPathQuery.Markup

open Character

def skipBlanks (cs : List Char) : List Char := cs.dropWhile isBlank

def symbol (word : String) (cs : List Char) : Option (List Char) :=
  word.toList.isPrefixOf? cs

/-- A text of allowed characters up to the leftmost `marker`, and what follows it. -/
def upTo (marker : String) (cs : List Char) : Option (List Char × List Char) :=
  match Text.splitAt? marker.toList cs with
  | some (before, after) => if before.all isAllowed then some (before, after) else none
  | none => none

def startsName : List Char → Bool
  | [] => false
  | c :: _ => isNameStart c

/-- A name with at most one colon. Both parts begin like a name; an empty prefix
is none. -/
def writtenName (cs : List Char) : Option (WrittenName × List Char) :=
  let run := cs.takeWhile isNameChar
  let rest := cs.dropWhile isNameChar
  if run.count ':' = 0 then
    if startsName run then some (⟨"", String.ofList run⟩, rest) else none
  else
    let before := run.takeWhile (· != ':')
    let after := (run.dropWhile (· != ':')).drop 1
    if run.count ':' = 1 && (before.isEmpty || startsName before) && startsName after then
      some (⟨String.ofList before, String.ofList after⟩, rest)
    else none

/-- An attribute with its value as written between the quotes. -/
def rawAttribute (cs : List Char) : Option ((WrittenName × List Char) × List Char) :=
  match writtenName cs with
  | none => none
  | some (name, rest) =>
      match (symbol "=" (skipBlanks rest)).map skipBlanks with
      | some (quote :: rest) =>
          let value := rest.takeWhile fun c => c != quote && c != '<'
          let rest := rest.dropWhile fun c => c != quote && c != '<'
          if (quote == '"' || quote == '\'') && value.all isAllowed && rest.head? == some quote then
            some ((name, value), rest.drop 1)
          else none
      | _ => none

def writtenAttribute (cs : List Char) : Option (WrittenAttribute × List Char) :=
  match rawAttribute cs with
  | none => none
  | some ((name, value), rest) =>
      (pieces value).map fun ps => (⟨name, String.ofList (attributeText ps)⟩, rest)

inductive TagEnd
  | opened
  | empty
deriving DecidableEq, Repr

/-- The attributes of a start tag and its end. White space stands before every
attribute. There are no more of them than `bound` has elements. -/
def attributesWithin : List Char → List Char →
    Option ((List WrittenAttribute × TagEnd) × List Char)
  | [], _ => none
  | _ :: bound, cs =>
      match skipBlanks cs with
      | '>' :: rest => some (([], .opened), rest)
      | '/' :: '>' :: rest => some (([], .empty), rest)
      | start =>
          if (cs.head?.map isBlank).getD false then
            match writtenAttribute start with
            | none => none
            | some (a, rest) =>
                (attributesWithin bound rest).map fun ((as, tagEnd), rest) =>
                  ((a :: as, tagEnd), rest)
          else none

structure StartTag where
  name : WrittenName
  attributes : List WrittenAttribute
  tagEnd : TagEnd

/-- A start tag after its opening bracket. -/
def startTag (cs : List Char) : Option (StartTag × List Char) :=
  match writtenName cs with
  | none => none
  | some (name, rest) =>
      if name.nsPrefix = "xmlns" then none
      else
        (attributesWithin (' ' :: rest) rest).map fun ((attributes, tagEnd), rest) =>
          (⟨name, attributes, tagEnd⟩, rest)

/-- An end tag after its opening bracket and slash. -/
def endTag (cs : List Char) : Option (WrittenName × List Char) :=
  match writtenName cs with
  | none => none
  | some (name, rest) => (symbol ">" (skipBlanks rest)).map fun rest => (name, rest)

/-- A comment after its opening. Two hyphens stand only at its end. -/
def comment (cs : List Char) : Option (Item × List Char) :=
  match upTo "-->" cs with
  | none => none
  | some (content, rest) =>
      if Text.contains ['-', '-'] content || content.getLast? == some '-' then none
      else some (.comment (String.ofList content), rest)

/-- A processing instruction after its opening. White space before the content is
dropped, and no instruction looks like an XML declaration. -/
def instruction (cs : List Char) : Option (Item × List Char) :=
  let target := cs.takeWhile isNameChar
  let rest := cs.dropWhile isNameChar
  if (symbol "xml " cs).isSome || !startsName target then none
  else
    (upTo "?>" (skipBlanks rest)).map fun (content, rest) =>
      (.instruction (String.ofList target) (String.ofList content), rest)

end XPathQuery.Markup
