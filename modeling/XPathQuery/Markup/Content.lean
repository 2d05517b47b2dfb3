import XPathQuery.Markup.Tag

/-!
Content and whole documents. A document is a root element with comments, white
space and processing instructions around it; an XML declaration may come first
and a document type declaration is not accepted. Text and character data that
stand next to each other are one text.
-/
namespace XPathQuery.Markup

/-- Puts a text before some items, joined with a text they begin with. -/
def joinText (content : String) : List Item → List Item
  | .text following :: rest => .text (content ++ following) :: rest
  | items => .text content :: items

/-- Text up to the next tag. -/
def characterText (cs : List Char) : Option (String × List Char) :=
  let content := cs.takeWhile (· != '<')
  if content.all isAllowed && !Text.contains [']', ']', '>'] content then
    (pieces content).map fun ps =>
      (String.ofList (lineEnds ps), cs.dropWhile (· != '<'))
  else none

/-- A character data section after its opening. -/
def characterData (cs : List Char) : Option (String × List Char) :=
  (upTo "]]>" cs).map fun (content, rest) =>
    (String.ofList (lineEnds (content.map .plain)), rest)

/-- What content goes on with. -/
inductive Part
  | closing (name : WrittenName)
  | opening (tag : StartTag)
  | text (content : String)
  | item (item : Item)

def part (cs : List Char) : Option (Part × List Char) :=
  match cs with
  | '<' :: '/' :: rest => (endTag rest).map fun (name, rest) => (.closing name, rest)
  | '<' :: '?' :: rest => (instruction rest).map fun (item, rest) => (.item item, rest)
  | '<' :: '!' :: '-' :: '-' :: rest => (comment rest).map fun (item, rest) => (.item item, rest)
  | '<' :: '!' :: rest =>
      match symbol "[CDATA[" rest with
      | some rest => (characterData rest).map fun (content, rest) => (.text content, rest)
      | none => none
  | '<' :: rest => (startTag rest).map fun (tag, rest) => (.opening tag, rest)
  | cs => (characterText cs).map fun (content, rest) => (.text content, rest)

/-- The items up to the next end tag that closes none of them, and its name. The
items on all levels together are no more than `bound` has elements. -/
def contentWithin : List Char → List Char → Option ((List Item × WrittenName) × List Char)
  | [], _ => none
  | _ :: bound, cs =>
      match part cs with
      | none => none
      | some (.closing name, rest) => some (([], name), rest)
      | some (.item item, rest) =>
          (contentWithin bound rest).map fun ((items, name), rest) => ((item :: items, name), rest)
      | some (.text content, rest) =>
          (contentWithin bound rest).map fun ((items, name), rest) =>
            ((joinText content items, name), rest)
      | some (.opening tag, rest) =>
          match tag.tagEnd with
          | .empty =>
              (contentWithin bound rest).map fun ((items, name), rest) =>
                ((.element tag.name tag.attributes [] :: items, name), rest)
          | .opened =>
              match contentWithin bound rest with
              | none => none
              | some ((inner, closing), rest) =>
                  if closing = tag.name then
                    (contentWithin bound rest).map fun ((items, name), rest) =>
                      ((.element tag.name tag.attributes inner :: items, name), rest)
                  else none

/-- An element after its opening bracket. -/
def element (cs : List Char) : Option (Item × List Char) :=
  match startTag cs with
  | none => none
  | some (tag, rest) =>
      match tag.tagEnd with
      | .empty => some (.element tag.name tag.attributes [], rest)
      | .opened =>
          match contentWithin (' ' :: rest) rest with
          | some ((inner, closing), rest) =>
              if closing = tag.name then some (.element tag.name tag.attributes inner, rest)
              else none
          | none => none

/-- Comments and instructions with white space around them, no more than `bound`
has elements. -/
def miscWithin : List Char → List Char → Option (List Item × List Char)
  | [], cs => some ([], cs)
  | _ :: bound, cs =>
      let more (found : Option (Item × List Char)) :=
        match found with
        | some (item, rest) =>
            (miscWithin bound rest).map fun (items, rest) => (item :: items, rest)
        | none => none
      match skipBlanks cs with
      | '<' :: '!' :: '-' :: '-' :: rest => more (comment rest)
      | '<' :: '?' :: rest => more (instruction rest)
      | rest => some ([], rest)

def misc (cs : List Char) : Option (List Item × List Char) := miscWithin (' ' :: cs) cs

/-- White space, unless the XML declaration ends here. -/
def spaceOrEnd (cs : List Char) : Option (List Char) :=
  match cs with
  | [] => some []
  | c :: rest =>
      if Character.isBlank c then some (skipBlanks rest)
      else if (symbol "?>" cs).isSome then some cs
      else none

/-- An attribute of the XML declaration, whose name begins with `word`. -/
def declarationAttribute (word : String) (cs : List Char) : Option (List Char) :=
  if (symbol word cs).isSome then (rawAttribute cs).map Prod.snd else none

/-- An attribute that may be missing, and the space after it. -/
def optionalAttribute (word : String) (cs : List Char) : Option (List Char) :=
  if (symbol word cs).isSome then (declarationAttribute word cs).bind spaceOrEnd else some cs

/-- The rest after the XML declaration, if the text begins with one. -/
def skipDeclaration (cs : List Char) : Option (List Char) :=
  match symbol "<?xml " cs with
  | none => some cs
  | some rest => do
      let rest ← (declarationAttribute "version" (skipBlanks rest)).bind spaceOrEnd
      let rest ← optionalAttribute "encoding" rest
      let rest ←
        if (symbol "standalone" rest).isSome then declarationAttribute "standalone" rest
        else some rest
      symbol "?>" (skipBlanks rest)

/-- The items of a document, in order: the root element with what stands around it. -/
def document (cs : List Char) : Option (List Item) := do
  let cs := (symbol "\uFEFF" cs).getD cs
  let cs ← skipDeclaration cs
  let (before, cs) ← misc cs
  let (root, cs) ← (symbol "<" cs).bind element
  let (after, cs) ← misc cs
  if cs.isEmpty then some (before ++ root :: after) else none

end XPathQuery.Markup
