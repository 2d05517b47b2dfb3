import XPathQuery.Character.Ranges
import XPathQuery.Character.Space

/-!
Markup as it is written. An element keeps its attributes in the order of the
text, namespace declarations among them, and every name with the prefix it has
there. Texts and attribute values are those after references and line ends have
been replaced.
-/
namespace XPathQuery.Markup

/-- A name as written; without a prefix the prefix is empty. -/
structure WrittenName where
  nsPrefix : String
  localPart : String
deriving DecidableEq, Repr

structure WrittenAttribute where
  name : WrittenName
  value : String
deriving DecidableEq, Repr

inductive Item
  | element (name : WrittenName) (attributes : List WrittenAttribute) (content : List Item)
  | text (content : String)
  | comment (content : String)
  | instruction (target content : String)

/-- Characters that a document may hold. -/
def isAllowed (c : Char) : Bool :=
  if c.toNat < 0x20 then Character.isBlank c else c.toNat != 0xFFFE && c.toNat != 0xFFFF

/-- Code points that begin a name. -/
def nameStartRanges : List (Nat × Nat) :=
  [(0x3A, 0x3A), (0x41, 0x5A), (0x5F, 0x5F), (0x61, 0x7A), (0xC0, 0xD6), (0xD8, 0xF6),
    (0xF8, 0x2FF), (0x370, 0x37D), (0x37F, 0x1FFF), (0x200C, 0x200D), (0x2070, 0x218F),
    (0x2C00, 0x2FEF), (0x3001, 0xD7FF), (0xF900, 0xFDCF), (0xFDF0, 0xFFFD),
    (0x10000, 0xEFFFF)]

/-- Further code points that a name may hold after its beginning. -/
def nameFurtherRanges : List (Nat × Nat) :=
  [(0x2D, 0x2E), (0x30, 0x39), (0xB7, 0xB7), (0x300, 0x36F), (0x203F, 0x2040)]

def isNameStart (c : Char) : Bool := Character.inRanges c.toNat nameStartRanges

def isNameChar (c : Char) : Bool :=
  isNameStart c || Character.inRanges c.toNat nameFurtherRanges

end XPathQuery.Markup
