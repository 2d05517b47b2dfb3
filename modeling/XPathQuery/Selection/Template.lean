import XPathQuery.Selection.Error
import XPathQuery.Text.Search

/-!
Expression templates. Every marker in a template, found from left to right, is
replaced by the next argument; what has been put in is not searched again. A
marker without an argument is an error or stays as it is.
-/
namespace XPathQuery

structure SelectConfig where
  placeholder : String := "\x7b\x7d"
  strict : Bool := true
deriving DecidableEq, Repr

namespace Template

/-- Replaces the markers of a text by arguments, of which `used` are taken already.
There are no more markers than `bound` has elements. -/
def fillWithin (marker : List Char) (strict : Bool) (failure : Nat → SelectError) :
    List Char → Nat → List (List Char) → List Char → Except SelectError (List Char)
  | [], _, _, cs => .ok cs
  | _ :: bound, used, arguments, cs =>
      match Text.splitAt? marker cs with
      | none => .ok cs
      | some (before, after) =>
          match arguments with
          | argument :: rest =>
              (fillWithin marker strict failure bound (used + 1) rest after).map
                fun filled => before ++ argument ++ filled
          | [] =>
              if strict then .error (failure (used + 1))
              else
                (fillWithin marker strict failure bound (used + 1) [] after).map
                  fun filled => before ++ marker ++ filled

/-- The expression of a template. Without arguments or without a marker to look for
the template is the expression. -/
def substitute (config : SelectConfig) (expression : String) (arguments : List String) :
    Except SelectError String :=
  if arguments.isEmpty || config.placeholder.isEmpty then .ok expression
  else
    let cs := expression.toList
    (fillWithin config.placeholder.toList config.strict
      (fun position => .missingArgument expression position arguments.length)
      (' ' :: cs) 0 (arguments.map String.toList) cs).map String.ofList

end Template

end XPathQuery
