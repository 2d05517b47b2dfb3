import XPathQuery.Character.LowerCase
import XPathQuery.Compiled
import XPathQuery.CommandLine
import XPathQuery.Evaluation
import XPathQuery.Expr.Equality
import XPathQuery.Expr.Parse
import XPathQuery.Main
import XPathQuery.Markup.Document
import XPathQuery.Namespaces
import XPathQuery.Selection.Basic
import XPathQuery.Selection.Query
import XPathQuery.Tree.Handle
import XPathQuery.Proofs.DocumentOrder
import XPathQuery.Proofs.TreeAddresses
import XPathQuery.Proofs.WellFormedTree
import XPathQuery.Proofs.AxisNodes
import XPathQuery.Proofs.EvaluationSteps
import XPathQuery.Proofs.LocationPath
import XPathQuery.Proofs.NodeSetOrder
import XPathQuery.Proofs.Subexpressions
import XPathQuery.Proofs.FunctionTypes
import XPathQuery.Proofs.BoundExpressions
import XPathQuery.Proofs.StaticTypes
import XPathQuery.Proofs.TypeSoundness
import XPathQuery.Proofs.EvaluationOrder
import XPathQuery.Proofs.EvaluatedParts
import XPathQuery.Proofs.NameResolution
import XPathQuery.Proofs.EvaluationErrors
import XPathQuery.Proofs.Lexemes
import XPathQuery.Proofs.ExpressionGrammar
import XPathQuery.Proofs.StepSoundness
import XPathQuery.Proofs.ParserSoundness
import XPathQuery.Proofs.RemainingText
import XPathQuery.Proofs.StepCompleteness
import XPathQuery.Proofs.ParserCompleteness
import XPathQuery.Proofs.ParsedExpressions
import XPathQuery.Proofs.WrittenExpressions
import XPathQuery.Proofs.WrittenDerivations
import XPathQuery.Proofs.ParseRoundtrip
import XPathQuery.Proofs.PrefixRenaming
import XPathQuery.Proofs.NamespaceScopes
import XPathQuery.Proofs.WrittenScopes
import XPathQuery.Proofs.NamespacesAround
import XPathQuery.Proofs.WrittenNames
import XPathQuery.Proofs.ReportedNames
import XPathQuery.Proofs.LexemeBoundaries
import XPathQuery.Proofs.Respacing
import XPathQuery.Proofs.RespacedExpressions
import XPathQuery.Proofs.ContextIndependence
import XPathQuery.Proofs.CursorCalls
import XPathQuery.Proofs.BindingLists
import XPathQuery.Proofs.WrittenBindings
import XPathQuery.Proofs.OverriddenBindings
import XPathQuery.Proofs.NamespaceLookups
import XPathQuery.Proofs.DocumentTrees
import XPathQuery.Proofs.TextValues
import XPathQuery.Proofs.HandleOrder
import XPathQuery.Proofs.DocumentHandles
import XPathQuery.Proofs.AbbreviatedExpressions
import XPathQuery.Proofs.ParsedAbbreviations
import XPathQuery.Proofs.ComparedResults
import XPathQuery.Proofs.EagerEvaluation
import XPathQuery.Proofs.ExactCounts
import XPathQuery.Proofs.JoinedPredicates
import XPathQuery.Proofs.DescendantSteps
import XPathQuery.Proofs.PredicateNumbering
import XPathQuery.Proofs.TemplateMarkers
import XPathQuery.Proofs.CollectedNodes
import XPathQuery.Proofs.NodeSetUnions
import XPathQuery.Proofs.AxisLoops
import XPathQuery.Proofs.ValueComparisons
import XPathQuery.Proofs.SearchFunctions
import XPathQuery.Proofs.NormalizedSpace
import XPathQuery.Proofs.DeclaredLanguages
import XPathQuery.Proofs.LeftoverText
import XPathQuery.Proofs.NearestRanks
import XPathQuery.Proofs.NumberTexts
import XPathQuery.Proofs.WrittenNumbers
import XPathQuery.Proofs.NearestIntegers
