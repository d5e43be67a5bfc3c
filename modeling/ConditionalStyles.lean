import ConditionalStyles.Main
import ConditionalStyles.Proofs.HookTruth
import ConditionalStyles.Proofs.Groupings
import ConditionalStyles.Proofs.Nodes
import ConditionalStyles.Proofs.StylesheetShape
import ConditionalStyles.Proofs.ReadBack
import ConditionalStyles.Proofs.ConditionGrammar
import ConditionalStyles.Proofs.SkippedHooks
import ConditionalStyles.Proofs.ArgumentItems
import ConditionalStyles.Proofs.PrintedJson
import ConditionalStyles.Proofs.CanonicalText
import ConditionalStyles.Proofs.LastDeclaration
import ConditionalStyles.Proofs.StagedFlattening
import ConditionalStyles.Proofs.SingleProperty
import ConditionalStyles.Proofs.Levels
import ConditionalStyles.Proofs.Hoisting
import ConditionalStyles.Proofs.Independence
import ConditionalStyles.Proofs.DeclaredReferences
import ConditionalStyles.Proofs.MergedFragments
import ConditionalStyles.Proofs.IdleBranches
import ConditionalStyles.Proofs.KeyOrder
import ConditionalStyles.Proofs.PrintedNumbers
import ConditionalStyles.Proofs.IndentedJson
import ConditionalStyles.Proofs.ReadValues
import ConditionalStyles.Proofs.StyleJson
import ConditionalStyles.Proofs.PrintedStyles
import ConditionalStyles.Proofs.HashNumerals
import ConditionalStyles.Proofs.LastWrites
import ConditionalStyles.Proofs.OperandNames
import ConditionalStyles.Proofs.NearestDoubles
import ConditionalStyles.Proofs.StyleRoundTrip
import ConditionalStyles.Proofs.LeafRules
import ConditionalStyles.Proofs.NearestDecimals
import ConditionalStyles.Proofs.PropertySpellings
import ConditionalStyles.Proofs.ShortestDecimals
import ConditionalStyles.Proofs.PlainNumbers
import ConditionalStyles.Proofs.StylesheetText
