import IdlSchema.Main
import IdlSchema.Disk.Disk
import IdlSchema.Schema.Query
import IdlSchema.Tree.Encode
import IdlSchema.Proofs.Digraph.Components
import IdlSchema.Proofs.Files.DependencyOrder
import IdlSchema.Proofs.Types.Growth
import IdlSchema.Proofs.Types.SameType
import IdlSchema.Proofs.Link.Names
import IdlSchema.Proofs.Diagnostics
import IdlSchema.Proofs.Link.References
import IdlSchema.Proofs.Link.Types
import IdlSchema.Proofs.Link.TypedefCycles
import IdlSchema.Proofs.Link.Linked
import IdlSchema.Proofs.Constants.Plan
import IdlSchema.Proofs.Constants.Elaboration
import IdlSchema.Proofs.Constants.Memo
import IdlSchema.Proofs.Constants.CheckedModel
import IdlSchema.Proofs.Constants.PlanInvariant
import IdlSchema.Proofs.Link.ResolvedTypes
import IdlSchema.Proofs.Constants.ClearChecks
import IdlSchema.Proofs.Link.KeptDeclarations
import IdlSchema.Proofs.Schema.FullyLinked
import IdlSchema.Proofs.Constants.Demands
import IdlSchema.Proofs.Constants.PlanImages
import IdlSchema.Proofs.Constants.MirroredValues
import IdlSchema.Proofs.Link.ParallelNames
import IdlSchema.Proofs.Link.DeclaredConstants
import IdlSchema.Proofs.Link.ParallelLinks
import IdlSchema.Proofs.Link.ReorderedConstants
import IdlSchema.Proofs.Constants.TypedValues
import IdlSchema.Proofs.Schema.WellTyped
import IdlSchema.Proofs.Files.Renaming
import IdlSchema.Proofs.Link.UnresolvedNames
import IdlSchema.Proofs.Types.Operations
import IdlSchema.Proofs.Types.Unfoldings
import IdlSchema.Proofs.Link.ProblemKinds
import IdlSchema.Proofs.Link.TypedefGroups
import IdlSchema.Proofs.Constants.ReferenceCycles
import IdlSchema.Proofs.Rules.Violations
import IdlSchema.Proofs.Rules.Inheritance
import IdlSchema.Proofs.Link.TypeNames
import IdlSchema.Proofs.Schema.ObeyedRules
import IdlSchema.Proofs.Constants.MirroredChecks
import IdlSchema.Proofs.Rules.MirroredRules
import IdlSchema.Proofs.Schema.ReplacedNames
import IdlSchema.Proofs.Types.Consistency
import IdlSchema.Proofs.Files.IncludeDepth
import IdlSchema.Proofs.StateRuns
import IdlSchema.Proofs.Types.Readings
import IdlSchema.Proofs.Types.Renumbering
import IdlSchema.Proofs.Link.AlikeModels
import IdlSchema.Proofs.Constants.RenumberedPlans
import IdlSchema.Proofs.Constants.RenumberedChecks
import IdlSchema.Proofs.Rules.RenumberedRules
import IdlSchema.Proofs.Rules.ProblemKinds
import IdlSchema.Proofs.Link.AcceptedNames
import IdlSchema.Proofs.Link.ShuffledFiles
import IdlSchema.Proofs.Link.RenumberedScopes
import IdlSchema.Proofs.Link.RenumberedModels
import IdlSchema.Proofs.Schema.RearrangedLinks
import IdlSchema.Proofs.Files.FoundFiles
import IdlSchema.Proofs.Files.RootOrder
import IdlSchema.Proofs.Link.QualifiedIncludes
import IdlSchema.Proofs.Link.MirroredTrees
import IdlSchema.Proofs.Link.FirstNames
import IdlSchema.Proofs.SideBySide
import IdlSchema.Proofs.Tree.Unplaced
import IdlSchema.Proofs.Types.Unplaced
import IdlSchema.Proofs.Files.Unplaced
import IdlSchema.Proofs.Link.UnplacedScopes
import IdlSchema.Proofs.Link.UnplacedModels
import IdlSchema.Proofs.Constants.UnplacedChecks
import IdlSchema.Proofs.Rules.UnplacedRules
import IdlSchema.Proofs.Schema.UnplacedBuilds
import IdlSchema.Proofs.Tree.FileTexts
import IdlSchema.Proofs.Schema.WarningSettings
import IdlSchema.Proofs.Schema.VisibleViolations
import IdlSchema.Proofs.Schema.KeptRoots
import IdlSchema.Proofs.Link.TypedefWalks
import IdlSchema.Proofs.Link.TypeResolution
import IdlSchema.Proofs.Constants.JudgedNodes
import IdlSchema.Proofs.Rules.RepeatedKeys
import IdlSchema.Proofs.Link.EnumValues
import IdlSchema.Snippet.ByteRange
import IdlSchema.Proofs.Snippet.ByteRanges
import IdlSchema.Proofs.Places
import IdlSchema.Proofs.Digraph.CyclePaths
import IdlSchema.Proofs.Rules.InheritedMethods
import IdlSchema.Proofs.Rules.ServiceCycles
import IdlSchema.Proofs.Schema.ServiceInheritance
import IdlSchema.Proofs.Schema.WrittenBlocks
import IdlSchema.Proofs.Path.NormalPaths
import IdlSchema.Proofs.Disk.LoadedOnce
import IdlSchema.Proofs.Disk.SearchedDirectories
import IdlSchema.Proofs.Types.AliasChains
import IdlSchema.Proofs.Schema.DisplayedNames
