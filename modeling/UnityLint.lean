import UnityLint.Main
import UnityLint.Proofs.EngineMention
import UnityLint.Proofs.InjectedGuard
import UnityLint.Proofs.OptionalAccess
import UnityLint.Proofs.BaseWalk
import UnityLint.Proofs.ProperTree
import UnityLint.Proofs.EngineLookup
import UnityLint.Proofs.Verdict
import UnityLint.Proofs.Surroundings
import UnityLint.Proofs.VerdictAgreement
import UnityLint.Proofs.LookupAgreement
import UnityLint.Proofs.DroppedParts
import UnityLint.Proofs.Comments
import UnityLint.Proofs.AddedType
import UnityLint.Proofs.Shadowing
import UnityLint.Proofs.MemberTable
import UnityLint.Proofs.UnqualifiedBase
import UnityLint.Proofs.SymbolTable
import UnityLint.Proofs.Locations
import UnityLint.Proofs.MergedResult
import UnityLint.Proofs.RuleGroups
import UnityLint.Proofs.ExactReports
import UnityLint.Proofs.StoredResult
import UnityLint.Proofs.SeparatorStyle
import UnityLint.Proofs.JoinedPaths
import UnityLint.Proofs.LiteralGlobs
import UnityLint.Proofs.ExcludedDirectories
import UnityLint.Proofs.DiscoveredFiles
import UnityLint.Proofs.ReportedPaths
import UnityLint.Proofs.Substitution
import UnityLint.Proofs.BaseCycles
import UnityLint.Proofs.SettingsSearch
import UnityLint.Proofs.HeaderComments
import UnityLint.Proofs.LikeRows
import UnityLint.Proofs.LikeOutlines
import UnityLint.Proofs.NullPatterns
import UnityLint.Proofs.ListedDescriptors
import UnityLint.Proofs.ParentLinks
