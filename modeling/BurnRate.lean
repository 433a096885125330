import BurnRate.Main
import BurnRate.Proofs.BatchExpressions
import BurnRate.Proofs.BuildCommand
import BurnRate.Proofs.DefinitionMarker
import BurnRate.Proofs.DefinitionSequence
import BurnRate.Proofs.FormatPrecedence
import BurnRate.Proofs.GroupLines
import BurnRate.Proofs.JoinKey
import BurnRate.Proofs.OptionPlacement
import BurnRate.Proofs.PipelineHistory
import BurnRate.Proofs.PlaceholderEffects
import BurnRate.Proofs.RatioTemplates
import BurnRate.Proofs.RecordedBudgets
import BurnRate.Proofs.RecordedDurations
import BurnRate.Proofs.RegisteredKinds
import BurnRate.Proofs.RuleFileRoundTrip
import BurnRate.Proofs.SeriesReferences
import BurnRate.Proofs.Substitution
import BurnRate.Proofs.ThroughputTargets
import BurnRate.Proofs.TrimmedTexts
import BurnRate.Proofs.ValidatedRules
import BurnRate.Proofs.WellFormedGroup
import BurnRate.Proofs.WindowExpansion
