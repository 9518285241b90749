import CiPlan.Main
import CiPlan.Proofs.Nightly
import CiPlan.Proofs.Fair
import CiPlan.Proofs.Isolation
import CiPlan.Proofs.Cancellation
import CiPlan.Proofs.Scheduling
import CiPlan.Proofs.Grammar
import CiPlan.Proofs.Spelling
import CiPlan.Proofs.Canonical
import CiPlan.Proofs.Language
import CiPlan.Proofs.Layout
import CiPlan.Proofs.Faults
import CiPlan.Proofs.Budget
import CiPlan.Proofs.Disclosure
import CiPlan.Proofs.MaskedListing
import CiPlan.Proofs.Sharing
import CiPlan.Proofs.ExitCodes
import CiPlan.Proofs.Defects
import CiPlan.Proofs.Source
import CiPlan.Proofs.Secrets
import CiPlan.Proofs.Cut
import CiPlan.Proofs.BackOff
import CiPlan.Proofs.Override
import CiPlan.Proofs.Usable
import CiPlan.Proofs.Loading
import CiPlan.Proofs.CommandLine
import CiPlan.Proofs.RedactedPlan
import CiPlan.Proofs.Vocabulary
import CiPlan.Proofs.Routing
import CiPlan.Proofs.ConfiguredProfiles
import CiPlan.Proofs.ErrorPositions
import CiPlan.Proofs.Parentheses
import CiPlan.Proofs.Records
import CiPlan.Proofs.RoundTrip
import CiPlan.Proofs.Decoding
import CiPlan.Proofs.OutputTail
import CiPlan.Proofs.FailureReason
import CiPlan.Proofs.ListingLines
