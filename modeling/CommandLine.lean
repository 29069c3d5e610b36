import CommandLine.Main
import CommandLine.Inspect
import CommandLine.Invocation
import CommandLine.Schema.Arguments
import CommandLine.Schema.Source
import CommandLine.Schema.Values
import CommandLine.Proofs.Table.Construction
import CommandLine.Proofs.Parse.Destination
import CommandLine.Proofs.Parse.FirstFault
import CommandLine.Proofs.Parse.References
import CommandLine.Proofs.Parse.Inlining
import CommandLine.Proofs.Parse.Interleaving
import CommandLine.Proofs.Parse.Rendering
import CommandLine.Proofs.Parse.Respelling
import CommandLine.Proofs.Parse.Exclusivity
import CommandLine.Proofs.Parse.Obsolescence
import CommandLine.Proofs.Parse.Padding
import CommandLine.Proofs.Parse.Absence
import CommandLine.Proofs.ResponseFile.Joining
import CommandLine.Proofs.Slot.Filling
import CommandLine.Proofs.Text.Encoding
import CommandLine.Proofs.Parse.Succession
import CommandLine.Proofs.Parse.Bookkeeping
import CommandLine.Proofs.Parse.Rearrangement
import CommandLine.Proofs.Schema.Agreement
import CommandLine.Proofs.Token.Separators
import CommandLine.Proofs.Parse.Outcome
import CommandLine.Proofs.Parse.Nesting
import CommandLine.Proofs.Token.Slices
import CommandLine.Proofs.Slot.Acceptance
import CommandLine.Proofs.Table.Policies
import CommandLine.Proofs.Schema.Alternatives
import CommandLine.Proofs.Usage.Lookup
import CommandLine.Proofs.Schema.Documentation
import CommandLine.Proofs.Usage.Margin
