import ClientGen.Document.Printer
import ClientGen.Host.Disk
import ClientGen.Host.Session
import ClientGen.Main
import ClientGen.Proofs.Conversion
import ClientGen.Proofs.Composition
import ClientGen.Proofs.Views
import ClientGen.Proofs.Descent
import ClientGen.Proofs.Expansion
import ClientGen.Proofs.Preparation
import ClientGen.Proofs.Reference
import ClientGen.Proofs.Termination
import ClientGen.Proofs.Idempotence
import ClientGen.Proofs.ClosedWorld
import ClientGen.Proofs.Endlessness
import ClientGen.Proofs.Inlining
import ClientGen.Proofs.Chains
import ClientGen.Proofs.Repetition
import ClientGen.Proofs.Ways
import ClientGen.Proofs.PreparedNodes
import ClientGen.Proofs.Aliases
import ClientGen.Proofs.PreparedReferences
import ClientGen.Proofs.Fields
import ClientGen.Proofs.Lookups
import ClientGen.Proofs.Calls
import ClientGen.Proofs.Execution
import ClientGen.Proofs.Places
import ClientGen.Proofs.Guard
import ClientGen.Proofs.Sequence
import ClientGen.Proofs.Switches
import ClientGen.Proofs.Outputs
import ClientGen.Proofs.Resolution
import ClientGen.Proofs.Isolation
import ClientGen.Proofs.Arguments
import ClientGen.Proofs.Confinement
import ClientGen.Proofs.ValidNames
import ClientGen.Proofs.Emptiness
import ClientGen.Proofs.Profiles
import ClientGen.Proofs.TypeAliases
import ClientGen.Proofs.EmptyClasses
import ClientGen.Proofs.Comments
import ClientGen.Proofs.FilePieces
import ClientGen.Proofs.CommentedFiles
import ClientGen.Proofs.FilePaths
import ClientGen.Proofs.RoundTrip
import ClientGen.Proofs.NumericConstants
import ClientGen.Proofs.Redeclaration
import ClientGen.Proofs.RequiredFields
import ClientGen.Proofs.SettledProfiles
import ClientGen.Proofs.EscapedNames
import ClientGen.Proofs.Registration
import ClientGen.Proofs.QuotedNames
import ClientGen.Proofs.MinusWords
import ClientGen.Proofs.Containers
