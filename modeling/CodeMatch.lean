import CodeMatch.Abi.Codec
import CodeMatch.Abi.Name
import CodeMatch.Address
import CodeMatch.Batch.Coordinator
import CodeMatch.Batch.Race
import CodeMatch.Blueprint
import CodeMatch.Bytes
import CodeMatch.Code
import CodeMatch.CommandLine.Options
import CodeMatch.CommandLine.Run
import CodeMatch.CommandLine.World
import CodeMatch.Compiler
import CodeMatch.Constructor
import CodeMatch.Dict
import CodeMatch.Document
import CodeMatch.Json.Basic
import CodeMatch.Json.Text
import CodeMatch.Log
import CodeMatch.Main
import CodeMatch.Match
import CodeMatch.Matching
import CodeMatch.Node
import CodeMatch.Proofs.Abi.Decoded
import CodeMatch.Proofs.Abi.Extension
import CodeMatch.Proofs.Abi.Faults
import CodeMatch.Proofs.Abi.Frames
import CodeMatch.Proofs.Abi.RoundTrip
import CodeMatch.Proofs.Abi.Unknown
import CodeMatch.Proofs.Abi.Usable
import CodeMatch.Proofs.Abi.Words
import CodeMatch.Proofs.Address
import CodeMatch.Proofs.Arguments
import CodeMatch.Proofs.Arguments.Hostile
import CodeMatch.Proofs.Arguments.PrefixFree
import CodeMatch.Proofs.Arguments.Suffix
import CodeMatch.Proofs.AuditTrail
import CodeMatch.Proofs.Batch.Cancellation
import CodeMatch.Proofs.Batch.Ledger
import CodeMatch.Proofs.Batch.Memoryless
import CodeMatch.Proofs.Batch.Order
import CodeMatch.Proofs.Batch.Race
import CodeMatch.Proofs.Blueprint
import CodeMatch.Proofs.Blueprint.Canonical
import CodeMatch.Proofs.Blueprint.Grammar
import CodeMatch.Proofs.Classification
import CodeMatch.Proofs.CommandLine.Inputs
import CodeMatch.Proofs.CommandLine.Options
import CodeMatch.Proofs.CommandLine.Report
import CodeMatch.Proofs.Compiler.Grammar
import CodeMatch.Proofs.Compiler.Version
import CodeMatch.Proofs.DeclarationOrder
import CodeMatch.Proofs.Dict
import CodeMatch.Proofs.Differences
import CodeMatch.Proofs.Document.Code
import CodeMatch.Proofs.Document.Lossless
import CodeMatch.Proofs.Document.Record
import CodeMatch.Proofs.Document.Valid
import CodeMatch.Proofs.Document.Verdicts
import CodeMatch.Proofs.Hex
import CodeMatch.Proofs.Interface
import CodeMatch.Proofs.Interface.Refused
import CodeMatch.Proofs.Json.Limits
import CodeMatch.Proofs.Json.Pretty
import CodeMatch.Proofs.Json.Spelling
import CodeMatch.Proofs.Json.Written
import CodeMatch.Proofs.Links
import CodeMatch.Proofs.Match.Checked
import CodeMatch.Proofs.Match.Differing
import CodeMatch.Proofs.Match.Settled
import CodeMatch.Proofs.Match.Short
import CodeMatch.Proofs.Matching
import CodeMatch.Proofs.Node
import CodeMatch.Proofs.Numbers
import CodeMatch.Proofs.RangeCheck
import CodeMatch.Proofs.Records
import CodeMatch.Proofs.Relevance
import CodeMatch.Proofs.Report
import CodeMatch.Proofs.RoundTrip
import CodeMatch.Proofs.Settings
import CodeMatch.Proofs.Success
import CodeMatch.Proofs.Text.Integers
import CodeMatch.Proofs.Text.Numerals
import CodeMatch.Proofs.Transparency
import CodeMatch.Proofs.Values
import CodeMatch.Proofs.Values.Agreement
import CodeMatch.Proofs.Windows
import CodeMatch.Settings
import CodeMatch.Text
import CodeMatch.Verification
