import HeaderFlattening.Main
import HeaderFlattening.Files.Tree
import HeaderFlattening.Proofs.Run
import HeaderFlattening.Proofs.Emission
import HeaderFlattening.Proofs.Delivery
import HeaderFlattening.Proofs.Types
import HeaderFlattening.Proofs.Conservation
import HeaderFlattening.Proofs.Erasure
import HeaderFlattening.Proofs.Suppression
import HeaderFlattening.Proofs.Arrival
import HeaderFlattening.Proofs.Functions
import HeaderFlattening.Proofs.Elision
import HeaderFlattening.Proofs.Calls
import HeaderFlattening.Proofs.Words
import HeaderFlattening.Proofs.Yield
import HeaderFlattening.Proofs.ClassBody
import HeaderFlattening.Proofs.EnumBody
import HeaderFlattening.Proofs.Flattening
import HeaderFlattening.Proofs.Simulation
import HeaderFlattening.Proofs.Lockstep
import HeaderFlattening.Proofs.Capacity
import HeaderFlattening.Proofs.Overflow
import HeaderFlattening.Proofs.Concatenation
import HeaderFlattening.Proofs.Hoisting
import HeaderFlattening.Proofs.Kept
import HeaderFlattening.Proofs.FlatHeader
import HeaderFlattening.Proofs.Nesting
import HeaderFlattening.Proofs.Wrapper
import HeaderFlattening.Proofs.Divergence
import HeaderFlattening.Proofs.Alteration
import HeaderFlattening.Proofs.Idempotence
import HeaderFlattening.Proofs.FileConversion
import HeaderFlattening.Proofs.BlockComment
import HeaderFlattening.Proofs.FileTree
import HeaderFlattening.Proofs.Unindenting
import HeaderFlattening.Proofs.Spans
import HeaderFlattening.Proofs.Tame
import HeaderFlattening.Proofs.Faults
import HeaderFlattening.Proofs.Ledger
import HeaderFlattening.Proofs.Parameters
import HeaderFlattening.Proofs.Membership
import HeaderFlattening.Proofs.Report
import HeaderFlattening.Proofs.Methods
import HeaderFlattening.Proofs.StructBody
import HeaderFlattening.Proofs.Settings
import HeaderFlattening.Proofs.EnumSplice
import HeaderFlattening.Proofs.MethodLine
import HeaderFlattening.Proofs.ConstantLine
import HeaderFlattening.Proofs.Prototype
import HeaderFlattening.Proofs.Declarations
import HeaderFlattening.Proofs.Tokenization
import HeaderFlattening.Proofs.EnumComments
import HeaderFlattening.Proofs.Splicing
import HeaderFlattening.Proofs.Occurrences
import HeaderFlattening.Proofs.Templates
import HeaderFlattening.Proofs.Matches
import HeaderFlattening.Proofs.PrototypeLine
import HeaderFlattening.Proofs.OutputFolder
import HeaderFlattening.Proofs.FunctionDepth
