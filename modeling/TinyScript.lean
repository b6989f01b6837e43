import TinyScript.Machine
import TinyScript.Main
import TinyScript.Program.OfJson
import TinyScript.Program.Printer
import TinyScript.Proofs.Recognition
import TinyScript.Text.Utf8
import TinyScript.Proofs.Acceptance
import TinyScript.Proofs.Unambiguous
import TinyScript.Proofs.Numerals
import TinyScript.Proofs.Scanning
import TinyScript.Proofs.Gaps
import TinyScript.Proofs.MaximalMunch
import TinyScript.Proofs.Simulation
import TinyScript.Proofs.WellFormed
import TinyScript.Proofs.Lexis
import TinyScript.Proofs.PrintRoundTrip
import TinyScript.Proofs.CppReader
import TinyScript.Proofs.EmitRoundTrip
import TinyScript.Proofs.Moved
import TinyScript.Proofs.Concatenation
import TinyScript.Proofs.FileFrames
import TinyScript.Proofs.InputKept
import TinyScript.Proofs.JsonNumerals
import TinyScript.Proofs.JsonText
import TinyScript.Proofs.JsonRoundTrip
import TinyScript.Proofs.ExactPlaces
import TinyScript.Proofs.JsonNesting
import TinyScript.Proofs.Prediction
import TinyScript.Proofs.CorrectPrefix
import TinyScript.Proofs.Constants
import TinyScript.Proofs.OnDemand
import TinyScript.Proofs.Resumption
import TinyScript.Proofs.Spacing
import TinyScript.Proofs.WrittenFiles
import TinyScript.Proofs.FailedRuns
import TinyScript.Proofs.EmitConcatenation
import TinyScript.Proofs.EmissionInOnePass
import TinyScript.Proofs.FewestParentheses
import TinyScript.Proofs.DeliveredFiles
import TinyScript.Proofs.KeptTokens
import TinyScript.Proofs.Indentation
import TinyScript.Proofs.JsonSpelling
import TinyScript.Proofs.JsonReadings
import TinyScript.Proofs.JsonFields
import TinyScript.Proofs.JsonValues
import TinyScript.Proofs.JsonNodes
import TinyScript.Proofs.JsonRearranged
import TinyScript.Proofs.ArtifactPaths
import TinyScript.Proofs.FileUpdates
import TinyScript.Proofs.CppLiterals
import TinyScript.Proofs.BlockComments
import TinyScript.Proofs.HeaderRequests
import TinyScript.Proofs.RequestsInPlace
