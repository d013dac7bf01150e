import AccessProfiler.Exchange.LogResults
import AccessProfiler.Exchange.Options
import AccessProfiler.Exchange.Results
import AccessProfiler.Image.Decode
import AccessProfiler.Image.Encode
import AccessProfiler.Json.Reader
import AccessProfiler.Json.Writer
import AccessProfiler.Log.Summary
import AccessProfiler.Machine.Execution
import AccessProfiler.Pipeline
import AccessProfiler.Proofs.Acceptance
import AccessProfiler.Proofs.Overriding
import AccessProfiler.Proofs.WrappingPasses
import AccessProfiler.Proofs.ExactCounts
import AccessProfiler.Proofs.DenseSerials
import AccessProfiler.Proofs.ConservedPrograms
import AccessProfiler.Proofs.WrapperRequests
import AccessProfiler.Proofs.CheckedRuns
import AccessProfiler.Proofs.ImageReading
import AccessProfiler.Proofs.LookupOrder
import AccessProfiler.Proofs.ReturnedValues
import AccessProfiler.Proofs.LimitedRuns
import AccessProfiler.Proofs.Initialization
import AccessProfiler.Proofs.IntactRuns
import AccessProfiler.Proofs.InstrumentedImages
import AccessProfiler.Proofs.ReportedLines
import AccessProfiler.Proofs.CanonicalImages
import AccessProfiler.Proofs.UnsharedCounters
import AccessProfiler.Proofs.RepeatedInstrumentation
import AccessProfiler.Proofs.CountedAccesses
import AccessProfiler.Proofs.CountedTypes
import AccessProfiler.Proofs.RepairedBodies
import AccessProfiler.Proofs.WrapperConstructors
import AccessProfiler.Proofs.EditSequences
import AccessProfiler.Proofs.AssignableTypes
import AccessProfiler.Proofs.TrackedCalls
import AccessProfiler.Proofs.NearestDeclarations
import AccessProfiler.Proofs.TypeGrammar
import AccessProfiler.Proofs.LogPrefixes
import AccessProfiler.Proofs.DistinctLocals
import AccessProfiler.Proofs.ArrangedImages
