import Harvard16.Machine.Operation
import Harvard16.Main
import Harvard16.Proofs.Architecture
import Harvard16.Proofs.Listing
import Harvard16.Proofs.LabelTargets
import Harvard16.Proofs.Spelling
import Harvard16.Proofs.Reassembly
import Harvard16.Proofs.PolicyAgreement
import Harvard16.Proofs.Faults
import Harvard16.Proofs.Fetching
import Harvard16.Proofs.Atomicity
import Harvard16.Proofs.Conservation
import Harvard16.Proofs.StraightLine
import Harvard16.Proofs.CanonicalForm
import Harvard16.Proofs.Lockstep
import Harvard16.Proofs.Observation
import Harvard16.Proofs.Capacities
import Harvard16.Proofs.Relocation
import Harvard16.Proofs.Accounting
import Harvard16.Proofs.TwoPasses
import Harvard16.Proofs.FreshStart
import Harvard16.Proofs.RunStates
import Harvard16.Proofs.Place
import Harvard16.Proofs.Budgets
import Harvard16.Proofs.Rerun
import Harvard16.Proofs.Concatenation
import Harvard16.Proofs.Replacement
import Harvard16.Proofs.Faithfulness
import Harvard16.Proofs.EventLogs
import Harvard16.Proofs.DumpGrammar
import Harvard16.Proofs.Images
import Harvard16.Proofs.ProgramFiles
import Harvard16.Proofs.PositionIndependence
import Harvard16.Proofs.ForwardPrograms
import Harvard16.Proofs.FirstDefinitions
import Harvard16.Proofs.LineGrammar
import Harvard16.Proofs.MemoryOperands
import Harvard16.Proofs.Layout
import Harvard16.Proofs.DumpLayout
import Harvard16.Proofs.Tracing
import Harvard16.Proofs.Renumbering
import Harvard16.Proofs.TraceLines
import Harvard16.Proofs.Calculations
import Harvard16.Proofs.DataAccesses
import Harvard16.Proofs.RegisterAccesses
import Harvard16.Proofs.PackingLaws
import Harvard16.Proofs.NumberLiterals
import Harvard16.Proofs.WrittenListings
