import NodeNames.Main
import NodeNames.Proofs.Pool.Representation
import NodeNames.Proofs.Call.Parser
import NodeNames.Proofs.Interner
import NodeNames.Proofs.MethodSignature
import NodeNames.Proofs.Pool.HashConsing
import NodeNames.Proofs.Code.Decoding
import NodeNames.Proofs.Emission.Script
import NodeNames.Proofs.NameCall.Emission
import NodeNames.Proofs.NameCall.Faults
import NodeNames.Proofs.Machine.Execution
import NodeNames.Proofs.Machine.Meaning
import NodeNames.Proofs.Machine.Climb
import NodeNames.Proofs.NameCall.Registration
import NodeNames.Proofs.NameCall.StackEffect
import NodeNames.Proofs.Unit.Layout
import NodeNames.Proofs.Unit.Phases
import NodeNames.Proofs.Unit.History
import NodeNames.Proofs.Unit.Refusal
import NodeNames.Proofs.Unit.Agreement
import NodeNames.Proofs.Unit.Invisibility
import NodeNames.Proofs.Unit.Correctness
import NodeNames.Proofs.Unit.TypeSafety
import NodeNames.Proofs.Emission.Repetition
import NodeNames.Proofs.Code.Listing
import NodeNames.Proofs.Unit.Growth
import NodeNames.Proofs.NameCall.Symbolic
import NodeNames.Proofs.Unit.Independence
import NodeNames.Proofs.Unit.Recompilation
import NodeNames.Proofs.NodeTypes
import NodeNames.Proofs.Unit.NameTests
import NodeNames.Proofs.Code.Encodable
import NodeNames.Proofs.NameCall.Encodable
import NodeNames.Proofs.NameCall.Qualifiers
import NodeNames.Proofs.Unit.Qualifiers
import NodeNames.Proofs.Unit.ReservedSlots
import NodeNames.Proofs.Code.Reachability
import NodeNames.Proofs.Unit.Orphans
import NodeNames.Proofs.Code.References
import NodeNames.Proofs.Code.Simulation
import NodeNames.Proofs.Descriptor
import NodeNames.Proofs.CallingConvention
import NodeNames.Proofs.Pool.Capacity
import NodeNames.Proofs.Unit.Locals
import NodeNames.Proofs.NameCall.Outcome
import NodeNames.Proofs.Unit.Declarations
import NodeNames.Proofs.Emission.Extension
import NodeNames.Proofs.Call.Printing
import NodeNames.Proofs.Code.IntegerPush
import NodeNames.Proofs.NameIdentity
import NodeNames.Proofs.NameRegistry
import NodeNames.Proofs.Code.ListingEnd
import NodeNames.Proofs.Report.Compilation
