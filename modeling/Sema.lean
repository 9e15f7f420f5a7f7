import Sema.Config.Reader
import Sema.Context.Check
import Sema.Context.Describe
import Sema.Context.Enum
import Sema.Context.Initial
import Sema.Pipeline
import Sema.Proofs.Assoc
import Sema.Proofs.Edit
import Sema.Proofs.Growth
import Sema.Proofs.Operations
import Sema.Proofs.Capture
import Sema.Proofs.Run
import Sema.Proofs.Slots
import Sema.Proofs.CaptureChain
import Sema.Proofs.Outward
import Sema.Proofs.LookupFailure
import Sema.Proofs.Synthesis
import Sema.Proofs.Registry
import Sema.Proofs.Ownership
import Sema.Proofs.GlobalNames
import Sema.Proofs.References
import Sema.Proofs.Instance
import Sema.Proofs.Assignability
import Sema.Proofs.Parameters
import Sema.Proofs.Sealing
import Sema.Proofs.TypeText
import Sema.Proofs.BuiltTypes
import Sema.Proofs.ArrayTypes
import Sema.Proofs.HostCalls
import Sema.Proofs.ArrayMethods
import Sema.Proofs.MapMethods
import Sema.Proofs.StackEffect
import Sema.Proofs.UnitOrder
import Sema.Proofs.DefinitionOrder
import Sema.Proofs.CaptureEffect
import Sema.Proofs.StableLookup
import Sema.Proofs.DefinitionEffect
import Sema.Proofs.InheritedNames
import Sema.Proofs.LookupTermination
import Sema.Proofs.BlockMarks
import Sema.Proofs.BlockScoping
import Sema.Proofs.ParameterDefinition
import Sema.Proofs.EnumItems
import Sema.Proofs.MethodBodies
import Sema.Proofs.UnambiguousNames
import Sema.Proofs.FirstFault
import Sema.Proofs.KeyEquality
import Sema.Proofs.OperatorOverloads
import Sema.Proofs.NativeConstruction
import Sema.Proofs.ClassHierarchy
