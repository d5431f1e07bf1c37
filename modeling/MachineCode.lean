import MachineCode.Main
import MachineCode.Proofs.Relaxation.Address
import MachineCode.Proofs.Relaxation.Expansion
import MachineCode.Proofs.Relaxation.Choice
import MachineCode.Proofs.Relaxation.Solution
import MachineCode.Proofs.Control.Flow
import MachineCode.Proofs.Relaxation.Behaviour
import MachineCode.Proofs.Frame.Stages
import MachineCode.Proofs.Frame.Machine
import MachineCode.Proofs.Frame.Shape
import MachineCode.Proofs.Frame.Body
import MachineCode.Proofs.Frame.Saving
import MachineCode.Proofs.Frame.Calling
import MachineCode.Proofs.Frame.Discipline
import MachineCode.Proofs.Checked
import MachineCode.Proofs.Fault
import MachineCode.Proofs.Encoding.Decoding
import MachineCode.Proofs.Encoding.ByteOrder
import MachineCode.Proofs.Encoding.Placement
import MachineCode.Proofs.Frame.Lowerable
import MachineCode.Proofs.Frame.Standing
import MachineCode.Proofs.Frame.Slot
import MachineCode.Proofs.Frame.Addressing
import MachineCode.Proofs.Frame.Stopping
import MachineCode.Proofs.Frame.Finished
import MachineCode.Proofs.Text.Cutting
import MachineCode.Proofs.Text.Numeral
import MachineCode.Proofs.Text.Character
import MachineCode.Proofs.Text.Operand
import MachineCode.Proofs.Text.Instr
import MachineCode.Proofs.Text.Directive
import MachineCode.Proofs.Text.Function
import MachineCode.Proofs.Text.Canonical
import MachineCode.Proofs.Text.Readable
import MachineCode.Proofs.Relaxation.Convergence
import MachineCode.Proofs.Completion
import MachineCode.Proofs.Frame.Origin
import MachineCode.Proofs.Frame.Exits
import MachineCode.Proofs.Frame.LocalArea
import MachineCode.Proofs.Frame.Decision
import MachineCode.Proofs.Encoding.Reach
import MachineCode.Proofs.Session
import MachineCode.Proofs.Text.Composition
import MachineCode.Proofs.Frame.CallBalance
import MachineCode.Proofs.Relaxation.Termination
import MachineCode.Proofs.Encoding.Acceptance
import MachineCode.Proofs.Encoding.Relocation
import MachineCode.Proofs.Frame.Atomicity
import MachineCode.Proofs.Frame.SavedSize
import MachineCode.Proofs.Frame.Handles
import MachineCode.Proofs.Text.NumeralForm
import MachineCode.Proofs.Relaxation.Bookkeeping
import MachineCode.Proofs.Rewriting
import MachineCode.Proofs.Text.Compiled
