import Accumulator.Main
import Accumulator.Machine.Access
import Accumulator.Memory.Lemmas
import Accumulator.Memory.Listing
import Accumulator.Proofs.Accounting
import Accumulator.Proofs.Decoding
import Accumulator.Proofs.Failure
import Accumulator.Proofs.FaultConditions
import Accumulator.Proofs.Flags
import Accumulator.Proofs.Grammar
import Accumulator.Proofs.JsonDump
import Accumulator.Proofs.LastStore
import Accumulator.Proofs.LifeCycle
import Accumulator.Proofs.Overlong
import Accumulator.Proofs.Refinement
import Accumulator.Proofs.Rows
import Accumulator.Proofs.Snapshot
import Accumulator.Proofs.Loading
import Accumulator.Proofs.TextDump
import Accumulator.Proofs.Tracing
import Accumulator.Proofs.SessionDialogue
import Accumulator.Proofs.Wrapping
import Accumulator.Proofs.Moments
import Accumulator.Proofs.StrippedProgram
import Accumulator.Proofs.ProgramFile
import Accumulator.Proofs.DisplayedSession
import Accumulator.Proofs.Allocation
import Accumulator.Proofs.BoundedArray
import Accumulator.Proofs.Listing
import Accumulator.Proofs.DecimalText
