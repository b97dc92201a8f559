import Esoteric.Main
import Esoteric.Proofs.Brainfuck.StructuredRun
import Esoteric.Proofs.Brainfuck.Unmatched
import Esoteric.Proofs.Grid.Reservoir
import Esoteric.Proofs.Grid.Edge
import Esoteric.Proofs.Grid.Postfix
import Esoteric.Proofs.Playfield.Search
import Esoteric.Proofs.Grid.Footprint
import Esoteric.Proofs.Grid.Unseen
import Esoteric.Proofs.Grid.Enlarged
import Esoteric.Proofs.Grid.WordSized
import Esoteric.Proofs.Grid.Befunge.Failure
import Esoteric.Proofs.Grid.Argh.Failure
import Esoteric.Proofs.Grid.Failure
import Esoteric.Proofs.Budget
import Esoteric.Proofs.Grid.Changes
import Esoteric.Proofs.Grid.StackFrame
import Esoteric.Proofs.InputEnd
import Esoteric.Proofs.Brainfuck.Unsigned
import Esoteric.Proofs.Brainfuck.Comment
import Esoteric.Proofs.Grid.Transposed
import Esoteric.Proofs.Grid.Leeway
import Esoteric.Proofs.Tracing
import Esoteric.Proofs.Playfield.Stop
import Esoteric.Proofs.CommandLine.Operand
import Esoteric.Proofs.Grid.Befunge.Text
import Esoteric.Proofs.Text.LineEnd
import Esoteric.Proofs.Playfield.Room
import Esoteric.Proofs.Source
import Esoteric.Proofs.Ending
import Esoteric.Proofs.Exit
import Esoteric.Proofs.Grid.Argh.Jump
import Esoteric.Proofs.Grid.Befunge.Printing
import Esoteric.Proofs.Grid.Befunge.Arithmetic
import Esoteric.Proofs.Access
import Esoteric.Proofs.Tape.History
import Esoteric.Proofs.Playfield.History
import Esoteric.Proofs.Playfield.Layout
import Esoteric.Proofs.Brainfuck.Straight
import Esoteric.Proofs.Playfield.Rectangle
import Esoteric.Proofs.Text.Decoding
import Esoteric.Proofs.Text.Decimal
import Esoteric.Proofs.Brainfuck.Nesting
import Esoteric.Proofs.Tape.Slot
import Esoteric.Proofs.CommandLine.Override
import Esoteric.Proofs.Wording
