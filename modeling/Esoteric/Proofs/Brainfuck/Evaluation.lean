import Esoteric.Arithmetic
import Esoteric.Input
import Esoteric.Proofs.Brainfuck.Block

namespace Esoteric.Brainfuck

@[ext] structure Memory where
  head : Int := 0
  cells : Int → Int := fun _ => 0
  input : Input
  output : String := ""

namespace Memory

def cell (memory : Memory) : Int :=
  memory.cells memory.head

def setCell (memory : Memory) (value : Int) : Memory :=
  { memory with
    cells := fun index =>
      if index = memory.head then signedByte value else memory.cells index }

def perform (action : Action) (memory : Memory) : Memory :=
  match action with
  | .right => { memory with head := memory.head + 1 }
  | .left => { memory with head := memory.head - 1 }
  | .increment => memory.setCell (memory.cell + 1)
  | .decrement => memory.setCell (memory.cell - 1)
  | .output =>
      { memory with output := memory.output ++ (lowByte memory.cell).toString }
  | .input =>
      { memory.setCell memory.input.next with input := memory.input.rest }

end Memory

namespace Block

/-- A loop repeats its body while the cell is not zero. A block that does not
come to an end evaluates to nothing. -/
inductive Evaluates : Block → Memory → Memory → Prop
  | done {memory : Memory} : Evaluates .done memory memory
  | act {action : Action} {rest : Block} {memory final : Memory} :
      Evaluates rest (memory.perform action) final →
      Evaluates (.act action rest) memory final
  | skip {body rest : Block} {memory final : Memory} :
      memory.cell = 0 → Evaluates rest memory final →
      Evaluates (.loop body rest) memory final
  | again {body rest : Block} {memory middle final : Memory} :
      memory.cell ≠ 0 → Evaluates body memory middle →
      Evaluates (.loop body rest) middle final →
      Evaluates (.loop body rest) memory final

theorem Evaluates.unique {block : Block} {memory final other : Memory}
    (first : block.Evaluates memory final)
    (second : block.Evaluates memory other) : final = other := by
  induction first generalizing other with
  | done =>
      cases second
      rfl
  | act _ induction =>
      cases second with
      | act remaining => exact induction remaining
  | skip zero _ induction =>
      cases second with
      | skip _ remaining => exact induction remaining
      | again nonzero _ _ => exact absurd zero nonzero
  | again nonzero _ _ bodyInduction loopInduction =>
      cases second with
      | skip zero _ => exact absurd zero nonzero
      | again _ bodyRun loopRun =>
          obtain rfl := bodyInduction bodyRun
          exact loopInduction loopRun

end Block

end Esoteric.Brainfuck
