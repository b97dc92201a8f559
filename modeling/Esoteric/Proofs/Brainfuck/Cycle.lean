import Esoteric.Brainfuck.Machine
import Esoteric.Proofs.Run

namespace Esoteric.Brainfuck.Machine

variable {relation : Machine → Machine → Prop} {first second : Machine}
  {execute other : Command → Machine → Step Machine}

def cycleBy (execute : Command → Machine → Step Machine) (machine : Machine) :
    Step Machine :=
  match machine.program.character? machine.pointer with
  | none => .astray machine
  | some c =>
      let diagnostic :=
        .commanded machine.pointer c machine.head machine.cell
      let step :=
        match Command.ofChar? c with
        | some command => execute command machine
        | none => .ok machine.next
      (step.andThen fun reached => .ok reached.count).report diagnostic

theorem cycle_eq_cycleBy (machine : Machine) :
    machine.cycle = cycleBy Machine.execute machine := rfl

theorem cycleBy_related (related : relation first second)
    (sameProgram : second.program = first.program)
    (samePointer : second.pointer = first.pointer)
    (executes : ∀ command, (execute command first).Related relation
      (other command second))
    (passes : relation first.next second.next)
    (counts : ∀ state counterpart, relation state counterpart →
      relation state.count counterpart.count) :
    (cycleBy execute first).Related relation (cycleBy other second) := by
  simp only [cycleBy, sameProgram, samePointer]
  cases first.program.character? first.pointer with
  | none => exact .astray related
  | some c =>
      apply Step.Related.report
      have counted : ∀ state counterpart, relation state counterpart →
          (Step.ok state.count).Related relation (.ok counterpart.count) :=
        fun state counterpart kept => .ok (counts state counterpart kept)
      cases Command.ofChar? c with
      | none => exact counted _ _ passes
      | some command => exact (executes command).andThen counted

end Esoteric.Brainfuck.Machine
