import Esoteric.Proofs.Brainfuck.Standing

namespace Esoteric.Brainfuck

open Run

variable {machine finish : Machine} {memory middle final : Memory}
  {block body rest : Block} {before text inner later after : List Char}
  {count : Nat}

namespace Machine

def Leads (machine : Machine) (before after : List Char) (memory : Memory) :
    Prop :=
  ∃ count finish, Reaches Machine.cycle count machine finish ∧
    finish.Stands before after memory

theorem Stands.leads (stands : machine.Stands before after memory) :
    machine.Leads before after memory :=
  ⟨0, machine, .refl, stands⟩

theorem Proceeds.leads (proceeds : machine.Proceeds before after memory) :
    machine.Leads before after memory :=
  ⟨1, machine.cycle.state, .one proceeds.1, proceeds.2⟩

theorem Leads.trans {start stop : List Char}
    (first : machine.Leads before after memory)
    (second : ∀ {machine : Machine}, machine.Stands before after memory →
      machine.Leads start stop final) : machine.Leads start stop final := by
  obtain ⟨early, reached, run, stands⟩ := first
  obtain ⟨late, finish, rest, arrives⟩ := second stands
  exact ⟨early + late, finish, run.trans rest, arrives⟩

/-- A run to a state at which cycles stop succeeding passes through every place
that its start leads to. -/
theorem Leads.remaining (leads : machine.Leads before after memory)
    (whole : Reaches Machine.cycle count machine finish)
    (stops : finish.cycle.outcome ≠ .ok) :
    ∃ late reached, late ≤ count ∧ Reaches Machine.cycle late reached finish ∧
      reached.Stands before after memory := by
  obtain ⟨early, reached, run, stands⟩ := leads
  obtain ⟨late, rfl, rest⟩ := run.split whole stops
  exact ⟨late, reached, Nat.le_add_left .., rest, stands⟩

theorem Proceeds.remaining (proceeds : machine.Proceeds before after memory)
    (whole : Reaches Machine.cycle count machine finish)
    (stops : finish.cycle.outcome ≠ .ok) :
    ∃ late reached, late < count ∧ Reaches Machine.cycle late reached finish ∧
      reached.Stands before after memory := by
  obtain ⟨late, rfl, rest⟩ := (Reaches.one proceeds.1).split whole stops
  exact ⟨late, machine.cycle.state, by omega, rest, proceeds.2⟩

theorem Stands.comments {comments : List Char}
    (stands : machine.Stands before (comments ++ after) memory)
    (areComments : ∀ c ∈ comments, Command.ofChar? c = none) :
    machine.Leads (before ++ comments) after memory := by
  induction comments generalizing machine before with
  | nil =>
      rw [List.append_nil]
      exact stands.leads
  | cons c comments induction =>
      refine (stands.comment (areComments c (by simp))).leads.trans ?_
      intro machine stands
      rw [List.append_cons]
      exact induction stands
        fun c member => areComments c (List.mem_cons_of_mem _ member)

end Machine

namespace Block

open Brainfuck.Machine

/-- A machine that takes a block up gets through it. A loop may be taken up at
its opening bracket or, with the cell to be tested again, at its closing one. -/
structure Carries (block : Block) (memory final : Memory) : Prop where
  start : ∀ {machine : Machine} {before text after : List Char},
    block.SpelledBy text → machine.Stands before (text ++ after) memory →
      machine.Leads (before ++ text) after final
  retest : ∀ {machine : Machine} {body rest : Block}
    {before inner later after : List Char},
    block = .loop body rest → body.SpelledBy inner → rest.SpelledBy later →
      machine.Stands (before ++ '[' :: inner) (']' :: later ++ after) memory →
        machine.Leads (before ++ '[' :: inner ++ ']' :: later) after final

theorem Carries.opened (bodyRun : body.Carries memory middle)
    (loopRun : (loop body rest).Carries middle final)
    (nonzero : memory.cell ≠ 0) (innerSpelled : body.SpelledBy inner)
    (laterSpelled : rest.SpelledBy later)
    (stands : machine.Stands before
      ('[' :: (inner ++ (']' :: later ++ after))) memory) :
    machine.Leads (before ++ '[' :: inner ++ ']' :: later) after final := by
  refine (stands.enter nonzero).leads.trans ?_
  intro machine stands
  refine (bodyRun.start innerSpelled stands).trans ?_
  intro machine stands
  rw [← List.append_cons] at stands
  exact loopRun.retest rfl innerSpelled laterSpelled stands

theorem Evaluates.carries (evaluates : block.Evaluates memory final) :
    block.Carries memory final := by
  -- The induction is on the evaluation: a loop that is evaluated again is not
  -- smaller, and its machine stands at the closing bracket.
  induction evaluates with
  | done =>
      refine ⟨?_, nofun⟩
      intro machine before text after spelled stands
      exact stands.comments (List.filterMap_eq_nil_iff.1 spelled)
  | act _ induction =>
      refine ⟨?_, nofun⟩
      intro machine before text after spelled stands
      obtain ⟨comments, c, later, rfl, areComments, decoded, remaining⟩ :=
        spelled.act_layout
      rw [List.append_assoc] at stands
      refine (stands.comments areComments).trans ?_
      intro machine stands
      refine (stands.act decoded).leads.trans ?_
      intro machine stands
      simpa using induction.start remaining stands
  | @skip body rest memory final zero _ induction =>
      constructor
      · intro machine before text after spelled stands
        obtain ⟨comments, inner, later, rfl, areComments, innerSpelled,
          remaining⟩ := spelled.loop_layout
        have loopStands : machine.Stands before
            (comments ++ ('[' :: inner ++ ']' :: (later ++ after))) memory := by
          simpa using stands
        refine (loopStands.comments areComments).trans ?_
        intro machine stands
        refine (stands.skip innerSpelled.balanced zero).leads.trans ?_
        intro machine stands
        simpa using induction.start remaining stands
      · intro machine body' rest' before inner later after equality innerSpelled
          remaining stands
        cases equality
        refine (stands.leave zero).leads.trans ?_
        intro machine stands
        simpa using induction.start remaining stands
  | @again body rest memory middle final nonzero _ _ bodyRun loopRun =>
      constructor
      · intro machine before text after spelled stands
        obtain ⟨comments, inner, later, rfl, areComments, innerSpelled,
          laterSpelled⟩ := spelled.loop_layout
        have loopStands : machine.Stands before
            (comments ++ '[' :: (inner ++ (']' :: later ++ after))) memory := by
          simpa using stands
        refine (loopStands.comments areComments).trans ?_
        intro machine stands
        simpa using bodyRun.opened loopRun nonzero innerSpelled laterSpelled stands
      · intro machine body' rest' before inner later after equality innerSpelled
          laterSpelled stands
        cases equality
        refine (stands.again innerSpelled.balanced nonzero).leads.trans ?_
        intro machine stands
        exact bodyRun.opened loopRun nonzero innerSpelled laterSpelled stands

structure Completes (machine : Machine) : Prop where
  start : ∀ {block : Block} {memory : Memory} {before text after : List Char},
    block.SpelledBy text → machine.Stands before (text ++ after) memory →
      ∃ final, block.Evaluates memory final
  retest : ∀ {body rest : Block} {memory : Memory}
    {before inner later after : List Char},
    body.SpelledBy inner → rest.SpelledBy later →
      machine.Stands (before ++ '[' :: inner) (']' :: later ++ after) memory →
        ∃ final, (loop body rest).Evaluates memory final

theorem Completes.opened
    (completes : ∀ late < count, ∀ machine,
      Reaches Machine.cycle late machine finish → Completes machine)
    (whole : Reaches Machine.cycle count machine finish)
    (stops : finish.cycle.outcome ≠ .ok) (nonzero : memory.cell ≠ 0)
    (innerSpelled : body.SpelledBy inner) (laterSpelled : rest.SpelledBy later)
    (stands : machine.Stands before
      ('[' :: (inner ++ (']' :: later ++ after))) memory) :
    ∃ final, (loop body rest).Evaluates memory final := by
  obtain ⟨entering, inside, fewer, entered, insideStands⟩ :=
    (stands.enter nonzero).remaining whole stops
  obtain ⟨middle, bodyRun⟩ :=
    (completes entering fewer inside entered).start innerSpelled insideStands
  obtain ⟨closing, atEnd, notMore, closed, endStands⟩ :=
    (bodyRun.carries.start innerSpelled insideStands).remaining entered stops
  rw [← List.append_cons] at endStands
  obtain ⟨final, loopRun⟩ :=
    (completes closing (by omega) atEnd closed).retest innerSpelled laterSpelled
      endStands
  exact ⟨final, .again nonzero bodyRun loopRun⟩

theorem completes_of_reaches (whole : Reaches Machine.cycle count machine finish)
    (stops : finish.cycle.outcome ≠ .ok) : Completes machine := by
  -- Every block on the way takes cycles away from those that remain.
  induction count using Nat.strongRecOn generalizing machine with
  | ind count induction =>
      have completes : ∀ late < count, ∀ machine,
          Reaches Machine.cycle late machine finish → Completes machine :=
        fun late fewer machine run => induction late fewer run
      constructor
      · intro block memory before text after spelled stands
        cases block with
        | done => exact ⟨memory, .done⟩
        | act action rest =>
            obtain ⟨comments, c, later, rfl, areComments, decoded, remaining⟩ :=
              spelled.act_layout
            rw [List.append_assoc] at stands
            obtain ⟨passing, atAction, notMore, passed, actionStands⟩ :=
              (stands.comments areComments).remaining whole stops
            obtain ⟨acting, beyond, fewer, acted, beyondStands⟩ :=
              (actionStands.act decoded).remaining passed stops
            obtain ⟨final, restRun⟩ :=
              (completes acting (by omega) beyond acted).start remaining
                beyondStands
            exact ⟨final, .act restRun⟩
        | loop body rest =>
            obtain ⟨comments, inner, later, rfl, areComments, innerSpelled,
              laterSpelled⟩ := spelled.loop_layout
            have loopStands : machine.Stands before
                (comments ++ '[' :: (inner ++ (']' :: later ++ after))) memory := by
              simpa using stands
            obtain ⟨passing, atLoop, notMore, passed, openingStands⟩ :=
              (loopStands.comments areComments).remaining whole stops
            by_cases zero : memory.cell = 0
            · obtain ⟨skipping, beyond, fewer, skipped, beyondStands⟩ :=
                (openingStands.skip innerSpelled.balanced zero).remaining
                  passed stops
              obtain ⟨final, restRun⟩ :=
                (completes skipping (by omega) beyond skipped).start laterSpelled
                  beyondStands
              exact ⟨final, .skip zero restRun⟩
            · exact Completes.opened
                (fun late fewer => completes late (by omega)) passed stops zero
                innerSpelled laterSpelled openingStands
      · intro body rest memory before inner later after innerSpelled laterSpelled
          stands
        by_cases zero : memory.cell = 0
        · obtain ⟨leaving, beyond, fewer, left, beyondStands⟩ :=
            (stands.leave zero).remaining whole stops
          obtain ⟨final, restRun⟩ :=
            (completes leaving fewer beyond left).start laterSpelled beyondStands
          exact ⟨final, .skip zero restRun⟩
        · obtain ⟨returning, atLoop, fewer, returned, openingStands⟩ :=
            (stands.again innerSpelled.balanced zero).remaining whole stops
          exact Completes.opened
            (fun late fewer' => completes late (by omega)) returned stops zero
            innerSpelled laterSpelled openingStands

end Block

end Esoteric.Brainfuck
