import Esoteric.Launch
import Esoteric.Proofs.Text.SingleLine
import Esoteric.Proofs.Wording
import Mathlib.Algebra.Order.BigOperators.Group.List
import Mathlib.Algebra.Order.Group.Nat
import Mathlib.Data.List.Basic

/-! Deleting the lines of a text that begin in a given way. -/

/-- Two texts of parts are equal only part by part, where none of the first is the
shorter one. -/
theorem List.flatMap_eq_flatMap_iff {α β : Type} {first second : α → List β}
    {list : List α}
    (longer : ∀ item ∈ list, (second item).length ≤ (first item).length) :
    list.flatMap first = list.flatMap second ↔
      ∀ item ∈ list, first item = second item := by
  refine ⟨?_, List.flatMap_congr⟩
  induction list with
  | nil => exact fun _ => nofun
  | cons item list induction =>
      obtain ⟨head, tail⟩ := List.forall_mem_cons.1 longer
      have total : (list.flatMap second).length ≤ (list.flatMap first).length := by
        rw [List.length_flatMap, List.length_flatMap]
        exact List.sum_le_sum tail
      rw [List.flatMap_cons, List.flatMap_cons, List.forall_mem_cons]
      intro same
      have lengths := congrArg List.length same
      rw [List.length_append, List.length_append] at lengths
      obtain ⟨now, later⟩ := List.append_inj same (by omega)
      exact ⟨now, induction tail later⟩

namespace Esoteric

namespace Lines

/-- The lines of a text, each with its line feed, which the last one may lack. -/
def whole : List Char → List (List Char)
  | [] => []
  | '\n' :: text => ['\n'] :: whole text
  | c :: text =>
      match whole text with
      | [] => [[c]]
      | line :: lines => (c :: line) :: lines

def without (start : List Char) (text : List Char) : List Char :=
  ((whole text).filter fun line => !start.isPrefixOf line).flatten

variable {start line : List Char}

theorem whole_line (single : '\n' ∉ line) (text : List Char) :
    whole (line ++ '\n' :: text) = (line ++ ['\n']) :: whole text := by
  induction line with
  | nil => rfl
  | cons c line induction =>
      rw [List.mem_cons, not_or] at single
      obtain ⟨other, later⟩ := single
      rw [List.cons_append, whole, induction later]
      · rfl
      · exact Ne.symm other

theorem whole_ne_nil (c : Char) (text : List Char) : whole (c :: text) ≠ [] := by
  by_cases ends : c = '\n'
  · rw [ends, whole]
    exact List.cons_ne_nil _ _
  · rw [whole]
    · split <;> exact List.cons_ne_nil _ _
    · exact ends

theorem whole_append (line text : List Char) :
    whole (line ++ '\n' :: text) = whole (line ++ ['\n']) ++ whole text := by
  induction line with
  | nil => rfl
  | cons c line induction =>
      by_cases ends : c = '\n'
      · subst ends
        exact congrArg (['\n'] :: ·) induction
      · rw [List.cons_append, List.cons_append, whole, whole, induction]
        · cases lines : whole (line ++ ['\n']) with
          | nil => cases line <;> exact absurd lines (whole_ne_nil _ _)
          | cons first lines => rfl
        · exact ends
        · exact ends

theorem without_append (start line text : List Char) :
    without start (line ++ ['\n'] ++ text) =
      without start (line ++ ['\n']) ++ without start text := by
  rw [List.append_assoc, List.singleton_append, without, whole_append,
    List.filter_append, List.flatten_append]
  rfl

theorem without_line (single : '\n' ∉ line) :
    without start (line ++ ['\n']) =
      if start.isPrefixOf (line ++ ['\n']) then [] else line ++ ['\n'] := by
  rw [without, whole_line single]
  cases begins : start.isPrefixOf (line ++ ['\n']) with
  | true => simp [whole, begins]
  | false => simp [whole, begins]

end Lines

namespace Diagnostic

def debugStart : List Char :=
  ['D', 'E', 'B', 'U', 'G', ' ']

def Begins (text : String) : Prop :=
  debugStart.isPrefixOf text.toList = true

instance (text : String) : Decidable (Begins text) :=
  inferInstanceAs (Decidable (debugStart.isPrefixOf text.toList = true))

theorem Begins.append {first : String} (begins : Begins first)
    (second : String) : Begins (first ++ second) := by
  rw [Begins, List.isPrefixOf_iff_prefix] at begins ⊢
  rw [String.toList_append]
  exact begins.trans (List.prefix_append _ _)

theorem Begins.assemble? {start text : String} (begins : Begins start)
    {parts : List (Option String)}
    (told : assemble? (some start :: parts) = some text) : Begins text := by
  obtain ⟨_, rest, ⟨⟩, _, rfl⟩ := assemble?_cons_eq_some_iff.1 told
  exact begins.append rest

theorem begins_of_isTrace {diagnostic : Diagnostic} {text : String}
    (traces : diagnostic.isTrace = true) (told : diagnostic.text? = some text) :
    Begins text := by
  cases diagnostic with
  | sourceExpected | failed message => contradiction
  | fetched position cell heading stack | dropped value position
  | stopped position cycles | commanded pointer command head cell =>
      exact .assemble? (by decide) told

theorem isPrefixOf_failed (message : String) :
    debugStart.isPrefixOf (("ERR: " ++ message).toList ++ ['\n']) = false := by
  have start : "ERR: ".toList = ['E', 'R', 'R', ':', ' '] := by decide
  rw [String.toList_append, start]
  rfl

theorem isPrefixOf_text {diagnostic : Diagnostic} {text : String}
    (told : diagnostic.text? = some text) :
    debugStart.isPrefixOf (text.toList ++ ['\n']) = diagnostic.isTrace := by
  cases traces : diagnostic.isTrace with
  | true =>
      have begins := begins_of_isTrace traces told
      rw [Begins, List.isPrefixOf_iff_prefix] at begins
      rw [List.isPrefixOf_iff_prefix]
      exact begins.trans (List.prefix_append _ _)
  | false =>
      cases diagnostic with
      | sourceExpected =>
          cases told
          decide
      | failed message =>
          cases told
          exact isPrefixOf_failed message
      | _ => contradiction

end Diagnostic

namespace Host

variable {host : Host} {diagnostic : Diagnostic} {text : String}

def shown (host : Host) (diagnostic : Diagnostic) : List Char :=
  (host.lines diagnostic).flatMap fun line => line.toList ++ ['\n']

theorem shown_of_text? (told : diagnostic.text? = some text) :
    host.shown diagnostic = text.toList ++ ['\n'] := by
  simp only [shown, lines, told, List.flatMap_cons, List.flatMap_nil,
    List.append_nil]

theorem without_flatMap (lines : List String) (rest : List Char) :
    Lines.without Diagnostic.debugStart
        ((lines.flatMap fun line => line.toList ++ ['\n']) ++ rest) =
      Lines.without Diagnostic.debugStart
          (lines.flatMap fun line => line.toList ++ ['\n']) ++
        Lines.without Diagnostic.debugStart rest := by
  induction lines with
  | nil => rfl
  | cons line lines induction =>
      rw [List.flatMap_cons, Lines.without_append, List.append_assoc,
        Lines.without_append, induction, List.append_assoc]

theorem without_shown (legible : diagnostic.Legible)
    (told : diagnostic.text? = some text) :
    Lines.without Diagnostic.debugStart (host.shown diagnostic) =
      if diagnostic.isTrace then [] else host.shown diagnostic := by
  rw [shown_of_text? told, Lines.without_line (legible text told),
    Diagnostic.isPrefixOf_text told]

theorem without_shown_ne_nil (untold : diagnostic.text? = none) :
    Lines.without Diagnostic.debugStart (host.shown diagnostic) ≠ [] := by
  have single : '\n' ∉ "--- Logging error ---".toList := by decide
  rw [shown, lines, untold, List.flatMap_cons, Lines.without_append,
    Lines.without_line single, if_neg (by decide)]
  exact List.append_ne_nil_of_left_ne_nil (List.concat_ne_nil _ _) _

theorem isTrace_of_text?_eq_none (untold : diagnostic.text? = none) :
    diagnostic.isTrace = true := by
  cases diagnostic with
  | sourceExpected | failed message => contradiction
  | _ => rfl

theorem without_shown_iff (legible : diagnostic.Legible) :
    Lines.without Diagnostic.debugStart (host.shown diagnostic) =
        (if diagnostic.isTrace then [] else host.shown diagnostic) ↔
      ∃ text, diagnostic.text? = some text := by
  cases told : diagnostic.text? with
  | none =>
      rw [if_pos (isTrace_of_text?_eq_none told)]
      exact iff_of_false (without_shown_ne_nil told) nofun
  | some text => exact iff_of_true (without_shown legible told) ⟨text, rfl⟩

theorem length_shown_le (legible : diagnostic.Legible) :
    (if diagnostic.isTrace then [] else host.shown diagnostic).length ≤
      (Lines.without Diagnostic.debugStart (host.shown diagnostic)).length := by
  cases told : diagnostic.text? with
  | none =>
      rw [if_pos (isTrace_of_text?_eq_none told)]
      exact Nat.zero_le _
  | some text => rw [without_shown legible told]

end Host

namespace Launch

variable {host : Host} {diagnostics : Array Diagnostic}

theorem toList_foldl_lines (lines : List String) (before : String) :
    (lines.foldl (fun text line => text ++ line ++ "\n") before).toList =
      before.toList ++ lines.flatMap fun line => line.toList ++ ['\n'] := by
  induction lines generalizing before with
  | nil => simp
  | cons line lines induction =>
      rw [List.foldl_cons, induction, String.toList_append,
        String.toList_append, List.flatMap_cons, List.append_assoc,
        List.append_assoc, List.append_assoc]
      rfl

theorem toList_render (host : Host) (diagnostics : Array Diagnostic) :
    (render host diagnostics).toList = diagnostics.toList.flatMap host.shown := by
  have general (list : List Diagnostic) (before : String) :
      (list.foldl (fun text diagnostic => (host.lines diagnostic).foldl
        (fun text line => text ++ line ++ "\n") text) before).toList =
          before.toList ++ list.flatMap host.shown := by
    induction list generalizing before with
    | nil => simp
    | cons diagnostic list induction =>
        rw [List.foldl_cons, induction, toList_foldl_lines, List.flatMap_cons,
          List.append_assoc]
        rfl
  rw [render, ← Array.foldl_toList, general]
  rfl

def withoutTrace (text : String) : String :=
  String.ofList (Lines.without Diagnostic.debugStart text.toList)

theorem toList_withoutTrace_render (host : Host) (diagnostics : Array Diagnostic) :
    (withoutTrace (render host diagnostics)).toList =
      diagnostics.toList.flatMap fun diagnostic =>
        Lines.without Diagnostic.debugStart (host.shown diagnostic) := by
  rw [withoutTrace, toList_render, String.toList_ofList]
  generalize diagnostics.toList = list
  induction list with
  | nil => rfl
  | cons diagnostic list induction =>
      rw [List.flatMap_cons, Host.shown, Host.without_flatMap, induction,
        List.flatMap_cons]
      rfl

/-- What is left of a report without its trace is what a run without one shows, if
no number in the report is too long. -/
theorem withoutTrace_render_iff (host : Host)
    (legible : ∀ diagnostic ∈ diagnostics, diagnostic.Legible) :
    withoutTrace (render host diagnostics) =
        render host (diagnostics.filter fun diagnostic => !diagnostic.isTrace) ↔
      ∀ diagnostic ∈ diagnostics, ∀ number ∈ diagnostic.numbers,
        Numeral.Short number := by
  have untraced (list : List Diagnostic) :
      (list.filter fun diagnostic => !diagnostic.isTrace).flatMap host.shown =
        list.flatMap fun diagnostic =>
          if diagnostic.isTrace then [] else host.shown diagnostic := by
    induction list with
    | nil => rfl
    | cons diagnostic list induction =>
        rw [List.filter_cons, List.flatMap_cons, ← induction]
        cases diagnostic.isTrace <;> rfl
  rw [← String.toList_inj, toList_withoutTrace_render, toList_render,
    Array.toList_filter, untraced, List.flatMap_eq_flatMap_iff]
  · simp only [Array.mem_toList_iff]
    exact forall₂_congr fun diagnostic member =>
      (Host.without_shown_iff (legible diagnostic member)).trans
        Diagnostic.exists_text?_iff
  · intro diagnostic member
    rw [Array.mem_toList_iff] at member
    exact Host.length_shown_le (legible diagnostic member)

end Launch

end Esoteric
