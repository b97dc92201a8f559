import Mathlib.Data.List.Induction
import Esoteric.Proofs.CommandLine.Request

/-! The last request for an option is the one that counts, and the order of requests for
different options does not. -/

namespace Esoteric

namespace Request

variable {request : Request} {requests others : List Request} {first second : Policy}

@[simp] def language? : Request → Option Language
  | language _ choice => some choice
  | _ => none

@[simp] def policy? : Request → Option Policy
  | edge policy => some policy
  | _ => none

@[simp] def width? : Request → Option Int
  | width _ columns => some columns.value
  | _ => none

@[simp] def maxCycles? : Request → Option Int
  | maxCycles _ limit => some limit.value
  | _ => none

@[simp] def isVerbose : Request → Bool
  | verbose _ => true
  | _ => false

def last? {α : Type} (get : Request → Option α) (requests : List Request) : Option α :=
  (requests.filterMap get).getLast?

@[simp] theorem last?_concat {α : Type} (get : Request → Option α)
    (requests : List Request) (request : Request) :
    last? get (requests ++ [request]) = (get request).or (last? get requests) := by
  rw [last?, List.filterMap_append, List.getLast?_append, last?]
  cases found : get request with
  | none => rw [List.filterMap_cons_none found, List.filterMap_nil, List.getLast?_nil]
  | some value => rw [List.filterMap_cons_some found, List.filterMap_nil]; rfl

theorem mem_of_last? {α : Type} {get : Request → Option α} {value : α}
    (last : last? get requests = some value) :
    ∃ request ∈ requests, get request = some value :=
  List.mem_filterMap.1 (List.mem_of_getLast? last)

/-- Both policies for the edge are asked for. -/
def Contradicts (requests : List Request) : Prop :=
  .edge .strict ∈ requests ∧ .edge .silent ∈ requests

theorem Contradicts.append (contradicts : Contradicts requests) (more : List Request) :
    Contradicts (requests ++ more) :=
  ⟨List.mem_append_left more contradicts.1, List.mem_append_left more contradicts.2⟩

theorem contradicts_of_ne (different : first ≠ second)
    (memberFirst : .edge first ∈ requests) (memberSecond : .edge second ∈ requests) :
    Contradicts requests := by
  cases first <;> cases second
  · contradiction
  · exact ⟨memberFirst, memberSecond⟩
  · exact ⟨memberSecond, memberFirst⟩
  · contradiction

theorem edge_mem_of_last? (last : last? policy? requests = some first) :
    .edge first ∈ requests := by
  obtain ⟨request, member, asked⟩ := mem_of_last? last
  cases request <;> cases asked
  exact member

theorem exists_last?_of_edge_mem (member : .edge first ∈ requests) :
    ∃ second, last? policy? requests = some second := by
  rw [← Option.isSome_iff_exists, last?, List.getLast?_isSome]
  exact List.ne_nil_of_mem (List.mem_filterMap.2 ⟨.edge first, member, rfl⟩)

theorem contradicts_concat_edge (consistent : ¬ Contradicts requests) :
    Contradicts (requests ++ [.edge second]) ↔
      ∃ first, last? policy? requests = some first ∧ first ≠ second := by
  constructor
  · rintro ⟨strict, silent⟩
    obtain ⟨other, different, member⟩ :
        ∃ other, other ≠ second ∧ .edge other ∈ requests := by
      cases second with
      | strict => exact ⟨.silent, by decide, by simpa using silent⟩
      | silent => exact ⟨.strict, by decide, by simpa using strict⟩
    obtain ⟨first, last⟩ := exists_last?_of_edge_mem member
    refine ⟨first, last, ?_⟩
    rintro rfl
    exact consistent (contradicts_of_ne different member (edge_mem_of_last? last))
  · rintro ⟨first, last, different⟩
    exact contradicts_of_ne different
      (List.mem_append_left _ (edge_mem_of_last? last)) List.mem_concat_self

theorem contradicts_concat (other : request.policy? = none) :
    Contradicts (requests ++ [request]) ↔ Contradicts requests := by
  cases request with
  | edge policy => contradiction
  | _ => simp [Contradicts]

/-- The requests for each option stand in the same order in both. -/
def Reordered (requests others : List Request) : Prop :=
  ∀ switch : Switch,
    requests.filter (fun request => request.switch = switch) =
      others.filter (fun request => request.switch = switch)

theorem Reordered.mem_iff (reordered : Reordered requests others) (request : Request) :
    request ∈ requests ↔ request ∈ others := by
  have kept (requests : List Request) : request ∈ requests ↔
      request ∈ requests.filter (fun other => other.switch = request.switch) := by
    simp only [List.mem_filter, decide_true, and_true]
  rw [kept requests, kept others, reordered]

theorem last?_filter {α : Type} {get : Request → Option α} {switch : Switch}
    (concerns : ∀ request, request.switch ≠ switch → get request = none)
    (requests : List Request) :
    last? get (requests.filter fun request => request.switch = switch) =
      last? get requests := by
  rw [last?, List.filterMap_filter, last?]
  congr 2
  funext request
  split
  · rfl
  · rename_i other
    exact (concerns request (by simpa using other)).symm

theorem Reordered.last?_eq {α : Type} {get : Request → Option α}
    (reordered : Reordered requests others) (switch : Switch)
    (concerns : ∀ request, request.switch ≠ switch → get request = none) :
    last? get requests = last? get others := by
  rw [← last?_filter concerns, ← last?_filter concerns others, reordered]

theorem Reordered.contradicts_iff (reordered : Reordered requests others) :
    Contradicts requests ↔ Contradicts others := by
  rw [Contradicts, Contradicts, reordered.mem_iff, reordered.mem_iff]

theorem last?_policy?_eq_some_iff (consistent : ¬ Contradicts requests) :
    last? policy? requests = some first ↔ .edge first ∈ requests := by
  constructor
  · exact edge_mem_of_last?
  · intro member
    obtain ⟨second, last⟩ := exists_last?_of_edge_mem member
    by_cases same : second = first
    · rw [last, same]
    · exact absurd (contradicts_of_ne same (edge_mem_of_last? last) member) consistent

end Request

namespace Options

variable {options : Options} {switch : Switch} {value : List Char} {later : List Token}
  {request : Request} {requests others : List Request}

def obey (options : Options) : Request → Except Refusal Options
  | .language _ choice => .ok { options with language := .value choice }
  | .edge policy => options.withEdge policy.edge
  | .width _ columns => .ok { options with width := .value columns.value }
  | .maxCycles _ limit =>
      .ok { options with maxCycles := some (.value limit.value) }
  | .verbose _ => .ok { options with verbose := true }

theorem setting_eq_value {α : Type} {read : List Char → Option α} {found : α}
    (other : value ≠ ['-', '-']) (reads : read value = some found) :
    setting switch read value = .ok (.value found) := by
  rw [setting, if_neg other, reads]

theorem assign_language (options : Options) (manner : Manner) (choice : Language) :
    options.assign .language choice.name.toList =
      options.obey (.language manner choice) := by
  have other : choice.name.toList ≠ ['-', '-'] := by
    cases choice <;> decide
  have read : setting .language (fun text => Language.ofName? (String.ofList text))
      choice.name.toList = .ok (.value choice) := by
    apply setting_eq_value other
    rw [String.ofList_toList, Language.ofName?_name]
  simp only [assign, read]
  rfl

theorem assign_width (options : Options) (manner : Manner) (columns : Decimal) :
    options.assign .width columns.text = options.obey (.width manner columns) := by
  simp only [assign, setting_eq_value columns.text_ne_hyphens columns.integer?_text]
  rfl

theorem assign_maxCycles (options : Options) (joined : Bool) (limit : Decimal) :
    options.assign .maxCycles limit.text =
      options.obey (.maxCycles joined limit) := by
  simp only [assign, setting_eq_value limit.text_ne_hyphens limit.integer?_text]
  rfl

theorem follow_joined :
    follow options (.option switch (some value) :: later) =
      options.assign switch value >>= fun reached => follow reached later := by
  rw [follow]

theorem follow_apart (switch : Switch) (valued : switch.takesValue = true) :
    follow options (.option switch none :: .operand value :: later) =
      options.assign switch value >>= fun reached => follow reached later := by
  rw [follow, if_pos valued]

/-- However it is spelled, a request has its effect and leaves the rest to be
followed. -/
theorem follow_tokens (options : Options) (request : Request) (later : List Token) :
    follow options (request.tokens ++ later) =
      options.obey request >>= fun reached => follow reached later := by
  cases request with
  | language manner choice =>
      rw [← assign_language options manner choice]
      cases manner with
      | letter | apart => exact follow_apart .language rfl
      | joined => exact follow_joined
  | edge policy =>
      cases policy with
      | strict => exact follow_bare .strict (by decide)
      | silent => exact follow_bare .silent (by decide)
  | width manner columns =>
      rw [← assign_width options manner columns]
      cases manner with
      | letter | apart => exact follow_apart .width rfl
      | joined => exact follow_joined
  | maxCycles joined limit =>
      rw [← assign_maxCycles options joined limit]
      cases joined with
      | false => exact follow_apart .maxCycles rfl
      | true => exact follow_joined
  | verbose short => exact follow_bare .verbose (by decide)

theorem follow_requests (options : Options) (requests : List Request)
    (later : List Token) :
    follow options (requests.flatMap Request.tokens ++ later) =
      requests.foldlM obey options >>= fun reached => follow reached later := by
  induction requests generalizing options with
  | nil => rfl
  | cons request requests induction =>
      rw [List.flatMap_cons, List.append_assoc, follow_tokens, List.foldlM_cons,
        bind_assoc]
      exact congrArg _ (funext induction)

/-- What a program and requests without a contradiction come to. -/
def settled (program : Option String) (requests : List Request) : Options where
  program
  language := .value ((Request.last? Request.language? requests).getD .befunge)
  edge := (Request.last? Request.policy? requests).map Policy.edge
  width :=
    .value ((Request.last? Request.width? requests).getD Playfield.standardWidth)
  maxCycles := (Request.last? Request.maxCycles? requests).map .value
  verbose := requests.any Request.isVerbose

/-- One more request is obeyed unless it contradicts an earlier one. -/
theorem obey_settled (program : Option String)
    (consistent : ¬ Request.Contradicts (requests ++ [request])) :
    (settled program requests).obey request =
      .ok (settled program (requests ++ [request])) := by
  cases request with
  | edge policy =>
      have earlier : ¬ Request.Contradicts requests :=
        fun contradicts => consistent (contradicts.append [.edge policy])
      have agrees : (settled program requests).edge = none ∨
          (settled program requests).edge = some policy.edge := by
        cases last : Request.last? Request.policy? requests with
        | none => left; simp only [settled, last, Option.map_none]
        | some first =>
            have same : first = policy := by
              by_contra different
              exact consistent
                ((Request.contradicts_concat_edge earlier).2 ⟨first, last, different⟩)
            right
            simp only [settled, last, Option.map_some, same]
      rw [obey, withEdge, if_pos agrees]
      simp [settled]
  | _ =>
      simp [obey, settled]

theorem obey_settled_error (program : Option String)
    (consistent : ¬ Request.Contradicts requests)
    (contradicts : Request.Contradicts (requests ++ [request])) :
    (settled program requests).obey request = .error .strictAndSilent := by
  cases request with
  | edge policy =>
      obtain ⟨first, last, different⟩ :=
        (Request.contradicts_concat_edge consistent).1 contradicts
      have named : (settled program requests).edge = some first.edge := by
        simp only [settled, last, Option.map_some]
      rw [obey, withEdge, if_neg]
      rw [named]
      rintro (absent | same)
      · contradiction
      · exact different (Policy.edge_injective (Option.some.inj same))
  | _ => exact absurd ((Request.contradicts_concat rfl).1 contradicts) consistent

theorem obey_concat (options : Options) (requests : List Request)
    (request : Request) :
    (requests ++ [request]).foldlM obey options =
      requests.foldlM obey options >>= fun reached => reached.obey request := by
  simp only [List.foldlM_append, List.foldlM_cons, List.foldlM_nil, bind_pure]

theorem obey_all (program : Option String)
    (consistent : ¬ Request.Contradicts requests) :
    requests.foldlM obey { program } = .ok (settled program requests) := by
  induction requests using List.reverseRecOn with
  | nil => rfl
  | append_singleton requests request induction =>
      have earlier : ¬ Request.Contradicts requests :=
        fun contradicts => consistent (contradicts.append [request])
      rw [obey_concat, induction earlier]
      exact obey_settled program consistent

theorem obey_all_error (program : Option String)
    (contradicts : Request.Contradicts requests) :
    requests.foldlM obey { program } = .error .strictAndSilent := by
  induction requests using List.reverseRecOn with
  | nil => exact absurd contradicts.1 List.not_mem_nil
  | append_singleton requests request induction =>
      rw [obey_concat]
      by_cases earlier : Request.Contradicts requests
      · rw [induction earlier]
        rfl
      · rw [obey_all program earlier]
        exact obey_settled_error program earlier contradicts

theorem follow_operand (options : Options) (unnamed : options.program = none)
    (apart : later.head? ≠ some .terminator) (word : List Char) :
    follow options (.operand word :: later) =
      follow { options with program := some (String.ofList word) } later := by
  have free : ¬ options.program.isSome = true := by
    rw [unnamed]
    exact Bool.false_ne_true
  rw [follow, if_neg free]
  rintro rest rfl
  exact apart rfl

end Options

namespace Request

theorem reads_all (requests : List Request) :
    Token.Reads ((requests.flatMap words).map String.toList)
      (requests.flatMap tokens) := by
  induction requests with
  | nil => exact .nil
  | cons request requests induction =>
      rw [List.flatMap_cons, List.flatMap_cons, List.map_append]
      exact request.reads_words.append induction

theorem terminator_not_mem_tokens (request : Request) :
    .terminator ∉ request.tokens := by
  cases request with
  | language manner choice => cases manner <;> simp [tokens]
  | edge policy => simp [tokens]
  | width manner columns => cases manner <;> simp [tokens]
  | maxCycles joined limit => cases joined <;> simp [tokens]
  | verbose short => simp [tokens]

theorem head?_tokens (requests : List Request) :
    (requests.flatMap tokens).head? ≠ some .terminator := by
  intro first
  obtain ⟨request, _, member⟩ := List.mem_flatMap.1 (List.mem_of_mem_head? first)
  exact request.terminator_not_mem_tokens member

/-- Requests with the program somewhere among them, if it is named. -/
def commandLine (before : List Request) (program : Option String)
    (after : List Request) : List String :=
  before.flatMap words ++ program.toList ++ after.flatMap words

end Request

namespace Options

theorem follow_requests_only (options : Options) (requests : List Request) :
    follow options (requests.flatMap Request.tokens) = requests.foldlM obey options := by
  have followed := follow_requests options requests []
  simp only [List.append_nil, follow] at followed
  exact followed.trans (bind_pure _)

theorem parse_requests (requests : List Request) :
    parse (requests.flatMap Request.words) = requests.foldlM obey {} := by
  rw [parse, (Request.reads_all requests).ofWords_eq]
  exact follow_requests_only {} requests

theorem parse_around {path : String} (plain : path.toList.head? ≠ some '-')
    (before after : List Request) :
    parse (before.flatMap Request.words ++ path :: after.flatMap Request.words) =
      (before ++ after).foldlM obey { program := some path } := by
  have reads := (Request.reads_all before).append
    ((Token.reads_plain plain).append (Request.reads_all after))
  have followed := follow_requests {} before
    (.operand path.toList :: after.flatMap Request.tokens)
  rw [parse, List.map_append, List.map_cons]
  refine Eq.trans (congrArg (· >>= follow {}) reads.ofWords_eq) (followed.trans ?_)
  rw [List.foldlM_append]
  by_cases contradicts : Request.Contradicts before
  · rw [obey_all_error none contradicts, obey_all_error (some path) contradicts]
    rfl
  · rw [obey_all none contradicts, obey_all (some path) contradicts]
    have named := follow_operand (settled none before) rfl
      (Request.head?_tokens after) path.toList
    rw [String.ofList_toList] at named
    exact named.trans (follow_requests_only (settled (some path) before) after)

theorem parse_eq_obey_all {program : Option String}
    (plain : ∀ path, program = some path → path.toList.head? ≠ some '-')
    (before after : List Request) :
    parse (Request.commandLine before program after) =
      (before ++ after).foldlM obey { program } := by
  cases program with
  | none =>
      rw [← parse_requests, Request.commandLine, Option.toList_none, List.append_nil,
        List.flatMap_append]
  | some path =>
      rw [← parse_around (plain path rfl), Request.commandLine, Option.toList_some,
        List.append_assoc, List.singleton_append]

theorem settled_eq_of_reordered (reordered : Request.Reordered requests others)
    (consistent : ¬ Request.Contradicts requests) (program : Option String) :
    settled program requests = settled program others := by
  have language : Request.last? Request.language? requests =
      Request.last? Request.language? others := by
    apply reordered.last?_eq .language
    intro request other
    cases request with
    | language => contradiction
    | _ => rfl
  have width : Request.last? Request.width? requests =
      Request.last? Request.width? others := by
    apply reordered.last?_eq .width
    intro request other
    cases request with
    | width => contradiction
    | _ => rfl
  have maxCycles : Request.last? Request.maxCycles? requests =
      Request.last? Request.maxCycles? others := by
    apply reordered.last?_eq .maxCycles
    intro request other
    cases request with
    | maxCycles => contradiction
    | _ => rfl
  -- Each policy is an option of its own, so that no one order tells which is last.
  have policy : Request.last? Request.policy? requests =
      Request.last? Request.policy? others := by
    ext policy
    rw [Request.last?_policy?_eq_some_iff consistent, reordered.mem_iff,
      Request.last?_policy?_eq_some_iff (mt reordered.contradicts_iff.2 consistent)]
  have verbose : requests.any Request.isVerbose = others.any Request.isVerbose := by
    rw [Bool.eq_iff_iff, List.any_eq_true, List.any_eq_true]
    simp only [reordered.mem_iff]
  rw [settled, settled, language, width, maxCycles, policy, verbose]

/-- The last request for each option is the one that counts, wherever the program
stands, and asking for both policies is refused. So requests for different options may
change places. The number that a request gives may be any that is not too long. -/
theorem parse_commandLine {program : Option String}
    (plain : ∀ path, program = some path → path.toList.head? ≠ some '-')
    (before after : List Request) :
    (Request.Contradicts (before ++ after) →
        parse (Request.commandLine before program after) = .error .strictAndSilent ∧
          Refusal.strictAndSilent.status = 2) ∧
      (¬ Request.Contradicts (before ++ after) →
        parse (Request.commandLine before program after) =
          .ok (settled program (before ++ after))) ∧
      (∀ earlier later, Request.Reordered (before ++ after) (earlier ++ later) →
        parse (Request.commandLine earlier program later) =
          parse (Request.commandLine before program after)) ∧
      (∀ (number : Int)
        (short : (Nat.toDigits 10 number.natAbs).length ≤ Numeral.mostDigits),
        (Decimal.ofInt number short).word = toString number ∧
          (Decimal.ofInt number short).value = number) := by
  refine ⟨fun contradicts => ⟨?_, rfl⟩, fun consistent => ?_, ?_,
    fun number short => ⟨Decimal.word_ofInt short, Decimal.value_ofInt short⟩⟩
  · rw [parse_eq_obey_all plain, obey_all_error program contradicts]
  · rw [parse_eq_obey_all plain, obey_all program consistent]
  · intro earlier later reordered
    rw [parse_eq_obey_all plain, parse_eq_obey_all plain]
    by_cases contradicts : Request.Contradicts (before ++ after)
    · rw [obey_all_error program contradicts,
        obey_all_error program (reordered.contradicts_iff.1 contradicts)]
    · rw [obey_all program contradicts,
        obey_all program (mt reordered.contradicts_iff.2 contradicts),
        settled_eq_of_reordered reordered contradicts]

theorem parse_commandLine_of_values :
    "prog".toList.head? ≠ some '-' ∧
      parse ["--lang=bf", "-w", "-5", "prog", "--max-cycles", "7", "--width=12", "-v",
          "-l", "argh", "--silent"] =
        .ok { program := some "prog", language := .value .argh,
              edge := some (.silent 32), width := .value 12,
              maxCycles := some (.value 7), verbose := true } ∧
      parse ["--silent", "-w", "-5", "-v", "--width=12", "--lang=bf", "-l", "argh",
          "prog", "--max-cycles", "7"] =
        parse ["--lang=bf", "-w", "-5", "prog", "--max-cycles", "7", "--width=12", "-v",
          "-l", "argh", "--silent"] ∧
      parse ["--strict", "prog", "--silent", "--strict"] = .error .strictAndSilent := by
  have apart : "prog".toList.head? ≠ some '-' := by decide
  have plain (path : String) (named : some "prog" = some path) :
      path.toList.head? ≠ some '-' := by
    cases named
    exact apart
  let narrow : Request := .width .letter (.ofInt (-5) (by decide))
  let wide : Request := .width .joined (.ofInt 12 (by decide))
  let limit : Request := .maxCycles false (.ofInt 7 (by decide))
  let first : Request := .language .joined .brainfuck
  let last : Request := .language .letter .argh
  have consistent : ¬ Request.Contradicts
      ([first, narrow] ++ [limit, wide, .verbose true, last, .edge .silent]) := by
    simp [Request.Contradicts, narrow, wide, limit, first, last]
  have reordered : Request.Reordered
      ([first, narrow] ++ [limit, wide, .verbose true, last, .edge .silent])
      ([.edge .silent, narrow, .verbose true, wide, first, last] ++ [limit]) := by
    intro switch
    cases switch <;> rfl
  obtain ⟨_, accepted, unmoved, _⟩ := parse_commandLine plain [first, narrow]
    [limit, wide, .verbose true, last, .edge .silent]
  obtain ⟨refused, _⟩ :=
    (parse_commandLine plain [.edge .strict] [.edge .silent, .edge .strict]).1
      ⟨by simp, by simp⟩
  exact ⟨apart, accepted consistent, unmoved _ _ reordered, refused⟩

end Options

end Esoteric
