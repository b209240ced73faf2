import Mathlib.Data.List.TakeWhile
import LineTokens.Proofs.Reading
import LineTokens.Command.Action

/-!
Which command lines ask for help, told from the texts of the arguments, and
which of those are shown the usage. Help asked for in front of a command is
lost when the command has a help flag of its own.
-/

namespace LineTokens

/-! ### Spellings of the help flag -/

/-- The argument spells the help flag: in short, with or without more text
behind it, or in long from the first letter of the word on. -/
def HelpSpelling (text : String) : Prop :=
  ['-', 'h'] <+: text.toList ∨
    (['-', '-', 'h'] <+: text.toList ∧ text.toList <+: Flag.help.long.toList)

instance (text : String) : Decidable (HelpSpelling text) :=
  inferInstanceAs (Decidable (_ ∨ _))

theorem Role.spelling_eq_self {text : List Char} (h : value? text = none) :
    spelling text = text := by
  have hdrop : text.dropWhile (· ≠ '=') = [] := by
    cases hrest : text.dropWhile (· ≠ '=') with
    | nil => rfl
    | cons mark value =>
      rw [value?, hrest] at h
      cases h
  have happend := List.takeWhile_append_dropWhile (p := (· ≠ '=')) (l := text)
  rw [hdrop, List.append_nil] at happend
  exact happend

theorem helpSpelling_of_spells {flags : List Flag} {text : String} {attachment : Attachment}
    (h : Spells flags text.toList .help attachment) (hsep : text ≠ "--")
    (hvalue : ∀ value, attachment ≠ .long value) : HelpSpelling text := by
  generalize hletters : text.toList = letters at h
  cases h with
  | short _ hspelling =>
    have hprefix : Role.spelling letters <+: letters := List.takeWhile_prefix _
    rw [hspelling] at hprefix
    rw [HelpSpelling, hletters]
    exact .inl hprefix
  | @long rest _ _ hspelling =>
    have hnone : Role.value? ('-' :: '-' :: rest) = none := by
      cases hv : Role.value? ('-' :: '-' :: rest) with
      | none => rfl
      | some value =>
        rw [hv] at hvalue
        exact absurd rfl (hvalue value)
    rw [Role.spelling_eq_self hnone] at hspelling
    have hword : ['-', '-', 'h'] <+: '-' :: '-' :: rest := by
      cases rest with
      | nil => exact absurd (String.toList_inj.mp hletters) hsep
      | cons letter rest =>
        have hletter : letter = 'h' := by
          have hlong : Flag.help.long.toList = ['-', '-', 'h', 'e', 'l', 'p'] := by decide
          simp only [hlong, List.cons_prefix_cons] at hspelling
          exact hspelling.2.2.1
        rw [hletter]
        exact List.prefix_append ['-', '-', 'h'] rest
    rw [HelpSpelling, hletters]
    exact .inr ⟨hword, hspelling⟩
  | @attached rest _ _ =>
    rw [HelpSpelling, hletters]
    exact .inl (List.prefix_append ['-', 'h'] rest)

/-- Every spelling is understood wherever there is a help flag. -/
theorem role_of_helpSpelling {flags : List Flag}
    (hflags : flags = [.help] ∨ flags = [.help, .format]) {text : String}
    (h : HelpSpelling text) :
    ∃ attachment, Role.ofArgument flags text = .ok (.flag .help attachment) ∧
      ∀ value, attachment ≠ .long value := by
  rcases h with ⟨rest, hrest⟩ | ⟨hword, hprefix⟩
  · have hlong : flags.find? (·.long.toList = Role.spelling ('-' :: 'h' :: rest)) = none := by
      refine List.find?_eq_none.mpr fun f _ hfound => ?_
      have hsecond := Role.second_of_spelling_eq_long (of_decide_eq_true hfound)
      exact absurd hsecond (by decide)
    unfold Role.ofArgument
    rw [← hrest]
    simp only [List.cons_append, List.nil_append, hlong]
    cases hshort : flags.find? (·.short.toList = Role.spelling ('-' :: 'h' :: rest)) with
    | some f =>
      have hname := of_find?_eq_some hshort
      have hf : f = .help := by
        cases f with
        | help => rfl
        | format => simp [Role.spelling, Flag.short, Flag.letter] at hname
      subst hf
      refine ⟨_, rfl, ?_⟩
      intro value hlong
      cases hvalue : Role.value? ('-' :: 'h' :: rest) <;> simp [hvalue] at hlong
    | none =>
      have hletter : flags.find? (·.letter = 'h') = some .help := by
        rcases hflags with rfl | rfl <;> rfl
      simp only [hletter]
      refine ⟨.short rest, rfl, ?_⟩
      intro value hlong
      cases hlong
  · -- Only four texts are left: the long spelling, up to three letters short.
    have hlength : 3 ≤ text.toList.length ∧ text.toList.length ≤ 6 :=
      ⟨hword.length_le, hprefix.length_le⟩
    have htext := List.prefix_iff_eq_take.mp hprefix
    generalize text.toList.length = n at hlength htext
    have hn : n = 3 ∨ n = 4 ∨ n = 5 ∨ n = 6 := by omega
    refine ⟨.none, ?_, by simp⟩
    rw [← String.ofList_toList (s := text), htext]
    rcases hflags with rfl | rfl <;> rcases hn with rfl | rfl | rfl | rfl <;> cbv

theorem asksHelp_iff_helpSpelling {flags : List Flag}
    (hflags : flags = [.help] ∨ flags = [.help, .format]) {text : String} {role : Role}
    (hsep : text ≠ "--") (hrole : Role.ofArgument flags text = .ok role) :
    (Argument.mk text role).AsksHelp ↔ HelpSpelling text := by
  constructor
  · rintro ⟨attachment, hhelp, hvalue⟩
    have hflag : role = .flag .help attachment := hhelp
    subst hflag
    exact helpSpelling_of_spells (spells_of_ofArgument hrole) hsep hvalue
  · intro hspelling
    obtain ⟨attachment, hhelp, hvalue⟩ := role_of_helpSpelling hflags hspelling
    rw [hrole] at hhelp
    exact ⟨attachment, Except.ok.inj hhelp, hvalue⟩

example : HelpSpelling "-hf" ∧ HelpSpelling "--he" ∧ ¬ HelpSpelling "--help=" := by
  decide

/-- The arguments behind a separator ask for nothing. -/
theorem exists_asksHelp_iff {flags : List Flag}
    (hflags : flags = [.help] ∨ flags = [.help, .format]) {arguments : List String}
    {assigned : List Argument} (h : assignRoles flags arguments = .ok assigned) :
    (∃ a ∈ assigned, a.AsksHelp) ↔
      ∃ text ∈ arguments.takeWhile (· ≠ "--"), HelpSpelling text := by
  induction arguments generalizing assigned with
  | nil =>
    rw [← Except.ok.inj h]
    simp
  | cons text rest ih =>
    by_cases hsep : text = "--"
    · subst hsep
      rw [assignRoles_separator h]
      simp [Argument.AsksHelp]
    · obtain ⟨role, others, hrole, hothers, rfl⟩ := assignRoles_cons hsep h
      have hthis := asksHelp_iff_helpSpelling hflags hsep hrole
      simp [hsep, hthis, ih hothers]

/-! ### One list of arguments -/

theorem Subcommand.flags_of_help_mem {c : Subcommand} (h : Flag.help ∈ c.signature.flags) :
    c.signature.flags = [.help] ∨ c.signature.flags = [.help, .format] := by
  cases c with
  | split => exact .inr rfl
  | demo => exact .inl rfl
  | help | version => cases h

theorem Subcommand.operand_ne_command (c : Subcommand) : c.signature.operand ≠ .command := by
  cases c <;> nofun

/-- A command that has a help flag hears it in all of its spellings. -/
theorem help_of_read_command {c : Subcommand} (hc : Flag.help ∈ c.signature.flags)
    {arguments : List String} {r : Reading} (h : c.signature.read arguments = .ok r) :
    r.help = true ↔ ∃ text ∈ arguments.takeWhile (· ≠ "--"), HelpSpelling text := by
  obtain ⟨assigned, hroles, hreads⟩ := reads_of_signature_read h
  rw [hreads.help_iff c.operand_ne_command,
    exists_asksHelp_iff (Subcommand.flags_of_help_mem hc) hroles]
  simp [Reading.empty]

/-- When nothing is left over, the program's own arguments are spellings of the
help flag, and they end with the first argument that is none. -/
theorem top_read_shape {arguments : List String} {r : Reading}
    (h : Signature.top.read arguments = .ok r) (hextras : r.extras = []) :
    ∃ before, (∀ text ∈ before, HelpSpelling text) ∧ (r.help = true ↔ before ≠ []) ∧
      (arguments = before ∧ r.command = none ∨
        ∃ name rest, arguments = before ++ name :: rest ∧ r.command = some (name, rest)) := by
  obtain ⟨assigned, hroles, hreads⟩ := reads_of_signature_read h
  have hknown (a : Argument) (ha : a ∈ assigned) (f : Flag) (attachment : Attachment)
      (hflag : a.role = .flag f attachment) : f ∈ Signature.top.flags := by
    obtain ⟨-, hrole⟩ := ofArgument_of_assignRoles hroles ha hflag
    exact (spells_of_ofArgument hrole).mem
  obtain ⟨before, after, rfl, hbefore, hhelp, hafter⟩ :=
    hreads.in_front_of_command rfl (by decide) hknown hextras
  have hspellings : ∀ text ∈ before.map Argument.text, HelpSpelling text := by
    intro text htext
    obtain ⟨a, ha, rfl⟩ := List.mem_map.mp htext
    obtain ⟨attachment, hflag, hvalue⟩ := hbefore a ha
    obtain ⟨hsep, hrole⟩ := ofArgument_of_assignRoles hroles (List.mem_append_left _ ha) hflag
    exact helpSpelling_of_spells (spells_of_ofArgument hrole) hsep hvalue
  have harguments := map_text_of_assignRoles hroles
  rw [List.map_append] at harguments
  refine ⟨before.map Argument.text, hspellings, ?_, ?_⟩
  · rw [hhelp]
    simp [Reading.empty]
  · rcases hafter with ⟨rfl, hnone⟩ | ⟨a, rest, rfl, hsome⟩
    · left
      rw [← harguments, List.map_nil, List.append_nil]
      exact ⟨rfl, hnone⟩
    · right
      rw [← harguments, List.map_cons]
      exact ⟨a.text, rest.map Argument.text, rfl, hsome⟩

/-! ### The whole command line -/

theorem Subcommand.eq_name_of_ofName? {name : String} {c : Subcommand}
    (h : ofName? name = some c) : name = c.name := by
  have hname := of_find?_eq_some h
  exact hname.symm

theorem conclude_eq_ok {extras : List String} {invocation i : Invocation}
    (h : Invocation.conclude extras invocation = .ok i) : extras = [] ∧ invocation = i := by
  unfold Invocation.conclude at h
  split at h
  · next hextras => exact ⟨hextras, Except.ok.inj h⟩
  · cases h

/-- A command line is read in full either without a command, or with one that
reads the arguments behind it by its own signature. -/
theorem ofArguments_eq_ok {arguments : List String} {i : Invocation}
    (h : Invocation.ofArguments arguments = .ok i) :
    ∃ outer, Signature.top.read arguments = .ok outer ∧ outer.extras = [] ∧
      (outer.command = none ∧ i.command = none ∧ i.help = outer.help ∨
        ∃ c rest inner, outer.command = some (c.name, rest) ∧
          c.signature.read rest = .ok inner ∧ inner.extras = [] ∧
          i = ⟨if Flag.help ∈ c.signature.flags then inner.help else outer.help, some c,
            inner.line, inner.format⟩) := by
  obtain ⟨outer, houter, h⟩ := bind_eq_ok.mp h
  refine ⟨outer, houter, ?_⟩
  split at h
  · next hcommand =>
    obtain ⟨hextras, rfl⟩ := conclude_eq_ok h
    exact ⟨hextras, .inl ⟨hcommand, rfl, rfl⟩⟩
  · next name rest hcommand =>
    split at h
    · cases h
    · next c hname =>
      obtain ⟨inner, hinner, h⟩ := bind_eq_ok.mp h
      obtain ⟨hextras, rfl⟩ := conclude_eq_ok h
      obtain ⟨houterExtras, hinnerExtras⟩ := List.append_eq_nil_iff.mp hextras
      rw [Subcommand.eq_name_of_ofName? hname] at hcommand
      exact ⟨houterExtras, .inr ⟨c, rest, inner, hcommand, hinner, hinnerExtras, rfl⟩⟩

theorem Subcommand.name_ne_separator (c : Subcommand) : c.name ≠ "--" := by
  cases c <;> decide

theorem top_read_name (c : Subcommand) {rest : List String} {assigned : List Argument}
    (h : assignRoles Signature.top.flags rest = .ok assigned) :
    Signature.top.read (c.name :: rest) =
      .ok { Reading.empty with command := some (c.name, rest) } := by
  have hrole : Role.ofArgument Signature.top.flags c.name = .ok .operand := by
    cases c <;> cbv
  have htexts := map_text_of_assignRoles h
  have hroles : assignRoles Signature.top.flags (c.name :: rest) =
      .ok (⟨c.name, .operand⟩ :: assigned) := by
    rw [assignRoles, if_neg c.name_ne_separator, hrole, h]
    rfl
  rw [Signature.read, hroles, ← htexts]
  rfl

theorem not_helpSpelling_separator : ¬ HelpSpelling "--" := by
  decide

/-- Arguments behind spellings of the help flag have roles of their own. -/
theorem assignRoles_of_append {flags : List Flag} {before rest : List String}
    {assigned : List Argument} (hbefore : ∀ text ∈ before, HelpSpelling text)
    (h : assignRoles flags (before ++ rest) = .ok assigned) :
    ∃ others, assignRoles flags rest = .ok others := by
  induction before generalizing assigned with
  | nil => exact ⟨assigned, h⟩
  | cons text before ih =>
    have hsep : text ≠ "--" := by
      rintro rfl
      exact not_helpSpelling_separator (hbefore "--" List.mem_cons_self)
    obtain ⟨role, others, -, hothers, -⟩ := assignRoles_cons hsep h
    exact ih (fun t ht => hbefore t (List.mem_cons_of_mem _ ht)) hothers

/-- The shapes of a command line without errors: spellings of the help flag
alone, or in front of a command. A command with a help flag of its own does
the same without them. -/
theorem ofArguments_shape {arguments : List String} {i : Invocation}
    (h : Invocation.ofArguments arguments = .ok i) :
    ∃ before, (∀ text ∈ before, HelpSpelling text) ∧
      (arguments = before ∧ i.command = none ∧ (i.help = true ↔ before ≠ []) ∨
        ∃ c rest inner, arguments = before ++ c.name :: rest ∧ i.command = some c ∧
          c.signature.read rest = .ok inner ∧
          (Flag.help ∉ c.signature.flags → (i.help = true ↔ before ≠ [])) ∧
          (Flag.help ∈ c.signature.flags → i.help = inner.help ∧
            Invocation.ofArguments (c.name :: rest) = .ok i)) := by
  obtain ⟨outer, houter, hextras, hread⟩ := ofArguments_eq_ok h
  obtain ⟨before, hbefore, houterHelp, hshape⟩ := top_read_shape houter hextras
  refine ⟨before, hbefore, ?_⟩
  rcases hread with ⟨hnone, hcommand, hhelp⟩ | ⟨c, rest, inner, hsome, hinner, hinnerExtras, rfl⟩
  · rcases hshape with ⟨rfl, -⟩ | ⟨name, rest, -, hsome⟩
    · rw [hhelp]
      exact .inl ⟨rfl, hcommand, houterHelp⟩
    · rw [hnone] at hsome
      cases hsome
  · rcases hshape with ⟨-, hnone⟩ | ⟨name, rest', rfl, hsome'⟩
    · rw [hsome] at hnone
      cases hnone
    · rw [hsome] at hsome'
      cases hsome'
      refine .inr ⟨c, rest, inner, rfl, rfl, hinner, fun hmem => ?_, fun hmem => ?_⟩
      · rw [if_neg hmem]
        exact houterHelp
      · -- The program gives roles to the arguments behind the command as well,
        -- so the shorter line has them only because the whole line does.
        obtain ⟨assigned, hroles, -⟩ := reads_of_signature_read houter
        obtain ⟨named, hnamed⟩ := assignRoles_of_append hbefore hroles
        obtain ⟨-, others, -, hothers, -⟩ := assignRoles_cons c.name_ne_separator hnamed
        refine ⟨if_pos hmem, ?_⟩
        rw [Invocation.ofArguments, top_read_name c hothers]
        simp [bind, Except.bind, hinner, hinnerExtras, Invocation.conclude, Reading.empty, hmem]

/-! ### Cutting a command line at its command -/

theorem not_helpSpelling_name (c : Subcommand) : ¬ HelpSpelling c.name := by
  cases c <;> decide

theorem ofName?_of_helpSpelling {text : String} (h : HelpSpelling text) :
    Subcommand.ofName? text = none := by
  cases hname : Subcommand.ofName? text with
  | none => rfl
  | some c =>
    rw [Subcommand.eq_name_of_ofName? hname] at h
    exact absurd h (not_helpSpelling_name c)

/-- The arguments in front of the first name of a command. -/
def beforeCommand (arguments : List String) : List String :=
  arguments.takeWhile (Subcommand.ofName? · = none)

/-- The command that is named first. -/
def command? (arguments : List String) : Option Subcommand :=
  arguments.findSome? Subcommand.ofName?

/-- The arguments behind the first name of a command. -/
def afterCommand (arguments : List String) : List String :=
  (arguments.dropWhile (Subcommand.ofName? · = none)).tail

/-- The program's own arguments ask for help. -/
def HelpBefore (arguments : List String) : Prop :=
  ∃ text ∈ beforeCommand arguments, HelpSpelling text

/-- The arguments of a command that has a help flag ask for help. Behind a
separator there are no flags. -/
def HelpAfter (arguments : List String) : Prop :=
  ∃ c, command? arguments = some c ∧ Flag.help ∈ c.signature.flags ∧
    ∃ text ∈ (afterCommand arguments).takeWhile (· ≠ "--"), HelpSpelling text

section Cut

variable {before : List String} (hbefore : ∀ text ∈ before, HelpSpelling text)
include hbefore

theorem nameless_of_helpSpellings :
    ∀ text ∈ before, decide (Subcommand.ofName? text = none) = true := by
  intro text htext
  exact decide_eq_true (ofName?_of_helpSpelling (hbefore text htext))

theorem exists_helpSpelling_iff : (∃ text ∈ before, HelpSpelling text) ↔ before ≠ [] := by
  constructor
  · rintro ⟨text, htext, -⟩
    exact List.ne_nil_of_mem htext
  · intro hne
    obtain ⟨text, htext⟩ := List.exists_mem_of_ne_nil before hne
    exact ⟨text, htext, hbefore text htext⟩

theorem command?_of_helpSpellings : command? before = none := by
  refine List.findSome?_eq_none_iff.mpr fun text htext => ?_
  exact ofName?_of_helpSpelling (hbefore text htext)

theorem beforeCommand_of_helpSpellings : beforeCommand before = before :=
  List.takeWhile_eq_self_iff.mpr (nameless_of_helpSpellings hbefore)

variable (c : Subcommand) (rest : List String)

theorem command?_append_name : command? (before ++ c.name :: rest) = some c := by
  have hnone : before.findSome? Subcommand.ofName? = none := command?_of_helpSpellings hbefore
  simp [command?, List.findSome?_append, hnone]

theorem beforeCommand_append_name : beforeCommand (before ++ c.name :: rest) = before := by
  rw [beforeCommand, List.takeWhile_append_of_pos (nameless_of_helpSpellings hbefore)]
  simp

theorem afterCommand_append_name : afterCommand (before ++ c.name :: rest) = rest := by
  rw [afterCommand, List.dropWhile_append_of_pos (nameless_of_helpSpellings hbefore)]
  simp

theorem helpAfter_append_name_iff : HelpAfter (before ++ c.name :: rest) ↔
    Flag.help ∈ c.signature.flags ∧ ∃ text ∈ rest.takeWhile (· ≠ "--"), HelpSpelling text := by
  rw [HelpAfter, command?_append_name hbefore, afterCommand_append_name hbefore]
  constructor
  · rintro ⟨_, hc, hmem, hspelling⟩
    rw [← Option.some.inj hc] at hmem
    exact ⟨hmem, hspelling⟩
  · rintro ⟨hmem, hspelling⟩
    exact ⟨c, rfl, hmem, hspelling⟩

end Cut

/-! ### When help wins -/

/-- The command and the help of an invocation, from the texts of the arguments. -/
theorem command_eq_and_help_iff {arguments : List String} {i : Invocation}
    (h : Invocation.ofArguments arguments = .ok i) :
    i.command = command? arguments ∧
      (i.help = true ↔ HelpAfter arguments ∨
        HelpBefore arguments ∧
          ∀ c, command? arguments = some c → Flag.help ∉ c.signature.flags) := by
  obtain ⟨before, hbefore, hshape⟩ := ofArguments_shape h
  rcases hshape with ⟨rfl, hcommand, hhelp⟩ |
      ⟨c, rest, inner, rfl, hcommand, hinner, hflagless, hflagged⟩
  · have hc := command?_of_helpSpellings hbefore
    have hasks : HelpBefore arguments ↔ arguments ≠ [] := by
      rw [HelpBefore, beforeCommand_of_helpSpellings hbefore, exists_helpSpelling_iff hbefore]
    simp [hcommand, hhelp, hasks, HelpAfter, hc]
  · have hc := command?_append_name hbefore c rest
    have hasks : HelpBefore (before ++ c.name :: rest) ↔ before ≠ [] := by
      rw [HelpBefore, beforeCommand_append_name hbefore, exists_helpSpelling_iff hbefore]
    have hafter := helpAfter_append_name_iff hbefore c rest
    by_cases hmem : Flag.help ∈ c.signature.flags
    · have hinnerHelp := help_of_read_command hmem hinner
      obtain ⟨hhelp, -⟩ := hflagged hmem
      simpa [hcommand, hhelp, hc, hafter, hmem] using hinnerHelp
    · have hhelp := hflagless hmem
      simp [hcommand, hhelp, hc, hafter, hmem, hasks]

theorem action_eq_usage_iff {i : Invocation} :
    i.action = .usage ↔ i.help = true ∨ i.command = none ∨ i.command = some .help := by
  unfold Invocation.action
  split
  · next hhelp => simp [hhelp]
  · next hhelp => split <;> simp_all

/-- A command line that asks for help is shown the usage, whatever standard
input is, when a command hears it or there is none that could overrule it. -/
theorem shows_usage_iff {arguments : List String} {i : Invocation}
    (hparse : Invocation.ofArguments arguments = .ok i)
    (hasks : HelpBefore arguments ∨ HelpAfter arguments) :
    (Action.ofArguments arguments = .ok .usage ∧
      ∀ console input, runCommand console arguments input = .success usageText) ↔
      HelpAfter arguments ∨
        ∀ c, command? arguments = some c → Flag.help ∉ c.signature.flags := by
  obtain ⟨hcommand, hhelp⟩ := command_eq_and_help_iff hparse
  have haction : Action.ofArguments arguments = .ok i.action := by
    rw [Action.ofArguments, hparse, Except.map]
  constructor
  · rintro ⟨husage, -⟩
    rw [haction] at husage
    rcases action_eq_usage_iff.mp (Except.ok.inj husage) with hi | hnone | hsome
    · rcases hhelp.mp hi with hafter | ⟨-, hflagless⟩
      · exact .inl hafter
      · exact .inr hflagless
    · right
      intro c hc
      rw [← hcommand, hnone] at hc
      cases hc
    · right
      intro c hc
      rw [← hcommand, hsome] at hc
      cases hc
      exact List.not_mem_nil
  · intro hheard
    have hi : i.help = true := by
      apply hhelp.mpr
      rcases hheard with hafter | hflagless
      · exact .inl hafter
      · rcases hasks with hbefore | hafter
        · exact .inr ⟨hbefore, hflagless⟩
        · exact .inl hafter
    have husage : i.action = .usage := action_eq_usage_iff.mpr (.inl hi)
    rw [husage] at haction
    refine ⟨haction, fun console input => ?_⟩
    rw [runCommand, haction]
    rfl

/-- The arguments in front of a command with a help flag might as well not be
there. -/
theorem ofArguments_from_command {arguments : List String} {i : Invocation}
    (hparse : Invocation.ofArguments arguments = .ok i) {c : Subcommand}
    (hc : command? arguments = some c) (hmem : Flag.help ∈ c.signature.flags) :
    Invocation.ofArguments (c.name :: afterCommand arguments) = .ok i := by
  obtain ⟨before, hbefore, hshape⟩ := ofArguments_shape hparse
  rcases hshape with ⟨rfl, -, -⟩ | ⟨c', rest, inner, rfl, -, -, -, hflagged⟩
  · rw [command?_of_helpSpellings hbefore] at hc
    cases hc
  · rw [command?_append_name hbefore] at hc
    cases hc
    obtain ⟨-, hrest⟩ := hflagged hmem
    rw [afterCommand_append_name hbefore]
    exact hrest

/-- A command line without errors that asks for help is shown the usage, and
standard input is not looked at, exactly when help is asked for behind the
command, or in front of a command that has no help flag, or with no command.
Otherwise the command runs as if help had not been asked for. -/
theorem help_wins_iff_heard {arguments : List String} {i : Invocation}
    (hparse : Invocation.ofArguments arguments = .ok i)
    (hasks : HelpBefore arguments ∨ HelpAfter arguments) :
    ((Action.ofArguments arguments = .ok .usage ∧
      ∀ console input, runCommand console arguments input = .success usageText) ↔
      HelpAfter arguments ∨
        ∀ c, command? arguments = some c → Flag.help ∉ c.signature.flags) ∧
    ∀ c, command? arguments = some c → Flag.help ∈ c.signature.flags →
      Invocation.ofArguments (c.name :: afterCommand arguments) = .ok i := by
  refine ⟨shows_usage_iff hparse hasks, fun c hc hmem => ?_⟩
  exact ofArguments_from_command hparse hc hmem

theorem help_wins_behind_split :
    Action.ofArguments ["--he", "split", "a", "-hf", "json"] = .ok .usage ∧
      ∀ console input,
        runCommand console ["--he", "split", "a", "-hf", "json"] input =
          .success usageText := by
  have hparse : Invocation.ofArguments ["--he", "split", "a", "-hf", "json"] =
      .ok ⟨true, some .split, some "a", .json⟩ := by
    cbv
  have hafter : HelpAfter ["--he", "split", "a", "-hf", "json"] :=
    ⟨.split, by decide, by decide, "-hf", by decide, by decide⟩
  exact (help_wins_iff_heard hparse (.inr hafter)).1.mpr (.inl hafter)

/-- Help in front of a command with a help flag of its own does not win: the
line is split. -/
theorem help_lost_before_split :
    Invocation.ofArguments ["-h", "split", "a"] = .ok ⟨false, some .split, some "a", .list⟩ ∧
      HelpBefore ["-h", "split", "a"] ∧
      ∀ input, runCommand .plain ["-h", "split", "a"] input ≠ .success usageText := by
  have hparse : Invocation.ofArguments ["-h", "split", "a"] =
      .ok ⟨false, some .split, some "a", .list⟩ := by
    cbv
  have hbefore : HelpBefore ["-h", "split", "a"] := ⟨"-h", by decide, by decide⟩
  have haction : Action.ofArguments ["-h", "split", "a"] = .ok (.split (some "a") .list) := by
    rw [Action.ofArguments, hparse]
    rfl
  refine ⟨hparse, hbefore, fun input => ?_⟩
  rw [runCommand, haction]
  change splitLine .plain .list "a" ≠ .success usageText
  decide

end LineTokens
