import LineTokens.Proofs.FirstLine

/-!
Format options around a line. Options are read wherever they stand and do
nothing but set the format, so the order of options and line matters only as far
as the last option wins. How an option is spelled does not matter at all.
-/

namespace LineTokens

/-! ### The role of a format option -/

/-- The short spelling, or the long one up to five letters short. -/
theorem eq_short_or_take_of_spellsFormat {name : List Char} (h : SpellsFormat name) :
    name = ['-', 'f'] ∨
      ∃ n ∈ [3, 4, 5, 6, 7, 8], name = ['-', '-', 'f', 'o', 'r', 'm', 'a', 't'].take n := by
  rcases h with hshort | ⟨hword, hlong⟩
  · exact .inl hshort
  · right
    have hlength : 3 ≤ name.length ∧ name.length ≤ 8 := ⟨hword.length_le, hlong.length_le⟩
    refine ⟨name.length, ?_, List.prefix_iff_eq_take.mp hlong⟩
    simp only [List.mem_cons, List.not_mem_nil, or_false]
    omega

/-- An argument that spells the format flag, up to an equals sign if it has one,
is this flag with what stands behind the sign. -/
theorem Role.ofArgument_of_spellsFormat {text : String}
    (h : SpellsFormat (spelling text.toList)) :
    ∃ attach : List Char → Attachment, (attach = .short ∨ attach = .long) ∧
      ofArgument [.help, .format] text =
        .ok (.flag .format ((value? text.toList).elim .none attach)) := by
  have hfront : spelling text.toList <+: text.toList := List.takeWhile_prefix _
  unfold ofArgument
  rcases eq_short_or_take_of_spellsFormat h with hname | ⟨n, hn, hname⟩
  · obtain ⟨rest, hrest⟩ := hname ▸ hfront
    rw [← hrest] at hname ⊢
    simp only [List.cons_append, List.nil_append] at hname ⊢
    simp only [hname]
    exact ⟨.short, .inl rfl, rfl⟩
  · refine ⟨.long, .inr rfl, ?_⟩
    simp only [List.mem_cons, List.not_mem_nil, or_false] at hn
    -- Which flag a long spelling means is looked up for each length.
    rcases hn with rfl | rfl | rfl | rfl | rfl | rfl <;>
    · obtain ⟨rest, hrest⟩ := hname ▸ hfront
      rw [← hrest] at hname ⊢
      simp only [List.take, List.cons_append, List.nil_append] at hname ⊢
      simp only [hname]
      rfl

theorem equals_not_mem_of_spellsFormat {name : List Char} (h : SpellsFormat name) :
    '=' ∉ name := by
  rcases eq_short_or_take_of_spellsFormat h with rfl | ⟨n, -, rfl⟩
  · decide
  · intro hmem
    exact absurd (List.mem_of_mem_take hmem) (by decide)

theorem decide_ne_equals {name : List Char} (h : '=' ∉ name) :
    ∀ c ∈ name, decide (c ≠ '=') = true := by
  intro c hc
  exact decide_eq_true (ne_of_mem_of_not_mem hc h)

theorem Role.spelling_and_value_append {name : List Char} (h : '=' ∉ name)
    (value : List Char) :
    spelling (name ++ '=' :: value) = name ∧ value? (name ++ '=' :: value) = some value := by
  constructor
  · rw [spelling, List.takeWhile_append_of_pos (decide_ne_equals h)]
    simp
  · rw [value?, List.dropWhile_append_of_pos (decide_ne_equals h)]
    simp

/-- A spelling of the flag with nothing behind it waits for the format. -/
theorem role_of_spellsFormat {flag : String} (h : SpellsFormat flag.toList) :
    Role.ofArgument [.help, .format] flag = .ok (.flag .format .none) := by
  have hpass := decide_ne_equals (equals_not_mem_of_spellsFormat h)
  have hname : Role.spelling flag.toList = flag.toList := List.takeWhile_eq_self_iff.mpr hpass
  have hvalue : Role.value? flag.toList = none := by
    rw [Role.value?, List.dropWhile_eq_nil_iff.mpr hpass, List.tail?_nil]
  obtain ⟨attach, -, hrole⟩ := Role.ofArgument_of_spellsFormat (hname.symm ▸ h)
  rw [hrole, hvalue]
  rfl

/-- What stands behind the flag in the same argument is attached to it. -/
theorem role_of_leadsToFormat {stem : String} (h : LeadsToFormat stem.toList) (f : Format) :
    ∃ attachment, (attachment = .short f.name.toList ∨ attachment = .long f.name.toList) ∧
      Role.ofArgument [.help, .format] (stem ++ f.name) = .ok (.flag .format attachment) := by
  rcases h with hshort | ⟨flag, hflag, hstem⟩
  · obtain rfl : stem = "-f" := String.toList_inj.mp hshort
    exact ⟨.short f.name.toList, .inl rfl, by cases f <;> cbv⟩
  · have htext : (stem ++ f.name).toList = flag ++ '=' :: f.name.toList := by
      rw [String.toList_append, hstem, List.append_assoc, List.singleton_append]
    obtain ⟨hname, hvalue⟩ :=
      Role.spelling_and_value_append (equals_not_mem_of_spellsFormat hflag) f.name.toList
    rw [← htext] at hname hvalue
    obtain ⟨attach, hattach, hrole⟩ := Role.ofArgument_of_spellsFormat (hname.symm ▸ hflag)
    rw [hvalue] at hrole
    refine ⟨attach f.name.toList, ?_, hrole⟩
    rcases hattach with rfl | rfl
    · exact .inl rfl
    · exact .inr rfl

/-! ### Arguments that are read wherever they stand -/

/-- The arguments are read in front of any others, whether or not the operand is
still free, and all that they do is to change what has been read. None of them
is a separator. -/
def Changes (flags : List Flag) (arguments : List String) (change : Reading → Reading) : Prop :=
  ∃ assigned : List Argument,
    (∀ a ∈ assigned, a.role ≠ .separator) ∧
    (∀ rest, assignRoles flags (arguments ++ rest) =
      (assignRoles flags rest).map (assigned ++ ·)) ∧
    ∀ operand (r : Reading) others,
      r.read flags operand (assigned ++ others) = (change r).read flags operand others

section

variable {flags : List Flag} {arguments more : List String} {change change' : Reading → Reading}

theorem changes_nil (flags : List Flag) : Changes flags [] id := by
  refine ⟨[], nofun, fun rest => ?_, fun _ _ _ => rfl⟩
  cases hrest : assignRoles flags rest <;> simp [hrest, Except.map]

theorem Changes.append (h : Changes flags arguments change) (h' : Changes flags more change') :
    Changes flags (arguments ++ more) (change' ∘ change) := by
  obtain ⟨assigned, hseparator, hroles, hread⟩ := h
  obtain ⟨assigned', hseparator', hroles', hread'⟩ := h'
  refine ⟨assigned ++ assigned', ?_, fun rest => ?_, fun operand r others => ?_⟩
  · intro a ha
    rcases List.mem_append.mp ha with hfirst | hsecond
    · exact hseparator a hfirst
    · exact hseparator' a hsecond
  · rw [List.append_assoc, hroles, hroles']
    cases assignRoles flags rest <;> simp [Except.map]
  · rw [List.append_assoc, hread, hread']
    rfl

theorem assignRoles_cons_of_role {text : String} {role : Role} (hsep : text ≠ "--")
    (hrole : Role.ofArgument flags text = .ok role) (rest : List String) :
    assignRoles flags (text :: rest) = (assignRoles flags rest).map (⟨text, role⟩ :: ·) := by
  rw [assignRoles, if_neg hsep, hrole]
  cases assignRoles flags rest <;> rfl

end

theorem takeFormat_name (r : Reading) (f : Format) :
    r.takeFormat f.name.toList = .ok (.done { r with format := f }) := by
  have hdashes : f.name.toList ≠ ['-', '-'] := by
    cases f <;> decide
  rw [Reading.takeFormat, if_neg hdashes, String.ofList_toList, Reading.setFormat,
    Format.ofName?_name]
  rfl

theorem changes_of_apart {flag : String} (h : SpellsFormat flag.toList) (f : Format) :
    Changes [.help, .format] [flag, f.name] fun r => { r with format := f } := by
  have hflag : flag ≠ "--" := by
    rintro rfl
    exact absurd h (by decide)
  have hname : f.name ≠ "--" := by
    cases f <;> decide
  have hrole := role_of_spellsFormat h
  have hvalue : Role.ofArgument [.help, .format] f.name = .ok .operand := by
    cases f <;> cbv
  refine ⟨[⟨flag, .flag .format .none⟩, ⟨f.name, .operand⟩], by simp, fun rest => ?_,
    fun operand r others => ?_⟩
  · simp only [List.cons_append, List.nil_append]
    rw [assignRoles_cons_of_role hflag hrole, assignRoles_cons_of_role hname hvalue]
    cases assignRoles [.help, .format] rest <;> rfl
  · simp [Reading.read, Reading.takeFlag, Reading.setFormat]

theorem changes_of_attached {stem : String} (h : LeadsToFormat stem.toList) (f : Format) :
    Changes [.help, .format] [stem ++ f.name] fun r => { r with format := f } := by
  have hsep : stem ++ f.name ≠ "--" := by
    intro heq
    have hlast := congrArg (·.toList.getLast?) heq
    cases f <;> simp [Format.name] at hlast
  obtain ⟨attachment, hattachment, hrole⟩ := role_of_leadsToFormat h f
  refine ⟨[⟨stem ++ f.name, .flag .format attachment⟩], by simp, fun rest => ?_,
    fun operand r others => ?_⟩
  · exact assignRoles_cons_of_role hsep hrole rest
  · have htake : r.takeFlag [.help, .format] .format attachment =
        .ok (.done { r with format := f }) := by
      rcases hattachment with rfl | rfl <;> exact takeFormat_name r f
    simp [Reading.read, htake]

/-- An option sets the format. -/
theorem changes_of_givesFormat {arguments : List String} {f : Format}
    (h : GivesFormat arguments f) :
    Changes [.help, .format] arguments fun r => { r with format := f } := by
  cases h with
  | apart _ hspells => exact changes_of_apart hspells f
  | attached _ hleads => exact changes_of_attached hleads f

/-- A format option: the format by its name, behind the flag in short or in long
with at least one letter of its word, as an argument of its own or in the same
one, there with an equals sign or, behind the short flag, without. -/
structure FormatOption where
  arguments : List String
  format : Format
  gives : GivesFormat arguments format

/-- Of several options, the last one counts. -/
theorem changes_of_options (options : List FormatOption) :
    Changes [.help, .format] (options.flatMap FormatOption.arguments) fun r =>
      { r with format := (options.map FormatOption.format).getLast?.getD r.format } := by
  induction options with
  | nil => exact changes_nil _
  | cons o options ih =>
    have hthis := changes_of_givesFormat o.gives
    have hall := hthis.append ih
    simpa [Function.comp_def, List.getLast?_cons] using hall

/-! ### The line among options -/

theorem role_of_not_dashed {line : String} (h : line.toList.head? ≠ some '-')
    (flags : List Flag) : Role.ofArgument flags line = .ok .operand := by
  unfold Role.ofArgument
  split
  · next second rest htext =>
    rw [htext] at h
    exact absurd rfl h
  · rfl

/-- The line takes a separator behind it along, but nothing else. -/
theorem read_line_of_no_separator {flags : List Flag} {r : Reading} {text : String}
    {others : List Argument} (h : ∀ a ∈ others, a.role ≠ .separator) :
    r.read flags .line (⟨text, .operand⟩ :: others) =
      { r with line := some text }.read flags .none others := by
  rw [Reading.read]
  intro mark rest hothers
  rw [hothers] at h
  exact h _ List.mem_cons_self rfl

/-- Between arguments that do nothing but change what has been read, the line is
read where it stands. -/
theorem read_line_between {flags : List Flag} {before after : List String}
    {change change' : Reading → Reading} (hbefore : Changes flags before change)
    (hafter : Changes flags after change') {line : String} (hsep : line ≠ "--")
    (hrole : Role.ofArgument flags line = .ok .operand) :
    ∃ assigned, assignRoles flags (before ++ line :: after) = .ok assigned ∧
      ∀ r : Reading, r.read flags .line assigned =
        .ok (change' { change r with line := some line }) := by
  obtain ⟨front, -, hfrontRoles, hfrontRead⟩ := hbefore
  obtain ⟨back, hseparator, hbackRoles, hbackRead⟩ := hafter
  have hback : assignRoles flags after = .ok back := by
    have hroles := hbackRoles []
    simpa [assignRoles, Except.map] using hroles
  refine ⟨front ++ ⟨line, .operand⟩ :: back, ?_, fun r => ?_⟩
  · rw [hfrontRoles, assignRoles_cons_of_role hsep hrole, hback]
    rfl
  · have hend := hbackRead .none { change r with line := some line } []
    rw [List.append_nil] at hend
    rw [hfrontRead, read_line_of_no_separator hseparator, hend, Reading.read]

theorem read_line_among_options {line : String} (hline : line.toList.head? ≠ some '-')
    (before after : List FormatOption) :
    Subcommand.split.signature.read
        (before.flatMap FormatOption.arguments ++ line :: after.flatMap FormatOption.arguments) =
      .ok { Reading.empty with
        line := some line
        format := ((before ++ after).map FormatOption.format).getLast?.getD .list } := by
  have hsep : line ≠ "--" := by
    rintro rfl
    exact hline rfl
  obtain ⟨assigned, hroles, hread⟩ := read_line_between (changes_of_options before)
    (changes_of_options after) hsep (role_of_not_dashed hline _)
  rw [Signature.read]
  change (assignRoles [.help, .format] _ >>= _).mapError _ = _
  rw [hroles]
  change (Reading.empty.read [.help, .format] .line _).mapError _ = _
  rw [hread, List.map_append, List.getLast?_append]
  cases (after.map FormatOption.format).getLast? <;> rfl

/-- A line that does not start with a dash is split as it stands, wherever it
stands among format options and however these are spelled. The format is that of
the last option, and `list` without any. Standard input has no say in the
outcome. -/
theorem line_among_format_options (console : Console) {line : String}
    (hline : line.toList.head? ≠ some '-') (before after : List FormatOption)
    (input : StandardInput) :
    let arguments := "split" ::
      (before.flatMap FormatOption.arguments ++ line :: after.flatMap FormatOption.arguments)
    let format := ((before ++ after).map FormatOption.format).getLast?.getD .list
    Action.ofArguments arguments = .ok (.split (some line) format) ∧
      runCommand console arguments input = split console (some line) format input ∧
      runProgram console arguments input = split console (some line) format input := by
  intro arguments format
  have haction : Action.ofArguments arguments = .ok (.split (some line) format) :=
    action_of_split_read (read_line_among_options hline before after) rfl rfl
  have hcommand : runCommand console arguments input = split console (some line) format input :=
    runCommand_of_split haction input
  refine ⟨haction, hcommand, ?_⟩
  rw [runProgram, hcommand]
  exact guarded_splitLine format line

/-- An empty line between options in four spellings. -/
theorem empty_line_among_format_options :
    ("".toList.head? ≠ some '-') ∧
      runProgram .plain ["split", "-fjson", "--f", "lines", "", "--form=list", "-f=json"]
          (.failing (.broken "gone")) =
        split .plain (some "") .json (.failing (.broken "gone")) := by
  have hline : "".toList.head? ≠ some '-' := by decide
  let before : List FormatOption :=
    [⟨["-fjson"], .json, @GivesFormat.attached "-f" .json (.inl rfl)⟩,
      ⟨["--f", "lines"], .lines, .apart .lines (by decide)⟩]
  let after : List FormatOption :=
    [⟨["--form=list"], .list,
        @GivesFormat.attached "--form=" .list (.inr ⟨"--form".toList, by decide, rfl⟩)⟩,
      ⟨["-f=json"], .json,
        @GivesFormat.attached "-f=" .json (.inr ⟨"-f".toList, by decide, rfl⟩)⟩]
  obtain ⟨-, -, hprogram⟩ :=
    line_among_format_options .plain hline before after (.failing (.broken "gone"))
  exact ⟨hline, hprogram⟩

end LineTokens
