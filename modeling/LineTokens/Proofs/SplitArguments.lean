import LineTokens.Proofs.HelpFlag

/-!
What becomes of every argument of a command line that splits. The arguments in
front of the command do nothing but ask for help, and those behind it are the
line, a separator and formats with their flags, in any order and with nothing
left over.
-/

namespace LineTokens

theorem Role.spelling_append_value {text value : List Char} (h : value? text = some value) :
    spelling text ++ '=' :: value = text := by
  have happend := List.takeWhile_append_dropWhile (p := (· ≠ '=')) (l := text)
  cases hrest : text.dropWhile (· ≠ '=') with
  | nil =>
    rw [value?, hrest] at h
    cases h
  | cons mark rest =>
    have hmark : mark = '=' := by
      have hhead := List.head?_dropWhile_not (· ≠ '=') text
      rw [hrest] at hhead
      simpa using hhead
    rw [value?, hrest] at h
    cases h
    rw [hrest, hmark] at happend
    exact happend

/-! ### In front of the command -/

/-- The argument asks for help and does nothing else: the flag in short, with
more of its letter behind it, right there or behind an equals sign, or in long
from the first letter of the word on. -/
def AsksHelpOnly (text : String) : Prop :=
  (∃ n, text.toList = '-' :: 'h' :: List.replicate n 'h') ∨
    (∃ n, text.toList = '-' :: 'h' :: '=' :: List.replicate (n + 1) 'h') ∨
    (['-', '-', 'h'] <+: text.toList ∧ text.toList <+: Flag.help.long.toList)

/-- Where help is the only flag, no other letters can stand behind it. -/
theorem letters_of_takeLetters {r : Reading} {p : Reading.Progress} {letters : List Char}
    (h : Reading.takeLetters [.help] r letters = .ok p) :
    ∃ n, letters = List.replicate (n + 1) 'h' := by
  fun_induction Reading.takeLetters [.help] r letters with
  | case1 | case2 => cases h
  | case3 letter hfind =>
    have hletter := of_find?_eq_some hfind
    exact ⟨0, by rw [← hletter]; rfl⟩
  | case4 letter next rest hfind ih =>
    have hletter := of_find?_eq_some hfind
    obtain ⟨n, hrest⟩ := ih h
    exact ⟨n + 1, by rw [hrest, ← hletter]; rfl⟩
  | case5 _ hfind | case6 _ _ _ hfind =>
    have hmem := List.mem_of_find?_eq_some hfind
    cases hmem with
    | tail _ hmem => cases hmem

theorem asksHelpOnly_of_taken {text : String} {attachment : Attachment} {r : Reading}
    {p : Reading.Progress} (hspelling : HelpSpelling text)
    (hrole : Role.ofArgument [.help] text = .ok (.flag .help attachment))
    (htake : r.takeFlag [.help] .help attachment = .ok p) : AsksHelpOnly text := by
  have hspells := spells_of_ofArgument hrole
  unfold AsksHelpOnly
  unfold HelpSpelling at hspelling
  generalize text.toList = letters at hspells hspelling
  cases hspells with
  | short _ hname =>
    cases hvalue : Role.value? letters with
    | none =>
      rw [Role.spelling_eq_self hvalue] at hname
      exact .inl ⟨0, hname⟩
    | some value =>
      rw [hvalue] at htake
      obtain ⟨n, rfl⟩ := letters_of_takeLetters htake
      have hletters := Role.spelling_append_value hvalue
      rw [hname] at hletters
      exact .inr (.inl ⟨n, hletters.symm⟩)
  | long _ hname =>
    rcases hspelling with hshort | hlong
    · simp at hshort
    · exact .inr (.inr hlong)
  | attached _ =>
    obtain ⟨n, rfl⟩ := letters_of_takeLetters htake
    exact .inl ⟨n + 1, rfl⟩

/-- Spellings of the help flag in front of a command are all taken, so there is
nothing wrong with any of them. -/
theorem asksHelpOnly_of_reads {before rest : List String} {assigned : List Argument}
    {r r' : Reading} (hbefore : ∀ text ∈ before, HelpSpelling text)
    (hroles : assignRoles [.help] (before ++ rest) = .ok assigned)
    (hreads : Reads [.help] .command r assigned r') : ∀ text ∈ before, AsksHelpOnly text := by
  induction before generalizing assigned r with
  | nil => nofun
  | cons text before ih =>
    have hspelling : HelpSpelling text := hbefore text List.mem_cons_self
    have hsep : text ≠ "--" := by
      rintro rfl
      exact not_helpSpelling_separator hspelling
    obtain ⟨role, others, hrole, hothers, rfl⟩ := assignRoles_cons hsep hroles
    obtain ⟨attachment, hhelp, -⟩ := role_of_helpSpelling (.inl rfl) hspelling
    rw [hhelp] at hrole
    cases hrole
    cases hreads with
    | flag htake hrest =>
      have hothers := ih (fun t ht => hbefore t (List.mem_cons_of_mem _ ht)) hothers hrest
      exact List.forall_mem_cons.mpr ⟨asksHelpOnly_of_taken hspelling hhelp htake, hothers⟩
    | format htake _ _ =>
      have hformat := Reading.format_mem_of_takeFlag List.mem_cons_self htake
      exact absurd hformat (by decide)
    | command hrole => rcases hrole with hrole | hrole <;> cases hrole

/-! ### Behind the command -/

/-- The format flag, in short, or in long from the first letter of the word on. -/
def SpellsFormat (text : List Char) : Prop :=
  text = Flag.format.short.toList ∨
    (['-', '-', 'f'] <+: text ∧ text <+: Flag.format.long.toList)

instance (text : List Char) : Decidable (SpellsFormat text) :=
  inferInstanceAs (Decidable (_ ∨ _))

/-- The format flag as far as it stands in front of a value in the same
argument: in short, with or without an equals sign, or in long with one. -/
def LeadsToFormat (text : List Char) : Prop :=
  text = Flag.format.short.toList ∨ ∃ flag, SpellsFormat flag ∧ text = flag ++ ['=']

/-- Two dashes alone might be any flag. -/
theorem Role.spelling_ne_separator {text : String} {f : Flag} {attachment : Attachment}
    (h : ofArgument [.help, .format] text = .ok (.flag f attachment)) :
    spelling text.toList ≠ ['-', '-'] := by
  intro hname
  unfold ofArgument at h
  split at h
  · next second rest htext =>
    rw [htext] at hname
    have hsecond : second = '-' := by
      by_cases heq : second = '='
      · simp [spelling, heq] at hname
      · simp [spelling, heq] at hname
        exact hname.1
    subst hsecond
    have hshort : [Flag.help, .format].find? (·.short.toList = ['-', '-']) = none := by decide
    have hlong : [Flag.help, .format].find? (·.long.toList = ['-', '-']) = none := by decide
    have hboth : [Flag.help, .format].filter (fun f => ['-', '-'] <+: f.long.toList) =
        [.help, .format] := by
      decide
    simp only [hname, hshort, hlong, hboth, if_true] at h
    cases h
  · cases h

/-- Where there is another flag, the long spelling of the format flag needs one
letter at least. -/
theorem spellsFormat_of_prefix {name : List Char} (hname : name ≠ ['-', '-'])
    (hdashes : ∃ rest, name = '-' :: '-' :: rest) (hstart : name <+: Flag.format.long.toList) :
    SpellsFormat name := by
  obtain ⟨rest, rfl⟩ := hdashes
  refine .inr ⟨?_, hstart⟩
  cases rest with
  | nil => exact absurd rfl hname
  | cons letter rest =>
    have hlong : Flag.format.long.toList = ['-', '-', 'f', 'o', 'r', 'm', 'a', 't'] := by decide
    simp only [hlong, List.cons_prefix_cons] at hstart
    rw [hstart.2.2.1]
    exact List.prefix_append ['-', '-', 'f'] rest

/-- A format flag is spelled out, or has its value behind it. -/
theorem spells_of_format {text : String} {attachment : Attachment}
    (h : Role.ofArgument [.help, .format] text = .ok (.flag .format attachment)) :
    attachment = .none ∧ SpellsFormat text.toList ∨
      ∃ stem value, LeadsToFormat stem ∧ text.toList = stem ++ value ∧
        (attachment = .short value ∨ attachment = .long value) := by
  have hname := Role.spelling_ne_separator h
  have hspells := spells_of_ofArgument h
  generalize text.toList = letters at hname hspells
  cases hspells with
  | short _ hspelling =>
    cases hvalue : Role.value? letters with
    | none =>
      rw [Role.spelling_eq_self hvalue] at hspelling
      exact .inl ⟨rfl, .inl hspelling⟩
    | some value =>
      have hletters := Role.spelling_append_value hvalue
      rw [hspelling, List.append_cons] at hletters
      exact .inr ⟨_, value, .inr ⟨_, .inl rfl, rfl⟩, hletters.symm, .inl rfl⟩
  | @long rest _ _ hspelling =>
    have hdashes : ∃ name, Role.spelling ('-' :: '-' :: rest) = '-' :: '-' :: name :=
      ⟨Role.spelling rest, rfl⟩
    have hflag := spellsFormat_of_prefix hname hdashes hspelling
    cases hvalue : Role.value? ('-' :: '-' :: rest) with
    | none =>
      rw [Role.spelling_eq_self hvalue] at hflag
      exact .inl ⟨rfl, hflag⟩
    | some value =>
      have hletters := Role.spelling_append_value hvalue
      rw [List.append_cons] at hletters
      exact .inr ⟨_, value, .inr ⟨_, hflag, rfl⟩, hletters.symm, .inr rfl⟩
  | @attached value _ _ => exact .inr ⟨_, value, .inl rfl, rfl, .inl rfl⟩

/-! ### Shares of the arguments -/

/-- The arguments give a format: its name behind the format flag, as an argument
of its own or in the same one. -/
inductive GivesFormat : List String → Format → Prop
  | apart {flag : String} (f : Format) :
      SpellsFormat flag.toList → GivesFormat [flag, f.name] f
  | attached {stem : String} (f : Format) :
      LeadsToFormat stem.toList → GivesFormat [stem ++ f.name] f

/-- What some arguments behind the command are there for. A format flag with two
dashes for a name unsets the format: it is left empty, and the report is that of
`list`. -/
inductive Share where
  | format (arguments : List String) (f : Format)
  | unset (argument : String)
  | separator
  | line (text : String)
  deriving DecidableEq, Repr

namespace Share

def arguments : Share → List String
  | format arguments _ => arguments
  | unset argument => [argument]
  | separator => ["--"]
  | line text => [text]

/-- The arguments are spelled as they have to be. -/
def Accepted : Share → Prop
  | format arguments f => GivesFormat arguments f
  | unset argument => ∃ stem : String, LeadsToFormat stem.toList ∧ argument = stem ++ "--"
  | separator | line _ => True

def format? : Share → Option Format
  | format _ f => some f
  | unset _ => some .list
  | separator | line _ => none

def line? : Share → Option String
  | line text => some text
  | format _ _ | unset _ | separator => none

end Share

/-- The shares are all of the arguments, in order, and tell how these turn one
reading into another. Only where a line is looked for is there room for a
separator. -/
structure Partition (operand : Operand) (r r' : Reading) (arguments : List String)
    (shares : List Share) : Prop where
  arguments_eq : arguments = shares.flatMap Share.arguments
  accepted : ∀ share ∈ shares, share.Accepted
  separators : shares.count .separator ≤ if operand = .line then 1 else 0
  line_eq : r'.line.toList = r.line.toList ++ shares.filterMap Share.line?
  format_eq : r'.format = (shares.filterMap Share.format?).getLast?.getD r.format

theorem partition_nil (operand : Operand) (r : Reading) : Partition operand r r [] [] where
  arguments_eq := rfl
  accepted := nofun
  separators := Nat.zero_le _
  line_eq := (List.append_nil _).symm
  format_eq := rfl

/-- A share that sets the format is heeded until another one does. -/
theorem Partition.cons_format {operand : Operand} {r r' : Reading} {arguments : List String}
    {shares : List Share} {share : Share} {f : Format}
    (h : Partition operand { r with format := f } r' arguments shares)
    (haccepted : share.Accepted) (hformat : share.format? = some f) :
    Partition operand r r' (share.arguments ++ arguments) (share :: shares) where
  arguments_eq := by rw [List.flatMap_cons, h.arguments_eq]
  accepted := List.forall_mem_cons.mpr ⟨haccepted, h.accepted⟩
  separators := by
    have hsep : share ≠ .separator := by
      rintro rfl
      cases hformat
    rw [List.count_cons_of_ne hsep]
    exact h.separators
  line_eq := by
    have hline : share.line? = none := by
      cases share with
      | line text => cases hformat
      | format _ _ | unset _ | separator => rfl
    rw [List.filterMap_cons_none hline]
    exact h.line_eq
  format_eq := by
    rw [List.filterMap_cons_some hformat, List.getLast?_cons, Option.getD_some]
    exact h.format_eq

theorem Partition.separators_le_one {operand : Operand} {r r' : Reading}
    {arguments : List String} {shares : List Share}
    (h : Partition operand r r' arguments shares) : shares.count .separator ≤ 1 := by
  have hseparators := h.separators
  split at hseparators
  · exact hseparators
  · exact Nat.le_succ_of_le hseparators

theorem Partition.cons_line {operand : Operand} {r r' : Reading} {arguments : List String}
    {shares : List Share} {text : String}
    (h : Partition operand { r with line := some text } r' arguments shares)
    (hline : r.line = none) :
    Partition .line r r' (text :: arguments) (.line text :: shares) where
  arguments_eq := by rw [List.flatMap_cons, h.arguments_eq]; rfl
  accepted := List.forall_mem_cons.mpr ⟨trivial, h.accepted⟩
  separators := by
    have hsep : Share.line text ≠ .separator := by
      intro heq
      cases heq
    rw [List.count_cons_of_ne hsep]
    exact h.separators_le_one
  line_eq := by
    have hthis : (Share.line text).line? = some text := rfl
    rw [List.filterMap_cons_some hthis, hline]
    exact h.line_eq
  format_eq := h.format_eq

theorem Partition.no_separator {r r' : Reading} {arguments : List String}
    {shares : List Share} (h : Partition .none r r' arguments shares) :
    shares.count .separator = 0 :=
  Nat.le_zero.mp h.separators

theorem Partition.cons_separator {operand : Operand} {r r' : Reading} {arguments : List String}
    {shares : List Share} (h : Partition operand r r' arguments shares)
    (hnone : shares.count .separator = 0) :
    Partition .line r r' ("--" :: arguments) (.separator :: shares) where
  arguments_eq := by rw [List.flatMap_cons, h.arguments_eq]; rfl
  accepted := List.forall_mem_cons.mpr ⟨trivial, h.accepted⟩
  separators := by
    rw [List.count_cons_self, hnone]
    exact Nat.le_refl 1
  line_eq := h.line_eq
  format_eq := h.format_eq

/-! ### What readings take -/

theorem Format.eq_name_of_ofName? {name : String} {f : Format} (h : ofName? name = some f) :
    name = f.name := by
  have hname := of_find?_eq_some h
  exact hname.symm

section

variable {flags : List Flag} {text : String} {attachment : Attachment} {r r₁ r₂ : Reading}

/-- A format flag that is done has set the format or unset it. -/
theorem share_of_format_done
    (hrole : Role.ofArgument [.help, .format] text = .ok (.flag .format attachment))
    (htake : r.takeFlag flags .format attachment = .ok (.done r₁)) :
    ∃ (share : Share) (f : Format), share.arguments = [text] ∧ share.Accepted ∧
      share.format? = some f ∧ r₁ = { r with format := f } := by
  rcases spells_of_format hrole with ⟨rfl, -⟩ | ⟨stem, value, hstem, htext, hattachment⟩
  · cases htake
  · have hformat : r.takeFormat value = .ok (.done r₁) := by
      rcases hattachment with rfl | rfl <;> exact htake
    have hargument : text = String.ofList stem ++ String.ofList value := by
      rw [← String.ofList_append, ← htext, String.ofList_toList]
    rw [← String.toList_ofList (l := stem)] at hstem
    unfold Reading.takeFormat at hformat
    split at hformat
    · next hdashes =>
      rw [hdashes] at hargument
      cases hformat
      exact ⟨.unset text, .list, rfl, ⟨_, hstem, hargument⟩, rfl, rfl⟩
    · cases hset : r.setFormat (String.ofList value) with
      | error problem =>
        rw [hset] at hformat
        cases hformat
      | ok r₂ =>
        obtain ⟨f, hname, rfl⟩ := Reading.setFormat_eq_ok_iff.mp hset
        rw [hset] at hformat
        cases hformat
        rw [Format.eq_name_of_ofName? hname] at hargument
        exact ⟨.format [text] f, f, rfl, hargument ▸ .attached f hstem, rfl, rfl⟩

/-- A format flag that waits for a value is set to the next argument. -/
theorem givesFormat_of_next {value : String}
    (hrole : Role.ofArgument [.help, .format] text = .ok (.flag .format attachment))
    (htake : r.takeFlag flags .format attachment = .ok (.formatNext r₁))
    (hset : r₁.setFormat value = .ok r₂) :
    ∃ f, GivesFormat [text, value] f ∧ r₂ = { r with format := f } := by
  obtain ⟨f, hname, rfl⟩ := Reading.setFormat_eq_ok_iff.mp hset
  rw [Format.eq_name_of_ofName? hname]
  rcases spells_of_format hrole with ⟨rfl, hspells⟩ | ⟨stem, value, -, -, hattachment⟩
  · cases htake
    exact ⟨f, .apart f hspells, rfl⟩
  · have hformat : r.takeFormat value = .ok (.formatNext r₁) := by
      rcases hattachment with rfl | rfl <;> exact htake
    obtain ⟨f, hdone⟩ := Reading.done_of_takeFormat hformat
    cases hdone

end

/-- An argument behind `split` that does not ask for help, with the role that its
text tells. -/
structure Argument.Silent (a : Argument) : Prop where
  flag : ∀ f attachment, a.role = .flag f attachment →
    Role.ofArgument [.help, .format] a.text = .ok (.flag f attachment)
  separator : a.role = .separator → a.text = "--"
  no_help : ¬ a.AsksHelp

/-- Where help is not asked for, a flag that is taken is a format flag. -/
theorem Argument.Silent.format_of_takeFlag {flags : List Flag} {text : String} {f : Flag}
    {attachment : Attachment} (h : Silent ⟨text, .flag f attachment⟩) {r : Reading}
    {p : Reading.Progress} (htake : r.takeFlag flags f attachment = .ok p) : f = .format := by
  cases f with
  | format => rfl
  | help =>
    obtain ⟨hvalue, -⟩ := Reading.reading_of_takeFlag_help htake
    exact absurd ⟨attachment, rfl, hvalue⟩ h.no_help

/-- Arguments behind `split` that leave nothing over and do not ask for help are
formats, a line and a separator. -/
theorem Reads.exists_partition {operand : Operand} {r r' : Reading} {assigned : List Argument}
    (h : Reads [.help, .format] operand r assigned r') (hoperand : operand ≠ .command)
    (hline : operand = .line → r.line = none) (hsilent : ∀ a ∈ assigned, a.Silent)
    (hextras : r'.extras = []) :
    ∃ shares, Partition operand r r' (assigned.map Argument.text) shares := by
  have hextra {operand : Operand} {r : Reading} {text : String} {rest : List Argument}
      (h : Reads [.help, .format] operand (r.addExtra text) rest r') : False := by
    -- An extra is never taken back.
    have hprefix := h.extras_prefix
    rw [hextras] at hprefix
    simp [Reading.addExtra] at hprefix
  have hnone : Operand.none ≠ .command := by decide
  have hline' (r : Reading) : Operand.none = .line → r.line = none := by
    intro h
    cases h
  induction h with
  | @nil operand r => exact ⟨[], partition_nil operand r⟩
  | unknown hrest _ | surplus _ hrest _ => exact (hextra hrest).elim
  | command _ | lastSeparator => exact absurd rfl hoperand
  | flag htake _ ih =>
    obtain ⟨hthis, hrest⟩ := List.forall_mem_cons.mp hsilent
    obtain rfl := hthis.format_of_takeFlag htake
    obtain ⟨share, f, htext, haccepted, hformat, rfl⟩ :=
      share_of_format_done (hthis.flag _ _ rfl) htake
    obtain ⟨shares, hshares⟩ := ih hoperand hline hrest hextras hextra
    have hall := hshares.cons_format haccepted hformat
    rw [htext] at hall
    exact ⟨share :: shares, hall⟩
  | @format _ _ _ _ _ text value _ _ _ htake hset _ ih =>
    obtain ⟨hthis, hothers⟩ := List.forall_mem_cons.mp hsilent
    obtain ⟨-, hrest⟩ := List.forall_mem_cons.mp hothers
    obtain rfl := hthis.format_of_takeFlag htake
    obtain ⟨f, hgives, rfl⟩ := givesFormat_of_next (hthis.flag _ _ rfl) htake hset
    obtain ⟨shares, hshares⟩ := ih hoperand hline hrest hextras hextra
    have haccepted : (Share.format [text, value] f).Accepted := hgives
    exact ⟨.format [text, value] f :: shares, hshares.cons_format haccepted rfl⟩
  | @line _ _ text _ _ ih =>
    obtain ⟨-, hrest⟩ := List.forall_mem_cons.mp hsilent
    obtain ⟨shares, hshares⟩ := ih hnone (hline' _) hrest hextras hextra
    exact ⟨.line text :: shares, hshares.cons_line (hline rfl)⟩
  | @lineSeparator _ _ text mark _ _ ih =>
    obtain ⟨-, hothers⟩ := List.forall_mem_cons.mp hsilent
    obtain ⟨hmark, hrest⟩ := List.forall_mem_cons.mp hothers
    obtain rfl : mark = "--" := hmark.separator rfl
    obtain ⟨shares, hshares⟩ := ih hnone (hline' _) hrest hextras hextra
    have hmarked := hshares.cons_separator hshares.no_separator
    exact ⟨.line text :: .separator :: shares, hmarked.cons_line (hline rfl)⟩
  | @separatorLine _ _ text mark _ _ ih =>
    obtain ⟨hmark, hothers⟩ := List.forall_mem_cons.mp hsilent
    obtain ⟨-, hrest⟩ := List.forall_mem_cons.mp hothers
    obtain rfl : mark = "--" := hmark.separator rfl
    obtain ⟨shares, hshares⟩ := ih hnone (hline' _) hrest hextras hextra
    have hnoMark : (Share.line text :: shares).count .separator = 0 := by
      simp [hshares.no_separator]
    exact ⟨.separator :: .line text :: shares,
      (hshares.cons_line (hline rfl)).cons_separator hnoMark⟩
  | @separator _ _ mark _ _ ih =>
    obtain ⟨hmark, hrest⟩ := List.forall_mem_cons.mp hsilent
    obtain rfl : mark = "--" := hmark.separator rfl
    obtain ⟨shares, hshares⟩ := ih hnone (hline' _) hrest hextras hextra
    exact ⟨.separator :: shares, hshares.cons_separator hshares.no_separator⟩

/-! ### Command lines that split -/

/-- Where there is one flag only, every argument has a role. -/
theorem Role.exists_ofArgument_of_singleton (f : Flag) (text : String) :
    ∃ role, ofArgument [f] text = .ok role := by
  unfold ofArgument
  split
  · next second rest htext =>
    dsimp only
    split
    · exact ⟨_, rfl⟩
    · exact ⟨_, rfl⟩
    · split
      · by_cases hlong : spelling ('-' :: second :: rest) <+: f.long.toList
        · simp [hlong]
        · simp [hlong]
      · split <;> exact ⟨_, rfl⟩
  · exact ⟨_, rfl⟩

theorem exists_assignRoles_of_singleton (f : Flag) (arguments : List String) :
    ∃ assigned, assignRoles [f] arguments = .ok assigned := by
  induction arguments with
  | nil => exact ⟨[], rfl⟩
  | cons text rest ih =>
    obtain ⟨others, hothers⟩ := ih
    obtain ⟨role, hrole⟩ := Role.exists_ofArgument_of_singleton f text
    unfold assignRoles
    split
    · exact ⟨_, rfl⟩
    · exact ⟨⟨text, role⟩ :: others, by rw [hrole, hothers]; rfl⟩

/-- The program leaves the arguments behind `split` to it, whatever they are. -/
theorem action_of_split_read {rest : List String} {r : Reading}
    (h : Subcommand.split.signature.read rest = .ok r) (hhelp : r.help = false)
    (hextras : r.extras = []) :
    Action.ofArguments ("split" :: rest) = .ok (.split r.line r.format) := by
  obtain ⟨assigned, hroles⟩ := exists_assignRoles_of_singleton .help rest
  have houter : Signature.top.read ("split" :: rest) =
      .ok { Reading.empty with command := some ("split", rest) } :=
    top_read_name .split hroles
  have hmem : Flag.help ∈ Subcommand.split.signature.flags := by decide
  have hname : Subcommand.ofName? "split" = some .split := Subcommand.ofName?_name .split
  have hparse : Invocation.ofArguments ("split" :: rest) =
      .ok ⟨false, some .split, r.line, r.format⟩ := by
    rw [Invocation.ofArguments, houter]
    simp [bind, Except.bind, hname, h, hextras, hhelp, Invocation.conclude, Reading.empty, hmem]
  rw [Action.ofArguments, hparse]
  rfl

/-- A line behind a separator is taken as it stands. -/
theorem action_of_given_line (format : Format) (line : String) :
    Action.ofArguments ["split", "-f", format.name, "--", line] =
      .ok (.split (some line) format) := by
  have hread : Subcommand.split.signature.read ["-f", format.name, "--", line] =
      .ok { Reading.empty with format := format, line := some line } := by
    cases format <;> rfl
  exact action_of_split_read hread rfl rfl

theorem action_of_no_line (format : Format) :
    Action.ofArguments ["split", "-f", format.name] = .ok (.split none format) := by
  have hread : Subcommand.split.signature.read ["-f", format.name] =
      .ok { Reading.empty with format := format } := by
    cases format <;> decide +kernel
  exact action_of_split_read hread rfl rfl

/-! ### The whole command line -/

theorem Role.ofDashed_ne_separator (text : List Char) : ofDashed text ≠ .separator := by
  unfold ofDashed
  split
  · nofun
  · split <;> nofun

theorem Role.ofArgument_ne_separator (flags : List Flag) (text : String) :
    ofArgument flags text ≠ .ok .separator := by
  intro h
  unfold ofArgument at h
  split at h
  · dsimp only at h
    split at h
    · cases h
    · cases h
    · split at h
      · split at h
        · exact ofDashed_ne_separator _ (Except.ok.inj h)
        · cases h
        · cases h
      · split at h
        · cases h
        · exact ofDashed_ne_separator _ (Except.ok.inj h)
  · cases h

theorem text_of_separator {flags : List Flag} {arguments : List String}
    {assigned : List Argument} (h : assignRoles flags arguments = .ok assigned) {a : Argument}
    (hmem : a ∈ assigned) (hrole : a.role = .separator) : a.text = "--" := by
  rcases cases_of_mem_assignRoles h hmem with ⟨-, htold⟩ | rfl | hoperand
  · rw [hrole] at htold
    exact absurd htold (Role.ofArgument_ne_separator flags a.text)
  · rfl
  · rw [hoperand] at hrole
    cases hrole

theorem exists_partition_of_read {arguments : List String} {r : Reading}
    (h : Subcommand.split.signature.read arguments = .ok r) (hhelp : r.help = false)
    (hextras : r.extras = []) :
    ∃ shares, Partition .line .empty r arguments shares := by
  obtain ⟨assigned, hroles, hreads⟩ := reads_of_signature_read h
  have hnoHelp : ¬ ∃ a ∈ assigned, a.AsksHelp := by
    intro hasks
    have htrue := (hreads.help_iff nofun).mpr (.inr hasks)
    rw [hhelp] at htrue
    cases htrue
  have hsilent (a : Argument) (ha : a ∈ assigned) : a.Silent := by
    refine ⟨fun f attachment hflag => ?_, text_of_separator hroles ha, fun hasks => ?_⟩
    · exact (ofArgument_of_assignRoles hroles ha hflag).2
    · exact hnoHelp ⟨a, ha, hasks⟩
  obtain ⟨shares, hshares⟩ := hreads.exists_partition nofun (fun _ => rfl) hsilent hextras
  rw [map_text_of_assignRoles hroles] at hshares
  exact ⟨shares, hshares⟩

/-- A command line that splits names `split`, asks for no help, and reads the
line and the format behind the name. -/
theorem invocation_of_split {arguments : List String} {line? : Option String} {format : Format}
    (h : Action.ofArguments arguments = .ok (.split line? format)) :
    Invocation.ofArguments arguments = .ok ⟨false, some .split, line?, format⟩ := by
  unfold Action.ofArguments at h
  cases hparse : Invocation.ofArguments arguments with
  | error e =>
    rw [hparse] at h
    cases h
  | ok i =>
    rw [hparse] at h
    have haction : i.action = .split line? format := Except.ok.inj h
    unfold Invocation.action at haction
    obtain ⟨help, command, line, format'⟩ := i
    cases help with
    | true => cases haction
    | false =>
      rcases command with - | c
      · cases haction
      · cases c <;> cases haction
        rfl

/-- No argument of a command line that splits is lost or altered, but for the
two dashes that may stand for a format. In front of the command there is nothing
but requests for help. Behind it there are format flags, each with the name of a
format or with two dashes, at most one separator, and at most one more argument,
which is the line as it stands; without it there is no line. The format is the
last one named, where two dashes leave it empty. An empty format is shown, and
written here, like `list`, which is also the format without any flag. -/
theorem arguments_of_split {arguments : List String} {line? : Option String} {format : Format}
    (h : Action.ofArguments arguments = .ok (.split line? format)) :
    ∃ (before : List String) (shares : List Share),
      arguments = before ++ "split" :: shares.flatMap Share.arguments ∧
      (∀ text ∈ before, AsksHelpOnly text) ∧ (∀ share ∈ shares, share.Accepted) ∧
      shares.count .separator ≤ 1 ∧ shares.filterMap Share.line? = line?.toList ∧
      format = (shares.filterMap Share.format?).getLast?.getD .list := by
  obtain ⟨outer, houter, houterExtras, hread⟩ := ofArguments_eq_ok (invocation_of_split h)
  rcases hread with ⟨-, hnone, -⟩ | ⟨c, rest, inner, hcommand, hinner, hextras, hinvocation⟩
  · cases hnone
  simp only [Invocation.mk.injEq, Option.some.injEq] at hinvocation
  obtain ⟨hhelp, rfl, rfl, rfl⟩ := hinvocation
  have hmem : Flag.help ∈ Subcommand.split.signature.flags := by decide
  rw [if_pos hmem] at hhelp
  obtain ⟨shares, hshares⟩ := exists_partition_of_read hinner hhelp.symm hextras
  obtain ⟨before, hbefore, -, hshape⟩ := top_read_shape houter houterExtras
  rcases hshape with ⟨-, hnone⟩ | ⟨name, rest, rfl, hsome⟩
  · rw [hcommand] at hnone
    cases hnone
  rw [hcommand] at hsome
  cases hsome
  obtain ⟨assigned, hroles, hreads⟩ := reads_of_signature_read houter
  refine ⟨before, shares, ?_, asksHelpOnly_of_reads hbefore hroles hreads, hshares.accepted,
    hshares.separators, hshares.line_eq.symm, hshares.format_eq⟩
  rw [hshares.arguments_eq]
  rfl

theorem arguments_of_split_behind_help :
    let arguments := ["-h=h", "--he", "split", "--fo=json", "-f", "lines", "--", "-x y"]
    Action.ofArguments arguments = .ok (.split (some "-x y") .lines) ∧
      ∃ (before : List String) (shares : List Share),
        arguments = before ++ "split" :: shares.flatMap Share.arguments ∧
        (∀ text ∈ before, AsksHelpOnly text) ∧ (∀ share ∈ shares, share.Accepted) ∧
        shares.count .separator ≤ 1 ∧ shares.filterMap Share.line? = ["-x y"] ∧
        Format.lines = (shares.filterMap Share.format?).getLast?.getD .list := by
  intro arguments
  have haction : Action.ofArguments arguments = .ok (.split (some "-x y") .lines) := by
    decide +kernel
  exact ⟨haction, arguments_of_split haction⟩

/-- A name that ends in a dash is no format's. -/
theorem not_givesFormat_dashes (rest : List String) (f : Format) :
    ¬ GivesFormat ("-f--" :: rest) f := by
  intro h
  generalize htext : "-f--" = text at h
  cases h with
  | apart f hspells =>
    rw [← htext] at hspells
    exact absurd hspells (by decide)
  | @attached stem f _ =>
    have hlast := congrArg (·.toList.getLast?) htext
    cases f <;> simp [Format.name] at hlast

/-- Two dashes right behind the format flag are taken although they name no
format and are neither a separator nor the line: with accepted formats alone the
arguments of this split cannot be told apart. -/
theorem format_unset_by_dashes :
    Action.ofArguments ["split", "-f--", "x"] = .ok (.split (some "x") .list) ∧
      ¬ ∃ shares : List Share, ["-f--", "x"] = shares.flatMap Share.arguments ∧
        (∀ share ∈ shares, share.Accepted ∧ ∀ argument, share ≠ .unset argument) ∧
        shares.filterMap Share.line? = ["x"] := by
  refine ⟨by decide +kernel, ?_⟩
  rintro ⟨shares, harguments, haccepted, hline⟩
  cases shares with
  | nil => cases harguments
  | cons share shares =>
    obtain ⟨hshare, hset⟩ := haccepted share List.mem_cons_self
    rw [List.flatMap_cons] at harguments
    cases share with
    | unset argument => exact hset argument rfl
    | separator => simp [Share.arguments] at harguments
    | line text =>
      simp only [Share.arguments, List.singleton_append, List.cons.injEq] at harguments
      rw [List.filterMap_cons, Share.line?, ← harguments.1] at hline
      simp at hline
    | format arguments f =>
      cases arguments with
      | nil => cases hshare
      | cons argument rest =>
        obtain rfl : "-f--" = argument := (List.cons.inj harguments).1
        exact not_givesFormat_dashes rest f hshare

end LineTokens
