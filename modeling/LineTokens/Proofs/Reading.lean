import LineTokens.Arguments.Invocation

/-!
Reading arguments as a judgment with one rule for each thing that can become of
an argument. Proofs about readings go by these rules and leave the recursion of
the reader closed.
-/

namespace LineTokens

theorem of_find?_eq_some {α : Type} {p : α → Prop} [DecidablePred p] {xs : List α}
    {x : α} (h : xs.find? (fun y => decide (p y)) = some x) : p x := by
  have hfound := List.find?_some h
  exact of_decide_eq_true hfound

section Results

variable {ε ε' α β : Type}

theorem bind_eq_ok {x : Except ε α} {f : α → Except ε β} {b : β} :
    x >>= f = .ok b ↔ ∃ a, x = .ok a ∧ f a = .ok b := by
  cases x <;> simp [bind, Except.bind]

theorem mapError_eq_ok {x : Except ε α} {f : ε → ε'} {a : α} :
    x.mapError f = .ok a ↔ x = .ok a := by
  cases x with
  | error e =>
    constructor <;> intro h <;> cases h
  | ok b =>
    constructor <;> intro h <;> cases h <;> rfl

end Results

/-! ### The roles of arguments -/

/-- How a flag can be spelled, and what comes attached to it: in short or in
long with a value behind an equals sign or with none, where the long spelling
may be cut short, or in short with more text right behind it. -/
inductive Spells (flags : List Flag) : List Char → Flag → Attachment → Prop
  | short {text : List Char} {f : Flag} :
      f ∈ flags → Role.spelling text = f.short.toList →
        Spells flags text f ((Role.value? text).elim .none .short)
  | long {text : List Char} {f : Flag} :
      f ∈ flags → Role.spelling ('-' :: '-' :: text) <+: f.long.toList →
        Spells flags ('-' :: '-' :: text) f
          ((Role.value? ('-' :: '-' :: text)).elim .none .long)
  | attached {rest : List Char} {f : Flag} :
      f ∈ flags → Spells flags ('-' :: f.letter :: rest) f (.short rest)

theorem Spells.mem {flags : List Flag} {text : List Char} {f : Flag} {attachment : Attachment}
    (h : Spells flags text f attachment) : f ∈ flags := by
  cases h <;> assumption

theorem Role.ofDashed_ne_flag (text : List Char) (f : Flag) (attachment : Attachment) :
    ofDashed text ≠ .flag f attachment := by
  unfold ofDashed
  split
  · nofun
  · split <;> nofun

theorem Role.second_of_spelling_eq_long {f : Flag} {second : Char} {rest : List Char}
    (h : f.long.toList = spelling ('-' :: second :: rest)) : second = '-' := by
  have hlong : ∃ word, f.long.toList = '-' :: '-' :: word := by
    cases f <;> exact ⟨_, rfl⟩
  obtain ⟨word, hword⟩ := hlong
  rw [hword] at h
  by_cases hsecond : second = '='
  · simp [spelling, hsecond] at h
  · simp [spelling, hsecond] at h
    exact h.1.symm

theorem spells_of_ofArgument {flags : List Flag} {text : String} {f : Flag}
    {attachment : Attachment} (h : Role.ofArgument flags text = .ok (.flag f attachment)) :
    Spells flags text.toList f attachment := by
  unfold Role.ofArgument at h
  split at h
  · next second rest htext =>
    rw [htext]
    dsimp only at h
    split at h
    · next g _ hfind =>
      cases h
      have hspelling := of_find?_eq_some hfind
      exact .short (List.mem_of_find?_eq_some hfind) hspelling.symm
    · next g hshort hfind =>
      cases h
      have hspelling := of_find?_eq_some hfind
      obtain rfl : second = '-' := Role.second_of_spelling_eq_long hspelling
      exact .long (List.mem_of_find?_eq_some hfind) (hspelling ▸ List.prefix_rfl)
    · next hshort hlong =>
      split at h
      · next hsecond =>
        subst hsecond
        split at h
        · exact absurd (Except.ok.inj h) (Role.ofDashed_ne_flag _ _ _)
        · next g hfilter =>
          cases h
          have hmem : f ∈ flags.filter fun f =>
              Role.spelling ('-' :: '-' :: rest) <+: f.long.toList := by
            rw [hfilter]
            exact List.mem_singleton_self f
          obtain ⟨hf, hprefix⟩ := List.mem_filter.mp hmem
          exact .long hf (of_decide_eq_true hprefix)
        · cases h
      · next hsecond =>
        split at h
        · next g hfind =>
          cases h
          have hletter := of_find?_eq_some hfind
          subst hletter
          exact .attached (List.mem_of_find?_eq_some hfind)
        · exact absurd (Except.ok.inj h) (Role.ofDashed_ne_flag _ _ _)
  · cases h

theorem assignRoles_cons {flags : List Flag} {text : String} {rest : List String}
    {assigned : List Argument} (hsep : text ≠ "--")
    (h : assignRoles flags (text :: rest) = .ok assigned) :
    ∃ role others, Role.ofArgument flags text = .ok role ∧
      assignRoles flags rest = .ok others ∧ assigned = ⟨text, role⟩ :: others := by
  rw [assignRoles, if_neg hsep] at h
  obtain ⟨role, hrole, h⟩ := bind_eq_ok.mp h
  obtain ⟨others, hothers, h⟩ := bind_eq_ok.mp h
  exact ⟨role, others, hrole, hothers, (Except.ok.inj h).symm⟩

theorem assignRoles_separator {flags : List Flag} {rest : List String}
    {assigned : List Argument} (h : assignRoles flags ("--" :: rest) = .ok assigned) :
    assigned = ⟨"--", .separator⟩ :: rest.map fun t => ⟨t, .operand⟩ := by
  rw [assignRoles, if_pos rfl] at h
  exact (Except.ok.inj h).symm

/-- The texts of the arguments stay as they are. -/
theorem map_text_of_assignRoles {flags : List Flag} {arguments : List String}
    {assigned : List Argument} (h : assignRoles flags arguments = .ok assigned) :
    assigned.map Argument.text = arguments := by
  induction arguments generalizing assigned with
  | nil => rw [← Except.ok.inj h, List.map_nil]
  | cons text rest ih =>
    by_cases hsep : text = "--"
    · subst hsep
      rw [assignRoles_separator h]
      simp [Function.comp_def]
    · obtain ⟨role, others, -, hothers, rfl⟩ := assignRoles_cons hsep h
      rw [List.map_cons, ih hothers]

/-- An argument is told by its own text in front of the separator, is the separator
itself, or stands behind it, where all are operands. -/
theorem cases_of_mem_assignRoles {flags : List Flag} {arguments : List String}
    {assigned : List Argument} (h : assignRoles flags arguments = .ok assigned) {a : Argument}
    (hmem : a ∈ assigned) :
    (a.text ≠ "--" ∧ Role.ofArgument flags a.text = .ok a.role) ∨ a = ⟨"--", .separator⟩ ∨
      a.role = .operand := by
  induction arguments generalizing assigned with
  | nil =>
    rw [← Except.ok.inj h] at hmem
    cases hmem
  | cons text rest ih =>
    by_cases hsep : text = "--"
    · subst hsep
      rw [assignRoles_separator h] at hmem
      rcases List.mem_cons.mp hmem with rfl | hrest
      · exact .inr (.inl rfl)
      · obtain ⟨t, -, rfl⟩ := List.mem_map.mp hrest
        exact .inr (.inr rfl)
    · obtain ⟨role, others, hrole, hothers, rfl⟩ := assignRoles_cons hsep h
      rcases List.mem_cons.mp hmem with rfl | hrest
      · exact .inl ⟨hsep, hrole⟩
      · exact ih hothers hrest

/-- Only arguments in front of the separator are flags, each by its own text. -/
theorem ofArgument_of_assignRoles {flags : List Flag} {arguments : List String}
    {assigned : List Argument} (h : assignRoles flags arguments = .ok assigned)
    {a : Argument} (hmem : a ∈ assigned) {f : Flag} {attachment : Attachment}
    (hflag : a.role = .flag f attachment) :
    a.text ≠ "--" ∧ Role.ofArgument flags a.text = .ok (.flag f attachment) := by
  rw [← hflag]
  rcases cases_of_mem_assignRoles h hmem with htold | rfl | hoperand
  · exact htold
  · cases hflag
  · rw [hoperand] at hflag
    cases hflag

/-! ### The rules -/

/-- A successful reading of arguments while an operand is still free: what was
read before them, the arguments, and what is read after them. -/
inductive Reads (flags : List Flag) : Operand → Reading → List Argument → Reading → Prop
  | nil {operand : Operand} {r : Reading} : Reads flags operand r [] r
  | unknown {operand : Operand} {r r' : Reading} {text : String} {rest : List Argument} :
      Reads flags operand (r.addExtra text) rest r' →
        Reads flags operand r (⟨text, .unknown⟩ :: rest) r'
  | flag {operand : Operand} {r r₁ r' : Reading} {text : String} {f : Flag}
      {attachment : Attachment} {rest : List Argument} :
      r.takeFlag flags f attachment = .ok (.done r₁) → Reads flags operand r₁ rest r' →
        Reads flags operand r (⟨text, .flag f attachment⟩ :: rest) r'
  | format {operand : Operand} {r r₁ r₂ r' : Reading} {text value : String} {f : Flag}
      {attachment : Attachment} {rest : List Argument} :
      r.takeFlag flags f attachment = .ok (.formatNext r₁) → r₁.setFormat value = .ok r₂ →
      Reads flags operand r₂ rest r' →
        Reads flags operand r (⟨text, .flag f attachment⟩ :: ⟨value, .operand⟩ :: rest) r'
  | surplus {r r' : Reading} {text : String} {role : Role} {rest : List Argument} :
      role = .operand ∨ role = .separator → Reads flags .none (r.addExtra text) rest r' →
        Reads flags .none r (⟨text, role⟩ :: rest) r'
  | line {r r' : Reading} {text : String} {rest : List Argument} :
      Reads flags .none { r with line := some text } rest r' →
        Reads flags .line r (⟨text, .operand⟩ :: rest) r'
  | lineSeparator {r r' : Reading} {text mark : String} {rest : List Argument} :
      Reads flags .none { r with line := some text } rest r' →
        Reads flags .line r (⟨text, .operand⟩ :: ⟨mark, .separator⟩ :: rest) r'
  | separatorLine {r r' : Reading} {text mark : String} {rest : List Argument} :
      Reads flags .none { r with line := some text } rest r' →
        Reads flags .line r (⟨mark, .separator⟩ :: ⟨text, .operand⟩ :: rest) r'
  | separator {r r' : Reading} {mark : String} {rest : List Argument} :
      Reads flags .none r rest r' → Reads flags .line r (⟨mark, .separator⟩ :: rest) r'
  | command {r : Reading} {text : String} {role : Role} {rest : List Argument} :
      role = .operand ∨ role = .separator →
        Reads flags .command r (⟨text, role⟩ :: rest)
          { r with command := some (text, rest.map (·.text)) }
  | lastSeparator {r : Reading} {mark : String} :
      Reads flags .command r [⟨mark, .separator⟩] (r.addExtra mark)

theorem reads_of_read {flags : List Flag} {operand : Operand} {r r' : Reading}
    {assigned : List Argument} (h : r.read flags operand assigned = .ok r') :
    Reads flags operand r assigned r' := by
  fun_induction Reading.read flags operand r assigned with
  | case1 operand r =>
    rw [← Except.ok.inj h]
    exact .nil
  | case2 operand r text rest ih => exact .unknown (ih h)
  | case3 | case5 | case7 => cases h
  | case4 operand r text f attachment r₁ rest htake ih => exact .flag htake (ih h)
  | case6 operand r text f attachment r₁ value rest htake r₂ hformat ih =>
    exact .format htake hformat (ih h)
  | case8 r text rest ih => exact .surplus (.inl rfl) (ih h)
  | case9 r text mark rest ih => exact .lineSeparator (ih h)
  | case10 r text rest _ ih => exact .line (ih h)
  | case11 r text rest =>
    rw [← Except.ok.inj h]
    exact .command (.inl rfl)
  | case12 r text rest ih => exact .surplus (.inr rfl) (ih h)
  | case13 r mark text rest ih => exact .separatorLine (ih h)
  | case14 r mark rest _ ih => exact .separator (ih h)
  | case15 r mark =>
    rw [← Except.ok.inj h]
    exact .lastSeparator
  | case16 r mark rest _ =>
    rw [← Except.ok.inj h]
    exact .command (.inr rfl)

theorem reads_of_signature_read {s : Signature} {arguments : List String} {r : Reading}
    (h : s.read arguments = .ok r) :
    ∃ assigned, assignRoles s.flags arguments = .ok assigned ∧
      Reads s.flags s.operand .empty assigned r := by
  obtain ⟨assigned, hroles, hread⟩ := bind_eq_ok.mp (mapError_eq_ok.mp h)
  exact ⟨assigned, hroles, reads_of_read hread⟩

/-! ### What a flag changes -/

namespace Reading

variable {flags : List Flag} {r r' : Reading} {p : Progress}

/-- What was read up to this point, whether or not a format has to follow. -/
def Progress.reading : Progress → Reading
  | .done r | .formatNext r => r

theorem setFormat_eq_ok_iff {name : String} :
    r.setFormat name = .ok r' ↔
      ∃ format, Format.ofName? name = some format ∧ r' = { r with format } := by
  unfold setFormat
  cases Format.ofName? name <;> simp [eq_comm]

theorem done_of_takeFormat {value : List Char} (h : r.takeFormat value = .ok p) :
    ∃ format, p = .done { r with format } := by
  unfold takeFormat at h
  split at h
  · exact ⟨.list, (Except.ok.inj h).symm⟩
  · cases hset : r.setFormat (String.ofList value) with
    | error problem =>
      rw [hset] at h
      cases h
    | ok r₁ =>
      obtain ⟨format, -, rfl⟩ := setFormat_eq_ok_iff.mp hset
      rw [hset] at h
      exact ⟨format, (Except.ok.inj h).symm⟩

theorem reading_of_takeLetters {letters : List Char}
    (h : takeLetters flags r letters = .ok p) : ∃ format, p.reading = { r with format } := by
  fun_induction takeLetters flags r letters with
  | case1 | case2 => cases h
  | case3 | case5 =>
    rw [← Except.ok.inj h]
    exact ⟨r.format, rfl⟩
  | case4 _ _ _ _ ih => exact ih h
  | case6 =>
    obtain ⟨format, rfl⟩ := done_of_takeFormat h
    exact ⟨format, rfl⟩

/-- Only a flag that is understood can want a format. -/
theorem format_mem_of_takeLetters {letters : List Char} {r₁ : Reading}
    (h : takeLetters flags r letters = .ok (.formatNext r₁)) : Flag.format ∈ flags := by
  fun_induction takeLetters flags r letters with
  | case1 | case2 | case3 => cases h
  | case4 _ _ _ _ ih => exact ih h
  | case5 _ hfind => exact List.mem_of_find?_eq_some hfind
  | case6 =>
    obtain ⟨format, hdone⟩ := done_of_takeFormat h
    cases hdone

theorem format_mem_of_takeFlag {f : Flag} {attachment : Attachment} {r₁ : Reading}
    (hf : f ∈ flags) (h : r.takeFlag flags f attachment = .ok (.formatNext r₁)) :
    Flag.format ∈ flags := by
  cases f with
  | format => exact hf
  | help =>
    cases attachment with
    | none | long value => cases h
    | short letters => exact format_mem_of_takeLetters h

/-- A help flag sets help, whatever follows it. It never takes a value behind
an equals sign of its long spelling. -/
theorem reading_of_takeFlag_help {attachment : Attachment}
    (h : r.takeFlag flags .help attachment = .ok p) :
    (∀ value, attachment ≠ .long value) ∧
      ∃ format, p.reading = { r with help := true, format } := by
  cases attachment with
  | none =>
    rw [← Except.ok.inj h]
    exact ⟨nofun, r.format, rfl⟩
  | short letters => exact ⟨nofun, reading_of_takeLetters h⟩
  | long value => cases h

theorem reading_of_takeFlag_format {attachment : Attachment}
    (h : r.takeFlag flags .format attachment = .ok p) :
    ∃ format, p.reading = { r with format } := by
  cases attachment with
  | none =>
    rw [← Except.ok.inj h]
    exact ⟨r.format, rfl⟩
  | short value | long value =>
    obtain ⟨format, rfl⟩ := done_of_takeFormat h
    exact ⟨format, rfl⟩

/-- A flag changes help or the format and nothing else. -/
theorem reading_of_takeFlag {f : Flag} {attachment : Attachment}
    (h : r.takeFlag flags f attachment = .ok p) :
    ∃ help format, p.reading = { r with help, format } := by
  cases f with
  | help =>
    obtain ⟨-, format, hp⟩ := reading_of_takeFlag_help h
    exact ⟨true, format, hp⟩
  | format =>
    obtain ⟨format, hp⟩ := reading_of_takeFlag_format h
    exact ⟨r.help, format, hp⟩

end Reading

/-! ### Asking for help -/

/-- The argument is a help flag that can be taken. -/
def Argument.AsksHelp (a : Argument) : Prop :=
  ∃ attachment, a.role = .flag .help attachment ∧ ∀ value, attachment ≠ .long value

theorem help_of_takeFlag {flags : List Flag} {r : Reading} {p : Reading.Progress} {f : Flag}
    {attachment : Attachment} (h : r.takeFlag flags f attachment = .ok p) (text : String) :
    p.reading.help = true ↔
      r.help = true ∨ (Argument.mk text (.flag f attachment)).AsksHelp := by
  cases f with
  | help =>
    obtain ⟨hvalue, format, hp⟩ := Reading.reading_of_takeFlag_help h
    have hasks : (Argument.mk text (.flag .help attachment)).AsksHelp :=
      ⟨attachment, rfl, hvalue⟩
    simp [hp, hasks]
  | format =>
    obtain ⟨format, hp⟩ := Reading.reading_of_takeFlag_format h
    simp [hp, Argument.AsksHelp]

/-- Where no command can take arguments away, help is asked for by any help
flag among them. -/
theorem Reads.help_iff {flags : List Flag} {operand : Operand} {r r' : Reading}
    {assigned : List Argument} (h : Reads flags operand r assigned r')
    (hoperand : operand ≠ .command) :
    r'.help = true ↔ r.help = true ∨ ∃ a ∈ assigned, a.AsksHelp := by
  have hother (text : String) (role : Role) (hrole : ∀ f attachment, role ≠ .flag f attachment) :
      ¬ (Argument.mk text role).AsksHelp := by
    rintro ⟨attachment, hflag, -⟩
    exact hrole _ _ hflag
  induction h with
  | nil => simp
  | @unknown _ _ _ text _ _ ih =>
    have hrest := ih hoperand
    simpa [Reading.addExtra, hother text .unknown nofun] using hrest
  | @flag _ _ _ _ text _ _ _ htake _ ih =>
    have hrest := ih hoperand
    have hhelp := help_of_takeFlag htake text
    simp only [Reading.Progress.reading] at hhelp
    simpa [hhelp, or_assoc] using hrest
  | @format _ _ _ _ _ text value _ _ _ htake hset _ ih =>
    have hrest := ih hoperand
    have hhelp := help_of_takeFlag htake text
    obtain ⟨format, -, rfl⟩ := Reading.setFormat_eq_ok_iff.mp hset
    simp only [Reading.Progress.reading] at hhelp
    simpa [hhelp, or_assoc, hother value .operand nofun] using hrest
  | @surplus _ _ text role _ hrole _ ih =>
    have hrest := ih hoperand
    have hthis : ¬ (Argument.mk text role).AsksHelp := by
      rcases hrole with rfl | rfl <;> exact hother text _ nofun
    simpa [Reading.addExtra, hthis] using hrest
  | @line _ _ text _ _ ih =>
    have hrest := ih nofun
    simpa [hother text .operand nofun] using hrest
  | @lineSeparator _ _ text mark _ _ ih =>
    have hrest := ih nofun
    simpa [hother text .operand nofun, hother mark .separator nofun] using hrest
  | @separatorLine _ _ text mark _ _ ih =>
    have hrest := ih nofun
    simpa [hother text .operand nofun, hother mark .separator nofun] using hrest
  | @separator _ _ mark _ _ ih =>
    have hrest := ih nofun
    simpa [hother mark .separator nofun] using hrest
  | command _ => exact absurd rfl hoperand
  | lastSeparator => exact absurd rfl hoperand

/-! ### Arguments in front of a command -/

theorem Reads.extras_prefix {flags : List Flag} {operand : Operand} {r r' : Reading}
    {assigned : List Argument} (h : Reads flags operand r assigned r') :
    r.extras <+: r'.extras := by
  have hextra (r : Reading) (text : String) : r.extras <+: (r.addExtra text).extras :=
    List.prefix_append _ _
  induction h with
  | nil | command _ => exact List.prefix_rfl
  | lastSeparator => exact hextra _ _
  | unknown _ ih | surplus _ _ ih => exact (hextra _ _).trans ih
  | flag htake _ ih =>
    obtain ⟨help, format, hdone⟩ := Reading.reading_of_takeFlag htake
    rw [Reading.Progress.reading] at hdone
    subst hdone
    exact ih
  | format htake hset _ ih =>
    obtain ⟨help, wanted, hdone⟩ := Reading.reading_of_takeFlag htake
    rw [Reading.Progress.reading] at hdone
    obtain ⟨format, -, rfl⟩ := Reading.setFormat_eq_ok_iff.mp hset
    subst hdone
    exact ih
  | line _ ih | lineSeparator _ ih | separatorLine _ ih | separator _ ih => exact ih

/-- When nothing is left over, the arguments in front of a command are help
flags, and help is heard if there are any. The command is the first other
argument, and takes all that follow. -/
theorem Reads.in_front_of_command {flags : List Flag} {operand : Operand} {r r' : Reading}
    {assigned : List Argument} (h : Reads flags operand r assigned r')
    (hoperand : operand = .command) (hformat : Flag.format ∉ flags)
    (hflags : ∀ a ∈ assigned, ∀ f attachment, a.role = .flag f attachment → f ∈ flags)
    (hextras : r'.extras = []) :
    ∃ before after, assigned = before ++ after ∧ (∀ a ∈ before, a.AsksHelp) ∧
      (r'.help = true ↔ r.help = true ∨ before ≠ []) ∧
      (after = [] ∧ r'.command = r.command ∨
        ∃ a rest, after = a :: rest ∧ r'.command = some (a.text, rest.map Argument.text)) := by
  induction h with
  | nil => exact ⟨[], [], rfl, nofun, by simp, .inl ⟨rfl, rfl⟩⟩
  | @unknown _ r _ text _ hrest _ =>
    -- An extra is never taken back.
    have hprefix := hrest.extras_prefix
    rw [hextras] at hprefix
    simp [Reading.addExtra] at hprefix
  | @flag _ r r₁ r' text f attachment rest htake _ ih =>
    have hf : f ∈ flags := hflags _ List.mem_cons_self f attachment rfl
    have hhelp : f = .help := by
      cases f with
      | help => rfl
      | format => exact absurd hf hformat
    subst hhelp
    obtain ⟨hvalue, format, hdone⟩ := Reading.reading_of_takeFlag_help htake
    rw [Reading.Progress.reading] at hdone
    subst hdone
    obtain ⟨before, after, rfl, hbefore, hheard, hcommand⟩ :=
      ih hoperand (fun a ha => hflags a (List.mem_cons_of_mem _ ha)) hextras
    refine ⟨⟨text, .flag .help attachment⟩ :: before, after, rfl, ?_, ?_, hcommand⟩
    · intro a ha
      rcases List.mem_cons.mp ha with rfl | ha
      · exact ⟨attachment, rfl, hvalue⟩
      · exact hbefore a ha
    · simp [hheard]
  | format htake _ _ _ =>
    -- Nothing but a format flag waits for a value.
    have hf := hflags _ List.mem_cons_self _ _ rfl
    exact absurd (Reading.format_mem_of_takeFlag hf htake) hformat
  | surplus _ _ _ | line _ _ | lineSeparator _ _ | separatorLine _ _ | separator _ _ =>
    cases hoperand
  | command _ => exact ⟨[], _, rfl, nofun, by simp, .inr ⟨_, _, rfl, rfl⟩⟩
  | lastSeparator => simp [Reading.addExtra] at hextras

end LineTokens
