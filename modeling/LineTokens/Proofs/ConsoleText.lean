import Mathlib.Data.List.Chain
import Mathlib.Tactic.SplitIfs
import LineTokens.Text.Console
import LineTokens.Text.Unprintable

/-!
Texts on the console. What is relied on of a console is stated in two parts. The
one is for a console that does as it is documented to do, and shows a text as it
is exactly if it has no tab and none of the characters that are left out. Where it
drops blanks at the end of a line, this is left to the texts that have none there.
The other part asks for less, and for nothing about blanks: texts that begin and
end in a visible character can be told apart where they are shown.
-/

namespace LineTokens.Console

/-- The console shows the character as it is. -/
def Verbatim (c : Char) : Prop := c ≠ '\t' ∧ c ∉ stripped

theorem verbatim_space : Verbatim ' ' := by
  simp [Verbatim, stripped]

theorem unprintable_of_not_verbatim {c : Char} (h : ¬ Verbatim c) :
    c ≠ '\n' ∧ Unprintable c := by
  have hall : ∀ a ∈ '\t' :: stripped, a ≠ '\n' ∧ a < ' ' := by simp [stripped]
  have hmem : c ∈ '\t' :: stripped := by
    by_contra hmem
    exact h (not_or.mp fun hc => hmem (List.mem_cons.mpr hc))
  obtain ⟨hnewline, hlt⟩ := hall c hmem
  exact ⟨hnewline, unprintable_of_lt_space hlt⟩

theorem verbatim_of_not_unprintable {c : Char} (h : ¬ Unprintable c) : Verbatim c := by
  by_contra hverbatim
  exact h (unprintable_of_not_verbatim hverbatim).2

theorem forall_verbatim_iff (text : String) :
    (∀ c ∈ text.toList, Verbatim c) ↔
      '\t' ∉ text.toList ∧ ∀ c ∈ stripped, c ∉ text.toList := by
  constructor
  · intro h
    exact ⟨fun htab => (h '\t' htab).1 rfl, fun c hstripped hc => (h c hc).2 hstripped⟩
  · rintro ⟨htab, hstripped⟩ c hc
    refine ⟨?_, fun hmem => hstripped c hmem hc⟩
    rintro rfl
    exact htab hc

/-- The text without the characters that are left out. -/
def kept (text : String) : String :=
  String.ofList (text.toList.filter (· ∉ stripped))

/-- The text of so many spaces. -/
def spaces (n : Nat) : String :=
  String.ofList (List.replicate n ' ')

/-! ### Blanks at the end of a line -/

/-- A character that may be taken for a blank: a space, or one that has no printed
form. -/
def Blank (c : Char) : Prop := c ≠ '\n' ∧ (c = ' ' ∨ Unprintable c)

/-- No blank stands in front of a newline. -/
def Trimmed (text : List Char) : Prop :=
  text.IsChain fun a b => b = '\n' → ¬ Blank a

theorem blank_of_not_verbatim {c : Char} (h : ¬ Verbatim c) : Blank c :=
  have ⟨hnewline, hunprintable⟩ := unprintable_of_not_verbatim h
  ⟨hnewline, .inr hunprintable⟩

theorem trimmed_of_newline_not_mem {text : List Char} (h : '\n' ∉ text) : Trimmed text := by
  apply List.Pairwise.isChain
  apply List.pairwise_of_forall_mem_list
  rintro a - b hb rfl
  exact absurd hb h

theorem trimmed_append_iff {a b : List Char} :
    Trimmed (a ++ b) ↔ Trimmed a ∧ Trimmed b ∧
      ∀ x ∈ a.getLast?, ∀ y ∈ b.head?, y = '\n' → ¬ Blank x :=
  List.isChain_append

/-- Other characters than newlines can stand in the place of a blank. -/
theorem Trimmed.replace_blank {before behind : List Char} {c : Char} (hc : Blank c)
    (h : Trimmed (before ++ c :: behind)) {blanks : List Char} (hblanks : '\n' ∉ blanks) :
    Trimmed (before ++ blanks ++ behind) := by
  obtain ⟨hbefore, hcons, -⟩ := trimmed_append_iff.mp h
  obtain ⟨hfirst, hbehind⟩ := List.isChain_cons.mp hcons
  -- The blank in front keeps the text behind it from starting with a newline.
  have hnewline : ∀ y ∈ behind.head?, y ≠ '\n' := fun y hy hnewline =>
    hfirst y hy hnewline hc
  refine trimmed_append_iff.mpr ⟨trimmed_append_iff.mpr
    ⟨hbefore, trimmed_of_newline_not_mem hblanks, ?_⟩, hbehind, ?_⟩
  · rintro x - y hy rfl
    exact absurd (List.mem_of_mem_head? hy) hblanks
  · rintro x - y hy hy'
    exact absurd hy' (hnewline y hy)

/-! ### What consoles do -/

/-- What is documented of a console that neither wraps nor crops. It leaves some
characters out and puts spaces in the place of a tab, as many as the text in front
of the tab makes it; how wide characters are is its own affair. All else it shows
as it is. Only if it trims lines, as some releases do beyond their width, can it
drop blanks at the end of one. -/
structure Documented (console : Console) (trims : Prop) : Prop where
  controls (text : String) : console.shown text = console.shown (kept text)
  tab (before : String) : ∃ n, ∀ behind,
    console.shown (before ++ "\t" ++ behind) = console.shown (before ++ spaces n ++ behind)
  raw (text : String) : (∀ c ∈ text.toList, Verbatim c) →
    (trims → Trimmed (text.toList ++ ['\n'])) → console.shown text = text

/-- A character that can be seen, so that nothing takes it for a blank. -/
abbrev Visible (c : Char) : Prop := ' ' < c ∧ c ≤ '~'

/-- A text on one line that nothing is left out of, with a visible character at
either end. -/
structure Solid (text : String) : Prop where
  verbatim : ∀ c ∈ text.toList, Verbatim c
  oneLine : '\n' ∉ text.toList
  first : ∃ c ∈ text.toList.head?, Visible c
  last : ∃ c ∈ text.toList.getLast?, Visible c

theorem Visible.not_blank {c : Char} (h : Visible c) : ¬ Blank c := by
  have hprintable : PrintableAscii c := ⟨UInt32.le_of_lt h.1, h.2⟩
  rintro ⟨-, rfl | hunprintable⟩
  · exact absurd h (by decide)
  · exact hprintable.not_unprintable hunprintable

theorem Trimmed.solid_append {text : List Char} (h : Trimmed text) {before : String}
    (hbefore : Solid before) : Trimmed (before.toList ++ text) := by
  refine trimmed_append_iff.mpr ⟨trimmed_of_newline_not_mem hbefore.oneLine, h, ?_⟩
  intro x hx y hy hnewline
  obtain ⟨c, hc, hvisible⟩ := hbefore.last
  obtain rfl : c = x := Option.mem_unique hc hx
  exact hvisible.not_blank

theorem Trimmed.append_solid {text : List Char} (h : Trimmed text) {behind : String}
    (hbehind : Solid behind) : Trimmed (text ++ (behind.toList ++ ['\n'])) := by
  have hsingle : Trimmed ['\n'] := List.isChain_singleton _
  have hnewline : Trimmed (behind.toList ++ ['\n']) := hsingle.solid_append hbehind
  refine trimmed_append_iff.mpr ⟨h, hnewline, ?_⟩
  rintro x - y hy rfl
  obtain ⟨c, hc, -⟩ := hbehind.first
  have hmem : '\n' ∈ behind.toList.head? := by
    simpa [Option.mem_def.mp hc] using hy
  exact absurd (List.mem_of_mem_head? hmem) hbehind.oneLine

/-- What can be relied on even where blanks at the end of a line are dropped. A
solid text at the front is shown as it is, and so is one at the end, where it does
not change what is shown of the text in front of it. -/
structure KeepsSolid (console : Console) : Prop where
  front {text : String} : Solid text → ∀ behind, ∃ rest,
    console.shown (text ++ behind) = text ++ rest
  behind (before : String) : ∃ start, ∀ text, Solid text →
    console.shown (before ++ text) = start ++ text

section

variable {console : Console} {trims : Prop}

theorem Documented.exists_shown_tab (h : console.Documented trims) (before : List Char) :
    ∃ n, ∀ behind, console.shown (String.ofList (before ++ '\t' :: behind)) =
      console.shown (String.ofList (before ++ List.replicate n ' ' ++ behind)) := by
  obtain ⟨n, htab⟩ := h.tab (String.ofList before)
  refine ⟨n, fun behind => ?_⟩
  have htext : String.ofList (before ++ '\t' :: behind) =
      String.ofList before ++ "\t" ++ String.ofList behind := by
    rw [← String.toList_inj]
    simp
  have hexpanded : String.ofList (before ++ List.replicate n ' ' ++ behind) =
      String.ofList before ++ spaces n ++ String.ofList behind := by
    rw [← String.toList_inj]
    simp [spaces]
  rw [htext, htab, hexpanded]

theorem Documented.shown_stripped (h : console.Documented trims) {c : Char} (hc : c ∈ stripped)
    (before behind : List Char) :
    console.shown (String.ofList (before ++ c :: behind)) =
      console.shown (String.ofList (before ++ behind)) := by
  have hkept : kept (String.ofList (before ++ c :: behind)) =
      kept (String.ofList (before ++ behind)) := by
    simp [kept, hc]
  rw [h.controls, hkept, ← h.controls]

/-- What a character is shown as stands in its place from the start. -/
theorem Documented.exists_shown_char (h : console.Documented trims) (before : List Char)
    (c : Char) :
    ∃ shown : List Char, (∀ a ∈ shown, Verbatim a) ∧
      ∀ behind, console.shown (String.ofList (before ++ c :: behind)) =
          console.shown (String.ofList (before ++ shown ++ behind)) ∧
        (Trimmed (before ++ c :: behind) → Trimmed (before ++ shown ++ behind)) := by
  by_cases hverbatim : Verbatim c
  · refine ⟨[c], List.forall_mem_singleton.mpr hverbatim, fun behind => ?_⟩
    rw [List.append_assoc, List.singleton_append]
    exact ⟨rfl, id⟩
  have hblank : Blank c := blank_of_not_verbatim hverbatim
  by_cases htab : c = '\t'
  · subst htab
    obtain ⟨n, hshown⟩ := h.exists_shown_tab before
    have hspaces : ∀ a ∈ List.replicate n ' ', Verbatim a := fun a ha =>
      List.eq_of_mem_replicate ha ▸ verbatim_space
    have hnewline : '\n' ∉ List.replicate n ' ' := by simp
    exact ⟨_, hspaces, fun behind => ⟨hshown behind, (·.replace_blank hblank hnewline)⟩⟩
  · have hstripped : c ∈ stripped := by
      by_contra hstripped
      exact hverbatim ⟨htab, hstripped⟩
    refine ⟨[], nofun, fun behind => ⟨?_, (·.replace_blank hblank nofun)⟩⟩
    rw [List.append_nil]
    exact h.shown_stripped hstripped before behind

/-- Between texts that are shown as they are, any text is shown as something that
could have stood there from the start. -/
theorem Documented.exists_shown_between (h : console.Documented trims) {before : List Char}
    (hbefore : ∀ c ∈ before, Verbatim c) (middle : List Char) :
    ∃ shown : List Char, (∀ c ∈ shown, Verbatim c) ∧
      ∀ behind : List Char, (∀ c ∈ behind, Verbatim c) →
        (trims → Trimmed (before ++ middle ++ (behind ++ ['\n']))) →
        console.shown (String.ofList (before ++ middle ++ behind)) =
          String.ofList (before ++ shown ++ behind) := by
  induction middle generalizing before with
  | nil =>
    refine ⟨[], nofun, fun behind hbehind htrimmed => h.raw _ ?_ ?_⟩
    · simpa using fun c hc => hc.elim (hbefore c) (hbehind c)
    · simpa using htrimmed
  | cons c middle ih =>
    -- With its first character in place, the rest stands behind a longer text.
    obtain ⟨first, hfirst, hplace⟩ := h.exists_shown_char before c
    obtain ⟨shown, hshown, hrest⟩ := ih (List.forall_mem_append.mpr ⟨hbefore, hfirst⟩)
    refine ⟨first ++ shown, List.forall_mem_append.mpr ⟨hfirst, hshown⟩, ?_⟩
    intro behind hbehind htrimmed
    have hmoved (ht : trims) : Trimmed (before ++ first ++ middle ++ (behind ++ ['\n'])) := by
      have hwhole := htrimmed ht
      rw [List.append_assoc] at hwhole ⊢
      exact (hplace _).2 hwhole
    have hnext := hrest behind hbehind hmoved
    rw [List.append_assoc before, List.cons_append, (hplace _).1, ← List.append_assoc, hnext,
      ← List.append_assoc before]

/-- A text is shown as it is exactly if each of its characters is. -/
theorem Documented.shown_eq_iff (h : console.Documented trims) {text : String}
    (htrimmed : trims → Trimmed (text.toList ++ ['\n'])) :
    console.shown text = text ↔ ∀ c ∈ text.toList, Verbatim c := by
  constructor
  · intro hself
    obtain ⟨shown, hshown, hrest⟩ :=
      h.exists_shown_between (List.forall_mem_nil Verbatim) text.toList
    have hall := hrest [] nofun htrimmed
    rw [List.append_nil, List.append_nil, List.nil_append, List.nil_append,
      String.ofList_toList] at hall
    rw [← hself, hall, String.toList_ofList]
    exact hshown
  · exact fun hverbatim => h.raw text hverbatim htrimmed

/-- A solid text behind it does not keep a text from being shown as it is. -/
theorem Documented.print_append_eq_iff (h : console.Documented trims) {text behind : String}
    (htext : trims → Trimmed text.toList) (hbehind : Solid behind) :
    console.print (text ++ behind) = text ++ behind ++ "\n" ↔
      ∀ c ∈ text.toList, Verbatim c := by
  have htrimmed (ht : trims) : Trimmed ((text ++ behind).toList ++ ['\n']) := by
    rw [String.toList_append, List.append_assoc]
    exact (htext ht).append_solid hbehind
  rw [print, String.append_left_inj, h.shown_eq_iff htrimmed, String.toList_append,
    List.forall_mem_append, and_iff_left hbehind.verbatim]

/-- Neither do solid texts on both sides. -/
theorem Documented.print_between_eq_iff (h : console.Documented trims)
    {before text behind : String} (hbefore : Solid before)
    (htext : trims → Trimmed text.toList) (hbehind : Solid behind) :
    console.print (before ++ text ++ behind) = before ++ text ++ behind ++ "\n" ↔
      ∀ c ∈ text.toList, Verbatim c := by
  have htrimmed (ht : trims) : Trimmed (before ++ text).toList := by
    rw [String.toList_append]
    exact (htext ht).solid_append hbefore
  rw [h.print_append_eq_iff htrimmed hbehind, String.toList_append, List.forall_mem_append,
    and_iff_right hbefore.verbatim]

/-- A console that does as documented and trims no line keeps solid texts. -/
theorem Documented.keepsSolid (h : console.Documented False) : console.KeepsSolid where
  front {text} hsolid behind := by
    obtain ⟨shown, -, hrest⟩ := h.exists_shown_between hsolid.verbatim behind.toList
    refine ⟨String.ofList shown, ?_⟩
    simpa using hrest [] nofun nofun
  behind before := by
    obtain ⟨shown, -, hrest⟩ :=
      h.exists_shown_between (List.forall_mem_nil Verbatim) before.toList
    refine ⟨String.ofList shown, fun text hsolid => ?_⟩
    simpa using hrest text.toList hsolid.verbatim nofun

theorem KeepsSolid.print_append_inj (h : console.KeepsSolid) (before : String) {a b : String}
    (ha : Solid a) (hb : Solid b) :
    console.print (before ++ a) = console.print (before ++ b) ↔ a = b := by
  obtain ⟨start, hstart⟩ := h.behind before
  rw [print, print, String.append_left_inj, hstart a ha, hstart b hb, String.append_right_inj]

end

/-! ### The plain console -/

theorem expandTabs_eq_self {text : List Char} (h : ∀ c ∈ text, c ≠ '\t') (column : Nat) :
    expandTabs column text = text := by
  induction text generalizing column with
  | nil => rfl
  | cons c rest ih =>
    obtain ⟨hc, hrest⟩ := List.forall_mem_cons.mp h
    unfold expandTabs
    rw [if_neg hc]
    split_ifs <;> rw [ih hrest]

/-- What is shown of a text behind another one depends on that one only through
the column where it ends. -/
theorem exists_expandTabs_append (column : Nat) (a : List Char) :
    ∃ column', ∀ b, expandTabs column (a ++ b) = expandTabs column a ++ expandTabs column' b := by
  -- Nothing later needs to know this column, so the induction just supplies one.
  induction a generalizing column with
  | nil => exact ⟨column, fun _ => rfl⟩
  | cons c a ih =>
    by_cases htab : c = '\t'
    · obtain ⟨column', h⟩ := ih (column + (tabWidth - column % tabWidth))
      refine ⟨column', fun b => ?_⟩
      simp [expandTabs, htab, h]
    · obtain ⟨column', h⟩ := ih (if c = '\n' then 0 else column + 1)
      refine ⟨column', fun b => ?_⟩
      by_cases hnewline : c = '\n' <;> simp_all [expandTabs]

theorem expandTabs_spaces (column n : Nat) (rest : List Char) :
    expandTabs column (List.replicate n ' ' ++ rest) =
      List.replicate n ' ' ++ expandTabs (column + n) rest := by
  induction n generalizing column with
  | zero => rfl
  | succ n ih =>
    rw [List.replicate_succ, List.cons_append, expandTabs, if_neg (by decide),
      if_neg (by decide), ih, Nat.add_right_comm, Nat.add_assoc]
    rfl

theorem toList_shown_plain (text : String) :
    (plain.shown text).toList = expandTabs 0 (kept text).toList := by
  simp [plain, kept]

theorem documented_plain : plain.Documented False where
  controls text := by
    simp [plain, kept]
  tab before := by
    obtain ⟨column, hcolumn⟩ := exists_expandTabs_append 0 (kept before).toList
    refine ⟨tabWidth - column % tabWidth, fun behind => ?_⟩
    have htab : (kept (before ++ "\t" ++ behind)).toList =
        (kept before).toList ++ '\t' :: (kept behind).toList := by
      simp [kept, stripped]
    have hspaces : (kept (before ++ spaces (tabWidth - column % tabWidth) ++ behind)).toList =
        (kept before).toList ++
          (List.replicate (tabWidth - column % tabWidth) ' ' ++ (kept behind).toList) := by
      simp [kept, spaces, stripped]
    rw [← String.toList_inj, toList_shown_plain, toList_shown_plain, htab, hspaces, hcolumn,
      hcolumn, expandTabs_spaces]
    rfl
  raw text h _ := by
    have hkept : kept text = text := by
      rw [kept, List.filter_eq_self.mpr fun c hc => decide_eq_true (h c hc).2,
        String.ofList_toList]
    rw [← String.toList_inj, toList_shown_plain, hkept,
      expandTabs_eq_self fun c hc => (h c hc).1]

end LineTokens.Console
