import LineTokens.Proofs.Conservation
import LineTokens.Proofs.Spelling

/-!
Units of several characters, spelled with escapes. A unit of more than one
character is literal text to a scanner, spaces, quotes and backslashes included.
A backslash before each of its characters says the same one character at a time,
where the first one needs none if a backslash waits for it already. The pieces
are other ones then, but what they join to is not, and nothing that a scanner
tells depends on more than that.
-/

namespace LineTokens

namespace Scanner

variable {s t : Scanner}

/-! ### Pieces joined -/

/-- The same scan with its pieces joined to one. -/
def joined (s : Scanner) : Scanner :=
  { s with pieces := #[String.join s.pieces.toList] }

@[simp] theorem mode_joined (s : Scanner) : s.joined.mode = s.mode := rfl

@[simp] theorem tokens_joined (s : Scanner) : s.joined.tokens = s.tokens := rfl

theorem flush_joined_of_pending (h : s.pending = true) : s.joined.flush = s.flush := by
  simp [flush, joined, h]

theorem joined_flush (s : Scanner) : s.joined.flush.joined = s.flush.joined := by
  cases hpending : s.pending with
  | true => rw [flush_joined_of_pending hpending]
  | false =>
    have hidle : s.joined.pending = false := hpending
    rw [flush_of_not_pending hpending, flush_of_not_pending hidle]
    simp [joined]

theorem joined_feed (s : Scanner) (unit : String) :
    (s.joined.feed unit).joined = (s.feed unit).joined := by
  cases hmode : s.mode with
  | plain =>
    cases hsymbol : Symbol.ofUnit unit with
    | space =>
      have hflush := joined_flush s
      simpa [feed, hmode, hsymbol] using hflush
    | quote | backslash | text => simp [feed, hmode, hsymbol, joined, append]
  | quoted => cases hsymbol : Symbol.ofUnit unit <;> simp [feed, hmode, hsymbol, joined, append]
  | escaped | quotedEscaped => simp [feed, hmode, joined, append]

theorem finish_joined (s : Scanner) : s.joined.finish.2 = s.finish.2 := by
  have htokens : s.joined.flush.tokens = s.flush.tokens := by
    rw [← tokens_joined, joined_flush, tokens_joined]
  unfold finish
  rw [mode_joined]
  cases s.mode.fault? with
  | some fault => rfl
  | none => simp only [htokens]

/-- What a scan does next depends on its pieces only through what they join to. -/
theorem joined_feed_congr (h : s.joined = t.joined) (unit : String) :
    (s.feed unit).joined = (t.feed unit).joined := by
  rw [← joined_feed s, ← joined_feed t, h]

/-! ### One unit -/

/-- Characters that say the same as the unit where it arrived. A single one says
it as it is. -/
def Arrival.spelling (a : Arrival) : List Char :=
  match a.unit.toList with
  | c :: d :: rest =>
    if a.mode.Escaping then c :: escapeEach (d :: rest) else escapeEach (c :: d :: rest)
  | chars => chars

theorem Arrival.spelling_singleton (m : Mode) (c : Char) :
    spelling ⟨m, String.singleton c⟩ = [c] := by
  simp [spelling]

theorem feed_escaping (h : s.mode.Escaping) (unit : String) :
    s.feed unit = { s.append unit with mode := s.mode.next .text } := by
  apply feed_of_not_consumes
  rcases h with hmode | hmode <;> simp [Mode.Consumes, hmode]

theorem next_text_of_not_escaping {m : Mode} (h : ¬ m.Escaping) : m.next .text = m := by
  cases m <;> simp_all [Mode.next, Mode.Escaping]

/-- More than one character is text, whatever the characters are. -/
theorem feed_long {unit : String} (h : 2 ≤ unit.length) :
    s.feed unit = { s.append unit with mode := s.mode.next .text } := by
  have hone : ∀ special ∈ Symbol.special, special.length = 1 := by decide
  have htext : Symbol.ofUnit unit = .text := by
    rw [Symbol.ofUnit_eq_text_iff]
    intro hspecial
    have hlength := hone unit hspecial
    omega
  cases hmode : s.mode <;> simp [feed, hmode, htext, Mode.next, append]

theorem feedChars_spelling {unit : String} {c d : Char} {rest : List Char}
    (h : unit.toList = c :: d :: rest) :
    s.feedChars (Arrival.spelling ⟨s.mode, unit⟩) =
      { s.appendChars unit.toList with mode := s.mode.next .text } := by
  simp only [Arrival.spelling, h]
  by_cases hescaping : s.mode.Escaping
  · have hfirst : s.feed (String.singleton c) =
        { s.appendChars [c] with mode := s.mode.next .text } := by
      rw [feed_escaping hescaping, append_singleton_eq]
    have hended : ¬ (s.mode.next .text).Escaping := by
      rcases hescaping with hmode | hmode <;> simp [hmode, Mode.next, Mode.Escaping]
    rw [if_pos hescaping, feedChars_cons, hfirst,
      feedChars_escapeEach_of_not_escaping hended (List.cons_ne_nil d rest), appendChars_withMode,
      appendChars_appendChars]
    rfl
  · rw [if_neg hescaping,
      feedChars_escapeEach_of_not_escaping hescaping (List.cons_ne_nil c (d :: rest)),
      next_text_of_not_escaping hescaping]
    rfl

/-- The spelling does what the unit does, but for how the pieces are cut. -/
theorem joined_feedChars_spelling {unit : String} (hne : unit ≠ "") :
    (s.feedChars (Arrival.spelling ⟨s.mode, unit⟩)).joined = (s.feed unit).joined := by
  -- Only a single character can be syntax, and it is its own spelling.
  match hchars : unit.toList with
  | [] => exact absurd (String.toList_eq_nil_iff.mp hchars) hne
  | [c] =>
    have hunit : unit = String.singleton c := by
      rw [← String.toList_inj, hchars, String.toList_singleton]
    rw [hunit, Arrival.spelling_singleton, feedChars_cons, feedChars_nil]
  | c :: d :: rest =>
    have hlong : 2 ≤ unit.length := by
      rw [← String.length_toList, hchars]
      simp
    rw [feedChars_spelling hchars, feed_long hlong]
    simp [joined, append, appendChars, join_map_singleton]

/-! ### Any number of units -/

theorem joined_feedChars_spellings (h : s.joined = t.joined) {units : List String}
    (hne : ∀ unit ∈ units, unit ≠ "") :
    (t.feedChars ((s.arrivalsOfUnits units).flatMap Arrival.spelling)).joined =
      (s.feedUnits units).joined := by
  -- One unit at a time, in two scans: the one that is fed units tells by its mode
  -- how the next unit is spelled, the other one is fed the spelling.
  induction units generalizing s t with
  | nil => exact h.symm
  | cons unit rest ih =>
    obtain ⟨hunit, hrest⟩ := List.forall_mem_cons.mp hne
    have hmode : s.mode = t.mode := by
      rw [← mode_joined s, h, mode_joined]
    have hstep : (s.feed unit).joined =
        (t.feedChars (Arrival.spelling ⟨s.mode, unit⟩)).joined := by
      rw [hmode, joined_feedChars_spelling hunit, joined_feed_congr h]
    rw [arrivalsOfUnits, List.flatMap_cons, feedChars_append]
    exact ih hstep hrest

end Scanner

/-- Units that are not empty leave a scanner where their spelling leaves it, one
character at a time: the same mode, tokens and pending flag, pieces that join to
the same text, and the same answer if it is closed. So a unit of more than one
character, whatever they are, is text that joins the token under way. -/
theorem units_read_like_spellings (line : String) (units : List String)
    (h : ∀ unit ∈ units, unit ≠ "") :
    let spelled := ((Scanner.start line).arrivalsOfUnits units).flatMap Scanner.Arrival.spelling
    let s := (Scanner.start line).feedUnits units
    let t := (Scanner.start line).feedChars spelled
    (s.mode = t.mode ∧ s.tokens = t.tokens ∧ s.pending = t.pending ∧
      String.join s.pieces.toList = String.join t.pieces.toList) ∧
    s.finish.2 = t.finish.2 ∧
    ∀ unit : String, 2 ≤ unit.length →
      s.feed unit = { s.append unit with mode := s.mode.next .text } := by
  intro spelled s t
  have hjoined : s.joined = t.joined :=
    (Scanner.joined_feedChars_spellings (s := Scanner.start line) rfl h).symm
  have hfinish : s.finish.2 = t.finish.2 := by
    rw [← Scanner.finish_joined s, hjoined, Scanner.finish_joined]
  have hparts := hjoined
  simp only [Scanner.joined, Scanner.mk.injEq, Array.mk.injEq, List.cons.injEq, and_true] at hparts
  obtain ⟨-, hmode, htokens, htext, hpending⟩ := hparts
  exact ⟨⟨hmode, htokens, hpending, htext⟩, hfinish, fun unit => Scanner.feed_long⟩

/-- A unit led by a space, one of two spaces between quotes, and one of a quote
and a space behind a backslash. -/
theorem units_read_like_spellings_at_quotes :
    let units := [" x", "\"", "  ", "\\", "\" ", "\""]
    let spelled := ((Scanner.start "").arrivalsOfUnits units).flatMap Scanner.Arrival.spelling
    let s := (Scanner.start "").feedUnits units
    (∀ unit ∈ units, unit ≠ "") ∧ String.ofList spelled = "\\ \\x\"\\ \\ \\\"\\ \"" ∧
      s.finish.2 = .ok [" x  \" "] ∧
      ((Scanner.start "").feedChars spelled).finish.2 = .ok [" x  \" "] ∧
      2 ≤ "\" ".length ∧ s.feed "\" " = { s.append "\" " with mode := s.mode.next .text } := by
  intro units spelled s
  have hunits : ∀ unit ∈ units, unit ≠ "" := by decide
  have hlength : 2 ≤ "\" ".length := by decide
  obtain ⟨-, hfinish, hlong⟩ := units_read_like_spellings "" units hunits
  have hspelled : ((Scanner.start "").feedChars spelled).finish.2 = .ok [" x  \" "] := by rfl
  exact ⟨hunits, by rfl, hfinish.trans hspelled, hspelled, hlength, hlong _ hlength⟩

end LineTokens
