import LineTokens.Proofs.History

/-!
What a scanner keeps, whatever it is asked and in whatever order, with units of
any length and refused closings among the steps. A token is under way whenever
there are pieces or an open quote, tokens are only ever added, and the tokens
and pieces together are the text fed, less the units that were syntax to the
mode that they met.
-/

namespace LineTokens

/-- The unit is syntax to a scanner in this mode, and stands for nothing. -/
def Mode.Consumes (m : Mode) (unit : String) : Prop :=
  m = .plain ∧ (unit = " " ∨ unit = "\"" ∨ unit = "\\") ∨
    m = .quoted ∧ (unit = "\"" ∨ unit = "\\")

instance (m : Mode) (unit : String) : Decidable (m.Consumes unit) :=
  inferInstanceAs (Decidable (_ ∨ _))

namespace Scanner

variable {s t u : Scanner}

/-! ### One unit -/

/-- All that reading one unit can do. Only a unit of text is kept. -/
inductive Feeds (s : Scanner) : String → Scanner → Prop
  | space : s.mode = .plain → Feeds s " " s.flush
  | opening : s.mode = .plain → Feeds s "\"" { s with mode := .quoted, pending := true }
  | closing : s.mode = .quoted → Feeds s "\"" { s with mode := .plain }
  | escape : s.mode = .plain → Feeds s "\\" { s with mode := .escaped }
  | quotedEscape : s.mode = .quoted → Feeds s "\\" { s with mode := .quotedEscaped }
  | text {unit : String} : ¬ s.mode.Consumes unit →
      Feeds s unit { s.append unit with mode := s.mode.next .text }

theorem feed_of_not_consumes {unit : String} (h : ¬ s.mode.Consumes unit) :
    s.feed unit = { s.append unit with mode := s.mode.next .text } := by
  unfold feed Symbol.ofUnit
  unfold Mode.Consumes at h
  cases hmode : s.mode <;> split_ifs <;> simp_all [Mode.next, append]

theorem feeds_feed (s : Scanner) (unit : String) : Feeds s unit (s.feed unit) := by
  by_cases hconsumes : s.mode.Consumes unit
  · obtain ⟨hmode, rfl | rfl | rfl⟩ | ⟨hmode, rfl | rfl⟩ := hconsumes
    · rw [feed_space hmode]
      exact .space hmode
    · have hopening : s.feed "\"" = { s with mode := .quoted, pending := true } := by
        simp [feed, hmode, Symbol.ofUnit]
      rw [hopening]
      exact .opening hmode
    · have hescape : s.feed "\\" = { s with mode := .escaped } := by
        simp [feed, hmode, Symbol.ofUnit]
      rw [hescape]
      exact .escape hmode
    · have hclosing : s.feed "\"" = { s with mode := .plain } := by
        simp [feed, hmode, Symbol.ofUnit]
      rw [hclosing]
      exact .closing hmode
    · have hescape : s.feed "\\" = { s with mode := .quotedEscaped } := by
        simp [feed, hmode, Symbol.ofUnit]
      rw [hescape]
      exact .quotedEscape hmode
  · rw [feed_of_not_consumes hconsumes]
    exact .text hconsumes

/-! ### One step -/

def feedUnits (s : Scanner) (units : List String) : Scanner :=
  units.foldl feed s

/-- The units that a step feeds, one by one. -/
def Step.units (line : String) : Step → List String
  | .feed unit => [unit]
  | .finish => []
  | .run => line.toList.map String.singleton

theorem feedChars_eq_feedUnits (s : Scanner) (l : List Char) :
    s.feedChars l = s.feedUnits (l.map String.singleton) := by
  rw [feedUnits, List.foldl_map]
  rfl

/-- Closing the scan can only flush it, and only outside quotes and escapes. -/
theorem finish_state_cases (s : Scanner) :
    s.finish.1 = s ∨ s.mode = .plain ∧ s.finish.1 = s.flush := by
  unfold finish
  cases hmode : s.mode <;> simp [Mode.fault?]

theorem step_state_cases (s : Scanner) (step : Step) :
    (s.step step).1 = s.feedUnits (step.units s.line) ∨
      (s.feedUnits (step.units s.line)).mode = .plain ∧
        (s.step step).1 = (s.feedUnits (step.units s.line)).flush := by
  cases step with
  | feed unit => exact .inl rfl
  | finish => exact finish_state_cases s
  | run =>
    have hunits : s.feedUnits (Step.run.units s.line) = s.feedChars s.line.toList :=
      (feedChars_eq_feedUnits s s.line.toList).symm
    rw [hunits]
    exact finish_state_cases (s.feedChars s.line.toList)

/-- What every unit keeps, and every flush outside quotes and escapes, is kept
by every step. -/
theorem after_of_preserved {P : Scanner → Prop}
    (hfeed : ∀ s unit, P s → P (s.feed unit))
    (hflush : ∀ s : Scanner, s.mode = .plain → P s → P s.flush)
    (h : P s) (steps : List Step) : P (s.after steps) := by
  have hunits (units : List String) (s : Scanner) (h : P s) : P (s.feedUnits units) := by
    induction units generalizing s with
    | nil => exact h
    | cons unit rest ih => exact ih (s.feed unit) (hfeed s unit h)
  -- A step is its units and then at most one flush, so nothing else is asked.
  induction steps generalizing s with
  | nil => exact h
  | cons step rest ih =>
    have hfed : P (s.feedUnits (step.units s.line)) := hunits _ s h
    have hstep : P (s.step step).1 := by
      rcases step_state_cases s step with hstate | ⟨hmode, hstate⟩
      · rw [hstate]
        exact hfed
      · rw [hstate]
        exact hflush _ hmode hfed
    exact ih hstep

/-! ### The token under way -/

/-- The pending flag is set whenever the rest of the scanner relies on it. -/
structure Sound (s : Scanner) : Prop where
  idle : s.pending = false → s.pieces = #[]
  inQuotes : s.mode.InQuotes → s.pending = true

theorem sound_start (line : String) : (start line).Sound where
  idle := fun _ => rfl
  inQuotes := by
    intro hquotes
    simp [start, Mode.InQuotes] at hquotes

theorem Sound.flush (h : s.Sound) (hmode : s.mode = .plain) : s.flush.Sound where
  idle := by
    intro _
    cases hpending : s.pending with
    | true => simp [Scanner.flush, hpending]
    | false =>
      rw [flush_of_not_pending hpending]
      exact h.idle hpending
  inQuotes := by
    intro hquotes
    rw [mode_flush, hmode] at hquotes
    simp [Mode.InQuotes] at hquotes

theorem Sound.of_feeds {unit : String} (h : s.Sound) (hfeeds : Feeds s unit t) : t.Sound := by
  cases hfeeds with
  | space hmode => exact h.flush hmode
  | opening _ => exact ⟨by simp, fun _ => rfl⟩
  | closing hmode =>
    have hpending : s.pending = true := h.inQuotes (.inl hmode)
    exact ⟨h.idle, fun _ => hpending⟩
  | escape _ =>
    refine ⟨h.idle, ?_⟩
    intro hquotes
    simp [Mode.InQuotes] at hquotes
  | quotedEscape hmode =>
    have hpending : s.pending = true := h.inQuotes (.inl hmode)
    exact ⟨h.idle, fun _ => hpending⟩
  | text _ => exact ⟨by simp [append], fun _ => rfl⟩

theorem sound_after (line : String) (steps : List Step) : ((start line).after steps).Sound := by
  apply after_of_preserved
  · intro s unit h
    exact h.of_feeds (feeds_feed s unit)
  · intro s hmode h
    exact h.flush hmode
  · exact sound_start line

/-! ### The tokens -/

/-- At most `n` tokens more, behind those there were. -/
def Grows (n : Nat) (s t : Scanner) : Prop :=
  ∃ more : List String, t.tokens.toList = s.tokens.toList ++ more ∧ more.length ≤ n

theorem Grows.of_eq (h : t.tokens = s.tokens) (n : Nat) : Grows n s t :=
  ⟨[], by rw [h, List.append_nil], Nat.zero_le n⟩

theorem Grows.trans {m n : Nat} (h : Grows m s t) (h' : Grows n t u) : Grows (m + n) s u := by
  obtain ⟨more, htokens, hlength⟩ := h
  obtain ⟨more', htokens', hlength'⟩ := h'
  refine ⟨more ++ more', ?_, ?_⟩
  · rw [htokens', htokens, List.append_assoc]
  · rw [List.length_append]
    omega

theorem Grows.size_le {n : Nat} (h : Grows n s t) : t.tokens.size ≤ s.tokens.size + n := by
  obtain ⟨more, htokens, hlength⟩ := h
  have hsize := congrArg List.length htokens
  simp only [List.length_append, Array.length_toList] at hsize
  omega

theorem grows_flush (s : Scanner) : Grows 1 s s.flush := by
  cases hpending : s.pending with
  | true =>
    refine ⟨[String.join s.pieces.toList], ?_, Nat.le_refl 1⟩
    simp [flush, hpending]
  | false =>
    rw [flush_of_not_pending hpending]
    exact .of_eq rfl 1

theorem grows_feed (s : Scanner) (unit : String) : Grows 1 s (s.feed unit) := by
  have hfeeds := feeds_feed s unit
  generalize s.feed unit = t at hfeeds
  cases hfeeds with
  | space _ => exact grows_flush s
  | opening _ | closing _ | escape _ | quotedEscape _ | text _ => exact .of_eq rfl 1

theorem grows_finish (s : Scanner) : Grows 1 s s.finish.1 := by
  rcases finish_state_cases s with hstate | ⟨-, hstate⟩
  · rw [hstate]
    exact .of_eq rfl 1
  · rw [hstate]
    exact grows_flush s

theorem grows_feedUnits (s : Scanner) (units : List String) :
    Grows units.length s (s.feedUnits units) := by
  induction units generalizing s with
  | nil => exact .of_eq rfl 0
  | cons unit rest ih =>
    have hgrows := (grows_feed s unit).trans (ih (s.feed unit))
    rw [List.length_cons, Nat.add_comm]
    exact hgrows

/-- The most tokens that a step can add. -/
theorem grows_step (s : Scanner) (step : Step) :
    Grows ((step.units s.line).length + 1) s (s.step step).1 := by
  have hfed := grows_feedUnits s (step.units s.line)
  rcases step_state_cases s step with hstate | ⟨-, hstate⟩
  · rw [hstate]
    exact hfed.trans (.of_eq rfl 1)
  · rw [hstate]
    exact hfed.trans (grows_flush _)

/-! ### The text -/

/-- The text of all tokens, and of the token under way behind them. -/
def kept (s : Scanner) : String :=
  String.join (s.tokens.toList ++ s.pieces.toList)

@[simp] theorem kept_flush (s : Scanner) : s.flush.kept = s.kept := by
  cases hpending : s.pending with
  | true => simp [flush, kept, hpending]
  | false => rw [flush_of_not_pending hpending]

theorem kept_feed (s : Scanner) (unit : String) :
    (s.feed unit).kept = s.kept ++ if s.mode.Consumes unit then "" else unit := by
  have hfeeds := feeds_feed s unit
  generalize s.feed unit = t at hfeeds
  cases hfeeds with
  | space hmode => simp [Mode.Consumes, hmode]
  | opening hmode | closing hmode | escape hmode | quotedEscape hmode =>
    simp [Mode.Consumes, hmode, kept]
  | text htext =>
    rw [if_neg htext]
    simp [append, kept, String.append_assoc]

/-- A unit, and the mode in which it met the scanner. -/
structure Arrival where
  mode : Mode
  unit : String
  deriving DecidableEq, Repr

def arrivalsOfUnits (s : Scanner) : List String → List Arrival
  | [] => []
  | unit :: rest => ⟨s.mode, unit⟩ :: (s.feed unit).arrivalsOfUnits rest

/-- All units that steps feed, in the order of feeding. -/
def arrivals (s : Scanner) : List Step → List Arrival
  | [] => []
  | step :: rest => s.arrivalsOfUnits (step.units s.line) ++ (s.step step).1.arrivals rest

/-- The units that were not syntax, side by side. -/
def literalText (l : List Arrival) : String :=
  String.join ((l.filter fun a => ¬ a.mode.Consumes a.unit).map Arrival.unit)

theorem literalText_append (l l' : List Arrival) :
    literalText (l ++ l') = literalText l ++ literalText l' := by
  simp [literalText]

theorem literalText_cons (a : Arrival) (l : List Arrival) :
    literalText (a :: l) =
      (if a.mode.Consumes a.unit then "" else a.unit) ++ literalText l := by
  unfold literalText
  by_cases hconsumes : a.mode.Consumes a.unit <;> simp [hconsumes]

theorem kept_feedUnits (s : Scanner) (units : List String) :
    (s.feedUnits units).kept = s.kept ++ literalText (s.arrivalsOfUnits units) := by
  induction units generalizing s with
  | nil => simp [feedUnits, arrivalsOfUnits, literalText]
  | cons unit rest ih =>
    have hrest : (s.feedUnits (unit :: rest)).kept =
        (s.feed unit).kept ++ literalText ((s.feed unit).arrivalsOfUnits rest) :=
      ih (s.feed unit)
    rw [hrest, kept_feed, arrivalsOfUnits, literalText_cons, String.append_assoc]

theorem kept_step (s : Scanner) (step : Step) :
    (s.step step).1.kept = s.kept ++ literalText (s.arrivalsOfUnits (step.units s.line)) := by
  rw [← kept_feedUnits]
  rcases step_state_cases s step with hstate | ⟨-, hstate⟩
  · rw [hstate]
  · rw [hstate, kept_flush]

theorem kept_after (s : Scanner) (steps : List Step) :
    (s.after steps).kept = s.kept ++ literalText (s.arrivals steps) := by
  induction steps generalizing s with
  | nil => simp [after, arrivals, literalText]
  | cons step rest ih =>
    calc
      (s.after (step :: rest)).kept = ((s.step step).1.after rest).kept := rfl
      _ = (s.step step).1.kept ++ literalText ((s.step step).1.arrivals rest) := ih _
      _ = s.kept ++ literalText (s.arrivals (step :: rest)) := by
        rw [kept_step, arrivals, literalText_append, String.append_assoc]

end Scanner

/-- After any history a token is under way if there are pieces or an open
quote, every further step only adds tokens, one feeding or closing at most one,
and the tokens and pieces are exactly the units that were not syntax. -/
theorem lossless_after_history (line : String) (steps : List Scanner.Step) :
    let s := (Scanner.start line).after steps
    ((s.pieces ≠ #[] → s.pending = true) ∧
      (s.mode = .quoted ∨ s.mode = .quotedEscaped → s.pending = true) ∧
      (s.pending = false → s.pieces = #[] ∧ (s.mode = .plain ∨ s.mode = .escaped))) ∧
    ((∀ step, s.tokens.toList <+: (s.step step).1.tokens.toList) ∧
      (∀ unit, (s.feed unit).tokens.size ≤ s.tokens.size + 1) ∧
      s.finish.1.tokens.size ≤ s.tokens.size + 1) ∧
    String.join (s.tokens.toList ++ s.pieces.toList) =
      String.join ((((Scanner.start line).arrivals steps).filter fun a =>
        ¬ a.mode.Consumes a.unit).map Scanner.Arrival.unit) := by
  intro s
  have hsound : s.Sound := Scanner.sound_after line steps
  refine ⟨⟨?_, hsound.inQuotes, ?_⟩, ⟨?_, ?_, ?_⟩, ?_⟩
  · intro hpieces
    have hpending : s.pending ≠ false := mt hsound.idle hpieces
    simpa using hpending
  · intro hpending
    refine ⟨hsound.idle hpending, ?_⟩
    have hquotes : ¬ s.mode.InQuotes := by
      intro hquotes
      rw [hsound.inQuotes hquotes] at hpending
      contradiction
    cases hmode : s.mode <;> simp_all [Mode.InQuotes]
  · intro step
    obtain ⟨more, htokens, -⟩ := Scanner.grows_step s step
    exact ⟨more, htokens.symm⟩
  · intro unit
    exact (Scanner.grows_feed s unit).size_le
  · exact (Scanner.grows_finish s).size_le
  · have hkept := Scanner.kept_after (Scanner.start line) steps
    have hstart : (Scanner.start line).kept = "" := rfl
    rw [hstart, String.empty_append] at hkept
    exact hkept

/-- A unit of three characters and a refused run leave a token under way, with
an open quote. An empty unit between quotes makes a token, and a backslash
after it leaves none under way. -/
theorem lossless_after_refused_run :
    let s := (Scanner.start "a\" ").after [.feed " \"\\", .run, .finish]
    let t := (Scanner.start "").after [.feed "\"", .feed "", .feed "\"", .finish, .feed "\\"]
    (s.pieces ≠ #[] ∧ s.pending = true) ∧ (s.mode = .quoted ∧ s.pending = true) ∧
      (t.pending = false ∧ t.pieces = #[] ∧ (t.mode = .plain ∨ t.mode = .escaped)) ∧
      String.join (s.tokens.toList ++ s.pieces.toList) = " \"\\a " := by
  intro s t
  obtain ⟨⟨hpending, hquotes, -⟩, -, htext⟩ :=
    lossless_after_history "a\" " [.feed " \"\\", .run, .finish]
  obtain ⟨⟨-, -, hidle⟩, -, -⟩ :=
    lossless_after_history "" [.feed "\"", .feed "", .feed "\"", .finish, .feed "\\"]
  have hpieces : s.pieces ≠ #[] := by decide
  have hopen : s.mode = .quoted := by decide
  have hclosed : t.pending = false := by decide
  refine ⟨⟨hpieces, hpending hpieces⟩, ⟨hopen, hquotes (.inl hopen)⟩,
    ⟨hclosed, hidle hclosed⟩, ?_⟩
  rw [htext]
  decide

end LineTokens
