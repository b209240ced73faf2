import LineTokens.Proofs.Conservation
import LineTokens.Proofs.Continuation

/-!
Two texts side by side. If the left one has tokens, the right one decides how
the whole ends, and the tokens of the whole are those of both. Where the texts
meet inside a token, the last one on the left and the first one on the right
make one token; where a delimiter, or an end of the line, stands between them,
they do not.
-/

namespace LineTokens

/-- No token of the left text, if it has tokens, reaches into the right one: one
text is empty, or an unescaped space stands where they meet. -/
def Apart (a b : String) : Prop :=
  a = "" ∨ (a.toList.getLast? = some ' ' ∧ Even (trailingBackslashes a.toList.dropLast)) ∨
    b = "" ∨ b.toList.head? = some ' '

instance (a b : String) : Decidable (Apart a b) :=
  inferInstanceAs (Decidable (_ ∨ _ ∧ _ ∨ _ ∨ _))

def spaces (n : Nat) : String := String.ofList (List.replicate n ' ')

/-- Outside quotes, the open segment of a text is empty just behind a delimiter
and at the start. -/
theorem openSegment_eq_nil_iff {l : List Char} (hopen : ¬ OpenQuote l) :
    openSegment l = [] ↔
      l = [] ∨ l.getLast? = some ' ' ∧ Even (trailingBackslashes l.dropLast) := by
  cases l using List.reverseRecOn with
  | nil => exact iff_of_true rfl (.inl rfl)
  | append_singleton l c =>
    have hlast : (l ++ [c]).getLast? = some ' ' ∧ Even (trailingBackslashes (l ++ [c]).dropLast) ↔
        c = ' ' ∧ ¬ Dangling l := by
      simp [Dangling]
    rw [hlast, or_iff_right (by simp)]
    constructor
    · intro hnil
      by_contra hspace
      have hdelimits : ¬ Position.Delimits ⟨l, c⟩ := by
        intro hdelimits
        obtain ⟨hc, hdangling, -⟩ := Position.delimits_mk.mp hdelimits
        exact hspace ⟨hc, hdangling⟩
      rw [openSegment_concat_of_not_delimits hdelimits] at hnil
      simp at hnil
    · rintro ⟨rfl, hdangling⟩
      have hbefore : ¬ OpenQuote l := by
        simpa [openQuote_concat] using hopen
      exact openSegment_concat_of_delimits (Position.delimits_mk.mpr ⟨rfl, hdangling, hbefore⟩)

theorem Symbol.ofUnit_eq_space_iff {unit : String} : ofUnit unit = space ↔ unit = " " := by
  unfold ofUnit
  split_ifs <;> simp_all

namespace Scanner

variable {s t : Scanner} {front : Array String}

/-! ### A longer first token -/

/-- The same scan with more pieces in front of the token under way, or with
these as a token under way if there is none. -/
def lead (s : Scanner) (front : Array String) : Scanner :=
  { s with pieces := front ++ s.pieces, pending := true }

/-- The second scan is the first one, except that its first token has more text
in front. That token can still be under way, or be complete. Right after a
backslash that begins it, the first scan does not yet count it as under way. -/
inductive Leads (front : Array String) : Scanner → Scanner → Prop
  | underWay {s : Scanner} : s.tokens = #[] → s.pending = true ∨ s.mode = .escaped →
      Leads front s (s.lead front)
  | complete (s : Scanner) (first : String) :
      Leads front (s.behind [first]) (s.behind [String.join front.toList ++ first])

theorem feed_lead {unit : String} (h : s.mode = .plain → unit ≠ " ") :
    (s.lead front).feed unit = (s.feed unit).lead front := by
  cases hmode : s.mode with
  | plain =>
    cases hsymbol : Symbol.ofUnit unit with
    | space => exact absurd (Symbol.ofUnit_eq_space_iff.mp hsymbol) (h hmode)
    | quote | backslash | text => simp [feed, hmode, hsymbol, lead, append]
  | quoted => cases hsymbol : Symbol.ofUnit unit <;> simp [feed, hmode, hsymbol, lead, append]
  | escaped | quotedEscaped => simp [feed, hmode, lead, append]

/-- Until a space outside quotes comes, the first token stays under way. -/
theorem leads_feed {unit : String} (htokens : s.tokens = #[])
    (hquotes : s.mode.InQuotes → s.pending = true) (hspace : s.mode = .plain → unit ≠ " ") :
    Leads front (s.feed unit) ((s.lead front).feed unit) := by
  rw [feed_lead hspace]
  have hfeeds := feeds_feed s unit
  generalize s.feed unit = t at hfeeds
  cases hfeeds with
  | space hmode => exact absurd rfl (hspace hmode)
  | opening _ | text _ => exact .underWay htokens (.inl rfl)
  | closing hmode | quotedEscape hmode => exact .underWay htokens (.inl (hquotes (.inl hmode)))
  | escape _ => exact .underWay htokens (.inr rfl)

/-- Then it is complete, and nothing is left under way in either scan. -/
theorem leads_flush (front : Array String) (htokens : s.tokens = #[])
    (hpending : s.pending = true) :
    ∃ (u : Scanner) (first : String), s.flush = u.behind [first] ∧
      (s.lead front).flush = u.behind [String.join front.toList ++ first] := by
  refine ⟨{ s with pieces := #[], pending := false }, String.join s.pieces.toList, ?_, ?_⟩
  · simp [flush, behind, hpending, htokens]
  · simp [flush, behind, lead, htokens]

theorem Leads.feed (h : Leads front s t) (unit : String) :
    Leads front (s.feed unit) (t.feed unit) := by
  cases h with
  | underWay htokens hunder =>
    by_cases hspace : s.mode = .plain ∧ unit = " "
    · obtain ⟨hmode, rfl⟩ := hspace
      have hpending : s.pending = true := by simpa [hmode] using hunder
      obtain ⟨u, first, hflush, hlead⟩ := leads_flush front htokens hpending
      have hmodelead : (s.lead front).mode = .plain := hmode
      rw [feed_space hmode, feed_space hmodelead, hflush, hlead]
      exact .complete u first
    · apply leads_feed htokens
      · rintro (hmode | hmode) <;> simpa [hmode] using hunder
      · intro hmode hunit
        exact hspace ⟨hmode, hunit⟩
  | complete u first =>
    rw [feed_behind, feed_behind]
    exact .complete (u.feed unit) first

theorem Leads.feedChars (h : Leads front s t) (l : List Char) :
    Leads front (s.feedChars l) (t.feedChars l) := by
  induction l generalizing s t with
  | nil => exact h
  | cons c l ih => exact ih (h.feed (String.singleton c))

theorem verdict_flush (hmode : s.mode = .plain) : s.flush.verdict = s.verdict := by
  unfold verdict finish
  rw [mode_flush, hmode]
  simp [Mode.fault?]

/-- Both scans end alike, and the text in front is joined to the first token. -/
inductive FirstJoined (front : String) :
    Except Fault (List String) → Except Fault (List String) → Prop
  | ok (first : String) (rest : List String) :
      FirstJoined front (.ok (first :: rest)) (.ok ((front ++ first) :: rest))
  | error (fault : Fault) : FirstJoined front (.error fault) (.error fault)

theorem firstJoined_behind (u : Scanner) (front first : String) :
    FirstJoined front (u.behind [first]).verdict (u.behind [front ++ first]).verdict := by
  rw [verdict_behind, verdict_behind]
  cases u.verdict with
  | ok ts => exact .ok first ts
  | error fault => exact .error fault

theorem Leads.verdict (h : Leads front s t) :
    FirstJoined (String.join front.toList) s.verdict t.verdict := by
  cases h with
  | underWay htokens hunder =>
    have hmodelead : (s.lead front).mode = s.mode := rfl
    cases hfault : s.mode.fault? with
    | some fault =>
      have herror : s.verdict = .error fault := verdict_eq_error_iff.mpr hfault
      have herrorlead : (s.lead front).verdict = .error fault := verdict_eq_error_iff.mpr hfault
      rw [herror, herrorlead]
      exact .error fault
    | none =>
      have hmode : s.mode = .plain := by
        cases hmode : s.mode <;> simp_all [Mode.fault?]
      have hpending : s.pending = true := by simpa [hmode] using hunder
      obtain ⟨u, first, hflush, hlead⟩ := leads_flush front htokens hpending
      rw [← verdict_flush hmode, ← verdict_flush (hmodelead.trans hmode), hflush, hlead]
      exact firstJoined_behind u _ first
  | complete u first => exact firstJoined_behind u _ first

/-! ### The scan behind a text that has tokens -/

variable {a : String} {ta : List String}

/-- Such a scan holds all tokens but the last as complete, and the last one as a
token under way. -/
theorem feedChars_start_eq_lead (own : String) (h : tokenize a = .ok ta)
    (hpending : ((start own).feedChars a.toList).pending = true) :
    ∃ (front : Array String) (init : List String), ta = init ++ [String.join front.toList] ∧
      (start own).feedChars a.toList = ((start own).lead front).behind init := by
  have hmode := mode_feedChars_start_of_ok own h
  have hflush := congrArg tokens (flush_feedChars_start_of_ok own h)
  have hline := line_feedChars (start own) a.toList
  generalize (start own).feedChars a.toList = s at hpending hmode hflush hline
  refine ⟨s.pieces, s.tokens.toList, ?_, ?_⟩
  · have htokens : s.flush.tokens = ta.toArray := by simpa [behind, start] using hflush
    have hflushed : s.flush.tokens.toList = ta := by rw [htokens]
    rw [← hflushed]
    simp [flush, hpending]
  · cases s
    simp_all [behind, lead, start]

theorem pending_feedChars_start_iff (own : String) (h : tokenize a = .ok ta) :
    ((start own).feedChars a.toList).pending = true ↔
      ¬ (a = "" ∨ a.toList.getLast? = some ' ' ∧ Even (trailingBackslashes a.toList.dropLast)) := by
  have hstands := standsAfter_feedChars_start own a.toList
  have hmode := mode_feedChars_start_of_ok own h
  obtain ⟨hdangling, hopen⟩ := hstands.eq_plain_iff.mp hmode
  rw [hstands.pending, started_openSegment_iff hdangling, Ne, openSegment_eq_nil_iff hopen,
    String.toList_eq_nil_iff]

/-- Nothing changes for a scan that reads on if the token under way is ended
where it ends anyway. -/
theorem verdict_feedChars_flush {l : List Char} (hmode : s.mode = .plain)
    (h : s.pending = false ∨ l = [] ∨ l.head? = some ' ') :
    (s.flush.feedChars l).verdict = (s.feedChars l).verdict := by
  rcases h with hpending | rfl | hspace
  · rw [flush_of_not_pending hpending]
  · exact verdict_flush hmode
  · obtain ⟨rest, rfl⟩ : ∃ rest, l = ' ' :: rest := by
      cases l <;> simp_all
    rw [feedChars_cons, feedChars_cons, feed_plain hmode, feed_plain (mode_flush.trans hmode),
      if_pos rfl, if_pos rfl, flush_flush]

end Scanner

/-! ### Side by side -/

section

variable {a b : String} {ta : List String}

theorem verdict_append_of_apart (h : tokenize a = .ok ta) (hapart : Apart a b) :
    verdict (a ++ b) = (verdict b).map (ta ++ ·) := by
  have hmode := Scanner.mode_feedChars_start_of_ok a h
  have hends : ((Scanner.start a).feedChars a.toList).pending = false ∨
      b.toList = [] ∨ b.toList.head? = some ' ' := by
    rw [← Bool.not_eq_true, Scanner.pending_feedChars_start_iff a h, String.toList_eq_nil_iff]
    unfold Apart at hapart
    tauto
  rw [verdict_append a, ← Scanner.verdict_feedChars_flush hmode hends,
    Scanner.flush_feedChars_start_of_ok a h, Scanner.feedChars_behind, Scanner.verdict_behind,
    verdict_feedChars_start]

/-- Where the texts meet inside a token, the last token on the left is text in
front of the first one on the right. -/
theorem verdict_append_of_not_apart (h : tokenize a = .ok ta) (hapart : ¬ Apart a b) :
    ∃ init last v, ta = init ++ [last] ∧ Scanner.FirstJoined last (verdict b) v ∧
      verdict (a ++ b) = v.map (init ++ ·) := by
  unfold Apart at hapart
  have hpending : ((Scanner.start a).feedChars a.toList).pending = true := by
    rw [Scanner.pending_feedChars_start_iff a h]
    tauto
  obtain ⟨front, init, hta, hscan⟩ := Scanner.feedChars_start_eq_lead a h hpending
  obtain ⟨c, l, hb⟩ : ∃ c l, b.toList = c :: l := by
    apply List.exists_cons_of_ne_nil
    rw [Ne, String.toList_eq_nil_iff]
    tauto
  have hc : c ≠ ' ' := by
    rintro rfl
    simp [hb] at hapart
  have hleads : Scanner.Leads front ((Scanner.start a).feedChars b.toList)
      (((Scanner.start a).lead front).feedChars b.toList) := by
    rw [hb, Scanner.feedChars_cons, Scanner.feedChars_cons]
    apply Scanner.Leads.feedChars
    apply Scanner.leads_feed rfl
    · rintro (hmode | hmode) <;> cases hmode
    · intro _ hunit
      exact hc (by simpa using congrArg String.toList hunit)
  have hjoined := hleads.verdict
  rw [verdict_feedChars_start] at hjoined
  refine ⟨init, String.join front.toList, _, hta, hjoined, ?_⟩
  rw [verdict_append a, hscan, Scanner.feedChars_behind, Scanner.verdict_behind]

theorem verdict_append_spaces (h : tokenize a = .ok ta) (n : Nat) (b : String) :
    verdict (a ++ spaces (n + 1) ++ b) = (verdict b).map (ta ++ ·) := by
  have hmode := Scanner.mode_feedChars_start_of_ok a h
  rw [verdict_append a, String.toList_append, Scanner.feedChars_append, spaces,
    String.toList_ofList, Scanner.feedChars_spaces hmode,
    Scanner.flush_feedChars_start_of_ok a h, Scanner.feedChars_behind, Scanner.verdict_behind,
    verdict_feedChars_start]

theorem verdict_spaces_append (n : Nat) (b : String) : verdict (spaces n ++ b) = verdict b := by
  cases n with
  | zero => rfl
  | succ n =>
    have hempty : tokenize "" = .ok [] := by rfl
    have hlead := verdict_append_spaces hempty n b
    rw [String.empty_append] at hlead
    rw [hlead]
    cases verdict b <;> rfl

end

/-- Two texts side by side, the left one with tokens of its own. The right one
decides whether the whole is refused, and for what. The tokens follow each other
if the texts are apart, and else the two that meet become one. More spaces at a
delimiter, or where one could stand at the start or the end, change nothing. -/
theorem tokenize_append :
    (∀ (a b : String) (ta : List String), tokenize a = .ok ta →
      (Apart a b → verdict (a ++ b) = (verdict b).map (ta ++ ·)) ∧
      (¬ Apart a b → ∃ init last, ta = init ++ [last] ∧
        ∀ tb, tokenize b = .ok tb → ∃ first rest, tb = first :: rest ∧
          tokenize (a ++ b) = .ok (init ++ (last ++ first) :: rest)) ∧
      (∀ fault, verdict (a ++ b) = .error fault ↔ verdict b = .error fault) ∧
      verdict (a ++ " " ++ b) = (verdict b).map (ta ++ ·)) ∧
    ∀ (a b : String) (n : Nat),
      verdict (spaces n ++ b) = verdict b ∧
      (Position.Delimits ⟨a.toList, ' '⟩ →
        verdict (a ++ spaces (n + 1) ++ b) = verdict (a ++ " " ++ b) ∧
          verdict (a ++ spaces n) = verdict a) := by
  constructor
  · intro a b ta h
    have hspace : verdict (a ++ " " ++ b) = (verdict b).map (ta ++ ·) :=
      verdict_append_spaces h 0 b
    refine ⟨verdict_append_of_apart h, ?_, ?_, hspace⟩
    · intro hapart
      obtain ⟨init, last, v, hta, hjoined, hverdict⟩ := verdict_append_of_not_apart h hapart
      refine ⟨init, last, hta, ?_⟩
      intro tb hb
      rw [← verdict_eq_ok_iff] at hb
      rw [hb] at hjoined
      cases hjoined with
      | ok first rest => exact ⟨first, rest, rfl, verdict_eq_ok_iff.mp hverdict⟩
    · intro fault
      by_cases hapart : Apart a b
      · rw [verdict_append_of_apart h hapart]
        cases verdict b <;> simp [Except.map]
      · obtain ⟨init, last, v, -, hjoined, hverdict⟩ := verdict_append_of_not_apart h hapart
        rw [hverdict]
        generalize verdict b = w at hjoined ⊢
        cases hjoined <;> simp [Except.map]
  · intro a b n
    refine ⟨verdict_spaces_append n b, ?_⟩
    intro hdelimits
    obtain ⟨-, hdangling, hopen⟩ := Position.delimits_mk.mp hdelimits
    obtain ⟨ta, h⟩ := (exists_tokenize_eq_ok_iff a).mpr ⟨hdangling, hopen⟩
    have hspace : verdict (a ++ " " ++ b) = (verdict b).map (ta ++ ·) :=
      verdict_append_spaces h 0 b
    refine ⟨?_, ?_⟩
    · rw [hspace, verdict_append_spaces h n b]
    · cases n with
      | zero => rw [spaces, List.replicate_zero, String.ofList_nil, String.append_empty]
      | succ n =>
        have htrail := verdict_append_spaces h n ""
        have hempty : verdict "" = .ok [] := by rfl
        rw [String.append_empty, hempty] at htrail
        rw [htrail, verdict_eq_ok_iff.mpr h]
        simp [Except.map]

/-- An empty token and an escaped space meet, a refused text stands behind an
escaped backslash and a space, and a quoted space is no delimiter. -/
theorem tokenize_append_at_quotes :
    (tokenize "p \"\"" = .ok ["p", ""] ∧ ¬ Apart "p \"\"" "\\ q r" ∧
      tokenize "\\ q r" = .ok [" q", "r"] ∧
      tokenize ("p \"\"" ++ "\\ q r") = .ok ["p", " q", "r"]) ∧
    (tokenize "p\\\\ " = .ok ["p\\"] ∧ Apart "p\\\\ " "q\" r" ∧
      verdict ("p\\\\ " ++ "q\" r") = .error .unmatchedQuote) ∧
    (Position.Delimits ⟨"\" \"".toList, ' '⟩ ∧
      verdict ("\" \"" ++ spaces 3 ++ "x") = verdict ("\" \"" ++ " " ++ "x")) := by
  have hquotes : tokenize "p \"\"" = .ok ["p", ""] := by rfl
  have hescape : tokenize "\\ q r" = .ok [" q", "r"] := by rfl
  have hmeet : ¬ Apart "p \"\"" "\\ q r" := by decide
  obtain ⟨init, last, hta, hjoined⟩ := (tokenize_append.1 _ _ _ hquotes).2.1 hmeet
  obtain ⟨first, rest, htb, hwhole⟩ := hjoined _ hescape
  have hinit : init = ["p"] := by simpa using (congrArg List.dropLast hta).symm
  have hlast : last = "" := by simpa using (congrArg List.getLast? hta).symm
  obtain ⟨rfl, rfl⟩ : " q" = first ∧ ["r"] = rest := List.cons.inj htb
  rw [hinit, hlast] at hwhole
  have hspace : tokenize "p\\\\ " = .ok ["p\\"] := by rfl
  have hapart : Apart "p\\\\ " "q\" r" := by decide
  have hrefused : verdict "q\" r" = .error .unmatchedQuote := by rfl
  have herror := ((tokenize_append.1 _ "q\" r" _ hspace).2.2.1 .unmatchedQuote).mpr hrefused
  have hdelimits : Position.Delimits ⟨"\" \"".toList, ' '⟩ := by decide
  have hspaces := ((tokenize_append.2 _ "x" 2).2 hdelimits).1
  exact ⟨⟨hquotes, hmeet, hescape, hwhole⟩, ⟨hspace, hapart, herror⟩, hdelimits, hspaces⟩

end LineTokens
