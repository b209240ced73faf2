import Mathlib.Data.List.Induction
import Mathlib.Logic.ExistsUnique
import LineTokens.Proofs.Grammar
import LineTokens.Proofs.Scanning

/-!
The scanner recognises the grammar. In one direction a derivation is read off
step by step, and each rule has one effect on the scanner. In the other the
scanner carries a partial derivation of the text read so far: its tokens are
those of the text up to a boundary, and the token under way begins there.
-/

namespace LineTokens

open Grammar

namespace Scanner

variable {s : Scanner}

/-! ### From a derivation to the scan -/

/-- Between tokens, with nothing collected. -/
structure Idle (s : Scanner) : Prop where
  mode : s.mode = .plain
  pieces : s.pieces = #[]
  pending : s.pending = false

theorem idle_start (line : String) : (start line).Idle := ⟨rfl, rfl, rfl⟩

def emit (s : Scanner) (token : String) : Scanner :=
  { s with tokens := s.tokens.push token }

theorem Idle.emit (h : s.Idle) (token : String) : (s.emit token).Idle :=
  ⟨h.mode, h.pieces, h.pending⟩

theorem Idle.flush_appendChars (h : s.Idle) (v : List Char) :
    (s.appendChars v).flush = s.emit (String.ofList v) := by
  simp [flush, appendChars, Scanner.emit, h.pieces, h.pending, join_map_singleton]

theorem appendChars_nil (hpending : s.pending = true) : s.appendChars [] = s := by
  cases s
  simp_all [appendChars]

theorem feedChars_enclosed {l v : List Char} (h : Enclosed l v) (hmode : s.mode = .quoted)
    (hpending : s.pending = true) : s.feedChars l = s.appendChars v := by
  induction h generalizing s with
  | nil => exact (appendChars_nil hpending).symm
  | @char c l v hquote hbackslash _ ih =>
    have hgrown : (s.appendChars [c]).feedChars l = (s.appendChars [c]).appendChars v :=
      ih hmode rfl
    rw [feedChars_cons, feed_quoted hmode, if_neg hquote, if_neg hbackslash, hgrown,
      appendChars_appendChars]
    rfl
  | @escape c l v _ ih =>
    have hbackslash : s.feed (String.singleton '\\') = { s with mode := .quotedEscaped } := by
      rw [feed_quoted hmode]
      rfl
    have hescape : ({ s with mode := .quotedEscaped } : Scanner).feed (String.singleton c) =
        s.appendChars [c] := by
      rw [feed_quotedEscaped rfl]
      simp [appendChars, hmode]
    have hgrown : (s.appendChars [c]).feedChars l = (s.appendChars [c]).appendChars v :=
      ih hmode rfl
    rw [feedChars_cons, hbackslash, feedChars_cons, hescape, hgrown, appendChars_appendChars]
    rfl

theorem feedChars_piece {l v : List Char} (h : Piece l v) (hmode : s.mode = .plain) :
    s.feedChars l = s.appendChars v := by
  cases h with
  | ordinary hordinary =>
    obtain ⟨hspace, hquote, hbackslash⟩ := hordinary
    rw [feedChars_cons, feed_plain hmode, if_neg hspace, if_neg hquote, if_neg hbackslash]
    rfl
  | escape c =>
    rw [feedChars_cons, feed_plain hmode, feedChars_cons, feed_escaped rfl]
    simp [appendChars, hmode]
  | quoted henclosed =>
    have hopen : s.feed (String.singleton '"') =
        { s with mode := .quoted, pending := true } := by
      rw [feed_plain hmode]
      rfl
    rw [feedChars_cons, hopen, feedChars_append, feedChars_enclosed henclosed rfl rfl,
      feedChars_cons, feed_quoted rfl]
    simp [appendChars, hmode]

theorem feedChars_pieces {l v : List Char} (h : Pieces l v) (hmode : s.mode = .plain)
    (hpending : s.pending = true) : s.feedChars l = s.appendChars v := by
  induction h generalizing s with
  | nil => exact (appendChars_nil hpending).symm
  | @cons l v l' v' hfirst _ ih =>
    have hrest : (s.appendChars v).feedChars l' = (s.appendChars v).appendChars v' :=
      ih hmode rfl
    rw [feedChars_append, feedChars_piece hfirst hmode, hrest, appendChars_appendChars]

theorem feedChars_token {l v : List Char} (h : Token l v) (hmode : s.mode = .plain) :
    s.feedChars l = s.appendChars v := by
  obtain @⟨l, v, l', v', hfirst, hpieces⟩ := h
  have hrest : (s.appendChars v).feedChars l' = (s.appendChars v).appendChars v' :=
    feedChars_pieces hpieces hmode rfl
  rw [feedChars_append, feedChars_piece hfirst hmode, hrest, appendChars_appendChars]

theorem flush_feedChars_spaces (hmode : s.mode = .plain) (n : Nat) :
    (s.feedChars (List.replicate n ' ')).mode = .plain ∧
      (s.feedChars (List.replicate n ' ')).flush = s.flush := by
  cases n with
  | zero => exact ⟨hmode, rfl⟩
  | succ n =>
    rw [feedChars_spaces hmode]
    exact ⟨mode_flush.trans hmode, flush_flush⟩

theorem Idle.feedChars_spaces (h : s.Idle) (n : Nat) :
    s.feedChars (List.replicate n ' ') = s := by
  cases n with
  | zero => rfl
  | succ n => rw [Scanner.feedChars_spaces h.mode, flush_of_not_pending h.pending]

theorem Idle.feedChars_tokens {l : List Char} {ts : List String} (h : s.Idle)
    (htokens : Tokens l ts) :
    (s.feedChars l).mode = .plain ∧
      (s.feedChars l).flush.tokens.toList = s.tokens.toList ++ ts := by
  induction htokens generalizing s with
  | @one l v htoken =>
    rw [feedChars_token htoken h.mode, h.flush_appendChars]
    exact ⟨h.mode, by simp [Scanner.emit]⟩
  | @cons l v l' ts n htoken _ ih =>
    have hread : s.feedChars (l ++ List.replicate (n + 1) ' ' ++ l') =
        (s.emit (String.ofList v)).feedChars l' := by
      have hmode : (s.appendChars v).mode = .plain := h.mode
      rw [feedChars_append, feedChars_append, feedChars_token htoken h.mode,
        Scanner.feedChars_spaces hmode, h.flush_appendChars]
    obtain ⟨hmode, hflush⟩ := ih (h.emit (String.ofList v))
    rw [hread, hflush]
    exact ⟨hmode, by simp [Scanner.emit]⟩

theorem Idle.feedChars_line {l : List Char} {ts : List String} (h : s.Idle)
    (hline : Line l ts) :
    (s.feedChars l).mode = .plain ∧
      (s.feedChars l).flush.tokens.toList = s.tokens.toList ++ ts := by
  cases hline with
  | blank n =>
    rw [h.feedChars_spaces, flush_of_not_pending h.pending]
    exact ⟨h.mode, by simp⟩
  | tokens m n htokens =>
    obtain ⟨hmode, hflush⟩ := h.feedChars_tokens htokens
    rw [feedChars_append, feedChars_append, h.feedChars_spaces]
    obtain ⟨hmode', hflush'⟩ := flush_feedChars_spaces hmode n
    rw [hflush']
    exact ⟨hmode', hflush⟩

/-! ### From the scan to a derivation -/

/-- A partial derivation of a text, as far as the mode in which the text ends
lets it go: the tokens up to a boundary, and the value so far of the token
after it, if one has begun. A backslash that waits for its character is not
yet part of any piece. -/
inductive Progress : List Char → Mode → List String → Option (List Char) → Prop
  | idle {p : List Char} {ts : List String} :
      Boundary p ts → Progress p .plain ts none
  | token {p t v : List Char} {ts : List String} :
      Boundary p ts → Token t v → Progress (p ++ t) .plain ts (some v)
  | quoted {p t v q w : List Char} {ts : List String} :
      Boundary p ts → Pieces t v → Enclosed q w →
        Progress (p ++ t ++ '"' :: q) .quoted ts (some (v ++ w))
  | escaped {l : List Char} {ts : List String} {v? : Option (List Char)} :
      Progress l .plain ts v? → Progress (l ++ ['\\']) .escaped ts v?
  | quotedEscaped {l : List Char} {ts : List String} {v? : Option (List Char)} :
      Progress l .quoted ts v? → Progress (l ++ ['\\']) .quotedEscaped ts v?

namespace Progress

variable {l : List Char} {ts : List String} {v? : Option (List Char)}

theorem concat_piece {l' v' : List Char} (h : Progress l .plain ts v?) (hpiece : Piece l' v') :
    Progress (l ++ l') .plain ts (some (v?.getD [] ++ v')) := by
  cases h with
  | idle hboundary =>
    have htoken : Token l' v' := Pieces.nil.token hpiece
    exact .token hboundary htoken
  | token hboundary htoken =>
    rw [List.append_assoc]
    exact .token hboundary (htoken.toPieces.token hpiece)

theorem concat_quote (h : Progress l .plain ts v?) :
    Progress (l ++ ['"']) .quoted ts (some (v?.getD [])) := by
  cases h with
  | idle hboundary => simpa using Progress.quoted hboundary .nil .nil
  | token hboundary htoken => simpa using Progress.quoted hboundary htoken.toPieces .nil

theorem concat_enclosed {l' v' : List Char} (h : Progress l .quoted ts v?)
    (henclosed : Enclosed l' v') :
    Progress (l ++ l') .quoted ts (some (v?.getD [] ++ v')) := by
  cases h with
  | quoted hboundary hpieces hbefore =>
    have hgrown := Progress.quoted hboundary hpieces (hbefore.append henclosed)
    simpa using hgrown

theorem close_quote (h : Progress l .quoted ts v?) :
    Progress (l ++ ['"']) .plain ts v? := by
  cases h with
  | quoted hboundary hpieces henclosed =>
    have hgrown := Progress.token hboundary (hpieces.token (.quoted henclosed))
    simpa using hgrown

end Progress

/-- The pending flag and the pieces stand for the token under way, if any. -/
structure Holds (s : Scanner) (v? : Option (List Char)) : Prop where
  pending : s.pending = v?.isSome
  pieces : (String.join s.pieces.toList).toList = v?.getD []

theorem Holds.appendChars {v? : Option (List Char)} (h : s.Holds v?) (c : Char) :
    (s.appendChars [c]).Holds (some (v?.getD [] ++ [c])) := by
  refine ⟨rfl, ?_⟩
  have hpieces := h.pieces
  simp_all [Scanner.appendChars]

def Follows (s : Scanner) (l : List Char) : Prop :=
  ∃ v?, Progress l s.mode s.tokens.toList v? ∧ s.Holds v?

theorem follows_start (line : String) : (start line).Follows [] :=
  ⟨none, .idle .start, ⟨rfl, rfl⟩⟩

theorem Follows.flush {l : List Char} (h : s.Follows l) (hmode : s.mode = .plain) :
    Line l s.flush.tokens.toList ∧ s.flush.Holds none := by
  obtain ⟨v?, hprogress, hholds⟩ := h
  rw [hmode] at hprogress
  cases hprogress with
  | idle hboundary =>
    rw [flush_of_not_pending hholds.pending]
    exact ⟨hboundary.line, hholds⟩
  | @token p t v _ hboundary htoken =>
    have hpending : s.pending = true := hholds.pending
    have hvalue : String.join s.pieces.toList = String.ofList v := by
      rw [← String.toList_inj, hholds.pieces, String.toList_ofList]
      rfl
    simp only [Scanner.flush, hpending, if_true, Array.toList_push, hvalue]
    exact ⟨hboundary.line_token htoken, rfl, rfl⟩

theorem Follows.feed {l : List Char} (h : s.Follows l) (c : Char) :
    (s.feed (String.singleton c)).Follows (l ++ [c]) := by
  cases hmode : s.mode with
  | plain =>
    obtain ⟨hline, hidle⟩ := h.flush hmode
    obtain ⟨v?, hprogress, hholds⟩ := h
    rw [hmode] at hprogress
    rw [feed_plain hmode]
    split_ifs with hspace hquote hbackslash
    · refine ⟨none, ?_, hidle⟩
      rw [mode_flush, hmode, hspace]
      exact .idle (.space hline)
    · rw [hquote]
      exact ⟨some (v?.getD []), hprogress.concat_quote, rfl, hholds.pieces⟩
    · rw [hbackslash]
      exact ⟨v?, .escaped hprogress, hholds.pending, hholds.pieces⟩
    · refine ⟨some (v?.getD [] ++ [c]), ?_, hholds.appendChars c⟩
      rw [mode_appendChars, hmode]
      exact hprogress.concat_piece (.ordinary ⟨hspace, hquote, hbackslash⟩)
  | quoted =>
    obtain ⟨v?, hprogress, hholds⟩ := h
    rw [hmode] at hprogress
    rw [feed_quoted hmode]
    split_ifs with hquote hbackslash
    · rw [hquote]
      exact ⟨v?, hprogress.close_quote, hholds.pending, hholds.pieces⟩
    · rw [hbackslash]
      exact ⟨v?, .quotedEscaped hprogress, hholds.pending, hholds.pieces⟩
    · refine ⟨some (v?.getD [] ++ [c]), ?_, hholds.appendChars c⟩
      rw [mode_appendChars, hmode]
      exact hprogress.concat_enclosed (.char hquote hbackslash .nil)
  | escaped =>
    obtain ⟨v?, hprogress, hholds⟩ := h
    rw [hmode] at hprogress
    rw [feed_escaped hmode]
    cases hprogress with
    | escaped hbefore =>
      -- The waiting backslash and this character make one piece.
      have hgrown := hbefore.concat_piece (.escape c)
      rw [List.append_assoc]
      have happended := hholds.appendChars c
      exact ⟨_, hgrown, happended.pending, happended.pieces⟩
  | quotedEscaped =>
    obtain ⟨v?, hprogress, hholds⟩ := h
    rw [hmode] at hprogress
    rw [feed_quotedEscaped hmode]
    cases hprogress with
    | quotedEscaped hbefore =>
      have hgrown := hbefore.concat_enclosed (.escape c .nil)
      rw [List.append_assoc]
      have happended := hholds.appendChars c
      exact ⟨_, hgrown, happended.pending, happended.pieces⟩

theorem follows_feedChars_start (line : String) (l : List Char) :
    ((start line).feedChars l).Follows l := by
  induction l using List.reverseRecOn with
  | nil => exact follows_start line
  | append_singleton l c ih =>
    rw [feedChars_concat]
    exact ih.feed c

end Scanner

theorem tokenize_of_line {line : String} {ts : List String} (h : Line line.toList ts) :
    tokenize line = .ok ts := by
  rw [tokenize_eq_ok_iff]
  have hidle := Scanner.idle_start line
  simpa [Scanner.start] using hidle.feedChars_line h

theorem line_of_tokenize {line : String} {ts : List String} (h : tokenize line = .ok ts) :
    Line line.toList ts := by
  obtain ⟨hmode, htokens⟩ := tokenize_eq_ok_iff.mp h
  have hfollows := Scanner.follows_feedChars_start line line.toList
  rw [← htokens]
  exact (hfollows.flush hmode).1

/-- A line has the tokens that the grammar derives for it, and no others; it
is refused when the grammar derives none. The grammar is unambiguous. -/
theorem tokenize_iff_line_derivable (line : String) :
    (∀ ts, tokenize line = .ok ts ↔ Line line.toList ts) ∧
      ((∃ ts, Line line.toList ts) ↔ ∃! ts, Line line.toList ts) ∧
      ((∃ r, tokenize line = .error r) ↔ ¬ ∃ ts, Line line.toList ts) := by
  have hiff (ts : List String) : tokenize line = .ok ts ↔ Line line.toList ts :=
    ⟨line_of_tokenize, tokenize_of_line⟩
  refine ⟨hiff, ?_, ?_⟩
  · constructor
    · rintro ⟨ts, hts⟩
      refine ⟨ts, hts, ?_⟩
      intro us hus
      have hok := (hiff us).mpr hus
      rw [(hiff ts).mpr hts] at hok
      exact (Except.ok.inj hok).symm
    · exact ExistsUnique.exists
  · simp only [← hiff]
    cases tokenize line <;> simp

end LineTokens
