import LineTokens.Proofs.Recognition

/-!
Writing tokens into a line. A token can be written between quotes or bare, and
either way the characters that would be syntax there have a backslash before
them. Whatever the tokens are, and however each of them is written, splitting
the line gives them back.
-/

namespace LineTokens

open Grammar

/-- Puts a backslash before each marked character. -/
def escapeMarked (marked : List Char) (t : List Char) : List Char :=
  t.flatMap fun c => if c ∈ marked then ['\\', c] else [c]

/-- Ways to write a token. -/
inductive Style where
  | quoted
  | bare
  deriving DecidableEq, Repr

def Style.write : Style → List Char → List Char
  | .quoted, t => '"' :: (escapeMarked ['"', '\\'] t ++ ['"'])
  | .bare, t => escapeMarked [' ', '"', '\\'] t

/-- A token and how it is written. The gap is the number of spaces, beyond the
one that is needed, between it and a token after it. An empty token cannot be
written bare, since there would be nothing to see of it. -/
structure Rendering where
  token : String
  style : Style
  gap : Nat
  ne_empty_of_bare : style = .bare → token ≠ ""
  deriving DecidableEq, Repr

namespace Rendering

def text (r : Rendering) : List Char := r.style.write r.token.toList

/-- The tokens of a line with the spaces between them. -/
def tokensText : List Rendering → List Char
  | [] => []
  | [r] => r.text
  | r :: next :: rest => r.text ++ List.replicate (r.gap + 1) ' ' ++ tokensText (next :: rest)

/-- A line of tokens, with spaces before the first and after the last. -/
def line (lead : Nat) (rs : List Rendering) (trail : Nat) : String :=
  String.ofList (List.replicate lead ' ' ++ tokensText rs ++ List.replicate trail ' ')

end Rendering

/-! ### Derivations of what is written -/

theorem enclosed_escapeMarked {marked : List Char} (hquote : '"' ∈ marked)
    (hbackslash : '\\' ∈ marked) (t : List Char) : Enclosed (escapeMarked marked t) t := by
  induction t with
  | nil => exact .nil
  | cons c t ih =>
    unfold escapeMarked at ih ⊢
    rw [List.flatMap_cons]
    split_ifs with hc
    · exact .escape c ih
    · have hcquote : c ≠ '"' := by
        rintro rfl
        exact hc hquote
      have hcbackslash : c ≠ '\\' := by
        rintro rfl
        exact hc hbackslash
      exact .char hcquote hcbackslash ih

theorem pieces_escapeMarked {marked : List Char} (hspace : ' ' ∈ marked)
    (hquote : '"' ∈ marked) (hbackslash : '\\' ∈ marked) (t : List Char) :
    Pieces (escapeMarked marked t) t := by
  induction t with
  | nil => exact .nil
  | cons c t ih =>
    unfold escapeMarked at ih ⊢
    rw [List.flatMap_cons]
    split_ifs with hc
    · exact .cons (.escape c) ih
    · have hordinary : Ordinary c := by
        refine ⟨?_, ?_, ?_⟩
        · rintro rfl
          exact hc hspace
        · rintro rfl
          exact hc hquote
        · rintro rfl
          exact hc hbackslash
      exact .cons (.ordinary hordinary) ih

theorem Grammar.Pieces.token_of_ne_nil {l v : List Char} (h : Pieces l v) (hne : v ≠ []) :
    Token l v := by
  cases h with
  | nil => exact absurd rfl hne
  | cons hfirst hrest => exact .pieces hfirst hrest

namespace Rendering

theorem derivable_text (r : Rendering) : Token r.text r.token.toList := by
  unfold text
  cases hstyle : r.style with
  | quoted =>
    have henclosed : Enclosed (escapeMarked ['"', '\\'] r.token.toList) r.token.toList :=
      enclosed_escapeMarked (by simp) (by simp) _
    exact Pieces.nil.token (.quoted henclosed)
  | bare =>
    have hpieces : Pieces (escapeMarked [' ', '"', '\\'] r.token.toList) r.token.toList :=
      pieces_escapeMarked (by simp) (by simp) (by simp) _
    have hne : r.token.toList ≠ [] := by
      simpa using r.ne_empty_of_bare hstyle
    exact hpieces.token_of_ne_nil hne

theorem derivable_tokensText (r : Rendering) (rest : List Rendering) :
    Tokens (tokensText (r :: rest)) ((r :: rest).map token) := by
  induction rest generalizing r with
  | nil =>
    have hone := Tokens.one r.derivable_text
    simpa [tokensText] using hone
  | cons next rest ih =>
    have hcons := Tokens.cons r.gap r.derivable_text (ih next)
    simpa [tokensText] using hcons

theorem derivable_line (lead : Nat) (rs : List Rendering) (trail : Nat) :
    Line (line lead rs trail).toList (rs.map token) := by
  rw [line, String.toList_ofList]
  cases rs with
  | nil =>
    rw [tokensText, List.append_nil, List.replicate_append_replicate]
    exact .blank (lead + trail)
  | cons r rest => exact .tokens lead trail (derivable_tokensText r rest)

end Rendering

/-- Every list of tokens can be written, and what is written is split into the
same tokens again, whatever the style of each of them and the spaces around.
So the tokens of any line can be written anew and stay what they are. -/
theorem tokenize_rendered :
    (∀ ts : List String, ∃ rs : List Rendering, rs.map Rendering.token = ts) ∧
    (∀ (lead : Nat) (rs : List Rendering) (trail : Nat),
      tokenize (Rendering.line lead rs trail) = .ok (rs.map Rendering.token)) ∧
    ∀ (line : String) (ts : List String), tokenize line = .ok ts →
      ∀ rs : List Rendering, rs.map Rendering.token = ts →
        ∀ lead trail, tokenize (Rendering.line lead rs trail) = tokenize line := by
  have hline (lead : Nat) (rs : List Rendering) (trail : Nat) :
      tokenize (Rendering.line lead rs trail) = .ok (rs.map Rendering.token) :=
    tokenize_of_line (Rendering.derivable_line lead rs trail)
  refine ⟨?_, hline, ?_⟩
  · intro ts
    refine ⟨ts.map fun t => ⟨t, .quoted, 0, nofun⟩, ?_⟩
    simp [Function.comp_def]
  · intro line ts hok rs htokens lead trail
    rw [hline, htokens, hok]

/-- The tokens of a line written anew: an empty one between quotes, one that
ends in a backslash bare, and one of a space and a quote between quotes. -/
theorem tokenize_rendered_anew :
    let rs : List Rendering :=
      [⟨"", .quoted, 0, by decide⟩, ⟨"a\\", .bare, 2, by decide⟩, ⟨" \"", .quoted, 0, by decide⟩]
    tokenize "\"\" \"a\\\\\" \\ \\\"" = .ok ["", "a\\", " \""] ∧
      rs.map Rendering.token = ["", "a\\", " \""] ∧
      Rendering.line 1 rs 0 = " \"\" a\\\\   \" \\\"\"" ∧
      tokenize (Rendering.line 1 rs 0) = tokenize "\"\" \"a\\\\\" \\ \\\"" := by
  intro rs
  have hok : tokenize "\"\" \"a\\\\\" \\ \\\"" = .ok ["", "a\\", " \""] := by rfl
  have htokens : rs.map Rendering.token = ["", "a\\", " \""] := by rfl
  have hanew := tokenize_rendered.2.2 _ _ hok rs htokens 1 0
  exact ⟨hok, htokens, by rfl, hanew⟩

end LineTokens
