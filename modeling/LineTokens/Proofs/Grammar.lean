import LineTokens.Scanner

/-!
The syntax of a line as rules of derivation. A rule relates a text to what it
stands for: a piece or a token to the characters of its value, a line to its
list of tokens. The rules are read from left to right, while a scanner meets a
text from its beginning and has to add to the right of what it has derived, so
each of them also has its form for growth on the right.
-/

namespace LineTokens.Grammar

/-- A character that stands for itself outside quotes. -/
def Ordinary (c : Char) : Prop := c ≠ ' ' ∧ c ≠ '"' ∧ c ≠ '\\'

/-- What may stand between two quotes, and what it stands for. -/
inductive Enclosed : List Char → List Char → Prop
  | nil : Enclosed [] []
  | char {c : Char} {l v : List Char} :
      c ≠ '"' → c ≠ '\\' → Enclosed l v → Enclosed (c :: l) (c :: v)
  | escape (c : Char) {l v : List Char} :
      Enclosed l v → Enclosed ('\\' :: c :: l) (c :: v)

inductive Piece : List Char → List Char → Prop
  | ordinary {c : Char} : Ordinary c → Piece [c] [c]
  | escape (c : Char) : Piece ['\\', c] [c]
  | quoted {l v : List Char} : Enclosed l v → Piece ('"' :: (l ++ ['"'])) v

/-- Any number of pieces side by side. -/
inductive Pieces : List Char → List Char → Prop
  | nil : Pieces [] []
  | cons {l v l' v' : List Char} :
      Piece l v → Pieces l' v' → Pieces (l ++ l') (v ++ v')

/-- One or more pieces side by side. Their values make one value, which can be
empty although the text is not. -/
inductive Token : List Char → List Char → Prop
  | pieces {l v l' v' : List Char} :
      Piece l v → Pieces l' v' → Token (l ++ l') (v ++ v')

/-- One or more tokens, with one or more spaces between neighbours. -/
inductive Tokens : List Char → List String → Prop
  | one {l v : List Char} : Token l v → Tokens l [String.ofList v]
  | cons {l v l' : List Char} {ts : List String} (n : Nat) :
      Token l v → Tokens l' ts →
        Tokens (l ++ List.replicate (n + 1) ' ' ++ l') (String.ofList v :: ts)

/-- Tokens, or none, with any number of spaces before and after. -/
inductive Line : List Char → List String → Prop
  | blank (n : Nat) : Line (List.replicate n ' ') []
  | tokens (m n : Nat) {l : List Char} {ts : List String} :
      Tokens l ts → Line (List.replicate m ' ' ++ l ++ List.replicate n ' ') ts

/-! ### Growth on the right -/

theorem Enclosed.append {l v l' v' : List Char} (h : Enclosed l v)
    (h' : Enclosed l' v') : Enclosed (l ++ l') (v ++ v') := by
  induction h with
  | nil => exact h'
  | char hquote hbackslash _ ih => exact .char hquote hbackslash ih
  | escape c _ ih => exact .escape c ih

theorem Pieces.concat {l v l' v' : List Char} (h : Pieces l v) (hpiece : Piece l' v') :
    Pieces (l ++ l') (v ++ v') := by
  induction h with
  | nil => simpa using Pieces.cons hpiece .nil
  | cons hfirst _ ih =>
    rw [List.append_assoc, List.append_assoc]
    exact .cons hfirst ih

theorem Pieces.token {l v l' v' : List Char} (h : Pieces l v) (hpiece : Piece l' v') :
    Token (l ++ l') (v ++ v') := by
  cases h with
  | nil => simpa using Token.pieces hpiece .nil
  | cons hfirst hrest =>
    rw [List.append_assoc, List.append_assoc]
    exact .pieces hfirst (hrest.concat hpiece)

theorem Token.toPieces {l v : List Char} (h : Token l v) : Pieces l v := by
  obtain ⟨hfirst, hrest⟩ := h
  exact .cons hfirst hrest

theorem Tokens.concat {l l' v : List Char} {ts : List String} (h : Tokens l ts) (n : Nat)
    (htoken : Token l' v) :
    Tokens (l ++ List.replicate (n + 1) ' ' ++ l') (ts ++ [String.ofList v]) := by
  induction h with
  | one hfirst => exact .cons n hfirst (.one htoken)
  | cons k hfirst _ ih =>
    have hgrown := Tokens.cons k hfirst ih
    simpa only [List.append_assoc, List.cons_append] using hgrown

/-- A place in a line where a token may begin: its start, or after a space. -/
inductive Boundary : List Char → List String → Prop
  | start : Boundary [] []
  | space {l : List Char} {ts : List String} : Line l ts → Boundary (l ++ [' ']) ts

theorem Line.concat_space {l : List Char} {ts : List String} (h : Line l ts) :
    Line (l ++ [' ']) ts := by
  cases h with
  | blank n =>
    rw [← List.replicate_succ']
    exact .blank (n + 1)
  | tokens m n htokens =>
    rw [List.append_assoc, ← List.replicate_succ']
    exact .tokens m (n + 1) htokens

theorem Boundary.line {l : List Char} {ts : List String} (h : Boundary l ts) : Line l ts := by
  cases h with
  | start => exact .blank 0
  | space hline => exact hline.concat_space

/-- A token at a boundary makes the text before it a longer line. The spaces
that end the shorter line become those before the token. -/
theorem Boundary.line_token {l l' v : List Char} {ts : List String} (h : Boundary l ts)
    (htoken : Token l' v) : Line (l ++ l') (ts ++ [String.ofList v]) := by
  cases h with
  | start => simpa using Line.tokens 0 0 (.one htoken)
  | space hline =>
    cases hline with
    | blank n =>
      have hgrown := Line.tokens (n + 1) 0 (.one htoken)
      simpa [List.replicate_succ'] using hgrown
    | tokens m n htokens =>
      have hgrown := Line.tokens m 0 (htokens.concat n htoken)
      simpa [List.replicate_succ'] using hgrown

end LineTokens.Grammar
