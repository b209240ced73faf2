import Mathlib.Algebra.Group.Nat.Defs
import Mathlib.Data.List.TakeWhile
import LineTokens.Text.Dialect
import LineTokens.Text.Hex

/-!
Lists of strings as they are written and read. Every number is read back from
its hexadecimal numeral, with any text behind it. Where every character is read
back from its spelling in this way, so is every string from between its quotes,
and every list from between its brackets.
-/

namespace LineTokens

/-! ### Numbers -/

namespace Hex

theorem value?_digit {n : Nat} (h : n < 16) : value? (digit n) = some n := by
  have hall : ∀ m < 16, value? (digit m) = some m := by decide
  exact hall n h

theorem number?_numeral {width n : Nat} (h : n < 16 ^ width) :
    number? (numeral width n) = some n := by
  induction width generalizing n with
  | zero =>
    obtain rfl : n = 0 := Nat.lt_one_iff.mp h
    rfl
  | succ width ih =>
    have hhigh : n / 16 < 16 ^ width := by
      rw [Nat.pow_succ] at h
      exact Nat.div_lt_of_lt_mul (Nat.mul_comm _ _ ▸ h)
    have hnumber := ih hhigh
    rw [number?] at hnumber
    have hlow : n % 16 < 16 := Nat.mod_lt n (by decide)
    rw [number?, numeral, List.foldlM_append, hnumber]
    simp [value?_digit hlow, Nat.div_add_mod]

theorem front?_numeral_append {width n : Nat} (h : n < 16 ^ width) (rest : List Char) :
    front? width (numeral width n ++ rest) = some n := by
  have hlength : width ≤ (numeral width n ++ rest).length := by simp
  rw [front?, if_pos hlength, List.take_left' (length_numeral width n), number?_numeral h]

end Hex

namespace Dialect

variable {d : Dialect}

/-! ### Characters and strings -/

/-- Every character is read back from its spelling, which does not begin like
the closing quote, whatever stands behind it. -/
def ReadsSpelling (d : Dialect) (quote : Char) (spell : Char → List Char) : Prop :=
  ∀ c rest, ∃ first tail, spell c = first :: tail ∧ first ≠ quote ∧
    d.front? quote first (tail ++ rest) = some ⟨c, tail.length⟩

theorem content?_flatMap {quote : Char} {spell : Char → List Char}
    (h : d.ReadsSpelling quote spell) (content rest : List Char) :
    d.content? quote (content.flatMap spell ++ quote :: rest) = some ⟨content, rest⟩ := by
  induction content with
  | nil => simp [content?]
  | cons c content ih =>
    obtain ⟨first, tail, hspell, hquote, hfront⟩ :=
      h c (content.flatMap spell ++ quote :: rest)
    rw [List.flatMap_cons, hspell, List.append_assoc, List.cons_append, content?, if_neg hquote,
      hfront]
    simp [ih]

theorem string?_of_content? {quote : Char} (hquote : quote ∈ d.quotes) {text : List Char}
    {q : Quoted} (h : d.content? quote text = some q) : d.string? (quote :: text) = some q := by
  rw [string?, if_pos hquote, h]

theorem forall_mem_quoted {P : Char → Prop} {quote : Char} (hquote : P quote)
    {spell : Char → List Char} (hspell : ∀ c, ∀ a ∈ spell c, P a) (content : List Char) :
    ∀ a ∈ quote :: content.flatMap spell ++ [quote], P a := by
  intro a ha
  rcases List.mem_append.mp ha with hfront | hclosing
  · rcases List.mem_cons.mp hfront with rfl | hcontent
    · exact hquote
    · obtain ⟨c, -, hc⟩ := List.mem_flatMap.mp hcontent
      exact hspell c a hc
  · exact List.mem_singleton.mp hclosing ▸ hquote

/-! ### Lists -/

/-- Every string is read back from where it is written, whatever stands behind
it. -/
def ReadsString (d : Dialect) (write : String → String) : Prop :=
  ∀ s rest, d.string? ((write s).toList ++ rest) = some ⟨s.toList, rest⟩

/-- A list, its items as they are written between brackets and commas. -/
def bracketed (write : String → String) (items : List String) : String :=
  "[" ++ ", ".intercalate (items.map write) ++ "]"

theorem skipBlanks_of_not_mem {c : Char} (h : c ∉ blanks) (rest : List Char) :
    skipBlanks (c :: rest) = c :: rest := by
  rw [skipBlanks, List.dropWhile_cons_of_neg]
  simpa using h

theorem skipBlanks_eq_nil {text : List Char} (h : ∀ c ∈ text, c ∈ blanks) :
    skipBlanks text = [] := by
  apply List.dropWhile_eq_nil_iff.mpr
  simpa using h

/-- What is behind a string decides how the list goes on. -/
theorem items?_of_string {text : List Char} {q : Quoted} (hstring : d.string? text = some q) :
    d.items? text =
      match skipBlanks q.rest with
      | ',' :: rest => (d.items? (skipBlanks rest)).map (String.ofList q.content :: ·)
      | ']' :: rest => if skipBlanks rest = [] then some [String.ofList q.content] else none
      | _ => none := by
  rw [items?]
  split
  · next hnone =>
    rw [hstring] at hnone
    cases hnone
  · next hsome =>
    obtain rfl := Option.some.inj (hstring.symm.trans hsome)
    split <;> simp_all

theorem items?_comma {text rest : List Char} {q : Quoted} (hstring : d.string? text = some q)
    (hrest : skipBlanks q.rest = ',' :: rest) :
    d.items? text = (d.items? (skipBlanks rest)).map (String.ofList q.content :: ·) := by
  rw [items?_of_string hstring, hrest]
  rfl

theorem items?_last {text rest : List Char} {q : Quoted} (hstring : d.string? text = some q)
    (hrest : skipBlanks q.rest = ']' :: rest) :
    d.items? text =
      if skipBlanks rest = [] then some [String.ofList q.content] else none := by
  rw [items?_of_string hstring, hrest]
  rfl

theorem intercalate_cons_eq_flatMap {α : Type} (sep first : List α) (others : List (List α)) :
    sep.intercalate (first :: others) = first ++ others.flatMap (sep ++ ·) := by
  induction others generalizing first with
  | nil => simp
  | cons second others ih =>
    rw [List.intercalate_cons_cons, ih second, List.flatMap_cons]
    simp

/-- What is true of the marks of a list and of the characters of its items is
true of all of its characters. -/
theorem forall_mem_bracketed {P : Char → Prop} (hmarks : ∀ c ∈ ['[', ',', ' ', ']'], P c)
    {write : String → String} (hwrite : ∀ s, ∀ c ∈ (write s).toList, P c)
    (items : List String) :
    ∀ c ∈ (bracketed write items).toList, P c := by
  have hitems : ∀ c ∈ (", ".intercalate (items.map write)).toList, P c := by
    intro c hc
    cases items with
    | nil => simp at hc
    | cons first others =>
      simp only [List.map_cons, String.toList_intercalate, intercalate_cons_eq_flatMap,
        List.mem_append, List.mem_flatMap] at hc
      rcases hc with hfirst | ⟨text, htext, hseparator | hother⟩
      · exact hwrite first c hfirst
      · have hmark : c ∈ [',', ' '] := hseparator
        exact hmarks c (by grind)
      · simp only [List.map_map, List.mem_map, Function.comp_apply] at htext
        obtain ⟨s, -, rfl⟩ := htext
        exact hwrite s c hother
  intro c hc
  simp only [bracketed, String.toList_append, List.mem_append] at hc
  rcases hc with (hopening | hitem) | hclosing
  · have hmark : c ∈ ['['] := hopening
    exact hmarks c (by grind)
  · exact hitems c hitem
  · have hmark : c ∈ [']'] := hclosing
    exact hmarks c (by grind)

section

variable {write : String → String} (h : d.ReadsString write)
include h

/-- Where a string is written there are no blanks to skip, and no list ends. -/
theorem ReadsString.exists_quote (s : String) (rest : List Char) :
    ∃ quote more, (write s).toList ++ rest = quote :: more ∧ quote ∉ blanks ∧ quote ≠ ']' := by
  have hstring := h s rest
  cases htext : (write s).toList ++ rest with
  | nil =>
    rw [htext] at hstring
    cases hstring
  | cons quote more =>
    rw [htext, string?] at hstring
    split at hstring
    · next hquote =>
      exact ⟨quote, more, rfl, d.quote_not_blank quote hquote, d.quote_ne_bracket quote hquote⟩
    · cases hstring

theorem ReadsString.skipBlanks_write (s : String) (rest : List Char) :
    skipBlanks ((write s).toList ++ rest) = (write s).toList ++ rest := by
  obtain ⟨quote, more, htext, hblank, -⟩ := h.exists_quote s rest
  rw [htext, skipBlanks_of_not_mem hblank]

/-- Items with a comma and a space before each but the first are read to the end
of the list. -/
theorem ReadsString.items?_flatMap {trail : List Char} (htrail : ∀ c ∈ trail, c ∈ blanks)
    (first : String) (others : List String) :
    d.items? ((write first).toList ++
      (others.flatMap (fun s => [',', ' '] ++ (write s).toList) ++ ']' :: trail)) =
        some (first :: others) := by
  induction others generalizing first with
  | nil =>
    have hbracket : skipBlanks (']' :: trail) = ']' :: trail :=
      skipBlanks_of_not_mem (by decide) trail
    rw [List.flatMap_nil, List.nil_append, items?_last (h first _) hbracket,
      String.ofList_toList, if_pos (skipBlanks_eq_nil htrail)]
  | cons second others ih =>
    have hcomma (rest : List Char) : skipBlanks (',' :: rest) = ',' :: rest :=
      skipBlanks_of_not_mem (by decide) rest
    have hspace (rest : List Char) :
        skipBlanks (' ' :: ((write second).toList ++ rest)) = (write second).toList ++ rest :=
      h.skipBlanks_write second rest
    rw [List.flatMap_cons, List.append_assoc, List.append_assoc, List.cons_append,
      List.cons_append, List.nil_append, items?_comma (h first _) (hcomma _), hspace, ih second,
      String.ofList_toList]
    rfl

/-- A list is read back with nothing but blanks behind it. -/
theorem ReadsString.read?_bracketed_append (items : List String) {trail : String}
    (htrail : ∀ c ∈ trail.toList, c ∈ blanks) :
    d.read? (bracketed write items ++ trail) = some items := by
  have hopening (rest : List Char) : skipBlanks ('[' :: rest) = '[' :: rest :=
    skipBlanks_of_not_mem (by decide) rest
  cases items with
  | nil =>
    have hclosing : skipBlanks (']' :: trail.toList) = ']' :: trail.toList :=
      skipBlanks_of_not_mem (by decide) _
    simp [bracketed, read?, hopening, hclosing, skipBlanks_eq_nil htrail]
  | cons first others =>
    have htext : (bracketed write (first :: others) ++ trail).toList =
        '[' :: ((write first).toList ++
          (others.flatMap (fun s => [',', ' '] ++ (write s).toList) ++ ']' :: trail.toList)) := by
      simp [bracketed, String.toList_intercalate, intercalate_cons_eq_flatMap, List.flatMap_map]
    have hitems := h.items?_flatMap htrail first others
    generalize others.flatMap (fun s => [',', ' '] ++ (write s).toList) ++ ']' :: trail.toList =
      rest at htext hitems
    obtain ⟨quote, more, hfirst, hblank, hbracket⟩ := h.exists_quote first rest
    rw [hfirst] at htext hitems
    simp only [read?, htext, hopening, skipBlanks_of_not_mem hblank]
    split
    · next heq =>
      exact absurd (List.cons.inj heq).1 hbracket
    · exact hitems

theorem ReadsString.read?_bracketed (items : List String) :
    d.read? (bracketed write items) = some items := by
  have hread : d.read? (bracketed write items ++ "") = some items :=
    h.read?_bracketed_append items (by simp)
  rwa [String.append_empty] at hread

theorem ReadsString.bracketed_injective : Function.Injective (bracketed write) := by
  intro items items' hlists
  have hread := h.read?_bracketed items
  rw [hlists, h.read?_bracketed items'] at hread
  exact (Option.some.inj hread).symm

end

end Dialect

end LineTokens
