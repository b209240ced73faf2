import LineTokens.Proofs.Conservation
import LineTokens.Proofs.FirstLine
import LineTokens.Proofs.Outcomes

/-!
Tokens reported on lines of their own. The tokens of a line side by side are the
line with some characters left out, so no token has a newline if the line has
none. Then every newline of the report ends a token, and cutting the report at
its newlines gives the tokens back.
-/

namespace LineTokens

/-! ### Characters of tokens -/

/-- What a scan keeps of a text is the text with some characters left out. -/
theorem Scanner.kept_feedChars_sublist (line : String) (l : List Char) :
    ((start line).feedChars l).kept.toList.Sublist l := by
  induction l using List.reverseRecOn with
  | nil => exact List.nil_sublist []
  | append_singleton l c ih =>
    rw [feedChars_concat, kept_feed, String.toList_append]
    apply ih.append
    split
    · exact List.nil_sublist [c]
    · rw [String.toList_singleton]

theorem join_tokens_sublist {line : String} {tokens : List String}
    (h : tokenize line = .ok tokens) : (String.join tokens).toList.Sublist line.toList := by
  obtain ⟨-, htokens⟩ := tokenize_eq_ok_iff.mp h
  have hkept := Scanner.kept_feedChars_sublist line line.toList
  rw [← Scanner.kept_flush, Scanner.kept, htokens, String.join_append,
    String.toList_append] at hkept
  exact (List.sublist_append_left _ _).trans hkept

/-- Every character of a token is a character of the line. -/
theorem mem_line_of_mem_token {line token : String} {tokens : List String} {c : Char}
    (h : tokenize line = .ok tokens) (htoken : token ∈ tokens) (hc : c ∈ token.toList) :
    c ∈ line.toList := by
  apply (join_tokens_sublist h).subset
  rw [String.toList_join]
  exact List.mem_flatMap.mpr ⟨token, htoken, hc⟩

/-! ### Pieces, each with a mark behind it -/

section

variable {α : Type} [DecidableEq α] {mark : α}

theorem count_flatMap_concat {pieces : List (List α)} (h : ∀ piece ∈ pieces, mark ∉ piece) :
    (pieces.flatMap (· ++ [mark])).count mark = pieces.length := by
  induction pieces with
  | nil => rfl
  | cons piece pieces ih =>
    obtain ⟨hpiece, hpieces⟩ := List.forall_mem_cons.mp h
    rw [List.flatMap_cons, List.count_append, List.count_append, ih hpieces,
      List.count_eq_zero_of_not_mem hpiece, List.count_singleton_self, List.length_cons]
    omega

/-- Cut at the marks, the text is the pieces again, and nothing is behind the
last mark. -/
theorem splitOn_flatMap_concat {pieces : List (List α)} (h : ∀ piece ∈ pieces, mark ∉ piece) :
    (pieces.flatMap (· ++ [mark])).splitOn mark = pieces ++ [[]] := by
  induction pieces with
  | nil => exact List.splitOn_nil mark
  | cons piece pieces ih =>
    obtain ⟨hpiece, hpieces⟩ := List.forall_mem_cons.mp h
    rw [List.flatMap_cons, List.append_assoc, List.singleton_append,
      List.splitOn_append_cons_self_of_not_mem hpiece, ih hpieces, List.cons_append]

end

variable {console : Console}

theorem toList_report_lines (line : String) (tokens : List String) :
    (report console .lines line tokens).toList =
      (tokens.map String.toList).flatMap (· ++ ['\n']) := by
  simp [report, String.toList_join, List.flatMap_map]

theorem report_lines_eq_empty_iff (line : String) (tokens : List String) :
    report console .lines line tokens = "" ↔ tokens = [] := by
  rw [← String.toList_inj, toList_report_lines]
  cases tokens <;> simp

/-! ### The report of a split -/

/-- A line without a newline, such as any line of standard input, is reported
with one newline for each of its tokens. Cut at its newlines, the report is the
tokens as they are, empty ones too, and there is nothing behind the last newline.
Without tokens the report is empty. -/
theorem lines_report_cut_at_newlines (console : Console) {line : String} {tokens : List String}
    (htokens : tokenize line = .ok tokens)
    (hline : '\n' ∉ line.toList ∨ ∃ input : StandardInput, input.readLine = .ok line) :
    let out := report console .lines line tokens
    (∀ line? input, lineOf line? input = .ok line →
      split console line? .lines input = .success out) ∧
    out.toList.count '\n' = tokens.length ∧
    out.toList.splitOn '\n' = tokens.map String.toList ++ [[]] ∧
    (out = "" ↔ tokens = []) := by
  intro out
  have hnewline : '\n' ∉ line.toList := by
    rcases hline with hnewline | ⟨input, hread⟩
    · exact hnewline
    · exact StandardInput.newline_not_mem_of_readLine hread
  have hpieces : ∀ piece ∈ tokens.map String.toList, '\n' ∉ piece := by
    intro piece hpiece hmem
    obtain ⟨token, htoken, rfl⟩ := List.mem_map.mp hpiece
    exact hnewline (mem_line_of_mem_token htokens htoken hmem)
  have hout : out.toList = (tokens.map String.toList).flatMap (· ++ ['\n']) :=
    toList_report_lines line tokens
  refine ⟨fun line? input hlineOf => ?_, ?_, ?_, report_lines_eq_empty_iff line tokens⟩
  · have hsplit : splitLine console .lines line = .success out := by
      rw [splitLine, htokens]
    cases line? with
    | some given =>
      obtain rfl : given = line := Except.ok.inj hlineOf
      exact hsplit
    | none =>
      have hread : input.readLine = .ok line := hlineOf
      rw [split, hread]
      exact hsplit
  · rw [hout, count_flatMap_concat hpieces, List.length_map]
  · rw [hout, splitOn_flatMap_concat hpieces]

/-- A line of standard input with an empty token and one that ends in a carriage
return. -/
theorem lines_report_of_empty_token :
    let line := "\"\" a\r"
    let input := StandardInput.bytes [0x22, 0x22, 0x20, 0x61, 0x0d, 0x0a, 0x62]
    tokenize line = .ok ["", "a\r"] ∧ input.readLine = .ok line ∧
      split .plain none .lines input = .success (report .plain .lines line ["", "a\r"]) ∧
      (report .plain .lines line ["", "a\r"]).toList.splitOn '\n' = [[], ['a', '\r'], []] := by
  intro line input
  have htokens : tokenize line = .ok ["", "a\r"] := by decide +kernel
  have hread : input.readLine = .ok line := by decide +kernel
  obtain ⟨hsplit, -, hcut, -⟩ :=
    lines_report_cut_at_newlines .plain htokens (.inr ⟨input, hread⟩)
  exact ⟨htokens, hread, hsplit none input hread, hcut⟩

end LineTokens
