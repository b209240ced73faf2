import LineTokens.Proofs.Scanning
import LineTokens.Proofs.SplitArguments
import LineTokens.Proofs.Chunks

/-!
The line of a split. Every line can be given behind a separator, however it is
spelled, and is split as it stands. Otherwise the line is taken from standard
input. Of a text it is the first line, and splitting it is splitting the same
line given as an argument. Of other bytes it is the first line as well, but
invalid bytes behind it keep it from being read if they are in the same chunk.
-/

namespace LineTokens

variable {console : Console}

theorem runCommand_of_split {arguments : List String} {line? : Option String} {format : Format}
    (h : Action.ofArguments arguments = .ok (.split line? format)) (input : StandardInput) :
    runCommand console arguments input = split console line? format input := by
  rw [runCommand, h]
  rfl

/-! ### Given lines -/

/-- A line is reported with its tokens, or refused with its own text. -/
theorem splitLine_eq (format : Format) (line : String) :
    splitLine console format line =
      match tokenize line with
      | .ok tokens => ⟨report console format line tokens, "", .exit 0⟩
      | .error r =>
        ⟨"", console.print ("Error: " ++ r.fault.message ++ ": (" ++ line ++ ")"), .exit 1⟩ := by
  unfold splitLine
  cases htokens : tokenize line with
  | ok tokens => rfl
  | error r =>
    have hline : r.line = line := (tokenize_eq_error_iff.mp htokens).2
    simp only [Rejection.report, hline]
    rfl

theorem guarded_splitLine (format : Format) (line : String) :
    (splitLine console format line).guarded = splitLine console format line := by
  rw [splitLine_eq]
  cases tokenize line <;> rfl

/-- Any line can be given to a split behind a separator, in any format, and is
split as it stands, whatever the console makes of the report. Standard input has
no say in the outcome. -/
theorem given_line_is_split (console : Console) (format : Format) (line : String)
    (input : StandardInput) :
    let arguments := ["split", "-f", format.name, "--", line]
    Action.ofArguments arguments = .ok (.split (some line) format) ∧
      runCommand console arguments input = runProgram console arguments input ∧
      runProgram console arguments input =
        match tokenize line with
        | .ok tokens => ⟨report console format line tokens, "", .exit 0⟩
        | .error r =>
          ⟨"", console.print ("Error: " ++ r.fault.message ++ ": (" ++ line ++ ")"),
            .exit 1⟩ := by
  intro arguments
  have haction : Action.ofArguments arguments = .ok (.split (some line) format) :=
    action_of_given_line format line
  have hcommand : runCommand console arguments input = splitLine console format line :=
    runCommand_of_split haction input
  have hprogram : runProgram console arguments input = splitLine console format line := by
    rw [runProgram, hcommand, guarded_splitLine]
  refine ⟨haction, hcommand.trans hprogram.symm, ?_⟩
  rw [hprogram, splitLine_eq]

example : runProgram .plain ["split", "-f", "lines", "--", "--"] (.failing (.broken "gone")) =
    ⟨"--\n", "", .exit 0⟩ := by
  decide +kernel

/-! ### Texts -/

theorem split_utf8Bytes {line : String} (hline : '\n' ∉ line.toList) (format : Format)
    {text : String} (htext : text = line ∨ ∃ rest, text = line ++ "\n" ++ rest) :
    split console none format (.bytes (utf8Bytes text)) = splitLine console format line := by
  have hpiece : pieceAt '\n' text.toList 0 = line.toList := by
    rcases htext with rfl | ⟨rest, rfl⟩
    · exact pieceAt_zero_of_not_mem hline
    · have hlist : (line ++ "\n" ++ rest).toList = line.toList ++ '\n' :: rest.toList := by
        simp
      rw [hlist]
      exact pieceAt_zero_append_mark hline _
  unfold split
  rw [StandardInput.readLine_bytes_utf8Bytes, hpiece, String.ofList_toList]

/-- A split has the same outcome for a line on standard input, alone or before
a newline and any text, as for the same line given behind a separator. -/
theorem stdin_agrees_with_argument (console : Console) {line : String}
    (hline : '\n' ∉ line.toList) (format : Format) {text : String}
    (htext : text = line ∨ ∃ rest, text = line ++ "\n" ++ rest) (input : StandardInput) :
    let read := ["split", "-f", format.name]
    let given := ["split", "-f", format.name, "--", line]
    runCommand console read (.bytes (utf8Bytes text)) = runCommand console given input ∧
      runProgram console read (.bytes (utf8Bytes text)) = runProgram console given input := by
  intro read given
  have hcommand :
      runCommand console read (.bytes (utf8Bytes text)) = runCommand console given input := by
    rw [runCommand_of_split (action_of_no_line format),
      runCommand_of_split (action_of_given_line format line), split_utf8Bytes hline format htext]
    rfl
  exact ⟨hcommand, congrArg Outcome.guarded hcommand⟩

/-- A line like a flag, with a byte order mark behind it and a carriage return
at its end. -/
theorem stdin_agrees_with_dashed_argument :
    '\n' ∉ "-h\uFEFF \"\r".toList ∧
      runCommand .plain ["split", "-f", "json"]
          (.bytes (utf8Bytes "-h\uFEFF \"\r\n\u00e9")) =
        runCommand .plain ["split", "-f", "json", "--", "-h\uFEFF \"\r"]
          (.failing (.broken "gone")) := by
  have hline : '\n' ∉ "-h\uFEFF \"\r".toList := by decide
  have htext : ∃ rest, "-h\uFEFF \"\r\n\u00e9" = "-h\uFEFF \"\r" ++ "\n" ++ rest :=
    ⟨"\u00e9", by decide⟩
  exact ⟨hline, (stdin_agrees_with_argument .plain hline .json (.inr htext) _).1⟩

/-! ### Bytes behind the first line -/

/-- The first invalid bytes of UTF-8 data, where bytes that may become a
character do not count. -/
def invalid? (bytes : List UInt8) : Option DecodeError :=
  match (Encoding.utf8.scan 0 bytes).ending with
  | .invalid e => some e
  | .complete | .incomplete _ => none

/-- The line that ends at a newline is read unless there are invalid bytes in it
or behind it in the same chunk. The error of those behind it is counted from the
start of the chunk. -/
theorem exists_readLine_newline (first : List UInt8) :
    ∃ line, ∀ after others,
      (StandardInput.chunks ((first ++ 0x0a :: after) :: others)).readLine =
        match invalid? (first ++ [0x0a]), invalid? after with
        | some e, _ => .error (.undecodable e)
        | none, some e => .error (.undecodable (e.shift (first.length + 1)))
        | none, none => .ok line := by
  obtain ⟨s, hsettled, hscan⟩ := exists_scan_newline first 0
  refine ⟨String.ofList (dropNewline (cutAfter '\n' s.text).line), fun after others => ?_⟩
  have hchunk : first ++ 0x0a :: after ≠ [] := by simp
  have hafter : Encoding.utf8.scan (0 + first.length + 1) after =
      (Encoding.utf8.scan 0 after).shift (first.length + 1) := by
    rw [← Encoding.scan_shift, Nat.zero_add]
  rw [StandardInput.readLine, StandardInput.readFrom_cons hchunk, List.nil_append,
    Encoding.decodePart, hscan, hafter, invalid?, invalid?, hscan [], Encoding.scan]
  generalize Encoding.utf8.scan 0 after = t
  obtain ⟨text, ending⟩ := t
  rcases hsettled with ⟨hcomplete, hnewline⟩ | ⟨e, hinvalid⟩
  · -- The newline is among the characters, so bytes held back do no harm.
    have hmem : '\n' ∈ s.text ++ text := List.mem_append_left text hnewline
    have hline := line_cutAfter_append_of_mem hnewline text
    cases ending <;>
      simp [Scan.followedBy, Scan.shift, Scan.Ending.shift, hcomplete, hmem, hline]
  · simp [Scan.followedBy, hinvalid]

theorem bytes_of_length_le {content : List UInt8} (hcontent : content ≠ [])
    (hlength : content.length ≤ chunkSize) : StandardInput.bytes content = .chunks [content] := by
  rw [StandardInput.bytes, StandardInput.chunksOf_of_length_le hcontent hlength]

theorem splitLine_ne_failed (format : Format) (line : String) (failure : ReadFailure) :
    splitLine console format line ≠ ⟨"", "", .failed failure⟩ := by
  intro h
  have hending := congrArg Outcome.ending h
  unfold splitLine at hending
  split at hending
  · cases hending
  · cases hending

/-- Two inputs of one chunk that agree up to a newline lead a split to the same
outcome exactly if invalid bytes stand before it, or the first invalid bytes
behind it, if any, are the same ones in the same place. -/
theorem split_agrees_iff_invalid_agree (console : Console) {arguments : List String}
    {format : Format} (harguments : Action.ofArguments arguments = .ok (.split none format))
    (first after after' : List UInt8) (hlength : (first ++ 0x0a :: after).length ≤ chunkSize)
    (hlength' : (first ++ 0x0a :: after').length ≤ chunkSize) :
    runCommand console arguments (.bytes (first ++ 0x0a :: after)) =
        runCommand console arguments (.bytes (first ++ 0x0a :: after')) ↔
      invalid? (first ++ [0x0a]) ≠ none ∨ invalid? after = invalid? after' := by
  obtain ⟨line, hread⟩ := exists_readLine_newline first
  rw [runCommand_of_split harguments, runCommand_of_split harguments,
    bytes_of_length_le (by simp) hlength, bytes_of_length_le (by simp) hlength']
  unfold split
  rw [hread after, hread after']
  cases invalid? (first ++ [0x0a]) with
  | some e => simp
  | none =>
    cases invalid? after with
    | none =>
      cases invalid? after' with
      | none => simp
      | some e' => simp [splitLine_ne_failed]
    | some e =>
      cases invalid? after' with
      | none => simp [(splitLine_ne_failed format line _).symm]
      | some e' =>
        simp only [Outcome.mk.injEq, true_and, Ending.failed.injEq,
          ReadFailure.undecodable.injEq, ne_eq, not_true_eq_false, false_or, Option.some.injEq]
        constructor
        · exact DecodeError.shift_injective
        · rintro rfl
          rfl

/-- A byte that may begin a character does no harm behind the line. -/
theorem split_agrees_before_incomplete :
    Action.ofArguments ["split", "-fjson"] = .ok (.split none .json) ∧
      [0x61, 0x0a, 0xc3].length ≤ chunkSize ∧ [0x61, 0x0a, 0x62].length ≤ chunkSize ∧
      runCommand .plain ["split", "-fjson"] (.bytes [0x61, 0x0a, 0xc3]) =
        runCommand .plain ["split", "-fjson"] (.bytes [0x61, 0x0a, 0x62]) := by
  have harguments : Action.ofArguments ["split", "-fjson"] = .ok (.split none .json) := by
    decide +kernel
  have hlength : [0x61, 0x0a, 0xc3].length ≤ chunkSize := by decide
  have hlength' : [0x61, 0x0a, 0x62].length ≤ chunkSize := by decide
  have hinvalid : invalid? [0xc3] = invalid? [0x62] := by decide +kernel
  have hagree :=
    split_agrees_iff_invalid_agree .plain harguments [0x61] [0xc3] [0x62] hlength hlength'
  exact ⟨harguments, hlength, hlength', hagree.mpr (.inr hinvalid)⟩

/-- A byte behind the first line can keep it from being split. -/
theorem split_refuses_behind_first_line :
    runCommand .plain ["split"] (.bytes [0x61, 0x0a]) =
        .success "INPUT:  (a)\nRESULT: ['a']\n" ∧
      runCommand .plain ["split"] (.bytes [0x61, 0x0a, 0xff]) =
        ⟨"", "", .failed (.undecodable ⟨"utf-8", "invalid start byte", 2, [0xff]⟩)⟩ := by
  constructor
  · decide +kernel
  · decide +kernel

end LineTokens
