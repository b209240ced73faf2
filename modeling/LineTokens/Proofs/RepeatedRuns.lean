import LineTokens.Proofs.Continuation

/-!
One scanner run again and again. A run that succeeds leaves a fresh scan behind
its tokens. A refused run leaves the scan inside quotes or right after a
backslash, where the next run starts: quotes change sides, and the first
character can be escaped. The second of two such runs can succeed, and then the
runs go on in pairs.
-/

namespace LineTokens

/-! ### Refused lines, once and twice -/

section

variable {line : String} {r : Rejection}

/-- A refused line has an open quote, or is nothing but backslashes, or ends in
an odd run of them behind another character. -/
theorem refused_cases (h : tokenize line = .error r) :
    (r.fault = .unmatchedQuote ∧ ¬ Dangling line.toList ∧ OpenQuote line.toList) ∨
    (r.fault = .incompleteEscape ∧ ∃ n, Odd n ∧ line.toList = List.replicate n '\\') ∨
    (r.fault = .incompleteEscape ∧ Dangling line.toList ∧ ∃ c ∈ line.toList, c ≠ '\\') := by
  by_cases hdangling : Dangling line.toList
  · have hescape := (tokenize_eq_incompleteEscape_iff line).mpr hdangling
    have hr : r = ⟨.incompleteEscape, line⟩ := by
      rw [h] at hescape
      exact Except.error.inj hescape
    right
    by_cases hother : ∃ c ∈ line.toList, c ≠ '\\'
    · exact .inr ⟨by rw [hr], hdangling, hother⟩
    · have hall : line.toList = List.replicate line.toList.length '\\' := by
        apply List.eq_replicate_length.mpr
        simpa using hother
      refine .inl ⟨by rw [hr], line.toList.length, ?_, hall⟩
      rw [hall, dangling_replicate_iff] at hdangling
      exact hdangling
  · have hopen : OpenQuote line.toList := by
      by_contra hclosed
      obtain ⟨ts, hok⟩ := (exists_tokenize_eq_ok_iff line).mpr ⟨hdangling, hclosed⟩
      rw [h] at hok
      cases hok
    have hquote := (tokenize_eq_unmatchedQuote_iff line).mpr ⟨hdangling, hopen⟩
    rw [h] at hquote
    exact .inl ⟨by rw [Except.error.inj hquote], hdangling, hopen⟩

theorem tokenize_twice_of_openQuote (hdangling : ¬ Dangling line.toList)
    (hopen : OpenQuote line.toList) : ∃ us, tokenize (line ++ line) = .ok us := by
  rw [exists_tokenize_eq_ok_iff, String.toList_append, dangling_append hdangling,
    openQuote_append hdangling]
  exact ⟨hdangling, by simp [hopen]⟩

/-- Each backslash escapes the next one, so that two odd runs leave none over. -/
theorem tokenize_twice_of_backslashes {n : Nat} (h : line.toList = List.replicate n '\\') :
    ∃ us, tokenize (line ++ line) = .ok us := by
  rw [exists_tokenize_eq_ok_iff, String.toList_append, h, List.replicate_append_replicate,
    dangling_replicate_iff]
  constructor
  · rw [Nat.not_odd_iff_even]
    exact ⟨n, rfl⟩
  · exact not_openQuote_of_not_mem (by simp)

theorem not_tokenize_twice_of_mem {c : Char} (hdangling : Dangling line.toList)
    (hmem : c ∈ line.toList) (hc : c ≠ '\\') : ¬ ∃ us, tokenize (line ++ line) = .ok us := by
  rw [exists_tokenize_eq_ok_iff, String.toList_append, dangling_append_of_mem hmem hc]
  exact fun h => h.1 hdangling

theorem tokenize_twice_iff (h : tokenize line = .error r) :
    (∃ us, tokenize (line ++ line) = .ok us) ↔
      r.fault = .unmatchedQuote ∨ ∃ n, Odd n ∧ line.toList = List.replicate n '\\' := by
  rcases refused_cases h with ⟨hfault, hdangling, hopen⟩ | ⟨hfault, n, hodd, hall⟩ |
    ⟨hfault, hdangling, c, hmem, hc⟩
  · exact iff_of_true (tokenize_twice_of_openQuote hdangling hopen) (.inl hfault)
  · exact iff_of_true (tokenize_twice_of_backslashes hall) (.inr ⟨n, hodd, hall⟩)
  · apply iff_of_false (not_tokenize_twice_of_mem hdangling hmem hc)
    rintro (hquote | ⟨n, -, hall⟩)
    · rw [hfault] at hquote
      cases hquote
    · rw [hall] at hmem
      exact hc (List.eq_of_mem_replicate hmem)

end

namespace Scanner

variable {line : String} {ts us : List String} {r : Rejection}

/-! ### One run and the next -/

theorem run_start_of_ok (h : tokenize line = .ok ts) :
    (start line).run = ((start line).behind ts, .ok ts) :=
  finish_feedChars_start_of_ok line h

theorem run_start_of_error (h : tokenize line = .error r) :
    (start line).run = ((start line).feedChars line.toList, .error r) := by
  have hstate : (start line).run.1 = (start line).feedChars line.toList :=
    finish_state_of_error h
  rw [← hstate, ← h]
  rfl

theorem run_feedChars_start (line : String) (l : List Char) :
    ((start line).feedChars l).run = ((start line).feedChars (l ++ line.toList)).finish := by
  rw [run, line_feedChars, feedChars_append]
  rfl

/-- A run where a refused one stopped has read the line twice. -/
theorem run_again_of_ok (h : tokenize line = .error r) (htwice : tokenize (line ++ line) = .ok us) :
    (start line).run.1.run = ((start line).behind us, .ok us) := by
  rw [run_start_of_error h, run_feedChars_start, ← String.toList_append]
  exact finish_feedChars_start_of_ok line htwice

/-! ### Rounds of runs -/

private theorem flatten_replicate_succ {α : Type} (n : Nat) (l : List α) :
    (List.replicate (n + 1) l).flatten = (List.replicate n l).flatten ++ l := by
  rw [List.replicate_succ', List.flatten_append, List.flatten_singleton]

theorem after_append (s : Scanner) (steps more : List Step) :
    s.after (steps ++ more) = (s.after steps).after more :=
  List.foldl_append

/-- Steps that leave a fresh scan behind tokens do so again and again. -/
theorem after_rounds {round : List Step}
    (h : (start line).after round = (start line).behind us) (n : Nat) :
    (start line).after (List.replicate n round).flatten =
      (start line).behind (List.replicate n us).flatten := by
  induction n with
  | zero => exact behind_nil.symm
  | succ n ih =>
    rw [flatten_replicate_succ, flatten_replicate_succ, after_append, ih, after_behind, h,
      behind_behind]

theorem after_runs_of_ok (h : tokenize line = .ok ts) (n : Nat) :
    (start line).after (List.replicate n .run) =
      (start line).behind (List.replicate n ts).flatten := by
  have hround : (start line).after [.run] = (start line).behind ts :=
    congrArg Prod.fst (run_start_of_ok h)
  have hrounds := after_rounds hround n
  rwa [List.flatten_replicate_singleton] at hrounds

theorem after_runs_of_twice_ok (h : tokenize line = .error r)
    (htwice : tokenize (line ++ line) = .ok us) (n : Nat) :
    (start line).after (List.replicate (n * 2) .run) =
      (start line).behind (List.replicate n us).flatten := by
  have hround : (start line).after (List.replicate 2 .run) = (start line).behind us :=
    congrArg Prod.fst (run_again_of_ok h htwice)
  have hrounds := after_rounds hround n
  rwa [List.flatten_replicate_replicate] at hrounds

/-- The run behind any number of runs that all succeed. -/
theorem run_after_runs_of_ok (h : tokenize line = .ok ts) (n : Nat) :
    ((start line).after (List.replicate n .run)).run.2 =
      .ok (List.replicate (n + 1) ts).flatten := by
  rw [after_runs_of_ok h, run_behind, run_start_of_ok h, flatten_replicate_succ]
  rfl

/-- The first run of a pair is refused like the very first run. -/
theorem run_after_pairs (h : tokenize line = .error r)
    (htwice : tokenize (line ++ line) = .ok us) (n : Nat) :
    ((start line).after (List.replicate (n * 2) .run)).run.2 = .error r := by
  rw [after_runs_of_twice_ok h htwice, run_behind, run_start_of_error h]
  rfl

/-- The second run of a pair gives the tokens of the double line once more. -/
theorem run_after_pairs_and_run (h : tokenize line = .error r)
    (htwice : tokenize (line ++ line) = .ok us) (n : Nat) :
    ((start line).after (List.replicate (n * 2 + 1) .run)).run.2 =
      .ok (List.replicate (n + 1) us).flatten := by
  have hfirst : (start line).after (List.replicate (n * 2 + 1) .run) =
      (start line).run.1.behind (List.replicate n us).flatten := by
    rw [List.replicate_succ', after_append, after_runs_of_twice_ok h htwice, after_behind]
    rfl
  rw [hfirst, run_behind, run_again_of_ok h htwice, flatten_replicate_succ]
  rfl

/-! ### Runs that are all refused -/

theorem finish_feedChars_start_of_dangling {l : List Char} (h : Dangling l) :
    ((start line).feedChars l).finish =
      ((start line).feedChars l, .error ⟨.incompleteEscape, line⟩) := by
  have hfault : ((start line).feedChars l).mode.fault? = some .incompleteEscape := by
    rw [(parity_feedChars_start line l).fault?_eq, if_pos h]
  unfold finish
  rw [hfault, line_feedChars]
  rfl

variable {c : Char}

theorem run_feedChars_start_of_dangling (h : Dangling line.toList) (hmem : c ∈ line.toList)
    (hc : c ≠ '\\') (l : List Char) :
    ((start line).feedChars l).run =
      ((start line).feedChars (l ++ line.toList), .error ⟨.incompleteEscape, line⟩) := by
  rw [run_feedChars_start]
  apply finish_feedChars_start_of_dangling
  exact (dangling_append_of_mem hmem hc).mpr h

/-- Refused runs leave nothing but what they have read. -/
theorem after_runs_of_dangling (h : Dangling line.toList) (hmem : c ∈ line.toList)
    (hc : c ≠ '\\') (n : Nat) :
    (start line).after (List.replicate n .run) =
      (start line).feedChars (List.replicate n line.toList).flatten := by
  induction n with
  | zero => rfl
  | succ n ih =>
    have hrun := run_feedChars_start_of_dangling h hmem hc (List.replicate n line.toList).flatten
    rw [List.replicate_succ', after_append, ih, flatten_replicate_succ]
    exact congrArg Prod.fst hrun

end Scanner

/-- What the `k`-th run in a row answers. If the line has tokens, they come once
more with every run. If it is refused but the line written twice has tokens, the
runs go in pairs: the first of each is refused like the very first, and the
second gives the tokens of the double line once more. Else every run is refused
for its last backslash. -/
theorem answer_of_repeated_run (line : String) (k : Nat) (hk : 1 ≤ k) :
    let answer := ((Scanner.start line).after (List.replicate (k - 1) .run)).run.2
    (∀ ts, tokenize line = .ok ts → answer = .ok (List.replicate k ts).flatten) ∧
    ∀ r, tokenize line = .error r →
      ((∃ us, tokenize (line ++ line) = .ok us) ↔
        r.fault = .unmatchedQuote ∨ ∃ n, Odd n ∧ line.toList = List.replicate n '\\') ∧
      (∀ us, tokenize (line ++ line) = .ok us →
        (Odd k → answer = .error r) ∧
          (Even k → answer = .ok (List.replicate (k / 2) us).flatten)) ∧
      ((¬ ∃ us, tokenize (line ++ line) = .ok us) →
        answer = .error ⟨.incompleteEscape, line⟩) := by
  intro answer
  obtain ⟨n, rfl⟩ : ∃ n, k = n + 1 := Nat.exists_eq_add_of_le' hk
  have hanswer : answer = ((Scanner.start line).after (List.replicate n .run)).run.2 := rfl
  rw [hanswer]
  refine ⟨?_, ?_⟩
  · intro ts h
    exact Scanner.run_after_runs_of_ok h n
  · intro r h
    refine ⟨tokenize_twice_iff h, ?_, ?_⟩
    · intro us htwice
      constructor
      · rintro ⟨m, hm⟩
        have hn : n = m * 2 := by omega
        rw [hn]
        exact Scanner.run_after_pairs h htwice m
      · rintro ⟨m, hm⟩
        -- This run is the second of its pair, with `m - 1` pairs before.
        obtain ⟨i, rfl⟩ : ∃ i, m = i + 1 := Nat.exists_eq_add_of_le' (by omega)
        have hn : n = i * 2 + 1 := by omega
        have hhalf : (n + 1) / 2 = i + 1 := by omega
        rw [hhalf, hn]
        exact Scanner.run_after_pairs_and_run h htwice i
    · intro hnone
      rcases refused_cases h with ⟨-, hdangling, hopen⟩ | ⟨-, m, -, hall⟩ |
        ⟨-, hdangling, c, hmem, hc⟩
      · exact absurd (tokenize_twice_of_openQuote hdangling hopen) hnone
      · exact absurd (tokenize_twice_of_backslashes hall) hnone
      · rw [Scanner.after_runs_of_dangling hdangling hmem hc,
          Scanner.run_feedChars_start_of_dangling hdangling hmem hc]

/-- Two runs that succeed, the second pair of runs of a line with one quote, and
runs of a line that ends in a backslash. -/
theorem answers_of_repeated_runs :
    let answer (line : String) (k : Nat) :=
      ((Scanner.start line).after (List.replicate (k - 1) .run)).run.2
    (1 ≤ 2 ∧ tokenize "p q" = .ok ["p", "q"] ∧ answer "p q" 2 = .ok ["p", "q", "p", "q"]) ∧
    (1 ≤ 3 ∧ tokenize "a\" b" = .error ⟨.unmatchedQuote, "a\" b"⟩ ∧
      tokenize ("a\" b" ++ "a\" b") = .ok ["a ba", "b"] ∧
      (Odd 3 ∧ answer "a\" b" 3 = .error ⟨.unmatchedQuote, "a\" b"⟩) ∧
      (Even 4 ∧ answer "a\" b" 4 = .ok ["a ba", "b", "a ba", "b"])) ∧
    (tokenize "x\\" = .error ⟨.incompleteEscape, "x\\"⟩ ∧
      (¬ ∃ us, tokenize ("x\\" ++ "x\\") = .ok us) ∧
      answer "x\\" 3 = .error ⟨.incompleteEscape, "x\\"⟩) := by
  intro answer
  have hok : tokenize "p q" = .ok ["p", "q"] := by rfl
  have hquote : tokenize "a\" b" = .error ⟨.unmatchedQuote, "a\" b"⟩ := by rfl
  have htwice : tokenize ("a\" b" ++ "a\" b") = .ok ["a ba", "b"] := by rfl
  have hescape : tokenize "x\\" = .error ⟨.incompleteEscape, "x\\"⟩ := by rfl
  have hnone : ¬ ∃ us, tokenize ("x\\" ++ "x\\") = .ok us := by
    rintro ⟨us, hus⟩
    cases hus
  have htwo := (answer_of_repeated_run "p q" 2 (by decide)).1 _ hok
  have hthree := ((answer_of_repeated_run "a\" b" 3 (by decide)).2 _ hquote).2.1 _ htwice
  have hfour := ((answer_of_repeated_run "a\" b" 4 (by decide)).2 _ hquote).2.1 _ htwice
  have hrefused := ((answer_of_repeated_run "x\\" 3 (by decide)).2 _ hescape).2.2 hnone
  exact ⟨⟨by decide, hok, htwo⟩,
    ⟨by decide, hquote, htwice, ⟨by decide, hthree.1 (by decide)⟩,
      ⟨by decide, hfour.2 (by decide)⟩⟩,
    hescape, hnone, hrefused⟩

end LineTokens
