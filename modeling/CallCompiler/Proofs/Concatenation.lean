import CallCompiler.Proofs.Layout
import CallCompiler.Proofs.Lines
import CallCompiler.Proofs.Prefixes
import CallCompiler.Proofs.QuoteParity

/-!
Programs one after the other. With blanks between two texts, each stage does to the whole what it does to
the parts: the tokens, the elements and the lines are those of the first text and then those of the second,
and a fault of the second text stands that much further on.
-/
namespace CallCompiler

/-- The fault, when so many characters and so many tokens stand before the text that it is in. -/
def Fault.shift (characters tokens : Nat) : Fault → Fault
  | .unrecognized character position remark =>
    .unrecognized character (characters + position) remark
  | .unterminated position => .unterminated (characters + position)
  | .unexpected token position => .unexpected token (tokens + position)
  | f => f

namespace Token

theorem shift_faultAt (n m : Nat) (c : Char) (p : Nat) :
    (faultAt c p).shift n m = faultAt c (n+p) := by
  unfold faultAt
  split <;> simp [Fault.shift]

theorem lexFrom_error_shift {cs : List Char} {f : Fault}
    (h : lexFrom 0 (.outside .none) cs = .error f) (n m : Nat) :
    lexFrom n (.outside .none) cs = .error (f.shift n m) := by
  obtain ⟨p, c, hp, hc, rfl⟩ := ((lexFrom_verdict cs 0).error_iff f).mp h
  rw [Nat.zero_add, shift_faultAt]
  exact ((lexFrom_verdict cs n).error_iff _).mpr ⟨p, c, hp, hc, rfl⟩

end Token

namespace Source
open Progress

def Progress.after (s : Progress) (done : List Node) : Progress := { s with done := s.done ++ done }

theorem Progress.push_after (s : Progress) (node : Node) (done : List Node) :
    (s.after done).push node = (s.push node).after done := by
  obtain ⟨frames, own, naming⟩ := s
  cases frames <;> rfl

theorem Progress.step?_after (s : Progress) (t : Token) (done : List Node) :
    (s.after done).step? t = (s.step? t).map (·.after done) := by
  have hclose : (s.after done).close? = s.close?.map (·.after done) := by
    obtain ⟨frames, own, naming⟩ := s
    cases frames with
    | nil => rfl
    | cons frame frames => exact congrArg some (push_after ⟨frames, own, naming⟩ _ done)
  have hnaming : (s.after done).naming = s.naming := rfl
  unfold step?
  rw [hnaming, hclose]
  -- nothing that a token does looks at the elements, and only a literal adds one
  split_ifs
  · rfl
  · rfl
  · exact congrArg some (push_after s _ done)
  · exact congrArg some (push_after s _ done)
  · rfl
  · rfl
  · rfl

theorem readProgram_after {s : Progress} {ts rest : List Token} {token : Option Token}
    (h : readProgram s ts = .stuck token rest) (done : List Node) :
    readProgram (s.after done) ts = .stuck token rest := by
  induction ts generalizing s with
  | nil =>
    have hafter : (s.after done).atRest = s.atRest := rfl
    cases hs : s.atRest with
    | true => simp [readProgram, hs] at h
    | false => simpa [readProgram, hafter, hs] using h
  | cons t ts ih =>
    cases hstep : s.step? t with
    | none => simpa [readProgram, step?_after, hstep] using h
    | some next =>
      have hnext : readProgram next ts = .stuck token rest := by
        simpa [readProgram, hstep] using h
      simpa [readProgram, step?_after, hstep] using ih hnext

theorem faultIndex_append {s : Progress} {us rest : List Token} {token : Option Token}
    (h : readProgram s us = .stuck token rest) (ts : List Token) :
    faultIndex (ts ++ us).length token rest = ts.length + faultIndex us.length token rest := by
  obtain ⟨before, last, -, ⟨rfl, rfl, rfl, -⟩ | ⟨t, rfl, rfl, -⟩⟩ := readProgram_stuck_cases h
  · simp [faultIndex]
  · rw [← List.append_assoc, faultIndex_before, faultIndex_before, List.length_append]

theorem parse_append_error {ts us : List Token} {body : List Node} {f : Fault}
    (ht : Expressions ts body) (h : parse us = .error f) (n : Nat) :
    parse (ts ++ us) = .error (f.shift n ts.length) := by
  have hrun : start.run? ts = some (start.after body.reverse) := by
    rw [run?_expressions ht rfl, start, pushAll_done, List.append_nil]
    rfl
  obtain ⟨token, rest, hread, rfl⟩ := parse_eq_error_iff.mp h
  have hall : readProgram .start (ts ++ us) = .stuck token rest := by
    rw [readProgram_append hrun, readProgram_after hread]
  refine parse_eq_error_iff.mpr ⟨token, rest, hall, ?_⟩
  rw [faultIndex_append hread, Fault.shift, Int.natCast_add]

theorem texts_ne_empty {ts : List Token} {nodes : List Node} (h : Expressions ts nodes)
    (hw : ∀ t ∈ ts, t.WellFormed) : ∀ text ∈ Node.textsAll false nodes, text ≠ "" := by
  induction h using Expressions.sequence with
  | nil => simp [Node.textsAll]
  | literal t node ts nodes hl _ ih =>
    have hrest := ih fun u hu => hw u (List.mem_cons_of_mem t hu)
    have ht := hw t (by simp)
    cases hl with
    | number text =>
      have hne : text ≠ "" := ht.1
      simpa [Node.textsAll, Node.texts, hne] using hrest
    | string text => simpa [Node.textsAll, Node.texts] using hrest
  | call name us params ts nodes _ _ _ _ iht =>
    have hrest := iht fun u hu => hw u (by simp [hu])
    simpa [Node.textsAll, Node.texts] using hrest

end Source

namespace Text

theorem join_append_of_ne_empty (separator : String) {texts more : List String}
    (ht : ∀ s ∈ texts, s ≠ "") (hm : ∀ s ∈ more, s ≠ "") :
    join separator (texts ++ more) =
      if join separator texts = "" then join separator more
      else if join separator more = "" then join separator texts
      else join separator texts ++ separator ++ join separator more := by
  by_cases h1 : texts = []
  · simp [h1]
  · by_cases h2 : more = []
    · simp [h2, join_eq_empty_iff ht, h1]
    · rw [if_neg (mt (join_eq_empty_iff ht).mp h1), if_neg (mt (join_eq_empty_iff hm).mp h2),
        join_append separator h1 h2]

end Text

open Source Token

/-- A text after a program and blanks is compiled as on its own: its lines come after those of the program,
and its faults are moved by what stands before it. -/
theorem compile_after_program {first blanks out : String} (h : compile first = .ok out)
    (hne : blanks ≠ "") (hb : ∀ c ∈ blanks.toList, Text.isBlank c = true) (second : String) :
    ∃ tokens, lex first = .ok tokens ∧
      compile (first ++ blanks ++ second) =
        match compile second with
        | .ok more =>
          .ok (if out = "" then more else if more = "" then out else out ++ "\n" ++ more)
        | .error f => .error (f.shift (first.length + blanks.length) tokens.length) := by
  obtain ⟨tokens, body, hl, hx, rfl⟩ := compile_eq_ok_iff.mp h
  have hlex := lex_append_blanks hl hne hb second
  refine ⟨tokens, hl, ?_⟩
  cases hc : compile second with
  | ok more =>
    obtain ⟨tokens', body', hl', hx', rfl⟩ := compile_eq_ok_iff.mp hc
    rw [lexFrom_shift hl', prepend_ok] at hlex
    refine compile_eq_ok_iff.mpr ⟨_, _, hlex, hx.append hx', ?_⟩
    have ht := texts_ne_empty hx (wellFormed_of_lex hl)
    have ht' := texts_ne_empty hx' (wellFormed_of_lex hl')
    rw [Node.textsAll_append, Text.join_append_of_ne_empty "\n" ht ht']
  | error f =>
    refine compile_eq_error_iff.mpr ?_
    obtain hl' | ⟨tokens', hl', hp⟩ := compile_eq_error_iff.mp hc
    · left
      rw [hlex, lexFrom_error_shift hl', prepend_error]
    · right
      rw [lexFrom_shift hl', prepend_ok] at hlex
      exact ⟨_, hlex, parse_append_error hx hp _⟩

/-- After four tokens in five characters and a line break: a number, a stray parenthesis, and a quote. -/
theorem compile_after_program_call :
    compile "(f 1)" = .ok "f(1);" ∧
    (compile "2" = .ok "2" ∧ compile ("(f 1)" ++ "\n" ++ "2") = .ok "f(1);\n2") ∧
    (compile "2 )" = .error (.unexpected (some closeParen) 1) ∧
      compile ("(f 1)" ++ "\n" ++ "2 )") = .error (.unexpected (some closeParen) 5)) ∧
    (compile "2 \"" = .error (.unterminated 2) ∧
      compile ("(f 1)" ++ "\n" ++ "2 \"") = .error (.unterminated 8)) := by
  have h : compile "(f 1)" = .ok "f(1);" := by decide +kernel
  have hlex : lex "(f 1)" = .ok [openParen, ⟨.name, "f"⟩, ⟨.number, "1"⟩, closeParen] := by
    decide +kernel
  have hnumber : compile "2" = .ok "2" := by decide +kernel
  have hparen : compile "2 )" = .error (.unexpected (some closeParen) 1) := by decide +kernel
  have hquote : compile "2 \"" = .error (.unterminated 2) := by decide +kernel
  have hblank : ∀ c ∈ "\n".toList, Text.isBlank c = true := by simp [Text.isBlank]
  have hafter := compile_after_program h (by decide) hblank
  refine ⟨h, ⟨hnumber, ?_⟩, ⟨hparen, ?_⟩, ⟨hquote, ?_⟩⟩
  · obtain ⟨tokens, hl, hc⟩ := hafter "2"
    obtain rfl := Except.ok.inj (hl.symm.trans hlex)
    rw [hc, hnumber]
    decide +kernel
  · obtain ⟨tokens, hl, hc⟩ := hafter "2 )"
    obtain rfl := Except.ok.inj (hl.symm.trans hlex)
    rw [hc, hparen]
    decide +kernel
  · obtain ⟨tokens, hl, hc⟩ := hafter "2 \""
    obtain rfl := Except.ok.inj (hl.symm.trans hlex)
    rw [hc, hquote]
    decide +kernel

end CallCompiler
