import CallCompiler.Token.Lexer
import Mathlib.Data.List.TakeWhile
import Mathlib.Tactic.SplitIfs

/-!
How a text is cut into lexemes. Each kind of lexeme has one lemma on what reading it comes to, for any text
that may follow; `lexeme_induction` goes through a text lexeme by lexeme, and `lexFrom_append` reads two
texts one after the other.
-/
namespace CallCompiler.Token

/-- The classes of characters do not overlap, so the order in which they are tried does not matter. -/
theorem role_iff (c : Char) :
    (role c = .paren ↔ c = '(' ∨ c = ')') ∧ (role c = .blank ↔ Text.isBlank c = true) ∧
    (role c = .digit ↔ Text.isDigit c = true) ∧ (role c = .quote ↔ c = '"') ∧
    (role c = .letter ↔ isLetter c = true) := by
  simp only [role, Text.isBlank, Text.isDigit, isLetter, ← Char.toNat_inj, Bool.or_eq_true,
    Bool.and_eq_true, decide_eq_true_eq, beq_iff_eq, Char.reduceToNat]
  generalize c.toNat = n
  refine ⟨?_, ?_, ?_, ?_, ?_⟩ <;> split_ifs <;> simp <;> omega

theorem role_eq_paren_iff {c : Char} : role c = .paren ↔ c = '(' ∨ c = ')' := (role_iff c).1

theorem role_eq_blank_iff {c : Char} : role c = .blank ↔ Text.isBlank c = true := (role_iff c).2.1

theorem role_eq_digit_iff {c : Char} : role c = .digit ↔ Text.isDigit c = true :=
  (role_iff c).2.2.1

theorem role_eq_quote_iff {c : Char} : role c = .quote ↔ c = '"' := (role_iff c).2.2.2.1

theorem role_eq_letter_iff {c : Char} : role c = .letter ↔ isLetter c = true :=
  (role_iff c).2.2.2.2

def prepend (ts : List Token) (r : Except Fault (List Token)) : Except Fault (List Token) :=
  (ts ++ ·) <$> r

@[simp] theorem prepend_ok (ts us : List Token) : prepend ts (.ok us) = .ok (ts ++ us) := rfl

@[simp] theorem prepend_error (ts : List Token) (f : Fault) : prepend ts (.error f) = .error f := rfl

@[simp] theorem prepend_nil (r : Except Fault (List Token)) : prepend [] r = r := by
  cases r <;> rfl

@[simp] theorem prepend_prepend (ts us : List Token) (r : Except Fault (List Token)) :
    prepend ts (prepend us r) = prepend (ts ++ us) r := by
  cases r <;> simp

theorem prepend_eq_ok_iff {ts us : List Token} {r : Except Fault (List Token)} :
    prepend ts r = .ok us ↔ ∃ rest, r = .ok rest ∧ us = ts ++ rest := by
  cases r <;> simp [eq_comm]

def startsWith (p : Char → Bool) : List Char → Bool
  | [] => false
  | c :: _ => p c

theorem startsWith_append {p : Char → Bool} {cs rest : List Char}
    (hc : startsWith p cs = false) (hr : startsWith p rest = false) :
    startsWith p (cs ++ rest) = false := by
  cases cs with
  | nil => exact hr
  | cons c cs => exact hc

theorem startsWith_dropWhile (p : Char → Bool) (cs : List Char) :
    startsWith p (cs.dropWhile p) = false := by
  induction cs with
  | nil => rfl
  | cons c cs ih =>
    cases hc : p c with
    | true => simpa [List.dropWhile_cons, hc] using ih
    | false => simp [hc, startsWith]

/-- Numbers and names are runs: two of them side by side would be read as one. -/
def Kind.isRun (k : Kind) : Prop := k = .number ∨ k = .name

def Kind.member : Kind → Char → Bool
  | .number => Text.isDigit
  | .name => isLetter
  | _ => fun _ => false

theorem role_of_member {k : Kind} {c : Char} (h : k.member c = true) :
    k = .number ∧ role c = .digit ∨ k = .name ∧ role c = .letter := by
  cases k with
  | paren => simp [Kind.member] at h
  | string => simp [Kind.member] at h
  | number => exact .inl ⟨rfl, role_eq_digit_iff.mpr h⟩
  | name => exact .inr ⟨rfl, role_eq_letter_iff.mpr h⟩

theorem Kind.eq_of_member {k l : Kind} {c : Char} (hk : k.member c = true)
    (hl : l.member c = true) : k = l := by
  cases role_of_member hk with
  | inl hd =>
    cases role_of_member hl with
    | inl hd' => rw [hd.1, hd'.1]
    | inr hl' => simp [hd.2] at hl'
  | inr hr =>
    cases role_of_member hl with
    | inl hd' => simp [hr.2] at hd'
    | inr hl' => rw [hr.1, hl'.1]

def Run.ofKind : Kind → List Char → Run
  | .number, text => .digits text
  | .name, text => .letters text
  | _, _ => .none

theorem Run.flush_ofKind {k : Kind} (hk : k.isRun) (text : List Char) :
    (Run.ofKind k text).flush = [⟨k, String.ofList text.reverse⟩] := by
  obtain rfl | rfl := hk <;> rfl

section Lexemes

variable (n : Nat) (rest : List Char)

@[simp] theorem lexFrom_nil : lexFrom n (.outside .none) [] = .ok [] := rfl

theorem lexFrom_outside (run : Run) (c : Char) :
    lexFrom n (.outside run) (c :: rest) =
      match role c with
      | .paren =>
        (run.flush ++ ⟨.paren, String.singleton c⟩ :: ·) <$> lexFrom (n+1) (.outside .none) rest
      | .blank => prepend run.flush (lexFrom (n+1) (.outside .none) rest)
      | .digit => prepend (run.digit c).1 (lexFrom (n+1) (.outside (run.digit c).2) rest)
      | .letter => prepend (run.letter c).1 (lexFrom (n+1) (.outside (run.letter c).2) rest)
      | .quote => prepend run.flush (lexFrom (n+1) (.inside n []) rest)
      | .stray => .error (.unrecognized (String.singleton c) n "") := rfl

theorem lexFrom_inside_cons (start : Nat) (text : List Char) (c : Char) :
    lexFrom n (.inside start text) (c :: rest) =
      if c = '"' then
        prepend [⟨.string, String.ofList text.reverse⟩] (lexFrom (n+1) (.outside .none) rest)
      else lexFrom (n+1) (.inside start (c :: text)) rest := rfl

theorem lexFrom_blank {c : Char} (h : Text.isBlank c = true) :
    lexFrom n (.outside .none) (c :: rest) = lexFrom (n+1) (.outside .none) rest := by
  have hr : role c = .blank := role_eq_blank_iff.mpr h
  rw [lexFrom_outside, hr]
  exact prepend_nil _

theorem lexFrom_blanks {blanks : List Char} (h : ∀ c ∈ blanks, Text.isBlank c = true) :
    lexFrom n (.outside .none) (blanks ++ rest) =
      lexFrom (n + blanks.length) (.outside .none) rest := by
  induction blanks generalizing n with
  | nil => rfl
  | cons c blanks ih =>
    have ht : ∀ d ∈ blanks, Text.isBlank d = true := fun d hd => h d (List.mem_cons_of_mem c hd)
    rw [List.cons_append, lexFrom_blank n _ (h c (by simp)), ih (n+1) ht, List.length_cons,
      Nat.add_assoc, Nat.add_comm 1]

theorem lexFrom_paren {c : Char} (h : c = '(' ∨ c = ')') :
    lexFrom n (.outside .none) (c :: rest) =
      prepend [⟨.paren, String.singleton c⟩] (lexFrom (n+1) (.outside .none) rest) := by
  have hr : role c = .paren := role_eq_paren_iff.mpr h
  rw [lexFrom_outside, hr]
  rfl

theorem lexFrom_stray {c : Char} (h : role c = .stray) :
    lexFrom n (.outside .none) (c :: rest) =
      .error (.unrecognized (String.singleton c) n "") := by
  rw [lexFrom_outside, h]

theorem lexFrom_quote :
    lexFrom n (.outside .none) ('"' :: rest) = lexFrom (n+1) (.inside n []) rest := by
  have hr : role '"' = .quote := by decide
  rw [lexFrom_outside, hr]
  exact prepend_nil _

theorem lexFrom_inside (start : Nat) (text : List Char) {body : List Char} (h : '"' ∉ body) :
    lexFrom n (.inside start text) (body ++ rest) =
      lexFrom (n + body.length) (.inside start (body.reverse ++ text)) rest := by
  induction body generalizing n text with
  | nil => rfl
  | cons c body ih =>
    have hc : c ≠ '"' := by
      intro he
      exact h (by simp [he])
    have hb : '"' ∉ body := fun hm => h (List.mem_cons_of_mem c hm)
    rw [List.cons_append, lexFrom_inside_cons, if_neg hc, ih (n+1) (c :: text) hb]
    simp [Nat.add_comm, Nat.add_left_comm]

theorem lexFrom_string {body : List Char} (h : '"' ∉ body) :
    lexFrom n (.outside .none) ('"' :: (body ++ '"' :: rest)) =
      prepend [⟨.string, String.ofList body⟩]
        (lexFrom (n + (body.length+2)) (.outside .none) rest) := by
  rw [lexFrom_quote, lexFrom_inside _ _ _ _ h, lexFrom_inside_cons, if_pos rfl]
  have hn : n+1+body.length+1 = n+(body.length+2) := by omega
  simp only [List.append_nil, List.reverse_reverse, hn]

theorem lexFrom_unterminated {body : List Char} (h : '"' ∉ body) :
    lexFrom n (.outside .none) ('"' :: body) = .error (.unterminated n) := by
  have hi := lexFrom_inside (n+1) [] n [] h
  rw [List.append_nil] at hi
  rw [lexFrom_quote, hi]
  rfl

theorem lexFrom_member {k : Kind} (hk : k.isRun) {c : Char} (h : k.member c = true) :
    lexFrom n (.outside .none) (c :: rest) = lexFrom (n+1) (.outside (.ofKind k [c])) rest := by
  obtain rfl | rfl := hk
  · have hr : role c = .digit := role_eq_digit_iff.mpr h
    rw [lexFrom_outside, hr]
    exact prepend_nil _
  · have hr : role c = .letter := role_eq_letter_iff.mpr h
    rw [lexFrom_outside, hr]
    exact prepend_nil _

theorem lexFrom_members {k : Kind} (hk : k.isRun) (text : List Char) {cs : List Char}
    (h : ∀ c ∈ cs, k.member c = true) :
    lexFrom n (.outside (.ofKind k text)) (cs ++ rest) =
      lexFrom (n + cs.length) (.outside (.ofKind k (cs.reverse ++ text))) rest := by
  induction cs generalizing n text with
  | nil => rfl
  | cons c cs ih =>
    have hstep : lexFrom n (.outside (.ofKind k text)) (c :: (cs ++ rest)) =
        lexFrom (n+1) (.outside (.ofKind k (c :: text))) (cs ++ rest) := by
      have hc := h c (by simp)
      obtain rfl | rfl := hk
      · rw [lexFrom_outside, role_eq_digit_iff.mpr hc]
        exact prepend_nil _
      · rw [lexFrom_outside, role_eq_letter_iff.mpr hc]
        exact prepend_nil _
    rw [List.cons_append, hstep, ih (n+1) (c :: text) fun d hd => h d (List.mem_cons_of_mem c hd)]
    simp [Nat.add_comm, Nat.add_left_comm]

theorem lexFrom_break (run : Run) {c : Char} (hd : role c ≠ .digit) (hl : role c ≠ .letter) :
    lexFrom n (.outside run) (c :: rest) =
      prepend run.flush (lexFrom n (.outside .none) (c :: rest)) := by
  cases hr : role c with
  | paren => simp [lexFrom_outside, hr, Run.flush, prepend]
  | blank => simp [lexFrom_outside, hr, Run.flush]
  | quote => simp [lexFrom_outside, hr, Run.flush]
  | stray => simp [lexFrom_outside, hr]
  | digit => exact absurd hr hd
  | letter => exact absurd hr hl

theorem lexFrom_run_end {k : Kind} (hk : k.isRun) (text : List Char)
    (h : startsWith k.member rest = false) :
    lexFrom n (.outside (.ofKind k text)) rest =
      prepend [⟨k, String.ofList text.reverse⟩] (lexFrom n (.outside .none) rest) := by
  rw [← Run.flush_ofKind hk text]
  cases rest with
  | nil =>
    rw [lexFrom_nil, prepend_ok, List.append_nil]
    rfl
  | cons c rest =>
    by_cases hd : role c = .digit
    · obtain rfl | rfl := hk
      · simp [startsWith, Kind.member, role_eq_digit_iff.mp hd] at h
      · simp [lexFrom_outside, hd, Run.ofKind, Run.digit]
    · by_cases hl : role c = .letter
      · obtain rfl | rfl := hk
        · simp [lexFrom_outside, hl, Run.ofKind, Run.letter]
        · simp [startsWith, Kind.member, role_eq_letter_iff.mp hl] at h
      · exact lexFrom_break n rest _ hd hl

theorem lexFrom_word {k : Kind} (hk : k.isRun) {cs : List Char} (hne : cs ≠ [])
    (h : ∀ c ∈ cs, k.member c = true) (hr : startsWith k.member rest = false) :
    lexFrom n (.outside .none) (cs ++ rest) =
      prepend [⟨k, String.ofList cs⟩] (lexFrom (n + cs.length) (.outside .none) rest) := by
  cases cs with
  | nil => exact absurd rfl hne
  | cons c cs =>
    have ht : ∀ d ∈ cs, k.member d = true := fun d hd => h d (List.mem_cons_of_mem c hd)
    have hn : n+1+cs.length = n+(c :: cs).length := by simp only [List.length_cons]; omega
    rw [List.cons_append, lexFrom_member n _ hk (h c (by simp)), lexFrom_members _ _ hk _ ht,
      lexFrom_run_end _ _ hk _ hr, hn]
    simp

end Lexemes

def Apart (cs : List Char) : Prop := ∀ k : Kind, startsWith k.member cs = false

theorem apart_nil : Apart [] := fun _ => rfl

theorem apart_cons {c : Char} (hd : role c ≠ .digit) (hl : role c ≠ .letter) (rest : List Char) :
    Apart (c :: rest) := by
  intro k
  cases k with
  | paren => rfl
  | string => rfl
  | number => simpa [startsWith, Kind.member, role_eq_digit_iff] using hd
  | name => simpa [startsWith, Kind.member, role_eq_letter_iff] using hl

theorem apart_blank {c : Char} (h : Text.isBlank c = true) (rest : List Char) :
    Apart (c :: rest) := by
  have hr : role c = .blank := role_eq_blank_iff.mpr h
  exact apart_cons (by simp [hr]) (by simp [hr]) rest

/-- Every text is empty, or starts with a blank, with a lexeme that is as long as it can be, or with
something that is no lexeme. -/
@[elab_as_elim]
theorem lexeme_induction {motive : List Char → Prop} (nil : motive [])
    (blank : ∀ c rest, Text.isBlank c = true → motive rest → motive (c :: rest))
    (paren : ∀ c rest, c = '(' ∨ c = ')' → motive rest → motive (c :: rest))
    (word : ∀ (k : Kind) (cs rest : List Char), k.isRun → cs ≠ [] →
      (∀ c ∈ cs, k.member c = true) → startsWith k.member rest = false →
      motive rest → motive (cs ++ rest))
    (string : ∀ body rest, '"' ∉ body → motive rest → motive ('"' :: (body ++ '"' :: rest)))
    (unterminated : ∀ body, '"' ∉ body → motive ('"' :: body))
    (stray : ∀ c rest, role c = .stray → motive (c :: rest))
    (cs : List Char) : motive cs := by
  induction hn : cs.length using Nat.strongRecOn generalizing cs with
  | ind n ih =>
    have shorter : ∀ rest : List Char, rest.length < cs.length → motive rest := by
      intro rest hlt
      exact ih rest.length (by omega) rest rfl
    cases cs with
    | nil => exact nil
    | cons c rest =>
      have run : ∀ k : Kind, k.isRun → k.member c = true → motive (c :: rest) := by
        intro k hk hc
        have hcut : (c :: rest.takeWhile k.member) ++ rest.dropWhile k.member = c :: rest := by
          rw [List.cons_append, List.takeWhile_append_dropWhile]
        rw [← hcut]
        refine word k _ _ hk (by simp) ?_ ?_ (shorter _ ?_)
        · intro d hd
          obtain rfl | hm := List.mem_cons.mp hd
          · exact hc
          · exact List.mem_takeWhile_imp hm
        · exact startsWith_dropWhile k.member rest
        · have hl := (List.dropWhile_suffix k.member (l := rest)).length_le
          simp only [List.length_cons]
          omega
      cases hr : role c with
      | paren => exact paren c rest (role_eq_paren_iff.mp hr) (shorter rest (by simp))
      | blank => exact blank c rest (role_eq_blank_iff.mp hr) (shorter rest (by simp))
      | digit => exact run .number (.inl rfl) (role_eq_digit_iff.mp hr)
      | letter => exact run .name (.inr rfl) (role_eq_letter_iff.mp hr)
      | stray => exact stray c rest hr
      | quote =>
        obtain rfl := role_eq_quote_iff.mp hr
        by_cases hq : '"' ∈ rest
        · obtain ⟨body, after, rfl, hb⟩ := List.eq_append_cons_of_mem hq
          refine string body after hb (shorter after ?_)
          simp only [List.length_cons, List.length_append]
          omega
        · exact unterminated rest hq

/-- A text that can be read is read in the same way when something follows that goes on with no run, and
what follows is read as if nothing stood before it. -/
theorem lexFrom_append {n : Nat} {cs : List Char} {ts : List Token}
    (h : lexFrom n (.outside .none) cs = .ok ts) (m : Nat) {rest : List Char} (hr : Apart rest) :
    lexFrom m (.outside .none) (cs ++ rest) =
      prepend ts (lexFrom (m + cs.length) (.outside .none) rest) := by
  induction cs using lexeme_induction generalizing n m ts with
  | nil =>
    obtain rfl : ts = [] := by simpa using h.symm
    simp
  | blank c cs hc ih =>
    rw [lexFrom_blank n cs hc] at h
    rw [List.cons_append, lexFrom_blank m _ hc, ih h (m+1), List.length_cons, Nat.add_assoc,
      Nat.add_comm 1]
  | paren c cs hc ih =>
    rw [lexFrom_paren n cs hc] at h
    obtain ⟨us, hu, rfl⟩ := prepend_eq_ok_iff.mp h
    rw [List.cons_append, lexFrom_paren m _ hc, ih hu (m+1), prepend_prepend, List.length_cons,
      Nat.add_assoc, Nat.add_comm 1]
  | word k cs after hk hne hcs ha ih =>
    rw [lexFrom_word n after hk hne hcs ha] at h
    obtain ⟨us, hu, rfl⟩ := prepend_eq_ok_iff.mp h
    rw [List.append_assoc, lexFrom_word m _ hk hne hcs (startsWith_append ha (hr k)), ih hu,
      prepend_prepend, List.length_append, Nat.add_assoc]
  | string body after hb ih =>
    rw [lexFrom_string n after hb] at h
    obtain ⟨us, hu, rfl⟩ := prepend_eq_ok_iff.mp h
    have hl : m + (body.length+2) + after.length = m + ('"' :: (body ++ '"' :: after)).length := by
      simp only [List.length_cons, List.length_append]
      omega
    rw [List.cons_append, List.append_assoc, List.cons_append, lexFrom_string m _ hb, ih hu,
      prepend_prepend, hl]
  | unterminated body hb => simp [lexFrom_unterminated n hb] at h
  | stray c cs hc => simp [lexFrom_stray n cs hc] at h

theorem lexFrom_shift {n : Nat} {cs : List Char} {ts : List Token}
    (h : lexFrom n (.outside .none) cs = .ok ts) (m : Nat) :
    lexFrom m (.outside .none) cs = .ok ts := by
  have hm := lexFrom_append h m apart_nil
  simpa using hm

theorem lex_append_blanks {source blanks : String} {tokens : List Token}
    (h : lex source = .ok tokens) (hne : blanks ≠ "")
    (hb : ∀ c ∈ blanks.toList, Text.isBlank c = true) (rest : String) :
    lex (source ++ blanks ++ rest) = prepend tokens
      (lexFrom (source.length + blanks.length) (.outside .none) rest.toList) := by
  have ha : Apart (blanks.toList ++ rest.toList) := by
    cases hs : blanks.toList with
    | nil => exact absurd (by simpa using hs) hne
    | cons c cs => exact apart_blank (hb c (by simp [hs])) _
  rw [lex, String.toList_append, String.toList_append, List.append_assoc, lexFrom_append h 0 ha,
    lexFrom_blanks _ _ hb, Nat.zero_add, String.length_toList, String.length_toList]

end CallCompiler.Token
