import CallCompiler.Proofs.Numerals
import CallCompiler.Proofs.Runs

/-!
Reports of faults. A quoted text can be read back, and what follows it is told from it, whatever the text
holds; so a report determines the fault that it was made from.
-/
namespace CallCompiler

namespace Text

section Reading

/-- Where a quoted text is read: in plain text, after a backslash, or in the digits of a code point. -/
inductive Spot
  | plain
  | escape
  | code (left value : Nat)

def unescape? : Char → Option Char
  | 'n' => some '\n'
  | 'r' => some '\r'
  | 't' => some '\t'
  | '\\' => some '\\'
  | '"' => some '"'
  | '\x27' => some '\x27'
  | _ => none

def codeWidth? : Char → Option Nat
  | 'x' => some 2
  | 'u' => some 4
  | 'U' => some 8
  | _ => none

def prepend (c : Char) (r : Option (List Char × List Char)) : Option (List Char × List Char) :=
  r.map fun (text, rest) => (c :: text, rest)

def unquoteFrom (mark : Char) : Spot → List Char → Option (List Char × List Char)
  | _, [] => none
  | .plain, c :: cs =>
    if c = mark then some ([], cs)
    else if c = '\\' then unquoteFrom mark .escape cs
    else prepend c (unquoteFrom mark .plain cs)
  | .escape, c :: cs =>
    match codeWidth? c with
    | some width => unquoteFrom mark (.code width 0) cs
    | none => (unescape? c).bind fun e => prepend e (unquoteFrom mark .plain cs)
  | .code left value, c :: cs =>
    (hexValue? c).bind fun digit =>
      if left ≤ 1 then prepend (Char.ofNat (value * 16 + digit)) (unquoteFrom mark .plain cs)
      else unquoteFrom mark (.code (left - 1) (value * 16 + digit)) cs

def unquote? : List Char → Option (List Char × List Char)
  | [] => none
  | mark :: cs => unquoteFrom mark .plain cs

end Reading

section Escapes

variable {mark : Char}

theorem unquoteFrom_escape {c e : Char} (hmark : mark ≠ '\\') (hwidth : codeWidth? e = none)
    (h : unescape? e = some c) (rest : List Char) :
    unquoteFrom mark .plain ('\\' :: e :: rest) = prepend c (unquoteFrom mark .plain rest) := by
  simp [unquoteFrom, hmark.symm, hwidth, h]

theorem unquoteFrom_digit (left value : Nat) {digit : Nat} (h : digit < 16) (rest : List Char) :
    unquoteFrom mark (.code (left + 2) value) (hexDigit digit :: rest) =
      unquoteFrom mark (.code (left + 1) (value * 16 + digit)) rest := by
  simp [unquoteFrom, hexValue?_hexDigit h]

theorem unquoteFrom_hex (width left n : Nat) (h : n < 16 ^ width) (rest : List Char) :
    unquoteFrom mark (.code (width + left + 1) 0) (hex width n ++ rest) =
      unquoteFrom mark (.code (left + 1) n) rest := by
  -- the digits are written from the last one on, so one digit more is owed for what comes before it
  induction width generalizing left n rest with
  | zero =>
    have hn : n = 0 := by simpa using h
    rw [hn, Nat.zero_add]
    rfl
  | succ width ih =>
    have hdiv : n / 16 < 16 ^ width := by omega
    have hvalue : n / 16 * 16 + n % 16 = n := by omega
    have hleft : width + 1 + left + 1 = width + (left + 1) + 1 := by omega
    rw [hex, List.append_assoc, List.singleton_append, hleft, ih (left + 1) (n / 16) hdiv,
      unquoteFrom_digit left _ (by omega), hvalue]

theorem unquoteFrom_code {c letter : Char} {width : Nat} (hmark : mark ≠ '\\')
    (hwidth : codeWidth? letter = some (width + 1)) (h : c.toNat < 16 ^ (width + 1))
    (rest : List Char) :
    unquoteFrom mark .plain ('\\' :: letter :: hex (width + 1) c.toNat ++ rest) =
      prepend c (unquoteFrom mark .plain rest) := by
  have hdiv : c.toNat / 16 < 16 ^ width := by omega
  have hvalue : c.toNat / 16 * 16 + c.toNat % 16 = c.toNat := by omega
  have hopen : unquoteFrom mark .plain ('\\' :: letter :: hex (width + 1) c.toNat ++ rest) =
      unquoteFrom mark (.code (width + 1) 0) (hex (width + 1) c.toNat ++ rest) := by
    simp [unquoteFrom, hmark.symm, hwidth]
  rw [hopen, hex, List.append_assoc, unquoteFrom_hex width 0 _ hdiv]
  simp [unquoteFrom, hexValue?_hexDigit (Nat.mod_lt c.toNat (by omega : 0 < 16)), hvalue]

theorem unquoteFrom_quotedChar (hmark : mark = '\x27' ∨ mark = '"') (c : Char) (rest : List Char) :
    unquoteFrom mark .plain (quotedChar mark c ++ rest) =
      prepend c (unquoteFrom mark .plain rest) := by
  have hslash : mark ≠ '\\' := by
    obtain h | h := hmark <;> rw [h] <;> decide
  have hbound : c.toNat < 0x110000 := by
    have hvalid : c.toNat < 0xd800 ∨ 0xdfff < c.toNat ∧ c.toNat < 0x110000 := c.valid
    omega
  unfold quotedChar
  by_cases hself : c = mark ∨ c = '\\'
  · rw [if_pos hself]
    have hquoted : codeWidth? c = none ∧ unescape? c = some c := by
      obtain h | h := hself
      · obtain hm | hm := hmark <;> rw [h, hm] <;> exact ⟨rfl, rfl⟩
      · rw [h]
        exact ⟨rfl, rfl⟩
    exact unquoteFrom_escape hslash hquoted.1 hquoted.2 rest
  rw [if_neg hself]
  by_cases hline : c = '\n'
  · rw [if_pos hline, hline]
    exact unquoteFrom_escape hslash rfl rfl rest
  rw [if_neg hline]
  by_cases hreturn : c = '\r'
  · rw [if_pos hreturn, hreturn]
    exact unquoteFrom_escape hslash rfl rfl rest
  rw [if_neg hreturn]
  by_cases htab : c = '\t'
  · rw [if_pos htab, htab]
    exact unquoteFrom_escape hslash rfl rfl rest
  rw [if_neg htab]
  by_cases hprintable : isPrintable c = true
  · rw [if_pos hprintable]
    simp [unquoteFrom, not_or.mp hself]
  rw [if_neg hprintable]
  -- the width of a code point is the least of three that it fits into
  by_cases htwo : c.toNat < 0x100
  · rw [if_pos htwo]
    exact unquoteFrom_code hslash rfl htwo rest
  rw [if_neg htwo]
  by_cases hfour : c.toNat < 0x10000
  · rw [if_pos hfour]
    exact unquoteFrom_code hslash rfl hfour rest
  rw [if_neg hfour]
  exact unquoteFrom_code hslash rfl (by omega) rest

end Escapes

theorem unquoteFrom_flatMap_quotedChar {mark : Char} (hmark : mark = '\x27' ∨ mark = '"')
    (cs rest : List Char) :
    unquoteFrom mark .plain (cs.flatMap (quotedChar mark) ++ mark :: rest) = some (cs, rest) := by
  induction cs with
  | nil => simp [unquoteFrom]
  | cons c cs ih =>
    rw [List.flatMap_cons, List.append_assoc, unquoteFrom_quotedChar hmark, ih]
    rfl

theorem unquote?_quotedChars (cs rest : List Char) :
    unquote? (quotedChars cs ++ rest) = some (cs, rest) := by
  have hmark : quoteMark cs = '\x27' ∨ quoteMark cs = '"' := by
    unfold quoteMark
    split
    · exact .inr rfl
    · exact .inl rfl
  have h := unquoteFrom_flatMap_quotedChar hmark cs rest
  simpa [quotedChars, unquote?] using h

theorem quoted_append_inj {s t rest more : String} (h : quoted s ++ rest = quoted t ++ more) :
    s = t ∧ rest = more := by
  have hlist : quotedChars s.toList ++ rest.toList = quotedChars t.toList ++ more.toList := by
    simpa [quoted] using congrArg String.toList h
  have hread := congrArg unquote? hlist
  rw [unquote?_quotedChars, unquote?_quotedChars] at hread
  obtain ⟨htext, hrest⟩ := Prod.mk.inj (Option.some.inj hread)
  exact ⟨String.toList_inj.mp htext, String.toList_inj.mp hrest⟩

theorem append_inj_of_not_mem {s t stop rest more : String} {c : Char} {cs : List Char}
    (hstop : stop.toList = c :: cs) (hs : c ∉ s.toList) (ht : c ∉ t.toList)
    (h : s ++ (stop ++ rest) = t ++ (stop ++ more)) : s = t ∧ rest = more := by
  have hlist : s.toList ++ c :: (cs ++ rest.toList) = t.toList ++ c :: (cs ++ more.toList) := by
    simpa [hstop] using congrArg String.toList h
  have hcut : ∀ {l : List Char}, c ∉ l → ∀ d ∈ l, decide (d ≠ c) = true := by
    intro l hl d hd
    exact decide_eq_true fun e => hl (e ▸ hd)
  have htake := congrArg (List.takeWhile fun d => decide (d ≠ c)) hlist
  rw [List.takeWhile_append_of_pos (hcut hs), List.takeWhile_append_of_pos (hcut ht)] at htake
  have hst : s = t := String.toList_inj.mp (by simpa using htake)
  rw [hst] at h
  exact ⟨hst, (String.append_right_inj _).mp ((String.append_right_inj _).mp h)⟩

theorem toString_int_inj {p q : Int} (h : toString p = toString q) : p = q := by
  have hdecimal (n : Int) : Json.number? (toString n).toList = some (n, 0) := Json.number?_decimal n 0
  have hread := congrArg (fun s => Json.number? s.toList) h
  simp only [hdecimal] at hread
  exact (Prod.mk.inj (Option.some.inj hread)).1

end Text

namespace Fault

/-- Whether a fault is worded by its kind, and not by a text of its own. -/
def isStandard : Fault → Bool
  | .unrecognized _ _ remark => remark == ""
  | .unterminated _ | .unexpected .. | .unknownNode _ => true
  | .other _ => false

section Messages

theorem message_unrecognized (s : String) (p : Int) :
    message (.unrecognized s p "") =
      "Unrecognized character " ++ (Text.quoted s ++ (" at position " ++ toString p)) := by
  have h : message (.unrecognized s p "") =
      "Unrecognized character " ++ Text.quoted s ++ " at position " ++ toString p := rfl
  rw [h, String.append_assoc, String.append_assoc]

theorem message_end (p : Int) :
    message (.unexpected none p) = "Unexpected end of input at token " ++ toString p := rfl

theorem message_token (t : Token) (p : Int) :
    message (.unexpected (some t) p) = "Unexpected token " ++
      (t.kind.label ++ (" (" ++ (Text.quoted t.text ++ (") at token " ++ toString p)))) := by
  have h : message (.unexpected (some t) p) = "Unexpected token " ++ t.kind.label ++ " (" ++
      Text.quoted t.text ++ ") at token " ++ toString p := rfl
  rw [h]
  simp only [String.append_assoc]

theorem quoted_position_inj {s t words : String} {p q : Int}
    (h : Text.quoted s ++ (words ++ toString p) = Text.quoted t ++ (words ++ toString q)) :
    s = t ∧ p = q := by
  obtain ⟨htext, hrest⟩ := Text.quoted_append_inj h
  exact ⟨htext, Text.toString_int_inj ((String.append_right_inj _).mp hrest)⟩

theorem message_unrecognized_inj {s t : String} {p q : Int}
    (h : message (.unrecognized s p "") = message (.unrecognized t q "")) : s = t ∧ p = q := by
  rw [message_unrecognized, message_unrecognized] at h
  exact quoted_position_inj ((String.append_right_inj _).mp h)

theorem message_unterminated_inj {p q : Int}
    (h : message (.unterminated p) = message (.unterminated q)) : p = q :=
  Text.toString_int_inj ((String.append_right_inj _).mp h)

theorem message_unknownNode_inj {tag other : String}
    (h : message (.unknownNode tag) = message (.unknownNode other)) : tag = other :=
  (String.append_right_inj _).mp ((String.append_left_inj _).mp h)

theorem blank_not_mem_label (k : Token.Kind) : ' ' ∉ k.label.toList := by
  cases k <;> decide

theorem kind_eq_of_label_eq {k l : Token.Kind} (h : k.label = l.label) : k = l := by
  have hread := congrArg Token.Kind.ofLabel? h
  rw [Token.Kind.ofLabel?_label, Token.Kind.ofLabel?_label] at hread
  exact Option.some.inj hread

theorem message_token_inj {t u : Token} {p q : Int}
    (h : message (.unexpected (some t) p) = message (.unexpected (some u) q)) : t = u ∧ p = q := by
  have hstop : " (".toList = [' ', '('] := rfl
  rw [message_token, message_token] at h
  obtain ⟨hlabel, hrest⟩ := Text.append_inj_of_not_mem hstop (blank_not_mem_label t.kind)
    (blank_not_mem_label u.kind) ((String.append_right_inj _).mp h)
  obtain ⟨htext, hposition⟩ := quoted_position_inj hrest
  obtain ⟨kind, text⟩ := t
  obtain ⟨kind', text'⟩ := u
  exact ⟨congrArg₂ Token.mk (kind_eq_of_label_eq hlabel) htext, hposition⟩

theorem message_end_ne_token (t : Token) (p q : Int) :
    message (.unexpected none p) ≠ message (.unexpected (some t) q) := by
  intro h
  rw [message_end, message_token] at h
  -- the second words differ
  have hwords := congrArg (fun s => s.toList.take 12) h
  simp at hwords

theorem message_unexpected_inj {t u : Option Token} {p q : Int}
    (h : message (.unexpected t p) = message (.unexpected u q)) : t = u ∧ p = q := by
  cases t with
  | none =>
    cases u with
    | none => exact ⟨rfl, Text.toString_int_inj ((String.append_right_inj _).mp h)⟩
    | some u => exact absurd h (message_end_ne_token u p q)
  | some t =>
    cases u with
    | none => exact absurd h.symm (message_end_ne_token t q p)
    | some u =>
      obtain ⟨htoken, hposition⟩ := message_token_inj h
      exact ⟨congrArg some htoken, hposition⟩

end Messages

theorem colon_not_mem_label (f : Fault) : ':' ∉ f.label.toList := by
  cases f <;> simp [label]

theorem eq_of_report_eq {f g : Fault} (hf : f.isStandard = true) (hg : g.isStandard = true)
    (h : f.report = g.report) : f = g := by
  have hstop : ": ".toList = [':', ' '] := rfl
  unfold report at h
  rw [String.append_assoc, String.append_assoc] at h
  obtain ⟨hlabel, hmessage⟩ := Text.append_inj_of_not_mem hstop (colon_not_mem_label f)
    (colon_not_mem_label g) h
  cases f with
  | unrecognized s p remark =>
    cases g with
    | unrecognized t q remark' =>
      have hremark : remark = "" := by simpa [isStandard] using hf
      have hremark' : remark' = "" := by simpa [isStandard] using hg
      rw [hremark, hremark'] at hmessage ⊢
      obtain ⟨hcharacter, hposition⟩ := message_unrecognized_inj hmessage
      rw [hcharacter, hposition]
    | unterminated _ | unexpected _ _ | unknownNode _ => simp [label] at hlabel
    | other _ => cases hg
  | unterminated p =>
    cases g with
    | unterminated q => rw [message_unterminated_inj hmessage]
    | unrecognized _ _ _ | unexpected _ _ | unknownNode _ => simp [label] at hlabel
    | other _ => cases hg
  | unexpected t p =>
    cases g with
    | unexpected u q =>
      obtain ⟨htoken, hposition⟩ := message_unexpected_inj hmessage
      rw [htoken, hposition]
    | unrecognized _ _ _ | unterminated _ | unknownNode _ => simp [label] at hlabel
    | other _ => cases hg
  | unknownNode tag =>
    cases g with
    | unknownNode other => rw [message_unknownNode_inj hmessage]
    | unrecognized _ _ _ | unterminated _ | unexpected _ _ => simp [label] at hlabel
    | other _ => cases hg
  | other _ => cases hf

end Fault

namespace Engine

theorem isStandard_of_unreadable {format : Settings.Format} {source : String} {f : Fault}
    (h : Unreadable format source f) : f.isStandard = true := by
  obtain hl | ⟨-, tokens, -, hp⟩ := h
  · obtain ⟨p, c, -, -, hf⟩ := ((Token.lexFrom_verdict source.toList 0).error_iff f).mp hl
    rw [hf, Token.faultAt]
    split <;> rfl
  · obtain ⟨token, position, hf⟩ := Source.parse_error_unexpected hp
    rw [hf]
    rfl

theorem errors_of_unreadable {settings : Settings} {source : String} {f : Fault}
    (h : Unreadable settings.format source f) : (run settings source).errors = [f.report] := by
  rw [run_eq_ofOutput, shown_eq_error_iff.mpr h]
  rfl

theorem exists_unreadable_of_errors {settings : Settings} {source report : String}
    (h : (run settings source).errors = [report]) :
    ∃ f, Unreadable settings.format source f ∧ f.report = report := by
  rw [run_eq_ofOutput] at h
  cases hshown : shown settings.format settings.indent source with
  | ok code =>
    rw [hshown] at h
    cases h
  | error f =>
    rw [hshown] at h
    exact ⟨f, shown_eq_error_iff.mp hshown, (List.cons.inj h).1⟩

end Engine

/-- Two faults that are worded by their kinds have one report only if they are the same. So runs that report
the same line, whatever their texts and settings, stop at the same fault. -/
theorem reports_tell_faults_apart :
    (∀ f g : Fault, f.isStandard = true → g.isStandard = true → f.report = g.report → f = g) ∧
    ∀ (settings other : Settings) (source more : String) (f : Fault),
      Engine.Unreadable settings.format source f →
      (Engine.run other more).errors = (Engine.run settings source).errors →
      Engine.Unreadable other.format more f ∧ (Engine.run other more).errors = [f.report] := by
  refine ⟨fun f g => Fault.eq_of_report_eq, fun settings other source more f hf herrors => ?_⟩
  rw [Engine.errors_of_unreadable hf] at herrors
  obtain ⟨g, hg, hreport⟩ := Engine.exists_unreadable_of_errors herrors
  have hsame : g = f := Fault.eq_of_report_eq (Engine.isStandard_of_unreadable hg)
    (Engine.isStandard_of_unreadable hf) hreport
  rw [hsame] at hg
  exact ⟨hg, herrors⟩

theorem reports_tell_faults_apart_stray :
    Token.faultAt '?' 0 = .unrecognized "?" 0 "" ∧
    Engine.Unreadable .tokens "? 1" (.unrecognized "?" 0 "") ∧
    (Engine.run ⟨.tokens, false, 0⟩ "? 1").errors =
      ["LexError: Unrecognized character '?' at position 0"] := by
  have hfirst : Engine.Unreadable .code "?" (.unrecognized "?" 0 "") := .inl (by decide +kernel)
  obtain ⟨hsecond, herrors⟩ := reports_tell_faults_apart.2 ⟨.code, true, 2⟩ ⟨.tokens, false, 0⟩ "?" "? 1"
    _ hfirst (by decide +kernel)
  have hreport : (Fault.unrecognized "?" 0 "").report =
      "LexError: Unrecognized character '?' at position 0" := by decide +kernel
  rw [hreport] at herrors
  exact ⟨reports_tell_faults_apart.1 _ _ rfl rfl (by decide +kernel), hsecond, herrors⟩

end CallCompiler
