import CallCompiler.Proofs.Numerals

/-!
JSON texts and what they stand for. A text is cut into lexemes: marks, literal names, numbers and strings,
with blanks between them. Every value has its own sequence of lexemes, and a text stands for the value whose
lexemes it has. What is printed stands for the value that it was printed from, whatever the indent.
-/
namespace CallCompiler.Json

inductive Lexeme
  | openArray
  | closeArray
  | openObject
  | closeObject
  | colon
  | comma
  | null
  | bool (value : Bool)
  | number (digits : Int) (places : Nat)
  | string (value : String)

section Values

mutual

def lexemes : Json → List Lexeme
  | .null => [.null]
  | .bool value => [.bool value]
  | .number digits places => [.number digits places]
  | .string value => [.string value]
  | .array items => .openArray :: arrayLexemes items
  | .object fields => .openObject :: objectLexemes fields

def arrayLexemes : List Json → List Lexeme
  | [] => [.closeArray]
  | item :: items => item.lexemes ++ moreItems items

def moreItems : List Json → List Lexeme
  | [] => [.closeArray]
  | item :: items => .comma :: (item.lexemes ++ moreItems items)

def objectLexemes : List (String × Json) → List Lexeme
  | [] => [.closeObject]
  | (key, value) :: fields => .string key :: .colon :: (value.lexemes ++ moreFields fields)

def moreFields : List (String × Json) → List Lexeme
  | [] => [.closeObject]
  | (key, value) :: fields =>
    .comma :: .string key :: .colon :: (value.lexemes ++ moreFields fields)

end

theorem lexemes_ne_close (value : Json) (r s : List Lexeme) :
    .closeArray :: r ≠ value.lexemes ++ s := by
  cases value <;> simp [lexemes]

mutual

theorem lexemes_append_inj (v w : Json) (r s : List Lexeme) (h : v.lexemes ++ r = w.lexemes ++ s) :
    v = w ∧ r = s := by
  cases v with
  | null | bool _ | number _ _ | string _ =>
    cases w <;> simp [lexemes] at h ⊢
    exact h
  | array items =>
    cases w with
    | array others =>
      obtain ⟨hitems, hr⟩ := arrayLexemes_append_inj items others r s (List.cons.inj h).2
      exact ⟨by rw [hitems], hr⟩
    | null | bool _ | number _ _ | string _ | object _ => cases (List.cons.inj h).1
  | object fields =>
    cases w with
    | object others =>
      obtain ⟨hfields, hr⟩ := objectLexemes_append_inj fields others r s (List.cons.inj h).2
      exact ⟨by rw [hfields], hr⟩
    | null | bool _ | number _ _ | string _ | array _ => cases (List.cons.inj h).1

theorem arrayLexemes_append_inj : (items others : List Json) → (r s : List Lexeme) →
    arrayLexemes items ++ r = arrayLexemes others ++ s → items = others ∧ r = s
  | [], [], r, s, h => ⟨rfl, (List.cons.inj h).2⟩
  | [], other :: others, r, s, h => by
    rw [arrayLexemes, arrayLexemes, List.append_assoc] at h
    exact absurd h (lexemes_ne_close other _ _)
  | item :: items, [], r, s, h => by
    rw [arrayLexemes, arrayLexemes, List.append_assoc] at h
    exact absurd h.symm (lexemes_ne_close item _ _)
  | item :: items, other :: others, r, s, h => by
    rw [arrayLexemes, arrayLexemes, List.append_assoc, List.append_assoc] at h
    obtain ⟨hitem, h⟩ := lexemes_append_inj item other _ _ h
    obtain ⟨hitems, hr⟩ := moreItems_append_inj items others r s h
    exact ⟨by rw [hitem, hitems], hr⟩

theorem moreItems_append_inj : (items others : List Json) → (r s : List Lexeme) →
    moreItems items ++ r = moreItems others ++ s → items = others ∧ r = s
  | [], [], r, s, h => ⟨rfl, (List.cons.inj h).2⟩
  | [], other :: others, r, s, h => by cases (List.cons.inj h).1
  | item :: items, [], r, s, h => by cases (List.cons.inj h).1
  | item :: items, other :: others, r, s, h => by
    simp only [moreItems, List.cons_append, List.append_assoc, List.cons.injEq, true_and] at h
    obtain ⟨hitem, h⟩ := lexemes_append_inj item other _ _ h
    obtain ⟨hitems, hr⟩ := moreItems_append_inj items others r s h
    exact ⟨by rw [hitem, hitems], hr⟩

theorem objectLexemes_append_inj : (fields others : List (String × Json)) → (r s : List Lexeme) →
    objectLexemes fields ++ r = objectLexemes others ++ s → fields = others ∧ r = s
  | [], [], r, s, h => ⟨rfl, (List.cons.inj h).2⟩
  | [], (key, value) :: others, r, s, h => by cases (List.cons.inj h).1
  | (key, value) :: fields, [], r, s, h => by cases (List.cons.inj h).1
  | (key, value) :: fields, (key', value') :: others, r, s, h => by
    simp only [objectLexemes, List.cons_append, List.append_assoc, List.cons.injEq, Lexeme.string.injEq,
      true_and] at h
    obtain ⟨hvalue, h'⟩ := lexemes_append_inj value value' _ _ h.2
    obtain ⟨hfields, hr⟩ := moreFields_append_inj fields others r s h'
    exact ⟨by rw [h.1, hvalue, hfields], hr⟩

theorem moreFields_append_inj : (fields others : List (String × Json)) → (r s : List Lexeme) →
    moreFields fields ++ r = moreFields others ++ s → fields = others ∧ r = s
  | [], [], r, s, h => ⟨rfl, (List.cons.inj h).2⟩
  | [], (key, value) :: others, r, s, h => by cases (List.cons.inj h).1
  | (key, value) :: fields, [], r, s, h => by cases (List.cons.inj h).1
  | (key, value) :: fields, (key', value') :: others, r, s, h => by
    simp only [moreFields, List.cons_append, List.append_assoc, List.cons.injEq, Lexeme.string.injEq,
      true_and] at h
    obtain ⟨hvalue, h'⟩ := lexemes_append_inj value value' _ _ h.2
    obtain ⟨hfields, hr⟩ := moreFields_append_inj fields others r s h'
    exact ⟨by rw [h.1, hvalue, hfields], hr⟩

end

theorem lexemes_inj {v w : Json} (h : v.lexemes = w.lexemes) : v = w :=
  (lexemes_append_inj v w [] [] (by rw [h])).1

end Values

section Scanner

def isSpace (c : Char) : Bool := c = ' ' || c = '\t' || c = '\n' || c = '\r'

def mark? : Char → Option Lexeme
  | '[' => some .openArray
  | ']' => some .closeArray
  | '\x7b' => some .openObject
  | '\x7d' => some .closeObject
  | ':' => some .colon
  | ',' => some .comma
  | _ => none

def bare? (run : List Char) : Option Lexeme :=
  match number? run with
  | some (digits, places) => some (.number digits places)
  | none =>
    if run = "null".toList then some .null
    else if run = "true".toList then some (.bool true)
    else if run = "false".toList then some (.bool false)
    else none

inductive Piece
  | char (c : Char)
  | unit (n : Nat)

def escaped? : Char → Option Char
  | '"' => some '"'
  | '\\' => some '\\'
  | '/' => some '/'
  | 'b' => some '\x08'
  | 'f' => some '\x0c'
  | 'n' => some '\n'
  | 'r' => some '\r'
  | 't' => some '\t'
  | _ => none

/-- The characters of a string. Two units that are a surrogate pair are one character, and a surrogate that
stands alone is none. -/
def joinUnits : List Piece → Option (List Char)
  | [] => some []
  | .char c :: pieces => (joinUnits pieces).map (c :: ·)
  | .unit n :: pieces =>
    if 0xd800 ≤ n ∧ n < 0xdc00 then
      match pieces with
      | .unit m :: pieces =>
        if 0xdc00 ≤ m ∧ m < 0xe000 then
          (joinUnits pieces).map (Char.ofNat (0x10000 + (n - 0xd800) * 0x400 + (m - 0xdc00)) :: ·)
        else none
      | _ => none
    else if 0xdc00 ≤ n ∧ n < 0xe000 then none
    else (joinUnits pieces).map (Char.ofNat n :: ·)

/-- Where a text is read: after the part of a name or number, in a string, after a backslash in it, or in the
digits of a unit. -/
inductive Spot
  | outside (run : List Char)
  | inside (pieces : List Piece)
  | escape (pieces : List Piece)
  | code (pieces : List Piece) (left value : Nat)

def before (lexemes : List Lexeme) (others : Option (List Lexeme)) : Option (List Lexeme) :=
  others.map (lexemes ++ ·)

def flush (run : List Char) (others : Option (List Lexeme)) : Option (List Lexeme) :=
  if run.isEmpty then others else (bare? run).bind fun lexeme => before [lexeme] others

def scanFrom : Spot → List Char → Option (List Lexeme)
  | .outside run, [] => flush run (some [])
  | .inside _, [] | .escape _, [] | .code .., [] => none
  | .outside run, c :: cs =>
    if isSpace c then flush run (scanFrom (.outside []) cs)
    else if c = '"' then flush run (scanFrom (.inside []) cs)
    else
      match mark? c with
      | some mark => flush run (before [mark] (scanFrom (.outside []) cs))
      | none => scanFrom (.outside (run ++ [c])) cs
  | .inside pieces, c :: cs =>
    if c = '"' then
      (joinUnits pieces).bind fun text =>
        before [.string (String.ofList text)] (scanFrom (.outside []) cs)
    else if c = '\\' then scanFrom (.escape pieces) cs
    else if c.toNat < 0x20 then none
    else scanFrom (.inside (pieces ++ [.char c])) cs
  | .escape pieces, c :: cs =>
    if c = 'u' then scanFrom (.code pieces 4 0) cs
    else (escaped? c).bind fun e => scanFrom (.inside (pieces ++ [.char e])) cs
  | .code pieces left value, c :: cs =>
    (Text.hexValue? c).bind fun digit =>
      if left = 1 then scanFrom (.inside (pieces ++ [.unit (value * 16 + digit)])) cs
      else scanFrom (.code pieces (left - 1) (value * 16 + digit)) cs

def scan (text : String) : Option (List Lexeme) := scanFrom (.outside []) text.toList

end Scanner

def StandsFor (text : String) (value : Json) : Prop := scan text = some value.lexemes

@[simp] theorem before_before (lexemes more : List Lexeme) (others : Option (List Lexeme)) :
    before lexemes (before more others) = before (lexemes ++ more) others := by
  cases others <;> simp [before]

@[simp] theorem flush_nil (others : Option (List Lexeme)) : flush [] others = others := rfl

section Strings

def Spells (cs text : List Char) : Prop :=
  ∃ pieces, (∀ earlier rest, scanFrom (.inside earlier) (cs ++ rest) =
      scanFrom (.inside (earlier ++ pieces)) rest) ∧
    ∀ more, joinUnits (pieces ++ more) = (joinUnits more).map (text ++ ·)

theorem Spells.append {cs ds text more : List Char} (h : Spells cs text) (h' : Spells ds more) :
    Spells (cs ++ ds) (text ++ more) := by
  obtain ⟨pieces, hscan, hjoin⟩ := h
  obtain ⟨pieces', hscan', hjoin'⟩ := h'
  refine ⟨pieces ++ pieces', fun earlier rest => ?_, fun others => ?_⟩
  · rw [List.append_assoc, hscan, hscan', List.append_assoc]
  · rw [List.append_assoc, hjoin, hjoin', Option.map_map]
    simp only [Function.comp_def, List.append_assoc]

theorem spells_escape {e c : Char} (hu : e ≠ 'u') (h : escaped? e = some c) : Spells ['\\', e] [c] := by
  refine ⟨[.char c], fun earlier rest => ?_, fun more => rfl⟩
  simp [scanFrom, hu, h]

theorem spells_plain {c : Char} (hq : c ≠ '"') (hb : c ≠ '\\') (h : 0x20 ≤ c.toNat) : Spells [c] [c] := by
  refine ⟨[.char c], fun earlier rest => ?_, fun more => rfl⟩
  have hlow : ¬c.toNat < 0x20 := by omega
  simp [scanFrom, hq, hb, hlow]

theorem unit_eq (n : Nat) : unit n = ['\\', 'u', Text.hexDigit (n / 16 / 16 / 16 % 16),
    Text.hexDigit (n / 16 / 16 % 16), Text.hexDigit (n / 16 % 16), Text.hexDigit (n % 16)] := rfl

theorem scanFrom_unit {n : Nat} (h : n < 0x10000) (earlier : List Piece) (rest : List Char) :
    scanFrom (.inside earlier) (unit n ++ rest) = scanFrom (.inside (earlier ++ [.unit n])) rest := by
  have hvalue : (((n / 16 / 16 / 16 % 16) * 16 + n / 16 / 16 % 16) * 16 + n / 16 % 16) * 16 + n % 16 = n := by
    omega
  have hd (m : Nat) : Text.hexValue? (Text.hexDigit (m % 16)) = some (m % 16) :=
    Text.hexValue?_hexDigit (by omega)
  rw [unit_eq]
  simp [scanFrom, hd, hvalue]

theorem spells_unit {c : Char} (h : c.toNat < 0x10000) : Spells (unit c.toNat) [c] := by
  refine ⟨[.unit c.toNat], scanFrom_unit h, fun more => ?_⟩
  -- no character is a surrogate
  have hvalid : c.toNat < 0xd800 ∨ 0xdfff < c.toNat ∧ c.toNat < 0x110000 := c.valid
  have hhigh : ¬(0xd800 ≤ c.toNat ∧ c.toNat < 0xdc00) := by omega
  have hlow : ¬(0xdc00 ≤ c.toNat ∧ c.toNat < 0xe000) := by omega
  rw [List.singleton_append, joinUnits.eq_def]
  simp only [hhigh, hlow, if_false, Char.ofNat_toNat]
  rfl

theorem spells_pair {c : Char} (h : 0x10000 ≤ c.toNat) :
    Spells (unit (0xd800 + (c.toNat - 0x10000) / 0x400) ++
      unit (0xdc00 + (c.toNat - 0x10000) % 0x400)) [c] := by
  have hvalid : c.toNat < 0xd800 ∨ 0xdfff < c.toNat ∧ c.toNat < 0x110000 := c.valid
  obtain ⟨high, hhigh⟩ : ∃ high, high = (c.toNat - 0x10000) / 0x400 := ⟨_, rfl⟩
  obtain ⟨low, hlow⟩ : ∃ low, low = (c.toNat - 0x10000) % 0x400 := ⟨_, rfl⟩
  rw [← hhigh, ← hlow]
  have hjoined : 0x10000 + (0xd800 + high - 0xd800) * 0x400 + (0xdc00 + low - 0xdc00) = c.toNat := by
    omega
  refine ⟨[.unit (0xd800 + high), .unit (0xdc00 + low)], fun earlier rest => ?_, fun more => ?_⟩
  · rw [List.append_assoc, scanFrom_unit (by omega), scanFrom_unit (by omega), List.append_assoc]
    rfl
  · rw [List.cons_append, List.singleton_append, joinUnits, if_pos (by omega), if_pos (by omega), hjoined,
      Char.ofNat_toNat]
    rfl

/-- The ways to print a character: a letter after a backslash, the character, or one or two units. -/
inductive Printed (c : Char) : List Char → Prop
  | escape {e : Char} : escaped? e = some c → e ≠ 'u' → 0x20 ≤ e.toNat ∧ e.toNat ≤ 0x7e →
      Printed c ['\\', e]
  | plain : c ≠ '"' → c ≠ '\\' → 0x20 ≤ c.toNat ∧ c.toNat ≤ 0x7e → Printed c [c]
  | unit : c.toNat < 0x10000 → Printed c (Json.unit c.toNat)
  | pair : 0x10000 ≤ c.toNat → Printed c
      (Json.unit (0xd800 + (c.toNat - 0x10000) / 0x400) ++
        Json.unit (0xdc00 + (c.toNat - 0x10000) % 0x400))

theorem printed_stringChar (c : Char) : Printed c (stringChar c) := by
  by_cases hshort : c = '"' ∨ c = '\\' ∨ c = '\n' ∨ c = '\r' ∨ c = '\t' ∨ c = '\x08' ∨ c = '\x0c'
  · obtain rfl | rfl | rfl | rfl | rfl | rfl | rfl := hshort
    all_goals exact .escape rfl (by decide) (by decide)
  simp only [not_or] at hshort
  obtain ⟨hquote, hslash, hfeed, hreturn, htab, hback, hform⟩ := hshort
  rw [stringChar, if_neg hquote, if_neg hslash, if_neg hfeed, if_neg hreturn, if_neg htab, if_neg hback,
    if_neg hform]
  by_cases hplain : 0x20 ≤ c.toNat ∧ c.toNat ≤ 0x7e
  · rw [if_pos hplain]
    exact .plain hquote hslash hplain
  rw [if_neg hplain]
  by_cases hunit : c.toNat < 0x10000
  · rw [if_pos hunit]
    exact .unit hunit
  · rw [if_neg hunit]
    exact .pair (by omega)

theorem spells_of_printed {c : Char} {text : List Char} (h : Printed c text) : Spells text [c] := by
  cases h with
  | escape h hu _ => exact spells_escape hu h
  | plain hquote hslash h => exact spells_plain hquote hslash h.1
  | unit h => exact spells_unit h
  | pair h => exact spells_pair h

theorem spells_flatMap (text : List Char) : Spells (text.flatMap stringChar) text := by
  induction text with
  | nil => exact ⟨[], fun _ _ => by simp, fun _ => by simp⟩
  | cons c text ih => exact (spells_of_printed (printed_stringChar c)).append ih

theorem scanFrom_printString (s : String) (rest : List Char) :
    scanFrom (.outside []) (printString s rest) = before [.string s] (scanFrom (.outside []) rest) := by
  obtain ⟨pieces, hscan, hjoin⟩ := spells_flatMap s.toList
  have htext : joinUnits pieces = some s.toList := by
    have h := hjoin []
    rw [List.append_nil, joinUnits, Option.map_some, List.append_nil] at h
    exact h
  have hopen : scanFrom (.outside []) (printString s rest) =
      scanFrom (.inside []) (s.toList.flatMap stringChar ++ '"' :: rest) := rfl
  rw [hopen, hscan, List.nil_append, scanFrom, if_pos rfl, htext, Option.bind_some, String.ofList_toList]

end Strings

section Runs

def isBare (c : Char) : Bool := !isSpace c && c ≠ '"' && (mark? c).isNone

def Stops (rest : List Char) : Prop := ∀ c ∈ rest.head?, isBare c = false

theorem scanFrom_space {c : Char} (h : isSpace c = true) (cs : List Char) :
    scanFrom (.outside []) (c :: cs) = scanFrom (.outside []) cs := by
  rw [scanFrom, if_pos h, flush_nil]

theorem scanFrom_mark {c : Char} {mark : Lexeme} (h : mark? c = some mark) (hs : isSpace c = false)
    (hq : c ≠ '"') (cs : List Char) :
    scanFrom (.outside []) (c :: cs) = before [mark] (scanFrom (.outside []) cs) := by
  rw [scanFrom, if_neg (by simp [hs]), if_neg hq, h]
  rfl

theorem scanFrom_newline (indent depth : Nat) (rest : List Char) :
    scanFrom (.outside []) (newline indent depth rest) = scanFrom (.outside []) rest := by
  have hblanks (n : Nat) : scanFrom (.outside []) (List.replicate n ' ' ++ rest) =
      scanFrom (.outside []) rest := by
    induction n with
    | zero => rfl
    | succ n ih =>
      rw [List.replicate_succ, List.cons_append, scanFrom_space (by decide)]
      exact ih
  rw [newline, List.cons_append, scanFrom_space (by decide)]
  exact hblanks (indent * depth)

theorem scanFrom_bare {cs : List Char} (h : ∀ c ∈ cs, isBare c = true) (run rest : List Char) :
    scanFrom (.outside run) (cs ++ rest) = scanFrom (.outside (run ++ cs)) rest := by
  induction cs generalizing run with
  | nil => simp
  | cons c cs ih =>
    obtain ⟨hc, hcs⟩ := List.forall_mem_cons.mp h
    simp only [isBare, Bool.and_eq_true, Bool.not_eq_true', decide_eq_true_eq,
      Option.isNone_iff_eq_none] at hc
    obtain ⟨⟨hspace, hquote⟩, hmark⟩ := hc
    rw [List.cons_append, scanFrom, if_neg (by simp [hspace]), if_neg hquote, hmark]
    simp only
    rw [ih hcs, List.append_assoc]
    rfl

theorem scanFrom_stops {rest : List Char} (h : Stops rest) (run : List Char) :
    scanFrom (.outside run) rest = flush run (scanFrom (.outside []) rest) := by
  cases rest with
  | nil => rfl
  | cons c rest =>
    have hc : isBare c = false := h c rfl
    by_cases hspace : isSpace c = true
    · rw [scanFrom, if_pos hspace, scanFrom_space hspace]
    · by_cases hquote : c = '"'
      · rw [scanFrom, if_neg hspace, if_pos hquote, scanFrom, if_neg hspace, if_pos hquote, flush_nil]
      · cases hmark : mark? c with
        | none => simp [isBare, hspace, hquote, hmark] at hc
        | some mark =>
          rw [scanFrom, if_neg hspace, if_neg hquote, hmark,
            scanFrom_mark hmark (by simpa using hspace) hquote]

theorem scanFrom_word {cs rest : List Char} {lexeme : Lexeme} (hne : cs ≠ [])
    (hb : ∀ c ∈ cs, isBare c = true) (hl : bare? cs = some lexeme) (hs : Stops rest) :
    scanFrom (.outside []) (cs ++ rest) = before [lexeme] (scanFrom (.outside []) rest) := by
  rw [scanFrom_bare hb, List.nil_append, scanFrom_stops hs, flush, if_neg (by simpa using hne), hl,
    Option.bind_some]

end Runs

section Printed

-- The steps of the printer on nested values, which is all of it that the proofs below open.

theorem print_array_nil (indent depth : Nat) (rest : List Char) :
    print indent depth (.array []) rest = '[' :: ']' :: rest := rfl

theorem print_array_cons (indent depth : Nat) (item : Json) (items : List Json) (rest : List Char) :
    print indent depth (.array (item :: items)) rest =
      '[' :: newline indent (depth+1) (print indent (depth+1) item
        (printItems indent (depth+1) items (newline indent depth (']' :: rest)))) := rfl

theorem print_object_nil (indent depth : Nat) (rest : List Char) :
    print indent depth (.object []) rest = '\x7b' :: '\x7d' :: rest := rfl

theorem print_object_cons (indent depth : Nat) (key : String) (value : Json)
    (fields : List (String × Json)) (rest : List Char) :
    print indent depth (.object ((key, value) :: fields)) rest =
      '\x7b' :: newline indent (depth+1) (printString key (':' :: ' ' :: print indent (depth+1) value
        (printFields indent (depth+1) fields (newline indent depth ('\x7d' :: rest))))) := rfl

theorem stops_newline (indent depth : Nat) (rest : List Char) : Stops (newline indent depth rest) := by
  rintro c ⟨⟩
  rfl

theorem stops_printItems (indent depth : Nat) (items : List Json) {rest : List Char} (h : Stops rest) :
    Stops (printItems indent depth items rest) := by
  cases items with
  | nil => exact h
  | cons item items =>
    rintro c ⟨⟩
    rfl

theorem stops_printFields (indent depth : Nat) (fields : List (String × Json)) {rest : List Char}
    (h : Stops rest) : Stops (printFields indent depth fields rest) := by
  cases fields with
  | nil => exact h
  | cons field fields =>
    rintro c ⟨⟩
    rfl

theorem isBare_of_isDigit {c : Char} (h : Text.isDigit c = true) : isBare c = true := by
  have hne (d : Char) (hd : Text.isDigit d = false) : c ≠ d := by
    intro hcd
    rw [hcd, hd] at h
    cases h
  have hmark : mark? c = none := by
    unfold mark?
    split
    case h_7 => rfl
    all_goals exact absurd rfl (hne _ rfl)
  simp [isBare, isSpace, hmark, hne ' ' rfl, hne '\t' rfl, hne '\n' rfl, hne '\r' rfl, hne '"' rfl]

theorem isBare_of_mem_decimal {digits : Int} {places : Nat} {c : Char} (h : c ∈ decimal digits places) :
    isBare c = true := by
  obtain h | rfl | rfl := mem_decimal h
  · exact isBare_of_isDigit h
  · rfl
  · rfl

theorem decimal_ne_nil (digits : Int) (places : Nat) : decimal digits places ≠ [] := by
  intro h
  have hnumber := number?_decimal digits places
  rw [h] at hnumber
  cases hnumber

mutual

theorem scanFrom_print (indent depth : Nat) : (value : Json) → (rest : List Char) → Stops rest →
    scanFrom (.outside []) (print indent depth value rest) =
      before value.lexemes (scanFrom (.outside []) rest)
  | .null, rest, h => scanFrom_word (by decide) (List.all_eq_true.mp rfl) rfl h
  | .bool true, rest, h => scanFrom_word (by decide) (List.all_eq_true.mp rfl) rfl h
  | .bool false, rest, h => scanFrom_word (by decide) (List.all_eq_true.mp rfl) rfl h
  | .number digits places, rest, h => by
    refine scanFrom_word (decimal_ne_nil digits places) (fun c => isBare_of_mem_decimal) ?_ h
    rw [bare?, number?_decimal]
  | .string s, rest, _ => scanFrom_printString s rest
  | .array [], rest, _ => by
    rw [print_array_nil, scanFrom_mark rfl rfl (by decide), scanFrom_mark rfl rfl (by decide), before_before]
    rfl
  | .array (item :: items), rest, _ => by
    rw [print_array_cons, scanFrom_mark rfl rfl (by decide), scanFrom_newline,
      scanFrom_print indent (depth+1) item _ (stops_printItems _ _ _ (stops_newline _ _ _)),
      scanFrom_printItems indent (depth+1) items _ depth]
    simp only [before_before, lexemes, arrayLexemes, List.singleton_append]
  | .object [], rest, _ => by
    rw [print_object_nil, scanFrom_mark rfl rfl (by decide), scanFrom_mark rfl rfl (by decide), before_before]
    rfl
  | .object ((key, value) :: fields), rest, _ => by
    rw [print_object_cons, scanFrom_mark rfl rfl (by decide), scanFrom_newline, scanFrom_printString,
      scanFrom_mark rfl rfl (by decide), scanFrom_space rfl,
      scanFrom_print indent (depth+1) value _ (stops_printFields _ _ _ (stops_newline _ _ _)),
      scanFrom_printFields indent (depth+1) fields _ depth]
    simp only [before_before, lexemes, objectLexemes, List.singleton_append]

theorem scanFrom_printItems (indent depth : Nat) : (items : List Json) → (rest : List Char) →
    (outer : Nat) → scanFrom (.outside [])
        (printItems indent depth items (newline indent outer (']' :: rest))) =
      before (moreItems items) (scanFrom (.outside []) rest)
  | [], rest, outer => by
    rw [printItems, scanFrom_newline, scanFrom_mark rfl rfl (by decide)]
    rfl
  | item :: items, rest, outer => by
    rw [printItems, scanFrom_mark rfl rfl (by decide), scanFrom_newline,
      scanFrom_print indent depth item _ (stops_printItems _ _ _ (stops_newline _ _ _)),
      scanFrom_printItems indent depth items rest outer]
    simp only [before_before, moreItems, List.singleton_append]

theorem scanFrom_printFields (indent depth : Nat) : (fields : List (String × Json)) →
    (rest : List Char) → (outer : Nat) → scanFrom (.outside [])
        (printFields indent depth fields (newline indent outer ('\x7d' :: rest))) =
      before (moreFields fields) (scanFrom (.outside []) rest)
  | [], rest, outer => by
    rw [printFields, scanFrom_newline, scanFrom_mark rfl rfl (by decide)]
    rfl
  | (key, value) :: fields, rest, outer => by
    rw [printFields, scanFrom_mark rfl rfl (by decide), scanFrom_newline, scanFrom_printString,
      scanFrom_mark rfl rfl (by decide), scanFrom_space rfl,
      scanFrom_print indent depth value _ (stops_printFields _ _ _ (stops_newline _ _ _)),
      scanFrom_printFields indent depth fields rest outer]
    simp only [before_before, moreFields, List.singleton_append]

end

theorem scan_dump (indent : Nat) (value : Json) : scan (value.dump indent) = some value.lexemes := by
  rw [scan, dump, String.toList_ofList, scanFrom_print indent 0 value [] (by simp [Stops])]
  simp [scanFrom, before]

/-- What is printed stands for the value that was printed, and for no other. -/
theorem standsFor_dump_iff (indent : Nat) (value other : Json) :
    StandsFor (value.dump indent) other ↔ other = value := by
  rw [StandsFor, scan_dump, Option.some.injEq]
  exact ⟨fun h => (lexemes_inj h).symm, fun h => by rw [h]⟩

end Printed

end CallCompiler.Json
