import CallCompiler.Json.Printer
import CallCompiler.Text.Digit
import Mathlib.Algebra.Group.Int.Defs

/-!
Numbers as JSON writes them: a sign, a whole part without needless zeros, a fraction and an exponent. A
printed decimal is such a number, and reads as the decimal that was printed.
-/
namespace CallCompiler.Json

section Reading

def someDigits? (cs : List Char) : Option (List Char × List Char) :=
  if (cs.takeWhile Text.isDigit).isEmpty then none
  else some (cs.takeWhile Text.isDigit, cs.dropWhile Text.isDigit)

def IsWhole (digits : List Char) : Prop := digits.head? = some '0' → digits = ['0']

instance (digits : List Char) : Decidable (IsWhole digits) := inferInstanceAs (Decidable (_ → _))

def whole? (cs : List Char) : Option (List Char × List Char) :=
  (someDigits? cs).filter fun (digits, _) => IsWhole digits

def fraction? : List Char → Option (List Char × List Char)
  | '.' :: cs => someDigits? cs
  | cs => some ([], cs)

def exponent? : List Char → Option (Int × List Char)
  | [] => some (0, [])
  | c :: cs =>
    if c = 'e' ∨ c = 'E' then
      match cs with
      | '-' :: cs => (someDigits? cs).map fun (digits, rest) => (-Text.decimal digits, rest)
      | '+' :: cs => (someDigits? cs).map fun (digits, rest) => (Text.decimal digits, rest)
      | cs => (someDigits? cs).map fun (digits, rest) => (Text.decimal digits, rest)
    else some (0, c :: cs)

/-- A number without sign: its digits, and how many of them stand after the point. -/
def magnitude? (cs : List Char) : Option (Nat × Int) := do
  let (whole, cs) ← whole? cs
  let (fraction, cs) ← fraction? cs
  let (exponent, cs) ← exponent? cs
  if cs.isEmpty then some (Text.decimal (whole ++ fraction), fraction.length - exponent) else none

def scaled (digits places : Int) : Int × Nat :=
  if 0 ≤ places then (digits, places.toNat) else (digits * 10 ^ (-places).toNat, 0)

def number? : List Char → Option (Int × Nat)
  | '-' :: cs => (magnitude? cs).map fun (n, places) => scaled (-n) places
  | cs => (magnitude? cs).map fun (n, places) => scaled n places

end Reading

section Digits

theorem isDigit_of_mem_toDigits {n : Nat} {c : Char} (h : c ∈ Nat.toDigits 10 n) :
    Text.isDigit c = true := by
  have hd := Nat.isDigit_of_mem_toDigits (by omega) (by omega) h
  rw [Char.isDigit_iff_toNat] at hd
  simpa [Text.isDigit] using hd

theorem decimal_toDigits (n : Nat) : Text.decimal (Nat.toDigits 10 n) = n :=
  Nat.ofDigitChars_ten_toDigits

theorem head?_toDigits_ne {n : Nat} (h : 0 < n) : (Nat.toDigits 10 n).head? ≠ some '0' := by
  have hdigit : ∀ d < 10, 0 < d → Nat.digitChar d ≠ '0' := by decide
  induction n using Nat.strongRecOn with
  | ind n ih =>
    by_cases hn : n < 10
    · rw [Nat.toDigits_of_lt_base hn]
      simpa using hdigit n hn h
    · have hfirst := ih (n / 10) (by omega) (by omega)
      obtain ⟨c, cs, hcs⟩ := List.exists_cons_of_ne_nil (Nat.toDigits_ne_nil (n := n / 10) (b := 10))
      rw [hcs] at hfirst
      rw [Nat.toDigits_of_base_le (by omega) (by omega), hcs]
      exact hfirst

theorem isWhole_toDigits (n : Nat) : IsWhole (Nat.toDigits 10 n) := by
  intro h
  obtain rfl | hn := Nat.eq_zero_or_pos n
  · rfl
  · exact absurd h (head?_toDigits_ne hn)

theorem IsWhole.take {digits : List Char} (h : IsWhole digits) (k : Nat) : IsWhole (digits.take (k+1)) := by
  cases digits with
  | nil => exact h
  | cons c cs =>
    intro hc
    rw [h hc]
    simp

theorem someDigits?_append {digits : List Char} (hd : ∀ c ∈ digits, Text.isDigit c = true)
    (hne : digits ≠ []) (rest : List Char) (hr : ∀ c ∈ rest.head?, Text.isDigit c = false) :
    someDigits? (digits ++ rest) = some (digits, rest) := by
  have htake : (digits ++ rest).takeWhile Text.isDigit = digits := by
    rw [List.takeWhile_append_of_pos hd]
    cases rest with
    | nil => simp
    | cons c rest => simp [hr c rfl]
  have hdrop : (digits ++ rest).dropWhile Text.isDigit = rest := by
    rw [List.dropWhile_append_of_pos hd]
    cases rest with
    | nil => rfl
    | cons c rest => simp [hr c rfl]
  rw [someDigits?, htake, hdrop, if_neg (by simpa using hne)]

theorem whole?_append {digits : List Char} (hd : ∀ c ∈ digits, Text.isDigit c = true)
    (hne : digits ≠ []) (hw : IsWhole digits) (rest : List Char)
    (hr : ∀ c ∈ rest.head?, Text.isDigit c = false) : whole? (digits ++ rest) = some (digits, rest) := by
  rw [whole?, someDigits?_append hd hne rest hr]
  simp [hw]

theorem magnitude?_whole {digits : List Char} (hd : ∀ c ∈ digits, Text.isDigit c = true)
    (hne : digits ≠ []) (hw : IsWhole digits) :
    magnitude? digits = some (Text.decimal digits, 0) := by
  have h := whole?_append hd hne hw [] (by simp)
  rw [List.append_nil] at h
  simp [magnitude?, h, fraction?, exponent?]

theorem magnitude?_point {whole fraction : List Char}
    (hd : ∀ c ∈ whole ++ fraction, Text.isDigit c = true) (hne : whole ≠ []) (hf : fraction ≠ [])
    (hw : IsWhole whole) :
    magnitude? (whole ++ '.' :: fraction) =
      some (Text.decimal (whole ++ fraction), (fraction.length : Int)) := by
  obtain ⟨hdw, hdf⟩ := List.forall_mem_append.mp hd
  have h1 := whole?_append hdw hne hw ('.' :: fraction) (by simp [Text.isDigit])
  have h2 := someDigits?_append hdf hf [] (by simp)
  rw [List.append_nil] at h2
  simp [magnitude?, h1, fraction?, h2, exponent?]

end Digits

section Printing

/-- The digits of a number, with as many zeros in front as put one digit before the point. -/
def padded (n places : Nat) : List Char :=
  List.replicate (places + 1 - (Nat.toDigits 10 n).length) '0' ++ Nat.toDigits 10 n

def wholeLength (n places : Nat) : Nat := (padded n places).length - places

def unsigned (n places : Nat) : List Char :=
  if places = 0 then Nat.toDigits 10 n
  else (padded n places).take (wholeLength n places) ++ '.' :: (padded n places).drop (wholeLength n places)

theorem decimal_eq_unsigned (digits : Int) (places : Nat) :
    decimal digits places =
      (if digits < 0 then ['-'] else []) ++ unsigned digits.natAbs places := by
  unfold decimal unsigned
  split
  · cases digits with
    | ofNat n => simp [toString, Int.repr]
    | negSucc n => simp [toString, Int.repr]
  · simp [padded, wholeLength]

theorem isDigit_of_mem_padded {n places : Nat} {c : Char} (h : c ∈ padded n places) :
    Text.isDigit c = true := by
  obtain h | h := List.mem_append.mp h
  · rw [(List.mem_replicate.mp h).2]
    rfl
  · exact isDigit_of_mem_toDigits h

theorem decimal_padded (n places : Nat) : Text.decimal (padded n places) = n := by
  have hzeros (k : Nat) : (List.replicate k '0').foldl
      (fun n c => 10 * n + (c.toNat - 0x30)) 0 = 0 := by
    induction k with
    | zero => rfl
    | succ k ih => exact ih
  rw [padded, Text.decimal, List.foldl_append, hzeros]
  exact decimal_toDigits n

theorem length_padded (n places : Nat) : places < (padded n places).length := by
  rw [padded, List.length_append, List.length_replicate]
  omega

theorem exists_wholeLength (n places : Nat) : ∃ k, wholeLength n places = k+1 := by
  have h := length_padded n places
  exact ⟨(padded n places).length - places - 1, by rw [wholeLength]; omega⟩

theorem isWhole_take_padded (n places : Nat) :
    IsWhole ((padded n places).take (wholeLength n places)) := by
  by_cases h : places < (Nat.toDigits 10 n).length
  · -- no zeros are put in front
    have hzeros : places + 1 - (Nat.toDigits 10 n).length = 0 := by omega
    have hpadded : padded n places = Nat.toDigits 10 n := by
      rw [padded, hzeros, List.replicate_zero, List.nil_append]
    obtain ⟨k, hk⟩ := exists_wholeLength n places
    rw [hpadded, hk]
    exact (isWhole_toDigits n).take k
  · -- one digit stands before the point, and it is a zero
    have hzeros : places + 1 - (Nat.toDigits 10 n).length =
        places - (Nat.toDigits 10 n).length + 1 := by omega
    have hone : wholeLength n places = 1 := by
      rw [wholeLength, padded, List.length_append, List.length_replicate]
      omega
    rw [hone, padded, hzeros, List.replicate_succ]
    exact fun _ => rfl

theorem exists_take_padded (n places : Nat) : ∃ c cs, Text.isDigit c = true ∧
    (padded n places).take (wholeLength n places) = c :: cs := by
  obtain ⟨k, hk⟩ := exists_wholeLength n places
  cases hp : padded n places with
  | nil =>
    have hlength := length_padded n places
    simp [hp] at hlength
  | cons c cs => exact ⟨c, cs.take k, isDigit_of_mem_padded (by rw [hp]; simp), by rw [hk]; rfl⟩

theorem magnitude?_unsigned (n places : Nat) :
    magnitude? (unsigned n places) = some (n, (places : Int)) := by
  unfold unsigned
  split
  · next h =>
    rw [magnitude?_whole (fun c => isDigit_of_mem_toDigits) Nat.toDigits_ne_nil (isWhole_toDigits n),
      decimal_toDigits, h]
    rfl
  · next h =>
    have hdigits : ∀ c ∈ (padded n places).take (wholeLength n places) ++
        (padded n places).drop (wholeLength n places), Text.isDigit c = true := by
      rw [List.take_append_drop]
      exact fun c => isDigit_of_mem_padded
    have hplaces : ((padded n places).drop (wholeLength n places)).length = places := by
      have hlength := length_padded n places
      rw [List.length_drop, wholeLength]
      omega
    have hfraction : (padded n places).drop (wholeLength n places) ≠ [] := by
      intro hnil
      rw [hnil] at hplaces
      exact h hplaces.symm
    obtain ⟨c, cs, -, hwhole⟩ := exists_take_padded n places
    rw [magnitude?_point hdigits (by simp [hwhole]) hfraction (isWhole_take_padded n places),
      List.take_append_drop, decimal_padded, hplaces]

theorem head?_unsigned (n places : Nat) : (unsigned n places).head? ≠ some '-' := by
  suffices h : ∃ c cs, Text.isDigit c = true ∧ unsigned n places = c :: cs by
    obtain ⟨c, cs, hc, heq⟩ := h
    rw [heq, List.head?_cons]
    rintro ⟨⟩
    cases hc
  unfold unsigned
  split
  · obtain ⟨c, cs, hcs⟩ := List.exists_cons_of_ne_nil (Nat.toDigits_ne_nil (n := n) (b := 10))
    exact ⟨c, cs, isDigit_of_mem_toDigits (by rw [hcs]; simp), hcs⟩
  · obtain ⟨c, cs, hc, hwhole⟩ := exists_take_padded n places
    exact ⟨c, _, hc, by rw [hwhole]; rfl⟩

theorem mem_decimal {digits : Int} {places : Nat} {c : Char} (h : c ∈ decimal digits places) :
    Text.isDigit c = true ∨ c = '-' ∨ c = '.' := by
  rw [decimal_eq_unsigned, unsigned] at h
  obtain h | h := List.mem_append.mp h
  · split at h
    · exact .inr (.inl (List.mem_singleton.mp h))
    · cases h
  · split at h
    · exact .inl (isDigit_of_mem_toDigits h)
    · obtain h | h := List.mem_append.mp h
      · exact .inl (isDigit_of_mem_padded (List.mem_of_mem_take h))
      · obtain rfl | h := List.mem_cons.mp h
        · exact .inr (.inr rfl)
        · exact .inl (isDigit_of_mem_padded (List.mem_of_mem_drop h))

theorem number?_of_ne {cs : List Char} (h : cs.head? ≠ some '-') :
    number? cs = (magnitude? cs).map fun (n, places) => scaled n places := by
  unfold number?
  split
  · exact absurd rfl h
  · rfl

theorem number?_decimal (digits : Int) (places : Nat) :
    number? (decimal digits places) = some (digits, places) := by
  have hscaled (n : Int) : scaled n places = (n, places) := by
    rw [scaled, if_pos (by omega), Int.toNat_natCast]
  rw [decimal_eq_unsigned]
  split
  · have hn : -(digits.natAbs : Int) = digits := by omega
    rw [List.singleton_append, number?, magnitude?_unsigned, Option.map_some]
    simp only [hn, hscaled]
  · have hn : (digits.natAbs : Int) = digits := by omega
    rw [List.nil_append, number?_of_ne (head?_unsigned _ _), magnitude?_unsigned, Option.map_some]
    simp only [hn, hscaled]

end Printing

end CallCompiler.Json
