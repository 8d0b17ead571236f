import CallCompiler.Text.Utf8
import CallCompiler.Toml.Document

/-!
Documents as bytes. A text is read back from its bytes, whatever its characters; a document that writes a
decimal number with more digits than are read has no table at all.
-/
namespace CallCompiler.Text.Utf8

theorem toNat_toUInt8 {n : Nat} (h : n < 256) : n.toUInt8.toNat = n := by
  simpa using h

section Lead

variable {n : Nat}

theorem lead?_one (h : n < 0x80) : lead? n.toUInt8 = some (0, 0, 0, n) := by
  rw [lead?, toNat_toUInt8 (by omega), if_pos h]

theorem lead?_two (h : 0xc2 ≤ n) (h' : n < 0xe0) :
    lead? n.toUInt8 = some (1, 0x80, 0xbf, n - 0xc0) := by
  rw [lead?, toNat_toUInt8 (by omega), if_neg (by omega), if_neg (by omega), if_pos h']

/-- Two bytes of three owed: the next one keeps out what fits into two bytes, and surrogates. -/
theorem lead?_three (h : 0xe0 ≤ n) (h' : n < 0xf0) :
    lead? n.toUInt8 = some (2, if n = 0xe0 then 0xa0 else 0x80, if n = 0xed then 0x9f else 0xbf,
      n - 0xe0) := by
  rw [lead?, toNat_toUInt8 (by omega), if_neg (by omega), if_neg (by omega), if_neg (by omega)]
  split
  · simp_all
  · split
    · simp_all
    · rfl

/-- Three bytes of four owed: the next one keeps out what fits into three bytes, and what is too large. -/
theorem lead?_four (h : 0xf0 ≤ n) (h' : n ≤ 0xf4) :
    lead? n.toUInt8 = some (3, if n = 0xf0 then 0x90 else 0x80, if n = 0xf4 then 0x8f else 0xbf,
      n - 0xf0) := by
  rw [lead?, toNat_toUInt8 (by omega), if_neg (by omega), if_neg (by omega), if_neg (by omega),
    if_neg (by omega), if_neg (by omega), if_neg (by omega)]
  split
  · simp_all
  · split
    · rw [if_neg (by omega)]
    · have hn : n = 0xf4 := by omega
      simp [hn]

end Lead

theorem decodeFrom_lead {b : UInt8} {owed lo hi bits : Nat}
    (h : lead? b = some (owed + 1, lo, hi, bits)) (position : Nat) (rest : List UInt8) :
    decodeFrom position none (b :: rest) =
      decodeFrom position (some ⟨[b], owed + 1, lo, hi, bits⟩) rest := by
  simp only [decodeFrom, h]

theorem decodeFrom_more {n : Nat} {p : Begun} (hn : n < 256) (h : p.lo ≤ n ∧ n ≤ p.hi)
    (ho : 1 < p.owed) (position : Nat) (rest : List UInt8) :
    decodeFrom position (some p) (n.toUInt8 :: rest) =
      decodeFrom position
        (some ⟨n.toUInt8 :: p.seen, p.owed - 1, 0x80, 0xbf, p.bits * 64 + (n - 0x80)⟩) rest := by
  simp [decodeFrom, toNat_toUInt8 hn, h, Nat.not_le.mpr ho]

theorem decodeFrom_last {n : Nat} {p : Begun} (hn : n < 256) (h : p.lo ≤ n ∧ n ≤ p.hi)
    (ho : p.owed ≤ 1) (position : Nat) (rest : List UInt8) :
    decodeFrom position (some p) (n.toUInt8 :: rest) =
      (Char.ofNat (p.bits * 64 + (n - 0x80)) :: ·) <$>
        decodeFrom (position + p.seen.length + 1) none rest := by
  simp [decodeFrom, toNat_toUInt8 hn, h, ho]

theorem decodeFrom_encodeChar (position : Nat) (c : Char) (rest : List UInt8) :
    decodeFrom position none (encodeChar c ++ rest) =
      (c :: ·) <$> decodeFrom (position + (encodeChar c).length) none rest := by
  have hvalid : c.toNat < 0xd800 ∨ 0xdfff < c.toNat ∧ c.toNat < 0x110000 := c.valid
  have hc : ∀ n, n = c.toNat → Char.ofNat n = c := by
    rintro n rfl
    exact Char.ofNat_toNat c
  simp only [encodeChar]
  -- one case for each number of bytes; that the character is valid counts only for the range of the
  -- second byte
  split
  · rename_i h
    rw [List.cons_append, List.nil_append, decodeFrom, lead?_one h]
    simp only [hc _ rfl, List.length_singleton]
  split
  · rw [List.cons_append, decodeFrom_lead (lead?_two (by omega) (by omega))]
    rw [List.cons_append, decodeFrom_last (by omega) (by simp only; omega) (Nat.le_refl 1)]
    rw [hc _ (by simp only; omega)]
    rfl
  split
  · rw [List.cons_append, decodeFrom_lead (lead?_three (by omega) (by omega))]
    rw [List.cons_append, decodeFrom_more (by omega) (by simp only; split <;> split <;> omega)
      (Nat.lt_succ_self 1)]
    rw [List.cons_append, decodeFrom_last (by omega) (by simp only; omega) (Nat.le_refl 1)]
    rw [hc _ (by simp only; omega)]
    rfl
  · rw [List.cons_append, decodeFrom_lead (lead?_four (by omega) (by omega))]
    rw [List.cons_append, decodeFrom_more (by omega) (by simp only; split <;> split <;> omega)
      (by simp)]
    rw [List.cons_append, decodeFrom_more (by omega) (by simp only; omega) (by simp)]
    rw [List.cons_append, decodeFrom_last (by omega) (by simp only; omega) (Nat.le_refl 1)]
    rw [hc _ (by simp only; omega)]
    rfl

theorem decodeFrom_flatMap_encodeChar (position : Nat) (cs : List Char) :
    decodeFrom position none (cs.flatMap encodeChar) = .ok cs := by
  induction cs generalizing position with
  | nil => rfl
  | cons c cs ih =>
    rw [List.flatMap_cons, decodeFrom_encodeChar, ih]
    rfl

theorem decode_encode (s : String) : decode (encode s) = .ok s := by
  rw [decode, encode, decodeFrom_flatMap_encodeChar]
  exact congrArg Except.ok (String.ofList_toList)

section Soundness

theorem toNat_ofNat {n : Nat} (h : n < 0xd800 ∨ 0xdfff < n ∧ n < 0x110000) : (Char.ofNat n).toNat = n := by
  have hvalid : n.isValidChar := h
  rw [Char.ofNat, dif_pos hvalid]
  rfl

theorem encodeChar_one {n : Nat} (h : n < 0x80) : encodeChar (Char.ofNat n) = [n.toUInt8] := by
  rw [encodeChar, toNat_ofNat (by omega), if_pos h]

theorem encodeChar_two {n m : Nat} (h : 0xc2 ≤ n ∧ n < 0xe0) (hm : 0x80 ≤ m ∧ m ≤ 0xbf) :
    encodeChar (Char.ofNat ((n - 0xc0) * 64 + (m - 0x80))) = [n.toUInt8, m.toUInt8] := by
  obtain ⟨v, hv⟩ : ∃ v, v = (n - 0xc0) * 64 + (m - 0x80) := ⟨_, rfl⟩
  have hfirst : 0xc0 + v / 64 = n := by omega
  have hsecond : 0x80 + v % 64 = m := by omega
  rw [← hv, encodeChar, toNat_ofNat (by omega), if_neg (by omega), if_pos (by omega), hfirst, hsecond]

theorem encodeChar_three {n m k : Nat} (h : 0xe0 ≤ n ∧ n < 0xf0)
    (hm : (if n = 0xe0 then 0xa0 else 0x80) ≤ m ∧ m ≤ if n = 0xed then 0x9f else 0xbf)
    (hk : 0x80 ≤ k ∧ k ≤ 0xbf) :
    encodeChar (Char.ofNat (((n - 0xe0) * 64 + (m - 0x80)) * 64 + (k - 0x80))) =
      [n.toUInt8, m.toUInt8, k.toUInt8] := by
  obtain ⟨v, hv⟩ : ∃ v, v = ((n - 0xe0) * 64 + (m - 0x80)) * 64 + (k - 0x80) := ⟨_, rfl⟩
  have hm80 : 0x80 ≤ m ∧ m ≤ 0xbf := by split at hm <;> split at hm <;> omega
  have hfirst : 0xe0 + v / 4096 = n := by omega
  have hsecond : 0x80 + v / 64 % 64 = m := by omega
  have hthird : 0x80 + v % 64 = k := by omega
  have hrange : 0x800 ≤ v ∧ (v < 0xd800 ∨ 0xdfff < v ∧ v < 0x10000) := by
    split at hm <;> split at hm <;> omega
  rw [← hv, encodeChar, toNat_ofNat (by omega), if_neg (by omega), if_neg (by omega),
    if_pos (by omega), hfirst, hsecond, hthird]

theorem encodeChar_four {n m k l : Nat} (h : 0xf0 ≤ n ∧ n ≤ 0xf4)
    (hm : (if n = 0xf0 then 0x90 else 0x80) ≤ m ∧ m ≤ if n = 0xf4 then 0x8f else 0xbf)
    (hk : 0x80 ≤ k ∧ k ≤ 0xbf) (hl : 0x80 ≤ l ∧ l ≤ 0xbf) :
    encodeChar (Char.ofNat ((((n - 0xf0) * 64 + (m - 0x80)) * 64 + (k - 0x80)) * 64 + (l - 0x80))) =
      [n.toUInt8, m.toUInt8, k.toUInt8, l.toUInt8] := by
  obtain ⟨v, hv⟩ : ∃ v, v = (((n - 0xf0) * 64 + (m - 0x80)) * 64 + (k - 0x80)) * 64 + (l - 0x80) :=
    ⟨_, rfl⟩
  have hm80 : 0x80 ≤ m ∧ m ≤ 0xbf := by split at hm <;> split at hm <;> omega
  have hfirst : 0xf0 + v / 262144 = n := by omega
  have hsecond : 0x80 + v / 4096 % 64 = m := by omega
  have hthird : 0x80 + v / 64 % 64 = k := by omega
  have hfourth : 0x80 + v % 64 = l := by omega
  have hrange : 0x10000 ≤ v ∧ v < 0x110000 := by
    split at hm <;> split at hm <;> omega
  rw [← hv, encodeChar, toNat_ofNat (by omega), if_neg (by omega), if_neg (by omega),
    if_neg (by omega), hfirst, hsecond, hthird, hfourth]

theorem decodeFrom_begun_eq_ok {position : Nat} {p : Begun} {bytes : List UInt8} {cs : List Char}
    (h : decodeFrom position (some p) bytes = .ok cs) :
    ∃ n rest, n < 256 ∧ bytes = n.toUInt8 :: rest ∧ p.lo ≤ n ∧ n ≤ p.hi := by
  cases bytes with
  | nil => cases h
  | cons b rest =>
    have hb : b.toNat.toUInt8 = b := by simp
    refine ⟨b.toNat, rest, b.toNat_lt, by rw [hb], ?_⟩
    rw [decodeFrom] at h
    split at h
    · next hrange => simpa using hrange
    · cases h

theorem exists_of_map_eq_ok {c : Char} {r : Except Fault (List Char)} {cs : List Char}
    (h : (c :: ·) <$> r = .ok cs) : ∃ others, cs = c :: others ∧ r = .ok others := by
  cases r with
  | error f => cases h
  | ok others => exact ⟨others, (Except.ok.inj h).symm, rfl⟩

theorem lead?_eq_none {n : Nat} (h : 0x80 ≤ n ∧ n < 0xc2 ∨ 0xf4 < n ∧ n < 256) :
    lead? n.toUInt8 = none := by
  rw [lead?, toNat_toUInt8 (by omega)]
  rw [if_neg (by omega)]
  by_cases hlow : n < 0xc2
  · rw [if_pos hlow]
  · rw [if_neg hlow, if_neg (by omega), if_neg (by omega), if_neg (by omega), if_neg (by omega),
      if_neg (by omega), if_neg (by omega), if_neg (by omega)]

theorem exists_encodeChar_of_decodeFrom {position : Nat} {bytes : List UInt8} {cs : List Char}
    (hbytes : bytes ≠ []) (h : decodeFrom position none bytes = .ok cs) :
    ∃ c rest others next, bytes = encodeChar c ++ rest ∧ cs = c :: others ∧
      decodeFrom next none rest = .ok others := by
  obtain ⟨b, rest, hcons⟩ := List.exists_cons_of_ne_nil hbytes
  obtain ⟨n, hlt, hn⟩ : ∃ n, n < 256 ∧ b = n.toUInt8 := ⟨b.toNat, b.toNat_lt, by simp⟩
  rw [hcons, hn] at h ⊢
  by_cases hone : n < 0x80
  · rw [decodeFrom, lead?_one hone] at h
    obtain ⟨others, hcs, hrest⟩ := exists_of_map_eq_ok h
    exact ⟨_, rest, others, _, by rw [encodeChar_one hone]; rfl, hcs, hrest⟩
  by_cases hbad : n < 0xc2 ∨ 0xf4 < n
  · rw [decodeFrom, lead?_eq_none (by omega)] at h
    cases h
  by_cases htwo : n < 0xe0
  · rw [decodeFrom_lead (lead?_two (by omega) htwo)] at h
    obtain ⟨m, rest, hm, hrest, hrange⟩ := decodeFrom_begun_eq_ok h
    rw [hrest, decodeFrom_last hm hrange (Nat.le_refl 1)] at h
    obtain ⟨others, hcs, hothers⟩ := exists_of_map_eq_ok h
    refine ⟨_, rest, others, _, ?_, hcs, hothers⟩
    rw [encodeChar_two ⟨by omega, htwo⟩ hrange, hrest]
    rfl
  by_cases hthree : n < 0xf0
  · rw [decodeFrom_lead (lead?_three (by omega) hthree)] at h
    obtain ⟨m, rest, hm, hrest, hrange⟩ := decodeFrom_begun_eq_ok h
    rw [hrest, decodeFrom_more hm hrange (Nat.lt_succ_self 1)] at h
    obtain ⟨k, rest', hk, hrest', hrange'⟩ := decodeFrom_begun_eq_ok h
    rw [hrest', decodeFrom_last hk hrange' (Nat.le_refl 1)] at h
    obtain ⟨others, hcs, hothers⟩ := exists_of_map_eq_ok h
    refine ⟨_, rest', others, _, ?_, hcs, hothers⟩
    rw [encodeChar_three ⟨by omega, hthree⟩ hrange hrange', hrest, hrest']
    rfl
  · rw [decodeFrom_lead (lead?_four (by omega) (by omega))] at h
    obtain ⟨m, rest, hm, hrest, hrange⟩ := decodeFrom_begun_eq_ok h
    rw [hrest, decodeFrom_more hm hrange (by simp)] at h
    obtain ⟨k, rest', hk, hrest', hrange'⟩ := decodeFrom_begun_eq_ok h
    rw [hrest', decodeFrom_more hk hrange' (by simp)] at h
    obtain ⟨l, rest'', hl, hrest'', hrange''⟩ := decodeFrom_begun_eq_ok h
    rw [hrest'', decodeFrom_last hl hrange'' (Nat.le_refl 1)] at h
    obtain ⟨others, hcs, hothers⟩ := exists_of_map_eq_ok h
    refine ⟨_, rest'', others, _, ?_, hcs, hothers⟩
    rw [encodeChar_four ⟨by omega, by omega⟩ hrange hrange' hrange'', hrest, hrest', hrest'']
    rfl

theorem eq_flatMap_of_decodeFrom {position : Nat} {bytes : List UInt8} {cs : List Char}
    (h : decodeFrom position none bytes = .ok cs) : bytes = cs.flatMap encodeChar := by
  induction cs generalizing position bytes with
  | nil =>
    cases bytes with
    | nil => rfl
    | cons b rest =>
      obtain ⟨c, rest, others, next, -, hcs, -⟩ := exists_encodeChar_of_decodeFrom (List.cons_ne_nil _ _) h
      cases hcs
  | cons c cs ih =>
    have hne : bytes ≠ [] := by
      intro hnil
      rw [hnil] at h
      cases h
    obtain ⟨d, rest, others, next, hbytes, hcs, hrest⟩ := exists_encodeChar_of_decodeFrom hne h
    obtain ⟨hd, ho⟩ := List.cons.inj hcs
    rw [← ho] at hrest
    rw [hbytes, List.flatMap_cons, hd, ih hrest]

theorem decode_eq_ok_iff {bytes : List UInt8} {s : String} : decode bytes = .ok s ↔ bytes = encode s := by
  constructor
  · intro h
    rw [decode] at h
    cases hd : decodeFrom 0 none bytes with
    | error f =>
      rw [hd] at h
      cases h
    | ok cs =>
      rw [hd] at h
      have hs : String.ofList cs = s := Except.ok.inj h
      rw [eq_flatMap_of_decodeFrom hd, encode, ← hs, String.toList_ofList]
  · intro h
    rw [h]
    exact decode_encode s

theorem eq_of_encode_eq {s t : String} (h : encode s = encode t) : s = t := by
  have hdecode := decode_eq_ok_iff.mpr h
  rw [decode_encode] at hdecode
  exact Except.ok.inj hdecode

end Soundness

end CallCompiler.Text.Utf8

namespace CallCompiler.Toml

theorem moreDigits_of_all {p : Char → Bool} (hp : p '_' = false) {ds : List Char}
    (h : ∀ d ∈ ds, p d = true) : moreDigits p ds = (ds, []) := by
  induction ds with
  | nil => rfl
  | cons d ds ih =>
    have hd : p d = true := h d List.mem_cons_self
    have hne : d ≠ '_' := fun e => by simp [e, hp] at hd
    rw [moreDigits]
    · rw [if_pos hd, ih fun d hm => h d (List.mem_cons_of_mem _ hm)]
    · intro c cs e
      exact absurd e hne

theorem skip?_eq_none {c : Char} {cs : List Char} (h : cs.head? ≠ some c) : skip? c cs = none := by
  cases cs with
  | nil => rfl
  | cons d cs =>
    have hne : c ≠ d := fun e => h (by rw [e, List.head?_cons])
    rw [skip?, if_neg hne]

theorem fixed?_rest {width lo hi n : Nat} {cs rest : List Char}
    (h : fixed? width lo hi cs = some (n, rest)) : rest = cs.drop width := by
  simp only [fixed?] at h
  split at h <;> cases h
  rfl

theorem date?_eq_none {cs : List Char} (h : (cs.drop 4).head? ≠ some '-') : date? cs = none := by
  unfold date?
  cases hf : fixed? 4 0 9999 cs with
  | none => rfl
  | some read =>
    obtain ⟨year, rest⟩ := read
    obtain rfl := fixed?_rest hf
    simp [skip?_eq_none h]

theorem time?_eq_none {cs : List Char} (h : (cs.drop 2).head? ≠ some ':') : time? cs = none := by
  unfold time?
  cases hf : fixed? 2 0 23 cs with
  | none => rfl
  | some read =>
    obtain ⟨hour, rest⟩ := read
    obtain rfl := fixed?_rest hf
    simp [skip?_eq_none h]

theorem skipGap_eq_self {cs : List Char} (hblank : ∀ rest, cs ≠ ' ' :: rest)
    (htab : ∀ rest, cs ≠ '\t' :: rest) : skipGap cs = cs := by
  cases cs with
  | nil => rfl
  | cons c rest =>
    have hgap : isGap c = false := by
      simp only [isGap, Bool.or_eq_false_iff, beq_eq_false_iff_ne]
      exact ⟨fun e => hblank rest (by rw [e]), fun e => htab rest (by rw [e])⟩
    rw [skipGap, List.dropWhile_cons_of_neg (by simp [hgap])]

structure Oversized (ds : List Char) : Prop where
  digits : ∀ d ∈ ds, Text.isDigit d = true
  first : ds.head? ≠ some '0'
  long : digitLimit < ds.length

namespace Oversized

variable {ds : List Char}

theorem head?_drop_ne (h : Oversized ds) (n : Nat) {c : Char} (hc : Text.isDigit c = false) :
    (ds.drop n).head? ≠ some c := by
  intro e
  have hd := h.digits c (List.mem_of_mem_drop (List.mem_of_mem_head? e))
  rw [hc] at hd
  cases hd

theorem ne_cons (h : Oversized ds) {c : Char} (hc : Text.isDigit c = false) (cs : List Char) :
    ds ≠ c :: cs := by
  rintro rfl
  exact h.head?_drop_ne 0 hc rfl

theorem ne_zero_cons (h : Oversized ds) (cs : List Char) : ds ≠ '0' :: cs := by
  rintro rfl
  exact h.first rfl

theorem digits?_eq (h : Oversized ds) : digits? Text.isDigit ds = some (ds, []) := by
  cases ds with
  | nil => exact absurd h.long (Nat.not_lt_zero _)
  | cons d rest =>
    have hmore : moreDigits Text.isDigit rest = (rest, []) :=
      moreDigits_of_all rfl fun d hm => h.digits d (List.mem_cons_of_mem _ hm)
    rw [digits?, if_pos (h.digits d List.mem_cons_self), hmore]

theorem decimal?_eq (h : Oversized ds) :
    decimal? ds = some (.error (.tooManyDigits ds.length), []) := by
  have hsign : sign ds = (false, ds) := by
    rw [sign]
    · exact h.ne_cons rfl
    · exact h.ne_cons rfl
  have hwhole : wholePart? ds = some (ds, []) := by
    rw [wholePart?, h.digits?_eq]
    exact h.ne_zero_cons
  have hlong : ds.length > digitLimit := h.long
  simp only [decimal?, hsign, hwhole, fractionPart, exponentPart, List.isEmpty_nil,
    Bool.not_true, if_neg Bool.false_ne_true, if_pos hlong]

theorem scalar?_eq (h : Oversized ds) :
    scalar? ds = some (.error (.tooManyDigits ds.length), []) := by
  have hdate : date? ds = none := date?_eq_none (h.head?_drop_ne 4 rfl)
  have htime : time? ds = none := time?_eq_none (h.head?_drop_ne 2 rfl)
  have hbased : based? ds = none := by
    rw [based?]
    all_goals exact fun cs => h.ne_zero_cons _
  rw [scalar?]
  · rw [instant?, hdate, htime, hbased, h.decimal?_eq]
    rfl
  · exact fun cs => h.ne_cons rfl _
  · exact fun cs => h.ne_cons rfl _

theorem value_eq (h : Oversized ds) (steps : Nat) :
    value (steps + 1) ds = .error (.tooManyDigits ds.length) := by
  have hstring : string? ds = none := by
    rw [string?]
    all_goals exact fun cs => h.ne_cons rfl _
  rw [value]
  · rw [hstring, h.scalar?_eq]
    rfl
  · exact h.ne_cons rfl
  · exact h.ne_cons rfl

theorem skipGap_eq (h : Oversized ds) : skipGap (' ' :: ds) = ds := by
  have hblank : isGap ' ' = true := rfl
  rw [skipGap, List.dropWhile_cons_of_pos hblank]
  exact skipGap_eq_self (h.ne_cons rfl) (h.ne_cons rfl)

end Oversized

section BareKey

variable {name : List Char}

theorem keyPart_bare (hname : name ≠ []) (hbare : ∀ c ∈ name, isBareKeyChar c = true)
    (rest : List Char) :
    keyPart (name ++ ' ' :: rest) = .ok (String.ofList name, ' ' :: rest) := by
  have hstop : isBareKeyChar ' ' = false := rfl
  have htake : (name ++ ' ' :: rest).takeWhile isBareKeyChar = name := by
    rw [List.takeWhile_append_of_pos hbare, List.takeWhile_cons_of_neg (by simp [hstop]),
      List.append_nil]
  have hdrop : (name ++ ' ' :: rest).dropWhile isBareKeyChar = ' ' :: rest := by
    rw [List.dropWhile_append_of_pos hbare, List.dropWhile_cons_of_neg (by simp [hstop])]
  simp [keyPart, htake, hdrop, hname]

theorem key_bare (hname : name ≠ []) (hbare : ∀ c ∈ name, isBareKeyChar c = true) (steps : Nat)
    (rest : List Char) :
    key (steps + 1) (name ++ ' ' :: '=' :: rest) = .ok ([String.ofList name], '=' :: rest) := by
  rw [key, keyPart_bare hname hbare]
  rfl

theorem bare_ne_cons (hname : name ≠ []) (hbare : ∀ c ∈ name, isBareKeyChar c = true) {b : Char}
    (hb : isBareKeyChar b = false) (rest cs : List Char) : name ++ rest ≠ b :: cs := by
  cases name with
  | nil => exact absurd rfl hname
  | cons c name =>
    intro e
    have hc := hbare c List.mem_cons_self
    rw [(List.cons.inj e).1, hb] at hc
    cases hc

theorem statement_bare (hname : name ≠ []) (hbare : ∀ c ∈ name, isBareKeyChar c = true)
    (steps : Nat) (d : Document) (rest : List Char) :
    statement steps d (skipGap (name ++ rest)) = (do
      let (k, v, cs) ← pair steps (name ++ rest)
      let d ← orMalformed (d.addPair k v)
      return (d, cs)) := by
  have hne {b : Char} (hb : isBareKeyChar b = false) (cs : List Char) : name ++ rest ≠ b :: cs :=
    bare_ne_cons hname hbare hb rest cs
  rw [skipGap_eq_self (hne rfl) (hne rfl), statement]
  · exact List.append_ne_nil_of_left_ne_nil hname rest
  · exact hne rfl
  · exact hne rfl
  · exact fun cs => hne rfl _
  · exact hne rfl

/-- A number that is too long, in the first line of a document, makes the whole document unreadable. -/
theorem parse_oversized (hname : name ≠ []) (hbare : ∀ c ∈ name, isBareKeyChar c = true)
    {ds : List Char} (h : Oversized ds) :
    parse (String.ofList (name ++ ' ' :: '=' :: ' ' :: ds)) = .error (.tooManyDigits ds.length) := by
  have hreturn : '\r' ∉ name ++ ' ' :: '=' :: ' ' :: ds := by
    simp only [List.mem_append, List.mem_cons, not_or]
    refine ⟨fun hm => ?_, by decide, by decide, by decide, fun hm => ?_⟩
    · exact absurd (hbare _ hm) (by decide)
    · exact absurd (h.digits _ hm) (by decide)
  -- the first line is read up to its value, and the fault of the value ends the document
  rw [parse, String.toList_ofList]
  simp only [Text.dropReturns_of_no_return hreturn]
  rw [readLines, statement_bare hname hbare, pair, key_bare hname hbare]
  simp only [bind, Except.bind, h.skipGap_eq, h.value_eq]

end BareKey

end CallCompiler.Toml
