import CallCompiler.Proofs.JsonTexts
import CallCompiler.Proofs.Runs
import Mathlib.Data.Set.Function

/-!
Dumps of tokens and trees. A dump is plain text that stands for one JSON value, and the JSON value comes from
one list of tokens or one tree. So the output of a run that shows tokens or a tree tells what is shown.
-/
namespace CallCompiler

namespace Json

section Plain

def Plain (c : Char) : Prop := c = '\n' ∨ 0x20 ≤ c.toNat ∧ c.toNat ≤ 0x7e

instance (c : Char) : Decidable (Plain c) := inferInstanceAs (Decidable (_ ∨ _))

theorem plain_unit (n : Nat) : ∀ c ∈ unit n, Plain c := by
  have hdigit (m : Nat) : Plain (Text.hexDigit (m % 16)) := by
    have hall : ∀ d < 16, Plain (Text.hexDigit d) := by decide
    exact hall (m % 16) (by omega)
  simp only [unit_eq, List.forall_mem_cons, hdigit, true_and]
  exact ⟨by decide, by decide, by simp⟩

theorem plain_of_printed {c : Char} {text : List Char} (h : Printed c text) : ∀ d ∈ text, Plain d := by
  cases h with
  | escape _ _ h =>
    simp only [List.forall_mem_cons]
    exact ⟨by decide, .inr h, by simp⟩
  | plain _ _ h =>
    simp only [List.forall_mem_singleton]
    exact .inr h
  | unit _ => exact plain_unit _
  | pair _ =>
    rw [List.forall_mem_append]
    exact ⟨plain_unit _, plain_unit _⟩

variable {rest : List Char}

theorem plain_printString (s : String) (h : ∀ c ∈ rest, Plain c) : ∀ c ∈ printString s rest, Plain c := by
  have htext : ∀ c ∈ s.toList.flatMap stringChar, Plain c := by
    intro c hc
    obtain ⟨d, -, hd⟩ := List.mem_flatMap.mp hc
    exact plain_of_printed (printed_stringChar d) c hd
  simp only [printString, List.cons_append, List.forall_mem_cons, List.forall_mem_append]
  exact ⟨by decide, htext, by decide, h⟩

theorem plain_newline (indent depth : Nat) (h : ∀ c ∈ rest, Plain c) :
    ∀ c ∈ newline indent depth rest, Plain c := by
  simp only [newline, List.cons_append, List.forall_mem_cons, List.forall_mem_append]
  refine ⟨by decide, fun c hc => ?_, h⟩
  rw [(List.mem_replicate.mp hc).2]
  decide

theorem plain_word {word : List Char} (h : word.all (fun c => decide (Plain c)) = true) :
    ∀ c ∈ word, Plain c := by
  simpa only [List.all_eq_true, decide_eq_true_eq] using h

theorem plain_colon (h : ∀ c ∈ rest, Plain c) : ∀ c ∈ ':' :: ' ' :: rest, Plain c := by
  rw [List.forall_mem_cons, List.forall_mem_cons]
  exact ⟨by decide, by decide, h⟩

theorem plain_decimal {digits : Int} {places : Nat} {c : Char} (h : c ∈ decimal digits places) :
    Plain c := by
  obtain h | rfl | rfl := mem_decimal h
  · simp only [Text.isDigit, Bool.and_eq_true, decide_eq_true_eq] at h
    exact .inr ⟨by omega, by omega⟩
  · decide
  · decide

mutual

theorem plain_print (indent depth : Nat) : (value : Json) → (rest : List Char) →
    (∀ c ∈ rest, Plain c) → ∀ c ∈ print indent depth value rest, Plain c
  | .null, rest, h => List.forall_mem_append.mpr ⟨plain_word rfl, h⟩
  | .bool true, rest, h => List.forall_mem_append.mpr ⟨plain_word rfl, h⟩
  | .bool false, rest, h => List.forall_mem_append.mpr ⟨plain_word rfl, h⟩
  | .number digits places, rest, h => List.forall_mem_append.mpr ⟨fun _ => plain_decimal, h⟩
  | .string s, rest, h => plain_printString s h
  | .array [], rest, h => by
    rw [print_array_nil, List.forall_mem_cons, List.forall_mem_cons]
    exact ⟨by decide, by decide, h⟩
  | .array (item :: items), rest, h => by
    have hclose : ∀ c ∈ ']' :: rest, Plain c := List.forall_mem_cons.mpr ⟨by decide, h⟩
    have hitems := plain_printItems indent (depth+1) items _ (plain_newline indent depth hclose)
    have hitem := plain_print indent (depth+1) item _ hitems
    rw [print_array_cons, List.forall_mem_cons]
    exact ⟨by decide, plain_newline indent (depth+1) hitem⟩
  | .object [], rest, h => by
    rw [print_object_nil, List.forall_mem_cons, List.forall_mem_cons]
    exact ⟨by decide, by decide, h⟩
  | .object ((key, value) :: fields), rest, h => by
    have hclose : ∀ c ∈ '\x7d' :: rest, Plain c := List.forall_mem_cons.mpr ⟨by decide, h⟩
    have hfields := plain_printFields indent (depth+1) fields _ (plain_newline indent depth hclose)
    have hvalue := plain_print indent (depth+1) value _ hfields
    rw [print_object_cons, List.forall_mem_cons]
    exact ⟨by decide, plain_newline indent (depth+1) (plain_printString key (plain_colon hvalue))⟩

theorem plain_printItems (indent depth : Nat) : (items : List Json) → (rest : List Char) →
    (∀ c ∈ rest, Plain c) → ∀ c ∈ printItems indent depth items rest, Plain c
  | [], _, h => h
  | item :: items, rest, h => by
    have hitem := plain_print indent depth item _ (plain_printItems indent depth items rest h)
    rw [printItems, List.forall_mem_cons]
    exact ⟨by decide, plain_newline indent depth hitem⟩

theorem plain_printFields (indent depth : Nat) : (fields : List (String × Json)) →
    (rest : List Char) → (∀ c ∈ rest, Plain c) → ∀ c ∈ printFields indent depth fields rest, Plain c
  | [], _, h => h
  | (key, value) :: fields, rest, h => by
    have hvalue := plain_print indent depth value _ (plain_printFields indent depth fields rest h)
    rw [printFields, List.forall_mem_cons]
    exact ⟨by decide, plain_newline indent depth (plain_printString key (plain_colon hvalue))⟩

end

theorem plain_dump (indent : Nat) (value : Json) : ∀ c ∈ (value.dump indent).toList, Plain c := by
  rw [dump, String.toList_ofList]
  exact plain_print indent 0 value [] (by simp)

end Plain

theorem dump_inj {m n : Nat} {v w : Json} (h : v.dump m = w.dump n) : v = w := by
  have hv : StandsFor (w.dump n) v := h ▸ (standsFor_dump_iff m v v).mpr rfl
  exact (standsFor_dump_iff n w v).mp hv

theorem dump_ne_empty (indent : Nat) (value : Json) : value.dump indent ≠ "" := by
  intro h
  have hscan : scan "" = some value.lexemes := h ▸ scan_dump indent value
  cases value <;> cases hscan

end Json

theorem Token.toJson_injective : Function.Injective Token.toJson := by
  intro t u h
  simp only [toJson, Json.object.injEq, List.cons.injEq, Prod.mk.injEq, Json.string.injEq, true_and,
    and_true] at h
  obtain ⟨hlabel, htext⟩ := h
  have hkind : t.kind = u.kind := by
    have hsome := Kind.ofLabel?_label t.kind
    rw [hlabel, Kind.ofLabel?_label] at hsome
    exact (Option.some.inj hsome).symm
  cases t
  cases u
  rw [Token.mk.injEq]
  exact ⟨hkind, htext⟩

namespace Source.Node

mutual

/-- Every node writes its tag first, so equal forms have the same kind of node at the top. -/
theorem toJson_inj : (a b : Node) → a.known = true → b.known = true → a.toJson = b.toJson → a = b
  | .program body, b, ha, hb, h => by
    cases b with
    | program other =>
      simp only [toJson, Json.object.injEq, List.cons.injEq, Prod.mk.injEq, Json.array.injEq, true_and,
        and_true] at h
      rw [toJsons_inj body other ha hb h]
    | foreign _ => cases hb
    | call _ _ | number _ | string _ => simp [toJson, Tag.label] at h
  | .call name params, b, ha, hb, h => by
    cases b with
    | call _ other =>
      simp only [toJson, Json.object.injEq, List.cons.injEq, Prod.mk.injEq, Json.string.injEq,
        Json.array.injEq, true_and, and_true] at h
      rw [h.1, toJsons_inj params other ha hb h.2]
    | foreign _ => cases hb
    | program _ | number _ | string _ => simp [toJson, Tag.label] at h
  | .number value, b, _, hb, h => by
    cases b with
    | number _ => simpa [toJson] using h
    | foreign _ => cases hb
    | program _ | call _ _ | string _ => simp [toJson, Tag.label] at h
  | .string value, b, _, hb, h => by
    cases b with
    | string _ => simpa [toJson] using h
    | foreign _ => cases hb
    | program _ | call _ _ | number _ => simp [toJson, Tag.label] at h

theorem toJsons_inj : (as bs : List Node) → knownAll as = true → knownAll bs = true →
    toJsons as = toJsons bs → as = bs
  | [], [], _, _, _ => rfl
  | [], _ :: _, _, _, h => by cases h
  | _ :: _, [], _, _, h => by cases h
  | a :: as, b :: bs, ha, hb, h => by
    obtain ⟨ha, has⟩ := Bool.and_eq_true_iff.mp ha
    obtain ⟨hb, hbs⟩ := Bool.and_eq_true_iff.mp hb
    obtain ⟨hhead, htail⟩ := List.cons.inj h
    rw [toJson_inj a b ha hb hhead, toJsons_inj as bs has hbs htail]

end

theorem toJson_injOn : Set.InjOn toJson {tree | tree.known = true} :=
  fun a ha b hb h => toJson_inj a b ha hb h

end Source.Node

namespace Target.Node

mutual

theorem toJson_inj : (a b : Node) → a.known = true → b.known = true → a.toJson = b.toJson → a = b
  | .program body, b, ha, hb, h => by
    cases b with
    | program other =>
      simp only [toJson, Json.object.injEq, List.cons.injEq, Prod.mk.injEq, Json.array.injEq, true_and,
        and_true] at h
      rw [toJsons_inj body other ha hb h]
    | foreign _ => cases hb
    | statement _ | call _ _ | identifier _ | number _ | string _ => simp [toJson] at h
  | .statement expression, b, ha, hb, h => by
    cases b with
    | statement other =>
      simp only [toJson, Json.object.injEq, List.cons.injEq, Prod.mk.injEq, true_and, and_true] at h
      rw [toJson_inj expression other ha hb h]
    | foreign _ => cases hb
    | program _ | call _ _ | identifier _ | number _ | string _ => simp [toJson] at h
  | .call callee arguments, b, ha, hb, h => by
    cases b with
    | call called others =>
      obtain ⟨hcallee, harguments⟩ := Bool.and_eq_true_iff.mp ha
      obtain ⟨hcalled, hothers⟩ := Bool.and_eq_true_iff.mp hb
      simp only [toJson, Json.object.injEq, List.cons.injEq, Prod.mk.injEq, Json.array.injEq, true_and,
        and_true] at h
      rw [toJson_inj callee called hcallee hcalled h.1,
        toJsons_inj arguments others harguments hothers h.2]
    | foreign _ => cases hb
    | program _ | statement _ | identifier _ | number _ | string _ => simp [toJson] at h
  | .identifier name, b, _, hb, h => by
    cases b with
    | identifier _ => simpa [toJson] using h
    | foreign _ => cases hb
    | program _ | statement _ | call _ _ | number _ | string _ => simp [toJson] at h
  | .number value, b, _, hb, h => by
    cases b with
    | number _ => simpa [toJson] using h
    | foreign _ => cases hb
    | program _ | statement _ | call _ _ | identifier _ | string _ => simp [toJson] at h
  | .string value, b, _, hb, h => by
    cases b with
    | string _ => simpa [toJson] using h
    | foreign _ => cases hb
    | program _ | statement _ | call _ _ | identifier _ | number _ => simp [toJson] at h

theorem toJsons_inj : (as bs : List Node) → knownAll as = true → knownAll bs = true →
    toJsons as = toJsons bs → as = bs
  | [], [], _, _, _ => rfl
  | [], _ :: _, _, _, h => by cases h
  | _ :: _, [], _, _, h => by cases h
  | a :: as, b :: bs, ha, hb, h => by
    obtain ⟨ha, has⟩ := Bool.and_eq_true_iff.mp ha
    obtain ⟨hb, hbs⟩ := Bool.and_eq_true_iff.mp hb
    obtain ⟨hhead, htail⟩ := List.cons.inj h
    rw [toJson_inj a b ha hb hhead, toJsons_inj as bs has hbs htail]

end

theorem toJson_injOn : Set.InjOn toJson {tree | tree.known = true} :=
  fun a ha b hb h => toJson_inj a b ha hb h

end Target.Node

theorem Token.toJsons_injective : Function.Injective fun tokens : List Token =>
    Json.array (tokens.map Token.toJson) := by
  intro tokens others h
  exact (List.map_inj_right fun _ _ ht => toJson_injective ht).mp (Json.array.inj h)

namespace Engine

theorem known_of_read {source : String} {tree : Source.Node}
    (h : (Token.lex source >>= Source.parse) = .ok tree) : tree.known = true := by
  cases hl : Token.lex source with
  | error f =>
    rw [hl] at h
    cases h
  | ok tokens =>
    rw [hl] at h
    obtain ⟨body, rfl, hx⟩ := Source.expressions_of_parse h
    exact hx.known

theorem known_of_lowered {source : String} {target : Target.Node}
    (h : (Token.lex source >>= Source.parse >>= Source.Node.lower) = .ok target) :
    target.known = true := by
  cases hr : Token.lex source >>= Source.parse with
  | error f =>
    rw [hr] at h
    cases h
  | ok tree =>
    have hlower : tree.lower = .ok target := by rwa [hr] at h
    rw [Source.Node.lower_of_known (known_of_read hr)] at hlower
    cases hlower
    exact Source.Node.knownAll_emit false tree

theorem code_run (settings : Settings) (source : String) : (run settings source).code =
    (shown settings.format settings.indent source).toOption.getD "" := by
  rw [run_eq_ofOutput]
  cases shown settings.format settings.indent source <;> rfl

theorem toOption_eq_of_dump {α : Type} {json : α → Json} {good : Set α} (hjson : Set.InjOn json good)
    {m n : Nat} {x y : Except Fault α} (hx : ∀ a, x = .ok a → a ∈ good) (hy : ∀ b, y = .ok b → b ∈ good)
    (h : (x >>= fun a => pure ((json a).dump m)).toOption.getD "" =
      (y >>= fun b => pure ((json b).dump n)).toOption.getD "") :
    x.toOption = y.toOption := by
  cases x with
  | error f =>
    cases y with
    | error g => rfl
    | ok b => exact absurd h.symm (Json.dump_ne_empty n (json b))
  | ok a =>
    cases y with
    | error g => exact absurd h (Json.dump_ne_empty m (json a))
    | ok b => rw [hjson (hx a rfl) (hy b rfl) (Json.dump_inj h)]

/-- A dump is plain text and stands for one value, the one that was dumped. Different lists of tokens and
different trees have different values. So two runs with the same format, other than code, have the same
output only if they read the same tokens or come to the same tree, or both come to none. -/
theorem dumps_are_faithful :
    (∀ (indent : Nat) (value : Json), (∀ c ∈ (value.dump indent).toList, Json.Plain c) ∧
      ∀ other, Json.StandsFor (value.dump indent) other ↔ other = value) ∧
    Function.Injective (fun tokens : List Token => Json.array (tokens.map Token.toJson)) ∧
    Set.InjOn Source.Node.toJson {tree | tree.known = true} ∧
    Set.InjOn Target.Node.toJson {tree | tree.known = true} ∧
    ∀ (settings other : Settings) (s t : String), settings.format = other.format →
      (run settings s).code = (run other t).code →
      (settings.format = .tokens → (Token.lex s).toOption = (Token.lex t).toOption) ∧
      (settings.format = .ast →
        (Token.lex s >>= Source.parse).toOption = (Token.lex t >>= Source.parse).toOption) ∧
      (settings.format = .targetAst →
        (Token.lex s >>= Source.parse >>= Source.Node.lower).toOption =
          (Token.lex t >>= Source.parse >>= Source.Node.lower).toOption) := by
  refine ⟨fun indent value => ⟨Json.plain_dump indent value, Json.standsFor_dump_iff indent value⟩,
    Token.toJsons_injective, Source.Node.toJson_injOn, Target.Node.toJson_injOn, ?_⟩
  intro settings other s t hformat hcode
  rw [code_run, code_run, ← hformat] at hcode
  refine ⟨fun h => ?_, fun h => ?_, fun h => ?_⟩
  · rw [h] at hcode
    exact toOption_eq_of_dump Token.toJsons_injective.injOn (fun _ _ => trivial) (fun _ _ => trivial) hcode
  · rw [h] at hcode
    exact toOption_eq_of_dump Source.Node.toJson_injOn (fun _ => known_of_read) (fun _ => known_of_read)
      hcode
  · rw [h] at hcode
    exact toOption_eq_of_dump Target.Node.toJson_injOn (fun _ => known_of_lowered)
      (fun _ => known_of_lowered) hcode

end Engine

end CallCompiler
