import CallCompiler.Proofs.Layout
import CallCompiler.Proofs.Parsing
import CallCompiler.Text.Join

/-!
Trees and their canonical texts. A tree can be read from some text exactly if its values and names are those
of tokens and no program stands inside of it, and then it is read from its own spelling.
-/
namespace CallCompiler

namespace Source.Node

mutual

/-- Elements with the values and names that tokens have, and no program among them. -/
def Spellable : Node → Prop
  | .call name params =>
    (Token.WellFormed ⟨.name, name⟩ ∨ Token.WellFormed ⟨.number, name⟩) ∧ SpellableAll params
  | .number value => Token.WellFormed ⟨.number, value⟩
  | .string value => Token.WellFormed ⟨.string, value⟩
  | .program _ | .foreign _ => False

def SpellableAll : List Node → Prop
  | [] => True
  | node :: nodes => Spellable node ∧ SpellableAll nodes

end

def WellFormed : Node → Prop
  | .program body => SpellableAll body
  | _ => False

mutual

def spelling : Node → String
  | .program body => Text.join " " (spellings body)
  | .call name params => "(" ++ Text.join " " (name :: spellings params) ++ ")"
  | .number value => value
  | .string value => "\"" ++ value ++ "\""
  | .foreign _ => ""

def spellings : List Node → List String
  | [] => []
  | node :: nodes => spelling node :: spellings nodes

end

end Source.Node

namespace Token

theorem lex_token {t : Token} (ht : t.WellFormed) {text : String} (h : text.toList = t.spell) :
    lex text = .ok [t] := by
  have hs := lexFrom_spell ht 0 [] fun _ => rfl
  rw [List.append_nil, ← h] at hs
  simpa [lex] using hs

theorem lex_parens {inner : String} {ts : List Token} (h : lex inner = .ok ts) :
    lex ("(" ++ inner ++ ")") = .ok (openParen :: (ts ++ [closeParen])) := by
  have hclose : ∀ n, lexFrom n (.outside .none) [')'] = .ok [closeParen] := fun _ => rfl
  have ha : Apart [')'] := apart_cons (by decide) (by decide) []
  have hchars : ("(" ++ inner ++ ")").toList = '(' :: (inner.toList ++ [')']) := by simp
  rw [lex, hchars, lexFrom_paren 0 _ (.inl rfl), lexFrom_append h 1 ha, hclose]
  rfl

theorem lex_join {texts : List String} {tss : List (List Token)}
    (h : List.Forall₂ (fun text ts => lex text = .ok ts) texts tss) :
    lex (Text.join " " texts) = .ok tss.flatten := by
  induction h with
  | nil => rfl
  | @cons text ts texts tss htext hrest ih =>
    cases hrest with
    | nil => simpa using htext
    | @cons next us texts tss _ _ =>
      rw [Text.join_cons_cons, lex_append_blanks htext (by decide) (by simp [Text.isBlank]),
        lexFrom_shift ih, prepend_ok]
      rfl

end Token

namespace Source
open Token

theorem exists_callName {name : String}
    (h : Token.WellFormed ⟨.name, name⟩ ∨ Token.WellFormed ⟨.number, name⟩) :
    ∃ t : Token, t.WellFormed ∧ t.CallName ∧ t.text = name ∧ t.spell = name.toList := by
  obtain h | h := h
  · exact ⟨_, h, ⟨.inl rfl, h.1⟩, rfl, rfl⟩
  · exact ⟨_, h, ⟨.inr rfl, h.1⟩, rfl, rfl⟩

mutual

theorem Node.Spellable.exists_expression : (node : Node) → node.Spellable →
    ∃ ts, lex node.spelling = .ok ts ∧ Expression ts node
  | .call name params, ⟨hn, hp⟩ => by
    obtain ⟨tss, htexts, hx⟩ := SpellableAll.exists_expressions params hp
    obtain ⟨t, hw, hc, rfl, hs⟩ := exists_callName hn
    have hinner : lex (Text.join " " (t.text :: spellings params)) = .ok (t :: tss.flatten) :=
      lex_join (.cons (lex_token hw hs.symm) htexts)
    exact ⟨_, lex_parens hinner, .call hc hx⟩
  | .number value, hw => ⟨_, lex_token (t := ⟨.number, value⟩) hw rfl, .number value⟩
  | .string value, hw =>
    ⟨_, lex_token (t := ⟨.string, value⟩) hw (by simp [spelling, spell]), .string value⟩

theorem Node.SpellableAll.exists_expressions : (nodes : List Node) → Node.SpellableAll nodes →
    ∃ tss, List.Forall₂ (fun text ts => lex text = .ok ts) (Node.spellings nodes) tss ∧
      Expressions tss.flatten nodes
  | [], _ => ⟨[], .nil, .nil⟩
  | node :: nodes, ⟨hn, hns⟩ => by
    obtain ⟨ts, htext, hx⟩ := Spellable.exists_expression node hn
    obtain ⟨tss, htexts, hxs⟩ := SpellableAll.exists_expressions nodes hns
    exact ⟨ts :: tss, .cons htext htexts, .cons hx hxs⟩

end

theorem Expressions.spellable {ts : List Token} {nodes : List Node} (h : Expressions ts nodes)
    (hw : ∀ t ∈ ts, t.WellFormed) : Node.SpellableAll nodes := by
  induction h using Expressions.sequence with
  | nil => trivial
  | literal t node ts nodes hl _ ih =>
    have hrest := ih fun u hu => hw u (List.mem_cons_of_mem t hu)
    have ht := hw t (by simp)
    cases hl <;> exact ⟨ht, hrest⟩
  | call name us params ts nodes hn _ _ ihu iht =>
    have hparams := ihu fun u hu => hw u (by simp [hu])
    have hrest := iht fun u hu => hw u (by simp [hu])
    have hname := hw name (by simp)
    obtain ⟨kind, text⟩ := name
    obtain ⟨rfl | rfl, -⟩ := hn
    · exact ⟨⟨.inl hname, hparams⟩, hrest⟩
    · exact ⟨⟨.inr hname, hparams⟩, hrest⟩

theorem wellFormed_of_read {source : String} {tree : Node}
    (h : (lex source >>= parse) = .ok tree) : tree.WellFormed := by
  cases hl : lex source with
  | error f => simp [hl, bind, Except.bind] at h
  | ok tokens =>
    rw [hl] at h
    obtain ⟨body, rfl, hx⟩ := expressions_of_parse h
    exact hx.spellable (wellFormed_of_lex hl)

theorem read_spelling {tree : Node} (h : tree.WellFormed) :
    (lex tree.spelling >>= parse) = .ok tree := by
  cases tree with
  | program body =>
    obtain ⟨tss, htexts, hx⟩ := Node.SpellableAll.exists_expressions body h
    rw [Node.spelling, lex_join htexts]
    exact parse_of_expressions hx
  | call _ _ | number _ | string _ | foreign _ => exact h.elim

/-- The trees that can be read are exactly the well-formed ones, and these are exactly the trees that are
read back from their spelling. -/
theorem read_iff_wellFormed (tree : Node) :
    ((∃ source, (lex source >>= parse) = .ok tree) ↔ tree.WellFormed) ∧
    ((lex tree.spelling >>= parse) = .ok tree ↔ tree.WellFormed) := by
  refine ⟨⟨?_, fun h => ⟨_, read_spelling h⟩⟩, wellFormed_of_read, read_spelling⟩
  rintro ⟨source, h⟩
  exact wellFormed_of_read h

example :
    (Node.program [.call "add" [.number "2", .call "12" [.string "a )"]], .string ""]).spelling =
      "(add 2 (12 \"a )\")) \"\"" := by decide +kernel

example : (lex "(add 2 (12 \"a )\")) \"\"" >>= parse) =
    .ok (.program [.call "add" [.number "2", .call "12" [.string "a )"]], .string ""]) := by cbv

end Source

end CallCompiler
