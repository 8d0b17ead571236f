import CallCompiler.Source.Parser

/-!
The grammar of programs over lists of tokens, with the tree that it gives to each. Sequences of expressions
are gone through by their first one, with `Expressions.sequence`, so nothing below needs an induction on
single expressions beside the one on sequences.
-/
namespace CallCompiler

namespace Token

def openParen : Token := ⟨.paren, "("⟩

def closeParen : Token := ⟨.paren, ")"⟩

theorem isOpen_iff {t : Token} : t.isOpen = true ↔ t = openParen := by
  obtain ⟨kind, text⟩ := t
  simp [isOpen, openParen]

theorem isClose_iff {t : Token} : t.isClose = true ↔ t = closeParen := by
  obtain ⟨kind, text⟩ := t
  simp [isClose, closeParen]

def CallName (t : Token) : Prop := (t.kind = .name ∨ t.kind = .number) ∧ t.text ≠ ""

theorem isCallName_iff {t : Token} : t.isCallName = true ↔ t.CallName := by
  simp [isCallName, CallName]

end Token

namespace Source
open Token

mutual

/-- One expression and its tree: a number, a string, or a call with its name and its parameters between
parentheses. -/
inductive Expression : List Token → Node → Prop
  | number (text : String) : Expression [⟨.number, text⟩] (.number text)
  | string (text : String) : Expression [⟨.string, text⟩] (.string text)
  | call {name : Token} {ts : List Token} {params : List Node} : name.CallName →
      Expressions ts params →
      Expression (openParen :: name :: (ts ++ [closeParen])) (.call name.text params)

inductive Expressions : List Token → List Node → Prop
  | nil : Expressions [] []
  | cons {ts us : List Token} {node : Node} {nodes : List Node} : Expression ts node →
      Expressions us nodes → Expressions (ts ++ us) (node :: nodes)

end

inductive Literal : Token → Node → Prop
  | number (text : String) : Literal ⟨.number, text⟩ (.number text)
  | string (text : String) : Literal ⟨.string, text⟩ (.string text)

theorem Literal.expression {t : Token} {node : Node} (h : Literal t node) :
    Expression [t] node := by
  cases h with
  | number text => exact .number text
  | string text => exact .string text

theorem Literal.isOpen_eq_false {t : Token} {node : Node} (h : Literal t node) :
    t.isOpen = false := by
  cases h <;> rfl

namespace Expressions

theorem consLiteral {t : Token} {node : Node} (h : Literal t node) {ts : List Token}
    {nodes : List Node} (ht : Expressions ts nodes) : Expressions (t :: ts) (node :: nodes) :=
  .cons h.expression ht

theorem consCall {name : Token} (hn : name.CallName) {us ts : List Token}
    {params nodes : List Node} (hu : Expressions us params) (ht : Expressions ts nodes) :
    Expressions (openParen :: name :: (us ++ closeParen :: ts))
      (.call name.text params :: nodes) := by
  have h := Expressions.cons (.call hn hu) ht
  simpa using h

/-- Goes through expressions by their first one. What holds of the parameters of a call is known by the
time that the call is reached. -/
@[elab_as_elim]
theorem sequence {motive : ∀ ts nodes, Expressions ts nodes → Prop} (nil : motive [] [] .nil)
    (literal : ∀ t node ts nodes (hl : Literal t node) (h : Expressions ts nodes),
      motive ts nodes h → motive _ _ (consLiteral hl h))
    (call : ∀ name us params ts nodes (hn : CallName name) (hu : Expressions us params)
      (ht : Expressions ts nodes), motive us params hu → motive ts nodes ht →
      motive _ _ (consCall hn hu ht))
    {ts : List Token} {nodes : List Node} (h : Expressions ts nodes) : motive ts nodes h := by
  refine @Expressions.rec
    (fun us node _ => ∀ ts nodes (ht : Expressions ts nodes), motive ts nodes ht →
      ∀ h : Expressions (us ++ ts) (node :: nodes), motive (us ++ ts) (node :: nodes) h)
    motive ?_ ?_ ?_ nil ?_ ts nodes h
  · intro text ts nodes ht hm _
    exact literal _ _ ts nodes (.number text) ht hm
  · intro text ts nodes ht hm _
    exact literal _ _ ts nodes (.string text) ht hm
  · intro name us params hn hu ihu ts nodes ht hm h
    have hc := call name us params ts nodes hn hu ht ihu hm
    have he : openParen :: name :: (us ++ [closeParen]) ++ ts =
        openParen :: name :: (us ++ closeParen :: ts) := by simp
    revert h
    rw [he]
    exact fun _ => hc
  · intro us ts node nodes he ht ihe iht
    exact ihe ts nodes ht iht (.cons he ht)

theorem append {ts us : List Token} {nodes more : List Node}
    (ht : Expressions ts nodes) (hu : Expressions us more) :
    Expressions (ts ++ us) (nodes ++ more) := by
  induction ht using Expressions.sequence with
  | nil => exact hu
  | literal t node ts nodes hl _ ih => exact consLiteral hl ih
  | call name vs params ts nodes hn hv _ _ ih =>
    have hc := consCall hn hv ih
    simpa using hc

theorem concat {ts us : List Token} {nodes : List Node} {node : Node}
    (ht : Expressions ts nodes) (hu : Expression us node) :
    Expressions (ts ++ us) (nodes ++ [node]) := by
  have h1 : Expressions (us ++ []) [node] := .cons hu .nil
  rw [List.append_nil] at h1
  exact ht.append h1

end Expressions

end Source

end CallCompiler
