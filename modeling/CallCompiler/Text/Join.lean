/-!
Texts joined with a separator between neighbours.
-/
namespace CallCompiler.Text

def join (separator : String) : List String → String
  | [] => ""
  | [s] => s
  | s :: t :: rest => s ++ separator ++ join separator (t :: rest)

@[simp] theorem join_nil (separator : String) : join separator [] = "" := rfl

@[simp] theorem join_singleton (separator s : String) : join separator [s] = s := rfl

theorem join_cons_cons (separator s t : String) (rest : List String) :
    join separator (s :: t :: rest) = s ++ separator ++ join separator (t :: rest) := rfl

theorem join_append (separator : String) {texts more : List String} (ht : texts ≠ [])
    (hm : more ≠ []) :
    join separator (texts ++ more) = join separator texts ++ separator ++ join separator more := by
  induction texts with
  | nil => exact absurd rfl ht
  | cons s texts ih =>
    cases texts with
    | nil =>
      cases more with
      | nil => exact absurd rfl hm
      | cons t more => rfl
    | cons t texts =>
      have hi := ih (by simp)
      rw [List.cons_append] at hi
      rw [List.cons_append, List.cons_append, join_cons_cons, hi, join_cons_cons]
      simp only [String.append_assoc]

theorem join_eq_empty_iff {separator : String} {texts : List String} (h : ∀ s ∈ texts, s ≠ "") :
    join separator texts = "" ↔ texts = [] := by
  cases texts with
  | nil => simp
  | cons s texts =>
    have hs : s ≠ "" := h s (by simp)
    cases texts with
    | nil => simpa using hs
    | cons t texts => simp [join_cons_cons, hs]

end CallCompiler.Text
