import Mathlib.Data.List.Infix
import Mathlib.Data.String.Basic

/-! Glob patterns: `*` stands for any text, `?` for one character, a backslash takes the next
character as it is. Classes in brackets are left out. A plain text followed by `*` matches
the texts that begin with it. -/

namespace TurfSync.Text

/-- The pattern matches the whole text. -/
def glob : List Char → List Char → Bool
  | [], text => text.isEmpty
  | '*' :: pattern, text => text.tails.any (glob pattern)
  | '?' :: pattern, text => match text with
    | [] => false
    | _ :: text => glob pattern text
  | '\\' :: c :: pattern, text => match text with
    | [] => false
    | d :: text => c = d && glob pattern text
  | c :: pattern, text => match text with
    | [] => false
    | d :: text => c = d && glob pattern text

/-- The character stands for itself in a pattern. -/
def Literal (c : Char) : Prop := c ≠ '*' ∧ c ≠ '?' ∧ c ≠ '[' ∧ c ≠ '\\'

instance : DecidablePred Literal := fun _ => inferInstanceAs (Decidable (_ ∧ _))

/-- Every character stands for itself. -/
def Plain (text : List Char) : Prop := ∀ c ∈ text, Literal c

instance (text : List Char) : Decidable (Plain text) :=
  decidable_of_iff (text.all (Literal ·) = true) (by simp [Plain])

theorem Plain.append {xs ys : List Char} (hxs : Plain xs) (hys : Plain ys) : Plain (xs ++ ys) := by
  intro c hc
  rcases List.mem_append.mp hc with hc | hc
  · exact hxs c hc
  · exact hys c hc

@[simp] theorem glob_nil (text : List Char) : glob [] text = text.isEmpty := by rw [glob]

@[simp] theorem glob_star (pattern text : List Char) :
    glob ('*' :: pattern) text = text.tails.any (glob pattern) := by rw [glob]

theorem glob_cons_nil {c : Char} {pattern : List Char} (hc : Literal c) :
    glob (c :: pattern) [] = false := by
  obtain ⟨hstar, hone, -, hescape⟩ := hc
  rw [glob] <;> simp_all

theorem glob_cons {c d : Char} {pattern text : List Char} (hc : Literal c) :
    glob (c :: pattern) (d :: text) = (decide (c = d) && glob pattern text) := by
  obtain ⟨hstar, hone, -, hescape⟩ := hc
  rw [glob] <;> simp_all

/-- A star at the end matches every rest. -/
theorem glob_append_star {p text : List Char} (hp : Plain p) :
    glob (p ++ ['*']) text = true ↔ p <+: text := by
  induction p generalizing text with
  | nil =>
    simp only [List.nil_append, glob_star, List.any_eq_true, List.nil_prefix, iff_true]
    exact ⟨[], (List.mem_tails ..).mpr (List.nil_suffix ..), rfl⟩
  | cons c p ih =>
    have hc := hp c List.mem_cons_self
    have hplain : Plain p := fun d hd => hp d (List.mem_cons_of_mem c hd)
    cases text with
    | nil => simp [glob_cons_nil hc]
    | cons d text =>
      rw [List.cons_append, glob_cons hc, List.cons_prefix_cons, ← ih hplain]
      simp

end TurfSync.Text
