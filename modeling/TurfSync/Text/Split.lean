import Mathlib.Algebra.Ring.Nat
import Mathlib.Data.String.Basic

/-! Texts split at a character: the parts do not have it, a join of parts has it once between
any two, and of the parts of a join the last ones are those of its end. -/

namespace TurfSync.Text

open String

/-! ### `String.splitOn` is `List.splitOn` -/

/-- With `l` behind the part that is being read and `m` read of it, what is left is split as a
list. The positions are lengths of texts, so this is by induction on the text that is left. -/
theorem splitOnAux_of_valid (c : Char) (l m r : List Char) (acc : List String) :
    splitOnAux (ofList (l ++ m ++ r)) (ofList [c]) ⟨utf8Len l⟩ ⟨utf8Len l + utf8Len m⟩ 0 acc =
      acc.reverse ++ (List.splitOnPPrepend (· == c) r m.reverse).map ofList := by
  induction r generalizing l m acc with
  | nil =>
    have hend := (atEnd_of_valid (l ++ m) []).mpr rfl
    have hextract := extract_of_valid l m []
    rw [utf8Len_append] at hend
    rw [splitOnAux, if_pos hend, hextract]
    simp
  | cons d r ih =>
    have hend : ¬ Pos.Raw.atEnd (ofList (l ++ m ++ d :: r)) ⟨utf8Len l + utf8Len m⟩ := by
      rw [← utf8Len_append, atEnd_of_valid]
      exact List.cons_ne_nil _ _
    have hget : Pos.Raw.get (ofList (l ++ m ++ d :: r)) ⟨utf8Len l + utf8Len m⟩ = d := by
      rw [← utf8Len_append, get_of_valid]
      rfl
    have hnext : Pos.Raw.next (ofList (l ++ m ++ d :: r)) ⟨utf8Len l + utf8Len m⟩ =
        ⟨utf8Len l + utf8Len m + d.utf8Size⟩ := by
      rw [← utf8Len_append, next_of_valid]
    have hsep : Pos.Raw.get (ofList [c]) 0 = c := get_of_valid [] [c]
    have hsepNext : Pos.Raw.next (ofList [c]) 0 = ⟨c.utf8Size⟩ := by
      simpa using next_of_valid [] c []
    rw [splitOnAux, if_neg hend, hget, hsep, hnext, hsepNext]
    by_cases hd : d = c
    · subst hd
      have hsepEnd : Pos.Raw.atEnd (ofList [d]) ⟨d.utf8Size⟩ := by
        simpa using (atEnd_of_valid [d] []).mpr rfl
      have hback : Pos.Raw.unoffsetBy ⟨utf8Len l + utf8Len m + d.utf8Size⟩ ⟨d.utf8Size⟩ =
          ⟨utf8Len l + utf8Len m⟩ := by
        simp [Pos.Raw.unoffsetBy]
      have hrest := ih (l ++ m ++ [d]) [] (ofList m :: acc)
      rw [if_pos (beq_self_eq_true d)]
      dsimp only
      rw [if_pos hsepEnd, hback, extract_of_valid l m (d :: r)]
      simpa [List.splitOnPPrepend_cons_eq_if, Nat.add_assoc] using hrest
    · have hrest := ih l (m ++ [d]) acc
      have hback : Pos.Raw.unoffsetBy ⟨utf8Len l + utf8Len m⟩ 0 = ⟨utf8Len l + utf8Len m⟩ := rfl
      rw [if_neg (by simpa using hd), hback, hnext]
      simpa [List.splitOnPPrepend_cons_eq_if, hd, Nat.add_assoc] using hrest

theorem splitOn_eq (s : String) (c : Char) :
    s.splitOn (ofList [c]) = (s.toList.splitOn c).map ofList := by
  have hne : (ofList [c] == "") = false := beq_false_of_ne (by simp)
  rw [splitOn, hne]
  simpa [List.splitOn_eq_splitOnP] using splitOnAux_of_valid c [] [] s.toList []

/-! ### Parts -/

variable {T : Type} [DecidableEq T] {sep : T}

theorem not_mem_of_mem_splitOn (xs : List T) : ∀ part ∈ xs.splitOn sep, sep ∉ part := by
  induction xs with
  | nil => simp
  | cons x xs ih =>
    rw [List.splitOn_cons_eq_if_modifyHead]
    split_ifs with hx
    · exact List.forall_mem_cons.mpr ⟨List.not_mem_nil, ih⟩
    · obtain ⟨part, parts, hparts⟩ := List.exists_cons_of_ne_nil (List.splitOn_ne_nil sep xs)
      rw [hparts] at ih ⊢
      obtain ⟨hpart, hrest⟩ := List.forall_mem_cons.mp ih
      refine List.forall_mem_cons.mpr ⟨?_, hrest⟩
      intro hmem
      rcases List.mem_cons.mp hmem with rfl | hmem
      · exact hx (beq_self_eq_true _)
      · exact hpart hmem

/-! ### Joins -/

/-- A join has the separators of its parts, and one between any two. -/
theorem count_intercalate (parts : List (List T)) : ([sep].intercalate parts).count sep =
    (parts.map (·.count sep)).sum + (parts.length - 1) := by
  induction parts with
  | nil => rfl
  | cons part parts ih =>
    cases parts with
    | nil => simp
    | cons next parts =>
      rw [List.intercalate_cons_cons, List.count_append, List.count_append, ih,
        List.count_singleton_self]
      simp only [List.map_cons, List.sum_cons, List.length_cons]
      omega

/-- Two texts that go on after a separator are the same up to it, if they have as many. -/
theorem append_sep_inj {xs ys rest rest' : List T} (hcount : xs.count sep = ys.count sep)
    (h : xs ++ sep :: rest = ys ++ sep :: rest') : xs = ys ∧ rest = rest' := by
  -- one of the two reaches further, and then it has the separator of the other
  have hreach : ∀ {xs ys rest rest' more : List T}, xs.count sep = ys.count sep →
      ys = xs ++ more → sep :: rest = more ++ sep :: rest' → more = [] := by
    intro xs ys rest rest' more hcount hys hrest
    cases more with
    | nil => rfl
    | cons x more =>
      obtain ⟨rfl, -⟩ := List.cons.inj hrest
      rw [hys, List.count_append, List.count_cons_self] at hcount
      omega
  rcases List.append_eq_append_iff.mp h with ⟨more, hys, hrest⟩ | ⟨more, hxs, hrest⟩
  · obtain rfl := hreach hcount hys hrest
    exact ⟨by simpa using hys.symm, by simpa using hrest⟩
  · obtain rfl := hreach hcount.symm hxs hrest
    exact ⟨by simpa using hxs, by simpa using hrest.symm⟩

/-- A join and the number of separators in each part give the parts. -/
theorem intercalate_inj {xs ys : List (List T)}
    (hcounts : xs.map (·.count sep) = ys.map (·.count sep))
    (h : [sep].intercalate xs = [sep].intercalate ys) : xs = ys := by
  induction xs generalizing ys with
  | nil => exact (List.map_eq_nil_iff.mp hcounts.symm).symm
  | cons x xs ih =>
    cases ys with
    | nil => cases hcounts
    | cons y ys =>
      rw [List.map_cons, List.map_cons, List.cons.injEq] at hcounts
      obtain ⟨hcount, hcounts⟩ := hcounts
      cases xs with
      | nil =>
        obtain rfl := List.map_eq_nil_iff.mp hcounts.symm
        simpa using h
      | cons x' xs =>
        cases ys with
        | nil => cases hcounts
        | cons y' ys =>
          rw [List.intercalate_cons_cons, List.intercalate_cons_cons, List.append_assoc,
            List.append_assoc, List.singleton_append, List.singleton_append] at h
          obtain ⟨rfl, hrest⟩ := append_sep_inj hcount h
          rw [ih hcounts hrest]

end TurfSync.Text
