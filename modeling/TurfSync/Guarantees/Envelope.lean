import TurfSync.Services.Envelope

/-! What the response envelope keeps. A paginated result is taken apart into its `data` and its
`meta`, so a result with a further field loses that field: the reviews of a turf lose their
average. The values that can be rebuilt from a response are exactly those with nothing beside
the two. -/

namespace TurfSync.Envelope

open Pages (PaginatedResult PageMeta)
open Pagination

/-! ### Taking apart and rebuilding -/

/-- The object with these two fields. -/
def pair (data objMeta : Value) : Value := .ofFields [("data", data), ("meta", objMeta)]

@[simp] theorem pair_data (d m : Value) : (pair d m).field? "data" = some d := rfl

@[simp] theorem pair_meta (d m : Value) : (pair d m).field? "meta" = some m := rfl

theorem pair_other (d m : Value) {k : String} (hdata : k ≠ "data") (hmeta : k ≠ "meta") :
    (pair d m).field? k = none := by
  show List.lookup k [("data", d), ("meta", m)] = none
  simp only [List.lookup_cons, beq_false_of_ne hdata, beq_false_of_ne hmeta, List.lookup_nil]

/-- The `data` and the `meta` of a response. -/
def emitted (v : Value) : Value × Option Value :=
  ((unwrap v).1, if (unwrap v).2.isUndefined then none else some (unwrap v).2)

/-- The handler's result, from the `data` and the `meta` of the response. -/
def restore : Value × Option Value → Value
  | (data, some m) => pair data m
  | (data, none) => if data.Paginated then pair data .undefined else data

/-- Nothing of the result is outside its `data` and `meta`, and its `meta` is a value; an
undefined one is told from a result without `meta` only by a `data` that has both fields. -/
def Whole (v : Value) : Prop :=
  ¬ v.Paginated ∨ (∀ k, k ≠ "data" → k ≠ "meta" → v.field? k = none) ∧
    ∃ d m, v.field? "data" = some d ∧ v.field? "meta" = some m ∧
      (m.isUndefined = false ∨ d.Paginated)

theorem emitted_of_not_paginated {v : Value} (hv : ¬ v.Paginated) : emitted v = (v, none) := by
  have hunwrap : unwrap v = (v, .undefined) := by
    unfold unwrap
    split
    · next m d hmeta hdata => exact absurd ⟨by rw [hmeta]; rfl, by rw [hdata]; rfl⟩ hv
    · rfl
  rw [emitted, hunwrap]
  rfl

theorem emitted_of_fields {v d m : Value} (hdata : v.field? "data" = some d)
    (hmeta : v.field? "meta" = some m) :
    emitted v = (d, if m.isUndefined then none else some m) := by
  have hunwrap : unwrap v = (d, m) := by rw [unwrap, hmeta, hdata]
  rw [emitted, hunwrap]

theorem Value.Paginated.fields {v : Value} (hv : v.Paginated) :
    ∃ d m, v.field? "data" = some d ∧ v.field? "meta" = some m := by
  obtain ⟨m, hm⟩ := Option.isSome_iff_exists.mp hv.1
  obtain ⟨d, hd⟩ := Option.isSome_iff_exists.mp hv.2
  exact ⟨d, m, hd, hm⟩

theorem isUndefined_iff {m : Value} : m.isUndefined = true ↔ m = .undefined := by
  cases m <;> simp [Value.isUndefined]

/-- An object with nothing beside the two fields is the pair of them. -/
theorem eq_pair_iff {v d m : Value} (hdata : v.field? "data" = some d)
    (hmeta : v.field? "meta" = some m) :
    pair d m = v ↔ ∀ k, k ≠ "data" → k ≠ "meta" → v.field? k = none := by
  constructor
  · rintro rfl k hk hk'
    exact pair_other d m hk hk'
  · intro hother
    cases v with
    | object fields =>
      refine congrArg Value.object (funext fun k => ?_)
      by_cases hk : k = "data"
      · subst hk
        exact hdata.symm
      by_cases hk' : k = "meta"
      · subst hk'
        exact hmeta.symm
      · exact (pair_other d m hk hk').trans (hother k hk hk').symm
    | _ => cases hdata

theorem whole_iff {v d m : Value} (hv : v.Paginated) (hdata : v.field? "data" = some d)
    (hmeta : v.field? "meta" = some m) :
    Whole v ↔ pair d m = v ∧ (m.isUndefined = false ∨ d.Paginated) := by
  rw [eq_pair_iff hdata hmeta]
  constructor
  · rintro (hnot | ⟨hother, d', m', hdata', hmeta', hor⟩)
    · exact absurd hv hnot
    · obtain rfl := Option.some.inj (hdata'.symm.trans hdata)
      obtain rfl := Option.some.inj (hmeta'.symm.trans hmeta)
      exact ⟨hother, hor⟩
  · rintro ⟨hother, hor⟩
    exact .inr ⟨hother, d, m, hdata, hmeta, hor⟩

theorem restore_emitted_iff (v : Value) : restore (emitted v) = v ↔ Whole v := by
  by_cases hv : v.Paginated
  · obtain ⟨d, m, hdata, hmeta⟩ := hv.fields
    rw [emitted_of_fields hdata hmeta, whole_iff hv hdata hmeta]
    cases hm : m.isUndefined with
    | false => simp [restore]
    | true =>
      obtain rfl := isUndefined_iff.mp hm
      rw [if_pos rfl, restore]
      split_ifs with hd
      · simp [hd]
      · -- `data` alone, which has no `meta`, is not the result
        have hne : d ≠ v := fun h => hd (h ▸ hv)
        simp [hd, hne]
  · rw [emitted_of_not_paginated hv, restore, if_neg hv]
    exact ⟨fun _ => .inl hv, fun _ => rfl⟩

/-- What is rebuilt has the same response. -/
theorem emitted_restore (v : Value) : emitted (restore (emitted v)) = emitted v := by
  by_cases hv : v.Paginated
  · obtain ⟨d, m, hdata, hmeta⟩ := hv.fields
    rw [emitted_of_fields hdata hmeta]
    cases hm : m.isUndefined with
    | false =>
      have hpair := emitted_of_fields (pair_data d m) (pair_meta d m)
      rw [hm] at hpair
      exact hpair
    | true =>
      rw [if_pos rfl, restore]
      split_ifs with hd
      · exact emitted_of_fields (pair_data d .undefined) (pair_meta d .undefined)
      · exact emitted_of_not_paginated hd
  · rw [emitted_of_not_paginated hv, restore, if_neg hv, emitted_of_not_paginated hv]

/-- The results that a response determines are the whole ones: `restore` rebuilds these and no
others, and any other shares its response with a whole one. -/
theorem intercept_restores (statusCode : ℕ) (requestId : Option String) (now : Time) :
    let sent (v : Value) := ((intercept statusCode requestId now v).data,
      (intercept statusCode requestId now v).responseMeta)
    (∀ v, restore (sent v) = v ↔ Whole v) ∧
    ∀ v, ¬ Whole v → ∃ w, Whole w ∧ w ≠ v ∧ sent w = sent v := by
  refine ⟨restore_emitted_iff, fun v hv => ⟨restore (emitted v), ?_, ?_, emitted_restore v⟩⟩
  · rw [← restore_emitted_iff, emitted_restore]
  · rwa [Ne, restore_emitted_iff]

/-! ### Pages and reviews -/

/-- The pages of the list endpoints have nothing to lose. -/
theorem whole_paginatedResult {T : Type} (row : T → Value) (result : PaginatedResult T) :
    Whole (PaginatedResult.toValue row result) :=
  .inr ⟨fun _ hdata hmeta => pair_other _ _ hdata hmeta, _, _, rfl, rfl, .inl rfl⟩

theorem TurfReviews.not_whole (r : TurfReviews) : ¬ Whole r.toValue := by
  rintro (hnot | ⟨hother, -⟩)
  · exact hnot ⟨rfl, rfl⟩
  · exact absurd (hother "avgRating" (by decide) (by decide)) (Option.some_ne_none _)

/-- The second page, one review long, of a turf that got five stars or one star last. -/
theorem intercept_loses_avgRating : ∃ reviews reviews' : List Review,
    let v := (ReviewService.getTurfReviews (fun _ => "") 1 ⟨some 2, some 1⟩ reviews).toValue
    let v' := (ReviewService.getTurfReviews (fun _ => "") 1 ⟨some 2, some 1⟩ reviews').toValue
    v ≠ v' ∧ (intercept 200 none 0 v).data = (intercept 200 none 0 v').data ∧
      (intercept 200 none 0 v).responseMeta = (intercept 200 none 0 v').responseMeta := by
  let old : Review := ⟨1, 7, 1, 1, 4, none, 0⟩
  refine ⟨[old, ⟨2, 8, 1, 2, 5, none, 1⟩], [old, ⟨2, 8, 1, 2, 1, none, 1⟩], ?_, ?_⟩
  · intro h
    have hfield := congrArg (·.field? "avgRating") h
    have hrating := Value.number.inj (Option.some.inj hfield)
    exact absurd hrating (by decide +kernel)
  · have hpage : (ReviewService.getTurfReviews (fun _ => "") 1 ⟨some 2, some 1⟩
          [old, ⟨2, 8, 1, 2, 5, none, 1⟩]).toPaginatedResult =
        (ReviewService.getTurfReviews (fun _ => "") 1 ⟨some 2, some 1⟩
          [old, ⟨2, 8, 1, 2, 1, none, 1⟩]).toPaginatedResult := by decide +kernel
    exact ⟨congrArg (fun r : PaginatedResult FormattedReview =>
        Value.array (r.data.map FormattedReview.toValue)) hpage,
      congrArg (fun r : PaginatedResult FormattedReview => some (PageMeta.toValue r.pageMeta)) hpage⟩

end TurfSync.Envelope
