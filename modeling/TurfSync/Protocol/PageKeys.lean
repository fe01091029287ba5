import TurfSync.Services.Pages
import TurfSync.Text.Numerals
import TurfSync.Text.Split

/-! The keys of the lists of turfs. Their fields are joined by colons, so a key tells two
queries apart as long as no text that they filter by contains a colon. -/

namespace TurfSync.Pages

open Text

/-! ### Keys -/

theorem colon_not_mem_toString (n : ℤ) : ':' ∉ (toString n).toList :=
  not_mem_toString (by decide) (by decide) n

/-- Numbers are printed without a colon, and apart. -/
structure Platform.Prints (p : Platform) : Prop where
  plain : ∀ q, ':' ∉ (p.numberToString q).toList
  nonempty : ∀ q, p.numberToString q ≠ ""
  injective : Function.Injective p.numberToString

/-- No text that is filtered by contains a colon. -/
def QueryTurfDto.Plain (q : QueryTurfDto) : Prop :=
  ∀ text ∈ [q.city.getD "", q.search.getD "", q.availableDate.getD ""], ':' ∉ text.toList

instance (q : QueryTurfDto) : Decidable q.Plain := inferInstanceAs (Decidable (∀ text ∈ _, _))

variable {p : Platform} {q q' : QueryTurfDto}

theorem Platform.Prints.colon_not_mem_price (hp : p.Prints) (price : Option ℚ) :
    ':' ∉ (price.elim "" p.numberToString).toList := by
  cases price with
  | none => exact List.not_mem_nil
  | some m => exact hp.plain m

theorem colon_not_mem_sport (sportType : Option SportType) :
    ':' ∉ (sportType.elim "" sportName).toList := by
  cases sportType with
  | none => decide
  | some s => cases s <;> decide

theorem QueryTurfDto.Plain.fields (hq : q.Plain) (hp : p.Prints) :
    ∀ field ∈ q.keyFields p, ':' ∉ field.toList := by
  simp only [QueryTurfDto.Plain, List.forall_mem_cons] at hq
  obtain ⟨hcity, hsearch, hdate, -⟩ := hq
  simp only [QueryTurfDto.keyFields, List.forall_mem_cons]
  exact ⟨hcity, colon_not_mem_sport _, hsearch, hp.colon_not_mem_price _,
    hp.colon_not_mem_price _, hdate, colon_not_mem_toString _, colon_not_mem_toString _,
    List.forall_mem_nil _⟩

theorem toList_cacheKey (q : QueryTurfDto) : (q.cacheKey p).toList =
    "turf:list".toList ++ ":".toList ++ [':'].intercalate ((q.keyFields p).map String.toList) := by
  have hne : q.keyFields p ≠ [] := List.cons_ne_nil _ _
  rw [QueryTurfDto.cacheKey, String.intercalate_cons_of_ne_nil hne, String.toList_append,
    String.toList_append, String.toList_intercalate]
  rfl

/-- The colons of the fields of a query, one number a field. -/
def QueryTurfDto.colons (p : Platform) (q : QueryTurfDto) : List ℕ :=
  ((q.keyFields p).map String.toList).map (·.count ':')

/-- Queries that share a key share their fields, if they have their colons in the same ones. -/
theorem fields_of_colons (hcolons : q.colons p = q'.colons p) (h : q.cacheKey p = q'.cacheKey p) :
    q.keyFields p = q'.keyFields p := by
  have hlists := congrArg String.toList h
  rw [toList_cacheKey, toList_cacheKey, List.append_cancel_left_eq] at hlists
  exact List.map_injective_iff.mpr (fun _ _ => String.toList_inj.mp) (intercalate_inj hcolons hlists)

theorem fields_of_cacheKey (hfields : ∀ field ∈ q.keyFields p, ':' ∉ field.toList)
    (hfields' : ∀ field ∈ q'.keyFields p, ':' ∉ field.toList) (h : q.cacheKey p = q'.cacheKey p) :
    q.keyFields p = q'.keyFields p := by
  have hnone : ∀ q : QueryTurfDto, (∀ field ∈ q.keyFields p, ':' ∉ field.toList) →
      q.colons p = List.replicate 8 0 := fun q hq => by
    refine List.eq_replicate_iff.mpr ⟨rfl, ?_⟩
    simp only [QueryTurfDto.colons, List.map_map, List.forall_mem_map]
    exact fun field hfield => List.count_eq_zero.mpr (hq field hfield)
  exact fields_of_colons ((hnone q hfields).trans (hnone q' hfields').symm) h

theorem positiveOr_congr {d : ℕ} {n n' : Option ℤ} (h : n.getD d = n'.getD d) :
    positiveOr d n = positiveOr d n' := by
  have hsome : ∀ n : Option ℤ, positiveOr d n = positiveOr d (some (n.getD d)) := fun n => by
    cases n with
    | none =>
      simp only [positiveOr, Option.getD_none]
      split_ifs <;> simp
    | some n => rfl
  rw [hsome n, hsome n', h]

/-- The fields of a key determine what is filtered by and which page is read. -/
theorem eq_of_fields (hp : p.Prints) (hfields : q.keyFields p = q'.keyFields p) :
    q.city.getD "" = q'.city.getD "" ∧ q.sportType = q'.sportType ∧
      q.search.getD "" = q'.search.getD "" ∧ q.minPrice = q'.minPrice ∧
      q.maxPrice = q'.maxPrice ∧ q.availableDate.getD "" = q'.availableDate.getD "" ∧
      positiveOr 1 q.page = positiveOr 1 q'.page ∧
      positiveOr 10 q.limit = positiveOr 10 q'.limit := by
  have hprice : ∀ m m' : Option ℚ, m.elim "" p.numberToString = m'.elim "" p.numberToString → m = m' := by
    intro m m' hm
    cases m with
    | none =>
      cases m' with
      | none => rfl
      | some m' => exact absurd hm.symm (hp.nonempty m')
    | some m =>
      cases m' with
      | none => exact absurd hm (hp.nonempty m)
      | some m' => exact congrArg some (hp.injective hm)
  have hsport : ∀ s s' : Option SportType, s.elim "" sportName = s'.elim "" sportName → s = s' := by
    intro s s' hs
    rcases s with _ | s <;> rcases s' with _ | s'
    · rfl
    all_goals first | cases s' | skip
    all_goals first | cases s | skip
    all_goals first | rfl | exact absurd hs (by decide)
  simp only [QueryTurfDto.keyFields, List.cons.injEq] at hfields
  obtain ⟨hcity, hs, hsearch, hmin, hmax, hdate, hpage, hlimit, -⟩ := hfields
  exact ⟨hcity, hsport _ _ hs, hsearch, hprice _ _ hmin, hprice _ _ hmax, hdate,
    positiveOr_congr (toString_injective hpage), positiveOr_congr (toString_injective hlimit)⟩

/-- Queries without colons that share a key read the same page. -/
theorem args_of_cacheKey (hp : p.Prints) (hq : q.Plain) (hq' : q'.Plain)
    (h : q.cacheKey p = q'.cacheKey p) : q.args p = q'.args p := by
  obtain ⟨hcity, hsport, hsearch, hmin, hmax, hdate, hpage, hlimit⟩ :=
    eq_of_fields hp (fields_of_cacheKey (hq.fields hp) (hq'.fields hp) h)
  simp only [QueryTurfDto.args, QueryTurfDto.date, hcity, hsport, hsearch, hmin, hmax, hdate,
    hpage, hlimit]

end TurfSync.Pages
