import TurfSync.Protocol.PageKeys
import TurfSync.Services.Pagination

/-! Whether a cache key identifies its query. The key joins eight fields with colons, which a
city, a text to search for and a date may contain. A query can be read off its key up to where
those colons are: two queries with one key are the same if and only if they have as many in the
city and as many in the text. -/

namespace TurfSync.Pages

open Pagination (getPaginationParams)
open Text

/-! ### The query that is built -/

/-- `{ date: new Date(availableDate), isBooked: false }`; the date may be invalid. -/
structure SlotFilter where
  date : Option Time
  isBooked : Bool
  deriving DecidableEq, Repr

structure PriceFilter where
  gte : Option ℚ
  lte : Option ℚ
  deriving DecidableEq, Repr

/-- The filters of the columns; the texts are contained in `city` and `name`. -/
structure TurfWhereInput where
  isActive : Bool
  city : Option String
  sportType : Option SportType
  name : Option String
  pricePerHour : Option PriceFilter
  slots : Option SlotFilter
  deriving DecidableEq, Repr

structure BuiltQuery where
  whereInput : TurfWhereInput
  includeSlots : Option SlotFilter
  skip : ℕ
  take : ℕ
  deriving DecidableEq, Repr

/-- `if (text)`. -/
def nonempty (text : Option String) : Option String := text.filter (· ≠ "")

namespace QueryTurfDto

def slotFilter (p : Platform) (q : QueryTurfDto) : Option SlotFilter :=
  (nonempty q.availableDate).map fun text => ⟨p.newDate text, false⟩

def whereInput (p : Platform) (q : QueryTurfDto) : TurfWhereInput where
  isActive := true
  city := nonempty q.city
  sportType := q.sportType
  name := nonempty q.search
  pricePerHour :=
    if q.minPrice ≠ none ∨ q.maxPrice ≠ none then some ⟨q.minPrice, q.maxPrice⟩ else none
  slots := q.slotFilter p

/-- What `findAll` asks of the database. -/
def built (p : Platform) (q : QueryTurfDto) : BuiltQuery where
  whereInput := q.whereInput p
  includeSlots := q.slotFilter p
  skip := (getPaginationParams ⟨q.page, q.limit⟩).skip
  take := (getPaginationParams ⟨q.page, q.limit⟩).take

/-- The colons of a text that is filtered by. -/
def colonsIn (text : Option String) : ℕ := (text.getD "").toList.count ':'

end QueryTurfDto

open QueryTurfDto (colonsIn)

/-! ### Keys and queries -/

theorem nonempty_eq (text : Option String) :
    nonempty text = if text.getD "" = "" then none else some (text.getD "") := by
  cases text with
  | none => rfl
  | some s => simp [nonempty, Option.filter]

theorem nonempty_inj {text text' : Option String} (h : nonempty text = nonempty text') :
    text.getD "" = text'.getD "" := by
  have hgetD : ∀ text, (nonempty text).getD "" = text.getD "" := fun text => by
    rw [nonempty_eq]
    split_ifs with hempty
    · exact hempty.symm
    · rfl
  rw [← hgetD, h, hgetD]

variable {p : Platform} {q q' : QueryTurfDto}

theorem built_of_fields (hp : p.Prints) (hfields : q.keyFields p = q'.keyFields p) :
    q.built p = q'.built p := by
  obtain ⟨hcity, hsport, hsearch, hmin, hmax, hdate, hpage, hlimit⟩ := eq_of_fields hp hfields
  simp only [QueryTurfDto.built, QueryTurfDto.whereInput, QueryTurfDto.slotFilter, nonempty_eq,
    getPaginationParams, hcity, hsport, hsearch, hmin, hmax, hdate, hpage, hlimit]

/-- Only three of the fields can have colons. -/
theorem colons_eq (hp : p.Prints) (q : QueryTurfDto) : q.colons p =
    [colonsIn q.city, 0, colonsIn q.search, 0, 0, colonsIn q.availableDate, 0, 0] := by
  have hnone : ∀ s : String, ':' ∉ s.toList → s.toList.count ':' = 0 := fun s =>
    List.count_eq_zero.mpr
  have hprice : ∀ price : Option ℚ, (price.elim "" p.numberToString).toList.count ':' = 0 :=
    fun price => hnone _ (hp.colon_not_mem_price price)
  have hsport : (q.sportType.elim "" sportName).toList.count ':' = 0 :=
    hnone _ (colon_not_mem_sport q.sportType)
  simp only [QueryTurfDto.colons, QueryTurfDto.keyFields, List.map_cons, List.map_nil, hprice,
    hsport, hnone _ (colon_not_mem_toString _), colonsIn]

/-- The colons of the date are those of the key that are nowhere else. -/
theorem colons_of_key (hp : p.Prints) (h : q.cacheKey p = q'.cacheKey p)
    (hcity : colonsIn q.city = colonsIn q'.city) (hsearch : colonsIn q.search = colonsIn q'.search) :
    q.colons p = q'.colons p := by
  have hlists := congrArg String.toList h
  rw [toList_cacheKey, toList_cacheKey, List.append_cancel_left_eq] at hlists
  have hcount := congrArg (List.count ':') hlists
  rw [count_intercalate, count_intercalate] at hcount
  have hsum : (q.colons p).sum = (q'.colons p).sum := Nat.add_right_cancel hcount
  rw [colons_eq hp, colons_eq hp] at hsum ⊢
  simp only [List.sum_cons, List.sum_nil] at hsum
  rw [hcity, hsearch, show colonsIn q.availableDate = colonsIn q'.availableDate by omega]

/-- Of the queries with one key, those are the same that have their colons in the same texts. -/
theorem built_iff_colons (hp : p.Prints) (h : q.cacheKey p = q'.cacheKey p) :
    q.built p = q'.built p ↔
      colonsIn q.city = colonsIn q'.city ∧ colonsIn q.search = colonsIn q'.search := by
  constructor
  · intro hbuilt
    have hcity := nonempty_inj (congrArg (·.whereInput.city) hbuilt)
    have hsearch := nonempty_inj (congrArg (·.whereInput.name) hbuilt)
    rw [colonsIn, colonsIn, hcity, colonsIn, colonsIn, hsearch]
    exact ⟨rfl, rfl⟩
  · rintro ⟨hcity, hsearch⟩
    exact built_of_fields hp (fields_of_colons (colons_of_key hp h hcity hsearch) h)

/-! ### Two queries with one key -/

/-- Prints a fraction as numerator and denominator. -/
def fractionText (x : ℚ) : String :=
  if x.den = 1 then toString x.num else toString x.num ++ "/" ++ toString x.den

def plainPlatform : Platform where
  contains text part := text = part
  newDate _ := none
  numberToString := fractionText
  utcOffset t := t

theorem toList_fractionText (x : ℚ) : (fractionText x).toList =
    if x.den = 1 then (toString x.num).toList
    else (toString x.num).toList ++ '/' :: (toString (x.den : ℤ)).toList := by
  unfold fractionText
  split_ifs
  · rfl
  · rw [String.toList_append, String.toList_append, toString_natCast, List.append_assoc]
    rfl

theorem fractionText_injective : Function.Injective fractionText := by
  have hslash : ∀ n : ℤ, '/' ∉ (toString n).toList := not_mem_toString (by decide) (by decide)
  have hnum : ∀ n n' : ℤ, (toString n).toList = (toString n').toList → n = n' := fun n n' h =>
    toString_injective (String.toList_inj.mp h)
  have happend : ∀ (n : ℤ) (l l' : List Char), (toString n).toList ≠ l ++ '/' :: l' :=
    fun n l l' h => hslash n (h ▸ List.mem_append_right l List.mem_cons_self)
  intro x y h
  have hlists := congrArg String.toList h
  rw [toList_fractionText, toList_fractionText] at hlists
  split_ifs at hlists with hx hy hy
  · exact Rat.ext (hnum _ _ hlists) (hx.trans hy.symm)
  · exact absurd hlists (happend _ _ _)
  · exact absurd hlists.symm (happend _ _ _)
  · have hcount : ∀ n : ℤ, (toString n).toList.count '/' = 0 := fun n =>
      List.count_eq_zero.mpr (hslash n)
    obtain ⟨hnums, hdens⟩ := append_sep_inj ((hcount _).trans (hcount _).symm) hlists
    exact Rat.ext (hnum _ _ hnums) (Int.ofNat_inj.mp (hnum _ _ hdens))

theorem plainPlatform_prints : plainPlatform.Prints where
  plain x := by
    show ':' ∉ (fractionText x).toList
    rw [toList_fractionText]
    split_ifs
    · exact colon_not_mem_toString _
    · rw [List.mem_append, List.mem_cons]
      rintro (h | h | h)
      · exact colon_not_mem_toString _ h
      · exact absurd h (by decide)
      · exact colon_not_mem_toString _ h
  nonempty x := by
    show fractionText x ≠ ""
    intro h
    have hlist : _ = [] := congrArg String.toList h
    rw [toList_fractionText] at hlist
    split_ifs at hlist
    · exact toList_toString_ne_nil _ hlist
    · exact List.cons_ne_nil _ _ (List.append_eq_nil_iff.mp hlist).2
  injective := fractionText_injective

/-- A colon at the end of the city, and one at the beginning of the text to search for. -/
theorem cacheKey_collides : ∃ q q' : QueryTurfDto,
    q.cacheKey plainPlatform = q'.cacheKey plainPlatform ∧
    q.built plainPlatform ≠ q'.built plainPlatform :=
  ⟨{ city := some "dhaka:", search := some "1" }, { city := some "dhaka", search := some ":1" },
    by decide +kernel⟩

theorem built_iff_colons_dhaka :
    ¬ (({ city := some "dhaka:", search := some "1" } : QueryTurfDto).built plainPlatform =
      ({ city := some "dhaka", search := some ":1" } : QueryTurfDto).built plainPlatform) := by
  rw [built_iff_colons plainPlatform_prints (by decide +kernel)]
  decide +kernel

end TurfSync.Pages
