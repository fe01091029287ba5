import Mathlib.Data.List.TakeWhile
import TurfSync.Services.RefreshRequest

/-! The refresh token that passport verifies against the one that is looked up. Both come
from the cookie or the body where these have one. In the header, passport takes the second
word, and `validate` everything after seven characters; these are the same exactly when
the header has one white space character, a blank. -/

namespace TurfSync.RefreshRequest

open Accounts (JwtPayload)
open ExtractJwt JwtRefreshStrategy

/-! ### Two words -/

/-- The first two words of a header, with what stands around them. -/
structure Words (hdr scheme value before between after : List Char) : Prop where
  eq : hdr = before ++ (scheme ++ (between ++ (value ++ after)))
  spaces : ∀ c ∈ before ++ between, isSpace c
  words : ∀ c ∈ scheme ++ value, isSpace c = false
  separated : between ≠ []
  nonempty : value ≠ []
  ends : ∀ c, after.head? = some c → isSpace c

theorem isSpace_of_mem_takeWhile {c : Char} {s : List Char} (h : c ∈ s.takeWhile isSpace) :
    isSpace c := List.mem_takeWhile_imp h

theorem not_isSpace_of_mem_takeWhile {c : Char} {s : List Char} (h : c ∈ s.takeWhile notSpace) :
    isSpace c = false := by
  simpa [notSpace] using List.mem_takeWhile_imp h

theorem isSpace_head_dropWhile {c : Char} {s : List Char}
    (h : (s.dropWhile notSpace).head? = some c) : isSpace c := by
  have hfails := List.head?_dropWhile_not notSpace s
  rw [h] at hfails
  simpa [notSpace] using hfails

theorem words_of_parse {hdr scheme value : List Char}
    (h : parseAuthHeader hdr = some (scheme, value)) :
    ∃ before between after, Words hdr scheme value before between after := by
  unfold parseAuthHeader at h
  dsimp only at h
  split_ifs at h with hempty
  obtain ⟨hscheme, hvalue⟩ := Prod.mk.inj (Option.some.inj h)
  obtain ⟨-, hne⟩ := not_or.mp hempty
  generalize hstart : hdr.dropWhile isSpace = start at *
  generalize hrest : start.dropWhile notSpace = rest at *
  generalize hlast : rest.dropWhile isSpace = last at *
  refine ⟨hdr.takeWhile isSpace, rest.takeWhile isSpace, last.dropWhile notSpace, ?_, ?_, ?_, ?_,
    hvalue ▸ hne, fun c => isSpace_head_dropWhile⟩
  · rw [← hscheme, ← hvalue, List.takeWhile_append_dropWhile, ← hlast,
      List.takeWhile_append_dropWhile, ← hrest, List.takeWhile_append_dropWhile, ← hstart,
      List.takeWhile_append_dropWhile]
  · intro c hc
    exact (List.mem_append.mp hc).elim isSpace_of_mem_takeWhile isSpace_of_mem_takeWhile
  · rw [← hscheme, ← hvalue]
    intro c hc
    exact (List.mem_append.mp hc).elim not_isSpace_of_mem_takeWhile not_isSpace_of_mem_takeWhile
  · -- a value right behind the scheme would be part of it
    intro hnone
    have hsame : rest = last := by
      rw [← hlast]
      simpa [hnone] using (List.takeWhile_append_dropWhile (p := isSpace) (l := rest)).symm
    obtain ⟨c, cs, hc⟩ := List.exists_cons_of_ne_nil hne
    have hfirst : (start.dropWhile notSpace).head? = some c := by
      rw [hrest, hsame]
      cases last with
      | nil => simp at hc
      | cons d ds =>
        rw [List.takeWhile_cons] at hc
        split_ifs at hc
        · rw [(List.cons.inj hc).1]
          rfl
    have hspace := isSpace_head_dropWhile hfirst
    have hnot : isSpace c = false := not_isSpace_of_mem_takeWhile (hc ▸ List.mem_cons_self)
    rw [hspace] at hnot
    cases hnot

namespace Words

variable {hdr scheme value before between after : List Char}

theorem filter_isSpace (h : Words hdr scheme value before between after) :
    hdr.filter isSpace = before ++ (between ++ after.filter isSpace) := by
  have hnone : ∀ s : List Char, (∀ c ∈ s, isSpace c = false) → s.filter isSpace = [] :=
    fun s hs => List.filter_eq_nil_iff.mpr fun c hc => by simp [hs c hc]
  rw [h.eq, List.filter_append, List.filter_append, List.filter_append, List.filter_append,
    List.filter_eq_self.mpr fun c hc => h.spaces c (List.mem_append_left _ hc),
    List.filter_eq_self.mpr fun c hc => h.spaces c (List.mem_append_right _ hc),
    hnone scheme fun c hc => h.words c (List.mem_append_left _ hc),
    hnone value fun c hc => h.words c (List.mem_append_right _ hc)]
  rfl

/-- With one white space character, the header is the two words and a blank. -/
theorem eq_of_single (h : Words hdr scheme value before between after)
    (hone : hdr.filter isSpace = [' ']) : hdr = scheme ++ ' ' :: value := by
  rw [h.filter_isSpace] at hone
  have hlength := congrArg List.length hone
  simp only [List.length_append, List.length_singleton] at hlength
  have hpos := List.length_pos_of_ne_nil h.separated
  obtain rfl : before = [] := List.eq_nil_of_length_eq_zero (by omega)
  have hafter : after.filter isSpace = [] := List.eq_nil_of_length_eq_zero (by omega)
  obtain rfl : after = [] := by
    cases after with
    | nil => rfl
    | cons c cs =>
      have hc : isSpace c = true := h.ends c rfl
      simp [hc] at hafter
  obtain rfl : between = [' '] := by simpa using hone
  simpa using h.eq

end Words

/-! ### Lower case -/

theorem isSpace_toLower (c : Char) : isSpace c.toLower = isSpace c := by
  by_cases h : c.val ≥ 'A'.val ∧ c.val ≤ 'Z'.val
  · have hupper : whiteSpace.all fun d => ¬ (d.val ≥ 'A'.val ∧ d.val ≤ 'Z'.val) := by decide
    have hlower : whiteSpace.all fun d => ¬ (d.val ≥ 'a'.val ∧ d.val ≤ 'z'.val) := by decide
    have hletter : c.toLower.val ≥ 'a'.val ∧ c.toLower.val ≤ 'z'.val := by
      rw [show c.toLower = _ from dif_pos h]
      grind [UInt32.le_iff_toNat_le, UInt32.toNat_add]
    have hc : ¬ isSpace c := fun hc =>
      of_decide_eq_true (List.all_eq_true.mp hupper c (of_decide_eq_true hc)) h
    have hl : ¬ isSpace c.toLower := fun hl =>
      of_decide_eq_true (List.all_eq_true.mp hlower _ (of_decide_eq_true hl)) hletter
    rw [Bool.eq_false_iff.mpr hc, Bool.eq_false_iff.mpr hl]
  · rw [show c.toLower = c from dif_neg h]

theorem toLower_of_isSpace {c : Char} (h : isSpace c) : c.toLower = c := by
  have hall : whiteSpace.all fun d => d.toLower = d := by decide
  exact of_decide_eq_true (List.all_eq_true.mp hall c (of_decide_eq_true h))

/-- Lower case leaves the white space as it is. -/
theorem filter_toLowerCase (s : List Char) :
    (toLowerCase s).filter isSpace = s.filter isSpace := by
  induction s with
  | nil => rfl
  | cons c s ih =>
    have hcons : toLowerCase (c :: s) = c.toLower :: toLowerCase s := rfl
    rw [hcons, List.filter_cons, List.filter_cons, isSpace_toLower, ih]
    split_ifs with hc
    · rw [toLower_of_isSpace hc]
    · rfl

/-! ### The header -/

/-- Where passport takes a token out of the header, `validate` takes the same one exactly
if the header has one white space character, a blank. -/
theorem afterBearer_iff {hdr : String} {scheme value : List Char}
    (h : parseAuthHeader hdr.toList = some (scheme, value))
    (hbearer : toLowerCase scheme = "bearer".toList) :
    afterBearer hdr = some (.str (String.ofList value)) ↔ hdr.toList.filter isSpace = [' '] := by
  obtain ⟨before, between, after, hwords⟩ := words_of_parse h
  constructor
  · intro htoken
    unfold afterBearer at htoken
    split_ifs at htoken with hprefix
    have hdrop : hdr.toList.drop 7 = value := by
      simpa using congrArg String.toList (Json.str.inj (Option.some.inj htoken))
    obtain ⟨rest, hrest⟩ := hprefix.2
    have hfirst : toLowerCase (hdr.toList.take 7) = "bearer ".toList := by
      rw [toLowerCase, List.map_take, ← toLowerCase, ← hrest]
      rfl
    have hnone : value.filter isSpace = [] := List.filter_eq_nil_iff.mpr fun c hc => by
      simp [hwords.words c (List.mem_append_right _ hc)]
    rw [← List.take_append_drop 7 hdr.toList, List.filter_append, hdrop, hnone, List.append_nil,
      ← filter_toLowerCase, hfirst]
    decide
  · intro hone
    have heq := hwords.eq_of_single hone
    have hlength : scheme.length = 6 := by
      have hmap := congrArg List.length hbearer
      simpa [toLowerCase] using hmap
    have hne : hdr ≠ "" := by
      rintro rfl
      simp at heq
    have hprefix : "bearer ".toList <+: toLowerCase hdr.toList := by
      refine ⟨toLowerCase value, ?_⟩
      have hmap : toLowerCase hdr.toList = toLowerCase scheme ++ ' ' :: toLowerCase value := by
        rw [heq]
        simp [toLowerCase]
      rw [hmap, hbearer]
      rfl
    have hdrop : hdr.toList.drop 7 = value := by
      rw [heq, List.drop_append, hlength, List.drop_eq_nil_of_le (by omega)]
      rfl
    rw [afterBearer, if_pos ⟨hne, hprefix⟩, hdrop]

/-! ### Requests -/

theorem orNull_eq_some {value : Option Json} {v : Json} (h : orNull value = some v) :
    value = some v ∧ v.truthy = true := by
  obtain ⟨rfl, hv⟩ := Option.filter_eq_some_iff.mp h
  exact ⟨rfl, hv⟩

theorem orNull_of_truthy {v : Json} (h : v.truthy = true) : orNull (some v) = some v :=
  Option.filter_eq_some_iff.mpr ⟨rfl, h⟩

theorem either_some {value other : Option Json} {v : Json} (h : orNull value = some v) :
    either value other = some v := by
  rw [either, h]
  rfl

theorem either_none {value other : Option Json} (h : orNull value = none) :
    either value other = other := by
  rw [either, h]
  rfl

theorem orNull_either {v : Json} (h : v.truthy = true) (other : Option Json) :
    orNull (either (some v) other) = some v := by
  rw [either_some (orNull_of_truthy h), orNull_of_truthy h]

/-- What `validate` makes of the value it has found. -/
theorem refreshToken_ok {req : Request} {found : Option Json} {token : String}
    (h : either (either (orNull (req.cookies.lookup "refresh_token"))
      (orNull (req.body.lookup "refreshToken"))) (req.authorization.bind afterBearer) = found) :
    refreshToken req = .ok token ↔ orNull found = some (.str token) := by
  rw [refreshToken, h]
  cases orNull found with
  | none => simp
  | some v => cases v <;> simp

/-- A token in the cookie or in the body, or a header whose only white space is a blank. -/
def Request.Plain (req : Request) : Prop :=
  (orNull (req.cookies.lookup "refresh_token")).isSome ∨
    (orNull (req.body.lookup "refreshToken")).isSome ∨
    ∃ hdr ∈ req.authorization, hdr.toList.filter isSpace = [' ']

instance (req : Request) : Decidable req.Plain :=
  inferInstanceAs (Decidable (_ ∨ _ ∨ ∃ hdr ∈ req.authorization, _))

/-- A header token of passport. -/
theorem fromAuthHeader_eq_some {req : Request} {v : Json}
    (h : fromAuthHeaderAsBearerToken req = some v) :
    ∃ hdr scheme value, req.authorization = some hdr ∧
      parseAuthHeader hdr.toList = some (scheme, value) ∧
      toLowerCase scheme = "bearer".toList ∧ v = .str (String.ofList value) := by
  obtain ⟨hdr, hhdr, h⟩ := Option.bind_eq_some_iff.mp h
  obtain ⟨⟨scheme, value⟩, hparse, h⟩ := Option.bind_eq_some_iff.mp h
  dsimp only at h
  split_ifs at h with hbearer
  exact ⟨hdr, scheme, value, hhdr, hparse, hbearer, (Option.some.inj h).symm⟩

theorem truthy_of_parse {hdr scheme value : List Char}
    (h : parseAuthHeader hdr = some (scheme, value)) :
    (Json.str (String.ofList value)).truthy = true := by
  obtain ⟨before, between, after, hwords⟩ := words_of_parse h
  simpa [Json.truthy] using hwords.nonempty

/-- The token of a request that passport lets through. -/
theorem jwtFromRequest_of_authenticate {verify : String → Option JwtPayload} {req : Request}
    {token : String} {payload : JwtPayload} (h : authenticate verify req = some (token, payload)) :
    jwtFromRequest req = some (.str token) := by
  unfold authenticate at h
  split at h
  · rename_i token' htoken
    obtain ⟨payload', -, hpair⟩ := Option.map_eq_some_iff.mp h
    rw [htoken, (Prod.mk.inj hpair).1]
  · cases h

theorem refreshToken_iff {req : Request} {token : String}
    (hverified : jwtFromRequest req = some (.str token)) :
    refreshToken req = .ok token ↔ req.Plain := by
  have hfield : fromBodyField "refreshToken" req = req.body.lookup "refreshToken" := rfl
  unfold jwtFromRequest at hverified
  rw [hfield] at hverified
  cases hcookie : orNull (req.cookies.lookup "refresh_token") with
  | some v =>
    have hv := (orNull_eq_some hcookie).2
    rw [hcookie, either_some (orNull_either hv _)] at hverified
    rw [refreshToken_ok (by rw [hcookie, either_some (orNull_either hv _)]), orNull_of_truthy hv]
    exact iff_of_true hverified (.inl (by rw [hcookie]; rfl))
  | none =>
    rw [hcookie, @either_none none _ rfl] at hverified
    cases hbody : orNull (req.body.lookup "refreshToken") with
    | some v =>
      have hsome := orNull_of_truthy (orNull_eq_some hbody).2
      rw [either_some hbody] at hverified
      rw [refreshToken_ok (by rw [hcookie, hbody, @either_none none _ rfl,
        either_some hsome]), hsome]
      exact iff_of_true hverified (.inr (.inl (by rw [hbody]; rfl)))
    | none =>
      rw [either_none hbody] at hverified
      obtain ⟨hdr, scheme, value, hhdr, hparse, hbearer, htoken⟩ := fromAuthHeader_eq_some hverified
      rw [refreshToken_ok (by rw [hcookie, hbody, @either_none none _ rfl,
        @either_none none _ rfl, hhdr, Option.bind_some])]
      have hplain : req.Plain ↔ hdr.toList.filter isSpace = [' '] := by
        simp [Request.Plain, hcookie, hbody, hhdr]
      rw [hplain, ← afterBearer_iff hparse hbearer, htoken]
      constructor
      · exact fun hnull => (orNull_eq_some hnull).1
      · intro hafter
        rw [hafter, orNull_of_truthy (truthy_of_parse hparse)]

/-- For every request that passport lets through, the token that is hashed is the one that
was verified exactly if the request is plain; and then its hash is looked up. -/
theorem verified_looked_up {verify : String → Option JwtPayload} {sha256 : String → String}
    {req : Request} {token : String} {payload : JwtPayload}
    (h : authenticate verify req = some (token, payload)) :
    (refreshToken req = .ok token ↔ req.Plain) ∧
      (req.Plain → lookupKey sha256 req = .ok (sha256 token)) := by
  have hiff := refreshToken_iff (jwtFromRequest_of_authenticate h)
  refine ⟨hiff, fun hplain => ?_⟩
  rw [lookupKey, hiff.mpr hplain]
  rfl

/-- One token is signed. -/
def signed (token : String) : Option JwtPayload :=
  if token = "head.body.sign" then some ⟨7, "user@mail.com", .USER⟩ else none

/-- The hash of that token. -/
def digest (token : String) : String :=
  if token = "head.body.sign" then
    "acd1cae43492ec9c5b96d6ab6ea852bb9c45d3532091b2cc82b76919fa3977b6"
  else ""

/-- One blank, and the scheme in upper case. -/
theorem verified_looked_up_header :
    let req : Request := ⟨[], [], some "BEARER head.body.sign"⟩
    (refreshToken req = .ok "head.body.sign" ↔ req.Plain) ∧
      (req.Plain → lookupKey digest req = .ok (digest "head.body.sign")) :=
  @verified_looked_up signed digest _ _ ⟨7, "user@mail.com", .USER⟩ (by decide +kernel)

/-- With a second blank, passport verifies the token, and the blank and the token are
looked up. -/
theorem looked_up_with_blank :
    let req : Request := ⟨[], [], some "Bearer  head.body.sign"⟩
    authenticate signed req = some ("head.body.sign", ⟨7, "user@mail.com", .USER⟩) ∧
      refreshToken req = .ok " head.body.sign" ∧ refreshToken req ≠ .ok "head.body.sign" := by
  decide +kernel

end TurfSync.RefreshRequest
