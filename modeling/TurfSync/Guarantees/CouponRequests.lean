import TurfSync.Services.ValidationPipe

/-! Requests for coupons. A body that keeps to its documentation passes every check of the pipe
but one: a property without a validator is not on the whitelist. `validFrom` and `validUntil`
are such properties, both are required, and so no documented body passes, nor does any other. -/

namespace TurfSync.ValidationPipe

open RefreshRequest (Json)

/-! ### Documented bodies -/

def isText : Json → Bool
  | .str _ => true
  | _ => false

/-- What the documentation asks of a member: a date as text, or what the validators accept. -/
def Property.Meets (newDate : Json → Option Time) (p : Property) (value : Json) : Prop :=
  if p.typeDate then isText value = true ∧ (newDate value).isSome = true
  else p.Skips (.json value) ∨ ∀ validator ∈ p.validators, validator.accepts (.json value) = true

instance (newDate : Json → Option Time) (p : Property) (value : Json) :
    Decidable (p.Meets newDate value) :=
  inferInstanceAs (Decidable (if p.typeDate then _ ∧ _ else _ ∨ _))

/-- All required members are there, all members are documented, and each meets what is asked. -/
structure Documented (newDate : Json → Option Time) (cls : Class) (body : Body) : Prop where
  known : ∀ member ∈ body, member.1 ∈ cls.map (·.name)
  required : ∀ p ∈ cls, p.apiRequired = true → (body.lookup p.name).isSome = true
  meets : ∀ p ∈ cls, ∀ value ∈ body.lookup p.name, p.Meets newDate value

/-- Names are used once, dates have no validators, and what the documentation calls optional is. -/
structure WellFormed (cls : Class) : Prop where
  names : (cls.map (·.name)).Nodup
  dates : ∀ p ∈ cls, p.typeDate = true → p.validators = []
  optional : ∀ p ∈ cls, p.apiRequired = false → p.isOptional = true

theorem wellFormed_createCouponDto : WellFormed createCouponDto where
  names := by decide
  dates := by decide
  optional := by decide

/-! ### The checks -/

theorem Property.check_eq_none {p : Property} {v : Value}
    (h : p.Skips v ∨ ∀ validator ∈ p.validators, validator.accepts v = true) :
    p.check v = none := by
  unfold Property.check
  split_ifs with hskips
  · rfl
  · have hall := h.resolve_left hskips
    have hnone : p.validators.filter (fun validator => validator.accepts v = false) = [] := by
      rw [List.filter_eq_nil_iff]
      intro validator hmem hfalse
      rw [hall validator hmem] at hfalse
      exact absurd hfalse (by decide)
    rw [hnone]

variable {newDate : Json → Option Time} {cls : Class} {body : Body}

theorem Property.Meets.check {p : Property} {value : Json} (h : p.Meets newDate value)
    (hdate : p.typeDate = true → p.validators = []) :
    p.check (p.convert newDate (some value)) = none := by
  apply Property.check_eq_none
  unfold Property.Meets at h
  unfold Property.convert
  split_ifs at h with htype
  · right
    rw [hdate htype]
    exact List.forall_mem_nil _
  · simpa [htype] using h

theorem lookup_fields (hnames : (cls.map (·.name)).Nodup) {p : Property} (hp : p ∈ cls)
    (f : Property → Value) (rest : Instance) :
    (cls.map (fun p => (p.name, f p)) ++ rest).lookup p.name = some (f p) := by
  induction cls with
  | nil => cases hp
  | cons q cls ih =>
    rw [List.map_cons, List.nodup_cons] at hnames
    rw [List.map_cons, List.cons_append, List.lookup_cons]
    rcases List.mem_cons.mp hp with rfl | hp
    · rw [beq_self_eq_true]
    · have hne : p.name ≠ q.name := fun h => hnames.1 (h ▸ List.mem_map_of_mem hp)
      rw [beq_false_of_ne hne]
      exact ih hnames.2 hp

/-- No check fails on a documented body. -/
theorem Documented.checks (h : Documented newDate cls body) (hcls : WellFormed cls) :
    checks cls (plainToInstance newDate cls body) = [] := by
  rw [ValidationPipe.checks, List.filterMap_eq_nil_iff]
  intro p hp
  rw [plainToInstance, lookup_fields hcls.names hp, Option.getD_some]
  cases hvalue : body.lookup p.name with
  | some value => exact (h.meets p hp value hvalue).check (hcls.dates p hp)
  | none =>
    apply Property.check_eq_none
    have hrequired : p.apiRequired = false := by
      by_contra hne
      have hsome := h.required p hp (Bool.not_eq_false _ ▸ hne)
      rw [hvalue] at hsome
      exact absurd hsome (by decide)
    exact .inl ⟨hcls.optional p hp hrequired, .inl rfl⟩

/-! ### The whitelist -/

theorem allowed_iff (hnames : (cls.map (·.name)).Nodup) {p : Property} (hp : p ∈ cls) :
    Allowed cls p.name ↔ p.Whitelisted := by
  constructor
  · rintro ⟨q, hq, hname, hlisted⟩
    rwa [List.inj_on_of_nodup_map hnames hq hp hname] at hlisted
  · intro hlisted
    exact ⟨p, hp, rfl, hlisted⟩

/-- The properties of the class that are errors wherever they are. -/
def unlisted (cls : Class) : List Property := cls.filter fun p => ¬ p.Whitelisted

theorem filter_fields (hnames : (cls.map (·.name)).Nodup) (f : Property → Value) :
    (cls.map fun p => (p.name, f p)).filter (fun member => ¬ Allowed cls member.1) =
      (unlisted cls).map fun p => (p.name, f p) := by
  rw [List.filter_map, unlisted]
  congr 1
  refine List.filter_congr fun p hp => ?_
  rw [Function.comp_apply, decide_eq_decide, allowed_iff hnames hp]

theorem validate_bootstrap (cls : Class) (object : Instance) :
    (validate bootstrap cls object).1 =
      (object.filter fun member => ¬ Allowed cls member.1).map (fun member =>
        whitelistError member.1) ++ checks cls object :=
  rfl

/-- Every instance has the unlisted properties of its class, and each is an error. -/
theorem validate_plainToInstance (hnames : (cls.map (·.name)).Nodup) (body : Body) :
    ∃ rest, (validate bootstrap cls (plainToInstance newDate cls body)).1 =
      (unlisted cls).map (fun p => whitelistError p.name) ++ rest := by
  rw [validate_bootstrap, plainToInstance, List.filter_append, filter_fields hnames,
    List.map_append, List.map_map, List.append_assoc]
  exact ⟨_, rfl⟩

theorem Documented.validate (h : Documented newDate cls body) (hcls : WellFormed cls) :
    (validate bootstrap cls (plainToInstance newDate cls body)).1 =
      (unlisted cls).map fun p => whitelistError p.name := by
  have hextra : (body.filter fun member => member.1 ∉ cls.map (·.name)) = [] := by
    rw [List.filter_eq_nil_iff]
    intro member hmember
    simpa using h.known member hmember
  rw [validate_bootstrap, h.checks hcls, plainToInstance, hextra, List.map_nil, List.append_nil,
    List.append_nil, filter_fields hcls.names, List.map_map]
  rfl

theorem pipe_of_errors {error : ValidationError} {errors : List ValidationError}
    (h : (ValidationPipe.validate bootstrap cls (plainToInstance newDate cls body)).1 =
      error :: errors) : pipe bootstrap newDate cls body = .error (error :: errors) := by
  unfold pipe
  split
  · next heq =>
    rw [heq] at h
    exact absurd h.symm (List.cons_ne_nil _ _)
  · next heq =>
    rw [heq] at h
    exact congrArg Except.error h

/-- A documented body whose class lists all its properties passes. -/
theorem Documented.passes (h : Documented newDate cls body) (hcls : WellFormed cls)
    (hlisted : unlisted cls = []) :
    pipe bootstrap newDate cls body = .ok (plainToInstance newDate cls body) := by
  have hvalidate := h.validate hcls
  rw [hlisted, List.map_nil] at hvalidate
  have hboth : ValidationPipe.validate bootstrap cls (plainToInstance newDate cls body) =
      ([], plainToInstance newDate cls body) := Prod.ext hvalidate rfl
  rw [pipe, hboth]
  rfl

/-! ### Coupons -/

/-- The documented bodies of a coupon are rejected for the two dates and for nothing else. -/
theorem create_rejects_documented {Reply : Type} (service : Instance → Reply)
    (h : Documented newDate createCouponDto body) :
    CouponController.create newDate service body =
      .error [whitelistError "validFrom", whitelistError "validUntil"] := by
  have hvalidate := h.validate wellFormed_createCouponDto
  have hpipe := pipe_of_errors (hvalidate.trans rfl)
  rw [CouponController.create, hpipe]
  rfl

/-- No body at all reaches the service. -/
theorem create_rejects {Reply : Type} (service : Instance → Reply) (body : Body) :
    ∃ errors, CouponController.create newDate service body = .error errors := by
  obtain ⟨rest, hvalidate⟩ :=
    @validate_plainToInstance newDate _ wellFormed_createCouponDto.names body
  rw [CouponController.create, pipe_of_errors hvalidate]
  exact ⟨_, rfl⟩

/-- The two dates of the documentation. -/
def exampleDate : Json → Option Time
  | .str "2026-07-06T00:00:00.000Z" => some (20640 * dayMs)
  | .str "2026-08-06T23:59:59.000Z" => some (20672 * dayMs - 1000)
  | _ => none

/-- The examples of the documentation. -/
def exampleBody : Body := [
  ("code", .str "SUMMER50"), ("discountType", .str "PERCENTAGE"), ("discountValue", .num 10),
  ("minOrderAmount", .num 100), ("maxDiscountAmount", .num 50),
  ("validFrom", .str "2026-07-06T00:00:00.000Z"), ("validUntil", .str "2026-08-06T23:59:59.000Z")]

theorem documented_exampleBody : Documented exampleDate createCouponDto exampleBody where
  known := by decide
  required := by decide
  meets := by decide

/-- The documentation's own examples make a body that is rejected. -/
theorem create_rejects_example : Documented exampleDate createCouponDto exampleBody ∧
    pipe bootstrap exampleDate createCouponDto exampleBody = .error [
      ⟨"validFrom", ["property validFrom should not exist"]⟩,
      ⟨"validUntil", ["property validUntil should not exist"]⟩] :=
  ⟨documented_exampleBody, by decide +kernel⟩

theorem create_rejects_documented_example :
    CouponController.create exampleDate id exampleBody =
      .error [whitelistError "validFrom", whitelistError "validUntil"] :=
  create_rejects_documented id documented_exampleBody

end TurfSync.ValidationPipe
