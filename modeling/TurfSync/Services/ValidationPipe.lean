import TurfSync.Services.CouponAdmin
import TurfSync.Services.RefreshRequest

/-! The global `ValidationPipe` of `main.ts` over the decorators of a class, the class
`CreateCouponDto`, and the route that takes it. Of `class-validator` the validators that the
class uses and the whitelist are modelled as it documents them, of `class-transformer` the
conversion by `Type`. -/

namespace TurfSync.ValidationPipe

open RefreshRequest (Json)

/-- What a property of an instance holds; an invalid date is a date as well. -/
inductive Value where
  | undefined
  | json (value : Json)
  | date (time : Option Time)
  deriving DecidableEq, Repr

/-! ### Decorators -/

inductive Validator where
  | isString
  | isEnum (values : List String)
  | isNumber
  | isInt
  | isBoolean
  | min (n : ℚ)
  deriving DecidableEq, Repr

namespace Validator

def accepts : Validator → Value → Bool
  | isString, .json (.str _) => true
  | isEnum values, .json (.str s) => s ∈ values
  | isNumber, .json (.num _) => true
  | isInt, .json (.num x) => x.den = 1
  | isBoolean, .json (.bool _) => true
  | min n, .json (.num x) => n ≤ x
  | _, _ => false

def message (property : String) : Validator → String
  | isString => property ++ " must be a string"
  | isEnum values => property ++ " must be one of the following values: " ++ ", ".intercalate values
  | isNumber => property ++ " must be a number conforming to the specified constraints"
  | isInt => property ++ " must be an integer number"
  | isBoolean => property ++ " must be a boolean value"
  | min n => property ++ " must not be less than " ++ toString n

end Validator

/-- A property with its decorators: `ApiProperty` or `ApiPropertyOptional`, `IsOptional`, the
validators, and `Type(() => Date)`. -/
structure Property where
  name : String
  apiRequired : Bool := true
  isOptional : Bool := false
  validators : List Validator := []
  typeDate : Bool := false
  deriving DecidableEq, Repr

abbrev Class := List Property

namespace Property

/-- A validation decorator is attached; `ApiProperty` and `Type` are none. -/
def Whitelisted (p : Property) : Prop := p.isOptional = true ∨ p.validators ≠ []

instance : DecidablePred Whitelisted := fun _ => inferInstanceAs (Decidable (_ ∨ _))

/-- `IsOptional` leaves out the validators of a missing or null value. -/
def Skips (p : Property) (v : Value) : Prop :=
  p.isOptional = true ∧ (v = .undefined ∨ v = .json .null)

instance (p : Property) (v : Value) : Decidable (p.Skips v) := inferInstanceAs (Decidable (_ ∧ _))

/-- The instance's value for a member of the body; `new Date(value)`, but of no null. -/
def convert (newDate : Json → Option Time) (p : Property) : Option Json → Value
  | none => .undefined
  | some value => if p.typeDate ∧ value ≠ .null then .date (newDate value) else .json value

end Property

/-! ### The pipe -/

structure ValidationError where
  property : String
  messages : List String
  deriving DecidableEq, Repr

/-- `whitelist`, `forbidNonWhitelisted` and `transform`. -/
structure Options where
  whitelist : Bool
  forbidNonWhitelisted : Bool
  transform : Bool

/-- The pipe of `bootstrap`. -/
def bootstrap : Options := ⟨true, true, true⟩

abbrev Body := List (String × Json)

abbrev Instance := List (String × Value)

/-- `new cls()` has the fields of the class, which the target `ES2023` defines; those of the body
are assigned to it. -/
def plainToInstance (newDate : Json → Option Time) (cls : Class) (body : Body) : Instance :=
  cls.map (fun p => (p.name, p.convert newDate (body.lookup p.name))) ++
    (body.filter fun member => member.1 ∉ cls.map (·.name)).map fun member =>
      (member.1, .json member.2)

def Allowed (cls : Class) (key : String) : Prop := ∃ p ∈ cls, p.name = key ∧ p.Whitelisted

instance (cls : Class) : DecidablePred (Allowed cls) := fun _ => List.decidableBEx _ cls

def whitelistError (key : String) : ValidationError :=
  ⟨key, ["property " ++ key ++ " should not exist"]⟩

/-- The validators that reject a value, from the last to the first: decorators are evaluated
bottom up. -/
def Property.check (p : Property) (v : Value) : Option ValidationError :=
  if p.Skips v then none
  else match p.validators.filter fun validator => validator.accepts v = false with
    | [] => none
    | failed => some ⟨p.name, failed.reverse.map (·.message p.name)⟩

def checks (cls : Class) (object : Instance) : List ValidationError :=
  cls.filterMap fun p => p.check ((object.lookup p.name).getD .undefined)

/-- `validate`: with `forbidNonWhitelisted` a key that is not allowed is an error, and with
`whitelist` alone it is stripped. -/
def validate (options : Options) (cls : Class) (object : Instance) :
    List ValidationError × Instance :=
  let notAllowed := object.filter fun member => ¬ Allowed cls member.1
  if options.whitelist = false then (checks cls object, object)
  else if options.forbidNonWhitelisted then
    (notAllowed.map (fun member => whitelistError member.1) ++ checks cls object, object)
  else (checks cls object, object.filter fun member => Allowed cls member.1)

/-- The instance that the handler receives, or the errors; without `transform` the handler
would receive the body. -/
def pipe (options : Options) (newDate : Json → Option Time) (cls : Class) (body : Body) :
    Except (List ValidationError) Instance :=
  match validate options cls (plainToInstance newDate cls body) with
  | ([], object) =>
    .ok (if options.transform then object
      else body.map fun member => (member.1, .json member.2))
  | (errors, _) => .error errors

/-! ### Coupons -/

def createCouponDto : Class := [
  { name := "code", validators := [.isString] },
  { name := "description", apiRequired := false, isOptional := true, validators := [.isString] },
  { name := "discountType", validators := [.isEnum ["PERCENTAGE", "FIXED"]] },
  { name := "discountValue", validators := [.isNumber, .min 0] },
  { name := "minOrderAmount", validators := [.isNumber, .min 0] },
  { name := "maxDiscountAmount", validators := [.isNumber, .min 0] },
  { name := "usageLimit", apiRequired := false, isOptional := true, validators := [.isInt, .min 1] },
  { name := "userUsageLimit", apiRequired := false, isOptional := true,
    validators := [.isInt, .min 1] },
  { name := "validFrom", typeDate := true },
  { name := "validUntil", typeDate := true },
  { name := "isActive", apiRequired := false, isOptional := true, validators := [.isBoolean] }]

namespace CouponController

/-- `@Post()`: what the handler is called with, and `CouponService.create` of it. -/
def create {Reply : Type} (newDate : Json → Option Time) (service : Instance → Reply)
    (body : Body) : Except (List ValidationError) Reply :=
  (pipe bootstrap newDate createCouponDto body).map service

end CouponController

end TurfSync.ValidationPipe
