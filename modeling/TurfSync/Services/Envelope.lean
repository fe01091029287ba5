import TurfSync.Services.Pagination
import TurfSync.Services.Review

/-! `ResponseInterceptor.intercept` over the values that handlers return, and
`ReviewService.getTurfReviews`, whose result is a page with one field more. -/

namespace TurfSync.Envelope

open Pages (PaginatedResult PageMeta)
open Pagination

/-- What a handler returns. An object answers a field with its value if it has the field. -/
inductive Value where
  | undefined
  | null
  | boolean (b : Bool)
  | number (n : ℚ)
  | string (s : String)
  | date (t : Time)
  | array (items : List Value)
  | object (fields : String → Option Value)

namespace Value

/-- An object of the fields that are listed. -/
def ofFields (fields : List (String × Value)) : Value := .object fun k => fields.lookup k

def field? : Value → String → Option Value
  | .object fields, k => fields k
  | _, _ => none

def isUndefined : Value → Bool
  | .undefined => true
  | _ => false

/-- `data && typeof data === 'object' && 'meta' in data && 'data' in data`; no array and no date
has such fields. -/
def Paginated (data : Value) : Prop :=
  (data.field? "meta").isSome = true ∧ (data.field? "data").isSome = true

instance : DecidablePred Paginated := fun _ => inferInstanceAs (Decidable (_ ∧ _))

end Value

/-! ### The interceptor -/

/-- `StandardResponse`; `responseMeta` is its field `meta`, which may be missing. -/
structure StandardResponse where
  success : Bool
  statusCode : ℕ
  message : String
  data : Value
  timestamp : Time
  requestId : String
  responseMeta : Option Value

/-- `responseData` and `meta` of the value that a handler returned. -/
def unwrap (data : Value) : Value × Value :=
  match data.field? "meta", data.field? "data" with
  | some objMeta, some objData => (objData, objMeta)
  | _, _ => (data, .undefined)

def intercept (statusCode : ℕ) (requestId : Option String) (now : Time) (data : Value) :
    StandardResponse where
  success := true
  statusCode := statusCode
  message := "Success"
  data := (unwrap data).1
  timestamp := now
  requestId := requestId.getD ""
  responseMeta := if (unwrap data).2.isUndefined then none else some (unwrap data).2

/-! ### Results -/

def PageMeta.toValue (m : PageMeta) : Value :=
  .ofFields [("total", .number m.total), ("page", .number m.page), ("limit", .number m.limit),
    ("totalPages", .number m.totalPages)]

def PaginatedResult.toValue {T : Type} (row : T → Value) (result : PaginatedResult T) : Value :=
  .ofFields [("data", .array (result.data.map row)), ("meta", PageMeta.toValue result.pageMeta)]

/-- The row of a review that is shown. -/
structure FormattedReview where
  id : ℕ
  userName : String
  rating : ℕ
  comment : Option String
  createdAt : Time
  deriving DecidableEq, Repr

def FormattedReview.toValue (r : FormattedReview) : Value :=
  .ofFields [("id", .number r.id), ("userName", .string r.userName), ("rating", .number r.rating),
    ("comment", r.comment.elim .null .string), ("createdAt", .date r.createdAt)]

structure TurfReviews extends PaginatedResult FormattedReview where
  avgRating : ℚ
  deriving DecidableEq, Repr

def TurfReviews.toValue (r : TurfReviews) : Value :=
  .ofFields [("data", .array (r.data.map FormattedReview.toValue)),
    ("meta", PageMeta.toValue r.pageMeta), ("avgRating", .number r.avgRating)]

end TurfSync.Envelope

namespace TurfSync.ReviewService

open Envelope Pagination

/-- The rows of the turf, the newest first, with the names of their users. -/
def getTurfReviews (userName : UserId → String) (turfId : TurfId) (dto : PaginationDto)
    (table : List Review) : TurfReviews :=
  let params := getPaginationParams dto
  let rows := Reviews.ofTurf turfId table
  let reviews := ((rows.insertionSort fun r r' => r'.createdAt ≤ r.createdAt).drop params.skip).take
    params.take
  let formattedReview := reviews.map fun r =>
    { id := r.id, userName := userName r.userId, rating := r.rating, comment := r.comment
      createdAt := r.createdAt }
  { createPaginatedResponse formattedReview rows.length params.page params.limit with
    avgRating := (Reviews.average turfId table).getD 0 }

end TurfSync.ReviewService
