import TurfSync.Services.Pages

/-! `pagination.util.ts`: what the list endpoints ask of a table, and the page they make of the
two answers. -/

namespace TurfSync.Pagination

open Pages (PaginatedResult positiveOr)

structure PaginationDto where
  page : Option ℤ := none
  limit : Option ℤ := none

structure PaginationParams where
  skip : ℕ
  take : ℕ
  page : ℕ
  limit : ℕ

def getPaginationParams (dto : PaginationDto) : PaginationParams :=
  let page := positiveOr 1 dto.page
  let limit := positiveOr 10 dto.limit
  { skip := (page - 1) * limit, take := limit, page, limit }

def createPaginatedResponse {T : Type} (data : List T) (total page limit : ℕ) :
    PaginatedResult T where
  data := data
  pageMeta := { total, page, limit, totalPages := ⌈(total / limit : ℚ)⌉₊ }

/-- What a caller filters, selects, includes and orders by, of type `unknown`. -/
structure Options (V : Type) where
  whereInput : Option V := none
  select : Option V := none
  includes : Option V := none
  orderBy : Option V := none

structure QueryArgs (V : Type) extends Options V where
  skip : ℕ
  take : ℕ

structure PrismaModelDelegate (V T : Type) where
  findMany : QueryArgs V → List T
  count : Option V → ℕ

def paginate {V T : Type} (model : PrismaModelDelegate V T) (dto : PaginationDto)
    (options : Options V) : PaginatedResult T :=
  let params := getPaginationParams dto
  let data := model.findMany { options with skip := params.skip, take := params.take }
  let total := model.count options.whereInput
  createPaginatedResponse data total params.page params.limit

end TurfSync.Pagination
