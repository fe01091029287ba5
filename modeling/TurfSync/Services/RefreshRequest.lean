import TurfSync.Store.Accounts

/-! Where the refresh token of a request comes from: `jwtFromRequest`, whose token passport
verifies, and the first part of `JwtRefreshStrategy.validate`, whose token is hashed and
looked up. Of `passport-jwt` the two extractors are modelled, as it documents them; the
verification of a token is a parameter. Of the values of a JSON body only what the code
looks at is modelled: nothing inside an array or an object is read. -/

namespace TurfSync.RefreshRequest

open Accounts (JwtPayload)

/-- A value of a cookie or of a member of the body. -/
inductive Json where
  | null
  | bool (b : Bool)
  | num (x : ℚ)
  | str (s : String)
  | composite
  deriving DecidableEq, Repr

/-- What counts as true in a condition. -/
def Json.truthy : Json → Bool
  | null => false
  | bool b => b
  | num x => x ≠ 0
  | str s => s ≠ ""
  | composite => true

/-- `value || null`. -/
def orNull (value : Option Json) : Option Json := value.filter Json.truthy

/-- A request: the members of `req.cookies` and of `req.body`, none where these are no
objects, and the header `Authorization`. -/
structure Request where
  cookies : List (String × Json)
  body : List (String × Json)
  authorization : Option String
  deriving DecidableEq, Repr

/-! ### `passport-jwt` -/

/-- The characters that `\s` matches. -/
def whiteSpace : List Char :=
  [9, 10, 11, 12, 13, 32, 0xa0, 0x1680, 0x2000, 0x2001, 0x2002, 0x2003, 0x2004, 0x2005, 0x2006,
    0x2007, 0x2008, 0x2009, 0x200a, 0x2028, 0x2029, 0x202f, 0x205f, 0x3000, 0xfeff].map Char.ofNat

def isSpace (c : Char) : Bool := c ∈ whiteSpace

def notSpace (c : Char) : Bool := !isSpace c

/-- `toLowerCase`, on the strings that are compared with `bearer`: only ASCII letters have
its letters as their lower case. -/
def toLowerCase (s : List Char) : List Char := s.map Char.toLower

namespace ExtractJwt

/-- `/(\S+)\s+(\S+)/`: the first two runs of characters that are no white space. -/
def parseAuthHeader (hdrValue : List Char) : Option (List Char × List Char) :=
  let start := hdrValue.dropWhile isSpace
  let scheme := start.takeWhile notSpace
  let value := ((start.dropWhile notSpace).dropWhile isSpace).takeWhile notSpace
  if scheme = [] ∨ value = [] then none else some (scheme, value)

def fromBodyField (fieldName : String) (req : Request) : Option Json := req.body.lookup fieldName

def fromAuthHeaderAsBearerToken (req : Request) : Option Json := do
  let hdrValue ← req.authorization
  let (scheme, value) ← parseAuthHeader hdrValue.toList
  if toLowerCase scheme = "bearer".toList then some (.str (String.ofList value)) else none

end ExtractJwt

/-! ### The strategy -/

/-- The first of two values that counts as true. -/
def either (value other : Option Json) : Option Json := (orNull value).or other

/-- `authHeader.substring(7)`, if the header starts with `bearer `. -/
def afterBearer (authHeader : String) : Option Json :=
  if authHeader ≠ "" ∧ "bearer ".toList <+: toLowerCase authHeader.toList then
    some (.str (String.ofList (authHeader.toList.drop 7)))
  else none

namespace JwtRefreshStrategy

def jwtFromRequest (req : Request) : Option Json :=
  either (either (orNull (req.cookies.lookup "refresh_token"))
    (ExtractJwt.fromBodyField "refreshToken" req)) (ExtractJwt.fromAuthHeaderAsBearerToken req)

/-- The token that `validate` hashes. -/
def refreshToken (req : Request) : Except Err String :=
  let token := either (orNull (req.cookies.lookup "refresh_token"))
    (orNull (req.body.lookup "refreshToken"))
  match orNull (either token (req.authorization.bind afterBearer)) with
  | none => .error (.unauthorized "Refresh token is missing")
  | some (.str token) => .ok token
  -- `update` of a hash takes no other value
  | some _ => .error .infrastructure

/-- The key under which `validate` looks for the token. -/
def lookupKey (sha256 : String → String) (req : Request) : Except Err String :=
  (refreshToken req).map sha256

end JwtRefreshStrategy

/-- The token and the payload with which passport calls `validate`: only a string has a
valid signature. -/
def authenticate (verify : String → Option JwtPayload) (req : Request) :
    Option (String × JwtPayload) :=
  match JwtRefreshStrategy.jwtFromRequest req with
  | some (.str token) => (verify token).map (token, ·)
  | _ => none

end TurfSync.RefreshRequest
