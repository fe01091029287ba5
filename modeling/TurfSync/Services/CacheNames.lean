import TurfSync.Services.RedisCache

/-! What the services keep in the cache: pages of turfs, turfs and listings of slots, each kind
under keys of its own and for its own time. `TurfService` and `BookingService` ask for one of
them by its name and forget all the pages, one turf, or all the listings of a turf, which
`RedisLockService` does by keys and patterns. `Table` is what that is for: values under names,
each until its deadline. -/

namespace TurfSync.Cache

open Txn Text

/-! ### Ids -/

namespace ParseUUIDPipe

/-- `[0-9a-f]`, ignoring case. -/
def isHex (c : Char) : Bool :=
  (48 ≤ c.toNat ∧ c.toNat ≤ 57) ∨ (97 ≤ c.toNat ∧ c.toNat ≤ 102) ∨ (65 ≤ c.toNat ∧ c.toNat ≤ 70)

/-- `[89ab]`, ignoring case. -/
def isVariant (c : Char) : Bool := c = '8' ∨ c = '9' ∨ c = 'a' ∨ c = 'b' ∨ c = 'A' ∨ c = 'B'

def isHyphen (c : Char) : Bool := c = '-'

/-- The classes of the characters, one by one. -/
def uuidRegex : List (Char → Bool) :=
  .replicate 8 isHex ++ [isHyphen] ++ .replicate 4 isHex ++ [isHyphen, fun c => c = '4'] ++
    .replicate 3 isHex ++ [isHyphen, isVariant] ++ .replicate 3 isHex ++ [isHyphen] ++
    .replicate 12 isHex

def test : List (Char → Bool) → List Char → Bool
  | [], [] => true
  | p :: ps, c :: cs => p c && test ps cs
  | _, _ => false

/-- What the pipe lets through. -/
structure Uuid where
  text : String
  valid : test uuidRegex text.toList = true

/-- `transform(value, metadata)`, of the parameter `data`. -/
def transform (value : String) (data : Option String) : Except Err Uuid :=
  if h : test uuidRegex value.toList = true then .ok ⟨value, h⟩
  else .error (.badRequest (((data.filter (· ≠ "")).getD "ID") ++ " must be a valid UUID"))

end ParseUUIDPipe

open ParseUUIDPipe (Uuid)

instance : DecidableEq Uuid := fun a b =>
  if h : a.text = b.text then .isTrue (by cases a; cases b; cases h; rfl)
  else .isFalse fun he => h (congrArg Uuid.text he)

/-! ### Names -/

/-- A page of turfs by the rest of its key, a turf, the listing of a turf for a date. -/
inductive Name where
  | list (fields : String)
  | turf (id : Uuid)
  | slots (id : Uuid) (date : String)
  deriving DecidableEq

namespace Name

def key : Name → String
  | list fields => "turf:list:" ++ fields
  | turf id => "turf:" ++ id.text
  | slots id date => "slots:available:" ++ id.text ++ ":" ++ date

def ttlSeconds : Name → ℕ
  | list _ => 300
  | turf _ => 300
  | slots _ _ => 60

end Name

/-- What the services ask of the cache. -/
inductive Request (T : Type) where
  | get (name : Name)
  | put (name : Name) (value : T)
  | forgetLists
  | forgetTurf (id : Uuid)
  | forgetSlots (id : Uuid)

variable {T : Type}

namespace Request

def call : Request T → Call T
  | get name => .get name.key
  | put name value => .set name.key value (some name.ttlSeconds)
  | forgetLists => .delByPattern "turf:list:*"
  | forgetTurf id => .del ("turf:" ++ id.text)
  | forgetSlots id => .delByPattern ("slots:available:" ++ id.text ++ ":*")

/-- The names that a request makes the cache forget. -/
def Drops : Request T → Name → Prop
  | forgetLists, .list _ => True
  | forgetTurf id, .turf id' => id' = id
  | forgetSlots id, .slots id' _ => id' = id
  | _, _ => False

instance : (r : Request T) → DecidablePred r.Drops
  | forgetLists => fun name => match name with
    | .list _ => .isTrue trivial
    | .turf _ => .isFalse id
    | .slots _ _ => .isFalse id
  | forgetTurf id' => fun name => match name with
    | .list _ => .isFalse id
    | .turf id => inferInstanceAs (Decidable (id = id'))
    | .slots _ _ => .isFalse id
  | forgetSlots id' => fun name => match name with
    | .list _ => .isFalse id
    | .turf _ => .isFalse id
    | .slots id _ => inferInstanceAs (Decidable (id = id'))
  | get _ => fun name => by cases name <;> exact .isFalse id
  | put _ _ => fun name => by cases name <;> exact .isFalse id

end Request

/-! ### The table -/

/-- Values under names, each until its deadline. -/
structure Table (T : Type) where
  now : Time
  entries : Name → Option (T × Time)

/-- A request, or time that passes. -/
inductive Move (T : Type) where
  | request (r : Request T)
  | wait (v : Redis.Tick)

namespace Table

def get (m : Table T) (name : Name) : Option T :=
  ((m.entries name).filter fun x => m.now < x.2).map (·.1)

def answer (m : Table T) : Request T → Reply T
  | .get name => .value (m.get name)
  | _ => .done

def after (m : Table T) : Request T → Table T
  | .get _ => m
  | .put name value =>
    { m with entries := Function.update m.entries name (some (value, m.now + 1000 * name.ttlSeconds)) }
  | r => { m with entries := fun name => if r.Drops name then none else m.entries name }

/-- The replies to one request after the other. -/
def play : Table T → List (Move T) → List (Reply T)
  | _, [] => []
  | m, .request r :: moves => m.answer r :: play (m.after r) moves
  | m, .wait v :: moves => play { m with now := m.now + v.ms } moves

end Table

/-- The replies of the cache to one request after the other. -/
def play (redis : Scan) : Sys T → List (Move T) → List (Except Err (Reply T))
  | _, [] => []
  | s, .request r :: moves =>
    (service redis T).reply s r.call :: play redis ((service redis T).serve s r.call) moves
  | s, .wait v :: moves => play redis ((service redis T).step s (.env v)) moves

end TurfSync.Cache
