import TurfSync.Services.RedisLock
import TurfSync.Text.Glob

/-! The cache methods of `RedisLockService`, each by any number of clients. `get`, `set` and
`del` are one command, `delByPattern` is a loop of `SCAN` and `DEL`; what fails is logged and
goes no further. Every entry keeps, beside its value and its deadline, the number of the `SET`
that wrote it; no command reads it. -/

namespace TurfSync.Cache

open Txn Text

/-- An entry: `JSON.stringify` of a value, and when it expires, if it does. -/
structure Item (T : Type) where
  key : String
  value : T
  expiresAt : Option Time
  serial : ℕ
  deriving DecidableEq, Repr

/-- The pattern matches the key. -/
def Matches (pattern key : String) : Prop := glob pattern.toList key.toList = true

instance (pattern key : String) : Decidable (Matches pattern key) :=
  inferInstanceAs (Decidable (_ = true))

/-- `SCAN`, given the keys that are there: the next cursor, 0 after the last part, and some keys
that match. An iteration that is at a cursor `Owes` the keys it has not come to. Each key that
stays is returned before the cursor is 0 again; a key that is returned is there; and an
iteration ends. -/
structure Scan where
  scan : (keys : List String) → (cursor : ℕ) → (pattern : String) → (count : ℕ) → ℕ × List String
  Owes : ℕ → String → Prop
  left : ℕ → ℕ
  starts : ∀ key, Owes 0 key
  returns : ∀ keys cursor pattern count, ∀ key ∈ keys, Matches pattern key → Owes cursor key →
    key ∈ (scan keys cursor pattern count).2 ∨
      (scan keys cursor pattern count).1 ≠ 0 ∧ Owes (scan keys cursor pattern count).1 key
  sound : ∀ keys cursor pattern count, ∀ key ∈ (scan keys cursor pattern count).2,
    key ∈ keys ∧ Matches pattern key
  ends : ∀ keys cursor pattern count, (scan keys cursor pattern count).1 ≠ 0 →
    left (scan keys cursor pattern count).1 < left cursor

/-- What the clients call. -/
inductive Call (T : Type) where
  | get (key : String)
  | set (key : String) (value : T) (ttlSeconds : Option ℤ)
  | del (key : String)
  | delByPattern (pattern : String)
  deriving DecidableEq, Repr

inductive Reply (T : Type) where
  | value (data : Option T)
  | done
  deriving DecidableEq, Repr

inductive Write (T : Type) where
  | set (key : String) (value : T) (expiresAt : Option Time)
  | del (keys : List String)
  deriving DecidableEq, Repr

/-- The entries, expired ones included, and the number of `SET`s so far. -/
structure World (T : Type) where
  now : Time
  sets : ℕ
  items : List (Item T)

variable {T : Type}

/-- The entry is there at `now`. -/
def Item.Alive (now : Time) (item : Item T) : Prop := ∀ t ∈ item.expiresAt, now < t

instance (now : Time) : DecidablePred (Item.Alive (T := T) now) :=
  fun _ => inferInstanceAs (Decidable (∀ t ∈ _, now < t))

namespace World

variable (w : World T)

/-- The entries that are there. -/
def live : List (Item T) := w.items.filter (·.Alive w.now)

/-- `GET key`. -/
def get (key : String) : Option T := (w.live.find? (·.key = key)).map (·.value)

def apply : Write T → World T
  | .set key value expiresAt => { w with
      sets := w.sets + 1
      items := w.items.filter (·.key ≠ key) ++ [⟨key, value, expiresAt, w.sets⟩] }
  | .del keys => { w with items := w.items.filter (·.key ∉ keys) }

end World

inductive Command (T : Type) where
  | get (key : String)
  | set (key : String) (value : T)
  | setex (key : String) (ttlSeconds : ℤ) (value : T)
  | del (keys : List String)
  | scan (cursor : ℕ) (pattern : String) (count : ℕ)
  deriving DecidableEq, Repr

@[reducible] def Command.Reply : Command T → Type
  | .get _ => Option T
  | .set _ _ => Unit
  | .setex _ _ _ => Unit
  | .del _ => ℕ
  | .scan _ _ _ => ℕ × List String

/-- `SETEX` rejects a time to live that is not positive. -/
def Command.act (redis : Scan) : (m : Command T) → World T → World T →
    Effect Err Empty (Write T) (World T) m.Reply
  | .get key, _, w => ⟨.ok (w.get key), [], [], w⟩
  | .set key value, _, w => ⟨.ok (), [], [.set key value none], w⟩
  | .setex key ttlSeconds value, _, w =>
    if ttlSeconds ≤ 0 then ⟨.error .infrastructure, [], [], w⟩
    else ⟨.ok (), [], [.set key value (some (w.now + 1000 * ttlSeconds))], w⟩
  | .del keys, _, w => ⟨.ok (w.live.filter (·.key ∈ keys)).length, [], [.del keys], w⟩
  | .scan cursor pattern count, _, w =>
    ⟨.ok (redis.scan (w.live.map (·.key)) cursor pattern count), [], [], w⟩

def engine (redis : Scan) (T : Type) :
    Engine (Command T) Command.Reply Err Empty (Write T) (World T) (Call T) where
  act := Command.act redis
  apply x w := w.apply x
  commit _ ws w := ws.foldl World.apply w
  fault := .infrastructure

abbrev Op (T α : Type) := Script (Command T) Command.Reply Err α

def command (m : Command T) : Op T m.Reply := Script.perform m

/-- `try { p } catch { log }`. -/
def quietly (p : Op T Unit) : Op T Unit := p.tryCatch fun _ => .ret ()

namespace RedisLockService

def get (key : String) : Op T (Option T) :=
  (command (.get key) : Op T (Option T)).tryCatch fun _ => .ret none

def set (key : String) (value : T) (ttlSeconds : Option ℤ) : Op T Unit :=
  quietly (match ttlSeconds.filter (· ≠ 0) with
    | some ttlSeconds => command (.setex key ttlSeconds value)
    | none => command (.set key value))

def del (key : String) : Op T Unit :=
  quietly do
    let _ : ℕ ← command (.del [key])

/-- The keys of one part are deleted in a pipeline, which reports errors and does not throw. -/
def delKeys (keys : List String) : Op T Unit :=
  if keys = [] then pure ()
  else quietly do
    let _ : ℕ ← command (.del keys)

/-- `do ... while (cursor !== '0')`, with a bound on the rounds. -/
def scanLoop (pattern : String) : ℕ → ℕ → Op T Unit
  | 0, _ => .throw .infrastructure
  | n + 1, cursor => do
    let page : ℕ × List String ← command (.scan cursor pattern 100)
    delKeys page.2
    if page.1 ≠ 0 then scanLoop pattern n page.1 else pure ()

def delByPattern (redis : Scan) (pattern : String) : Op T Unit :=
  quietly (scanLoop pattern (redis.left 0 + 1) 0)

end RedisLockService

def Call.body (redis : Scan) : Call T → Op T (Reply T)
  | get key => do
    let data ← RedisLockService.get key
    pure (.value data)
  | set key value ttlSeconds => do
    RedisLockService.set key value ttlSeconds
    pure .done
  | del key => do
    RedisLockService.del key
    pure .done
  | delByPattern pattern => do
    RedisLockService.delByPattern redis pattern
    pure .done

def service (redis : Scan) (T : Type) :
    Service (Command T) Command.Reply Err Empty (Write T) (World T) (Call T) Redis.Tick (Reply T) where
  toEngine := engine redis T
  body := Call.body redis
  accepts _ _ := true
  evolve v w := { w with now := w.now + v.ms }

abbrev Sys (T : Type) := System (Command T) Command.Reply Err Empty (Write T) (World T) (Call T) (Reply T)

abbrev Act (T : Type) := Action (Call T) Redis.Tick

/-- Nothing has been called; the numbers of the entries have been given out. -/
structure Sys.Initial (s : Sys T) : Prop where
  threads : s.threads = []
  serials : ∀ item ∈ s.world.items, item.serial < s.world.sets
  keys : (s.world.items.map (·.key)).Nodup

end TurfSync.Cache
