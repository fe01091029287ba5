import TurfSync.Store.Statements
import TurfSync.Txn.Lease

/-! `RedisLockService`: locks kept under the Redis keys `lock:<key>`. `SET ... EX ... NX`
and the two scripts are atomic, so each call is one command. A key whose deadline has
passed is absent. The value of a lock is drawn with the command that sets it. -/

namespace TurfSync.Redis

open Txn

/-- `acquireLock`, `releaseLock` and `extendLock` as clients call them. -/
inductive Call where
  | acquireLock (key : String) (ttlSeconds : ℤ)
  | releaseLock (key : String) (lockValue : ℕ)
  | extendLock (key : String) (lockValue : ℕ) (ttlSeconds : ℤ)
  deriving DecidableEq, Repr

/-- What a call returns: a lock value or null, or a boolean. -/
inductive Reply where
  | value (lockValue : Option ℕ)
  | done (result : Bool)
  deriving DecidableEq, Repr

inductive Write where
  | set (key : String) (value : ℕ) (expiresAt : Time)
  | expire (key : String) (expiresAt : Time)
  | del (key : String)
  deriving DecidableEq, Repr

/-- A command that changed a key: who issued it, and when. -/
structure Entry where
  session : Session Call
  writes : List Write
  time : Time

/-- The keys with their values and deadlines. The history is not read by any command. -/
structure World where
  now : Time
  uuid : ℕ
  keys : String → Option (ℕ × Time)
  history : List Entry

namespace World

/-- `GET key`. -/
def get (w : World) (key : String) : Option ℕ := Lease.holder w.keys key w.now

def apply (w : World) : Write → World
  | .set key value expiresAt =>
    { w with keys := Function.update w.keys key (some (value, expiresAt)) }
  | .expire key expiresAt =>
    { w with keys := Function.update w.keys key ((w.keys key).map fun x => (x.1, expiresAt)) }
  | .del key => { w with keys := Function.update w.keys key none }

end World

inductive Command where
  | setNx (key : String) (ttlSeconds : ℤ)
  | releaseScript (key : String) (value : ℕ)
  | extendScript (key : String) (value : ℕ) (ttlSeconds : ℤ)
  deriving DecidableEq, Repr

/-- The value that was set, or null; the scripts answer 1 or 0. -/
@[reducible] def Command.Reply : Command → Type
  | .setNx _ _ => Option ℕ
  | .releaseScript _ _ => ℕ
  | .extendScript _ _ _ => ℕ

/-- `SET` rejects a time to live that is not positive; `EXPIRE` takes it, and the key is
gone. -/
def Command.act : (m : Command) → World → World → Effect Err Empty Write World m.Reply
  | .setNx key ttlSeconds, _, w =>
    let drawn := { w with uuid := w.uuid + 1 }
    if ttlSeconds ≤ 0 then ⟨.error .infrastructure, [], [], drawn⟩
    else if w.get key = none then
      ⟨.ok (some w.uuid), [], [.set key w.uuid (w.now + 1000 * ttlSeconds)], drawn⟩
    else ⟨.ok none, [], [], drawn⟩
  | .releaseScript key value, _, w =>
    if w.get key = some value then ⟨.ok 1, [], [.del key], w⟩ else ⟨.ok 0, [], [], w⟩
  | .extendScript key value ttlSeconds, _, w =>
    if w.get key = some value then
      ⟨.ok 1, [], [.expire key (w.now + 1000 * ttlSeconds)], w⟩
    else ⟨.ok 0, [], [], w⟩

def engine : Engine Command Command.Reply Err Empty Write World Call where
  act := Command.act
  apply x w := w.apply x
  commit c ws w :=
    { ws.foldl World.apply w with history := w.history ++ [⟨c, ws, w.now⟩] }
  fault := .infrastructure

abbrev Op (α : Type) := Script Command Command.Reply Err α

def command (m : Command) : Op m.Reply := Script.perform m

/-- The Redis key of a lock. -/
def lockKey (key : String) : String := "lock:" ++ key

namespace RedisLockService

def acquireLock (key : String) (ttlSeconds : ℤ) : Op Reply := do
  let lockValue : Option ℕ ← command (.setNx (lockKey key) ttlSeconds)
  pure (.value lockValue)

def releaseLock (key : String) (lockValue : ℕ) : Op Reply := do
  let result : ℕ ← command (.releaseScript (lockKey key) lockValue)
  pure (.done (result = 1))

def extendLock (key : String) (lockValue : ℕ) (ttlSeconds : ℤ) : Op Reply := do
  let result : ℕ ← command (.extendScript (lockKey key) lockValue ttlSeconds)
  pure (.done (result = 1))

end RedisLockService

def Call.body : Call → Op Reply
  | acquireLock key ttlSeconds => RedisLockService.acquireLock key ttlSeconds
  | releaseLock key lockValue => RedisLockService.releaseLock key lockValue
  | extendLock key lockValue ttlSeconds => RedisLockService.extendLock key lockValue ttlSeconds

/-- Time passes. -/
structure Tick where
  ms : ℕ
  deriving DecidableEq, Repr

def service : Service Command Command.Reply Err Empty Write World Call Tick Reply where
  toEngine := engine
  body := Call.body
  accepts _ _ := true
  evolve v w := { w with now := w.now + v.ms }

abbrev Sys := System Command Command.Reply Err Empty Write World Call Reply

abbrev Act := Action Call Tick

/-- Nothing has been called, and no lock is set. -/
structure Sys.Initial (s : Sys) : Prop where
  threads : s.threads = []
  history : s.world.history = []
  keys : ∀ key, s.world.keys (lockKey key) = none

end TurfSync.Redis
