import TurfSync.Guarantees.CacheSweep
import TurfSync.Services.CacheNames
import TurfSync.Txn.Solo

/-! The cache is a table. An id that passed the pipe contains neither a colon nor a character
that means something in a pattern, so the keys of different names differ, and a pattern matches
the keys of exactly the names that a request forgets. One after the other, the requests get from
Redis, with its scans and its deadlines, what they would get from the table. -/

namespace TurfSync.Cache

open Txn Text
open ParseUUIDPipe (Uuid isHex isVariant isHyphen uuidRegex test)

/-! ### Keys -/

theorem test_forall {ps : List (Char → Bool)} {Q : Char → Prop} (hps : ∀ p ∈ ps, ∀ c, p c = true → Q c)
    {cs : List Char} (h : test ps cs = true) : ∀ c ∈ cs, Q c := by
  induction ps generalizing cs with
  | nil =>
    cases cs with
    | nil => simp
    | cons c cs => simp [test] at h
  | cons p ps ih =>
    cases cs with
    | nil => simp
    | cons c cs =>
      simp only [test, Bool.and_eq_true] at h
      intro d hd
      rcases List.mem_cons.mp hd with rfl | hd
      · exact hps p List.mem_cons_self _ h.1
      · exact ih (fun p' hp' => hps p' (List.mem_cons_of_mem p hp')) h.2 d hd

/-- No class of the pattern takes the character. -/
def Outside (d : Char) : Prop :=
  isHex d = false ∧ isHyphen d = false ∧ decide (d = '4') = false ∧ isVariant d = false

instance (d : Char) : Decidable (Outside d) := inferInstanceAs (Decidable (_ ∧ _ ∧ _ ∧ _))

theorem ne_of_outside {d : Char} (hd : Outside d) : ∀ p ∈ uuidRegex, ∀ c, p c = true → c ≠ d := by
  obtain ⟨hhex, hhyphen, hfour, hvariant⟩ := hd
  have hhexes : ∀ n, ∀ p ∈ List.replicate n isHex, p d = false :=
    fun n p hp => (List.mem_replicate.mp hp).2 ▸ hhex
  have hclass : ∀ p ∈ uuidRegex, p d = false := by
    simp only [uuidRegex, List.forall_mem_append, List.forall_mem_cons, List.not_mem_nil,
      IsEmpty.forall_iff, implies_true, and_true]
    exact ⟨⟨⟨⟨⟨⟨⟨⟨hhexes 8, hhyphen⟩, hhexes 4⟩, hhyphen, hfour⟩, hhexes 3⟩, hhyphen, hvariant⟩,
      hhexes 3⟩, hhyphen⟩, hhexes 12⟩
  rintro p hp c hc rfl
  rw [hclass p hp] at hc
  cases hc

theorem ParseUUIDPipe.Uuid.ne_of_outside (id : Uuid) {d : Char} (hd : Outside d) : d ∉ id.text.toList :=
  fun hmem => test_forall (Cache.ne_of_outside hd) id.valid d hmem rfl

theorem ParseUUIDPipe.Uuid.colon_not_mem (id : Uuid) : ':' ∉ id.text.toList :=
  id.ne_of_outside (by decide)

theorem ParseUUIDPipe.Uuid.plain (id : Uuid) : Plain id.text.toList := by
  have hne : ∀ d, Outside d → ∀ c ∈ id.text.toList, c ≠ d :=
    fun d hd c hc he => id.ne_of_outside hd (he ▸ hc)
  exact fun c hc => ⟨hne '*' (by decide) c hc, hne '?' (by decide) c hc, hne '[' (by decide) c hc,
    hne '\\' (by decide) c hc⟩

/-- What comes before the first colon. -/
theorem prefix_colon {xs ys zs : List Char} (hxs : ':' ∉ xs) (hys : ':' ∉ ys) :
    xs ++ [':'] <+: ys ++ ':' :: zs ↔ xs = ys := by
  induction xs generalizing ys with
  | nil =>
    cases ys with
    | nil => simp
    | cons y ys =>
      have hne : ':' ≠ y := fun he => hys (he ▸ List.mem_cons_self)
      simp [List.cons_prefix_cons, hne]
  | cons x xs ih =>
    have hx : x ≠ ':' := fun he => hxs (he ▸ List.mem_cons_self)
    cases ys with
    | nil => simp [List.cons_prefix_cons, hx]
    | cons y ys =>
      rw [List.cons_append, List.cons_append, List.cons_prefix_cons,
        ih (fun h => hxs (List.mem_cons_of_mem x h)) (fun h => hys (List.mem_cons_of_mem y h)),
        List.cons.injEq]

theorem ParseUUIDPipe.Uuid.eq_of_toList {id id' : Uuid} (h : id.text.toList = id'.text.toList) : id = id' := by
  cases id
  cases id'
  cases String.toList_inj.mp h
  rfl

namespace Name

theorem toList_list (fields : String) : (list fields).key.toList =
    ['t', 'u', 'r', 'f', ':', 'l', 'i', 's', 't', ':'] ++ fields.toList := by
  have htext : "turf:list:".toList = ['t', 'u', 'r', 'f', ':', 'l', 'i', 's', 't', ':'] := by decide
  rw [← htext]
  exact String.toList_append

theorem toList_turf (id : Uuid) : (turf id).key.toList =
    ['t', 'u', 'r', 'f', ':'] ++ id.text.toList := by
  have htext : "turf:".toList = ['t', 'u', 'r', 'f', ':'] := by decide
  rw [← htext]
  exact String.toList_append

theorem toList_slots (id : Uuid) (date : String) : (slots id date).key.toList =
    "slots:available:".toList ++ (id.text.toList ++ ':' :: date.toList) := by
  have htext : ":".toList = [':'] := by decide
  change ("slots:available:" ++ id.text ++ ":" ++ date).toList = _
  simp only [String.toList_append, List.append_assoc, htext, List.singleton_append]

theorem key_injective : Function.Injective key := by
  intro a b h
  have hlist := congrArg String.toList h
  -- the id of a turf has no colon, and `list:` has one
  have hturf : ∀ fields id, (list fields).key ≠ (turf id).key := by
    intro fields id he
    have he := congrArg String.toList he
    rw [toList_list, toList_turf] at he
    have hid : id.text.toList = ['l', 'i', 's', 't', ':'] ++ fields.toList := by simpa using he.symm
    exact id.colon_not_mem (by rw [hid]; simp)
  cases a with
  | list fields =>
    cases b with
    | list fields' =>
      rw [toList_list, toList_list] at hlist
      rw [String.toList_inj.mp (List.append_cancel_left hlist)]
    | turf id => exact absurd h (hturf fields id)
    | slots id date =>
      rw [toList_list, toList_slots] at hlist
      simp at hlist
  | turf id =>
    cases b with
    | list fields => exact absurd h.symm (hturf fields id)
    | turf id' =>
      rw [toList_turf, toList_turf] at hlist
      rw [Uuid.eq_of_toList (List.append_cancel_left hlist)]
    | slots id date =>
      rw [toList_turf, toList_slots] at hlist
      simp at hlist
  | slots id date =>
    cases b with
    | list fields =>
      rw [toList_slots, toList_list] at hlist
      simp at hlist
    | turf id =>
      rw [toList_slots, toList_turf] at hlist
      simp at hlist
    | slots id' date' =>
      rw [toList_slots, toList_slots] at hlist
      have hrest := List.append_cancel_left hlist
      have hid : id.text.toList = id'.text.toList := by
        refine (@prefix_colon _ _ date'.toList id.colon_not_mem id'.colon_not_mem).mp ?_
        rw [← hrest]
        exact ⟨date.toList, by simp⟩
      rw [hid, List.append_cancel_left_eq, List.cons.injEq] at hrest
      rw [Uuid.eq_of_toList hid, String.toList_inj.mp hrest.2]

/-- `turf:list:*` matches the keys of the pages. -/
theorem matches_lists (T : Type) (name : Name) :
    Matches "turf:list:*" name.key ↔ (Request.forgetLists : Request T).Drops name := by
  have hplain : Plain ['t', 'u', 'r', 'f', ':', 'l', 'i', 's', 't', ':'] := by decide
  refine (glob_append_star hplain).trans ?_
  cases name with
  | list fields =>
    rw [toList_list]
    exact iff_of_true (List.prefix_append ..) trivial
  | turf id =>
    rw [toList_turf]
    refine iff_of_false (fun hprefix => ?_) not_false
    obtain ⟨rest, hrest⟩ := hprefix
    have hid : id.text.toList = ['l', 'i', 's', 't', ':'] ++ rest := by simpa using hrest.symm
    exact id.colon_not_mem (by rw [hid]; simp)
  | slots id date =>
    rw [toList_slots]
    refine iff_of_false (fun hprefix => ?_) not_false
    obtain ⟨rest, hrest⟩ := hprefix
    simp at hrest

/-- `slots:available:<id>:*` matches the keys of the listings of the turf. -/
theorem matches_slots (T : Type) (id : Uuid) (name : Name) :
    Matches ("slots:available:" ++ id.text ++ ":*") name.key ↔
      (Request.forgetSlots id : Request T).Drops name := by
  have hpattern : ("slots:available:" ++ id.text ++ ":*").toList =
      ("slots:available:".toList ++ (id.text.toList ++ [':'])) ++ ['*'] := by
    have htext : ":*".toList = [':', '*'] := by decide
    simp only [String.toList_append, List.append_assoc, htext, List.singleton_append]
  have hplain : Plain ("slots:available:".toList ++ (id.text.toList ++ [':'])) :=
    Plain.append (by decide) (Plain.append (id.plain) (by decide))
  rw [Matches, hpattern, glob_append_star hplain]
  cases name with
  | list fields =>
    rw [toList_list]
    refine iff_of_false (fun hprefix => ?_) not_false
    obtain ⟨rest, hrest⟩ := hprefix
    simp at hrest
  | turf id' =>
    rw [toList_turf]
    refine iff_of_false (fun hprefix => ?_) not_false
    obtain ⟨rest, hrest⟩ := hprefix
    simp at hrest
  | slots id' date =>
    rw [toList_slots, List.prefix_append_right_inj, prefix_colon id.colon_not_mem
      id'.colon_not_mem]
    exact ⟨fun h => (Uuid.eq_of_toList h).symm, fun h => by rw [show id' = id from h]⟩

end Name

/-! ### One request -/

variable {T : Type} {redis : Scan} {w : World T} {m : Table T}

/-- Redis holds the table: under the key of each name what has not expired. -/
structure Holds (w : World T) (m : Table T) : Prop where
  now : w.now = m.now
  keys : (w.items.map (·.key)).Nodup
  timed : ∀ item ∈ w.items, item.expiresAt ≠ none
  items : ∀ name value t, m.now < t → (m.entries name = some (value, t) ↔
    ∃ item ∈ w.items, item.key = name.key ∧ item.value = value ∧ item.expiresAt = some t)

theorem mem_live {item : Item T} : item ∈ w.live ↔ item ∈ w.items ∧ item.Alive w.now := by
  simp [World.live]

theorem get_eq_some (hkeys : (w.items.map (·.key)).Nodup) {key : String} {value : T} :
    w.get key = some value ↔ ∃ item ∈ w.live, item.key = key ∧ item.value = value := by
  have hlive : (w.live.map (·.key)).Nodup := hkeys.sublist (List.filter_sublist.map _)
  constructor
  · intro h
    obtain ⟨item, hitem, rfl⟩ := Option.map_eq_some_iff.mp h
    have hkey := List.find?_some hitem
    exact ⟨item, List.mem_of_find?_eq_some hitem, of_decide_eq_true hkey, rfl⟩
  · rintro ⟨item, hitem, rfl, rfl⟩
    have hfind : w.live.find? (·.key = item.key) = some item :=
      Rows.lookup_of_mem hlive hitem
    rw [World.get, hfind]
    rfl

theorem Holds.get (h : Holds w m) (name : Name) : w.get name.key = m.get name := by
  refine Option.ext fun value => ?_
  rw [get_eq_some h.keys, Table.get]
  simp only [Option.map_eq_some_iff, Option.filter_eq_some_iff, decide_eq_true_eq]
  constructor
  · rintro ⟨item, hitem, hkey, rfl⟩
    obtain ⟨hmem, halive⟩ := mem_live.mp hitem
    obtain ⟨t, ht⟩ := Option.ne_none_iff_exists'.mp (h.timed item hmem)
    have hnow : m.now < t := h.now ▸ halive t ht
    exact ⟨(item.value, t), ⟨(h.items name item.value t hnow).mpr ⟨item, hmem, hkey, rfl, ht⟩, hnow⟩, rfl⟩
  · rintro ⟨⟨value', t⟩, ⟨hentry, hnow⟩, rfl⟩
    obtain ⟨item, hmem, hkey, hvalue, ht⟩ := (h.items name value' t hnow).mp hentry
    refine ⟨item, mem_live.mpr ⟨hmem, fun d hd => ?_⟩, hkey, hvalue⟩
    obtain rfl : t = d := Option.some.inj (ht.symm.trans hd)
    exact h.now ▸ hnow

theorem Holds.wait (h : Holds w m) (v : Redis.Tick) :
    Holds { w with now := w.now + v.ms } { m with now := m.now + v.ms } where
  now := by simp [h.now]
  keys := h.keys
  timed := h.timed
  items name value t ht :=
    h.items name value t (lt_of_le_of_lt (le_add_of_nonneg_right (Int.natCast_nonneg v.ms)) ht)

/-- The keys of the names that are dropped are deleted, and no others. -/
theorem Holds.del (h : Holds w m) {keys : List String} {drops : Name → Prop} [DecidablePred drops]
    (hin : ∀ item ∈ w.live, ∀ name, item.key = name.key → drops name → name.key ∈ keys)
    (hout : ∀ name, name.key ∈ keys → drops name) :
    Holds (w.apply (.del keys))
      { m with entries := fun name => if drops name then none else m.entries name } where
  now := h.now
  keys := h.keys.sublist (List.filter_sublist.map _)
  timed item hitem := h.timed item (List.mem_filter.mp hitem).1
  items name value t ht := by
    have hname := h.items name value t ht
    simp only [World.apply, List.mem_filter, decide_eq_true_eq]
    split_ifs with hdrop
    · refine iff_of_false (by simp) ?_
      rintro ⟨item, ⟨hmem, hnot⟩, hkey, -, hexpires⟩
      refine hnot (hkey ▸ hin item (mem_live.mpr ⟨hmem, fun d hd => ?_⟩) name hkey hdrop)
      obtain rfl : t = d := Option.some.inj (hexpires.symm.trans hd)
      exact h.now ▸ ht
    · rw [hname]
      constructor
      · rintro ⟨item, hmem, hkey, hrest⟩
        exact ⟨item, ⟨hmem, fun hin => hdrop (hout name (hkey ▸ hin))⟩, hkey, hrest⟩
      · rintro ⟨item, ⟨hmem, -⟩, hrest⟩
        exact ⟨item, hmem, hrest⟩

/-- A value is set under the key of its name. -/
theorem Holds.put (h : Holds w m) (name : Name) (value : T) (t : Time) :
    Holds (w.apply (.set name.key value (some t)))
      { m with entries := Function.update m.entries name (some (value, t)) } where
  now := h.now
  keys := by
    have hsub : ((w.items.filter (·.key ≠ name.key)).map (·.key)).Nodup :=
      h.keys.sublist (List.filter_sublist.map _)
    simp only [World.apply, List.map_append, List.map_singleton]
    refine List.Nodup.append hsub (List.nodup_singleton _) fun key hkey hsingle => ?_
    obtain ⟨item, hitem, rfl⟩ := List.mem_map.mp hkey
    exact of_decide_eq_true (List.mem_filter.mp hitem).2 (List.mem_singleton.mp hsingle)
  timed item hitem := by
    rcases List.mem_append.mp hitem with hitem | hitem
    · exact h.timed item (List.mem_filter.mp hitem).1
    · rw [List.mem_singleton.mp hitem]
      simp
  items name' value' t' ht' := by
    change Function.update m.entries name (some (value, t)) name' = _ ↔ _
    by_cases hname : name' = name
    · subst hname
      rw [Function.update_self]
      constructor
      · intro he
        obtain ⟨rfl, rfl⟩ := Prod.mk.inj (Option.some.inj he)
        exact ⟨_, List.mem_append_right _ (List.mem_singleton.mpr rfl), rfl, rfl, rfl⟩
      · rintro ⟨item, hmem, hitem, rfl, hexpires⟩
        rcases List.mem_append.mp hmem with hmem | hmem
        · exact absurd hitem (of_decide_eq_true (List.mem_filter.mp hmem).2)
        · rw [List.mem_singleton.mp hmem] at hexpires ⊢
          rw [Option.some.inj hexpires]
    · have hkey : name'.key ≠ name.key := fun he => hname (Name.key_injective he)
      rw [Function.update_of_ne hname, h.items name' value' t' ht']
      constructor
      · rintro ⟨item, hmem, hitem, hrest⟩
        refine ⟨item, List.mem_append_left _ (List.mem_filter.mpr ⟨hmem, ?_⟩), hitem, hrest⟩
        simp [hitem, hkey]
      · rintro ⟨item, hmem, hitem, hrest⟩
        rcases List.mem_append.mp hmem with hmem | hmem
        · exact ⟨item, (List.mem_filter.mp hmem).1, hitem, hrest⟩
        · rw [List.mem_singleton.mp hmem] at hitem
          exact absurd hitem.symm hkey

/-! ### A call that runs alone -/

theorem apply_del_del (w : World T) (keys keys' : List String) :
    (w.apply (.del keys)).apply (.del keys') = w.apply (.del (keys ++ keys')) := by
  simp only [World.apply, List.filter_filter]
  congr 2
  funext item
  simp [Bool.and_comm]

theorem solo_delKeys (c : Session (Call T)) (keys : List String) (w : World T) :
    (engine redis T).solo c (RedisLockService.delKeys keys) .idle w =
      (.ok (), .idle, w.apply (.del keys)) := by
  rw [RedisLockService.delKeys]
  split_ifs with hnil
  · subst hnil
    have hsame : w.apply (.del []) = w := by simp [World.apply]
    rw [hsame]
    rfl
  · rfl

/-- From a cursor on, the keys that match are deleted that the iteration owes, and no others but
such as match. -/
theorem solo_scanLoop (c : Session (Call T)) (pattern : String) {fuel cursor : ℕ}
    (hfuel : redis.left cursor < fuel) (w : World T) :
    ∃ keys, (∀ key ∈ keys, Matches pattern key) ∧
      (∀ item ∈ w.live, Matches pattern item.key → redis.Owes cursor item.key → item.key ∈ keys) ∧
      (engine redis T).solo c (RedisLockService.scanLoop pattern fuel cursor) .idle w =
        (.ok (), .idle, w.apply (.del keys)) := by
  induction fuel generalizing cursor w with
  | zero => omega
  | succ fuel ih =>
    obtain ⟨next, page, hscan⟩ : ∃ next page,
      redis.scan (w.live.map (·.key)) cursor pattern 100 = (next, page) := ⟨_, _, rfl⟩
    have hreturns := redis.returns (w.live.map (·.key)) cursor pattern 100
    have hsound := redis.sound (w.live.map (·.key)) cursor pattern 100
    have hends := redis.ends (w.live.map (·.key)) cursor pattern 100
    have hloop : (engine redis T).solo c (RedisLockService.scanLoop pattern (fuel + 1) cursor) .idle w =
        (engine redis T).solo c (if next ≠ 0 then RedisLockService.scanLoop pattern fuel next else pure ())
          .idle (w.apply (.del page)) := by
      have hpage : (engine redis T).solo c (command (.scan cursor pattern 100)) .idle w =
          (.ok (next, page), .idle, w) := by
        rw [← hscan]
        exact Engine.solo_perform_read (E := engine redis T) (c := c) _ w rfl
      rw [RedisLockService.scanLoop, Prog.bind_eq, Engine.solo_bind, hpage, Engine.andThen_ok,
        Prog.bind_eq, Engine.solo_bind, solo_delKeys, Engine.andThen_ok]
    rw [hscan] at hreturns hsound hends
    dsimp only at hreturns hsound hends
    rw [hloop]
    split_ifs with hnext
    · have hleft := hends hnext
      obtain ⟨rest, hmatch, howed, hrest⟩ := @ih next (by omega) (w.apply (.del page))
      refine ⟨page ++ rest, fun key hkey => ?_, fun item hitem hkey howes => ?_, ?_⟩
      · rcases List.mem_append.mp hkey with hkey | hkey
        · exact (hsound key hkey).2
        · exact hmatch key hkey
      · by_cases hin : item.key ∈ page
        · exact List.mem_append_left _ hin
        · obtain ⟨hmem, halive⟩ := mem_live.mp hitem
          have hlater := (hreturns item.key (List.mem_map_of_mem hitem) hkey howes).resolve_left hin
          refine List.mem_append_right _ (howed item (mem_live.mpr ⟨?_, halive⟩) hkey hlater.2)
          exact List.mem_filter.mpr ⟨hmem, by simpa using hin⟩
      · rw [hrest, apply_del_del]
    · refine ⟨page, fun key hkey => (hsound key hkey).2, fun item hitem hkey howes => ?_, rfl⟩
      exact (hreturns item.key (List.mem_map_of_mem hitem) hkey howes).resolve_right
        fun hlater => hnext hlater.1

theorem solo_delByPattern (c : Session (Call T)) (pattern : String) (w : World T) :
    ∃ keys, (∀ key ∈ keys, Matches pattern key) ∧
      (∀ item ∈ w.live, Matches pattern item.key → item.key ∈ keys) ∧
      (engine redis T).solo c (Call.body redis (.delByPattern pattern)) .idle w =
        (.ok .done, .idle, w.apply (.del keys)) := by
  obtain ⟨keys, hmatch, hall, hloop⟩ :=
    solo_scanLoop c pattern (Nat.lt_succ_self (redis.left 0)) w
  refine ⟨keys, hmatch, fun item hitem hkey => hall item hitem hkey (redis.starts item.key), ?_⟩
  rw [Call.body, RedisLockService.delByPattern, quietly, Prog.bind_eq, Engine.solo_bind,
    Engine.solo_tryCatch, hloop]
  rfl

/-- A request that runs alone is answered as by the table, and the cache holds the table after it. -/
theorem Holds.request (h : Holds w m) (c : Session (Call T)) (r : Request T) :
    ∃ w', (engine redis T).solo c (Call.body redis r.call) .idle w = (.ok (m.answer r), .idle, w') ∧
      Holds w' (m.after r) := by
  cases r with
  | get name =>
    refine ⟨w, ?_, h⟩
    rw [Table.answer, ← h.get name]
    rfl
  | put name value =>
    refine ⟨w.apply (.set name.key value (some (w.now + 1000 * name.ttlSeconds))), ?_, ?_⟩
    · cases name <;> rfl
    · rw [h.now]
      exact h.put name value _
  | forgetTurf id =>
    refine ⟨w.apply (.del [(Name.turf id).key]), rfl, h.del (fun item _ name _ hdrop => ?_)
      fun name hname => ?_⟩
    · cases name with
      | turf id' => exact List.mem_singleton.mpr (by rw [show id' = id from hdrop])
      | _ => exact hdrop.elim
    · obtain rfl := Name.key_injective (List.mem_singleton.mp hname)
      exact rfl
  | forgetLists =>
    obtain ⟨keys, hmatch, hall, hsolo⟩ := solo_delByPattern c "turf:list:*" w
    refine ⟨w.apply (.del keys), hsolo, h.del (fun item hitem name hkey hdrop => ?_)
      fun name hname => (Name.matches_lists T name).mp (hmatch _ hname)⟩
    rw [← hkey]
    exact hall item hitem (hkey ▸ (Name.matches_lists T name).mpr hdrop)
  | forgetSlots id =>
    obtain ⟨keys, hmatch, hall, hsolo⟩ := solo_delByPattern c
      ("slots:available:" ++ id.text ++ ":*") w
    refine ⟨w.apply (.del keys), hsolo, h.del (fun item hitem name hkey hdrop => ?_)
      fun name hname => (Name.matches_slots T id name).mp (hmatch _ hname)⟩
    rw [← hkey]
    exact hall item hitem (hkey ▸ (Name.matches_slots T id name).mpr hdrop)

/-- One request after the other is answered as by the table, however Redis divides its keys. -/
theorem play_eq_table {s : Sys T} {m : Table T} (h : Holds s.world m) (moves : List (Move T)) :
    play redis s moves = (m.play moves).map .ok := by
  induction moves generalizing s m with
  | nil => rfl
  | cons move moves ih =>
    cases move with
    | wait v => exact ih (h.wait v)
    | request r =>
      obtain ⟨w', hsolo, hw'⟩ := h.request ⟨s.threads.length, r.call⟩ r
      have hreply : (service redis T).reply s r.call = .ok (m.answer r) := congrArg Prod.fst hsolo
      have hserve : ((service redis T).serve s r.call).world = w' :=
        congrArg (fun x => x.2.2) hsolo
      rw [play, Table.play, List.map_cons, hreply, ih (hserve.symm ▸ hw')]

/-- The empty cache holds the empty table. -/
theorem holds_empty (now : Time) (sets : ℕ) :
    Holds (⟨now, sets, []⟩ : World T) ⟨now, fun _ => none⟩ where
  now := rfl
  keys := List.nodup_nil
  timed := by simp
  items := by simp

def Arena.id : Uuid := ⟨"c56a4180-65aa-42ec-a945-5fd21dec0538", by decide +kernel⟩

def Arena.other : Uuid := ⟨"C56A4180-65AA-42EC-A945-5FD21DEC0539", by decide +kernel⟩

/-- A turf, its listings for two days, a page and another turf's listing are cached; the listings
of the turf and the pages are forgotten, and a minute passes. -/
def Arena.moves : List (Move ℕ) :=
  [.request (.put (.slots id "2026-01-01") 1), .request (.put (.slots id "2026-01-02") 2),
    .request (.put (.slots other "2026-01-01") 3), .request (.put (.turf id) 4),
    .request (.put (.list "::::::1:10") 5), .request (.forgetSlots id),
    .request (.get (.slots id "2026-01-02")), .request (.get (.slots other "2026-01-01")),
    .request (.get (.list "::::::1:10")), .request .forgetLists,
    .request (.get (.list "::::::1:10")), .wait ⟨60000⟩,
    .request (.get (.slots other "2026-01-01")), .request (.get (.turf id))]

theorem play_eq_table_moves : play halves Arena.cache Arena.moves =
    [.done, .done, .done, .done, .done, .done, .value none, .value (some 3), .value (some 5), .done,
      .value none, .value none, .value (some 4)].map Except.ok :=
  (@play_eq_table ℕ halves Arena.cache _ (holds_empty 0 0) Arena.moves).trans (by decide +kernel)

end TurfSync.Cache
