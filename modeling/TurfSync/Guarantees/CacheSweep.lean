import TurfSync.Services.RedisCache
import TurfSync.Txn.Runs

/-! What `delByPattern` deletes. It is not atomic: between the parts of its iteration other
clients set and delete keys, and entries expire. Still, when it is through, every entry whose key
matches was set after it had begun; and an entry that no call names, by its key or by a pattern,
stays. -/

namespace TurfSync.Cache

open Txn Text

variable {redis : Scan} {T : Type}

/-! ### What calls write -/

/-- The call may set or delete the key. -/
def Call.Touches : Call T → String → Prop
  | get _, _ => False
  | set key _ _, key' => key = key'
  | del key, key' => key = key'
  | delByPattern pattern, key' => Matches pattern key'

instance : (c : Call T) → DecidablePred c.Touches
  | .get _ => fun _ => inferInstanceAs (Decidable False)
  | .set _ _ _ => fun _ => inferInstanceAs (Decidable (_ = _))
  | .del _ => fun _ => inferInstanceAs (Decidable (_ = _))
  | .delByPattern _ => fun _ => inferInstanceAs (Decidable (Matches _ _))

/-- The keys that are set or deleted. -/
def Write.keys : Write T → List String
  | .set key _ _ => [key]
  | .del keys => keys

namespace World

variable {w w' : World T} {xs : List (Write T)}

/-- An entry that no write names is as before. -/
theorem filter_apply {x : Write T} {key : String} (hx : key ∉ x.keys) :
    (w.apply x).items.filter (·.key = key) = w.items.filter (·.key = key) := by
  cases x with
  | set key' value expiresAt =>
    have hne : key ≠ key' := fun he => hx (List.mem_singleton.mpr he)
    rw [apply, List.filter_append, List.filter_filter, List.filter_singleton]
    simp only [hne.symm, decide_false, cond_false, List.append_nil]
    refine List.filter_congr fun item _ => ?_
    by_cases hkey : item.key = key
    · simp [hkey, hne]
    · simp [hkey]
  | del keys =>
    have hnot : key ∉ keys := hx
    rw [apply, List.filter_filter]
    refine List.filter_congr fun item _ => ?_
    by_cases hkey : item.key = key
    · simp [hkey, hnot]
    · simp [hkey]

theorem filter_foldl {key : String} (hxs : ∀ x ∈ xs, key ∉ x.keys) :
    (xs.foldl World.apply w).items.filter (·.key = key) = w.items.filter (·.key = key) := by
  induction xs generalizing w with
  | nil => rfl
  | cons x xs ih =>
    rw [List.foldl_cons, ih fun y hy => hxs y (List.mem_cons_of_mem x hy),
      filter_apply (hxs x List.mem_cons_self)]

/-- Every entry was set by a `SET` that was counted. -/
def Counted (w : World T) : Prop := ∀ item ∈ w.items, item.serial < w.sets

/-- Time has passed and entries were set; nothing has come back. -/
structure Later (w w' : World T) : Prop where
  now : w.now ≤ w'.now
  sets : w.sets ≤ w'.sets
  items : ∀ item ∈ w'.items, item ∈ w.items ∨ w.sets ≤ item.serial

theorem Later.refl (w : World T) : w.Later w := ⟨le_refl _, le_refl _, fun _ h => .inl h⟩

theorem Later.trans {w'' : World T} (h : w.Later w') (h' : w'.Later w'') : w.Later w'' where
  now := le_trans h.now h'.now
  sets := le_trans h.sets h'.sets
  items item hitem := by
    rcases h'.items item hitem with hold | hnew
    · exact h.items item hold
    · exact .inr (le_trans h.sets hnew)

theorem Counted.apply (h : w.Counted) (x : Write T) : (w.apply x).Counted := by
  cases x with
  | set key value expiresAt =>
    intro item hitem
    rcases List.mem_append.mp hitem with hitem | hitem
    · exact Nat.lt_succ_of_lt (h item (List.mem_filter.mp hitem).1)
    · rw [List.mem_singleton.mp hitem]
      exact Nat.lt_succ_self _
  | del keys => exact fun item hitem => h item (List.mem_filter.mp hitem).1

theorem later_apply (w : World T) (x : Write T) : w.Later (w.apply x) := by
  cases x with
  | set key value expiresAt =>
    refine ⟨le_refl _, Nat.le_succ _, fun item hitem => ?_⟩
    rcases List.mem_append.mp hitem with hitem | hitem
    · exact .inl (List.mem_filter.mp hitem).1
    · rw [List.mem_singleton.mp hitem]
      exact .inr (le_refl _)
  | del keys => exact ⟨le_refl _, le_refl _, fun item hitem => .inl (List.mem_filter.mp hitem).1⟩

theorem later_foldl (w : World T) (xs : List (Write T)) : w.Later (xs.foldl World.apply w) := by
  induction xs generalizing w with
  | nil => exact .refl w
  | cons x xs ih => exact (later_apply w x).trans (ih _)

theorem Counted.foldl (h : w.Counted) (xs : List (Write T)) :
    (xs.foldl World.apply w).Counted := by
  induction xs generalizing w with
  | nil => exact h
  | cons x xs ih => exact ih (h.apply x)

/-- Of the entries that match, those older than the `n`-th `SET` are under keys in `owed`. -/
def Owed (n : ℕ) (pattern : String) (owed : String → Prop) (w : World T) : Prop :=
  ∀ item ∈ w.items, item.Alive w.now → Matches pattern item.key → item.serial < n → owed item.key

variable {n : ℕ} {pattern : String} {owed owed' : String → Prop}

theorem Alive.earlier {item : Item T} {t t' : Time} (h : item.Alive t') (ht : t ≤ t') :
    item.Alive t := fun d hd => lt_of_le_of_lt ht (h d hd)

theorem Owed.later (h : w.Owed n pattern owed) (hw : w.Later w') (hn : n ≤ w.sets) :
    w'.Owed n pattern owed := by
  intro item hitem halive hmatch hserial
  rcases hw.items item hitem with hold | hnew
  · exact h item hold (Alive.earlier halive hw.now) hmatch hserial
  · omega

theorem Owed.mono (h : w.Owed n pattern owed) (howed : ∀ key, owed key → owed' key) :
    w.Owed n pattern owed' :=
  fun item hitem halive hmatch hserial => howed _ (h item hitem halive hmatch hserial)

end World

/-! ### The rules of a call -/

theorem act_world (m : Command T) (v w : World T) : (m.act redis v w).world = w := by
  cases m with
  | setex key ttlSeconds value =>
    simp only [Command.act]
    split_ifs <;> rfl
  | _ => rfl

/-- The others set and delete what they like, and no command of call `i` fails. A call writes
what it may touch. -/
def rules (i : Option ℕ) : Rules (Command T) Empty (Write T) (World T) (Call T) where
  inv := World.Counted
  rely _ _ w w' := w.Later w'
  start _ _ := True
  allow c _ _ _ failed := i = some c.id → failed = false
  post c _ ws _ := ∀ x ∈ ws, ∀ key ∈ x.keys, c.call.Touches key

theorem rules_lawful (i : Option ℕ) : (rules i).Lawful (engine redis T) where
  refl _ _ w := .refl w
  trans h h' := h.trans h'
  start _ _ := trivial
  act_inv m v w hw := by
    change (m.act redis v w).world.Counted
    rwa [act_world]
  act_rely m v w _ _ _ := by
    change w.Later (m.act redis v w).world
    rw [act_world]
    exact .refl w
  commit_inv hw _ := hw.foldl _
  commit_rely _ _ _ _ := World.later_foldl _ _

section

variable {i : Option ℕ} {c : Session (Call T)} {w : World T} {n : ℕ} {pattern : String}

/-- What call `i` owes of the entries older than the `n`-th `SET`. -/
def Cleans (i : Option ℕ) (c : Session (Call T)) (n : ℕ) (pattern : String) (owed : String → Prop)
    (w : World T) : Prop := i = some c.id → n ≤ w.sets ∧ w.Owed n pattern owed

theorem Cleans.later {owed : String → Prop} {w' : World T} (h : Cleans i c n pattern owed w)
    (hw : w.Later w') : Cleans i c n pattern owed w' := by
  intro hi
  obtain ⟨hn, howed⟩ := h hi
  exact ⟨le_trans hn hw.sets, howed.later hw hn⟩

theorem Cleans.mono {owed owed' : String → Prop} (h : Cleans i c n pattern owed w)
    (howed : ∀ key, owed key → owed' key) : Cleans i c n pattern owed' w :=
  fun hi => ⟨(h hi).1, (h hi).2.mono howed⟩

/-- The keys of one part are gone. -/
theorem wp_delKeys {keys : List String} {owed : String → Prop}
    (hkeys : ∀ key ∈ keys, c.call.Touches key)
    (h : Cleans i c n pattern (fun key => key ∈ keys ∨ owed key) w) :
    wp (engine redis T) (rules i) c (RedisLockService.delKeys keys)
      (fun r l w' => r = .ok () ∧ l = .idle ∧ Cleans i c n pattern owed w') .idle w := by
  rw [RedisLockService.delKeys]
  split_ifs with hnil
  · intro w' hw _
    refine ⟨rfl, rfl, (h.later hw).mono fun key hkey => ?_⟩
    simpa [hnil] using hkey
  · refine wp_tryCatch (rules_lawful i) (wp_stmt_auto (fun w' hw _ _ => ⟨fun hws => ?_, fun _ => ⟨?_, ?_⟩⟩)
      fun w' hw _ hfail => ?_)
    · cases hws
    · intro x hx key hkey
      rw [List.mem_singleton.mp hx] at hkey
      exact hkeys key hkey
    · intro w₁ hw₁ _
      refine ⟨rfl, rfl, Cleans.later (fun hi => ?_) hw₁⟩
      obtain ⟨hn, howed⟩ := h.later hw hi
      refine ⟨hn, fun item hitem halive hmatch hserial => ?_⟩
      obtain ⟨hitem, hnot⟩ := List.mem_filter.mp hitem
      exact (howed item hitem halive hmatch hserial).resolve_left (by simpa using hnot)
    · -- a `DEL` that fails is logged
      intro _ _ _ _ _ _
      exact ⟨rfl, rfl, fun hi => absurd (hfail hi) (by simp)⟩

/-- At a cursor, the entries that were there at the start are owed by the iteration. -/
theorem wp_scanLoop (hpattern : ∀ key, Matches pattern key → c.call.Touches key) {fuel cursor : ℕ}
    (hfuel : redis.left cursor < fuel) (h : Cleans i c n pattern (redis.Owes cursor) w) :
    wp (engine redis T) (rules i) c (RedisLockService.scanLoop pattern fuel cursor)
      (fun _ _ w' => Cleans i c n pattern (fun _ => False) w') .idle w := by
  induction fuel generalizing cursor w with
  | zero => omega
  | succ fuel ih =>
    refine wp_stmt_read (fun _ _ => rfl) (fun w' hw _ _ => ?_) fun w' hw _ hfail => ?_
    · have hpage : Cleans i c n pattern (fun key =>
          key ∈ (redis.scan (w'.live.map (·.key)) cursor pattern 100).2 ∨
          (redis.scan (w'.live.map (·.key)) cursor pattern 100).1 ≠ 0 ∧
            redis.Owes (redis.scan (w'.live.map (·.key)) cursor pattern 100).1 key) w' := by
        intro hi
        obtain ⟨hn, howed⟩ := h.later hw hi
        refine ⟨hn, fun item hitem halive hmatch hserial => ?_⟩
        have hlive : item ∈ w'.live := List.mem_filter.mpr ⟨hitem, by simpa using halive⟩
        exact redis.returns _ cursor pattern 100 item.key (List.mem_map_of_mem hlive) hmatch
          (howed item hitem halive hmatch hserial)
      refine wp_bind (rules_lawful i) (wp_mono (wp_delKeys (fun key hkey => hpattern key
        (redis.sound _ cursor pattern 100 key hkey).2) hpage) ?_)
      rintro r l w₁ - ⟨rfl, rfl, hclean⟩
      split_ifs with hnext
      · exact ih (by have := redis.ends _ cursor pattern 100 hnext; omega)
          (hclean.mono fun key hkey => hkey.2)
      · intro w₂ hw₂ _
        exact (hclean.mono fun key hkey => hnext hkey.1).later hw₂
    · exact wp_throw fun _ _ hi => absurd (hfail hi) (by simp)

/-- One command, whether it fails or not. -/
theorem wp_command {m : Command T} {f : Except Err m.Reply → Op T (Reply T)}
    (hm : ∀ w, ∀ x ∈ (m.act redis w w).writes, ∀ key ∈ x.keys, c.call.Touches key)
    (hf : ∀ r, ∃ a, f r = .ret a) :
    wp (engine redis T) (rules i) c (.call (.stmt m) f) (fun _ _ _ => True) .idle w := by
  intro w' _ _
  refine ⟨fun _ => ⟨fun ws hws => ?_, ?_⟩, fun _ => ?_⟩
  · rw [Engine.exec_auto rfl] at hws ⊢
    simp only at hws
    split_ifs at hws
    obtain rfl := Option.some.inj hws
    exact hm w'
  · obtain ⟨a, ha⟩ := hf ((engine redis T).exec .idle w' (.stmt m)).reply
    rw [ha]
    exact fun _ _ _ => trivial
  · obtain ⟨a, ha⟩ := hf (.error (engine redis T).fault)
    rw [ha]
    exact fun _ _ _ => trivial

/-- `delByPattern` returns, and nothing old is left. -/
theorem wp_delByPattern (hpattern : ∀ key, Matches pattern key → c.call.Touches key)
    (hn : n ≤ w.sets) : wp (engine redis T) (rules i) c (Call.body redis (.delByPattern pattern))
      (fun r _ w' => r = .ok .done ∧ Cleans i c n pattern (fun _ => False) w') .idle w := by
  have hstart : Cleans i c n pattern (redis.Owes 0) w :=
    fun _ => ⟨hn, fun item _ _ _ _ => redis.starts item.key⟩
  have hloop := wp_scanLoop hpattern (Nat.lt_succ_self (redis.left 0)) hstart
  refine wp_bind (rules_lawful i) (wp_tryCatch (rules_lawful i) (wp_mono hloop ?_))
  rintro r l w₁ - hclean
  cases r with
  | ok a => exact fun w₂ hw₂ _ => ⟨rfl, hclean.later hw₂⟩
  | error e => exact fun w₂ hw₂ _ w₃ hw₃ _ => ⟨rfl, (hclean.later hw₂).later hw₃⟩

theorem wp_body (c : Session (Call T)) (w : World T) : wp (engine redis T) (rules i) c
    (Call.body redis c.call) (fun _ _ _ => True) .idle w := by
  obtain ⟨id, call⟩ := c
  cases call with
  | delByPattern pattern =>
    exact wp_mono (wp_delByPattern (fun _ h => h) (le_refl _)) fun _ _ _ _ _ => trivial
  | get key =>
    refine wp_command (fun _ x hx => by cases hx) fun r => ?_
    cases r <;> exact ⟨_, rfl⟩
  | del key =>
    refine wp_command (fun _ x hx key' hkey => ?_) fun r => ?_
    · rw [List.mem_singleton.mp hx] at hkey
      exact (List.mem_singleton.mp hkey).symm
    · cases r <;> exact ⟨_, rfl⟩
  | set key value ttlSeconds =>
    change wp _ _ _ ((RedisLockService.set key value ttlSeconds).bind _) _ _ _
    rw [RedisLockService.set]
    cases ttlSeconds.filter (· ≠ 0) with
    | none =>
      refine wp_command (fun _ x hx key' hkey => ?_) fun r => ?_
      · rw [List.mem_singleton.mp hx] at hkey
        exact (List.mem_singleton.mp hkey).symm
      · cases r <;> exact ⟨_, rfl⟩
    | some ttl =>
      refine wp_command (fun _ x hx key' hkey => ?_) fun r => ?_
      · simp only [Command.act] at hx
        split_ifs at hx
        · cases hx
        · rw [List.mem_singleton.mp hx] at hkey
          exact (List.mem_singleton.mp hkey).symm
      · cases r <;> exact ⟨_, rfl⟩

end

theorem starts (i : Option ℕ) : Starts (service redis T) (rules i) fun _ _ _ _ => True where
  evolve_inv _ _ h := h
  evolve_rely v w _ _ _ := ⟨by simp [service], le_refl _, fun _ h => .inl h⟩
  body n c w _ _ _ := wp_body ⟨n, c⟩ w

/-! ### The sweep -/

/-- Any commands may fail. -/
theorem permits_none (s : Sys T) (a : Act T) :
    Permits (service redis T) (rules none).allow s a := by
  have hnext : ∀ {p : Op T (Reply T)} (φ : Cmd (Command T) → Prop), (∀ m, φ m) → p.Next φ := by
    intro p φ hφ
    cases p with
    | call m k => exact hφ m
    | _ => trivial
  cases a with
  | run j => exact fun _ t _ => hnext _ fun m hi => absurd hi (by simp)
  | fault j => exact fun t _ => hnext _ fun m hi => absurd hi (by simp)
  | _ => trivial

/-- Fewer failures, fewer duties. -/
theorem wp_faultless {α : Type} {c : Session (Call T)} {p : Op T α} {i : Option ℕ}
    {Q : Post Err Empty (Write T) (World T) α} {l : Local Empty (Write T)} {w : World T}
    (h : wp (engine redis T) (rules none) c p Q l w) : wp (engine redis T) (rules i) c p Q l w := by
  induction p generalizing l w with
  | ret a => exact h
  | throw e => exact h
  | call m k ih =>
    intro w' hw hinv
    obtain ⟨hdone, hfail⟩ := h w' hw hinv
    have hdone := hdone fun hi => absurd hi (by simp)
    exact ⟨fun _ => ⟨hdone.1, ih _ hdone.2⟩, fun _ => ih _ (hfail fun hi => absurd hi (by simp))⟩

/-- What holds of every state of the cache. -/
abbrev Lawful (redis : Scan) (i : Option ℕ) : Sys T → Prop :=
  Sound (service redis T) (rules i) fun _ _ _ _ => True

namespace Lawful

variable {s : Sys T} {as : List (Act T)} {i : ℕ}

theorem initial (hs : s.Initial) : Lawful redis none s where
  inv := hs.serials
  starts _ _ := trivial
  ids i t ht := by simp [hs.threads] at ht
  excl i t ht := by simp [hs.threads] at ht
  wps i t ht := by simp [hs.threads] at ht

theorem run (h : Lawful redis none s) (as : List (Act T)) :
    Lawful redis none ((service redis T).run s as) :=
  (Service.always_sound (rules_lawful none) (starts none) h
    (Service.each_of_forall permits_none s as)).last

theorem faultless (h : Lawful redis none s) : Lawful redis (some i) s where
  inv := h.inv
  starts _ _ := trivial
  ids := h.ids
  excl := h.excl
  wps j t ht := wp_faultless (h.wps j t ht)

/-- The commands of call `i` do not fail. -/
theorem permitted (h : Lawful redis none s) (hfault : ∀ a ∈ as, a ≠ .fault i) :
    (service redis T).Each (Permits (service redis T) (rules (some i)).allow) s as := by
  induction as generalizing s with
  | nil => trivial
  | cons a as ih =>
    have hrest := ih (h.step (rules_lawful none) (starts none) (permits_none s a))
      fun b hb => hfault b (List.mem_cons_of_mem a hb)
    refine ⟨?_, hrest⟩
    cases a with
    | run j =>
      intro _ t _
      cases t.prog with
      | call m k => exact fun _ => rfl
      | _ => trivial
    | fault j =>
      intro t ht
      have hne : i ≠ j := fun he => hfault (.fault j) List.mem_cons_self (by rw [he])
      cases t.prog with
      | call m k =>
        intro hi
        exact absurd (Option.some.inj hi) (by rw [h.ids j t ht]; exact hne)
      | _ => trivial
    | _ => trivial

end Lawful

section

variable {s : Sys T} {pre post as : List (Act T)} {pattern : String}

/-- When a `delByPattern` none of whose commands failed is through, each entry that is there
and matches was set after the call had begun. -/
theorem delByPattern_sweeps (hs : s.Initial) {r : Except Err (Reply T)}
    (hfault : ∀ a ∈ post, a ≠ .fault ((service redis T).run s pre).threads.length)
    (he : ((service redis T).run s (pre ++ .spawn (.delByPattern pattern) :: post)).Ended
      ((service redis T).run s pre).threads.length (.delByPattern pattern) r) :
    r = .ok .done ∧
      ∀ item ∈ ((service redis T).run s (pre ++ .spawn (.delByPattern pattern) :: post)).world.live,
        Matches pattern item.key → ((service redis T).run s pre).world.sets ≤ item.serial := by
  have ht : Lawful redis none ((service redis T).run s pre) := (Lawful.initial hs).run pre
  rw [Service.run_append] at he ⊢
  generalize (service redis T).run s pre = t at *
  have hspawn : Lawful redis none ((service redis T).step t (.spawn (.delByPattern pattern))) :=
    ht.step (rules_lawful none) (starts none) (permits_none ..)
  have hwp := @wp_delByPattern redis T (some t.threads.length)
    ⟨t.threads.length, .delByPattern pattern⟩ t.world t.world.sets pattern (fun _ h => h) (le_refl _)
  obtain ⟨l, hr, hclean⟩ := Service.sound_ends hspawn.faultless (rules_lawful _)
    (starts _) (hspawn.permitted hfault) List.getElem?_concat_length hwp he
  refine ⟨hr, fun item hitem hmatch => ?_⟩
  obtain ⟨hmem, halive⟩ := List.mem_filter.mp hitem
  exact not_lt.mp ((hclean rfl).2 item hmem (of_decide_eq_true halive) hmatch)

/-- The entries of `s` under a key, which no call names. -/
structure Spared (redis : Scan) (s : Sys T) (key : String) (t : Sys T) : Prop where
  lawful : Lawful redis none t
  silent : ∀ u ∈ t.threads, ¬ u.session.call.Touches key
  items : t.world.items.filter (·.key = key) = s.world.items.filter (·.key = key)

theorem Spared.step {key : String} {t : Sys T} {a : Act T} (h : Spared redis s key t)
    (ha : ∀ c, a = .spawn c → ¬ c.Touches key) : Spared redis s key ((service redis T).step t a) where
  lawful := h.lawful.step (rules_lawful none) (starts none) (permits_none t a)
  silent := Service.calls_step (P := fun c => ¬ Call.Touches c key) h.silent ha
  items := by
    rw [← h.items]
    have hact : ∀ m v w, ((service redis T).act m v w).world.items = w.items :=
      fun m v w => congrArg World.items (act_world m v w)
    rcases (service redis T).step_frame World.items hact (fun _ _ => rfl) t a with
      ⟨-, hsame⟩ | ⟨cm, hcm, hbase, hworld⟩
    · rw [hsame]
    · obtain ⟨-, -, ⟨held, hpost⟩, -⟩ :=
        h.lawful.commit_post (rules_lawful none) (permits_none t a) hcm
      obtain ⟨u, hu, husession, -⟩ := h.lawful.running hcm
      have hnot := h.silent u (List.mem_of_getElem? hu)
      rw [husession] at hnot
      rw [hworld, ← hbase]
      exact World.filter_foldl fun x hx hkey => hnot (hpost x hx key hkey)

/-- The entry under a key that no call names, by itself or by a pattern, is as it was, whatever
fails. -/
theorem unnamed_spared {key : String} (hs : s.Initial) (h : ∀ c, .spawn c ∈ as → ¬ c.Touches key) :
    ((service redis T).run s as).world.items.filter (·.key = key) =
      s.world.items.filter (·.key = key) := by
  have hinit : Spared redis s key s := ⟨.initial hs, fun t ht => by simp [hs.threads] at ht, rfl⟩
  exact (Service.always_of_step (fun _ _ ht ha => ht.step ha) hinit
    (Service.each_spawn h)).last.items

/-- `SCAN` in two parts: the keys of even length and those of odd length. -/
def halves : Scan where
  scan keys cursor pattern _ :=
    (if cursor = 0 then 1 else 0,
      keys.filter fun key => Matches pattern key ∧ (key.length % 2 = 0 ↔ cursor = 0))
  Owes cursor key := cursor = 0 ∨ key.length % 2 = 1
  left cursor := if cursor = 0 then 1 else 0
  starts _ := .inl rfl
  returns keys cursor pattern _ key hkey hmatch howes := by
    by_cases hcursor : cursor = 0
    · by_cases heven : key.length % 2 = 0
      · exact .inl (List.mem_filter.mpr ⟨hkey, by simp [hmatch, hcursor, heven]⟩)
      · refine .inr ⟨by simp [hcursor], .inr (by omega)⟩
    · have hodd := howes.resolve_left hcursor
      exact .inl (List.mem_filter.mpr ⟨hkey, by simp [hmatch, hcursor, hodd]⟩)
  sound keys cursor pattern _ key hkey := by
    obtain ⟨hmem, hcond⟩ := List.mem_filter.mp hkey
    exact ⟨hmem, (of_decide_eq_true hcond).1⟩
  ends keys cursor pattern _ hnext := by
    by_cases hcursor : cursor = 0
    · simp [hcursor]
    · simp [hcursor] at hnext

/-- A page is cached between the two parts of a sweep, under a key of the first part. -/
def Arena.before : List (Act ℕ) :=
  [.spawn (.set "turf:list:1" 1 (some 300)), .run 0, .spawn (.set "turf:list:22" 2 (some 300)), .run 1,
    .spawn (.set "turf:7" 3 (some 300)), .run 2]

def Arena.during : List (Act ℕ) :=
  [.run 3, .run 3, .spawn (.set "turf:list:33" 4 (some 300)), .run 4, .run 3, .run 3]

def Arena.cache : Sys ℕ := ⟨⟨0, 0, []⟩, []⟩

theorem Arena.cache_initial : Arena.cache.Initial where
  threads := rfl
  serials := by simp [Arena.cache]
  keys := by simp [Arena.cache]

def Arena.sweep : List (Act ℕ) := before ++ .spawn (.delByPattern "turf:list:*") :: during

theorem delByPattern_sweeps_page :
    let s := (service halves ℕ).run Arena.cache Arena.sweep
    (∀ item ∈ s.world.live, Matches "turf:list:*" item.key → 3 ≤ item.serial) ∧
      s.world.live.map (·.value) = [3, 4] :=
  ⟨(@delByPattern_sweeps halves ℕ Arena.cache Arena.before Arena.during "turf:list:*"
    Arena.cache_initial (.ok .done) (by simp [Arena.during]) (by decide +kernel)).2,
    by decide +kernel⟩


/-- Pages are cached and swept, and a command of the sweep fails. -/
def Arena.pages : List (Act ℕ) :=
  [.spawn (.set "turf:list:1" 1 (some 300)), .run 0, .spawn (.delByPattern "turf:list:*"), .run 1,
    .fault 1, .spawn (.set "turf:8" 8 none), .run 2]

/-- A turf is in the cache. -/
def Arena.warm : Sys ℕ := ⟨⟨0, 1, [⟨"turf:7", 7, none, 0⟩]⟩, []⟩

theorem Arena.warm_initial : Arena.warm.Initial where
  threads := rfl
  serials := by simp [Arena.warm]
  keys := by simp [Arena.warm]

theorem unnamed_spared_turf :
    (((service halves ℕ).run Arena.warm Arena.pages).world.items.filter (·.key = "turf:7")).map
      (·.value) = [7] := by
  have hspared := @unnamed_spared halves ℕ Arena.warm Arena.pages "turf:7" Arena.warm_initial (by
    intro c hc
    simp only [Arena.pages, List.mem_cons, List.not_mem_nil, or_false, reduceCtorEq, false_or,
      Action.spawn.injEq] at hc
    rcases hc with rfl | rfl | rfl <;> decide +kernel)
  rw [hspared]
  decide +kernel

end

end TurfSync.Cache
