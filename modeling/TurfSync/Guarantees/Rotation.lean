import TurfSync.Protocol.Auth

/-! Refresh tokens are exchanged at most once. Of the two lookups and the deletion of a
refresh request only the deletion counts: a row that has been removed never comes back,
since ids and `jti`s are drawn anew for every row. -/

namespace TurfSync.Accounts

open Txn Journal

variable {cfg : Config}

/-- A row that is gone stays gone. `p` picks rows by the id or the hash of one row that
is known when entry `e` is made. -/
theorem stays_gone {w : World} (hw : w.Recorded) (hf : Follows (Acts cfg) w.history)
    {past later : List Entry} {e : Entry} (he : w.history = past ++ e :: later)
    {known : RefreshToken} (hknown : Known past e.before.db known) {p : RefreshToken → Prop}
    (hp : ∀ r, p r → known.id = r.id ∨ known.token = r.token)
    (hgone : ∀ r ∈ (e.writes.foldl Db.apply e.before.db).refreshTokens, ¬ p r) :
    ∀ e' ∈ later, ∀ r ∈ e'.before.db.refreshTokens, ¬ p r := by
  obtain ⟨db, hchained⟩ := hw.chained
  rw [he] at hchained
  obtain ⟨y, -, hbefore, hlater⟩ := chained_append.mp hchained
  rw [← hbefore] at hlater
  refine (hlater.keeps (I := fun db => ∀ r ∈ db.refreshTokens, ¬ p r) hgone ?_).1
  intro e' he' hnone r hr hpr
  obtain ⟨as, bs, hsplit⟩ := List.append_of_mem he'
  have hact : Acts cfg (past ++ e :: as) e' := by
    have hpast : w.history = (past ++ e :: as) ++ e' :: bs := by
      rw [he, hsplit, List.append_assoc, List.cons_append]
    exact hf.post hpast
  rcases hact.rows hr with hold | hws
  · exact hnone r hold hpr
  · -- the row is new, and the known one is older
    have hold : Known (past ++ e :: as) e'.before.db known := by
      rcases hknown with hk | ⟨e₀, he₀, hk⟩
      · exact .inr ⟨e, by simp, hk⟩
      · exact .inr ⟨e₀, List.mem_append_left _ he₀, hk⟩
    obtain ⟨-, hfresh, -⟩ := hact.of_insert hws
    obtain ⟨hid, htoken⟩ := hfresh known hold
    rcases hp r hpr with h | h
    · exact hid h
    · exact htoken h

/-- A row that is found under the id of an earlier one is the earlier one. -/
theorem same_row {w : World} (hw : w.Recorded) (hf : Follows (Acts cfg) w.history)
    {past later : List Entry} {e e' : Entry} (he : w.history = past ++ e :: later)
    (he' : e' ∈ later) {q : Query} (hseen : e.writes = [.seen q]) {r r' : RefreshToken}
    (hr : r ∈ e.before.db.refreshTokens) (hr' : r' ∈ e'.before.db.refreshTokens)
    (hid : r'.id = r.id) : r' = r := by
  by_contra hne
  have hmem : e ∈ w.history := by
    rw [he]
    simp
  refine stays_gone hw hf he (.inl hr) (p := fun x => x.id = r.id ∧ x ≠ r)
    (fun x hx => .inl hx.1.symm) (fun x hx hpx => ?_) e' he' r' hr' ⟨hid, hne⟩
  rw [hseen] at hx
  exact hpx.2 (Rows.eq_of_key (hw.valids e hmem).tokenIds hx hr hpx.1)

/-- The deletion by a refresh request that went on: the row of the presented token was
there. -/
theorem deletes_presented {w : World} (hw : w.Recorded) (hf : Follows (Acts cfg) w.history)
    {c : Session Call} {token : Jwt} {stored : RefreshToken} {v f d : Entry} {rest : List Entry}
    (hown : own c.id w.history = v :: f :: d :: rest)
    (hpresented : Presented c token stored f)
    (hdeleted : d.writes = [.tokenDelete (.row stored.id)]) :
    ∃ past later, w.history = past ++ d :: later ∧ f ∈ past ∧
      stored ∈ d.before.db.refreshTokens := by
  have hmem : ∀ e ∈ v :: f :: d :: rest, e ∈ w.history ∧ e.session.id = c.id := fun e he =>
    mem_own.mp (hown ▸ he)
  obtain ⟨hd, hid⟩ := hmem d (by simp)
  obtain ⟨past, later, hsplit⟩ := List.append_of_mem hd
  have hparts := own_split hsplit
  rw [hid, hown] at hparts
  rcases (hf.post hsplit).of_delete hdeleted with ⟨v', hpast⟩ | ⟨v', f', hpast, r, hr, hrid⟩
  · -- then the deletion would stand where the lookup is
    rw [hid] at hpast
    rw [hpast] at hparts
    simp only [List.cons_append, List.nil_append, List.cons.injEq] at hparts
    have hlooked := hpresented.looked
    rw [hparts.2.1, hdeleted] at hlooked
    cases hlooked
  · rw [hid] at hpast
    rw [hpast] at hparts
    simp only [List.cons_append, List.nil_append, List.cons.injEq] at hparts
    have hfmem : f ∈ past := by
      have hf' : f' ∈ own c.id past := by simp [hpast]
      rw [hparts.2.1]
      exact (mem_own.mp hf').1
    refine ⟨past, later, hsplit, hfmem, ?_⟩
    obtain ⟨as, bs, hpastSplit⟩ := List.append_of_mem hfmem
    have hbefore : w.history = as ++ f :: (bs ++ d :: later) := by
      rw [hsplit, hpastSplit]
      simp
    have hsame := same_row hw hf hbefore (by simp) hpresented.looked hpresented.found hr hrid
    exact hsame ▸ hr

/-- After the deletion no row of the presented token is found. -/
theorem deleted_once {w : World} (hw : w.Recorded) (hf : Follows (Acts cfg) w.history)
    {past later : List Entry} {d : Entry} (hd : w.history = past ++ d :: later)
    {stored : RefreshToken} (hstored : stored ∈ d.before.db.refreshTokens)
    (hdeleted : d.writes = [.tokenDelete (.row stored.id)]) :
    ∀ e ∈ later, ∀ r ∈ e.before.db.refreshTokens, r.token ≠ stored.token := by
  have hmem : d ∈ w.history := by
    rw [hd]
    simp
  refine stays_gone hw hf hd (.inl hstored) (p := fun r => r.token = stored.token)
    (fun r hr => .inr hr.symm) fun r hr htoken => ?_
  rw [hdeleted] at hr
  obtain ⟨hr, hcovers⟩ := List.mem_filter.mp hr
  obtain rfl := Rows.eq_of_key (hw.valids d hmem).tokens hr hstored htoken
  simp [Scope.Covers] at hcovers

/-- The entry of a read. -/
def Reads (e : Entry) : Bool := match e.writes with
  | [.seen _] => true
  | _ => false

/-- Reads aside, an exchange is the deletion of the presented token's row and the
insertion of the new one. -/
def Exchanges (token : Jwt) (reply : Reply) (es : List Entry) : Prop :=
  ∃ d i stored row pair, es.filter (! Reads ·) = [d, i] ∧
    stored ∈ d.before.db.refreshTokens ∧ stored.token = ⟨token⟩ ∧
    d.writes = [.tokenDelete (.row stored.id)] ∧ i.writes = [.tokenInsert row] ∧
    row.token = ⟨pair.refreshToken⟩ ∧ reply = .tokens pair

/-- What is promised of the refresh requests with one token. -/
structure ExchangedOnce (token : Jwt) (t : Sys) : Prop where
  once : ∀ i j reply reply', t.Ended i (.refresh token) (.ok reply) →
    t.Ended j (.refresh token) (.ok reply') → i = j
  exchanges : ∀ i reply, t.Ended i (.refresh token) (.ok reply) →
    Exchanges token reply (own i t.world.history)
  fails : ∀ i e, t.Ended i (.refresh token) (.error e) →
    ∀ entry ∈ own i t.world.history, ∀ row, entry.writes ≠ [.tokenInsert row]

/-- In every state of every run: at most one request exchanges a token, each that does
has removed its row and added one, and a request that fails adds none. -/
theorem exchanged_once {s : Sys} {as : List Act} (hs : s.Initial) (token : Jwt) :
    (service cfg).Always (ExchangedOnce token) s as := by
  refine hs.always.mono fun t ht => ?_
  obtain ⟨hw, hf⟩ := ht.inv
  have hpost : ∀ {i : ℕ} {r}, t.Ended i (.refresh token) r →
      ∃ l, Answers ⟨i, .refresh token⟩ r l t.world := fun he =>
    ht.post (service_lawful cfg).rules he
  -- the deletion of a request that returned tokens
  have hdeletion : ∀ {i : ℕ} {reply}, t.Ended i (.refresh token) (.ok reply) →
      ∃ past d later stored, t.world.history = past ++ d :: later ∧ d.session.id = i ∧
        d.writes = [.tokenDelete (.row stored.id)] ∧ stored ∈ d.before.db.refreshTokens ∧
        stored.token = ⟨token⟩ := by
    intro i reply he
    obtain ⟨l, hl⟩ := hpost he
    have hrotated := hl token rfl
    simp only at hrotated
    generalize hes : own i t.world.history = es at hrotated
    cases hrotated with
    | @intro v f d s' i' stored row q q' pair hv hpresented hd huser hi hreturned =>
      obtain ⟨past, later, hsplit, -, hmem⟩ := deletes_presented hw hf hes hpresented hd
      have hid : d.session.id = i := (mem_own.mp (hes ▸ (by simp : d ∈ [v, f, d, s', i']))).2
      exact ⟨past, d, later, stored, hsplit, hid, hd, hmem, hpresented.token⟩
  refine ⟨fun i j reply reply' hi hj => ?_, fun i reply hi => ?_, fun i e hi => ?_⟩
  · obtain ⟨past, d, later, stored, hd, rfl, hdw, hstored, htoken⟩ := hdeletion hi
    obtain ⟨past', d', later', stored', hd', rfl, hdw', hstored', htoken'⟩ := hdeletion hj
    by_contra hne
    have hdd : d ≠ d' := fun he => hne (by rw [he])
    have hmem : d ∈ t.world.history := hd ▸ by simp
    have hmem' : d' ∈ t.world.history := hd' ▸ by simp
    rcases ordered hmem hmem' hdd with ⟨as, bs, hs, hlater⟩ | ⟨as, bs, hs, hlater⟩
    · exact deleted_once hw hf hs hstored hdw d' hlater stored' hstored'
        (htoken'.trans htoken.symm)
    · exact deleted_once hw hf hs hstored' hdw' d hlater stored hstored
        (htoken.trans htoken'.symm)
  · obtain ⟨l, hl⟩ := hpost hi
    have hrotated := hl token rfl
    simp only at hrotated
    generalize hes : own i t.world.history = es at hrotated
    cases hrotated with
    | @intro v f d s' i' stored row q q' pair hv hpresented hd huser hins hreturned =>
      obtain ⟨past, later, -, -, hmem⟩ := deletes_presented hw hf hes hpresented hd
      refine ⟨d, i', stored, row, pair, ?_, hmem, hpresented.token, hd, hins, hreturned, rfl⟩
      simp [Reads, hv, hpresented.looked, hd, huser, hins]
  · obtain ⟨l, hl⟩ := hpost hi
    exact hl token rfl

/-- Eve's token is presented twice at once. -/
theorem exchanged_once_office :
    let refresh : Call := .refresh (Office.jwt Office.eve 51)
    let as := Office.first 0 refresh 3 ++ Office.first 1 refresh 10 ++ List.replicate 6 (.run 0)
    ((service Office.cfg).run Office.sys as).Ended 0 refresh (.error .P2025) ∧
      (service Office.cfg).Always (ExchangedOnce (Office.jwt Office.eve 51)) Office.sys as :=
  ⟨by decide +kernel, exchanged_once Office.initial _⟩

end TurfSync.Accounts
