import Mathlib.Data.List.Nodup
import Mathlib.Data.List.Perm.Subperm

/-! Lists of rows under a key: lookup by the key, the updates that leave the keys
alone, insertion, and what a unique key says. -/

namespace TurfSync.Txn.Rows

variable {α κ : Type} [DecidableEq κ] (key : α → κ)

/-- The row under a key. -/
def lookup (k : κ) (rows : List α) : Option α := rows.find? (key · = k)

/-- Change the rows under some keys. -/
def update (ks : List κ) (f : α → α) (rows : List α) : List α :=
  rows.map fun a => if key a ∈ ks then f a else a

variable {key} {rows : List α} {k : κ} {ks : List κ} {f : α → α} {a b : α}

theorem lookup_some (h : lookup key k rows = some a) : a ∈ rows ∧ key a = k := by
  have hk := List.find?_some h
  exact ⟨List.mem_of_find?_eq_some h, by simpa using hk⟩

theorem lookup_none : lookup key k rows = none ↔ ∀ a ∈ rows, key a ≠ k := by
  simp [lookup]

theorem lookup_of_mem (hn : (rows.map key).Nodup) (ha : a ∈ rows) :
    lookup key (key a) rows = some a := by
  induction rows with
  | nil => simp at ha
  | cons b rows ih =>
    obtain ⟨hb, hn⟩ := List.nodup_cons.mp hn
    unfold lookup
    rw [List.find?_cons]
    rcases List.mem_cons.mp ha with rfl | ha
    · simp
    · have hne : key b ≠ key a := fun e => hb (e ▸ List.mem_map_of_mem ha)
      simp only [hne, decide_false]
      exact ih hn ha

theorem lookup_iff (hn : (rows.map key).Nodup) :
    lookup key k rows = some a ↔ a ∈ rows ∧ key a = k := by
  constructor
  · exact lookup_some
  · rintro ⟨ha, rfl⟩
    exact lookup_of_mem hn ha

omit [DecidableEq κ] in
/-- Under a unique key, two rows with one key are one row. -/
theorem eq_of_key (hn : (rows.map key).Nodup) (ha : a ∈ rows) (hb : b ∈ rows)
    (h : key a = key b) : a = b :=
  List.inj_on_of_nodup_map hn ha hb h

@[simp] theorem update_nil : update key [] f rows = rows := by simp [update]

theorem mem_update : b ∈ update key ks f rows ↔
    ∃ a ∈ rows, b = if key a ∈ ks then f a else a := by
  simp only [update, List.mem_map, eq_comm]

theorem lookup_update (hf : ∀ a, key (f a) = key a) : lookup key k (update key ks f rows) =
    if k ∈ ks then (lookup key k rows).map f else lookup key k rows := by
  have hp : (fun a => decide (key a = k)) ∘ (fun a => if key a ∈ ks then f a else a) =
      fun a => decide (key a = k) := by
    funext a
    by_cases ha : key a ∈ ks
    · simp [ha, hf a]
    · simp [ha]
  unfold lookup update
  rw [List.find?_map, hp]
  cases h : rows.find? (key · = k) with
  | none => simp
  | some a =>
    have hk : key a = k := by simpa using List.find?_some h
    simp only [Option.map_some, hk]
    split_ifs <;> rfl

theorem lookup_append : lookup key k (rows ++ [a]) =
    (lookup key k rows).or (if key a = k then some a else none) := by
  unfold lookup
  rw [List.find?_append]
  by_cases h : key a = k
  · simp [h]
  · simp [h]

theorem keys_update {μ : Type} {key' : α → μ} (hf : ∀ a, key' (f a) = key' a) :
    (update key ks f rows).map key' = rows.map key' := by
  unfold update
  rw [List.map_map]
  refine List.map_congr_left fun a _ => ?_
  by_cases ha : key a ∈ ks
  · simp [ha, hf a]
  · simp [ha]

omit [DecidableEq κ] in
theorem nodup_insert (hn : (rows.map key).Nodup) (ha : ∀ b ∈ rows, key b ≠ key a) :
    ((rows ++ [a]).map key).Nodup := by
  rw [List.map_append, List.nodup_append]
  refine ⟨hn, List.nodup_singleton _, fun x hx y hy => ?_⟩
  obtain ⟨b, hb, rfl⟩ := List.mem_map.mp hx
  rw [List.mem_singleton.mp hy]
  exact ha b hb

/-- Insert a row, unless its key is taken. -/
def insertNew (key : α → κ) (rows : List α) (a : α) : List α :=
  if ∃ b ∈ rows, key b = key a then rows else rows ++ [a]

/-- Insert rows one after another, skipping those whose key is taken. -/
def insertAll (key : α → κ) (rows as : List α) : List α := as.foldl (insertNew key) rows

variable {as : List α}

@[simp] theorem insertAll_nil : insertAll key rows [] = rows := rfl

@[simp] theorem insertAll_cons :
    insertAll key rows (a :: as) = insertAll key (insertNew key rows a) as := rfl

theorem insertAll_append {bs : List α} :
    insertAll key rows (as ++ bs) = insertAll key (insertAll key rows as) bs := List.foldl_append

/-- The rows that are inserted are appended in their order. -/
theorem insertAll_eq : ∃ bs, bs.Sublist as ∧ insertAll key rows as = rows ++ bs := by
  induction as generalizing rows with
  | nil => exact ⟨[], List.Sublist.refl _, (List.append_nil rows).symm⟩
  | cons a as ih =>
    rw [insertAll_cons, insertNew]
    split_ifs
    · obtain ⟨bs, hs, he⟩ := @ih rows
      exact ⟨bs, hs.cons a, he⟩
    · obtain ⟨bs, hs, he⟩ := @ih (rows ++ [a])
      exact ⟨a :: bs, hs.cons_cons a, by rw [he, List.append_assoc]; rfl⟩

theorem prefix_insertAll : rows <+: insertAll key rows as := by
  obtain ⟨bs, -, he⟩ : ∃ bs, bs.Sublist as ∧ insertAll key rows as = rows ++ bs := insertAll_eq
  exact ⟨bs, he.symm⟩

theorem mem_insertAll (h : b ∈ insertAll key rows as) : b ∈ rows ∨ b ∈ as := by
  obtain ⟨bs, hs, he⟩ : ∃ bs, bs.Sublist as ∧ insertAll key rows as = rows ++ bs := insertAll_eq
  rw [he] at h
  exact (List.mem_append.mp h).imp_right fun hb => hs.subset hb

/-- Every inserted row is there under its key. -/
theorem key_insertAll (ha : a ∈ as) : ∃ b ∈ insertAll key rows as, key b = key a := by
  induction as generalizing rows with
  | nil => cases ha
  | cons c as ih =>
    rcases List.mem_cons.mp ha with rfl | ha
    · have hnew : ∃ b ∈ insertNew key rows a, key b = key a := by
        unfold insertNew
        split_ifs with h
        · exact h
        · exact ⟨a, List.mem_append_right _ (List.mem_singleton.mpr rfl), rfl⟩
      obtain ⟨b, hb, he⟩ := hnew
      have hp : insertNew key rows a <+: insertAll key rows (a :: as) := prefix_insertAll
      exact ⟨b, hp.subset hb, he⟩
    · exact ih ha

theorem nodup_insertAll (hn : (rows.map key).Nodup) : ((insertAll key rows as).map key).Nodup := by
  induction as generalizing rows with
  | nil => exact hn
  | cons a as ih =>
    refine ih ?_
    unfold insertNew
    split_ifs with h
    · exact hn
    · exact nodup_insert hn fun b hb he => h ⟨b, hb, he⟩

/-- Rows whose keys are all taken. -/
theorem insertAll_of_taken (h : ∀ a ∈ as, ∃ b ∈ rows, key b = key a) :
    insertAll key rows as = rows := by
  induction as generalizing rows with
  | nil => rfl
  | cons a as ih =>
    rw [insertAll_cons, insertNew, if_pos (h a (by simp))]
    exact ih fun a ha => h a (List.mem_cons_of_mem _ ha)

/-- The rows that a key selects are inserted by themselves. -/
theorem filter_insertAll {p : κ → Bool} : (insertAll key rows as).filter (fun a => p (key a)) =
    insertAll key (rows.filter fun a => p (key a)) (as.filter fun a => p (key a)) := by
  induction as generalizing rows with
  | nil => rfl
  | cons a as ih =>
    have hnew : (insertNew key rows a).filter (fun a => p (key a)) =
        insertAll key (rows.filter fun a => p (key a)) ([a].filter fun a => p (key a)) := by
      cases hp : p (key a) with
      | false =>
        unfold insertNew
        split_ifs <;> simp [hp]
      | true =>
        have hiff : (∃ b ∈ rows.filter fun a => p (key a), key b = key a) ↔
            ∃ b ∈ rows, key b = key a := by
          constructor
          · rintro ⟨b, hb, he⟩
            exact ⟨b, (List.mem_filter.mp hb).1, he⟩
          · rintro ⟨b, hb, he⟩
            exact ⟨b, List.mem_filter.mpr ⟨hb, by rw [he, hp]⟩, he⟩
        simp only [insertNew, List.filter_cons, hp, if_true, List.filter_nil, insertAll_cons,
          insertAll_nil, hiff]
        split_ifs
        · rfl
        · simp [hp]
    rw [insertAll_cons, ih, hnew, ← insertAll_append, ← List.filter_append]
    rfl

omit [DecidableEq κ] in
/-- Rows with different keys, each of them matched by one of the others. -/
theorem length_le {β : Type} (key' : β → κ) {rows' : List β} (hn : (rows.map key).Nodup)
    (h : ∀ a ∈ rows, ∃ b ∈ rows', key' b = key a) : rows.length ≤ rows'.length := by
  have hsub : rows.map key ⊆ rows'.map key' := by
    intro k hk
    obtain ⟨a, ha, rfl⟩ := List.mem_map.mp hk
    obtain ⟨b, hb, he⟩ := h a ha
    exact List.mem_map.mpr ⟨b, hb, he⟩
  have hlen := (List.subperm_of_subset hn hsub).length_le
  rwa [List.length_map, List.length_map] at hlen

/-- Two lists of rows under one key: those of either that the other lacks make up for the
difference of their lengths. -/
theorem length_balance {β : Type} (key' : β → κ) {rows' : List β} (hn : (rows.map key).Nodup)
    (hn' : (rows'.map key').Nodup) :
    rows.length + (rows'.filter fun b => ∀ a ∈ rows, key a ≠ key' b).length =
      (rows.filter fun a => ∀ b ∈ rows', key' b ≠ key a).length + rows'.length := by
  have hrows := rows.length_eq_length_filter_add fun a => decide (∃ b ∈ rows', key' b = key a)
  have hrows' := rows'.length_eq_length_filter_add fun b => decide (∃ a ∈ rows, key a = key' b)
  have hle : (rows.filter fun a => decide (∃ b ∈ rows', key' b = key a)).length ≤
      (rows'.filter fun b => decide (∃ a ∈ rows, key a = key' b)).length := by
    refine length_le key' (hn.sublist (List.filter_sublist.map key)) fun a ha => ?_
    obtain ⟨ha, hmatch⟩ := List.mem_filter.mp ha
    obtain ⟨b, hb, he⟩ := of_decide_eq_true hmatch
    exact ⟨b, List.mem_filter.mpr ⟨hb, decide_eq_true ⟨a, ha, he.symm⟩⟩, he⟩
  have hge : (rows'.filter fun b => decide (∃ a ∈ rows, key a = key' b)).length ≤
      (rows.filter fun a => decide (∃ b ∈ rows', key' b = key a)).length := by
    refine length_le key (hn'.sublist (List.filter_sublist.map key')) fun b hb => ?_
    obtain ⟨hb, hmatch⟩ := List.mem_filter.mp hb
    obtain ⟨a, ha, he⟩ := of_decide_eq_true hmatch
    exact ⟨a, List.mem_filter.mpr ⟨ha, decide_eq_true ⟨b, hb, he.symm⟩⟩, he⟩
  have hstray : rows.filter (fun a => ! decide (∃ b ∈ rows', key' b = key a)) =
      rows.filter fun a => decide (∀ b ∈ rows', key' b ≠ key a) := by
    refine List.filter_congr fun a _ => ?_
    simp [← decide_not]
  have habsent : rows'.filter (fun b => ! decide (∃ a ∈ rows, key a = key' b)) =
      rows'.filter fun b => decide (∀ a ∈ rows, key a ≠ key' b) := by
    refine List.filter_congr fun b _ => ?_
    simp [← decide_not]
  rw [hstray] at hrows
  rw [habsent] at hrows'
  omega

end TurfSync.Txn.Rows
