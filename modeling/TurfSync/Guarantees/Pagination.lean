import TurfSync.Services.Pagination
import Mathlib.Algebra.Order.Floor.Semifield
import Mathlib.Data.List.Pairwise

/-! Pages partition the rows. The number of pages is exactly what skipping and taking needs: a
page is within it if and only if it begins before the end of the list. -/

namespace TurfSync.Pagination

open Pages (PaginatedResult positiveOr)

/-! ### Lists in pages -/

/-- The first `n` pages of `k` rows are the first `n * k` rows. -/
theorem flatMap_pages {T : Type} (rows : List T) (k n : ℕ) :
    ((List.range n).flatMap fun i => (rows.drop (i * k)).take k) = rows.take (n * k) := by
  induction n with
  | zero => simp
  | succ n ih =>
    rw [List.range_succ, List.flatMap_append, ih, List.flatMap_singleton, Nat.succ_mul,
      List.take_add]

/-- `Math.ceil(total / limit)` pages are the least that hold all rows. -/
theorem totalPages_le_iff {total limit n : ℕ} (hlimit : 0 < limit) :
    ⌈(total / limit : ℚ)⌉₊ ≤ n ↔ total ≤ n * limit := by
  rw [Nat.ceil_le, div_le_iff₀ (by exact_mod_cast hlimit)]
  exact_mod_cast Iff.rfl

/-! ### Defaults -/

theorem positiveOr_pos {d : ℕ} (hd : 0 < d) (n : Option ℤ) : 0 < positiveOr d n := by
  unfold positiveOr
  split
  · split_ifs <;> omega
  · exact hd

theorem positiveOr_natCast {d n : ℕ} (hn : 0 < n) : positiveOr d (some (n : ℤ)) = n := by
  rw [positiveOr, if_pos (by omega), Int.toNat_natCast]

theorem positiveOr_of_nonpos {d : ℕ} {n : ℤ} (hn : n ≤ 0) :
    positiveOr d (some n) = positiveOr d none := by
  rw [positiveOr, if_neg (by omega), positiveOr]

/-! ### Tables -/

section Served

variable {V T : Type}

/-- With these options the table has the rows `rows`. A call returns them in some order that
the sort key allows; no two rows tie. -/
structure PrismaModelDelegate.Serves (model : PrismaModelDelegate V T) (options : Options V)
    (le : T → T → Prop) (rows : List T) : Prop where
  findMany : ∀ skip take, ∃ l : List T, l.Perm rows ∧ l.Pairwise le ∧
    model.findMany { options with skip, take } = (l.drop skip).take take
  count : model.count options.whereInput = rows.length
  total : rows.Pairwise fun a b => le a b ∧ ¬ le b a

variable {model : PrismaModelDelegate V T} {options : Options V} {le : T → T → Prop}
  {rows : List T}

theorem eq_of_total (htotal : rows.Pairwise fun a b => le a b ∧ ¬ le b a) {l : List T}
    (hperm : l.Perm rows) (hl : l.Pairwise le) : l = rows := by
  refine hperm.eq_of_pairwise ?_ hl (htotal.imp And.left)
  have hapart : rows.Pairwise fun a b => ¬ (le a b ∧ le b a) :=
    htotal.imp fun hab hboth => hab.2 hboth.2
  have hsymm : Std.Symm fun a b => ¬ (le a b ∧ le b a) := ⟨fun _ _ h h' => h h'.symm⟩
  intro a b ha hb hab hba
  by_contra hne
  exact hapart.forall (hperm.mem_iff.mp ha) hb hne ⟨hab, hba⟩

variable (hmodel : model.Serves options le rows)
include hmodel

theorem findMany_eq (skip take : ℕ) :
    model.findMany { options with skip, take } = (rows.drop skip).take take := by
  obtain ⟨l, hperm, hl, hfound⟩ := hmodel.findMany skip take
  rw [hfound, eq_of_total hmodel.total hperm hl]

/-- The endpoints' pages are those of one list. -/
theorem paginate_eq (dto : PaginationDto) : paginate model dto options =
    Pages.paginate rows (positiveOr 1 dto.page) (positiveOr 10 dto.limit) := by
  have hlimit := positiveOr_pos (d := 10) (by decide) dto.limit
  have hpages : ⌈(rows.length / (positiveOr 10 dto.limit) : ℚ)⌉₊ =
      (rows.length + positiveOr 10 dto.limit - 1) / positiveOr 10 dto.limit := by
    refine eq_of_forall_ge_iff fun n => ?_
    rw [totalPages_le_iff hlimit, Nat.div_le_iff_le_mul_add_pred hlimit, mul_comm]
    omega
  rw [paginate, createPaginatedResponse, getPaginationParams, Pages.paginate, ← hpages]
  dsimp only
  rw [findMany_eq hmodel, hmodel.count]

theorem data_page (limit : Option ℤ) {n : ℕ} (hn : 0 < n) :
    (paginate model ⟨some n, limit⟩ options).data =
      (rows.drop ((n - 1) * positiveOr 10 limit)).take (positiveOr 10 limit) := by
  rw [paginate_eq hmodel, Pages.paginate, positiveOr_natCast hn]

theorem totalPages_eq (dto : PaginationDto) :
    (paginate model dto options).pageMeta.totalPages =
      ⌈(rows.length / positiveOr 10 dto.limit : ℚ)⌉₊ := by
  rw [paginate, hmodel.count]
  rfl

end Served

/-- The pages up to the last are the rows, each once and in their order; all but the last are
full, and those after it are empty. Every page counts them alike, and a page or a limit that
is absent, zero or negative is the default. -/
theorem paginate_partition {V T : Type} {model : PrismaModelDelegate V T} {options : Options V}
    {le : T → T → Prop} {rows : List T} (hmodel : model.Serves options le rows)
    (limit : Option ℤ) :
    let page (n : ℕ) := paginate model ⟨some n, limit⟩ options
    let totalPages := (page 1).pageMeta.totalPages
    ((List.range totalPages).flatMap fun i => (page (i + 1)).data) = rows ∧ rows.Nodup ∧
    (∀ n, 0 < n → n < totalPages → (page n).data.length = positiveOr 10 limit) ∧
    (∀ n, totalPages < n → (page n).data = []) ∧
    (∀ n, (page n).pageMeta.totalPages = totalPages) ∧
    (∀ n ≤ 0, paginate model ⟨some n, limit⟩ options = page 1 ∧
      paginate model ⟨none, limit⟩ options = page 1) ∧
    ∀ n l, l ≤ 0 → paginate model ⟨n, some l⟩ options = paginate model ⟨n, some 10⟩ options ∧
      paginate model ⟨n, none⟩ options = paginate model ⟨n, some 10⟩ options := by
  have hlimit := positiveOr_pos (d := 10) (by decide) limit
  have hdata (n : ℕ) := data_page hmodel limit (n := n)
  have htotal (n : ℕ) := totalPages_eq hmodel ⟨some n, limit⟩
  have hle (n : ℕ) := @totalPages_le_iff rows.length _ n hlimit
  dsimp only at htotal ⊢
  rw [htotal]
  generalize ⌈(rows.length / positiveOr 10 limit : ℚ)⌉₊ = totalPages at *
  refine ⟨?_, ?_, fun n hn hlt => ?_, fun n hlt => ?_, htotal, fun n hn => ?_, fun n l hl => ?_⟩
  · have hpages : ∀ i ∈ List.range totalPages,
        (paginate model ⟨some ((i + 1 : ℕ) : ℤ), limit⟩ options).data =
          (rows.drop (i * positiveOr 10 limit)).take (positiveOr 10 limit) :=
      fun i _ => hdata _ (Nat.succ_pos i)
    rw [List.flatMap_congr hpages, flatMap_pages, List.take_of_length_le ((hle _).mp le_rfl)]
  · refine hmodel.total.imp fun {a b} hab => ?_
    rintro rfl
    exact hab.2 hab.1
  · have hbefore : n * positiveOr 10 limit < rows.length := by
      by_contra hnot
      exact absurd ((hle n).mpr (not_lt.mp hnot)) (not_le.mpr hlt)
    obtain ⟨m, rfl⟩ := Nat.exists_eq_add_of_le' hn
    rw [Nat.add_mul, Nat.one_mul] at hbefore
    rw [hdata _ hn, List.length_take, List.length_drop, min_eq_left]
    rw [Nat.add_sub_cancel]
    omega
  · have hall := (hle (n - 1)).mp (by omega)
    rw [hdata n (by omega), List.drop_eq_nil_of_le hall, List.take_nil]
  · rw [paginate_eq hmodel, paginate_eq hmodel, paginate_eq hmodel, positiveOr_of_nonpos hn]
    exact ⟨rfl, rfl⟩
  · rw [paginate_eq hmodel, paginate_eq hmodel, paginate_eq hmodel, positiveOr_of_nonpos hl]
    exact ⟨rfl, rfl⟩

/-- A table of numbers, in their order. -/
def numbers (rows : List ℕ) : PrismaModelDelegate Unit ℕ where
  findMany args := (rows.drop args.skip).take args.take
  count _ := rows.length

/-- Five rows in pages of two. -/
theorem paginate_partition_five :
    (List.range 3).flatMap (fun i =>
      (paginate (numbers [1, 2, 3, 4, 5]) ⟨some (i + 1 : ℕ), some 2⟩ {}).data) = [1, 2, 3, 4, 5] := by
  have hserves : (numbers [1, 2, 3, 4, 5]).Serves {} (· ≤ ·) [1, 2, 3, 4, 5] := {
    findMany _ _ := ⟨_, .rfl, by decide, rfl⟩
    count := rfl
    total := by decide }
  have hpages : (paginate (numbers [1, 2, 3, 4, 5]) ⟨some (1 : ℕ), some 2⟩ {}).pageMeta.totalPages =
      3 := by decide +kernel
  have hall := (paginate_partition hserves (some 2)).1
  rwa [hpages] at hall

end TurfSync.Pagination
