import Mathlib.Order.GaloisConnection.Basic
import Mathlib.Order.Interval.Set.Basic
import Mathlib.Data.Int.ConditionallyCompleteOrder
import Mathlib.Data.Int.SuccPred
import Mathlib.Order.SuccPred.IntervalSucc

/-! A line cut into cells, one for every integer. The start of a cell and the cell of a point
are a Galois connection, and the start of the cell of a point is the greatest start not after
it. -/

namespace TurfSync.Calendar

/-- Cell `k` reaches from `start k` to `start (k + 1)`. -/
structure Grid (T : Type) [LinearOrder T] where
  start : ℤ → T
  cell : T → ℤ
  gc : GaloisConnection start cell
  cell_start : ∀ k, cell (start k) = k

namespace Grid

variable {T : Type} [LinearOrder T]

/-- Starts that increase, and a cell for every point. -/
def ofStarts (start : ℤ → T) (cell : T → ℤ) (hstart : StrictMono start)
    (hcell : ∀ t, start (cell t) ≤ t ∧ t < start (cell t + 1)) : Grid T where
  start := start
  cell := cell
  gc k t := by
    constructor
    · intro h
      exact Int.lt_add_one_iff.mp (hstart.lt_iff_lt.mp (h.trans_lt (hcell t).2))
    · intro h
      exact (hstart.monotone h).trans (hcell t).1
  cell_start k := by
    have hle : cell (start k) ≤ k := hstart.le_iff_le.mp (hcell (start k)).1
    have hlt : k < cell (start k) + 1 := hstart.lt_iff_lt.mp (hcell (start k)).2
    omega

variable (g : Grid T)

/-- The start of the cell of a point. -/
def floor (t : T) : T := g.start (g.cell t)

theorem start_strictMono : StrictMono g.start := by
  refine g.gc.monotone_l.strictMono_of_injective fun j k h => ?_
  rw [← g.cell_start j, h, g.cell_start]

theorem floor_le (t : T) : g.floor t ≤ t := g.gc.l_u_le t

theorem lt_next (t : T) : t < g.start (g.cell t + 1) := by
  by_contra h
  have hcell := (g.gc _ _).mp (not_lt.mp h)
  omega

theorem floor_mono : Monotone g.floor := g.gc.monotone_l.comp g.gc.monotone_u

@[simp] theorem cell_floor (t : T) : g.cell (g.floor t) = g.cell t := g.cell_start _

@[simp] theorem floor_start (k : ℤ) : g.floor (g.start k) = g.start k := by
  rw [floor, g.cell_start]

theorem floor_floor (t : T) : g.floor (g.floor t) = g.floor t := g.floor_start _

/-- The greatest start that is not after `t`. -/
theorem isGreatest_floor (t : T) : IsGreatest (Set.range g.start ∩ Set.Iic t) (g.floor t) := by
  refine ⟨⟨⟨_, rfl⟩, g.floor_le t⟩, ?_⟩
  rintro _ ⟨⟨k, rfl⟩, hk⟩
  exact g.gc.monotone_l ((g.gc k t).mp hk)

theorem cell_eq_iff {t : T} {k : ℤ} : g.cell t = k ↔ g.start k ≤ t ∧ t < g.start (k + 1) := by
  constructor
  · rintro rfl
    exact ⟨g.floor_le t, g.lt_next t⟩
  · rintro ⟨hle, hlt⟩
    have hge := (g.gc k t).mp hle
    have hnot : ¬ k + 1 ≤ g.cell t := fun h => not_le.mpr hlt ((g.gc _ t).mpr h)
    omega

theorem floor_eq_iff {t : T} {k : ℤ} : g.floor t = g.start k ↔ g.cell t = k :=
  g.start_strictMono.injective.eq_iff

/-- The points between two starts are those of the cells between them. -/
theorem mem_Ico_iff {t : T} {j k : ℤ} : t ∈ Set.Ico (g.start j) (g.start k) ↔
    g.cell t ∈ Set.Ico j k := by
  have hlt : t < g.start k ↔ g.cell t < k := by rw [← not_le, ← not_le, g.gc k t]
  rw [Set.mem_Ico, Set.mem_Ico, g.gc j t, hlt]

/-- `f` takes every point to the latest of the marked ones that are not after it. -/
structure IsFloor (marked : T → Prop) (f : T → T) : Prop where
  greatest : ∀ t, IsGreatest {s | marked s ∧ s ≤ t} (f t)
  idempotent : ∀ t, f (f t) = f t
  monotone : Monotone f

variable {g} in
theorem isFloor {marked : T → Prop} {f : T → T}
    (hmarked : ∀ t, marked t ↔ t ∈ Set.range g.start) (hf : ∀ t, f t = g.floor t) :
    IsFloor marked f := by
  obtain rfl : f = g.floor := funext hf
  obtain rfl : marked = (· ∈ Set.range g.start) := funext fun t => propext (hmarked t)
  exact ⟨g.isGreatest_floor, g.floor_floor, g.floor_mono⟩

/-! ### Grids of integers -/

/-- Cells of `n` integers each: first the cell decides the order, then the place in it. -/
theorem mul_add_le_mul_add_iff {n a b x y : ℤ} (hx : 0 ≤ x ∧ x < n) (hy : 0 ≤ y ∧ y < n) :
    a * n + x ≤ b * n + y ↔ a < b ∨ a = b ∧ x ≤ y := by
  have hn : 0 ≤ n := by omega
  rcases lt_trichotomy a b with h | rfl | h
  · have hmul := mul_le_mul_of_nonneg_right (Int.add_one_le_of_lt h) hn
    rw [add_mul, one_mul] at hmul
    omega
  · omega
  · have hmul := mul_le_mul_of_nonneg_right (Int.add_one_le_of_lt h) hn
    rw [add_mul, one_mul] at hmul
    omega

/-- A cell for every `n` integers, from `r` on. -/
def every (n r : ℤ) (hn : 0 < n) : Grid ℤ where
  start k := n * k + r
  cell t := (t - r) / n
  gc k t := by
    rw [Int.le_ediv_iff_mul_le hn, mul_comm k n, le_sub_iff_add_le]
  cell_start k := by
    rw [add_sub_cancel_right, Int.mul_ediv_cancel_left k hn.ne']

/-- A grid of integers, each of which is `n` finer ones. -/
def scale (g : Grid ℤ) (n : ℤ) (hn : 0 < n) : Grid ℤ where
  start k := n * g.start k
  cell t := g.cell (t / n)
  gc k t := by
    rw [← g.gc, Int.le_ediv_iff_mul_le hn, mul_comm]
  cell_start k := by
    rw [Int.mul_ediv_cancel_left _ hn.ne', g.cell_start]

end Grid

end TurfSync.Calendar
