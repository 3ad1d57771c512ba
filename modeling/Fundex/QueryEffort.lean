import Fundex.MovingStats
import Mathlib.Logic.Function.Basic

namespace Fundex

/-- `QueryEffortInner`, behind the lock of `QueryEffort`, so that each operation is one step;
`effort` is the map from shape hash to that shape's statistics. -/
structure QueryEffortInner where
  windowSize : Nat
  binSize : Nat
  effort : UInt64 → Option MovingStats
  total : MovingStats

namespace QueryEffortInner

def new (windowSize binSize : Nat) : QueryEffortInner :=
  ⟨windowSize, binSize, fun _ => none, MovingStats.new windowSize binSize⟩

/-- `QueryEffortInner::add`; `now` is the instant read while the write lock is held. -/
def add (q : QueryEffortInner) (shapeHash : UInt64) (duration now : Nat) : QueryEffortInner :=
  { q with
    effort := Function.update q.effort shapeHash <| some <|
      ((q.effort shapeHash).getD (MovingStats.new q.windowSize q.binSize)).addAt now duration
    total := q.total.addAt now duration }

/-- `QueryEffort::current_effort`: the shape's effort, if it was ever seen, and the total. -/
def currentEffort (q : QueryEffortInner) (shapeHash : UInt64) : Option Nat × Nat :=
  ((q.effort shapeHash).map MovingStats.duration, q.total.duration)

@[simp] theorem add_windowSize (q : QueryEffortInner) (h : UInt64) (d now : Nat) :
    (q.add h d now).windowSize = q.windowSize := rfl

@[simp] theorem add_total (q : QueryEffortInner) (h : UInt64) (d now : Nat) :
    (q.add h d now).total = q.total.addAt now d := rfl

theorem add_effort (q : QueryEffortInner) (h h' : UInt64) (d now : Nat) :
    (q.add h d now).effort h' = if h' = h then
      some (((q.effort h).getD (MovingStats.new q.windowSize q.binSize)).addAt now d)
    else q.effort h' := by
  simp only [add, Function.update_apply]

/-- The adds `(shape_hash, duration, instant)` of a history, oldest first. -/
def addAll (q : QueryEffortInner) (adds : List (UInt64 × Nat × Nat)) : QueryEffortInner :=
  adds.foldl (fun q a => q.add a.1 a.2.1 a.2.2) q

/-- Per-shape statistics are pruned only when their own shape is added, and their bins start
elsewhere than the total's: a shape can report more effort than all queries together. -/
theorem currentEffort_exceeds_total :
    ((new 300000000000 1000000000).addAll
      [(2, 1000000, 0), (1, 5000000, 500000000), (1, 1000000, 300200000000)]).currentEffort 1 =
      (some 6000000, 1000000) := by
  decide

structure Unpruned (t0 : Nat) (q : QueryEffortInner) : Prop where
  total : MovingStats.StartsFrom t0 q.total
  totalWindow : q.total.windowSize = q.windowSize
  shapes : ∀ h s, q.effort h = some s →
    MovingStats.StartsFrom t0 s ∧ s.windowSize = q.windowSize ∧ s.duration ≤ q.total.duration

theorem unpruned_new (t0 w b : Nat) : Unpruned t0 (new w b) :=
  ⟨MovingStats.startsFrom_new t0 w b, rfl, by simp [new]⟩

theorem Unpruned.add {t0 now : Nat} {q : QueryEffortInner} (hq : Unpruned t0 q)
    (h0 : t0 ≤ now) (h1 : now ≤ t0 + q.windowSize) (shapeHash : UInt64) (d : Nat) :
    Unpruned t0 (q.add shapeHash d now) := by
  have htotal := MovingStats.addAt_duration hq.total (hq.totalWindow ▸ h1) d
  refine ⟨MovingStats.addAt_startsFrom hq.total h0 d, hq.totalWindow, fun h s hs => ?_⟩
  rw [add_effort] at hs
  simp only [add_windowSize, add_total]
  split at hs
  · next heq =>
    subst heq
    cases hs
    obtain ⟨hst, hw, hle⟩ : MovingStats.StartsFrom t0
        ((q.effort h).getD (MovingStats.new q.windowSize q.binSize)) ∧
        ((q.effort h).getD (MovingStats.new q.windowSize q.binSize)).windowSize = q.windowSize ∧
        ((q.effort h).getD (MovingStats.new q.windowSize q.binSize)).duration ≤
          q.total.duration := by
      cases he : q.effort h with
      | none => exact ⟨MovingStats.startsFrom_new _ _ _, rfl, by simp⟩
      | some s => simpa using hq.shapes h s he
    refine ⟨MovingStats.addAt_startsFrom hst h0 d, hw, ?_⟩
    rw [MovingStats.addAt_duration hst (by rw [hw]; exact h1), htotal]
    omega
  · obtain ⟨hst, hw, hle⟩ := hq.shapes h s hs
    exact ⟨hst, hw, by omega⟩

theorem Unpruned.addAll {t0 : Nat} {q : QueryEffortInner} (hq : Unpruned t0 q)
    (adds : List (UInt64 × Nat × Nat))
    (hadds : ∀ a ∈ adds, t0 ≤ a.2.2 ∧ a.2.2 ≤ t0 + q.windowSize) :
    Unpruned t0 (q.addAll adds) := by
  induction adds generalizing q with
  | nil => exact hq
  | cons a adds ih =>
    have ha := hadds a (List.mem_cons_self _ _)
    exact ih (hq.add ha.1 ha.2 a.1 a.2.1) fun b hb => hadds b (List.mem_cons_of_mem _ hb)

theorem currentEffort_le_total_within_window (w b t0 : Nat) (adds : List (UInt64 × Nat × Nat))
    (hadds : ∀ a ∈ adds, t0 ≤ a.2.2 ∧ a.2.2 ≤ t0 + w) (shapeHash : UInt64) (e : Nat)
    (he : (((new w b).addAll adds).currentEffort shapeHash).1 = some e) :
    e ≤ (((new w b).addAll adds).currentEffort shapeHash).2 := by
  simp only [currentEffort, Option.map_eq_some'] at he ⊢
  obtain ⟨s, hs, rfl⟩ := he
  exact (((unpruned_new t0 w b).addAll adds hadds).shapes shapeHash s hs).2.2

/-- Three shapes, with bins opened at four instants of one window: shape 1's two adds fall in two
bins of its own, at instants the total shares with shapes 2 and 3. -/
theorem currentEffort_le_total_three_shapes :
    ((new 300000000000 1000000000).addAll [(2, 1000000, 0), (1, 5000000, 500000000),
        (1, 1000000, 2000000000), (3, 2000000, 100000000000)]).currentEffort 1 =
        (some 6000000, 9000000) ∧
      6000000 ≤ (((new 300000000000 1000000000).addAll [(2, 1000000, 0),
        (1, 5000000, 500000000), (1, 1000000, 2000000000),
        (3, 2000000, 100000000000)]).currentEffort 1).2 :=
  ⟨by decide, currentEffort_le_total_within_window _ _ 0 _ (by decide) 1 _ (by decide)⟩

end QueryEffortInner

end Fundex
