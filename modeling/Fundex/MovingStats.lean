import Mathlib

namespace Fundex

/-- Modelled from the spec: a bin of `MovingStats` (`crate::util::stats` is not in the source),
as section 4.1 of the spec describes it. -/
structure Bin where
  start : Nat
  count : Nat
  duration : Nat
  deriving DecidableEq

/-- Modelled from the spec: `MovingStats` (`crate::util::stats` is not in the source), after
section 4.1 of the spec. `bins` are the live bins, newest first. -/
structure MovingStats where
  windowSize : Nat
  binSize : Nat
  bins : List Bin
  deriving DecidableEq

namespace MovingStats

def new (windowSize binSize : Nat) : MovingStats := ⟨windowSize, binSize, []⟩

def live (s : MovingStats) (now : Nat) : List Bin :=
  s.bins.filter fun b => now ≤ b.start + s.windowSize

/-- `add_at(now, d)`: prune, open a bin at `now` when the newest bin is older than
`now - binSize` (or there is none), then add `d` to the newest bin. -/
def addAt (s : MovingStats) (now d : Nat) : MovingStats :=
  { s with
    bins := match s.live now with
      | b :: rest =>
        if b.start + s.binSize < now then ⟨now, 1, d⟩ :: b :: rest
        else { b with count := b.count + 1, duration := b.duration + d } :: rest
      | [] => [⟨now, 1, d⟩] }

/-- `duration()`: the summed duration of the live bins. -/
def duration (s : MovingStats) : Nat := (s.bins.map Bin.duration).sum

/-- `average()`: pruning first, then the summed duration over the summed count. -/
def average (s : MovingStats) (now : Nat) : Option Nat :=
  let count := ((s.live now).map Bin.count).sum
  if count = 0 then none else some (((s.live now).map Bin.duration).sum / count)

@[simp] theorem new_duration (w b : Nat) : (new w b).duration = 0 := rfl

@[simp] theorem addAt_windowSize (s : MovingStats) (now d : Nat) :
    (s.addAt now d).windowSize = s.windowSize := rfl

def StartsFrom (t0 : Nat) (s : MovingStats) : Prop := ∀ b ∈ s.bins, t0 ≤ b.start

theorem startsFrom_new (t0 w b : Nat) : StartsFrom t0 (new w b) := by
  simp [StartsFrom, new]

theorem live_eq_bins {t0 now : Nat} {s : MovingStats} (hs : StartsFrom t0 s)
    (hnow : now ≤ t0 + s.windowSize) : s.live now = s.bins :=
  List.filter_eq_self.mpr fun b hb => by simpa using le_trans hnow (by have := hs b hb; omega)

theorem addAt_startsFrom {t0 now : Nat} {s : MovingStats} (hs : StartsFrom t0 s)
    (hnow : t0 ≤ now) (d : Nat) : StartsFrom t0 (s.addAt now d) := by
  have hl : ∀ b ∈ s.live now, t0 ≤ b.start := fun b hb => hs b (List.mem_filter.mp hb).1
  simp only [StartsFrom, addAt]
  split
  · next b rest h =>
    rw [h] at hl
    split <;> simp_all
  · simpa using hnow

theorem addAt_duration {t0 now : Nat} {s : MovingStats} (hs : StartsFrom t0 s)
    (hnow : now ≤ t0 + s.windowSize) (d : Nat) : (s.addAt now d).duration = s.duration + d := by
  have hl := live_eq_bins hs hnow
  simp only [duration, addAt, hl]
  split
  · next b rest h =>
    rw [h]
    split <;> simp <;> omega
  · next h => simp [h]

end MovingStats

end Fundex
