import Fundex.Stopwatch

/-! `StopwatchMetrics` shared by threads. `start_section` and the drop of a guard each read
`disabled` and then, in a later step, take the lock; `disable` and the clock interleave with
both, and guards are dropped in any order, or never. -/

namespace Fundex

/-- Where a thread's section is: `starting` and `ending` have read `disabled` as false and wait
for the lock. -/
inductive GuardPhase where
  | starting (id : String)
  | live (id : String)
  | ending (id : String)
  | dropped
  deriving DecidableEq

/-- The pops a guard can still make: a held guard while the stopwatch is enabled, and a guard
past its read of `disabled`. -/
def GuardPhase.pendingPops (disabled : Bool) : GuardPhase → Nat
  | .live _ => if disabled then 0 else 1
  | .ending _ => 1
  | _ => 0

namespace GuardPhase

variable (id : String) (d : Bool)

@[simp] theorem pendingPops_starting : (starting id).pendingPops d = 0 := rfl

@[simp] theorem pendingPops_live : (live id).pendingPops d = if d then 0 else 1 := rfl

@[simp] theorem pendingPops_ending : (ending id).pendingPops d = 1 := rfl

@[simp] theorem pendingPops_dropped : dropped.pendingPops d = 0 := rfl

theorem pendingPops_disabled_le (g : GuardPhase) : g.pendingPops true ≤ g.pendingPops d := by
  cases g <;> simp [pendingPops]

end GuardPhase

structure StopwatchWorld where
  metrics : StopwatchMetrics
  clock : Nat
  guards : List GuardPhase

namespace StopwatchWorld

def init (t0 : Nat) : StopwatchWorld := ⟨.new t0, t0, []⟩

def pendingPops (w : StopwatchWorld) : Nat :=
  (w.guards.map (GuardPhase.pendingPops w.metrics.disabled)).sum

end StopwatchWorld

inductive StopwatchStep : StopwatchWorld → StopwatchWorld → Prop
  | tick (w : StopwatchWorld) (d : Nat) : StopwatchStep w { w with clock := w.clock + d }
  | startSection (w : StopwatchWorld) (id : String) :
      StopwatchStep w
        { w with guards := w.guards ++ [if w.metrics.disabled then .live id else .starting id] }
  | lockStart (w : StopwatchWorld) (i : Nat) (id : String) (h : w.guards[i]? = some (.starting id)) :
      StopwatchStep w
        { w with metrics := { w.metrics with inner := w.metrics.inner.startSection id w.clock },
                 guards := w.guards.set i (.live id) }
  | drop (w : StopwatchWorld) (i : Nat) (id : String) (h : w.guards[i]? = some (.live id)) :
      StopwatchStep w
        { w with guards := w.guards.set i (if w.metrics.disabled then .dropped else .ending id) }
  | lockEnd (w : StopwatchWorld) (i : Nat) (id : String) (h : w.guards[i]? = some (.ending id)) :
      StopwatchStep w
        { w with metrics := { w.metrics with inner := w.metrics.inner.endSection id w.clock },
                 guards := w.guards.set i .dropped }
  | disable (w : StopwatchWorld) : StopwatchStep w { w with metrics := w.metrics.disable }

inductive StopwatchReachable (t0 : Nat) : StopwatchWorld → Prop
  | init : StopwatchReachable t0 (.init t0)
  | step {w w' : StopwatchWorld} : StopwatchReachable t0 w → StopwatchStep w w' →
      StopwatchReachable t0 w'

theorem sum_map_set {α : Type} (f : α → Nat) {l : List α} {i : Nat} {a : α} (b : α)
    (h : l[i]? = some a) : ((l.set i b).map f).sum + f a = (l.map f).sum + f b := by
  induction l generalizing i with
  | nil => simp at h
  | cons x l ih =>
    cases i with
    | zero =>
      simp only [List.getElem?_cons_zero, Option.some.injEq] at h
      subst h
      simp only [List.set_cons_zero, List.map_cons, List.sum_cons]
      omega
    | succ i =>
      have := ih (by simpa using h)
      simp only [List.set_cons_succ, List.map_cons, List.sum_cons]
      omega

/-- Without the interleavings: `start_section` is its read of `disabled` followed at once by its
locked step. -/
theorem StopwatchStep.startSection_atomic (w : StopwatchWorld) (id : String) :
    ∃ w', Relation.ReflTransGen StopwatchStep w w' ∧
      w' = { w with metrics := (w.metrics.startSection id w.clock).1,
                    guards := w.guards ++ [.live id] } := by
  cases hd : w.metrics.disabled
  · refine ⟨_, .tail (.single (.startSection w id)) (.lockStart _ w.guards.length id ?_), ?_⟩
    · simp [hd]
    · simp [StopwatchMetrics.startSection, hd]
  · exact ⟨_, .single (.startSection w id), by simp [StopwatchMetrics.startSection, hd]⟩

/-- Without the interleavings: the drop of a held guard is `Section::drop`. -/
theorem StopwatchStep.drop_atomic (w : StopwatchWorld) (i : Nat) (id : String)
    (h : w.guards[i]? = some (.live id)) :
    ∃ w', Relation.ReflTransGen StopwatchStep w w' ∧
      w' = { w with metrics := Section.drop ⟨id⟩ w.metrics w.clock,
                    guards := w.guards.set i .dropped } := by
  cases hd : w.metrics.disabled
  · refine ⟨_, .tail (.single (.drop w i id h)) (.lockEnd _ i id ?_), ?_⟩
    · simp [hd, List.getElem?_set, (List.getElem?_eq_some_iff.mp h).1]
    · simp [Section.drop, StopwatchMetrics.endSection, hd]
  · exact ⟨_, .single (.drop w i id h), by simp [Section.drop, StopwatchMetrics.endSection, hd]⟩

structure GuardsOk (t0 : Nat) (w : StopwatchWorld) : Prop where
  base : ∃ rest, w.metrics.inner.sectionStack = "unknown" :: rest ∧ w.pendingPops ≤ rest.length
  noCurrent : ∀ id, StopwatchLog.noCurrentSection id ∉ w.metrics.inner.logs
  counted : t0 + w.metrics.inner.credited = w.metrics.inner.timer
  timer_le : w.metrics.inner.timer ≤ w.clock

theorem GuardsOk.init (t0 : Nat) : GuardsOk t0 (.init t0) :=
  ⟨⟨[], by simp [StopwatchWorld.init], by simp [StopwatchWorld.init, StopwatchWorld.pendingPops]⟩,
    by simp [StopwatchWorld.init], by simp [StopwatchWorld.init, StopwatchInner.credited],
    by simp [StopwatchWorld.init]⟩

theorem GuardsOk.step {t0 : Nat} {w w' : StopwatchWorld} (h : GuardsOk t0 w)
    (hs : StopwatchStep w w') : GuardsOk t0 w' := by
  obtain ⟨⟨rest, hstack, hpend⟩, hlogs, hcount, hle⟩ := h
  have hne : w.metrics.inner.sectionStack ≠ [] := by simp [hstack]
  simp only [StopwatchWorld.pendingPops] at hpend
  cases hs with
  | tick d => exact ⟨⟨rest, hstack, hpend⟩, hlogs, hcount, by simp only; omega⟩
  | startSection id =>
    refine ⟨⟨rest, hstack, ?_⟩, hlogs, hcount, hle⟩
    cases hd : w.metrics.disabled <;> simpa [StopwatchWorld.pendingPops, hd] using hpend
  | lockStart i id hi =>
    have hset := sum_map_set (GuardPhase.pendingPops w.metrics.disabled) (.live id) hi
    refine ⟨⟨rest ++ [id], by simp [hstack], ?_⟩, by simpa using hlogs, ?_, by simp⟩
    · simp only [StopwatchWorld.pendingPops, List.length_append, List.length_singleton]
      cases hd : w.metrics.disabled <;> simp [hd] at hset hpend ⊢ <;> omega
    · rw [StopwatchInner.credited_startSection, StopwatchInner.credited_recordAndReset _ _ hne,
        StopwatchInner.startSection_timer]
      omega
  | drop i id hi =>
    have hset := sum_map_set (GuardPhase.pendingPops w.metrics.disabled)
      (if w.metrics.disabled then .dropped else .ending id) hi
    refine ⟨⟨rest, hstack, ?_⟩, hlogs, hcount, hle⟩
    simp only [StopwatchWorld.pendingPops]
    cases hd : w.metrics.disabled <;> simp [hd] at hset hpend ⊢ <;> omega
  | lockEnd i id hi =>
    have hset := sum_map_set (GuardPhase.pendingPops w.metrics.disabled) .dropped hi
    simp only [GuardPhase.pendingPops_ending, GuardPhase.pendingPops_dropped] at hset
    have hlast : w.metrics.inner.sectionStack.getLast? = some (rest.getLast?.getD "unknown") := by
      rw [hstack, List.getLast?_cons]
    by_cases htop : rest.getLast?.getD "unknown" = id
    · rw [htop] at hlast
      have hrest : rest ≠ [] := by rintro rfl; simp at hpend; omega
      rw [StopwatchInner.endSection_of_top _ _ _ hlast]
      refine ⟨⟨rest.dropLast, ?_, ?_⟩, by simpa using hlogs, ?_, by simp⟩
      · simp [hstack, List.dropLast_cons_of_ne_nil hrest]
      · simp only [StopwatchWorld.pendingPops, List.length_dropLast]
        omega
      · show t0 + (w.metrics.inner.recordAndReset w.clock).credited = _
        rw [StopwatchInner.credited_recordAndReset _ _ hne, StopwatchInner.recordAndReset_timer]
        omega
    · rw [StopwatchInner.endSection_of_top_ne _ _ _ hlast htop]
      refine ⟨⟨rest, hstack, ?_⟩, by simpa using hlogs, hcount, hle⟩
      simp only [StopwatchWorld.pendingPops]
      omega
  | disable =>
    refine ⟨⟨rest, hstack, le_trans ?_ hpend⟩, hlogs, hcount, hle⟩
    exact List.sum_le_sum fun g _ => g.pendingPops_disabled_le _

theorem StopwatchReachable.guardsOk {t0 : Nat} {w : StopwatchWorld}
    (hw : StopwatchReachable t0 w) : GuardsOk t0 w := by
  induction hw with
  | init => exact .init t0
  | step _ hs ih => exact ih.step hs

theorem StopwatchStep.resets_with_stack {w w' : StopwatchWorld} (hs : StopwatchStep w w') :
    (w'.metrics.inner.sectionStack = w.metrics.inner.sectionStack ∧
        w'.metrics.inner.counter = w.metrics.inner.counter ∧
        w'.metrics.inner.timer = w.metrics.inner.timer) ∨
      (w'.metrics.inner.sectionStack ≠ w.metrics.inner.sectionStack ∧
        w'.metrics.inner.timer = w.clock) := by
  cases hs with
  | lockStart i id _ => exact .inr ⟨by simp, by simp⟩
  | lockEnd i id _ =>
    cases hlast : w.metrics.inner.sectionStack.getLast? with
    | none => exact .inl (by simp [StopwatchInner.endSection, hlast])
    | some current =>
      by_cases htop : current = id
      · subst htop
        rw [StopwatchInner.endSection_of_top _ _ _ hlast]
        refine .inr ⟨fun h => ?_, by simp⟩
        have hpos : 0 < w.metrics.inner.sectionStack.length :=
          List.length_pos.mpr fun h => by simp [h] at hlast
        have := congrArg List.length h
        simp only [List.length_dropLast] at this
        omega
      · exact .inl (by simp [StopwatchInner.endSection_of_top_ne _ _ _ hlast htop])
  | _ => exact .inl ⟨rfl, rfl, rfl⟩

theorem sectionStack_keeps_base {t0 : Nat} {w : StopwatchWorld} (hw : StopwatchReachable t0 w) :
    (∃ rest, w.metrics.inner.sectionStack = "unknown" :: rest) ∧
      (∀ id, StopwatchLog.noCurrentSection id ∉ w.metrics.inner.logs) ∧
      t0 + w.metrics.inner.credited = w.metrics.inner.timer ∧
      ∀ w', StopwatchStep w w' →
        (w'.metrics.inner.sectionStack = w.metrics.inner.sectionStack ∧
            w'.metrics.inner.counter = w.metrics.inner.counter ∧
            w'.metrics.inner.timer = w.metrics.inner.timer) ∨
          (w'.metrics.inner.sectionStack ≠ w.metrics.inner.sectionStack ∧
            w'.metrics.inner.timer = w.clock) :=
  have h := hw.guardsOk
  ⟨h.base.imp fun _ hr => hr.1, h.noCurrent, h.counted, fun _ hs => hs.resets_with_stack⟩

/-- Three sections started, `"a"`'s guard dropped while `"b"` is on top (a mismatch, logged and
not popped), `disable` while `"c"` waits for the lock, and `"b"`'s guard dropped after it. -/
theorem sectionStack_keeps_base_mismatch_disable :
    ∃ w, StopwatchReachable 0 w ∧ w.metrics.disabled = true ∧
      w.metrics.inner.sectionStack = ["unknown", "a", "b", "c"] ∧
      w.metrics.inner.logs = [.mismatchedSection "b" "a"] ∧
      (∃ rest, w.metrics.inner.sectionStack = "unknown" :: rest) ∧
      (∀ id, StopwatchLog.noCurrentSection id ∉ w.metrics.inner.logs) ∧
      0 + w.metrics.inner.credited = w.metrics.inner.timer ∧
      ∀ w', StopwatchStep w w' →
        (w'.metrics.inner.sectionStack = w.metrics.inner.sectionStack ∧
            w'.metrics.inner.counter = w.metrics.inner.counter ∧
            w'.metrics.inner.timer = w.metrics.inner.timer) ∨
          (w'.metrics.inner.sectionStack ≠ w.metrics.inner.sectionStack ∧
            w'.metrics.inner.timer = w.clock) :=
  have hw : StopwatchReachable 0 _ :=
    .step (.step (.step (.step (.step (.step (.step (.step (.step (.step (.step (.step (.step .init
      (.tick _ 2)) (.startSection _ "a")) (.lockStart _ 0 "a" rfl)) (.tick _ 3))
      (.startSection _ "b")) (.lockStart _ 1 "b" rfl)) (.tick _ 1)) (.drop _ 0 "a" rfl))
      (.lockEnd _ 0 "a" rfl)) (.startSection _ "c")) (.disable _)) (.lockStart _ 2 "c" rfl))
      (.drop _ 1 "b" rfl)
  ⟨_, hw, rfl, rfl, rfl, sectionStack_keeps_base hw⟩

/-! ## After `disable`

`disable` turns `start_section` and `end_section` into no-ops, but a thread that read `disabled`
as false before it still takes the lock and does its push or pop. -/

/-- A thread past its read of `disabled` that has still to take the lock. -/
def GuardPhase.inFlight : GuardPhase → Nat
  | .starting _ | .ending _ => 1
  | _ => 0

def StopwatchWorld.inFlight (w : StopwatchWorld) : Nat := (w.guards.map GuardPhase.inFlight).sum

theorem StopwatchStep.of_disabled {w w' : StopwatchWorld} (hs : StopwatchStep w w')
    (hd : w.metrics.disabled = true) :
    w'.metrics.disabled = true ∧
      (w'.inFlight = w.inFlight ∧ w'.metrics.inner = w.metrics.inner ∨
        w'.inFlight + 1 = w.inFlight) := by
  cases hs with
  | tick => exact ⟨hd, .inl ⟨rfl, rfl⟩⟩
  | startSection id =>
    refine ⟨hd, .inl ⟨?_, rfl⟩⟩
    simp [StopwatchWorld.inFlight, hd, GuardPhase.inFlight]
  | lockStart i id hi =>
    have := sum_map_set GuardPhase.inFlight (.live id) hi
    exact ⟨hd, .inr (by simpa [StopwatchWorld.inFlight, GuardPhase.inFlight] using this)⟩
  | drop i id hi =>
    have := sum_map_set GuardPhase.inFlight .dropped hi
    refine ⟨hd, .inl ⟨?_, rfl⟩⟩
    simpa [StopwatchWorld.inFlight, GuardPhase.inFlight, hd] using this
  | lockEnd i id hi =>
    have := sum_map_set GuardPhase.inFlight .dropped hi
    exact ⟨hd, .inr (by simpa [StopwatchWorld.inFlight, GuardPhase.inFlight] using this)⟩
  | disable => exact ⟨rfl, .inl ⟨rfl, rfl⟩⟩

theorem disabled_drains {w w' : StopwatchWorld} (hd : w.metrics.disabled = true)
    (hrun : Relation.ReflTransGen StopwatchStep w w') :
    w'.metrics.disabled = true ∧ w'.inFlight ≤ w.inFlight ∧
      (w'.inFlight = w.inFlight → w'.metrics.inner = w.metrics.inner) := by
  induction hrun with
  | refl => exact ⟨hd, le_rfl, fun _ => rfl⟩
  | tail _ hs ih =>
    obtain ⟨hd', hle, heq⟩ := ih
    rcases hs.of_disabled hd' with ⟨hd'', ⟨hf, hi⟩ | hf⟩
    · exact ⟨hd'', hf ▸ hle, fun h => hi.trans (heq (hf ▸ h))⟩
    · exact ⟨hd'', by omega, fun h => by omega⟩

/-- `start_section("c")` read `disabled` as false, then `disable` ran. -/
def disabledInFlight : StopwatchWorld := ⟨(StopwatchMetrics.new 0).disable, 0, [.starting "c"]⟩

/-- The thread in flight still pushes `"c"` after `disable`; then nothing is in flight and the
inner state is frozen. -/
theorem disabled_drains_in_flight :
    StopwatchReachable 0 disabledInFlight ∧ disabledInFlight.inFlight = 1 ∧
      ∃ w', Relation.ReflTransGen StopwatchStep disabledInFlight w' ∧
        w'.metrics.inner.sectionStack = ["unknown", "c"] ∧ w'.inFlight = 0 ∧
        w'.metrics.disabled = true ∧ w'.inFlight ≤ disabledInFlight.inFlight ∧
        (w'.inFlight = disabledInFlight.inFlight →
          w'.metrics.inner = disabledInFlight.metrics.inner) :=
  have hrun : Relation.ReflTransGen StopwatchStep disabledInFlight _ :=
    .tail (.single (.lockStart disabledInFlight 0 "c" rfl)) (.tick _ 1)
  ⟨.step (.step .init (.startSection _ "c")) (.disable _), rfl, _, hrun, rfl, rfl,
    disabled_drains rfl hrun⟩

end Fundex
