import Mathlib

namespace Fundex

/-- An error line of `end_section`, with its fields. -/
inductive StopwatchLog where
  | mismatchedSection (current received : String)
  | noCurrentSection (received : String)
  deriving DecidableEq

def StopwatchLog.message : StopwatchLog → String
  | .mismatchedSection _ _ => "`end_section` with mismatched section"
  | .noCurrentSection _ => "`end_section` with no current section"

/-- `counter` is the history of `inc_by` calls on the `deployment_sync_secs` counter vector, each
with its `section` label and the nanoseconds `record_and_reset` measured with one clock reading,
before their conversion to seconds. -/
structure StopwatchInner where
  counter : List (String × Nat)
  sectionStack : List String
  timer : Nat
  logs : List StopwatchLog

namespace StopwatchInner

variable (s : StopwatchInner) (id : String) (now : Nat)

def recordAndReset : StopwatchInner :=
  match s.sectionStack.getLast? with
  | some sect => { s with counter := s.counter ++ [(sect, now - s.timer)], timer := now }
  | none => { s with timer := now }

def startSection : StopwatchInner :=
  let s := s.recordAndReset now
  { s with sectionStack := s.sectionStack ++ [id] }

def endSection : StopwatchInner :=
  match s.sectionStack.getLast? with
  | some current =>
    if current = id then
      let s := s.recordAndReset now
      { s with sectionStack := s.sectionStack.dropLast }
    else { s with logs := s.logs ++ [.mismatchedSection current id] }
  | none => { s with logs := s.logs ++ [.noCurrentSection id] }

/-- What the counter labelled `l` has been credited. -/
def total (l : String) : Nat := ((s.counter.filter fun e => e.1 = l).map Prod.snd).sum

def credited : Nat := (s.counter.map Prod.snd).sum

@[simp] theorem recordAndReset_sectionStack :
    (s.recordAndReset now).sectionStack = s.sectionStack := by
  unfold recordAndReset; split <;> rfl

@[simp] theorem recordAndReset_logs : (s.recordAndReset now).logs = s.logs := by
  unfold recordAndReset; split <;> rfl

@[simp] theorem recordAndReset_timer : (s.recordAndReset now).timer = now := by
  unfold recordAndReset; split <;> rfl

@[simp] theorem recordAndReset_counter :
    (s.recordAndReset now).counter =
      s.counter ++ (s.sectionStack.getLast?.map fun sect => (sect, now - s.timer)).toList := by
  unfold recordAndReset; split <;> simp_all

theorem credited_recordAndReset (h : s.sectionStack ≠ []) :
    (s.recordAndReset now).credited = s.credited + (now - s.timer) := by
  cases hs : s.sectionStack.getLast? with
  | none => exact absurd (List.getLast?_eq_none_iff.mp hs) h
  | some sect => simp [credited, hs]

@[simp] theorem startSection_sectionStack :
    (s.startSection id now).sectionStack = s.sectionStack ++ [id] := by
  simp [startSection]

@[simp] theorem startSection_logs : (s.startSection id now).logs = s.logs := by
  simp [startSection]

@[simp] theorem startSection_timer : (s.startSection id now).timer = now := by
  simp [startSection]

@[simp] theorem startSection_counter :
    (s.startSection id now).counter = (s.recordAndReset now).counter := rfl

theorem credited_startSection :
    (s.startSection id now).credited = (s.recordAndReset now).credited := rfl

theorem endSection_of_top (h : s.sectionStack.getLast? = some id) :
    s.endSection id now = { s.recordAndReset now with sectionStack := s.sectionStack.dropLast } := by
  simp [endSection, h]

theorem endSection_of_top_ne {current : String} (h : s.sectionStack.getLast? = some current)
    (hne : current ≠ id) :
    s.endSection id now = { s with logs := s.logs ++ [.mismatchedSection current id] } := by
  simp [endSection, h, hne]

end StopwatchInner

/-- The guard `start_section` returns; its `stopwatch` is the one it was started on. -/
structure Section where
  id : String

structure StopwatchMetrics where
  disabled : Bool
  inner : StopwatchInner

namespace StopwatchMetrics

/-- `StopwatchMetrics::new` at instant `now`; the registration of the counter is not modelled. -/
def new (now : Nat) : StopwatchMetrics :=
  ⟨false, StopwatchInner.startSection ⟨[], [], now, []⟩ "unknown" now⟩

def startSection (m : StopwatchMetrics) (id : String) (now : Nat) : StopwatchMetrics × Section :=
  (if !m.disabled then { m with inner := m.inner.startSection id now } else m, ⟨id⟩)

def disable (m : StopwatchMetrics) : StopwatchMetrics := { m with disabled := true }

def endSection (m : StopwatchMetrics) (id : String) (now : Nat) : StopwatchMetrics :=
  if !m.disabled then { m with inner := m.inner.endSection id now } else m

@[simp] theorem new_inner (now : Nat) :
    (new now).inner = ⟨[], ["unknown"], now, []⟩ := by
  simp [new, StopwatchInner.startSection, StopwatchInner.recordAndReset]

@[simp] theorem new_disabled (now : Nat) : (new now).disabled = false := rfl

end StopwatchMetrics

/-- `Drop for Section`. -/
def Section.drop (g : Section) (m : StopwatchMetrics) (now : Nat) : StopwatchMetrics :=
  m.endSection g.id now

/-- A client call: `start id` is `start_section(id)`, `finish` drops the innermost guard the client
still holds. -/
inductive SectionOp where
  | start (id : String)
  | finish

/-- A client that drops its guards in LIFO order, holding them innermost last. -/
def lifoStep : StopwatchMetrics × List Section → SectionOp × Nat → StopwatchMetrics × List Section
  | (m, held), (.start id, now) => ((m.startSection id now).1, held ++ [(m.startSection id now).2])
  | (m, held), (.finish, now) =>
    match held.getLast? with
    | some g => (g.drop m now, held.dropLast)
    | none => (m, held)

def lifoRun (t0 : Nat) (ops : List (SectionOp × Nat)) : StopwatchMetrics × List Section :=
  ops.foldl lifoStep (.new t0, [])

/-- What the stopwatch is for: the time between two resets belongs to the innermost open section,
to "unknown" when none is open. Each interval is kept with its owner and its two ends. -/
structure Timeline where
  opened : List String
  lastReset : Nat
  intervals : List (String × Nat × Nat)

namespace Timeline

def init (t0 : Nat) : Timeline := ⟨[], t0, []⟩

def innermost (t : Timeline) : String := t.opened.getLast?.getD "unknown"

def step (t : Timeline) : SectionOp × Nat → Timeline
  | (.start id, now) => ⟨t.opened ++ [id], now, t.intervals ++ [(t.innermost, t.lastReset, now)]⟩
  | (.finish, now) =>
    if t.opened = [] then t
    else ⟨t.opened.dropLast, now, t.intervals ++ [(t.innermost, t.lastReset, now)]⟩

def run (t0 : Nat) (ops : List (SectionOp × Nat)) : Timeline := ops.foldl step (init t0)

def total (t : Timeline) (l : String) : Nat :=
  ((t.intervals.filter fun e => e.1 = l).map fun e => e.2.2 - e.2.1).sum

theorem getLast?_base (t : Timeline) :
    ("unknown" :: t.opened).getLast? = some t.innermost := by
  simp [innermost, List.getLast?_cons]

end Timeline

/-- How the state of a LIFO client stands to the timeline of its calls. -/
structure LifoRel (st : StopwatchMetrics × List Section) (t : Timeline) : Prop where
  enabled : st.1.disabled = false
  logs : st.1.inner.logs = []
  stack : st.1.inner.sectionStack = "unknown" :: t.opened
  held : st.2.map Section.id = t.opened
  timer : st.1.inner.timer = t.lastReset
  counter : st.1.inner.counter = t.intervals.map fun e => (e.1, e.2.2 - e.2.1)

theorem LifoRel.init (t0 : Nat) : LifoRel (.new t0, []) (.init t0) :=
  ⟨rfl, by simp, by simp [Timeline.init], rfl, by simp [Timeline.init], by simp [Timeline.init]⟩

theorem LifoRel.step {st : StopwatchMetrics × List Section} {t : Timeline} (h : LifoRel st t)
    (op : SectionOp × Nat) : LifoRel (lifoStep st op) (t.step op) := by
  obtain ⟨m, held⟩ := st
  obtain ⟨hen, hlogs, hstack, hheld, htimer, hcounter⟩ := h
  simp only at hen hlogs hstack hheld htimer hcounter
  have hlast := t.getLast?_base
  obtain ⟨op, now⟩ := op
  cases op with
  | start id =>
    refine ⟨?_, ?_, ?_, ?_, ?_, ?_⟩ <;>
      simp [lifoStep, Timeline.step, StopwatchMetrics.startSection, hen, hlogs, hstack, hheld,
        htimer, hcounter, hlast]
  | finish =>
    cases hg : held.getLast? with
    | none =>
      have hopen : t.opened = [] := by rw [← hheld]; simpa using hg
      rw [show lifoStep (m, held) (.finish, now) = (m, held) by simp [lifoStep, hg],
        show t.step (.finish, now) = t by simp [Timeline.step, hopen]]
      exact ⟨hen, hlogs, hstack, hheld, htimer, hcounter⟩
    | some g =>
      have htop : t.opened.getLast? = some g.id := by rw [← hheld, List.getLast?_map, hg]; rfl
      have hopen : t.opened ≠ [] := by rintro h; simp [h] at htop
      have hinner : t.innermost = g.id := by simp [Timeline.innermost, htop]
      have hend : m.inner.sectionStack.getLast? = some g.id := by rw [hstack, hlast, hinner]
      refine ⟨?_, ?_, ?_, ?_, ?_, ?_⟩ <;>
        simp [lifoStep, hg, Section.drop, StopwatchMetrics.endSection, hen,
          StopwatchInner.endSection_of_top _ _ _ hend, Timeline.step, hopen, hlogs, hstack,
          List.dropLast_cons_of_ne_nil hopen, hheld, htimer, hcounter, hlast, hinner]

theorem LifoRel.run {st : StopwatchMetrics × List Section} {t : Timeline} (h : LifoRel st t)
    (ops : List (SectionOp × Nat)) : LifoRel (ops.foldl lifoStep st) (ops.foldl Timeline.step t) := by
  induction ops generalizing st t with
  | nil => exact h
  | cons op ops ih => exact ih (h.step op)

theorem LifoRel.total {st : StopwatchMetrics × List Section} {t : Timeline} (h : LifoRel st t)
    (l : String) : st.1.inner.total l = t.total l := by
  simp [StopwatchInner.total, Timeline.total, h.counter, List.filter_map, Function.comp_def]

theorem lifoRun_charges_innermost (t0 : Nat) (ops : List (SectionOp × Nat)) :
    (lifoRun t0 ops).1.inner.logs = [] ∧
      (lifoRun t0 ops).1.inner.sectionStack = "unknown" :: (Timeline.run t0 ops).opened ∧
      (lifoRun t0 ops).2.map Section.id = (Timeline.run t0 ops).opened ∧
      ∀ l, (lifoRun t0 ops).1.inner.total l = (Timeline.run t0 ops).total l :=
  have h := (LifoRel.init t0).run ops
  ⟨h.logs, h.stack, h.held, h.total⟩

end Fundex
