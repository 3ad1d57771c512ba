import Fundex.QueryEffort
import Fundex.KillState
import Mathlib.Logic.Relation

/-! `LoadManager` under concurrent callers. Each lock the source takes is one atomic step: a
`decide` call is a sequence of phases, each touching one piece of shared state, and the steps of
all calls, of `record_work`, of `query_permit` and of the clock interleave freely. -/

namespace Fundex

inductive Decision where
  | proceed
  | tooExpensive
  | throttle
  deriving DecidableEq

/-- The settings read once from the environment; `blockedQueries` holds the shape hashes of the
blocked documents. -/
structure Config where
  loadThreshold : Nat
  jailQueries : Bool
  jailThreshold : F64
  simulate : Bool
  windowSize : Nat
  binSize : Nat
  blockedQueries : List UInt64

namespace Config

def loadManagementDisabled (cfg : Config) : Bool := cfg.loadThreshold == 0

def simulated (cfg : Config) (d : Decision) : Decision := if cfg.simulate then .proceed else d

end Config

/-- Overload means a store wait of a second against a threshold of a millisecond. -/
def raceConfig : Config := ⟨1000000, false, .fin 1000000000, false, 300000000000, 1000000000, []⟩

structure LoadManager where
  effort : QueryEffortInner
  jailedQueries : List UInt64
  killState : KillState
  semaphoreWaitStats : MovingStats

namespace LoadManager

variable (cfg : Config)

def new (now : Nat) : LoadManager :=
  ⟨.new cfg.windowSize cfg.binSize, [], .new now, .new cfg.windowSize cfg.binSize⟩

/-- `record_work`; the cache-status counters are not modelled. -/
def recordWork (lm : LoadManager) (shapeHash : UInt64) (duration now : Nat) : LoadManager :=
  if !cfg.loadManagementDisabled then { lm with effort := lm.effort.add shapeHash duration now }
  else lm

/-- `add_wait_time`, run by `query_permit` once a permit is granted. -/
def addWaitTime (lm : LoadManager) (duration now : Nat) : LoadManager :=
  { lm with semaphoreWaitStats := lm.semaphoreWaitStats.addAt now duration }

@[simp] theorem recordWork_killState (lm : LoadManager) (h : UInt64) (d now : Nat) :
    (lm.recordWork cfg h d now).killState = lm.killState := by
  unfold recordWork; split <;> rfl

@[simp] theorem recordWork_jailedQueries (lm : LoadManager) (h : UInt64) (d now : Nat) :
    (lm.recordWork cfg h d now).jailedQueries = lm.jailedQueries := by
  unfold recordWork; split <;> rfl

@[simp] theorem addWaitTime_killState (lm : LoadManager) (d now : Nat) :
    (lm.addWaitTime d now).killState = lm.killState := rfl

@[simp] theorem addWaitTime_jailedQueries (lm : LoadManager) (d now : Nat) :
    (lm.addWaitTime d now).jailedQueries = lm.jailedQueries := rfl

end LoadManager

/-- `LoadManager::overloaded`, from the average wait of the store's pool and of the semaphore. -/
def overloaded (cfg : Config) (storeAvg semaphoreAvg : Option Nat) : Bool × Nat :=
  let maxAvg := Option.max storeAvg semaphoreAvg
  ((maxAvg.map fun average => decide (average > cfg.loadThreshold)).getD false, maxAvg.getD 0)

/-- Where a `decide` call is: the next piece of shared state it touches, with what it computed
so far. `panicked` is a failed assertion, which aborts the process. -/
inductive Phase where
  | overloaded
  | killState (overloaded : Bool)
  | effort (overloaded : Bool) (killRate : F64) (lastUpdate : Nat)
  | jail
  | updateKillRate (overloaded : Bool) (killRate : F64) (lastUpdate : Nat)
      (queryEffort totalEffort : F64)
  | commit (overloaded : Bool) (killRate : F64) (now : Nat) (queryEffort totalEffort : F64)
  | decline (killRate : F64) (queryEffort totalEffort : F64)
  | done (decision : Decision)
  | panicked
  deriving DecidableEq

def Phase.isDone : Phase → Bool
  | .done _ | .panicked => true
  | _ => false

section Decide

variable (cfg : Config) (r : Rounding)

/-- `decide` up to the read of `jailed_queries`. -/
def decideStart (lm : LoadManager) (shapeHash : UInt64) : Phase :=
  if shapeHash ∈ cfg.blockedQueries then .done .tooExpensive
  else if cfg.loadManagementDisabled then .done .proceed
  else if shapeHash ∈ lm.jailedQueries then .done (cfg.simulated .tooExpensive)
  else .overloaded

/-- The read of the kill state and the early return. -/
def decideKillState (lm : LoadManager) (ov : Bool) : Phase :=
  if !ov && F64.beq lm.killState.killRate F64.zero then .done .proceed
  else .effort ov lm.killState.killRate lm.killState.lastUpdate

/-- The read of the effort, the jail test and the assertion of `update_kill_rate`. -/
def decideEffort (lm : LoadManager) (shapeHash : UInt64) (ov : Bool) (killRate : F64)
    (lastUpdate : Nat) : Phase :=
  let (queryEffort, totalEffort) := lm.effort.currentEffort shapeHash
  if totalEffort = 0 then .done .proceed
  else
    let knownQuery := queryEffort.isSome
    let q := F64.ofNat r (Duration.asMillis (queryEffort.getD totalEffort))
    let t := F64.ofNat r (Duration.asMillis totalEffort)
    if knownQuery && cfg.jailQueries && F64.lt cfg.jailThreshold (F64.div r q t) then .jail
    else if ov || F64.lt F64.zero killRate then .updateKillRate ov killRate lastUpdate q t
    else .panicked

/-- The clock read of `update_kill_rate` and the interval test. -/
def decideUpdateKillRate (ov : Bool) (killRate : F64) (lastUpdate : Nat) (q t : F64)
    (now : Nat) : Phase :=
  if now - lastUpdate > killRateUpdateInterval then .commit ov (nextKillRate r killRate ov) now q t
  else .decline killRate q t

def dropProbability (killRate q t : F64) : F64 :=
  (F64.div r (F64.mul r killRate q) t).min F64.one |>.max F64.zero

/-- `Rng::gen_bool(p)` of rand on the draw `v`, `none` where it panics: `Bernoulli::new`
refuses `p` outside `[0, 1]`, scales it by `2^64`, and the draw is below the scaled value. -/
def genBool (p : F64) (v : UInt64) : Option Bool :=
  if F64.le F64.zero p && F64.lt p F64.one then
    let pInt := F64.toU64 (F64.mul r p (F64.mul r (F64.lit r 2) (F64.ofNat r (2 ^ 63))))
    some (pInt == 2 ^ 64 - 1 || decide (v.toNat < pInt))
  else if F64.beq p F64.one then some true
  else none

def decideDecline (killRate q t : F64) (v : UInt64) : Phase :=
  match genBool r (dropProbability r killRate q t) v with
  | some true => .done (cfg.simulated .throttle)
  | some false => .done .proceed
  | none => .panicked

theorem decideDecline_zero (v : UInt64) :
    decideDecline raceConfig .exact F64.zero F64.zero F64.zero v = .done .throttle := by
  have hp : dropProbability .exact F64.zero F64.zero F64.zero = F64.one := by
    simp [dropProbability, F64.zero, F64.one, F64.div, F64.min, F64.max]
  rw [decideDecline, hp]
  simp [genBool, F64.zero, F64.one, Config.simulated, raceConfig]

/-- One step of a call for `shapeHash`: the shared state it leaves and its next phase. `clock`
is `Instant::now()`, `storeAvg` the pool wait average the store reports, `v` a random draw. -/
def Phase.step (lm : LoadManager) (clock : Nat) (shapeHash : UInt64) (storeAvg : Option Nat)
    (v : UInt64) : Phase → LoadManager × Phase
  | .overloaded =>
    (lm, .killState (Fundex.overloaded cfg storeAvg (lm.semaphoreWaitStats.average clock)).1)
  | .killState ov => (lm, decideKillState lm ov)
  | .effort ov k l => (lm, decideEffort cfg r lm shapeHash ov k l)
  | .jail =>
    ({ lm with jailedQueries := lm.jailedQueries.insert shapeHash },
      .done (cfg.simulated .tooExpensive))
  | .updateKillRate ov k l q t => (lm, decideUpdateKillRate r ov k l q t clock)
  | .commit ov k now q t =>
    ({ lm with killState := (lm.killState.commit now k ov clock).1 }, .decline k q t)
  | .decline k q t => (lm, decideDecline cfg r k q t v)
  | .done d => (lm, .done d)
  | .panicked => (lm, .panicked)

theorem Phase.step_fst (lm : LoadManager) (clock : Nat) (h : UInt64) (sa : Option Nat)
    (v : UInt64) (ph : Phase) :
    (ph.step cfg r lm clock h sa v).1 = lm ∨
      (ph = .jail ∧ (ph.step cfg r lm clock h sa v).1 =
        { lm with jailedQueries := lm.jailedQueries.insert h }) ∨
      (∃ ov k now q t, ph = .commit ov k now q t ∧ (ph.step cfg r lm clock h sa v).1 =
        { lm with killState := (lm.killState.commit now k ov clock).1 }) := by
  cases ph with
  | jail => exact .inr (.inl ⟨rfl, rfl⟩)
  | commit ov k now q t => exact .inr (.inr ⟨ov, k, now, q, t, rfl, rfl⟩)
  | _ => exact .inl rfl

theorem Phase.step_done (lm : LoadManager) (clock : Nat) (h : UInt64) (sa : Option Nat)
    (v : UInt64) {ph : Phase} (hph : ph.isDone) : ph.step cfg r lm clock h sa v = (lm, ph) := by
  cases ph <;> simp_all [Phase.isDone, Phase.step]

end Decide

structure Call where
  shapeHash : UInt64
  phase : Phase
  deriving DecidableEq

structure World where
  lm : LoadManager
  clock : Nat
  calls : List Call

namespace World

variable (cfg : Config) (r : Rounding)

def init (clock : Nat) : World := ⟨LoadManager.new cfg clock, clock, []⟩

def Idle (w : World) : Prop := ∀ c ∈ w.calls, c.phase.isDone

def advance (w : World) (i : Nat) (c : Call) (storeAvg : Option Nat) (v : UInt64) : World :=
  let p := c.phase.step cfg r w.lm w.clock c.shapeHash storeAvg v
  { w with lm := p.1, calls := w.calls.set i ⟨c.shapeHash, p.2⟩ }

end World

/-- The steps of the system. With `serial`, a `decide` call starts only when no other is under
way, so calls never overlap. -/
inductive Step (cfg : Config) (r : Rounding) (serial : Bool) : World → World → Prop
  | tick (w : World) (d : Nat) : Step cfg r serial w { w with clock := w.clock + d }
  | recordWork (w : World) (shapeHash : UInt64) (duration : Nat) :
      Step cfg r serial w { w with lm := w.lm.recordWork cfg shapeHash duration w.clock }
  | queryPermit (w : World) (wait : Nat) :
      Step cfg r serial w { w with lm := w.lm.addWaitTime wait w.clock }
  | decide (w : World) (shapeHash : UInt64) (hidle : serial = true → w.Idle) :
      Step cfg r serial w
        { w with calls := w.calls ++ [⟨shapeHash, decideStart cfg w.lm shapeHash⟩] }
  | advance (w : World) (i : Nat) (c : Call) (hc : w.calls[i]? = some c) (storeAvg : Option Nat)
      (v : UInt64) : Step cfg r serial w (w.advance cfg r i c storeAvg v)

inductive Reachable (cfg : Config) (r : Rounding) (serial : Bool) : World → Prop
  | init (clock : Nat) : Reachable cfg r serial (World.init cfg clock)
  | step {w w' : World} : Reachable cfg r serial w → Step cfg r serial w w' →
      Reachable cfg r serial w'

theorem set_self_of_getElem? {α : Type} {l : List α} {i : Nat} {c : α} (h : l[i]? = some c) :
    l.set i c = l := by
  apply List.ext_getElem?
  intro j
  rw [List.getElem?_set]
  split_ifs with hij hlt
  · subst hij; exact h.symm
  · subst hij; simp [List.getElem?_eq_none (not_lt.mp hlt)] at h
  · rfl

theorem World.advance_of_isDone (cfg : Config) (r : Rounding) {w : World} {i : Nat} {c : Call}
    (hc : w.calls[i]? = some c) (hd : c.phase.isDone) (sa : Option Nat) (v : UInt64) :
    w.advance cfg r i c sa v = w := by
  simp only [World.advance, Phase.step_done cfg r _ _ _ _ _ hd]
  rw [set_self_of_getElem? hc]

/-! ## Runs

A run is the list of the environment's actions, replayed from `World.init`; the runs reach
exactly the reachable states (`World.reachable_iff_run`). -/

inductive Action where
  | tick (d : Nat)
  | recordWork (shapeHash : UInt64) (duration : Nat)
  | queryPermit (wait : Nat)
  | decide (shapeHash : UInt64)
  | advance (i : Nat) (storeAvg : Option Nat) (v : UInt64)

/-- A commit of `update_kill_rate`: the kill state under the write lock, what the committing
call computed from its snapshot, and the instant `clock` of the step. -/
structure Commit where
  killState : KillState
  overloaded : Bool
  killRate : F64
  now : Nat
  clock : Nat
  deriving DecidableEq

namespace Commit

def result (c : Commit) : KillState := (c.killState.commit c.now c.killRate c.overloaded c.clock).1

def event (c : Commit) : Nat × KillStateLogEvent :=
  (c.now, (c.killState.commit c.now c.killRate c.overloaded c.clock).2)

/-- The commit an uninterrupted call would make: its reading is more than an interval after the
stored `last_update`, and its rate is the step from the stored rate. -/
def Fresh (r : Rounding) (c : Commit) : Prop :=
  c.killState.lastUpdate + killRateUpdateInterval < c.now ∧
    c.killRate = nextKillRate r c.killState.killRate c.overloaded

instance (r : Rounding) : DecidablePred (Fresh r) := fun _ => inferInstanceAs (Decidable (_ ∧ _))

end Commit

namespace World

variable (cfg : Config) (r : Rounding)

def act (w : World) : Action → Option World
  | .tick d => some { w with clock := w.clock + d }
  | .recordWork h d => some { w with lm := w.lm.recordWork cfg h d w.clock }
  | .queryPermit wait => some { w with lm := w.lm.addWaitTime wait w.clock }
  | .decide h => some { w with calls := w.calls ++ [⟨h, decideStart cfg w.lm h⟩] }
  | .advance i sa v => w.calls[i]?.map fun c => w.advance cfg r i c sa v

def commitOf (w : World) : Action → Option Commit
  | .advance i _ _ =>
    match w.calls[i]? with
    | some ⟨_, .commit ov k now _ _⟩ => some ⟨w.lm.killState, ov, k, now, w.clock⟩
    | _ => none
  | _ => none

/-- The state a run from `w` reaches and the commits it makes, in the order they take the lock. -/
def run : World → List Action → Option (World × List Commit)
  | w, [] => some (w, [])
  | w, a :: as => (w.act cfg r a).bind fun w' =>
    (run w' as).map fun p => (p.1, (w.commitOf a).toList ++ p.2)

theorem run_cons {w w' : World} {a : Action} {as : List Action} {cs : List Commit}
    (h : w.run cfg r (a :: as) = some (w', cs)) :
    ∃ w1 cs1, w.act cfg r a = some w1 ∧ w1.run cfg r as = some (w', cs1) ∧
      cs = (w.commitOf a).toList ++ cs1 := by
  obtain ⟨w1, h1, h2⟩ := Option.bind_eq_some.mp h
  obtain ⟨⟨w2, cs2⟩, h3, hp⟩ := Option.map_eq_some'.mp h2
  cases hp
  exact ⟨w1, cs2, h1, h3, rfl⟩

theorem act_step {w w' : World} {a : Action} (h : w.act cfg r a = some w') :
    Step cfg r false w w' := by
  cases a with
  | tick d => cases h; exact .tick w d
  | recordWork sh d => cases h; exact .recordWork w sh d
  | queryPermit wait => cases h; exact .queryPermit w wait
  | decide sh => cases h; exact .decide w sh nofun
  | advance i sa v =>
    obtain ⟨c, hc, rfl⟩ := Option.map_eq_some'.mp h
    exact .advance w i c hc sa v

theorem step_act {serial : Bool} {w w' : World} (h : Step cfg r serial w w') :
    ∃ a, w.act cfg r a = some w' := by
  cases h with
  | tick d => exact ⟨.tick d, rfl⟩
  | recordWork sh d => exact ⟨.recordWork sh d, rfl⟩
  | queryPermit wait => exact ⟨.queryPermit wait, rfl⟩
  | decide sh => exact ⟨.decide sh, rfl⟩
  | advance i c hc sa v => exact ⟨.advance i sa v, by simp [act, hc]⟩

theorem run_append (w : World) (as bs : List Action) :
    w.run cfg r (as ++ bs) = (w.run cfg r as).bind fun p =>
      (p.1.run cfg r bs).map fun q => (q.1, p.2 ++ q.2) := by
  induction as generalizing w with
  | nil => simp [run]
  | cons a as ih =>
    rw [List.cons_append, run, run]
    cases w.act cfg r a with
    | none => rfl
    | some w' =>
      rw [Option.some_bind, Option.some_bind, ih w']
      cases run cfg r w' as <;> simp [Option.map_map, Function.comp_def]

theorem reachable_of_run {w w' : World} {as : List Action} {cs : List Commit}
    (hw : Reachable cfg r false w) (h : w.run cfg r as = some (w', cs)) :
    Reachable cfg r false w' := by
  induction as generalizing w cs with
  | nil => cases h; exact hw
  | cons a as ih =>
    obtain ⟨w1, cs1, h1, h2, -⟩ := run_cons cfg r h
    exact ih (hw.step (act_step cfg r h1)) h2

theorem reachable_iff_run {w : World} :
    Reachable cfg r false w ↔ ∃ clock as cs, (World.init cfg clock).run cfg r as = some (w, cs) := by
  constructor
  · intro hw
    induction hw with
    | init clock => exact ⟨clock, [], [], rfl⟩
    | step _ hs ih =>
      obtain ⟨clock, as, cs, h⟩ := ih
      obtain ⟨a, ha⟩ := step_act cfg r hs
      exact ⟨clock, as ++ [a], _, by simp [run_append, h, run, ha]; rfl⟩
  · rintro ⟨clock, as, cs, h⟩
    exact reachable_of_run cfg r (.init clock) h

/-- A check that holds of a run from `World.init` holds of a reachable state. -/
theorem run_check {clock : Nat} {as : List Action} {p : World × List Commit → Bool}
    (h : ((World.init cfg clock).run cfg r as).map p = some true) :
    ∃ w cs, (World.init cfg clock).run cfg r as = some (w, cs) ∧ Reachable cfg r false w ∧
      p (w, cs) = true := by
  obtain ⟨⟨w, cs⟩, hrun, hp⟩ := Option.map_eq_some'.mp h
  exact ⟨w, cs, hrun, reachable_of_run cfg r (.init clock) hrun, hp⟩

theorem act_killState {w w' : World} {a : Action} (h : w.act cfg r a = some w') :
    w'.lm.killState = ((w.commitOf a).map Commit.result).getD w.lm.killState := by
  cases a with
  | recordWork sh d => cases h; simp [commitOf]
  | advance i sa v =>
    obtain ⟨⟨sh, ph⟩, hc, rfl⟩ := Option.map_eq_some'.mp h
    cases ph <;> simp [commitOf, hc, World.advance, Phase.step, Commit.result]
  | _ => cases h; rfl

theorem commitOf_killState {w : World} {a : Action} {c : Commit} (h : w.commitOf a = some c) :
    c.killState = w.lm.killState := by
  cases a with
  | advance i sa v =>
    simp only [commitOf] at h
    split at h <;> cases h
    rfl
  | _ => cases h

end World

/-- The five steps that take a new call `i` from its jail check to its commit. -/
def overloadedCall (i : Nat) : List Action :=
  .decide 1 :: (List.replicate 5 (.advance i (some 1000000000) 0))

/-- A total effort of half a millisecond. Call 0 raises the rate to `0.1`, call 1 brings it back
to `0`, and call 2, overloaded half a second later, keeps the rate `0` it read and reaches the
draw with a divisor of `0` milliseconds. -/
def subMillisecondEffort : List Action :=
  .recordWork 1 500000 :: overloadedCall 0 ++ [.advance 0 none 0] ++
  .tick 2000000000 :: .decide 1 :: List.replicate 5 (.advance 1 none 0) ++
  .tick 500000000 :: .decide 1 :: List.replicate 4 (.advance 2 (some 1000000000) 0)

set_option maxRecDepth 100000 in
/-- The guard compares the total effort in nanoseconds with zero, but the division uses whole
milliseconds: at a total of half a millisecond the drop probability is `0 * 0 / 0`, NaN, which
clamps to `1`, and the query is throttled although the kill rate is `0`. -/
theorem decide_throttles_at_zero_kill_rate :
    ∃ w, Reachable raceConfig .exact false w ∧
      (w.lm.effort.currentEffort 1).2 = 500000 ∧ Duration.asMillis 500000 = 0 ∧
      ⟨1, .decline F64.zero F64.zero F64.zero⟩ ∈ w.calls ∧
      ∀ v, decideDecline raceConfig .exact F64.zero F64.zero F64.zero v = .done .throttle := by
  obtain ⟨w, _, -, hw, hp⟩ := World.run_check raceConfig .exact
    (show ((World.init raceConfig 100000000000).run raceConfig .exact subMillisecondEffort).map
        (fun x => decide ((x.1.lm.effort.currentEffort 1).2 = 500000) &&
          decide ((⟨1, .decline F64.zero F64.zero F64.zero⟩ : Call) ∈ x.1.calls)) = some true by
      with_unfolding_all decide)
  simp only [Bool.and_eq_true, decide_eq_true_eq] at hp
  exact ⟨w, hw, hp.1, rfl, hp.2, decideDecline_zero⟩

end Fundex
