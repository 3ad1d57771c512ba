import Fundex.F64
import Mathlib.Algebra.Order.Group.MinMax

namespace Fundex

namespace Duration

def fromMillis (ms : Nat) : Nat := ms * 1000000

def fromSecs (s : Nat) : Nat := s * 1000000000

def asMillis (d : Nat) : Nat := d / 1000000

end Duration

/-- What to log about the state we are currently in. -/
inductive KillStateLogEvent where
  | start
  | ongoing (duration : Nat)
  | settling
  | resolved (duration : Nat)
  | skip

namespace KillStateLogEvent

/-- The variant and the duration it carries. Events are compared through it, so that deciding an
equality compares durations as numerals. -/
def code : KillStateLogEvent → Nat × Nat
  | start => (0, 0)
  | ongoing d => (1, d)
  | settling => (2, 0)
  | resolved d => (3, d)
  | skip => (4, 0)

theorem code_injective : Function.Injective code := by
  intro a b h
  cases a <;> cases b <;> simp only [code, Prod.mk.injEq, ongoing.injEq, resolved.injEq] at h ⊢ <;>
    omega

instance : DecidableEq KillStateLogEvent := fun _ _ => decidable_of_iff _ code_injective.eq_iff

end KillStateLogEvent

structure KillState where
  killRate : F64
  lastUpdate : Nat
  overloadStart : Option Nat
  lastOverloadLog : Nat
  deriving DecidableEq

namespace KillState

/-- `KillState::new` at instant `now`, in nanoseconds since boot: a minute back, or `now` if the
clock is younger. -/
def new (now : Nat) : KillState :=
  let before := if Duration.fromSecs 60 ≤ now then now - Duration.fromSecs 60 else now
  ⟨F64.zero, before, none, before⟩

/-- `KillState::log_event`; `clock` is what `Instant::now()` reads for `elapsed()`. -/
def logEvent (s : KillState) (now : Nat) (killRate : F64) (overloaded : Bool) (clock : Nat) :
    KillState × KillStateLogEvent :=
  match s.overloadStart with
  | some overloadStart =>
    if !overloaded then
      if F64.beq killRate F64.zero then
        ({ s with overloadStart := none }, .resolved (clock - overloadStart))
      else (s, .settling)
    else if now - s.lastOverloadLog > Duration.fromSecs 30 then
      ({ s with lastOverloadLog := now }, .ongoing (clock - overloadStart))
    else (s, .skip)
  | none =>
    if overloaded then ({ s with overloadStart := some now, lastOverloadLog := now }, .start)
    else (s, .skip)

/-- The block of `update_kill_rate` that holds the write lock on the kill state. -/
def commit (s : KillState) (now : Nat) (killRate : F64) (overloaded : Bool) (clock : Nat) :
    KillState × KillStateLogEvent :=
  logEvent { s with killRate := killRate, lastUpdate := now } now killRate overloaded clock

theorem logEvent_killRate (s : KillState) (now : Nat) (k : F64) (ov : Bool) (clock : Nat) :
    (s.logEvent now k ov clock).1.killRate = s.killRate := by
  unfold logEvent; split <;> (try split) <;> (try split) <;> rfl

theorem logEvent_lastUpdate (s : KillState) (now : Nat) (k : F64) (ov : Bool) (clock : Nat) :
    (s.logEvent now k ov clock).1.lastUpdate = s.lastUpdate := by
  unfold logEvent; split <;> (try split) <;> (try split) <;> rfl

@[simp] theorem commit_killRate (s : KillState) (now : Nat) (k : F64) (ov : Bool) (clock : Nat) :
    (s.commit now k ov clock).1.killRate = k :=
  logEvent_killRate _ _ _ _ _

@[simp] theorem commit_lastUpdate (s : KillState) (now : Nat) (k : F64) (ov : Bool)
    (clock : Nat) : (s.commit now k ov clock).1.lastUpdate = now :=
  logEvent_lastUpdate _ _ _ _ _

theorem commit_fst_clock (s : KillState) (now : Nat) (k : F64) (ov : Bool) (clock clock' : Nat) :
    (s.commit now k ov clock).1 = (s.commit now k ov clock').1 := by
  simp only [commit, logEvent]
  split <;> (try split) <;> (try split) <;> rfl

end KillState

section UpdateKillRate

variable (r : Rounding)

def killRateStepUp : F64 := F64.lit r (1 / 10)

def killRateStepDown : F64 := F64.mul r (F64.lit r 2) (killRateStepUp r)

def killRateUpdateInterval : Nat := Duration.fromMillis 1000

/-- The rate `update_kill_rate` moves to once an interval has passed. -/
def nextKillRate (killRate : F64) (overloaded : Bool) : F64 :=
  if overloaded then
    (F64.add r killRate (F64.mul r (killRateStepUp r) (F64.sub r F64.one killRate))).min F64.one
  else (F64.sub r killRate (killRateStepDown r)).max F64.zero

/-- `LoadManager::update_kill_rate` from the snapshot `(killRate, lastUpdate)`, run without
interruption at instant `now` on kill state `s`: the state it leaves and the rate it returns,
or `none` when its assertion fails. -/
def updateKillRate (s : KillState) (killRate : F64) (lastUpdate : Nat) (overloaded : Bool)
    (now : Nat) : Option (KillState × F64) :=
  if overloaded || F64.lt F64.zero killRate then
    if now - lastUpdate > killRateUpdateInterval then
      let k := nextKillRate r killRate overloaded
      some ((s.commit now k overloaded now).1, k)
    else some (s, killRate)
  else none

/-- Updates from the state each previous one left, at the instants `times`. -/
def updateRun (overloaded : Bool) : KillState → List Nat → Option KillState
  | s, [] => some s
  | s, now :: times =>
    (updateKillRate r s s.killRate s.lastUpdate overloaded now).bind
      fun p => updateRun overloaded p.1 times

/-- Effective updates of `update_kill_rate`, each run without interruption from the state the
previous one left: each comes more than an update interval after the last stored update, and
moves the rate one step. -/
def effectiveUpdates : KillState → List (Bool × Nat) → Option KillState
  | s, [] => some s
  | s, (ov, now) :: updates =>
    if s.lastUpdate + killRateUpdateInterval < now then
      effectiveUpdates (s.commit now (nextKillRate r s.killRate ov) ov now).1 updates
    else none

end UpdateKillRate

def Effective : Nat → List Nat → Prop
  | _, [] => True
  | last, now :: times => last + killRateUpdateInterval < now ∧ Effective now times

theorem nextKillRate_exact_up {k : ℚ} (hk : k ≤ 1) :
    nextKillRate .exact (.fin k) true = .fin (1 - 9 / 10 * (1 - k)) := by
  have : k + 1 / 10 * (1 - k) ≤ 1 := by linarith
  rw [nextKillRate, if_pos rfl]
  simp only [killRateStepUp, F64.lit, Rounding.exact_rnd, F64.one, F64.sub_fin, F64.mul_fin,
    F64.add_fin, F64.min_fin, min_eq_left this]
  congr 1
  ring

theorem nextKillRate_exact_down (k : ℚ) :
    nextKillRate .exact (.fin k) false = .fin (max 0 (k - 1 / 5)) := by
  simp [nextKillRate, killRateStepDown, killRateStepUp, F64.lit, F64.zero, max_comm]
  norm_num

theorem updateRun_cons_effective (ov : Bool) (s : KillState) (k : ℚ) (hk : s.killRate = .fin k)
    (hassert : ov = true ∨ 0 < k) (now : Nat) (times : List Nat)
    (hnow : s.lastUpdate + killRateUpdateInterval < now) :
    updateRun .exact ov s (now :: times) =
      updateRun .exact ov (s.commit now (nextKillRate .exact (.fin k) ov) ov now).1 times := by
  have h1 : (ov || F64.lt F64.zero (.fin k)) = true := by
    rcases hassert with h | h <;> simp [h, F64.zero]
  have h2 : now - s.lastUpdate > killRateUpdateInterval := by omega
  simp [updateRun, updateKillRate, hk, h1, h2]

theorem updateRun_overload (s : KillState) (k0 : ℚ) (hk : s.killRate = .fin k0) (h1 : k0 ≤ 1)
    (times : List Nat) (ht : Effective s.lastUpdate times) :
    (updateRun .exact true s times).map KillState.killRate =
      some (.fin (1 - (9 / 10) ^ times.length * (1 - k0))) := by
  induction times generalizing s k0 with
  | nil => simp [updateRun, hk]
  | cons now times ih =>
    obtain ⟨hnow, ht⟩ := ht
    rw [updateRun_cons_effective true s k0 hk (.inl rfl) now times hnow, nextKillRate_exact_up h1,
      ih _ (1 - 9 / 10 * (1 - k0)) (by simp) (by linarith) (by simpa using ht)]
    congr 2
    simp only [List.length_cons, pow_succ]
    ring

theorem updateRun_recovery_none (s : KillState) (hk : s.killRate = F64.zero) (now : Nat)
    (times : List Nat) : updateRun .exact false s (now :: times) = none := by
  simp [updateRun, updateKillRate, hk, F64.lt, F64.zero]

theorem max_zero_sub_max_zero (x y : ℚ) (hy : 0 ≤ y) : max 0 (max 0 x - y) = max 0 (x - y) :=
  calc max 0 (max 0 x - y) = max 0 (max (0 - y) (x - y)) := by rw [max_sub_sub_right]
    _ = max (max 0 (0 - y)) (x - y) := (max_assoc _ _ _).symm
    _ = max 0 (x - y) := by rw [max_eq_left (show (0 : ℚ) - y ≤ 0 by linarith)]

theorem updateRun_recovery (s : KillState) (k0 : ℚ) (hk : s.killRate = .fin k0) (h0 : 0 ≤ k0)
    (times : List Nat) (ht : Effective s.lastUpdate times) (s' : KillState)
    (hs' : updateRun .exact false s times = some s') :
    s'.killRate = .fin (max 0 (k0 - times.length / 5)) := by
  induction times generalizing s k0 with
  | nil =>
    simp only [updateRun, Option.some.injEq] at hs'
    simp [← hs', hk, max_eq_right h0]
  | cons now times ih =>
    obtain ⟨hnow, ht⟩ := ht
    rcases h0.lt_or_eq with hpos | rfl
    · rw [updateRun_cons_effective false s k0 hk (.inr hpos) now times hnow,
        nextKillRate_exact_down] at hs'
      rw [ih _ (max 0 (k0 - 1 / 5)) (by simp) (le_max_left _ _) (by simpa using ht) hs',
        max_zero_sub_max_zero _ _ (by positivity)]
      congr 2
      simp only [List.length_cons, Nat.cast_succ]
      ring
    · rw [updateRun_recovery_none s (by rw [hk]; rfl)] at hs'
      cases hs'

theorem updateRun_recovery_isSome (s : KillState) (k0 : ℚ) (hk : s.killRate = .fin k0)
    (times : List Nat) (ht : Effective s.lastUpdate times)
    (hlen : (times.length : ℚ) < 5 * k0 + 1) : (updateRun .exact false s times).isSome := by
  induction times generalizing s k0 with
  | nil => rfl
  | cons now times ih =>
    obtain ⟨hnow, ht⟩ := ht
    simp only [List.length_cons, Nat.cast_succ] at hlen
    have hpos : 0 < k0 := by
      have : (0 : ℚ) ≤ times.length := Nat.cast_nonneg _
      linarith
    rw [updateRun_cons_effective false s k0 hk (.inr hpos) now times hnow, nextKillRate_exact_down]
    have := le_max_right (0 : ℚ) (k0 - 1 / 5)
    exact ih _ (max 0 (k0 - 1 / 5)) (by simp) (by simpa using ht) (by linarith)

/-- Over exact arithmetic, consecutive effective updates follow the closed forms of the comment
in `update_kill_rate`: `1 - 0.9^n * (1 - k0)` along an overload, `max 0 (k0 - 0.2 * n)` along a
recovery, which reaches `0` by the fifth update. A recovery update from rate `0` aborts on the
assertion, so the recovery run completes exactly while the rate before each step is positive. -/
theorem updateRun_closed_forms (s : KillState) (k0 : ℚ) (hk : s.killRate = .fin k0)
    (h0 : 0 ≤ k0) (h1 : k0 ≤ 1) (times : List Nat) (ht : Effective s.lastUpdate times) :
    (updateRun .exact true s times).map KillState.killRate =
        some (.fin (1 - (9 / 10) ^ times.length * (1 - k0))) ∧
      (∀ s', updateRun .exact false s times = some s' →
        s'.killRate = .fin (max 0 (k0 - times.length / 5)) ∧
        (5 ≤ times.length → s'.killRate = F64.zero)) ∧
      ((times.length : ℚ) < 5 * k0 + 1 → (updateRun .exact false s times).isSome) := by
  refine ⟨updateRun_overload s k0 hk h1 times ht, fun s' hs' => ?_,
    updateRun_recovery_isSome s k0 hk times ht⟩
  have hrec := updateRun_recovery s k0 hk h0 times ht s' hs'
  refine ⟨hrec, fun h5 => ?_⟩
  rw [hrec, F64.zero, max_eq_left]
  have : (5 : ℚ) ≤ times.length := by exact_mod_cast h5
  linarith

theorem updateRun_closed_forms_half :
    (updateRun .exact true ⟨.fin (1 / 2), 0, some 0, 0⟩ [2000000000, 4000000000]).map
        KillState.killRate =
        some (.fin (1 - (9 / 10) ^ [2000000000, 4000000000].length * (1 - 1 / 2))) ∧
      (∀ s', updateRun .exact false ⟨.fin (1 / 2), 0, some 0, 0⟩ [2000000000, 4000000000] =
          some s' →
        s'.killRate = .fin (max 0 (1 / 2 - [2000000000, 4000000000].length / 5)) ∧
        (5 ≤ [2000000000, 4000000000].length → s'.killRate = F64.zero)) ∧
      (([2000000000, 4000000000].length : ℚ) < 5 * (1 / 2) + 1 →
        (updateRun .exact false ⟨.fin (1 / 2), 0, some 0, 0⟩ [2000000000, 4000000000]).isSome) :=
  updateRun_closed_forms _ _ rfl (by norm_num) (by norm_num) _
    (by simp [Effective, killRateUpdateInterval, Duration.fromMillis])

end Fundex
