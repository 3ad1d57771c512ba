import Mathlib

/-! The retry helper of `util/futures.rs`. An operation is a sequence of attempt outcomes, attempt
`k + 1` being `tryIt k`; the backoff delays only space the attempts, so a strategy is the number of
delays it yields. A run is bounded by `fuel` attempts, and a panic ends it with its message. The
logging (`log_after`, `warn_after`, the attempt counter) is not modelled. -/

namespace Fundex

/-- How a retried future ends within `fuel` attempts. -/
inductive Resolution (α : Type) where
  | resolved (a : α) (attempts : Nat)
  | panicked (msg : String)
  | pending
  deriving DecidableEq

/-- `Option::unwrap`. -/
def unwrapOption {α : Type} : Option α → Except String α
  | some a => .ok a
  | none => .error "called `Option::unwrap()` on a `None` value"

namespace Retry

variable {I E : Type}

/-- Modelled from the spec: `tokio_retry::Retry::spawn`, whose source is not in the repository.
As its tests show, it makes one attempt, then one more after each delay the strategy yields, and
stops at the first `Ok`, resolving to the last attempt's result. `delays` counts the strategy's
items (`none`: endless); `action k` is attempt `k + 1`, an `Except.error` when it panics. -/
def spawnFrom (delays : Option Nat) (action : Nat → Except String (Except E I)) :
    Nat → Nat → Resolution (Except E I)
  | 0, _ => .pending
  | fuel + 1, k =>
    match action k with
    | .error msg => .panicked msg
    | .ok (.ok v) => .resolved (.ok v) (k + 1)
    | .ok (.error e) =>
      if delays.all (k < ·) then spawnFrom delays action fuel (k + 1)
      else .resolved (.error e) (k + 1)

def spawn (delays : Option Nat) (action : Nat → Except String (Except E I)) (fuel : Nat) :
    Resolution (Except E I) :=
  spawnFrom delays action fuel 0

theorem spawnFrom_skip {delays : Option Nat} {action : Nat → Except String (Except E I)}
    (fuel k n : Nat)
    (hretry : ∀ i, k ≤ i → i < k + n → (∃ e, action i = .ok (.error e)) ∧ delays.all (i < ·)) :
    spawnFrom delays action (fuel + n) k = spawnFrom delays action fuel (k + n) := by
  induction n generalizing k with
  | zero => rfl
  | succ n ih =>
    obtain ⟨⟨e, he⟩, hd⟩ := hretry k le_rfl (by omega)
    rw [show fuel + (n + 1) = (fuel + n) + 1 by omega, spawnFrom, he]
    simp only [hd, if_true]
    rw [ih (k + 1) fun i hi hi' => hretry i (by omega) (by omega)]
    congr 1
    omega

end Retry

/-- `m` is the number of attempts the retry law expects under the bound `bound` (`none`: no
limit): every attempt before the `m`-th is retried, and the `m`-th settles or is the last the
bound allows. -/
structure AttemptsNeeded (bound : Option Nat) (retried : Nat → Bool) (m : Nat) : Prop where
  pos : 1 ≤ m
  within : bound.all (m ≤ ·)
  retried_before : ∀ i < m - 1, retried i = true
  last : retried (m - 1) = false ∨ bound = some m

theorem AttemptsNeeded.exists_of_bound (n : Nat) (hn : 1 ≤ n) (retried : Nat → Bool) :
    ∃ m, AttemptsNeeded (some n) retried m := by
  have hex : ∃ m, 1 ≤ m ∧ (retried (m - 1) = false ∨ m = n) := ⟨n, hn, .inr rfl⟩
  refine ⟨Nat.find hex, (Nat.find_spec hex).1, ?_, fun i hi => ?_, ?_⟩
  · simpa using Nat.find_min' hex ⟨hn, .inr rfl⟩
  · have := @Nat.find_min _ _ hex (i + 1) (by omega)
    simp only [Nat.add_sub_cancel, not_and, not_or, Bool.not_eq_false] at this
    exact (this (by omega)).1
  · rcases (Nat.find_spec hex).2 with h | h
    · exact .inl h
    · exact .inr (by rw [h])

namespace Retry

variable {α : Type}

theorem spawn_resolves {delays : Option Nat} {retried : Nat → Bool} {res : Nat → α} {m : Nat}
    (hm : AttemptsNeeded (delays.map (· + 1)) retried m) (fuel : Nat) (hfuel : m ≤ fuel) :
    spawn delays (fun k => .ok (if retried k then .error (res k) else .ok (res k))) fuel =
      .resolved (if retried (m - 1) then .error (res (m - 1)) else .ok (res (m - 1))) m := by
  obtain ⟨hpos, hwithin, hbefore, hlast⟩ := hm
  have hdelay : ∀ i < m - 1, delays.all (i < ·) := by
    intro i hi
    cases delays with
    | none => rfl
    | some d => simp at hwithin ⊢; omega
  have hskip := @spawnFrom_skip α α delays
    (fun k => .ok (if retried k then .error (res k) else .ok (res k))) (fuel - m + 1) 0 (m - 1)
    fun i _ hi => ⟨⟨res i, by simp [hbefore i (by omega)]⟩, hdelay i (by omega)⟩
  rw [spawn, show fuel = fuel - m + 1 + (m - 1) by omega, hskip, Nat.zero_add, spawnFrom,
    show m - 1 + 1 = m by omega]
  cases hr : retried (m - 1)
  · simp
  · have hdelays : delays = some (m - 1) := by
      rcases hlast with h | h
      · simp [hr] at h
      · cases delays <;> simp at h ⊢; omega
    simp [hdelays]

end Retry

/-- `TimeoutError`; its `Display` texts are not modelled. -/
inductive TimeoutError (E : Type) where
  | inner (e : E)
  | elapsed
  deriving DecidableEq

namespace TimeoutError

variable {E : Type}

def isElapsed : TimeoutError E → Bool
  | inner _ => false
  | elapsed => true

def intoInner : TimeoutError E → Option E
  | inner x => some x
  | elapsed => none

end TimeoutError

inductive RetryIf (I E : Type) where
  | error
  | predicate (p : Except E I → Bool)

/-- `RetryIf::check`; `Error` retries on `is_err`. -/
def RetryIf.check {I E : Type} : RetryIf I E → Except E I → Bool
  | .error, .ok _ => false
  | .error, .error _ => true
  | .predicate p, r => p r

section RunRetry

variable {I E : Type}

/-- `retry_strategy`: the number of delays it yields, `none` when endless. The delays themselves
(exponential backoff from 2 ms up to 30 s, with jitter) only space the attempts. `limit - 1` is
`usize` arithmetic, which wraps in a release build. -/
def retryStrategy (limitOpt : Option UInt64) : Option Nat :=
  limitOpt.map fun limit => (limit - 1).toNat

/-- `a - b` on `usize` as Rust compiles it: a debug build checks for overflow and panics, a
release build wraps modulo `2^64`. -/
def usizeSub (debug : Bool) (a b : UInt64) : Except String UInt64 :=
  if debug && decide (a < b) then .error "attempt to subtract with overflow" else .ok (a - b)

/-- `retry_strategy` in either build, its subtraction as that build compiles it. -/
def retryStrategyIn (debug : Bool) (limitOpt : Option UInt64) : Except String (Option Nat) :=
  match limitOpt with
  | some limit => (usizeSub debug limit 1).map fun delays => some delays.toNat
  | none => .ok none

theorem retryStrategyIn_release (limitOpt : Option UInt64) :
    retryStrategyIn false limitOpt = .ok (retryStrategy limitOpt) := by
  cases limitOpt <;> rfl

theorem retryStrategyIn_debug {limit : UInt64} (h : limit ≠ 0) :
    retryStrategyIn true (some limit) = .ok (retryStrategy (some limit)) := by
  have : ¬limit < 1 := fun h1 =>
    have h2 : limit.toNat < 1 := h1
    h (UInt64.toNat.inj (by simpa using h2))
  simp [retryStrategyIn, usizeSub, this, retryStrategy, Except.map]

/-- The closure `run_retry` hands to `Retry::spawn`, after its attempt has resolved: an outer
`Err` asks for another attempt, an outer `Ok` stops. -/
def retryControl (condition : RetryIf I E) (resultWithTimeout : Except (TimeoutError E) I) :
    Except String (Except (Except (TimeoutError E) I) (Except (TimeoutError E) I)) := do
  let isElapsed := match resultWithTimeout with
    | .error e => e.isElapsed
    | .ok _ => false
  if isElapsed then return .error resultWithTimeout
  let result ← match resultWithTimeout with
    | .ok v => pure (.ok v)
    | .error e => (unwrapOption e.intoInner).map .error
  if condition.check result then return .error (result.mapError .inner)
  else return .ok (result.mapError .inner)

def runRetry (condition : RetryIf I E) (limitOpt : Option UInt64)
    (tryItWithTimeout : Nat → Except (TimeoutError E) I) (fuel : Nat) :
    Resolution (Except (TimeoutError E) I) :=
  match Retry.spawn (retryStrategy limitOpt)
      (fun k => retryControl condition (tryItWithTimeout k)) fuel with
  | .resolved (.ok r) n | .resolved (.error r) n => .resolved r n
  | .panicked msg => .panicked msg
  | .pending => .pending

end RunRetry

/-- What one attempt of `RetryConfigWithTimeout::run` comes to: a value, an error, or the
timeout. -/
inductive Outcome (I E : Type) where
  | ok (v : I)
  | err (e : E)
  | timedOut

namespace Outcome

variable {I E : Type}

/-- The attempt future `run` builds: `try_it().timeout(timeout)`, its elapsed error mapped to
`Elapsed` and its inner error to `Inner`. -/
def withTimeout : Outcome I E → Except (TimeoutError E) I
  | ok v => .ok v
  | err e => .error (.inner e)
  | timedOut => .error .elapsed

def ofResult : Except E I → Outcome I E
  | .ok v => ok v
  | .error e => err e

/-- Whether the retry law retries after this outcome: always after a timeout, otherwise as the
condition says. -/
def retried (condition : RetryIf I E) : Outcome I E → Bool
  | ok v => condition.check (.ok v)
  | err e => condition.check (.error e)
  | timedOut => true

/-- Modelled from the spec: whether the condition asks for another attempt after an outcome. A
timeout always does; the default condition asks after an error and not after a value, and a
predicate given to `when` decides by itself. -/
def asksRetry (condition : RetryIf I E) : Outcome I E → Bool
  | timedOut => true
  | ok v => match condition with
    | .error => false
    | .predicate p => p (.ok v)
  | err e => match condition with
    | .error => true
    | .predicate p => p (.error e)

/-- Modelled from the spec: what `run` resolves to after its last attempt: a value as itself, an
error as `Inner`, a timeout as `Elapsed`. -/
def resolution : Outcome I E → Except (TimeoutError E) I
  | ok v => .ok v
  | err e => .error (.inner e)
  | timedOut => .error .elapsed

theorem retried_eq_asksRetry (c : RetryIf I E) (o : Outcome I E) :
    o.retried c = o.asksRetry c := by
  cases o <;> cases c <;> rfl

theorem withTimeout_eq_resolution (o : Outcome I E) : o.withTimeout = o.resolution := by
  cases o <;> rfl

@[simp] theorem withTimeout_ofResult (r : Except E I) :
    (ofResult r).withTimeout = r.mapError .inner := by
  cases r <;> rfl

@[simp] theorem retried_ofResult (c : RetryIf I E) (r : Except E I) :
    (ofResult r).retried c = c.check r := by
  cases r <;> rfl

end Outcome

theorem retryControl_withTimeout {I E : Type} (c : RetryIf I E) (o : Outcome I E) :
    retryControl c o.withTimeout =
      .ok (if o.retried c then .error o.withTimeout else .ok o.withTimeout) := by
  cases o with
  | timedOut => rfl
  | ok v =>
    cases h : c.check (.ok v) <;>
      simp [retryControl, Outcome.withTimeout, Outcome.retried, h] <;> rfl
  | err e =>
    cases h : c.check (.error e) <;>
      simp [retryControl, Outcome.withTimeout, Outcome.retried, TimeoutError.isElapsed,
        TimeoutError.intoInner, unwrapOption, Except.map, bind, Except.bind, h] <;> rfl

theorem runRetry_resolves {I E : Type} {c : RetryIf I E} {limitOpt : Option UInt64}
    {tryIt : Nat → Outcome I E} {m : Nat}
    (hm : AttemptsNeeded ((retryStrategy limitOpt).map (· + 1)) (fun k => (tryIt k).retried c) m)
    (fuel : Nat) (hfuel : m ≤ fuel) :
    runRetry c limitOpt (fun k => (tryIt k).withTimeout) fuel =
      .resolved (tryIt (m - 1)).withTimeout m := by
  simp only [runRetry, retryControl_withTimeout]
  rw [Retry.spawn_resolves hm fuel hfuel]
  cases (tryIt (m - 1)).retried c <;> rfl

/-- A setting of the builder: explicitly set, explicitly cleared, or not configured. -/
inductive RetryConfigProperty (V : Type) where
  | set (v : V)
  | clear
  | unknown

namespace RetryConfigProperty

variable {V : Type}

/-- What `set` and `clear` share: a property is configured once. -/
def configure (p new : RetryConfigProperty V) : Except String (RetryConfigProperty V) :=
  match p with
  | unknown => .ok new
  | _ => .error "Retry config properties must be configured only once"

/-- `RetryConfigProperty::set`. -/
def configureSet (p : RetryConfigProperty V) (v : V) : Except String (RetryConfigProperty V) :=
  p.configure (set v)

/-- `RetryConfigProperty::clear`. -/
def configureClear (p : RetryConfigProperty V) : Except String (RetryConfigProperty V) :=
  p.configure clear

def unwrap (p : RetryConfigProperty V) (operationName propertyName : String) :
    Except String (Option V) :=
  match p with
  | set v => .ok (some v)
  | clear => .ok none
  | unknown =>
    .error s!"Retry helper for {operationName} must have {propertyName} parameter configured"

end RetryConfigProperty

/-- The builder; the logging settings are not modelled. -/
structure RetryConfig (I E : Type) where
  operationName : String
  condition : RetryIf I E
  limit : RetryConfigProperty UInt64

/-- The timeout itself is not kept: which attempts time out is part of their outcomes. -/
structure RetryConfigWithTimeout (I E : Type) where
  inner : RetryConfig I E

structure RetryConfigNoTimeout (I E : Type) where
  inner : RetryConfig I E

def retry {I E : Type} (operationName : String) : RetryConfig I E :=
  ⟨operationName, .error, .unknown⟩

namespace RetryConfig

variable {I E : Type}

def «when» (cfg : RetryConfig I E) (predicate : Except E I → Bool) : RetryConfig I E :=
  { cfg with condition := .predicate predicate }

/-- `RetryConfig::limit`. -/
def setLimit (cfg : RetryConfig I E) (limit : UInt64) : Except String (RetryConfig I E) := do
  return { cfg with limit := ← cfg.limit.configureSet limit }

def noLimit (cfg : RetryConfig I E) : Except String (RetryConfig I E) := do
  return { cfg with limit := ← cfg.limit.configureClear }

def timeout (cfg : RetryConfig I E) : RetryConfigWithTimeout I E := ⟨cfg⟩

def noTimeout (cfg : RetryConfig I E) : RetryConfigNoTimeout I E := ⟨cfg⟩

end RetryConfig

def RetryConfigWithTimeout.run {I E : Type} (cfg : RetryConfigWithTimeout I E)
    (tryIt : Nat → Outcome I E) (fuel : Nat) : Resolution (Except (TimeoutError E) I) :=
  match cfg.inner.limit.unwrap cfg.inner.operationName "limit" with
  | .error msg => .panicked msg
  | .ok limitOpt => runRetry cfg.inner.condition limitOpt (fun k => (tryIt k).withTimeout) fuel

def RetryConfigNoTimeout.run {I E : Type} (cfg : RetryConfigNoTimeout I E)
    (tryIt : Nat → Except E I) (fuel : Nat) : Resolution (Except E I) :=
  match cfg.inner.limit.unwrap cfg.inner.operationName "limit" with
  | .error msg => .panicked msg
  | .ok limitOpt =>
    match runRetry cfg.inner.condition limitOpt (fun k => (tryIt k).mapError .inner) fuel with
    | .resolved (.ok v) n => .resolved (.ok v) n
    | .resolved (.error e) n =>
      match unwrapOption e.intoInner with
      | .ok e => .resolved (.error e) n
      | .error msg => .panicked msg
    | .panicked msg => .panicked msg
    | .pending => .pending

theorem RetryConfigNoTimeout.run_of_runRetry {I E : Type} {cfg : RetryConfigNoTimeout I E}
    {limitOpt : Option UInt64} {tryIt : Nat → Except E I} {fuel n : Nat} {r : Except E I}
    (hun : cfg.inner.limit.unwrap cfg.inner.operationName "limit" = .ok limitOpt)
    (h : runRetry cfg.inner.condition limitOpt (fun k => (tryIt k).mapError .inner) fuel =
      .resolved (r.mapError .inner) n) :
    cfg.run tryIt fuel = .resolved r n := by
  simp only [RetryConfigNoTimeout.run, hun, h]
  cases r <;> rfl

theorem RetryConfigProperty.unwrap_limit {I E : Type} {cfg : RetryConfig I E}
    {bound : Option Nat}
    (hlimit : (∃ n : UInt64, cfg.limit = .set n ∧ 1 ≤ n.toNat ∧ bound = some n.toNat) ∨
      (cfg.limit = .clear ∧ bound = none)) :
    ∃ limitOpt, cfg.limit.unwrap cfg.operationName "limit" = .ok limitOpt ∧
      (retryStrategy limitOpt).map (· + 1) = bound := by
  rcases hlimit with ⟨n, hl, hn, rfl⟩ | ⟨hl, rfl⟩
  · refine ⟨some n, by simp [hl, unwrap], ?_⟩
    simp only [retryStrategy, Option.map_some', Option.some.injEq]
    rw [UInt64.toNat_sub_of_le _ _ (UInt64.le_def.mpr (BitVec.le_def.mpr (by exact hn)))]
    exact Nat.sub_add_cancel hn
  · exact ⟨none, by simp [hl, unwrap], rfl⟩

theorem run_attempts_until_settled {I E : Type} (cfg : RetryConfig I E) (bound : Option Nat)
    (hlimit : (∃ n : UInt64, cfg.limit = .set n ∧ 1 ≤ n.toNat ∧ bound = some n.toNat) ∨
      (cfg.limit = .clear ∧ bound = none)) :
    (∀ (tryIt : Nat → Outcome I E) (m : Nat),
        AttemptsNeeded bound (fun k => (tryIt k).asksRetry cfg.condition) m → ∀ fuel, m ≤ fuel →
          cfg.timeout.run tryIt fuel = .resolved (tryIt (m - 1)).resolution m) ∧
      ∀ (tryIt : Nat → Except E I) (m : Nat),
        AttemptsNeeded bound (fun k => (Outcome.ofResult (tryIt k)).asksRetry cfg.condition) m →
          ∀ fuel, m ≤ fuel → cfg.noTimeout.run tryIt fuel = .resolved (tryIt (m - 1)) m := by
  obtain ⟨limitOpt, hun, rfl⟩ := RetryConfigProperty.unwrap_limit hlimit
  simp only [← Outcome.retried_eq_asksRetry, ← Outcome.withTimeout_eq_resolution]
  refine ⟨fun tryIt m hm fuel hfuel => ?_, fun tryIt m hm fuel hfuel => ?_⟩
  · simp only [RetryConfig.timeout, RetryConfigWithTimeout.run, hun]
    exact runRetry_resolves hm fuel hfuel
  · have h := runRetry_resolves hm fuel hfuel
    simp only [Outcome.withTimeout_ofResult] at h
    exact RetryConfigNoTimeout.run_of_runRetry hun h

/-- The `custom_when` test, where `when` retries values below 10 under a limit of 20; the
`limit_reached` test, five failures under a limit of 5; and a run with timeouts under the default
condition, where a timeout and an error are retried and the first value settles. -/
theorem run_attempts_custom_when :
    (RetryConfig.noTimeout ⟨"test", .predicate fun r => r.toOption.all (· < 10), .set 20⟩ :
        RetryConfigNoTimeout Nat Unit).run (fun k => .ok (k + 1)) 20 = .resolved (.ok 10) 10 ∧
      (RetryConfig.noTimeout ⟨"test", .error, .set 5⟩ : RetryConfigNoTimeout Nat Nat).run
        (fun k => if 10 ≤ k + 1 then .ok (k + 1) else .error (k + 1)) 5 =
        .resolved (.error 5) 5 ∧
      (RetryConfig.timeout ⟨"test", .error, .set 5⟩ : RetryConfigWithTimeout Nat Nat).run
        (fun k => [.timedOut, .err 2, .timedOut, .ok 4].getD k .timedOut) 5 =
        .resolved (.ok 4) 4 :=
  ⟨(run_attempts_until_settled ⟨"test", .predicate fun r => r.toOption.all (· < 10), .set 20⟩
      (some 20) (.inl ⟨20, rfl, by decide, rfl⟩)).2 _ 10 ⟨by decide, by decide, by decide,
        by decide⟩ 20 (by decide),
    (run_attempts_until_settled ⟨"test", .error, .set 5⟩ (some 5)
      (.inl ⟨5, rfl, by decide, rfl⟩)).2 _ 5 ⟨by decide, by decide, by decide, by decide⟩ 5
        le_rfl,
    (run_attempts_until_settled ⟨"test", .error, .set 5⟩ (some 5)
      (.inl ⟨5, rfl, by decide, rfl⟩)).1 _ 4 ⟨by decide, by decide, by decide, by decide⟩ 5
        (by decide)⟩

/-- `limit(0)`, which the builder accepts: the delay count `0 - 1` underflows. A debug build
panics; a release build wraps it to `2^64 - 1` delays, so an operation that always fails is
attempted `2^64` times. -/
theorem run_limit_zero_underflows :
    retryStrategyIn true (some 0) = .error "attempt to subtract with overflow" ∧
      retryStrategyIn false (some 0) = .ok (some (2 ^ 64 - 1)) ∧
      (RetryConfig.noTimeout ⟨"op", .error, .set 0⟩ : RetryConfigNoTimeout Unit Unit).run
        (fun _ => .error ()) (2 ^ 64) = .resolved (.error ()) (2 ^ 64) := by
  have hbound : (retryStrategy (some 0)).map (· + 1) = some (2 ^ 64) := rfl
  have hm : AttemptsNeeded ((retryStrategy (some 0)).map (· + 1))
      (fun _ => (Outcome.ofResult (.error ()) : Outcome Unit Unit).retried .error) (2 ^ 64) := by
    rw [hbound]
    exact ⟨Nat.one_le_two_pow, by simp, fun _ _ => rfl, .inr rfl⟩
  have h := runRetry_resolves hm (2 ^ 64) le_rfl
  simp only [Outcome.withTimeout_ofResult] at h
  exact ⟨rfl, rfl, RetryConfigNoTimeout.run_of_runRetry rfl h⟩

/-! ## Runs that never settle -/

theorem Retry.spawnFrom_of_ok {I E : Type} {delays : Option Nat}
    {action : Nat → Except String (Except E I)} {r : Nat → Except E I}
    (h : ∀ k, action k = .ok (r k)) (fuel k : Nat) :
    Retry.spawnFrom delays action fuel k = .pending ∨
      ∃ n, k < n ∧ Retry.spawnFrom delays action fuel k = .resolved (r (n - 1)) n := by
  induction fuel generalizing k with
  | zero => exact .inl rfl
  | succ fuel ih =>
    rw [Retry.spawnFrom, h k]
    cases hr : r k with
    | ok v => exact .inr ⟨k + 1, by omega, by simp [hr]⟩
    | error e =>
      dsimp only
      split
      · rcases ih (k + 1) with hp | ⟨n, hn, hres⟩
        · exact .inl hp
        · exact .inr ⟨n, by omega, hres⟩
      · exact .inr ⟨k + 1, by omega, by simp [hr]⟩

theorem runRetry_pending_or_last {I E : Type} (c : RetryIf I E) (limitOpt : Option UInt64)
    (tryIt : Nat → Outcome I E) (fuel : Nat) :
    runRetry c limitOpt (fun k => (tryIt k).withTimeout) fuel = .pending ∨
      ∃ n, 0 < n ∧ runRetry c limitOpt (fun k => (tryIt k).withTimeout) fuel =
        .resolved (tryIt (n - 1)).withTimeout n := by
  simp only [runRetry, retryControl_withTimeout, Retry.spawn]
  rcases @Retry.spawnFrom_of_ok (Except (TimeoutError E) I) (Except (TimeoutError E) I) _ _
      (fun k => if (tryIt k).retried c then .error (tryIt k).withTimeout
        else .ok (tryIt k).withTimeout) (fun _ => rfl) fuel 0 with h | ⟨n, hn, h⟩
  · rw [h]
    exact .inl rfl
  · rw [h]
    exact .inr ⟨n, hn, by cases (tryIt (n - 1)).retried c <;> rfl⟩

theorem run_pending_or_last {I E : Type} (cfg : RetryConfig I E) (hlimit : cfg.limit ≠ .unknown)
    (fuel : Nat) :
    (∀ tryIt : Nat → Outcome I E, cfg.timeout.run tryIt fuel = .pending ∨
        ∃ n, 0 < n ∧ cfg.timeout.run tryIt fuel = .resolved (tryIt (n - 1)).withTimeout n) ∧
      ∀ tryIt : Nat → Except E I, cfg.noTimeout.run tryIt fuel = .pending ∨
        ∃ n, 0 < n ∧ cfg.noTimeout.run tryIt fuel = .resolved (tryIt (n - 1)) n := by
  obtain ⟨limitOpt, hun⟩ :
      ∃ limitOpt, cfg.limit.unwrap cfg.operationName "limit" = .ok limitOpt := by
    cases h : cfg.limit with
    | set v => exact ⟨some v, rfl⟩
    | clear => exact ⟨none, rfl⟩
    | unknown => exact absurd h hlimit
  refine ⟨fun tryIt => ?_, fun tryIt => ?_⟩
  · simp only [RetryConfigWithTimeout.run, RetryConfig.timeout, hun]
    exact runRetry_pending_or_last _ _ _ _
  · have hrun := runRetry_pending_or_last cfg.condition limitOpt
      (fun k => Outcome.ofResult (tryIt k)) fuel
    simp only [Outcome.withTimeout_ofResult] at hrun
    rcases hrun with h | ⟨n, hn, h⟩
    · left
      simp only [RetryConfigNoTimeout.run, RetryConfig.noTimeout, hun, h]
    · exact .inr ⟨n, hn, RetryConfigNoTimeout.run_of_runRetry hun h⟩

theorem run_pending_or_last_noLimit :
    ((⟨"op", .error, .clear⟩ : RetryConfig Unit Unit).limit ≠ .unknown) ∧
      ((⟨"op", .error, .clear⟩ : RetryConfig Unit Unit).noTimeout.run (fun _ => .error ()) 3 =
        .pending ∨ ∃ n, 0 < n ∧
          (⟨"op", .error, .clear⟩ : RetryConfig Unit Unit).noTimeout.run (fun _ => .error ()) 3 =
            .resolved (.error ()) n) :=
  ⟨fun h => RetryConfigProperty.noConfusion h,
    (run_pending_or_last ⟨"op", .error, .clear⟩ (fun h => RetryConfigProperty.noConfusion h) 3).2
      fun _ => .error ()⟩

/-! ## The builder chain

`retry(name, logger)` followed by any calls of `when`, `limit` and `no_limit`, in any order:
the limit must be configured exactly once, and the last `when` sets the condition. -/

/-- A call on the builder before `timeout` or `no_timeout`. -/
inductive BuilderCall (I E : Type) where
  | «when» (predicate : Except E I → Bool)
  | limit (limit : UInt64)
  | noLimit

namespace BuilderCall

variable {I E : Type}

def apply (cfg : RetryConfig I E) : BuilderCall I E → Except String (RetryConfig I E)
  | .when predicate => .ok (cfg.when predicate)
  | .limit n => cfg.setLimit n
  | .noLimit => cfg.noLimit

/-- The settings of the limit the calls make, in order. -/
def limitSettings : List (BuilderCall I E) → List (RetryConfigProperty UInt64)
  | [] => []
  | .when _ :: calls => limitSettings calls
  | .limit n :: calls => .set n :: limitSettings calls
  | .noLimit :: calls => .clear :: limitSettings calls

/-- The condition after the calls, from `condition`: the predicate of the last `when`. -/
def finalCondition (condition : RetryIf I E) : List (BuilderCall I E) → RetryIf I E
  | [] => condition
  | .when predicate :: calls => finalCondition (.predicate predicate) calls
  | _ :: calls => finalCondition condition calls

end BuilderCall

/-- The builder `retry(operationName, logger)` leaves after `calls`, or the panic of the call
that configures the limit a second time. -/
def retryThen {I E : Type} (operationName : String) (calls : List (BuilderCall I E)) :
    Except String (RetryConfig I E) :=
  calls.foldlM BuilderCall.apply (retry operationName)

namespace RetryConfigProperty

variable {V : Type}

theorem foldlM_configure_of_ne_unknown {p : RetryConfigProperty V} (hp : p ≠ .unknown)
    (q : RetryConfigProperty V) (ps : List (RetryConfigProperty V)) :
    (q :: ps).foldlM configure p = .error "Retry config properties must be configured only once" := by
  cases p with
  | unknown => exact absurd rfl hp
  | _ => rfl

end RetryConfigProperty

namespace BuilderCall

variable {I E : Type}

theorem limitSettings_ne_unknown (calls : List (BuilderCall I E)) :
    ∀ q ∈ limitSettings calls, q ≠ .unknown := by
  induction calls with
  | nil => simp [limitSettings]
  | cons call calls ih => cases call <;> simpa [limitSettings] using ih

theorem foldlM_apply (cfg : RetryConfig I E) (calls : List (BuilderCall I E)) :
    calls.foldlM apply cfg =
      ((limitSettings calls).foldlM RetryConfigProperty.configure cfg.limit).map fun limit =>
        { cfg with condition := finalCondition cfg.condition calls, limit := limit } := by
  induction calls generalizing cfg with
  | nil => rfl
  | cons call calls ih =>
    cases call with
    | «when» predicate => exact ih (cfg.when predicate)
    | limit n =>
      simp only [List.foldlM_cons, apply, RetryConfig.setLimit, limitSettings, finalCondition,
        RetryConfigProperty.configureSet]
      cases cfg.limit.configure (.set n) with
      | error => rfl
      | ok l => exact ih { cfg with limit := l }
    | noLimit =>
      simp only [List.foldlM_cons, apply, RetryConfig.noLimit, limitSettings, finalCondition,
        RetryConfigProperty.configureClear]
      cases cfg.limit.configure .clear with
      | error => rfl
      | ok l => exact ih { cfg with limit := l }

end BuilderCall

theorem retryThen_eq {I E : Type} (name : String) (calls : List (BuilderCall I E)) :
    retryThen name calls = match BuilderCall.limitSettings calls with
      | [] => .ok ⟨name, BuilderCall.finalCondition .error calls, .unknown⟩
      | [q] => .ok ⟨name, BuilderCall.finalCondition .error calls, q⟩
      | _ => .error "Retry config properties must be configured only once" := by
  rw [retryThen, BuilderCall.foldlM_apply, retry]
  have hne := BuilderCall.limitSettings_ne_unknown calls
  rcases h : BuilderCall.limitSettings calls with _ | ⟨q, _ | ⟨q', qs⟩⟩
  · rfl
  · rfl
  · exact congrArg (Except.map _) (RetryConfigProperty.foldlM_configure_of_ne_unknown
      (hne q (by simp [h])) q' qs)

end Fundex
