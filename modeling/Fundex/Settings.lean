import Fundex.LoadManager

namespace Fundex

/-! ## Load management off

"Load management can be disabled by setting the threshold to 0. This makes sure in particular
that we never take any of the locks associated with it." -/

section Disabled

variable (cfg : Config) (r : Rounding)

theorem LoadManager.recordWork_of_disabled (hd : cfg.loadManagementDisabled = true)
    (lm : LoadManager) (h : UInt64) (d now : Nat) : lm.recordWork cfg h d now = lm := by
  simp [LoadManager.recordWork, hd]

theorem decideStart_of_disabled (hd : cfg.loadManagementDisabled = true) (lm : LoadManager)
    (h : UInt64) :
    decideStart cfg lm h =
      .done (if h ∈ cfg.blockedQueries then .tooExpensive else .proceed) := by
  unfold decideStart
  split <;> simp_all

structure DisabledOk (w : World) : Prop where
  calls : ∀ c ∈ w.calls,
    c.phase = .done (if c.shapeHash ∈ cfg.blockedQueries then .tooExpensive else .proceed)
  effort : w.lm.effort = .new cfg.windowSize cfg.binSize
  jailed : w.lm.jailedQueries = []
  killState : ∃ clock, w.lm.killState = KillState.new clock

theorem DisabledOk.step (hd : cfg.loadManagementDisabled = true) {serial : Bool} {w w' : World}
    (hw : DisabledOk cfg w) (hs : Step cfg r serial w w') : DisabledOk cfg w' := by
  cases hs with
  | tick => exact ⟨hw.calls, hw.effort, hw.jailed, hw.killState⟩
  | recordWork =>
    simp only [LoadManager.recordWork_of_disabled cfg hd]
    exact hw
  | queryPermit => exact ⟨hw.calls, hw.effort, hw.jailed, hw.killState⟩
  | decide h =>
    refine ⟨fun c hc => ?_, hw.effort, hw.jailed, hw.killState⟩
    rcases List.mem_append.mp hc with hc | hc
    · exact hw.calls c hc
    · rw [List.mem_singleton.mp hc]
      exact decideStart_of_disabled cfg hd _ _
  | advance i c hc sa v =>
    have hdone : c.phase.isDone := by
      rw [hw.calls c (List.getElem?_mem hc)]
      rfl
    rwa [World.advance_of_isDone cfg r hc hdone]

theorem Reachable.disabledOk (hd : cfg.loadManagementDisabled = true) {serial : Bool}
    {w : World} (hw : Reachable cfg r serial w) : DisabledOk cfg w := by
  induction hw with
  | init clock => exact ⟨by simp [World.init], rfl, rfl, clock, rfl⟩
  | step _ hs ih => exact ih.step cfg r hd hs

theorem disabled_answers_at_once {serial : Bool} {w : World}
    (hd : cfg.loadManagementDisabled = true) (hw : Reachable cfg r serial w) :
    (∀ c ∈ w.calls,
        c.phase = .done (if c.shapeHash ∈ cfg.blockedQueries then .tooExpensive else .proceed)) ∧
      w.lm.effort = .new cfg.windowSize cfg.binSize ∧ w.lm.jailedQueries = [] ∧
      ∃ clock, w.lm.killState = KillState.new clock := by
  have hinv := Reachable.disabledOk cfg r hd hw
  exact ⟨hinv.calls, hinv.effort, hinv.jailed, hinv.killState⟩

end Disabled

def disabledConfig : Config := ⟨0, false, .fin 1000000000, false, 300000000000, 1000000000, [7]⟩

/-- A blocked and an unblocked query, with work recorded, a permit waited for and the clock
moving in between. -/
def disabledRun : List Action :=
  [.recordWork 7 5000000, .decide 7, .decide 1, .queryPermit 2000000000,
    .advance 0 (some 1000000000) 0, .tick 1000000000, .decide 1, .advance 2 none 0]

set_option maxRecDepth 100000 in
theorem disabled_answers_at_once_blocked :
    ∃ w, Reachable disabledConfig .exact false w ∧
      w.calls = [⟨7, .done .tooExpensive⟩, ⟨1, .done .proceed⟩, ⟨1, .done .proceed⟩] ∧
      (∀ c ∈ w.calls, c.phase =
        .done (if c.shapeHash ∈ disabledConfig.blockedQueries then .tooExpensive else .proceed)) ∧
      w.lm.effort = .new disabledConfig.windowSize disabledConfig.binSize ∧
      w.lm.jailedQueries = [] ∧ ∃ clock, w.lm.killState = KillState.new clock := by
  obtain ⟨w, _, -, hw, hp⟩ := World.run_check disabledConfig .exact
    (show ((World.init disabledConfig 100000000000).run disabledConfig .exact disabledRun).map
        (fun x => decide (x.1.calls =
          [⟨7, .done .tooExpensive⟩, ⟨1, .done .proceed⟩, ⟨1, .done .proceed⟩])) = some true by
      with_unfolding_all decide)
  exact ⟨w, hw, of_decide_eq_true hp, disabled_answers_at_once disabledConfig .exact rfl hw⟩

/-! ## The query semaphore -/

/-- `a + b` on `usize` as Rust compiles it: a debug build checks for overflow and panics, a
release build wraps modulo `2^64`. -/
def usizeAdd (debug : Bool) (a b : UInt64) : Except String UInt64 :=
  if debug && decide (2 ^ 64 ≤ a.toNat + b.toNat) then .error "attempt to add with overflow"
  else .ok (a + b)

/-- `max_concurrent_queries` of `LoadManager::new`:
`store_conn_pool_size + num_cpus::get() + *EXTRA_QUERY_PERMITS`, the permits of the query
semaphore. -/
def maxConcurrentQueries (debug : Bool) (storeConnPoolSize numCpus extraQueryPermits : UInt64) :
    Except String UInt64 :=
  (usizeAdd debug storeConnPoolSize numCpus).bind fun s => usizeAdd debug s extraQueryPermits

theorem maxConcurrentQueries_eq (debug : Bool) (pool cpus extra : UInt64) :
    maxConcurrentQueries debug pool cpus extra =
      if debug ∧ 2 ^ 64 ≤ pool.toNat + cpus.toNat + extra.toNat then
        .error "attempt to add with overflow"
      else .ok (pool + cpus + extra) := by
  cases debug with
  | false => rfl
  | true =>
    simp only [maxConcurrentQueries, usizeAdd, Bool.true_and, true_and, decide_eq_true_eq]
    by_cases h1 : 2 ^ 64 ≤ pool.toNat + cpus.toNat
    · rw [if_pos h1, if_pos (by omega)]
      rfl
    · have hsum : (pool + cpus).toNat = pool.toNat + cpus.toNat :=
        (UInt64.toNat_add pool cpus).trans (Nat.mod_eq_of_lt (by simpa using h1))
      simp only [if_neg h1, Except.bind, hsum]

/-- `tokio::sync::Semaphore::MAX_PERMITS`, `usize::MAX >> 3`. -/
def maxPermits : Nat := 2 ^ 61 - 1

/-- `tokio::sync::Semaphore::new(permits)`, from tokio's source, which is not in the repository:
it asserts `permits <= MAX_PERMITS` in every build. -/
def semaphoreNew (permits : UInt64) : Except String Nat :=
  if permits.toNat ≤ maxPermits then .ok permits.toNat
  else .error "a semaphore may not have more than MAX_PERMITS permits (2305843009213693951)"

theorem semaphoreNew_eq_ok (permits : UInt64) (n : Nat) :
    semaphoreNew permits = .ok n ↔ n = permits.toNat ∧ n ≤ maxPermits := by
  unfold semaphoreNew
  split <;> simp only [Except.ok.injEq, reduceCtorEq, false_iff, not_and] <;> omega

/-- The query semaphore of `LoadManager::new`: its permits, or the panic of the sum or of
`Semaphore::new`. -/
def querySemaphore (debug : Bool) (storeConnPoolSize numCpus extraQueryPermits : UInt64) :
    Except String Nat :=
  (maxConcurrentQueries debug storeConnPoolSize numCpus extraQueryPermits).bind semaphoreNew

theorem querySemaphore_eq (debug : Bool) (pool cpus extra : UInt64) :
    querySemaphore debug pool cpus extra =
      if debug ∧ 2 ^ 64 ≤ pool.toNat + cpus.toNat + extra.toNat then
        .error "attempt to add with overflow"
      else semaphoreNew (pool + cpus + extra) := by
  rw [querySemaphore, maxConcurrentQueries_eq]
  split <;> rfl

theorem toNat_add_add (a b c : UInt64) :
    (a + b + c).toNat = (a.toNat + b.toNat + c.toNat) % 2 ^ 64 := by
  simp only [UInt64.toNat_add, Nat.mod_add_mod]
  rfl

/-- `GRAPH_EXTRA_QUERY_PERMITS` is documented as a way to "effectively disable the semaphore by
setting it to a high number". -/
theorem querySemaphore_overflow (pool cpus extra : UInt64) :
    (∀ debug permits, querySemaphore debug pool cpus extra = .ok permits ↔
        (debug = false ∨ pool.toNat + cpus.toNat + extra.toNat < 2 ^ 64) ∧
          permits = (pool.toNat + cpus.toNat + extra.toNat) % 2 ^ 64 ∧ permits ≤ maxPermits) ∧
      (querySemaphore true pool cpus extra = .error "attempt to add with overflow" ↔
        2 ^ 64 ≤ pool.toNat + cpus.toNat + extra.toNat) ∧
      (maxPermits < pool.toNat + cpus.toNat + extra.toNat → ∀ debug permits,
        querySemaphore debug pool cpus extra = .ok permits → permits < pool.toNat + cpus.toNat) := by
  have hok : ∀ debug permits, querySemaphore debug pool cpus extra = .ok permits ↔
      (debug = false ∨ pool.toNat + cpus.toNat + extra.toNat < 2 ^ 64) ∧
        permits = (pool.toNat + cpus.toNat + extra.toNat) % 2 ^ 64 ∧ permits ≤ maxPermits := by
    intro debug permits
    rw [querySemaphore_eq, ← toNat_add_add]
    split_ifs with h
    · refine iff_of_false (fun h => nomatch h) ?_
      rintro ⟨hd | hlt, -⟩
      · simp [hd] at h
      · omega
    · rw [semaphoreNew_eq_ok]
      refine (and_iff_right ?_).symm
      cases debug
      · exact .inl rfl
      · exact .inr (by simpa using h)
  refine ⟨hok, ?_, fun hbig debug permits h => ?_⟩
  · rw [querySemaphore_eq]
    split_ifs with h
    · exact iff_of_true rfl h.2
    · refine iff_of_false ?_ (fun ho => h ⟨rfl, ho⟩)
      unfold semaphoreNew
      split
      · exact fun h => nomatch h
      · exact fun h => absurd (Except.error.inj h) (by decide)
  · obtain ⟨-, rfl, hle⟩ := (hok debug permits).mp h
    have := pool.toNat_lt
    have := cpus.toNat_lt
    have := extra.toNat_lt
    omega

/-- A pool of 10 connections on 8 CPUs with `GRAPH_EXTRA_QUERY_PERMITS` at `usize::MAX`: a debug
build panics on the sum, a release build wraps it to 17 permits, one fewer than with no extra
permits. -/
theorem querySemaphore_overflow_max_extra :
    querySemaphore true 10 8 (2 ^ 64 - 1) = .error "attempt to add with overflow" ∧
      querySemaphore false 10 8 (2 ^ 64 - 1) = .ok 17 ∧
      17 < (10 : UInt64).toNat + (8 : UInt64).toNat :=
  have h : querySemaphore false 10 8 (2 ^ 64 - 1) = .ok 17 := rfl
  ⟨(querySemaphore_overflow 10 8 (2 ^ 64 - 1)).2.1.mpr (by decide), h,
    (querySemaphore_overflow 10 8 (2 ^ 64 - 1)).2.2 (by decide) false 17 h⟩

end Fundex
